/-
Module: InputScript.Proofs.Findings
Purpose: What the walk of a run comes upon.  The walk is followed by one that also notes the state of
  the signal where it looks at it, the loops that it starts, and how the steps of bounded blocks
  return.  Noting changes nothing, and the state of the run can be read off the notes alone.
Main exports: Finding, noteWalk, noteExecute, noteExecute_settles
-/
import InputScript.Proofs.Interleaving

namespace InputScript.Interleaving

open Catalog Run Script
open Activity (runs_finished runs_perform runs_bind_ok bind_eq)

/-! ### Findings of a walk -/

/-- Something that the walk of a run comes upon. -/
inductive Finding where
  /-- It has looked at the signal, before a block or before a step. -/
  | looked (stopping : Bool)
  /-- It has started the loop of an unbounded block, given by its place in the program. -/
  | started (index : Nat)
  /-- A step of a bounded block has returned. -/
  | returned (index : Nat) (step : Script.Step) (outcome : Outcome)

/-- What a part of a walk gives, and what it has come upon. -/
structure Noted (α : Type) where
  value : α
  findings : List Finding

section Noting

variable (registry : Registry)

/-- Carry out the steps of a block once, noting what is found. -/
def noteSteps (index : Nat) : List Script.Step → RunActivity (Noted RunState)
  | [] => pure ⟨.completed, []⟩
  | step :: rest => do
    if ← isStopping then return ⟨.cancelled, [.looked true]⟩
    let outcome ← invoke registry step
    match outcome with
    | .cancelled => return ⟨.cancelled, [.looked false, .returned index step outcome]⟩
    | .failed _ false =>
      log .error s!"Block {index + 1}: aborted at {step.name}"
      return ⟨.faulted, [.looked false, .returned index step outcome]⟩
    | _ =>
      let later ← noteSteps index rest
      return ⟨later.value, .looked false :: .returned index step outcome :: later.findings⟩

/-- Carry out the steps of a block a number of times, noting what is found. -/
def notePasses (index : Nat) (steps : List Script.Step) : Nat → RunActivity (Noted RunState)
  | 0 => pure ⟨.completed, []⟩
  | passes + 1 => do
    let pass ← noteSteps registry index steps
    match pass.value with
    | .completed =>
      let later ← notePasses index steps passes
      return ⟨later.value, pass.findings ++ later.findings⟩
    | _ => return pass

/-- Carry out a bounded block, noting what is found. -/
def noteBounded (index : Nat) (block : Block) : RunActivity (Noted RunState) := do
  log .debug s!"Block {index + 1}: {block.repetition.passes} iteration(s)"
  if block.steps.isEmpty then return ⟨.completed, []⟩
  notePasses registry index block.steps block.repetition.passes

/-- Walk through the blocks from the given place on, noting what is found. -/
def noteWalk (index loops : Nat) : List Block → RunActivity (Noted WalkEnd)
  | [] => pure ⟨⟨.completed, loops⟩, []⟩
  | block :: rest => do
    if ← isStopping then return ⟨⟨.cancelled, loops⟩, [.looked true]⟩
    match block.repetition with
    | .forever =>
      log .info s!"Block {index + 1}: looping until stopped"
      spawn index block
      let later ← noteWalk (index + 1) (loops + 1) rest
      return ⟨later.value, .looked false :: .started index :: later.findings⟩
    | .times _ =>
      let bounded ← noteBounded registry index block
      match bounded.value with
      | .completed =>
        let later ← noteWalk (index + 1) loops rest
        return ⟨later.value, .looked false :: (bounded.findings ++ later.findings)⟩
      | state => return ⟨⟨state, loops⟩, .looked false :: bounded.findings⟩

/-- Walk through the blocks and wait for the loops, noting what is found. -/
def noteWalkAndJoin (blocks : List Block) : RunActivity (Noted RunState) := do
  let walked ← noteWalk registry 0 0 blocks
  if walked.value.loops == 0 then return ⟨walked.value.state, walked.findings⟩
  join false
  if walked.value.state == .completed then return ⟨.cancelled, walked.findings⟩
  return ⟨walked.value.state, walked.findings⟩

/-- Run a program, noting what the walk finds. -/
def noteExecute (program : Program) : RunActivity (Noted RunState) := do
  match ← (noteWalkAndJoin registry program.blocks).attempt with
  | .ok noted => return noted
  | .error (.fault fault) => Activity.fail fault
  | .error .revoked =>
    stop
    revokeLoops
    join true
    Activity.interrupt .revoked

end Noting

/-! ### Noting changes nothing -/

section Erasure

variable (registry : Registry)

/-- An activity without its notes. -/
def erase {α : Type} (activity : RunActivity (Noted α)) : RunActivity α :=
  activity.bind fun noted => .finished (.ok noted.value)

theorem erase_bind {α β : Type} (activity : RunActivity α) (next : α → RunActivity (Noted β)) :
    erase (activity.bind next) = activity.bind fun value => erase (next value) :=
  Activity.bind_assoc activity next _

theorem noteSteps_erase (index : Nat) (steps : List Script.Step) :
    erase (noteSteps registry index steps) = runSteps registry index steps := by
  induction steps with
  | nil => rfl
  | cons step rest hypothesis =>
      rw [noteSteps, runSteps, bind_eq, erase_bind]
      congr 1
      funext stopping
      cases stopping with
      | true => rfl
      | false =>
          refine (erase_bind _ _).trans ?_
          congr 1
          funext outcome
          match outcome with
          | .cancelled => rfl
          | .failed message false => exact erase_bind _ _
          | .failed message true => exact (erase_bind _ _).trans hypothesis
          | .success value => exact (erase_bind _ _).trans hypothesis

theorem notePasses_erase (index : Nat) (steps : List Script.Step) (passes : Nat) :
    erase (notePasses registry index steps passes) = runPasses registry index steps passes := by
  induction passes with
  | zero => rfl
  | succ passes hypothesis =>
      rw [notePasses, runPasses, ← noteSteps_erase, bind_eq, erase_bind, erase,
        bind_eq, Activity.bind_assoc]
      congr 1
      funext pass
      obtain ⟨state, findings⟩ := pass
      cases state with
      | completed => exact (erase_bind _ _).trans hypothesis
      | _ => rfl

theorem noteBounded_erase (index : Nat) (block : Block) :
    erase (noteBounded registry index block) = runBounded registry index block := by
  rw [noteBounded, runBounded, bind_eq, erase_bind]
  congr 1
  funext _
  by_cases empty : block.steps.isEmpty = true
  · rw [if_pos empty, if_pos empty]
    rfl
  · rw [if_neg empty, if_neg empty]
    exact notePasses_erase registry index _ _

theorem noteWalk_erase (index loops : Nat) (blocks : List Block) :
    erase (noteWalk registry index loops blocks) = walk registry index loops blocks := by
  induction blocks generalizing index loops with
  | nil => rfl
  | cons block rest hypothesis =>
      rw [noteWalk, walk, bind_eq, erase_bind]
      congr 1
      funext stopping
      cases stopping with
      | true => rfl
      | false =>
          cases block.repetition with
          | forever =>
              refine (erase_bind _ _).trans ?_
              congr 1
              funext _
              refine (erase_bind _ _).trans ?_
              congr 1
              funext _
              exact (erase_bind _ _).trans (hypothesis _ _)
          | times count =>
              refine (erase_bind _ _).trans ?_
              refine Eq.trans ?_ (congrArg (Activity.bind · _) (noteBounded_erase registry index block))
              rw [erase, Activity.bind_assoc]
              congr 1
              funext bounded
              obtain ⟨state, findings⟩ := bounded
              cases state with
              | completed => exact (erase_bind _ _).trans (hypothesis _ _)
              | _ => rfl

theorem noteWalkAndJoin_erase (blocks : List Block) :
    erase (noteWalkAndJoin registry blocks) = walkAndJoin registry blocks := by
  rw [noteWalkAndJoin, walkAndJoin, ← noteWalk_erase, bind_eq, erase_bind, erase,
    bind_eq, Activity.bind_assoc]
  congr 1
  funext walked
  obtain ⟨⟨state, loops⟩, findings⟩ := walked
  cases loops with
  | zero => rfl
  | succ loops =>
      refine (erase_bind _ _).trans ?_
      congr 1
      funext _
      cases state <;> rfl

theorem erase_attempt {α : Type} (activity : RunActivity (Noted α)) :
    (erase activity).attempt =
      activity.attempt.bind fun result => .finished (.ok (result.map Noted.value)) := by
  induction activity with
  | finished result => cases result <;> rfl
  | perform request next hypothesis =>
      exact congrArg (Activity.perform request) (funext hypothesis)

/-- Running a program with notes makes the same requests and gives the same state as running it. -/
theorem noteExecute_erase (program : Program) :
    erase (noteExecute registry program) = execute registry program := by
  rw [noteExecute, execute, ← noteWalkAndJoin_erase, erase_attempt]
  refine (erase_bind _ _).trans (Eq.trans ?_ (Activity.bind_assoc _ _ _).symm)
  congr 1
  funext result
  rcases result with (fault | _) | noted
  · rfl
  · refine (erase_bind _ _).trans ?_
    congr 1
    funext _
    refine (erase_bind _ _).trans ?_
    congr 1
    funext _
    exact erase_bind _ _
  · rfl

end Erasure

/-! ### The state and the findings -/

/-- Whether a finding is a step that failed, though it could be resolved. -/
def Finding.isFailure : Finding → Bool
  | .returned _ _ (.failed _ false) => true
  | _ => false

/-- Whether a finding tells that the run is to be stopped. -/
def Finding.isStop : Finding → Bool
  | .looked stopping => stopping
  | .returned _ _ .cancelled => true
  | _ => false

/-- Whether a finding is the start of a loop. -/
def Finding.isStart : Finding → Bool
  | .started _ => true
  | _ => false

/-- Whether a finding is about a program: loops are started for unbounded blocks, and steps return
that stand in bounded blocks. -/
def Finding.Concerns (blocks : List Block) : Finding → Prop
  | .looked _ => True
  | .started index => ∃ block, blocks[index]? = some block ∧ block.repetition = .forever
  | .returned index step _ =>
    ∃ block count, blocks[index]? = some block ∧ block.repetition = .times count ∧
      step ∈ block.steps

/-- The state that bounded blocks with such findings end in. -/
def verdict (findings : List Finding) : RunState :=
  if findings.any Finding.isFailure then .faulted
  else if findings.any Finding.isStop then .cancelled
  else .completed

/-- As long as nothing was found, the state is decided by what comes later. -/
theorem verdict_append {earlier later : List Finding} (completed : verdict earlier = .completed) :
    verdict (earlier ++ later) = verdict later := by
  have quiet : earlier.any Finding.isFailure = false ∧ earlier.any Finding.isStop = false := by
    unfold verdict at completed
    split at completed
    · cases completed
    · split at completed
      · cases completed
      · simp_all
  simp only [verdict, List.any_append, quiet.1, quiet.2, Bool.false_or]

section Notes

variable {registry : Registry} {blocks : List Block}

/-- Whether the notes on bounded blocks are as they should be: they decide the state, are about steps
of bounded blocks, and no loop was started. -/
structure Noted.Decides (blocks : List Block) (noted : Noted RunState) : Prop where
  state : noted.value = verdict noted.findings
  concerns : ∀ finding ∈ noted.findings, finding.Concerns blocks
  quiet : noted.findings.any Finding.isStart = false

theorem decides_nil : (⟨.completed, []⟩ : Noted RunState).Decides blocks :=
  ⟨rfl, nofun, rfl⟩

/-- After notes that decide nothing, the state is decided by those that come later. -/
theorem Noted.Decides.append {earlier later : Noted RunState} (first : earlier.Decides blocks)
    (completed : earlier.value = .completed) (second : later.Decides blocks) :
    (⟨later.value, earlier.findings ++ later.findings⟩ : Noted RunState).Decides blocks where
  state := by
    rw [verdict_append (first.state.symm.trans completed)]
    exact second.state
  concerns finding member := by
    rcases List.mem_append.mp member with old | new
    · exact first.concerns finding old
    · exact second.concerns finding new
  quiet := by
    rw [List.any_append, first.quiet, second.quiet]
    rfl

/-- A look at the signal decides the state if it is found set. -/
theorem decides_looked (stopping : Bool) :
    (⟨verdict [.looked stopping], [.looked stopping]⟩ : Noted RunState).Decides blocks where
  state := rfl
  concerns finding member := by
    obtain rfl := List.mem_singleton.mp member
    trivial
  quiet := rfl

variable {noted : Noted RunState}

theorem Noted.Decides.look (decides : noted.Decides blocks) :
    (⟨noted.value, .looked false :: noted.findings⟩ : Noted RunState).Decides blocks :=
  (decides_looked false).append rfl decides

theorem Noted.Decides.countP_isStart (decides : noted.Decides blocks) :
    noted.findings.countP Finding.isStart = 0 := by
  rw [List.countP_eq_zero]
  simpa using decides.quiet

section Bounded

variable {index : Nat} {block : Block} {count : Int} (found : blocks[index]? = some block)
  (bounded : block.repetition = .times count)

include found bounded

theorem decides_returned {step : Script.Step} (member : step ∈ block.steps) (outcome : Outcome) :
    (⟨verdict [.returned index step outcome], [.returned index step outcome]⟩ :
      Noted RunState).Decides blocks where
  state := rfl
  concerns finding inside := by
    obtain rfl := List.mem_singleton.mp inside
    exact ⟨block, count, found, bounded, member⟩
  quiet := rfl

variable {exchanges : List RunExchange} {noted : Noted RunState}

/-- One pass through steps of a bounded block: the walk stops at the first step that is cancelled or
fails, and steps that cannot be resolved are passed over. -/
theorem noteSteps_decides {steps : List Script.Step} (among : ∀ step ∈ steps, step ∈ block.steps)
    (ran : (noteSteps registry index steps).Runs exchanges (.ok noted)) : noted.Decides blocks := by
  induction steps generalizing exchanges noted with
  | nil =>
      cases (runs_finished.mp ran).2
      exact decides_nil
  | cons step rest hypothesis =>
      have stepped (outcome : Outcome) :=
        (decides_returned found bounded (among step List.mem_cons_self) outcome).look
      have amongRest : ∀ step ∈ rest, step ∈ block.steps :=
        fun step member => among step (List.mem_cons_of_mem _ member)
      rw [noteSteps] at ran
      obtain ⟨_, _, stopping, -, -, ran⟩ := runs_bind_ok.mp ran
      cases stopping with
      | true =>
          cases (runs_finished.mp ran).2
          exact decides_looked true
      | false =>
          obtain ⟨_, _, outcome, -, -, ran⟩ := runs_bind_ok.mp ran
          match outcome, ran with
          | .cancelled, ran =>
              cases (runs_finished.mp ran).2
              exact stepped .cancelled
          | .failed message false, ran =>
              obtain ⟨_, _, _, -, -, ran⟩ := runs_bind_ok.mp ran
              cases (runs_finished.mp ran).2
              exact stepped (.failed message false)
          | .failed message true, ran =>
              obtain ⟨_, _, later, -, goesOn, ends⟩ := runs_bind_ok.mp ran
              cases (runs_finished.mp ends).2
              exact (stepped (.failed message true)).append rfl (hypothesis amongRest goesOn)
          | .success value, ran =>
              obtain ⟨_, _, later, -, goesOn, ends⟩ := runs_bind_ok.mp ran
              cases (runs_finished.mp ends).2
              exact (stepped (.success value)).append rfl (hypothesis amongRest goesOn)

theorem notePasses_decides {passes : Nat}
    (ran : (notePasses registry index block.steps passes).Runs exchanges (.ok noted)) :
    noted.Decides blocks := by
  induction passes generalizing exchanges noted with
  | zero =>
      cases (runs_finished.mp ran).2
      exact decides_nil
  | succ passes hypothesis =>
      rw [notePasses] at ran
      obtain ⟨_, _, pass, -, passed, ran⟩ := runs_bind_ok.mp ran
      have decides := noteSteps_decides found bounded (fun _ member => member) passed
      obtain ⟨state, findings⟩ := pass
      cases state with
      | completed =>
          obtain ⟨_, _, later, -, goesOn, ends⟩ := runs_bind_ok.mp ran
          cases (runs_finished.mp ends).2
          exact decides.append rfl (hypothesis goesOn)
      | _ =>
          cases (runs_finished.mp ran).2
          exact decides

theorem noteBounded_decides (ran : (noteBounded registry index block).Runs exchanges (.ok noted)) :
    noted.Decides blocks := by
  rw [noteBounded] at ran
  obtain ⟨_, _, _, -, -, ran⟩ := runs_bind_ok.mp ran
  split at ran
  · cases (runs_finished.mp ran).2
    exact decides_nil
  · exact notePasses_decides found bounded ran

end Bounded

variable {index : Nat} {block : Block} {rest : List Block}

theorem getElem?_of_drop (dropped : blocks.drop index = block :: rest) :
    blocks[index]? = some block := by
  rw [← Nat.add_zero index, ← List.getElem?_drop, dropped]
  rfl

theorem drop_succ_of_drop (dropped : blocks.drop index = block :: rest) :
    blocks.drop (index + 1) = rest := by
  simpa using congrArg List.tail dropped

/-- Whether the notes on a walk are as they should be: they decide its state, are about the program,
and tell of each loop that it has counted and has asked for. -/
structure Noted.Traces (registry : Registry) (blocks : List Block) (loops : Nat)
    (exchanges : List RunExchange) (noted : Noted WalkEnd) : Prop where
  state : noted.value.state = verdict noted.findings
  concerns : ∀ finding ∈ noted.findings, finding.Concerns blocks
  loops : noted.value.loops = loops + noted.findings.countP Finding.isStart
  spawns : noted.findings.any Finding.isStart = true →
    ∃ exchange ∈ exchanges, startedBy registry exchange ≠ []

/-- Notes on bounded blocks are notes on a walk that starts no loop. -/
theorem Noted.Decides.traces (decides : noted.Decides blocks) (loops : Nat)
    (exchanges : List RunExchange) :
    (⟨⟨noted.value, loops⟩, noted.findings⟩ : Noted WalkEnd).Traces registry blocks loops
      exchanges where
  state := decides.state
  concerns := decides.concerns
  loops := by
    rw [decides.countP_isStart]
    rfl
  spawns starts := by
    rw [decides.quiet] at starts
    cases starts

variable {exchanges : List RunExchange}

/-- Notes on a bounded block come before those on the walk from the next block on. -/
theorem Noted.Traces.after {bounded : Noted RunState} {later : Noted WalkEnd} {loops : Nat}
    (traces : later.Traces registry blocks loops exchanges) (decides : bounded.Decides blocks)
    (completed : bounded.value = .completed) (earlier : List RunExchange) :
    (⟨later.value, bounded.findings ++ later.findings⟩ : Noted WalkEnd).Traces registry blocks loops
      (earlier ++ exchanges) where
  state := by
    rw [verdict_append (decides.state.symm.trans completed)]
    exact traces.state
  concerns finding member := by
    rcases List.mem_append.mp member with old | new
    · exact decides.concerns finding old
    · exact traces.concerns finding new
  loops := by
    rw [List.countP_append, decides.countP_isStart, Nat.zero_add]
    exact traces.loops
  spawns starts := by
    rw [List.any_append, decides.quiet] at starts
    obtain ⟨exchange, member, started⟩ := traces.spawns starts
    exact ⟨exchange, List.mem_append_right _ member, started⟩

/-- The start of a loop comes before the notes on the walk from the next block on. -/
theorem Noted.Traces.start {later : Noted WalkEnd} {loops : Nat}
    (traces : later.Traces registry blocks (loops + 1) exchanges)
    (found : blocks[index]? = some block) (unbounded : block.repetition = .forever)
    (earlier : List RunExchange) :
    (⟨later.value, .started index :: later.findings⟩ : Noted WalkEnd).Traces registry blocks loops
      (earlier ++ ⟨.spawn index block, ()⟩ :: exchanges) where
  state := traces.state
  concerns finding member := by
    rcases List.mem_cons.mp member with rfl | new
    · exact ⟨block, found, unbounded⟩
    · exact traces.concerns finding new
  loops := by
    rw [List.countP_cons_of_pos rfl]
    exact traces.loops.trans (Nat.add_right_comm _ _ _)
  spawns _ := ⟨⟨.spawn index block, ()⟩, by simp, nofun⟩

/-- The walk from a place of the program on. -/
theorem noteWalk_traces {loops : Nat} (dropped : blocks.drop index = rest) {noted : Noted WalkEnd}
    (ran : (noteWalk registry index loops rest).Runs exchanges (.ok noted)) :
    noted.Traces registry blocks loops exchanges := by
  induction rest generalizing index loops exchanges noted with
  | nil =>
      cases (runs_finished.mp ran).2
      exact decides_nil.traces loops exchanges
  | cons block rest hypothesis =>
      have found := getElem?_of_drop dropped
      rw [noteWalk] at ran
      obtain ⟨look, _, stopping, rfl, -, ran⟩ := runs_bind_ok.mp ran
      cases stopping with
      | true =>
          cases (runs_finished.mp ran).2
          exact (decides_looked true).traces loops _
      | false =>
          cases repetition : block.repetition with
          | forever =>
              rw [repetition] at ran
              obtain ⟨line, _, _, rfl, -, ran⟩ := runs_bind_ok.mp ran
              obtain ⟨_, _, _, rfl, spawned, ran⟩ := runs_bind_ok.mp ran
              obtain ⟨_, _, later, rfl, goesOn, ends⟩ := runs_bind_ok.mp ran
              obtain ⟨rfl, same⟩ := runs_finished.mp ends
              obtain ⟨_, _, rfl, begun⟩ := runs_perform.mp spawned
              obtain ⟨rfl, -⟩ := runs_finished.mp begun
              cases same
              have traces := hypothesis (drop_succ_of_drop dropped) goesOn
              rw [List.append_nil]
              exact (traces.start found repetition line).after (decides_looked false) rfl look
          | times count =>
              rw [repetition] at ran
              obtain ⟨passes, _, bounded, rfl, carried, ran⟩ := runs_bind_ok.mp ran
              have decides := (noteBounded_decides found repetition carried).look
              obtain ⟨state, findings⟩ := bounded
              cases state with
              | completed =>
                  obtain ⟨_, _, later, rfl, goesOn, ends⟩ := runs_bind_ok.mp ran
                  obtain ⟨rfl, same⟩ := runs_finished.mp ends
                  cases same
                  have traces := hypothesis (drop_succ_of_drop dropped) goesOn
                  rw [List.append_nil, ← List.append_assoc]
                  exact traces.after decides rfl _
              | _ =>
                  cases (runs_finished.mp ran).2
                  exact decides.traces loops _

/-- The state that a run with such findings ends in: a run that has started loops is never
completed. -/
def conclusion (findings : List Finding) : RunState :=
  if findings.any Finding.isFailure then .faulted
  else if findings.any Finding.isStop || findings.any Finding.isStart then .cancelled
  else .completed

theorem conclusion_of_quiet {findings : List Finding}
    (quiet : findings.any Finding.isStart = false) : conclusion findings = verdict findings := by
  simp only [conclusion, verdict, quiet, Bool.or_false]

/-- With loops, a walk that has found nothing is cancelled all the same. -/
theorem conclusion_of_loud {findings : List Finding} (loud : findings.any Finding.isStart = true) :
    conclusion findings =
      if verdict findings == .completed then .cancelled else verdict findings := by
  unfold conclusion verdict
  rw [loud]
  by_cases failed : findings.any Finding.isFailure = true
  · simp [failed]
  · by_cases stops : findings.any Finding.isStop = true
    · simp [failed, stops]
    · simp [failed, stops]

/-- Whether the notes on a whole run are as they should be: they decide its state and are about the
program, and if a loop was started, the walk has asked for it and its last exchange is the end of the
wait for the loops. -/
structure Noted.Settles (registry : Registry) (blocks : List Block)
    (exchanges : List RunExchange) (noted : Noted RunState) : Prop where
  state : noted.value = conclusion noted.findings
  concerns : ∀ finding ∈ noted.findings, finding.Concerns blocks
  spawns : noted.findings.any Finding.isStart = true →
    ∃ exchange ∈ exchanges, startedBy registry exchange ≠ []
  joins : noted.findings.any Finding.isStart = true →
    exchanges.getLast? = some ⟨.join false, .ok ()⟩

theorem noteWalkAndJoin_settles
    (ran : (noteWalkAndJoin registry blocks).Runs exchanges (.ok noted)) :
    noted.Settles registry blocks exchanges := by
  rw [noteWalkAndJoin] at ran
  obtain ⟨first, second, walked, rfl, walks, ran⟩ := runs_bind_ok.mp ran
  obtain ⟨state, concerns, loops, spawns⟩ := noteWalk_traces List.drop_zero walks
  rw [Nat.zero_add] at loops
  by_cases loud : walked.findings.any Finding.isStart = true
  · have some : walked.value.loops ≠ 0 := by
      rw [loops, Nat.ne_zero_iff_zero_lt, List.countP_pos_iff]
      simpa using loud
    rw [if_neg (by simpa using some)] at ran
    obtain ⟨_, last, _, rfl, joined, concludes⟩ := runs_bind_ok.mp ran
    obtain ⟨answer, _, rfl, ends⟩ := runs_perform.mp joined
    obtain ⟨rfl, rfl⟩ := runs_finished.mp ends
    have settles : last = [] ∧ noted = ⟨conclusion walked.findings, walked.findings⟩ := by
      rw [conclusion_of_loud loud, ← state]
      by_cases completed : (walked.value.state == .completed) = true
      · rw [if_pos completed] at concludes
        obtain ⟨rfl, same⟩ := runs_finished.mp concludes
        rw [if_pos completed]
        exact ⟨rfl, Except.ok.inj same⟩
      · rw [if_neg completed] at concludes
        obtain ⟨rfl, same⟩ := runs_finished.mp concludes
        rw [if_neg completed]
        exact ⟨rfl, Except.ok.inj same⟩
    obtain ⟨rfl, rfl⟩ := settles
    refine ⟨rfl, concerns, fun _ => ?_, fun _ => by simp⟩
    obtain ⟨exchange, member, started⟩ := spawns loud
    exact ⟨exchange, List.mem_append_left _ member, started⟩
  · have none : walked.value.loops = 0 := by
      rw [loops, List.countP_eq_zero]
      simpa using loud
    rw [if_pos (by simp [none])] at ran
    cases (runs_finished.mp ran).2
    refine ⟨?_, concerns, fun starts => absurd starts loud, fun starts => absurd starts loud⟩
    dsimp only
    rw [conclusion_of_quiet (by simpa using loud), state]

/-- A run that is called off or fails returns no state. -/
theorem noteExecute_settles {program : Program}
    (ran : (noteExecute registry program).Runs exchanges (.ok noted)) :
    noted.Settles registry program.blocks exchanges := by
  rw [noteExecute] at ran
  obtain ⟨first, second, ended, rfl, attempted, ran⟩ := runs_bind_ok.mp ran
  obtain ⟨_, same, walked⟩ := Activity.runs_attempt.mp attempted
  cases same
  match ended, walked, ran with
  | .ok result, walked, ran =>
      obtain ⟨rfl, same⟩ := runs_finished.mp ran
      cases same
      rw [List.append_nil]
      exact noteWalkAndJoin_settles walked
  | .error (.fault fault), walked, ran => cases (runs_finished.mp ran).2
  | .error .revoked, walked, ran =>
      obtain ⟨_, _, _, -, -, ran⟩ := runs_bind_ok.mp ran
      obtain ⟨_, _, _, -, -, ran⟩ := runs_bind_ok.mp ran
      obtain ⟨_, _, _, -, -, ran⟩ := runs_bind_ok.mp ran
      cases (runs_finished.mp ran).2

end Notes

end InputScript.Interleaving
