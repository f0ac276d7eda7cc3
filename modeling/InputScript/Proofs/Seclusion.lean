/-
Module: InputScript.Proofs.Seclusion
Purpose: Loops do not disturb the walk.  If no loop can call a name that the walk can call, then under
  the same circumstances the walk does in every order of turns what the program without its unbounded
  blocks does: the same calls and reports, and steps with the same outcomes.
Main exports: withoutLoops, Scene.Obeys, HasWalked, walk_secluded
-/
import InputScript.Proofs.Cancellation
import InputScript.Proofs.Echo
import InputScript.Proofs.Workers

namespace InputScript.Interleaving

open Catalog Run Rehearsal Script Reporting
open Activity (runs_finished runs_perform)

/-! ### Calls of tasks -/

/-- Whether the labels under which calls are recorded tell the names apart. -/
def LabelsTellNames (registry : Registry) : Prop :=
  ∀ name other, ∀ overload ∈ registry.overloads name, ∀ another ∈ registry.overloads other,
    overload.implementation.label = another.implementation.label → name = other

/-- Whether a label is that of an operation that a task can call. -/
def IsWithinReach (registry : Registry) (program : Program) (task : TaskId) (label : String) : Prop :=
  ∃ name, WithinReach registry program task name ∧
    ∃ overload ∈ registry.overloads name, overload.implementation.label = label

theorem IsWithinReach.name {registry : Registry} {program : Program} {task : TaskId} {name : String}
    {overload : Overload} (tells : LabelsTellNames registry)
    (within : IsWithinReach registry program task overload.implementation.label)
    (listed : overload ∈ registry.overloads name) : WithinReach registry program task name := by
  obtain ⟨other, reachable, another, member, same⟩ := within
  obtain rfl := tells other name another member overload listed same
  exact reachable

/-- The regime of reach: a task calls only what it can reach. -/
def reach (registry : Registry) (program : Program) : Regime Unit where
  calm := ()
  admits task _
    | .call label _ => IsWithinReach registry program task label
    | .spawn index block => block ∈ blocksOf program (.loop index)
    | _ => True
  expects _ _ _ := True
  after _ _ _ := ()

section Reach

variable {registry : Registry} {program : Program} {task : TaskId}

theorem keeps_of_asks {α : Type} {activity : RunActivity α} (asks : activity.Asks IsOwn) :
    (reach registry program).Calm task activity := by
  induction activity with
  | finished result => rfl
  | perform request next hypothesis =>
      obtain ⟨isOwn, goesOn⟩ := asks
      constructor
      · cases request with
        | call label arguments => exact isOwn.elim
        | spawn index block => exact isOwn.elim
        | _ => trivial
      · intro answer _
        exact hypothesis answer (goesOn answer)

theorem callResolved_reach {name : String} {tokens : List String} {resolution : Resolution}
    (within : WithinReach registry program task name)
    (resolved : registry.resolve name tokens = .ok resolution) :
    (reach registry program).Calm task (callResolved resolution) := by
  constructor
  · exact ⟨name, within, resolution.overload, resolve_mem resolved, rfl⟩
  · intro ordinal _
    dsimp only
    split
    · exact keeps_of_asks (ofAction_asks _)
    · exact keeps_of_asks (handedOver_asks _)

theorem reach_suits : (reach registry program).Suits registry program where
  routine task request routine := by
    cases request with
    | call label arguments => exact routine.elim
    | spawn index block => exact routine.elim
    | _ => trivial
  unmoved _ _ _ := rfl
  yields _ _ _ _ _ := rfl
  starts index block member := ⟨member, fun _ => rfl⟩
  started _ _ _ _ admitted := admitted
  calls _ _ within _ _ resolved := callResolved_reach within resolved
  answered _ _ := trivial
  left := ⟨trivial, rfl⟩

/-- Whether the tasks have called only what they can reach.  There is nothing to sum up. -/
def AllReach (registry : Registry) (program : Program) (history : List (TaskId × RunExchange))
    (_ : Nat) : Prop :=
  ∀ entry ∈ history, (reach registry program).admits entry.1 () entry.2.request

/-- In every order of turns a task calls only what it can reach. -/
theorem Steps.isWithinReach {signal : Bool} {scene : Scene RunState}
    (steps : Steps registry (Scene.start signal (execute registry program)) scene)
    {label : String} {arguments : List Value} {ordinal : Nat}
    (called : (task, ⟨.call label arguments, ordinal⟩) ∈ scene.history) :
    IsWithinReach registry program task label := by
  obtain ⟨stage, staged, rfl, -⟩ := steps.staged
  have nothing : Function.const (List RunExchange) 0 [] = 0 := rfl
  have start : AllReach registry program [] 0 := List.forall_mem_nil _
  obtain ⟨-, allReach⟩ := staged.tallies reach_suits (fun _ _ _ => trivial) nothing start
    fun _ _ _ _ _ admitted allReach =>
      List.forall_mem_append.mpr ⟨allReach, List.forall_mem_singleton.mpr admitted⟩
  exact allReach _ called

end Reach

/-! ### Histories -/

/-- The exchanges of the walk in a history. -/
def walkOf (history : List (TaskId × RunExchange)) : List RunExchange :=
  (history.filter (·.1 == .walk)).map (·.2)

/-- Whether what the walk of a run has done is as the circumstances say: the calls that count are those
of all tasks.  The loops may do as they like. -/
structure Scene.Obeys {ρ : Type} (registry : Registry) (circumstances : Circumstances)
    (scene : Scene ρ) : Prop where
  tells : ∀ exchange ∈ scene.exchangesOf .walk, circumstances.Tells exchange
  ends : ∀ earlier exchange later segment rest name tokens resolution result,
    scene.history = earlier ++ (.walk, exchange) :: later →
    exchange :: walkOf later = segment ++ rest → registry.resolve name tokens = .ok resolution →
    (callResolved resolution).Runs segment result →
    result = circumstances.ending resolution
      (callsOf registry name (deedsOf (earlier.map (·.2))))

section Histories

variable {registry : Registry} {history : List (TaskId × RunExchange)}

/-- Where the walk has an exchange, so has the history. -/
theorem walkOf_split {front back : List RunExchange} {exchange : RunExchange}
    (split : walkOf history = front ++ exchange :: back) :
    ∃ earlier later, history = earlier ++ (.walk, exchange) :: later ∧ walkOf earlier = front ∧
      walkOf later = back := by
  induction history generalizing front with
  | nil => cases front <;> cases split
  | cons entry history hypothesis =>
      obtain ⟨task, other⟩ := entry
      cases task with
      | walk =>
          cases front with
          | nil =>
              cases split
              exact ⟨[], history, rfl, rfl, rfl⟩
          | cons first front =>
              obtain ⟨rfl, further⟩ := List.cons.inj split
              obtain ⟨earlier, later, rfl, rfl, rfl⟩ := hypothesis further
              exact ⟨(.walk, other) :: earlier, later, rfl, rfl, rfl⟩
      | loop number =>
          obtain ⟨earlier, later, rfl, rfl, rfl⟩ := hypothesis split
          exact ⟨(.loop number, other) :: earlier, later, rfl, rfl, rfl⟩

/-- Whether an exchange is a call of a name. -/
def isCallIn (registry : Registry) (name : String) (exchange : RunExchange) : Bool :=
  ((deed? exchange).map (isCallOf registry name)).getD false

theorem callsOf_deedsOf (name : String) (exchanges : List RunExchange) :
    callsOf registry name (deedsOf exchanges) = exchanges.countP (isCallIn registry name) :=
  List.countP_filterMap

theorem isCallIn_cases {name : String} {exchange : RunExchange}
    (isCall : isCallIn registry name exchange = true) :
    ∃ label arguments ordinal, exchange = ⟨.call label arguments, ordinal⟩ ∧
      ∃ overload ∈ registry.overloads name, overload.implementation.label = label := by
  unfold isCallIn deed? at isCall
  split at isCall
  next label arguments ordinal =>
    exact ⟨label, arguments, ordinal, rfl, by simpa [isCallOf] using isCall⟩
  all_goals cases isCall

/-- The calls of a name that no loop calls are those of the walk. -/
theorem callsOf_walkOf {name : String}
    (apart : ∀ number exchange, (.loop number, exchange) ∈ history →
      isCallIn registry name exchange = false) :
    callsOf registry name (deedsOf (history.map (·.2))) =
      callsOf registry name (deedsOf (walkOf history)) := by
  rw [callsOf_deedsOf, callsOf_deedsOf, walkOf, List.countP_map, List.countP_map, List.countP_filter]
  apply List.countP_congr
  intro entry member
  obtain ⟨task, exchange⟩ := entry
  cases task with
  | walk => simp
  | loop number => simp [apart number exchange member]

end Histories

/-! ### Walks of runs -/

/-- Whether no loop of a program can call a name that its walk can call. -/
def KeepsApart (registry : Registry) (program : Program) : Prop :=
  ∀ name number, WithinReach registry program .walk name →
    ¬ WithinReach registry program (.loop number) name

section Walks

variable {registry : Registry} {circumstances : Circumstances} {program : Program}
  {scene : Scene RunState}

/-- Since no loop calls the names that the walk calls, what the walk has done is as the circumstances
say even if the loops are left out of account. -/
theorem Scene.Obeys.walk (obeys : scene.Obeys registry circumstances)
    (tells : LabelsTellNames registry) (apart : KeepsApart registry program)
    (reached : Steps registry (Scene.start false (execute registry program)) scene)
    (unset : scene.signal = false) :
    Interleaving.Obeys registry circumstances [] (scene.exchangesOf .walk) where
  undisturbed exchange member := by
    obtain ⟨entry, inside, rfl⟩ := List.mem_map.mp member
    exact (reached.undisturbed unset).history entry (List.mem_filter.mp inside).1
  tells := obeys.tells
  ends := by
    intro earlier segment later name tokens resolution result split resolved ran
    obtain ⟨ordinal, own, rfl, -⟩ := callResolved_runs_call ran
    obtain ⟨before, after, same, rfl, goesOn⟩ := walkOf_split split
    have mine : WithinReach registry program .walk name := by
      apply IsWithinReach.name tells _ (resolve_mem resolved)
      apply reached.isWithinReach
      rw [same]
      exact List.mem_append_right _ List.mem_cons_self
    have others : ∀ number exchange, (.loop number, exchange) ∈ before →
        isCallIn registry name exchange = false := by
      intro number exchange member
      by_contra isCall
      obtain ⟨label, arguments, count, rfl, overload, listed, rfl⟩ :=
        isCallIn_cases (Bool.eq_true_of_not_eq_false isCall)
      apply apart name number mine
      apply IsWithinReach.name tells _ listed
      apply reached.isWithinReach
      rw [same]
      exact List.mem_append_left _ member
    rw [List.nil_append, ← callsOf_walkOf others]
    exact obeys.ends before _ after _ later name tokens resolution result same
      (congrArg (_ :: ·) goesOn) resolved ran

/-- A walk that is alone has the whole history to itself. -/
theorem Obeys.alone {ρ : Type} {exchanges : List RunExchange}
    (obeys : Obeys registry circumstances [] exchanges) (standing : Standing ρ) :
    (Scene.alone exchanges standing).Obeys registry circumstances where
  tells := by simpa [Scene.exchangesOf, List.filter_map, Function.comp_def] using obeys.tells
  ends := by
    intro earlier exchange later segment rest name tokens resolution result split goesOn
    obtain ⟨front, _, rfl, rfl, further⟩ := List.map_eq_append_iff.mp split
    obtain ⟨_, back, rfl, same, rfl⟩ := List.map_eq_cons_iff.mp further
    cases same
    have whole : exchange :: back = segment ++ rest := by
      simpa [walkOf, List.filter_map, Function.comp_def] using goesOn
    have ends := obeys.ends front segment rest name tokens resolution result (by rw [whole])
    simpa [Function.comp_def] using ends

end Walks

/-! ### After the walk -/

/-- What a run does that is called off or fails. -/
def callOff : Interruption → RunActivity RunState
  | .fault fault => .finished (.error (.fault fault))
  | .revoked => stop.bind fun _ => revokeLoops.bind fun _ => (join true).bind fun _ =>
    .finished (.error .revoked)

/-- What a run does after its walk: it waits for its loops, if it has started any. -/
def finish : Except Interruption (Noted WalkEnd) → RunActivity RunState
  | .ok noted =>
    if noted.value.loops = 0 then .finished (.ok noted.value.state)
    else (join false).attempt.bind fun
      | .ok _ => .finished (.ok (if noted.value.state == .completed then .cancelled
          else noted.value.state))
      | .error interruption => callOff interruption
  | .error interruption => callOff interruption

section Finish

variable {registry : Registry} {program : Program} {exchanges : List RunExchange}
  {ended : Except Interruption (Noted WalkEnd)} {result : Except Interruption RunState}

/-- A run has its walk first. -/
theorem execute_leads (ran : (noteWalk registry 0 0 program.blocks).Runs exchanges ended) :
    (execute registry program).Leads exchanges (finish ended) := by
  have walked : (walk registry 0 0 program.blocks).Runs exchanges (ended.map Noted.value) := by
    rw [← noteWalk_erase]
    exact Activity.runs_map.mpr ⟨ended, rfl, ran⟩
  have onward := ((Activity.Leads.bind walked _).attempt.bind _ :
    (execute registry program).Leads exchanges _)
  rcases ended with (fault | _) | ⟨⟨state, loops⟩, findings⟩
  · exact onward
  · exact onward
  · cases loops with
    | zero => exact onward
    | succ loops =>
        apply Eq.mp (congrArg (Activity.Leads _ exchanges) _) onward
        refine congrArg (Activity.perform (RunRequest.join false)) (funext fun answer => ?_)
        rcases answer with (fault | _) | _
        · rfl
        · rfl
        · cases state <;> rfl

theorem callOff_runs {interruption : Interruption}
    (ran : (callOff interruption).Runs exchanges result) :
    deedsOf exchanges = [] ∧ ∃ last, result = .error last := by
  cases interruption with
  | fault fault =>
      obtain ⟨rfl, rfl⟩ := runs_finished.mp ran
      exact ⟨rfl, _, rfl⟩
  | revoked =>
      obtain ⟨_, _, rfl, stopped⟩ := runs_perform.mp ran
      obtain ⟨_, _, rfl, revoked⟩ := runs_perform.mp stopped
      obtain ⟨answer, _, rfl, joined⟩ := runs_perform.mp revoked
      rcases answer with last | _
      · obtain ⟨rfl, rfl⟩ := runs_finished.mp joined
        exact ⟨rfl, last, rfl⟩
      · obtain ⟨rfl, rfl⟩ := runs_finished.mp joined
        exact ⟨rfl, .revoked, rfl⟩

/-- The state in which a run ends whose walk has ended so. -/
def finalState (walked : WalkEnd) : RunState :=
  if walked.loops ≠ 0 ∧ walked.state = .completed then .cancelled else walked.state

theorem finalState_eq_faulted {walked : WalkEnd} :
    finalState walked = .faulted ↔ walked.state = .faulted := by
  unfold finalState
  split
  next both => simp [both.2]
  · rfl

/-- After the walk no deed is done.  The run ends as its walk has decided, unless the walk has failed or
the wait for the loops is cut short. -/
theorem finish_runs (ran : (finish ended).Runs exchanges result) :
    deedsOf exchanges = [] ∧
      ((∃ noted, ended = .ok noted ∧ result = .ok (finalState noted.value)) ∨
        ((∀ noted, ended = .ok noted → noted.value.loops ≠ 0) ∧ ∃ last, result = .error last)) := by
  cases ended with
  | error interruption =>
      obtain ⟨quiet, failed⟩ := callOff_runs ran
      exact ⟨quiet, .inr ⟨nofun, failed⟩⟩
  | ok noted =>
      rw [finish] at ran
      split at ran
      next none =>
        obtain ⟨rfl, rfl⟩ := runs_finished.mp ran
        exact ⟨rfl, .inl ⟨noted, rfl, by simp [finalState, none]⟩⟩
      next some =>
        obtain ⟨answer, later, rfl, joined⟩ := runs_perform.mp ran
        rcases answer with interruption | _
        · obtain ⟨quiet, failed⟩ := callOff_runs joined
          refine ⟨quiet, .inr ⟨?_, failed⟩⟩
          intro _ same
          cases same
          exact some
        · obtain ⟨rfl, rfl⟩ := runs_finished.mp joined
          exact ⟨rfl, .inl ⟨noted, rfl, by simp [finalState, some]⟩⟩

end Finish

section Scene

variable {ρ : Type} {registry : Registry} {scene later : Scene ρ}

/-- What a task has done stays done. -/
theorem Steps.exchangesOf_extends (steps : Steps registry scene later) (task : TaskId) :
    ∃ more, later.exchangesOf task = scene.exchangesOf task ++ more := by
  induction steps with
  | refl => exact ⟨[], (List.append_nil _).symm⟩
  | @tail middle final earlier step hypothesis =>
      obtain ⟨more, same⟩ := hypothesis
      cases step with
      | stop idle => exact ⟨more, same⟩
      | walk alone moves =>
          rw [Scene.exchangesOf_append rfl, same, List.append_assoc]
          exact ⟨_, rfl⟩
      | loop found alone moves =>
          rw [Scene.exchangesOf_append rfl, same, List.append_assoc]
          exact ⟨_, rfl⟩

/-- A walk that has ended has run to its end, unless it was called off before it began. -/
theorem Steps.ended_runs {signal : Bool} {start : RunActivity ρ} {result : Except Interruption ρ}
    (steps : Steps registry (Scene.start signal start) scene) (isEnded : scene.walk = .ended result) :
    start.Runs (scene.exchangesOf .walk) result ∨
      (scene.exchangesOf .walk = [] ∧ result = .error .revoked) := by
  induction steps with
  | refl => cases isEnded
  | @tail middle final earlier step hypothesis =>
      cases step with
      | stop idle => exact hypothesis isEnded
      | loop found alone moves =>
          rw [Scene.exchangesOf_append rfl, if_neg nofun, List.append_nil]
          exact hypothesis isEnded
      | @walk exchanges after standing alone moves =>
          have follows := Steps.follows earlier
          rw [Scene.exchangesOf_append rfl, if_pos rfl]
          obtain rfl : standing = .ended result := isEnded
          obtain rfl := moves.exchanges_of_ended
          rw [List.append_nil]
          generalize middle.walk = before at moves follows
          generalize isLast : Standing.ended result = last at moves
          cases moves with
          | revoke activity =>
              cases isLast
              exact .inr ⟨follows.2, rfl⟩
          | conclude ended =>
              cases isLast
              exact .inl follows
          | _ => cases isLast

end Scene

/-! ### Seclusion -/

/-- The program without its unbounded blocks. -/
def withoutLoops (program : Program) : Program :=
  { program with blocks := boundedBlocks program.blocks }

/-- Whether a run of a program has come to the end of its walk, as the circumstances say and with the
signal unset. -/
structure HasWalked (registry : Registry) (circumstances : Circumstances) (program : Program)
    (scene : Scene RunState) (ended : Except Interruption (Noted WalkEnd)) : Prop where
  reached : Steps registry (Scene.start false (execute registry program)) scene
  unset : scene.signal = false
  obeys : scene.Obeys registry circumstances
  walked : (noteWalk registry 0 0 program.blocks).Runs (scene.exchangesOf .walk) ended

section Seclusion

variable {registry : Registry} {circumstances : Circumstances} {program : Program}
  {scene : Scene RunState} {ended : Except Interruption (Noted WalkEnd)}

theorem withoutLoops_bounded :
    ∀ block ∈ (withoutLoops program).blocks, block.repetition.isUnbounded = false := by
  simp [withoutLoops]

theorem withoutLoops_keepsApart : KeepsApart registry (withoutLoops program) := by
  intro name number _ within
  obtain ⟨block, member, -⟩ := within
  obtain ⟨inside, unbounded⟩ := List.mem_filter.mp member
  rw [withoutLoops_bounded block inside] at unbounded
  cases unbounded

variable {exchanges : List RunExchange} {noted : Noted WalkEnd}

/-- A walk through bounded blocks starts no loop. -/
theorem noteWalk_loops {blocks : List Block}
    (ran : (noteWalk registry 0 0 blocks).Runs exchanges (.ok noted))
    (bounded : ∀ block ∈ blocks, block.repetition.isUnbounded = false) : noted.value.loops = 0 := by
  have traces : noted.Traces registry blocks 0 exchanges := noteWalk_traces List.drop_zero ran
  have none : noted.findings.countP Finding.isStart = 0 := by
    apply List.countP_eq_zero.mpr
    intro finding member starts
    have concerns := traces.concerns finding member
    cases finding with
    | started index =>
        obtain ⟨block, found, unbounded⟩ := concerns
        have isBounded := bounded block (List.mem_of_getElem? found)
        rw [unbounded] at isBounded
        cases isBounded
    | _ => cases starts
  rw [traces.loops, none]

theorem noteWalk_nil {blocks : List Block}
    (ran : (noteWalk registry 0 0 blocks).Runs [] (.ok noted)) :
    noted.value.state = .completed := by
  cases blocks with
  | nil =>
      cases (runs_finished.mp ran).2
      rfl
  | cons block rest =>
      rw [noteWalk] at ran
      obtain ⟨_, _, impossible, -⟩ := runs_perform.mp ran
      cases impossible

/-- How a run goes on to its end when its walk has ended. -/
theorem HasWalked.finishes (walked : HasWalked registry circumstances program scene ended)
    {final : Scene RunState} {result : Except Interruption RunState}
    (later : Steps registry scene final) (isEnded : final.walk = .ended result) :
    deedsOf (final.exchangesOf .walk) = deedsOf (scene.exchangesOf .walk) ∧
      ((∃ noted, ended = .ok noted ∧ result = .ok (finalState noted.value)) ∨
        ((∃ last, result = .error last) ∧
          ∀ noted, ended = .ok noted → noted.value.state = .faulted → noted.value.loops ≠ 0)) := by
  obtain ⟨more, same⟩ := later.exchangesOf_extends .walk
  rcases Steps.ended_runs (walked.reached.trans later) isEnded with ran | ⟨none, revoked⟩
  · rw [same] at ran ⊢
    obtain ⟨quiet, ends⟩ := finish_runs ((execute_leads walked.walked).goesOn ran)
    rw [deedsOf_append, quiet, List.append_nil]
    refine ⟨rfl, ends.imp_right fun failed => ⟨failed.2, fun noted isOk _ => failed.1 noted isOk⟩⟩
  · obtain ⟨nothing, -⟩ := List.append_eq_nil_iff.mp (same.symm.trans none)
    rw [none, nothing]
    refine ⟨rfl, .inr ⟨⟨_, revoked⟩, ?_⟩⟩
    intro noted isOk faulted
    have ran := walked.walked
    rw [nothing, isOk] at ran
    rw [noteWalk_nil ran] at faulted
    cases faulted

/-- Whether a walk has ended faulted. -/
def IsFaulted (ended : Except Interruption (Noted WalkEnd)) : Prop :=
  ∃ noted, ended = .ok noted ∧ noted.value.state = .faulted

theorem Alike.isFaulted_iff {other : Except Interruption (Noted WalkEnd)}
    (alike : Alike SameWalk ended other) : IsFaulted ended ↔ IsFaulted other := by
  cases alike with
  | ok same => simp [IsFaulted, same.1]
  | error interruption => simp [IsFaulted]

section End

variable {final : Scene RunState} {result : Except Interruption RunState}
  (walked : HasWalked registry circumstances program scene ended)
  (later : Steps registry scene final) (isEnded : final.walk = .ended result)

include walked later isEnded

/-- A run ends faulted only if its walk does. -/
theorem HasWalked.isFaulted (faulted : result = .ok .faulted) : IsFaulted ended := by
  rcases (walked.finishes later isEnded).2 with ⟨noted, isOk, same⟩ | ⟨⟨last, isError⟩, -⟩
  · rw [same] at faulted
    exact ⟨noted, isOk, finalState_eq_faulted.mp (Except.ok.inj faulted)⟩
  · rw [isError] at faulted
    cases faulted

/-- A run whose walk ends faulted does so too, unless it ends with an interruption. -/
theorem HasWalked.faulted_or (isFaulted : IsFaulted ended) :
    result = .ok .faulted ∨ ∃ interruption, result = .error interruption := by
  obtain ⟨noted, rfl, state⟩ := isFaulted
  rcases (walked.finishes later isEnded).2 with ⟨_, isOk, same⟩ | ⟨isError, -⟩
  · cases isOk
    rw [same, finalState_eq_faulted.mpr state]
    exact .inl rfl
  · exact .inr isError

/-- Without loops nothing comes between the end of the walk and that of the run. -/
theorem HasWalked.faulted
    (bounded : ∀ block ∈ program.blocks, block.repetition.isUnbounded = false)
    (isFaulted : IsFaulted ended) : result = .ok .faulted := by
  obtain ⟨noted, rfl, state⟩ := isFaulted
  rcases (walked.finishes later isEnded).2 with ⟨_, isOk, same⟩ | ⟨-, loops⟩
  · cases isOk
    rw [same, finalState_eq_faulted.mpr state]
  · exact absurd (noteWalk_loops walked.walked bounded) (loops noted rfl state)

end End

/-- A walk that is as the circumstances say and makes no request that concerns the loops can be had by
itself. -/
theorem hasWalked_alone (ran : (noteWalk registry 0 0 program.blocks).Runs exchanges ended)
    (obeys : Obeys registry circumstances [] exchanges)
    (isPrivate : ∀ exchange ∈ exchanges, IsPrivate exchange.request) :
    HasWalked registry circumstances program (Scene.alone exchanges (.active (finish ended)))
      ended where
  reached := Steps.solo_leads (execute_leads ran) obeys.undisturbed isPrivate
  unset := rfl
  obeys := obeys.alone _
  walked := by simpa [Scene.exchangesOf, List.filter_map, Function.comp_def] using ran

/-- After a walk through bounded blocks the run is over. -/
theorem alone_ends (bounded : ∀ block ∈ program.blocks, block.repetition.isUnbounded = false)
    (ran : (noteWalk registry 0 0 program.blocks).Runs exchanges (.ok noted)) :
    Steps registry (Scene.alone exchanges (.active (finish (.ok noted))))
      (Scene.alone exchanges (.ended (.ok noted.value.state))) := by
  have finished : finish (.ok noted) = .finished (.ok noted.value.state) := by
    rw [finish, if_pos (noteWalk_loops ran bounded)]
  rw [finished]
  simpa using Steps.alone .refl (.conclude false (.ok noted.value.state)) (List.forall_mem_nil _)

/-- The walk is secluded: if no loop can call a name that the walk can call, and lines about blocks can
be logged, then whatever the order of turns, what the walk has done by its end is what the program
without its unbounded blocks does under the same circumstances, and there it can be done.  The calls and
reports are the same and so are the outcomes of the steps.  If the run ends faulted, so does the other
one; if the other one does, so does the run, unless an interruption of any kind ends it. -/
theorem walk_secluded (tells : LabelsTellNames registry) (apart : KeepsApart registry program)
    (patient : circumstances.IsPatient)
    (walked : HasWalked registry circumstances program scene ended) :
    (∃ other otherEnded,
      HasWalked registry circumstances (withoutLoops program) other otherEnded ∧
      ∀ noted, otherEnded = .ok noted → ∃ final, Steps registry other final ∧
        final.walk = .ended (.ok noted.value.state)) ∧
    ∀ other otherEnded,
      HasWalked registry circumstances (withoutLoops program) other otherEnded →
      deedsOf (scene.exchangesOf .walk) = deedsOf (other.exchangesOf .walk) ∧
      Alike SameWalk ended otherEnded ∧
      ∀ final result otherFinal otherResult,
        Steps registry scene final → final.walk = .ended result →
        Steps registry other otherFinal → otherFinal.walk = .ended otherResult →
        deedsOf (final.exchangesOf .walk) = deedsOf (otherFinal.exchangesOf .walk) ∧
        (result = .ok .faulted → otherResult = .ok .faulted) ∧
        (otherResult = .ok .faulted →
          result = .ok .faulted ∨ ∃ interruption, result = .error interruption) := by
  have obeys := walked.obeys.walk tells apart walked.reached walked.unset
  obtain ⟨others, echoed, ran, begins, alike⟩ := noteWalk_echoes patient program.blocks 0 0 0 _ _
    walked.walked obeys.undisturbed obeys.tells
  have echoObeys := begins.echoes.obeys patient obeys
  constructor
  · have isPrivate := (noteWalk_asks 0 0 withoutLoops_bounded).runs ran
    refine ⟨_, echoed, hasWalked_alone ran echoObeys isPrivate, ?_⟩
    intro noted isOk
    subst isOk
    exact ⟨_, alone_ends withoutLoops_bounded ran, rfl⟩
  · intro other otherEnded otherWalked
    -- Under the same circumstances the other walk has no choice but to do what the echo does.
    have otherObeys := otherWalked.obeys.walk tells withoutLoops_keepsApart otherWalked.reached
      otherWalked.unset
    obtain ⟨sameDeeds, rfl⟩ := noteWalk_determined 0 0 _ [] others _ echoed otherEnded ran
      otherWalked.walked echoObeys otherObeys
    have same := begins.echoes.deedsOf_eq.trans sameDeeds
    refine ⟨same, alike, ?_⟩
    intro final result otherFinal otherResult later isEnded otherLater otherIsEnded
    have deeds := (walked.finishes later isEnded).1
    have otherDeeds := (otherWalked.finishes otherLater otherIsEnded).1
    refine ⟨deeds.trans (same.trans otherDeeds.symm), ?_, ?_⟩
    · intro faulted
      have isFaulted := alike.isFaulted_iff.mp (walked.isFaulted later isEnded faulted)
      exact otherWalked.faulted otherLater otherIsEnded withoutLoops_bounded isFaulted
    · intro faulted
      have isFaulted := otherWalked.isFaulted otherLater otherIsEnded faulted
      exact walked.faulted_or later isEnded (alike.isFaulted_iff.mpr isFaulted)

end Seclusion

/-! ### A walk beside a loop -/

/-- An operation that does nothing. -/
def beat : Overload :=
  ⟨{ name := "Beat" }, [],
    { label := "Beat", parameters := none, isAsync := true, body := fun _ => pure .none }⟩

/-- What an operation says that always fails. -/
def tripMessage : String := "tripped"

/-- An operation that always fails. -/
def trip : Overload :=
  ⟨{ name := "Trip" }, [],
    { label := "Trip", parameters := none, body := fun _ => Activity.fail (.ofValue tripMessage) }⟩

/-- The two operations. -/
def tripRegistry : Registry :=
  ⟨[("Beat", [beat]), ("Trip", [trip])]⟩

/-- A block that beats until the run is stopped. -/
def beatBlock : Block := ⟨.forever, [⟨"Beat", []⟩]⟩

/-- A block whose only step fails. -/
def tripBlock : Block := ⟨.once, [⟨"Trip", []⟩]⟩

/-- A loop that beats, beside a block whose only step fails. -/
def tripProgram : Program := ⟨[beatBlock, tripBlock], []⟩

/-- The circumstances in which the log answers as given. -/
def tripCircumstances (log : LogLine → Except Fault Unit) : Circumstances where
  ending resolution _ :=
    if resolution.overload.name = "Trip" then .error (.fault (.ofValue tripMessage)) else .ok .none
  log := log
  report _ := .ok ()

theorem mem_tripRegistry {name : String} {overload : Overload}
    (member : overload ∈ tripRegistry.overloads name) :
    (name = "Beat" ∧ overload = beat) ∨ (name = "Trip" ∧ overload = trip) := by
  by_cases isBeat : "Beat" = name
  · subst isBeat
    exact .inl ⟨rfl, by simpa [tripRegistry, Registry.overloads, Dictionary.get?_cons] using member⟩
  · by_cases isTrip : "Trip" = name
    · subst isTrip
      exact .inr ⟨rfl, by simpa [tripRegistry, Registry.overloads, Dictionary.get?_cons] using member⟩
    · simp [tripRegistry, Registry.overloads, Dictionary.get?_cons, isBeat, isTrip] at member

theorem tripRegistry_labels : LabelsTellNames tripRegistry := by
  intro name other overload member another otherMember same
  rcases mem_tripRegistry member with ⟨rfl, rfl⟩ | ⟨rfl, rfl⟩ <;>
    rcases mem_tripRegistry otherMember with ⟨rfl, rfl⟩ | ⟨rfl, rfl⟩
  · rfl
  · simp [beat, trip] at same
  · simp [beat, trip] at same
  · rfl

theorem tripProgram_keepsApart : KeepsApart tripRegistry tripProgram := by
  intro name number walks loops
  have isTrip : name = "Trip" := by
    simpa [WithinReach, blocksOf, tripProgram, beatBlock, tripBlock, Repetition.isUnbounded,
      Repetition.once, namesOf, StepTree.ofStep, StepTree.ofArguments, StepTree.postorder,
      StepTree.postorderAll] using walks
  have isBeat : name = "Beat" := by
    simpa [WithinReach, blocksOf, tripProgram, beatBlock, tripBlock, Repetition.isUnbounded,
      Repetition.once, namesOf, StepTree.ofStep, StepTree.ofArguments, StepTree.postorder,
      StepTree.postorderAll] using loops
  simp [isTrip] at isBeat

/-- Whether a worker was not called off. -/
def Smooth : RunExchange → Prop
  | ⟨.handover, (answer : Except Interruption Unit)⟩ => answer = .ok ()
  | _ => True

variable {log : LogLine → Except Fault Unit}

/-- Where no worker is called off, the operations end as the circumstances say. -/
theorem trip_ends {name : String} {tokens : List String} {resolution : Resolution}
    {segment : List RunExchange} {result : Except Interruption Value}
    (resolved : tripRegistry.resolve name tokens = .ok resolution)
    (ran : (callResolved resolution).Runs segment result)
    (smooth : ∀ exchange ∈ segment, Smooth exchange) (count : Nat) :
    result = (tripCircumstances log).ending resolution count := by
  have member := resolve_mem resolved
  obtain ⟨overload, arguments⟩ := resolution
  obtain ⟨ordinal, later, rfl, goesOn⟩ := runs_perform.mp ran
  rcases mem_tripRegistry member with ⟨-, rfl⟩ | ⟨-, rfl⟩
  · exact (runs_finished.mp goesOn).2
  · obtain ⟨answer, _, rfl, taken⟩ := runs_perform.mp goesOn
    obtain rfl : answer = .ok () := smooth _ (List.mem_cons_of_mem _ List.mem_cons_self)
    exact (runs_finished.mp taken).2

theorem trip_obeys {ρ : Type} {scene : Scene ρ}
    (tells : ∀ exchange ∈ scene.exchangesOf .walk, (tripCircumstances log).Tells exchange)
    (smooth : ∀ exchange ∈ scene.exchangesOf .walk, Smooth exchange) :
    scene.Obeys tripRegistry (tripCircumstances log) where
  tells := tells
  ends := by
    intro earlier exchange later segment rest name tokens resolution result split goesOn resolved ran
    apply trip_ends resolved ran
    intro inner member
    apply smooth
    have inside : inner ∈ exchange :: walkOf later := by
      rw [goesOn]
      exact List.mem_append_left _ member
    change inner ∈ walkOf scene.history
    rw [split, walkOf, List.filter_append, List.map_append]
    exact List.mem_append_right _ inside

/-- What a walk does at the block whose step fails. -/
def tripped (index : Nat) : List RunExchange :=
  [unsetLook,
    ⟨.log ⟨.debug, s!"Block {index + 1}: {Repetition.once.passes} iteration(s)"⟩, .ok ()⟩,
    unsetLook, unsetLook, unsetLook, ⟨.call "Trip" [], (1 : Nat)⟩, ⟨.handover, .ok ()⟩, unsetLook,
    ⟨.log ⟨.error, s!"{trip.name} failed: {tripMessage}"⟩, .ok ()⟩,
    ⟨.report ⟨"Trip", .failed tripMessage false⟩, .ok ()⟩,
    ⟨.log ⟨.error, s!"Block {index + 1}: aborted at {trip.name}"⟩, .ok ()⟩]

/-- What it finds there. -/
def trippedNotes (index loops : Nat) : Noted WalkEnd :=
  ⟨⟨.faulted, loops⟩,
    [.looked false, .looked false, .returned index ⟨"Trip", []⟩ (.failed tripMessage false)]⟩

theorem tripped_runs (index loops : Nat) :
    (noteWalk tripRegistry index loops [tripBlock]).Runs (tripped index)
      (.ok (trippedNotes index loops)) := by
  change Activity.Leads _ _ _
  iterate 11 apply Activity.Leads.exchange
  exact .rest _

theorem tripped_smooth (index : Nat) : ∀ exchange ∈ tripped index, Smooth exchange := by
  simp [tripped, Smooth]

/-- What the walk of the program does. -/
def tripWalk : List RunExchange :=
  [unsetLook, ⟨.log ⟨.info, s!"Block {0 + 1}: looping until stopped"⟩, .ok ()⟩,
    ⟨.spawn 0 beatBlock, ()⟩] ++ tripped 1

theorem tripWalk_runs : (noteWalk tripRegistry 0 0 tripProgram.blocks).Runs tripWalk
    (.ok ⟨⟨.faulted, 1⟩, .looked false :: .started 0 :: (trippedNotes 1 1).findings⟩) := by
  change Activity.Leads _ _ _
  iterate 14 apply Activity.Leads.exchange
  exact .rest _

theorem beatLoop_rests (state : LoopState) :
    ∀ loop ∈ [Standing.ready (turn tripRegistry state)], ¬ loop.IsActive := by
  simp [Standing.IsActive]

/-- A run of that program in which the loop goes on while the walk waits for its worker, and which is
called off when it waits for the loop. -/
theorem trip_run : ∃ scene final,
    Steps tripRegistry (Scene.start false (execute tripRegistry tripProgram)) scene ∧
    scene.signal = false ∧ scene.exchangesOf .walk = tripWalk ∧
    (TaskId.loop 0, (⟨.call "Beat" [], (1 : Nat)⟩ : RunExchange)) ∈ scene.history ∧
    Steps tripRegistry scene final ∧ final.walk = .ended (.error .revoked) := by
  have start : Steps tripRegistry (Scene.start false (execute tripRegistry tripProgram)) _ := .refl
  -- The walk starts the loop and waits for the worker that carries out its step.
  have run := start.walked (.begin false _) nofun
  have run := run.walked .look nofun
  have run := run.walked (.respond (.log _) (.ok ()) false nofun) nofun
  have run := run.walked (.respond (.spawn _ _) () false rfl) nofun
  have rests := beatLoop_rests { index := 0, steps := beatBlock.steps }
  have run := run.walked .look rests
  have run := run.walked (.respond (.log _) (.ok ()) false nofun) rests
  iterate 3 have run := run.walked .look rests
  have run := run.walked (.respond (.call "Trip" []) (1 : Nat) false rfl) rests
  have run := run.walked (.suspend trivial) rests
  -- Meanwhile the loop makes a pass.
  have run := run.looped (.begin false _) rfl id
  iterate 4 have run := run.looped .look rfl id
  have run := run.looped (.respond (.call "Beat" []) (1 : Nat) false rfl) rfl id
  have run := run.looped .look rfl id
  have run := run.looped (.respond (.log _) (.ok ()) false nofun) rfl id
  have run := run.looped (.respond (.report _) (.ok ()) false nofun) rfl id
  have run := run.looped (.conclude false (.ok (.again .pass _))) rfl id
  -- The step has failed, and with it the walk.
  have rests := beatLoop_rests { index := 0, steps := beatBlock.steps, passes := 1 }
  have run := run.walked (.regain .handover (.ok ()) (.inl rfl)) rests
  have run := run.walked .look rests
  have run := run.walked (.respond (.log _) (.ok ()) false nofun) rests
  have run := run.walked (.respond (.report _) (.ok ()) false nofun) rests
  have run := run.walked (.respond (.log _) (.ok ()) false nofun) rests
  -- The wait for the loop is broken off.
  obtain ⟨reached, run⟩ := run.pause
  have run := run.walked (.suspend trivial) rests
  have run := run.walked (.regain (.join false) (.error .revoked) (.inl rfl)) rests
  have run := run.walked (.respond (.action .stop) () true rfl) rests
  have run := run.walked (.respond .revokeLoops () true rfl) rests
  have run := run.walked (.suspend trivial) rests
  have run := run.walked (.regain (.join true) (.error .revoked) (.inl rfl)) rests
  have run := run.walked (.conclude true (.error .revoked)) rests
  exact ⟨_, _, reached, rfl, rfl, List.mem_iff_getElem?.mpr ⟨13, rfl⟩, run, rfl⟩

/-- Circumstances in which all goes well with the observers. -/
abbrev calmCircumstances : Circumstances := tripCircumstances fun _ => .ok ()

/-- The walk of that run has ended, with the signal unset. -/
theorem trip_hasWalked {scene : Scene RunState}
    (reached : Steps tripRegistry (Scene.start false (execute tripRegistry tripProgram)) scene)
    (unset : scene.signal = false) (same : scene.exchangesOf .walk = tripWalk) :
    HasWalked tripRegistry calmCircumstances tripProgram scene
      (.ok ⟨⟨.faulted, 1⟩, .looked false :: .started 0 :: (trippedNotes 1 1).findings⟩) := by
  have obeys : scene.Obeys tripRegistry calmCircumstances := by
    apply trip_obeys <;> rw [same]
    · simp [tripWalk, tripped, Circumstances.Tells, tripCircumstances]
    · simpa [tripWalk, Smooth] using tripped_smooth 1
  exact ⟨reached, unset, obeys, same ▸ tripWalk_runs⟩

/-- The walk of that run, beside which a loop has gone on, is what the failing block alone does. -/
theorem walk_secluded_trip : ∃ scene ended other otherEnded,
    LabelsTellNames tripRegistry ∧ KeepsApart tripRegistry tripProgram ∧
    calmCircumstances.IsPatient ∧
    HasWalked tripRegistry calmCircumstances tripProgram scene ended ∧
    (TaskId.loop 0, (⟨.call "Beat" [], (1 : Nat)⟩ : RunExchange)) ∈ scene.history ∧
    HasWalked tripRegistry calmCircumstances (withoutLoops tripProgram) other otherEnded ∧
    deedsOf (other.exchangesOf .walk) =
      [.called ⟨"Trip", []⟩, .reported ⟨"Trip", .failed tripMessage false⟩] ∧
    Alike SameWalk ended otherEnded := by
  obtain ⟨scene, -, reached, unset, same, beats, -⟩ := trip_run
  have walked := trip_hasWalked reached unset same
  have patient : calmCircumstances.IsPatient := fun _ _ => rfl
  obtain ⟨⟨other, otherEnded, otherWalked, -⟩, secluded⟩ :=
    walk_secluded tripRegistry_labels tripProgram_keepsApart patient walked
  obtain ⟨deeds, alike, -⟩ := secluded other otherEnded otherWalked
  refine ⟨scene, _, other, otherEnded, tripRegistry_labels, tripProgram_keepsApart, patient, walked,
    beats, otherWalked, ?_, alike⟩
  rw [← deeds, same]
  rfl

/-! ### What disturbs a walk -/

theorem trip_obeys_alone {exchanges : List RunExchange}
    (undisturbed : ∀ exchange ∈ exchanges, Undisturbed exchange)
    (tells : ∀ exchange ∈ exchanges, (tripCircumstances log).Tells exchange)
    (smooth : ∀ exchange ∈ exchanges, Smooth exchange) :
    Obeys tripRegistry (tripCircumstances log) [] exchanges where
  undisturbed := undisturbed
  tells := tells
  ends := by
    intro earlier segment later name tokens resolution result split resolved ran
    apply trip_ends resolved ran
    intro inner member
    apply smooth
    simp [split, member]

/-- The failing block alone has its walk in all circumstances in which what it logs can be logged. -/
theorem tripped_hasWalked (logs : ∀ line, line.level ≠ .info → log line = .ok ()) :
    HasWalked tripRegistry (tripCircumstances log) (withoutLoops tripProgram)
      (Scene.alone (tripped 0) (.active (finish (.ok (trippedNotes 0 0)))))
      (.ok (trippedNotes 0 0)) := by
  have obeys : Obeys tripRegistry (tripCircumstances log) [] (tripped 0) := by
    apply trip_obeys_alone
    · simp [tripped, Undisturbed]
    · simp [tripped, Circumstances.Tells, tripCircumstances, logs]
    · exact tripped_smooth 0
  apply hasWalked_alone (tripped_runs 0 0) obeys
  simp [tripped, IsPrivate]

/-- A log that takes no line of the level on which loops are announced. -/
def sullen (line : LogLine) : Except Fault Unit :=
  if line.level = .info then .error (.ofValue "log sink broken") else .ok ()

/-- What the walk does where its loop cannot be announced. -/
def sullenWalk : List RunExchange :=
  [unsetLook, ⟨.log ⟨.info, s!"Block {0 + 1}: looping until stopped"⟩,
    .error (.ofValue "log sink broken")⟩]

theorem sullen_hasWalked : ∃ scene ended,
    HasWalked tripRegistry (tripCircumstances sullen) tripProgram scene ended ∧
    deedsOf (scene.exchangesOf .walk) = [] := by
  have ran : (noteWalk tripRegistry 0 0 tripProgram.blocks).Runs sullenWalk
      (.error (.fault (.ofValue "log sink broken"))) := .exchange (.exchange (.rest _))
  have obeys : Obeys tripRegistry (tripCircumstances sullen) [] sullenWalk := by
    apply trip_obeys_alone
    · simp [sullenWalk, Undisturbed]
    · simp [sullenWalk, Circumstances.Tells, tripCircumstances, sullen]
    · simp [sullenWalk, Smooth]
  exact ⟨_, _, hasWalked_alone ran obeys (by simp [sullenWalk, IsPrivate]), rfl⟩

/-- Two things can set a walk beside a loop apart from the walk without it, though no name is shared and
the signal is unset: a log that does not take the lines about blocks, and a run that is called off when
its walk has failed and it waits for the loop. -/
theorem walk_disturbed :
    LabelsTellNames tripRegistry ∧ KeepsApart tripRegistry tripProgram ∧
    (∃ scene ended other otherEnded,
      HasWalked tripRegistry (tripCircumstances sullen) tripProgram scene ended ∧
      HasWalked tripRegistry (tripCircumstances sullen) (withoutLoops tripProgram) other otherEnded ∧
      deedsOf (scene.exchangesOf .walk) ≠ deedsOf (other.exchangesOf .walk)) ∧
    ∃ scene ended final other otherEnded otherFinal,
      HasWalked tripRegistry calmCircumstances tripProgram scene ended ∧
      Steps tripRegistry scene final ∧ final.walk = .ended (.error .revoked) ∧
      HasWalked tripRegistry calmCircumstances (withoutLoops tripProgram) other otherEnded ∧
      Steps tripRegistry other otherFinal ∧ otherFinal.walk = .ended (.ok .faulted) := by
  refine ⟨tripRegistry_labels, tripProgram_keepsApart, ?_, ?_⟩
  · obtain ⟨scene, ended, walked, quiet⟩ := sullen_hasWalked
    refine ⟨scene, ended, _, _, walked, tripped_hasWalked fun line other => if_neg other, ?_⟩
    rw [quiet]
    exact nofun
  · obtain ⟨scene, final, reached, unset, same, -, later, isEnded⟩ := trip_run
    have otherRan : (noteWalk tripRegistry 0 0 (withoutLoops tripProgram).blocks).Runs (tripped 0)
      (.ok (trippedNotes 0 0)) := tripped_runs 0 0
    have otherLater := alone_ends withoutLoops_bounded otherRan
    exact ⟨scene, _, final, _, _, _, trip_hasWalked reached unset same, later, isEnded,
      tripped_hasWalked fun _ _ => rfl, otherLater, rfl⟩

end InputScript.Interleaving
