/-
Module: InputScript.Proofs.Throttle
Purpose: The warning of a loop that no step could be resolved.  A loop logs it at most once, and only at
  the end of a pass in which every step that has returned was unresolved.  The pass has then come to
  its end in one of three ways: no step is left, the signal was found set before the next step, or the
  next step was cancelled.
Main exports: throttleLine, Fruitless, AllUnresolved, throttle_warning
-/
import InputScript.Proofs.Itinerary

namespace InputScript.Interleaving

open Catalog Run Rehearsal Script

/-! ### The line -/

/-- The warning of the loop of a block, given by its place. -/
def throttleLine (index : Nat) : LogLine :=
  ⟨.warning, s!"Block {index + 1}: no step could be resolved, retrying every 0.05s until stopped"⟩

/-- A text ends as its last part does. -/
theorem getLast?_append_text {text : String} {last : Char} (ends : text.toList.getLast? = some last)
    (first : String) : (first ++ text).toList.getLast? = some last := by
  rw [String.toList_append, List.getLast?_append, ends, Option.some_or]

theorem getLast?_throttleLine (index : Nat) :
    (throttleLine index).message.toList.getLast? = some 'd' :=
  getLast?_append_text (by decide) _

/-- The line about the end of a step is a warning only if the step was unresolved. -/
theorem outcomeLine_warning {signalSet : Bool} {name : String} {outcome : Outcome} {line : LogLine}
    (written : outcomeLine signalSet name outcome = .ok line) (warns : line.level = .warning) :
    ∃ message, outcome = .failed message true ∧ line.message = s!"{name}: {message}" := by
  match outcome with
  | .failed message true =>
      cases written
      exact ⟨message, rfl, rfl⟩
  | .failed message false =>
      cases written
      cases warns
  | .cancelled =>
      cases written
      cases warns
  | .success value =>
      have quiet : line.level = .debug ∨ line.level = .info := by
        unfold outcomeLine at written
        split at written
        · cases written
          exact .inl rfl
        · generalize Fault.orUnwritten _ = shown at written
          cases shown with
          | error fault => cases written
          | ok text =>
              cases written
              exact .inr rfl
        all_goals contradiction
      rw [warns] at quiet
      rcases quiet with impossible | impossible <;> cases impossible

/-- No line about the end of a step is the warning: that of an unresolved step ends otherwise. -/
theorem outcomeLine_ne_throttleLine {signalSet : Bool} {name : String}
    {result : Except Interruption Value} {line : LogLine}
    (written : outcomeLine signalSet name (outcomeOf result) = .ok line) (index : Nat) :
    line ≠ throttleLine index := by
  rintro rfl
  obtain ⟨message, isUnresolved, text⟩ := outcomeLine_warning written rfl
  match result with
  | .ok value => cases isUnresolved
  | .error .revoked => cases isUnresolved
  | .error (.fault (.stopped _)) => cases isUnresolved
  | .error (.fault (.raised _ _)) => cases isUnresolved
  | .error (.fault (.unresolved missing count)) =>
      obtain rfl : (Fault.unresolved missing count).message = message := by
        injection isUnresolved
      have ends : (Fault.unresolved missing count).message.toList.getLast? = some ')' :=
        getLast?_append_text (by decide) _
      have closes : some ')' = some 'd' := by
        rw [← getLast?_throttleLine index, text]
        exact (getLast?_append_text ends _).symm
      cases closes

/-- The warning differs from the line about a pass that was abandoned in what it says of the block. -/
theorem abandonedLine_ne_throttleLine (index passes : Nat) (name : String) :
    (⟨.warning, s!"Block {index + 1}: iteration {passes + 1} abandoned at {name}"⟩ : LogLine) ≠
      throttleLine index := by
  intro same
  have texts := congrArg (fun line => line.message.toList) same
  simp only [throttleLine, String.toList_append, List.append_assoc, List.append_cancel_left_eq] at texts
  have third := congrArg (fun text => text[2]?) texts
  rw [List.getElem?_append_left (by decide)] at third
  revert third
  decide

/-! ### The pace of a loop -/

/-- The marks of a pass after one more mark.  A pass begins where its loop looks at the signal
before it. -/
def extendPass (pass : List Mark) : Mark → List Mark
  | .looked (.pass _ _) _ => []
  | .looked (.step index step) stopping => pass ++ [.looked (.step index step) stopping]
  | .returned index step outcome => pass ++ [.returned index step outcome]
  | _ => pass

/-- What the last pass of a loop has come upon: the steps before which it has looked at the signal,
and those that have returned. -/
def lastPass (marks : List Mark) : List Mark :=
  marks.foldl extendPass []

/-- `Fruitless index steps pass`: a pass through the steps of a block has come to its end, and all steps
that have returned were unresolved, but for one that was cancelled and so ended it. -/
inductive Fruitless (index : Nat) : List Script.Step → List Mark → Prop where
  | exhausted : Fruitless index [] []
  | stopped (step : Script.Step) (rest : List Script.Step) :
      Fruitless index (step :: rest) [.looked (.step index step) true]
  | cancelled (step : Script.Step) (rest : List Script.Step) :
      Fruitless index (step :: rest)
        [.looked (.step index step) false, .returned index step .cancelled]
  | unresolved {step : Script.Step} {rest : List Script.Step} {pass : List Mark} (message : String)
      (later : Fruitless index rest pass) :
      Fruitless index (step :: rest)
        (.looked (.step index step) false :: .returned index step (.failed message true) :: pass)

/-- The pace of a loop: what its last pass has come upon, and whether it has logged the warning. -/
structure Pace where
  pass : List Mark := []
  warned : Bool := false

namespace Pace

/-- The pace after a request or a mark of the loop of the block at a place. -/
def after (index : Nat) (pace : Pace) : (request : Marked RunRequest Mark) →
    request.Answer Mark RunRequest.Answer → Pace
  | .mark mark, _ => { pace with pass := extendPass pace.pass mark }
  | .request (.log line), _ =>
    if line = throttleLine index then { pace with warned := true } else pace
  | .request _, _ => pace

/-- The warning is in order once, at the end of a fruitless pass. -/
def discipline (index : Nat) (steps : List Script.Step) :
    Discipline (Marked.Answer Mark RunRequest.Answer) Pace where
  admits
    | pace, .request (.log line) =>
      line = throttleLine index → pace.warned = false ∧ Fruitless index steps pace.pass
    | _, _ => True
  expects _ _ _ := True
  after := after index

/-- How a turn of a loop ends: its next turn is about the same block, and knows of the warning. -/
def Lasts (index : Nat) (steps : List Script.Step) (pace : Pace) :
    Except Interruption LoopStep → Prop
  | .ok (.again _ next) => next.index = index ∧ next.steps = steps ∧ next.warned = pace.warned
  | _ => True

end Pace

section Loop

variable {α : Type} {registry : Registry} {index : Nat} {steps : List Script.Step} {pace : Pace}
  {post : Pace → Except Interruption α → Prop}

theorem lookAt_bind_keepsPace {station : Station} {next : Bool → MarkedActivity α}
    (goesOn : ∀ stopping, (next stopping).Keeps (Pace.discipline index steps) post
      { pace with pass := extendPass pace.pass (.looked station stopping) }) :
    ((lookAt station).bind next).Keeps (Pace.discipline index steps) post pace :=
  ⟨trivial, fun stopping _ => ⟨trivial, fun _ _ => goesOn stopping⟩⟩

/-- Any other line than the warning can be logged. -/
theorem log_bind_keepsPace {level : Level} {message : String} {next : Unit → MarkedActivity α}
    (other : ⟨level, message⟩ ≠ throttleLine index)
    (goesOn : (next ()).Keeps (Pace.discipline index steps) post pace)
    (ends : ∀ fault, post pace (.error (.fault fault))) :
    ((plain (log level message)).bind next).Keeps (Pace.discipline index steps) post pace := by
  refine ⟨fun same => absurd same other, fun answer _ => ?_⟩
  have unmoved : Pace.after index pace (.request (.log ⟨level, message⟩)) answer = pace :=
    if_neg other
  change Activity.Keeps _ _ _ (Pace.after index pace _ answer)
  rw [unmoved]
  cases answer with
  | ok heard => exact goesOn
  | error fault => exact ends fault

/-- The warning can be logged after a fruitless pass. -/
theorem warn_bind_keepsPace {next : Unit → MarkedActivity α} (unwarned : pace.warned = false)
    (fruitless : Fruitless index steps pace.pass)
    (goesOn : (next ()).Keeps (Pace.discipline index steps) post { pace with warned := true })
    (ends : ∀ fault, post { pace with warned := true } (.error (.fault fault))) :
    ((plain (log .warning (throttleLine index).message)).bind next).Keeps
      (Pace.discipline index steps) post pace := by
  refine ⟨fun _ => ⟨unwarned, fruitless⟩, fun answer _ => ?_⟩
  have logged : Pace.after index pace (.request (.log (throttleLine index))) answer =
      { pace with warned := true } := if_pos rfl
  change Activity.Keeps _ _ _ (Pace.after index pace (.request (.log (throttleLine index))) answer)
  rw [logged]
  cases answer with
  | ok heard => exact goesOn
  | error fault => exact ends fault

/-- A step leaves the pace of its loop as it is. -/
theorem markInvoke_bind_keepsPace {step : Script.Step} {next : Outcome → MarkedActivity α}
    (goesOn : ∀ outcome, (next outcome).Keeps (Pace.discipline index steps) post pace)
    (revoked : post pace (.error .revoked)) :
    ((markInvoke registry step).bind next).Keeps (Pace.discipline index steps) post pace := by
  rw [Activity.keeps_bind]
  refine (markInvoke_asks registry step).keeps ?_ ?_ ?_
  · intro request isOfStep
    match request with
    | .request (.log line) =>
        obtain ⟨_, _, _, written⟩ := isOfStep
        exact fun same => absurd same (outcomeLine_ne_throttleLine written index)
    | .mark _ | .request (.action _) | .request (.report _) | .request (.call _ _)
    | .request .handover => trivial
  · intro request answer isOfStep
    match request with
    | .request (.log line) =>
        obtain ⟨_, _, _, written⟩ := isOfStep
        exact if_neg (outcomeLine_ne_throttleLine written index)
    | .mark (.entered _) | .mark (.left _) | .request (.action _) | .request (.report _)
    | .request (.call _ _) | .request .handover => rfl
  · intro trace result ran
    rcases markInvoke_runs registry ran with ⟨outcome, rfl⟩ | rfl
    · exact goesOn outcome
    · exact revoked

/-- A pass that resolves nothing is fruitless. -/
theorem markLoopSteps_keepsPace (state : LoopState) (resolved : Bool) (rest : List Script.Step)
    (pace : Pace) :
    (markLoopSteps registry state resolved rest).Keeps (Pace.discipline state.index steps)
      (fun last result => last.warned = pace.warned ∧ (result = .ok false → resolved = false ∧
        ∃ more, last.pass = pace.pass ++ more ∧ Fruitless state.index rest more)) pace := by
  induction rest generalizing resolved pace with
  | nil =>
      refine ⟨rfl, fun same => ⟨by cases same; rfl, [], (List.append_nil _).symm, .exhausted⟩⟩
  | cons step rest hypothesis =>
      refine lookAt_bind_keepsPace fun stopping => ?_
      cases stopping with
      | true =>
          exact ⟨rfl, fun same => ⟨by cases same; rfl, _, rfl, .stopped step rest⟩⟩
      | false =>
          refine markInvoke_bind_keepsPace (fun outcome => ?_) ⟨rfl, nofun⟩
          refine ⟨trivial, fun _ _ => ?_⟩
          match outcome with
          | .cancelled =>
              refine ⟨rfl, fun same => ⟨by cases same; rfl, _, ?_, .cancelled step rest⟩⟩
              exact List.append_assoc _ _ _
          | .failed message false =>
              exact log_bind_keepsPace (abandonedLine_ne_throttleLine _ _ _) ⟨rfl, nofun⟩
                fun _ => ⟨rfl, nofun⟩
          | .failed message true =>
              refine (hypothesis resolved _).mono fun last result ends => ?_
              refine ⟨ends.1, fun same => ?_⟩
              obtain ⟨unresolved, more, longer, fruitless⟩ := ends.2 same
              refine ⟨unresolved, _, ?_, .unresolved message fruitless⟩
              rw [longer]
              simp [Pace.discipline, Pace.after, extendPass]
          | .success value =>
              refine (hypothesis true _).mono fun last result ends => ?_
              refine ⟨ends.1, fun same => ?_⟩
              cases (ends.2 same).1

theorem endLoop_keepsPace (passes : Nat) :
    (plain (endLoop index passes)).Keeps (Pace.discipline index steps) (Pace.Lasts index steps)
      pace := by
  have other : (⟨.info, s!"Block {index + 1}: stopped after {passes} iteration(s)"⟩ : LogLine) ≠
      throttleLine index := by
    intro same
    cases congrArg LogLine.level same
  rw [endLoop, Activity.bind_eq, plain_bind]
  exact log_bind_keepsPace other trivial fun _ => trivial

/-- After a fruitless pass the warning is in order, unless it was logged before. -/
theorem throttle_keepsPace {state : LoopState} (knows : state.warned = pace.warned)
    (fruitless : Fruitless state.index state.steps pace.pass) :
    (plain (throttle state)).Keeps (Pace.discipline state.index state.steps)
      (Pace.Lasts state.index state.steps) pace := by
  -- Both branches go on with this look at the signal, with the warning logged.
  let look : RunActivity LoopStep := isStopping.bind fun stopping =>
    if stopping = true then endLoop state.index state.passes
    else .finished (.ok (.again .nap { state with warned := true }))
  have looks : ∀ warned : Pace, warned.warned = true →
      (plain look).Keeps (Pace.discipline state.index state.steps)
        (Pace.Lasts state.index state.steps) warned := by
    intro warned isWarned
    refine ⟨trivial, fun stopping _ => ?_⟩
    cases stopping with
    | true => exact endLoop_keepsPace state.passes
    | false => exact ⟨rfl, rfl, isWarned.symm⟩
  cases warned : state.warned with
  | true =>
      have shape : throttle state = look := by
        unfold throttle
        rw [warned]
        rfl
      rw [shape]
      exact looks pace (knows.symm.trans warned)
  | false =>
      have shape : throttle state =
          (log .warning (throttleLine state.index).message).bind fun _ => look := by
        unfold throttle
        rw [warned]
        rfl
      rw [shape, plain_bind]
      exact warn_bind_keepsPace (knows.symm.trans warned) fruitless (looks _ rfl) fun _ => trivial

/-- A turn of a loop keeps its pace. -/
theorem markTurn_keepsPace {state : LoopState} (isPlace : state.index = index)
    (isBlock : state.steps = steps) (knows : state.warned = pace.warned) :
    (markTurn registry state).Keeps (Pace.discipline index steps) (Pace.Lasts index steps) pace := by
  subst isPlace isBlock
  refine lookAt_bind_keepsPace fun stopping => ?_
  cases stopping with
  | true => exact endLoop_keepsPace state.passes
  | false =>
      refine Activity.keeps_bind.mpr
        ((markLoopSteps_keepsPace state false state.steps _).mono fun last result ends => ?_)
      match result with
      | .error interruption => trivial
      | .ok true => exact ⟨rfl, rfl, knows.trans ends.1.symm⟩
      | .ok false =>
          obtain ⟨-, more, same, fruitless⟩ := ends.2 rfl
          obtain rfl : last.pass = more := same
          have knowsLater : { state with passes := state.passes + 1 }.warned = last.warned :=
            knows.trans ends.1.symm
          exact throttle_keepsPace knowsLater fruitless

theorem markBeginLoop_keepsPace (index : Nat) (block : Block) :
    (markBeginLoop registry index block).Keeps (Pace.discipline index block.steps)
      (Pace.Lasts index block.steps) {} := by
  unfold markBeginLoop
  split
  · next empty =>
      rw [beginLoop, if_pos empty]
      refine ⟨trivial, fun answer _ => ?_⟩
      cases answer <;> trivial
  · exact markTurn_keepsPace rfl rfl rfl

end Loop

/-! ### What the pace of a loop tells -/

section Tells

variable {index : Nat} {steps : List Script.Step} {pace : Pace} {trace : TaskTrace}

/-- Whether an exchange logs the warning of the loop of the block at a place. -/
def warns (index : Nat) (exchange : RunExchange) : Bool :=
  match exchange.request with
  | .log line => line = throttleLine index
  | _ => false

theorem advance_pass (pace : Pace) (trace : TaskTrace) :
    ((Pace.discipline index steps).advance pace trace).pass =
      trace.marks.foldl extendPass pace.pass := by
  induction trace generalizing pace with
  | nil => rfl
  | cons exchange rest hypothesis =>
      refine (hypothesis _).trans ?_
      rcases exchange with ⟨request | mark, answer⟩
      · cases request with
        | log line =>
            simp only [Pace.discipline, Pace.after, Activity.Trace.marks]
            split <;> rfl
        | _ => rfl
      · rfl

/-- The warnings of a loop are counted by what it knows of them. -/
theorem countP_warns (inOrder : (Pace.discipline index steps).InOrder pace trace) :
    trace.exchanges.countP (warns index) + pace.warned.toNat =
      ((Pace.discipline index steps).advance pace trace).warned.toNat := by
  induction trace generalizing pace with
  | nil => exact Nat.zero_add _
  | cons exchange rest hypothesis =>
      obtain ⟨admitted, inOrderLater⟩ := inOrder
      refine Eq.trans ?_ (hypothesis inOrderLater)
      rcases exchange with ⟨request | mark, answer⟩
      · cases request with
        | log line =>
            by_cases isWarning : line = throttleLine index
            · have unwarned : pace.warned = false := (admitted isWarning).1
              simp [Activity.Trace.exchanges, warns, isWarning, unwarned, Pace.discipline, Pace.after]
            · simp [Activity.Trace.exchanges, warns, isWarning, Pace.discipline, Pace.after]
        | _ => rfl
      · rfl

/-- The steps that have returned in a pass, with their outcomes. -/
def returns (pass : List Mark) : List (Script.Step × Outcome) :=
  pass.filterMap fun
    | .returned _ step outcome => some (step, outcome)
    | _ => none

/-- Whether every step of a block was invoked in a pass and returned as unresolved. -/
structure AllUnresolved (steps : List Script.Step) (pass : List Mark) : Prop where
  invoked : invoked pass = steps
  returned : (returns pass).map Prod.fst = steps
  outcomes : ∀ entry ∈ returns pass, ∃ message, entry.2 = .failed message true

/-- A fruitless pass that was neither stopped nor cancelled has gone through all steps of its block. -/
theorem Fruitless.allUnresolved {pass : List Mark} (fruitless : Fruitless index steps pass)
    (unstopped : ∀ step, .looked (.step index step) true ∉ pass)
    (uncancelled : ∀ step, .returned index step .cancelled ∉ pass) : AllUnresolved steps pass := by
  induction fruitless with
  | exhausted => exact ⟨rfl, rfl, List.forall_mem_nil _⟩
  | stopped step rest => exact absurd List.mem_cons_self (unstopped step)
  | cancelled step rest => exact absurd (by simp) (uncancelled step)
  | @unresolved step rest pass message later hypothesis =>
      obtain ⟨invoked, returned, outcomes⟩ := hypothesis
        (fun other member => unstopped other (by simp [member]))
        (fun other member => uncancelled other (by simp [member]))
      refine ⟨congrArg (step :: ·) invoked, congrArg (step :: ·) returned, ?_⟩
      exact List.forall_mem_cons.mpr ⟨⟨message, rfl⟩, outcomes⟩

end Tells

/-! ### Runs -/

section Runs

variable {registry : Registry} {program : Program} {signal : Bool} {scene : Scene RunState}

/-- The trace of a loop keeps the pace of its block. -/
theorem Scene.Leaves.inPace {number index : Nat} {block : Block} {trace : TaskTrace}
    (spawned : scene.spawned[number]? = some (index, block))
    (leaves : scene.Leaves registry program (.loop number) trace) :
    (Pace.discipline index block.steps).InOrder {} trace ∧
      trace.exchanges = scene.exchangesOf (.loop number) := by
  obtain ⟨_, _, standing, spawnedToo, -, stands, same⟩ := leaves
  cases spawned.symm.trans spawnedToo
  refine ⟨?_, same⟩
  have renewed : ∀ (pace : Pace) value next, pace.Lasts index block.steps (.ok value) →
      renewLoop registry value = some next →
      next.Keeps (Pace.discipline index block.steps) (Pace.Lasts index block.steps) pace := by
    intro pace value next lasts renews
    cases value with
    | ended => cases renews
    | again rest state =>
        cases renews
        exact markTurn_keepsPace lasts.1 lasts.2.1 lasts.2.2
  have expected : (Pace.discipline index block.steps).Expected {} trace :=
    Discipline.expected_of_exchanges (fun _ _ _ _ => trivial) (fun _ _ => trivial) _
      fun _ _ => trivial
  obtain ⟨rest, unrolls⟩ := stands.unrolls
  exact (unrolls.keeps (markBeginLoop_keepsPace index block) renewed expected).1

/-- The warning of a loop.  In every run, a loop logs at most once that no step could be resolved.
Where it does, its last pass has come to its end with all steps unresolved that have returned, but for
one that was cancelled and so ended the pass.  Unless a step was cancelled in it, or the signal was
found set before one, every step of the block has been invoked and has returned as unresolved. -/
theorem throttle_warning
    (steps : Steps registry (Scene.start signal (execute registry program)) scene) {number index : Nat}
    {block : Block} (spawned : scene.spawned[number]? = some (index, block)) :
    (∃ trace, scene.Leaves registry program (.loop number) trace) ∧
    (scene.exchangesOf (.loop number)).countP (warns index) ≤ 1 ∧
    ∀ (trace before after : TaskTrace) (answer : Except Fault Unit),
      scene.Leaves registry program (.loop number) trace →
      trace = before ++ ⟨.request (.log (throttleLine index)), answer⟩ :: after →
      Fruitless index block.steps (lastPass before.marks) ∧
        ((∀ step, .looked (.step index step) true ∉ lastPass before.marks) →
          (∀ step, .returned index step .cancelled ∉ lastPass before.marks) →
          AllUnresolved block.steps (lastPass before.marks)) := by
  have known : number < scene.loops.length := by
    rw [(Steps.tallies steps).length]
    exact (List.getElem?_eq_some_iff.mp spawned).1
  obtain ⟨trace, leaves⟩ := Steps.exists_loop_trace steps known
  refine ⟨⟨trace, leaves⟩, ?_, ?_⟩
  · obtain ⟨inOrder, same⟩ := leaves.inPace spawned
    have count := countP_warns inOrder
    rw [same] at count
    have bound := Bool.toNat_le ((Pace.discipline index block.steps).advance {} trace).warned
    omega
  · rintro trace before after answer leaves rfl
    obtain ⟨inOrder, -⟩ := leaves.inPace spawned
    obtain ⟨-, admitted, -⟩ := Discipline.inOrder_append.mp inOrder
    have fruitless := (admitted rfl).2
    rw [advance_pass] at fruitless
    exact ⟨fruitless, fruitless.allUnresolved⟩

/-- A loop whose only step has no action. -/
def aimlessProgram : Program :=
  ⟨[⟨.forever, [⟨"missing", []⟩]⟩], []⟩

theorem aimless_run : ∃ scene,
    Steps ⟨[]⟩ (Scene.start false (execute ⟨[]⟩ aimlessProgram)) scene ∧
      scene.spawned[0]? = some (0, ⟨.forever, [⟨"missing", []⟩]⟩) ∧
      (scene.exchangesOf (.loop 0)).countP (warns 0) = 1 := by
  have start : Steps ⟨[]⟩ (Scene.start false (execute ⟨[]⟩ aimlessProgram)) _ := .refl
  -- The walk starts the loop and waits for it.
  have run := start.walked (.begin false _) nofun
  have run := run.walked .look nofun
  have run := run.walked (.respond (.log _) (.ok ()) false nofun) nofun
  have run := run.walked (.respond (.spawn _ _) () false rfl) nofun
  have run := run.walked (.suspend trivial) (rests_of_only id)
  -- The loop finds its step unresolved.
  have run := run.looped (.begin false _) rfl id
  iterate 5 have run := run.looped .look rfl id
  have run := run.looped (.respond (.log _) (.ok ()) false nofun) rfl id
  have run := run.looped (.respond (.report _) (.ok ()) false nofun) rfl id
  have run := run.looped (.respond (.log _) (.ok ()) false nofun) rfl id
  exact ⟨_, run, rfl, by decide⟩

/-- The loop of that program logs the warning, and tells the truth. -/
theorem throttle_warning_aimless : ∃ scene trace,
    Steps ⟨[]⟩ (Scene.start false (execute ⟨[]⟩ aimlessProgram)) scene ∧
      scene.spawned[0]? = some (0, ⟨.forever, [⟨"missing", []⟩]⟩) ∧
      (scene.exchangesOf (.loop 0)).countP (warns 0) = 1 ∧
      scene.Leaves ⟨[]⟩ aimlessProgram (.loop 0) trace ∧
      ∀ (before after : TaskTrace) (answer : Except Fault Unit),
        trace = before ++ ⟨.request (.log (throttleLine 0)), answer⟩ :: after →
        Fruitless 0 [⟨"missing", []⟩] (lastPass before.marks) := by
  obtain ⟨scene, steps, spawned, once⟩ := aimless_run
  obtain ⟨⟨trace, leaves⟩, -, tells⟩ := throttle_warning steps spawned
  exact ⟨scene, trace, steps, spawned, once, leaves,
    fun before after answer split => (tells trace before after answer leaves split).1⟩

/-- An action that has the run stopped and then notices it. -/
def quitRegistry : Registry :=
  ⟨[("quit", [⟨{ name := "quit" }, [],
    { label := "quit", parameters := none, isAsync := true,
      body := fun _ => Action.stop.bind fun _ => Action.failIfStopping.bind fun _ => pure .none }⟩])]⟩

/-- A loop whose only step has the run stopped. -/
def quitProgram : Program :=
  ⟨[⟨.forever, [⟨"quit", []⟩]⟩], []⟩

/-- A loop whose only step is called and ends as cancelled logs the warning all the same. -/
theorem throttle_warning_misleads : ∃ (scene : Scene RunState) (trace before after : TaskTrace),
    Steps quitRegistry (Scene.start false (execute quitRegistry quitProgram)) scene ∧
      scene.Leaves quitRegistry quitProgram (.loop 0) trace ∧
      trace = before ++ ⟨.request (.log (throttleLine 0)), .ok ()⟩ :: after ∧
      returns (lastPass before.marks) = [(⟨"quit", []⟩, .cancelled)] ∧
      ¬ AllUnresolved [⟨"quit", []⟩] (lastPass before.marks) := by
  have start : Steps quitRegistry (Scene.start false (execute quitRegistry quitProgram)) _ := .refl
  have run := start.walked (.begin false _) nofun
  have run := run.walked .look nofun
  have run := run.walked (.respond (.log _) (.ok ()) false nofun) nofun
  have run := run.walked (.respond (.spawn _ _) () false rfl) nofun
  have run := run.walked (.suspend trivial) (rests_of_only id)
  have run := run.looped (.begin false _) rfl id
  iterate 4 have run := run.looped .look rfl id
  have run := run.looped (.respond (.call "quit" []) (1 : Nat) false rfl) rfl id
  have run := run.looped (.respond (.action .stop) () true rfl) rfl id
  iterate 2 have run := run.looped .look rfl id
  have run := run.looped (.respond (.log _) (.ok ()) true fun _ => rfl) rfl id
  have run := run.looped (.respond (.report _) (.ok ()) true fun _ => rfl) rfl id
  have run := run.looped (.respond (.log _) (.ok ()) true fun _ => rfl) rfl id
  have leads : (markBeginLoop quitRegistry 0 ⟨.forever, [⟨"quit", []⟩]⟩).Leads
      ([⟨.request (.action .isStopping), false⟩, ⟨.mark (.looked (.pass 0 0) false), ()⟩,
        ⟨.request (.action .isStopping), false⟩,
        ⟨.mark (.looked (.step 0 ⟨"quit", []⟩) false), ()⟩, ⟨.mark (.entered "quit"), ()⟩,
        ⟨.request (.action .isStopping), false⟩, ⟨.request (.action .isStopping), false⟩,
        ⟨.request (.call "quit" []), (1 : Nat)⟩, ⟨.request (.action .stop), ()⟩,
        ⟨.request (.action .isStopping), true⟩, ⟨.mark (.left "quit"), ()⟩,
        ⟨.request (.action .isStopping), true⟩, ⟨.request (.log _), .ok ()⟩,
        ⟨.request (.report _), .ok ()⟩, ⟨.mark (.returned 0 ⟨"quit", []⟩ .cancelled), ()⟩] ++
        [⟨.request (.log (throttleLine 0)), .ok ()⟩]) _ :=
    .exchange (.exchange (.exchange (.exchange (.exchange (.exchange (.exchange (.exchange (.exchange
      (.exchange (.exchange (.exchange (.exchange (.exchange (.exchange (.exchange
      (.rest _))))))))))))))))
  refine ⟨_, _, _, [], run, ⟨0, _, _, rfl, rfl, ⟨_, Unrolls.start.leads leads, trivial,
    Activity.unmark_plain _⟩, rfl⟩, rfl, rfl, fun allUnresolved => ?_⟩
  obtain ⟨message, impossible⟩ := allUnresolved.outcomes _ List.mem_cons_self
  cases impossible

end Runs

end InputScript.Interleaving
