/-
Module: InputScript.Proofs.Watch
Purpose: Tasks that are called off.  A run is watched together with the tasks that have been called off
  and do not know it yet: such a task is told by its next move, and no other task is told.  Once it is
  told, it reports the steps that were in progress as cancelled and ends as called off.
Main exports: Heeds, Watch, Watch.Step, Watch.Steps, Watch.Steps.drained
-/
import InputScript.Proofs.FinalState
import InputScript.Proofs.Unwinding
import Mathlib.Data.Set.Basic

namespace InputScript.Interleaving

open Catalog Run Rehearsal Script Reporting

/-! ### Tasks that are called off -/

namespace Standing

variable {α : Type}

/-- Whether a task waits for its turn to begin. -/
def IsReady : Standing α → Prop
  | .ready _ => True
  | _ => False

/-- Whether a task waits for an answer or for the end of its nap. -/
def IsSuspended : Standing α → Prop
  | .waiting _ _ | .napping _ _ _ _ => True
  | _ => False

/-- Whether a task has begun and has not ended. -/
def IsUnderWay : Standing α → Prop
  | .active _ | .waiting _ _ | .napping _ _ _ _ => True
  | _ => False

theorem IsSuspended.isUnderWay {standing : Standing α} (suspended : standing.IsSuspended) :
    standing.IsUnderWay := by
  cases standing <;> first | exact suspended | exact suspended.elim

/-- Whether a task has ended. -/
def HasEnded (standing : Standing α) : Prop :=
  ∃ result, standing = .ended result

/-- Whether a task has ended because it was called off. -/
def IsRevoked (standing : Standing α) : Prop :=
  standing = .ended (.error .revoked)

end Standing

/-- Whether a move tells its task that it is called off just if it is.  A task that has not begun ends
at once then.  A wait for the loops can also tell that one of them was called off, and a tolerant one
is not given up before all of them have ended. -/
def Heeds (called : Prop) (loops : List (Standing LoopStep)) {α : Type} :
    Standing α → List RunExchange → Standing α → Prop
  | .ready _, _, later => called ↔ later.HasEnded
  | .waiting (.join tolerant) _, exchanges, _ =>
    (called → Told exchanges ∧ (tolerant = true → ∀ loop ∈ loops, loop.HasEnded)) ∧
      (Told exchanges → called ∨ (tolerant = false ∧ .ended (.error .revoked) ∈ loops))
  | .waiting _ _, exchanges, _ | .napping _ _ _ _, exchanges, _ => called ↔ Told exchanges
  | .active _, _, _ | .ended _, _, _ => True

/-- A run with the tasks that have been called off and have not been told yet. -/
structure Watch where
  scene : Scene RunState
  pending : Set TaskId

namespace Watch

/-- A run that has not begun. -/
def start (signal : Bool) (walk : RunActivity RunState) : Watch :=
  ⟨Scene.start signal walk, ∅⟩

/-- Call off the walk of a run.  The call may reach other tasks along with it, as it does where the
walk waits for its loops. -/
def callOff (watch : Watch) (others : Set TaskId) : Watch :=
  { watch with pending := {.walk} ∪ others ∪ watch.pending }

/-- The tasks that have to be told after a move of a task.  Unless it was at work it has been told by
the move; a walk that is called off calls off all loops. -/
def pendingAfter (watch : Watch) (task : TaskId) (wasActive : Prop) (exchanges : List RunExchange) :
    Set TaskId :=
  {other | (other ∈ watch.pending ∧ (other = task → wasActive)) ∨
    (∃ exchange ∈ exchanges, exchange.request = .revokeLoops) ∧
      ∃ number < watch.scene.loops.length, other = .loop number}

/-- One step of a run whose tasks heed that they are called off, or a call. -/
inductive Step (registry : Registry) : Watch → Watch → Prop where
  | callOff {watch : Watch} (underWay : watch.scene.walk.IsUnderWay) (others : Set TaskId) :
      Step registry watch (watch.callOff others)
  | stop {watch : Watch} (idle : watch.scene.IsIdle) :
      Step registry watch { watch with scene := { watch.scene with signal := true } }
  | walk {watch : Watch} {exchanges : List RunExchange} {after : Bool} {later : Standing RunState}
      (alone : ∀ loop ∈ watch.scene.loops, ¬ loop.IsActive)
      (moves : Moves .ended watch.scene.loops watch.scene.signal watch.scene.walk exchanges after
        later)
      (heeds : Heeds (.walk ∈ watch.pending) watch.scene.loops watch.scene.walk exchanges later) :
      Step registry watch
        { scene := watch.scene.walked registry exchanges after later
          pending := watch.pendingAfter .walk watch.scene.walk.IsActive exchanges }
  | loop {watch : Watch} {number : Nat} {standing later : Standing LoopStep}
      {exchanges : List RunExchange} {after : Bool}
      (found : watch.scene.loops[number]? = some standing)
      (alone : ¬ watch.scene.walk.IsActive ∧ ∀ other loop, other ≠ number →
        watch.scene.loops[other]? = some loop → ¬ loop.IsActive)
      (moves : Moves (Standing.ofLoop registry) watch.scene.loops watch.scene.signal standing
        exchanges after later)
      (heeds : Heeds (.loop number ∈ watch.pending) watch.scene.loops standing exchanges later) :
      Step registry watch
        { scene := watch.scene.looped registry number exchanges after later
          pending := watch.pendingAfter (.loop number) standing.IsActive exchanges }

/-- Any number of steps of a run whose tasks heed that they are called off. -/
abbrev Steps (registry : Registry) : Watch → Watch → Prop :=
  Relation.ReflTransGen (Step registry)

section Scene

variable {registry : Registry} {watch later : Watch}

/-- What is watched is a run. -/
theorem Step.scene (step : Step registry watch later) :
    Interleaving.Steps registry watch.scene later.scene := by
  cases step with
  | callOff underWay others => exact .refl
  | stop idle => exact .single (.stop idle)
  | walk alone moves heeds => exact .single (.walk alone moves)
  | loop found alone moves heeds => exact .single (.loop found alone moves)

theorem Steps.scene (steps : Steps registry watch later) :
    Interleaving.Steps registry watch.scene later.scene := by
  induction steps with
  | refl => exact .refl
  | tail earlier step hypothesis => exact hypothesis.trans step.scene

end Scene

end Watch

/-! ### One move -/

variable {loops : List (Standing LoopStep)} {exchanges : List RunExchange}

/-- A task that is called off and not at work is told by its next move, or ends by it if it has not
begun. -/
theorem Moves.told_of_called {α : Type} {conclude : Except Interruption α → Standing α}
    {before after : Bool} {standing later : Standing α} {called : Prop}
    (moves : Moves conclude loops before standing exchanges after later)
    (heeds : Heeds called loops standing exchanges later) (isCalled : called)
    (rests : ¬ standing.IsActive) :
    (∃ request answer, exchanges = [⟨request, answer⟩] ∧ tells request answer = true) ∨
      (exchanges = [] ∧ standing.IsReady ∧ later.IsRevoked) := by
  have single : ∀ {request : RunRequest} {answer : request.Answer},
      Told [⟨request, answer⟩] → tells request answer = true := by
    rintro request answer ⟨_, member, told⟩
    obtain rfl := List.mem_singleton.mp member
    exact told
  cases moves with
  | begin activity =>
      obtain ⟨_, impossible⟩ := heeds.mp isCalled
      cases impossible
  | revoke activity => exact .inr ⟨rfl, trivial, rfl⟩
  | answer answers => exact absurd trivial rests
  | suspend suspends => exact absurd trivial rests
  | @resume request next answer resumes =>
      refine .inl ⟨request, answer, rfl, single ?_⟩
      unfold Heeds at heeds
      split at heeds
      case h_2 => exact (heeds.1 isCalled).1
      case h_3 => exact heeds.mp isCalled
      all_goals simp_all
  | fallAsleep sleeps => exact absurd trivial rests
  | sleepOn sleeps =>
      obtain ⟨_, impossible, -⟩ := heeds.mp isCalled
      cases impossible
  | wake wakes => exact .inl ⟨_, _, rfl, single (heeds.mp isCalled)⟩
  | startle => exact .inl ⟨_, _, rfl, rfl⟩
  | conclude result => exact absurd trivial rests

/-- When a tolerant wait for the loops is over, all of them have ended. -/
theorem Moves.drained (registry : Registry) {α : Type}
    {conclude : Except Interruption α → Standing α} {before after : Bool}
    {standing later : Standing α} {called : Prop} {answer : RunRequest.Answer (.join true)}
    (moves : Moves conclude loops before standing exchanges after later)
    (heeds : Heeds called loops standing exchanges later)
    (last : exchanges.getLast? = some ⟨.join true, answer⟩) :
    (∀ loop ∈ loops, loop.HasEnded) ∧ exchanges.flatMap (startedBy registry) = [] := by
  cases moves with
  | answer answers =>
      cases last
      exact answers.elim
  | resume resumes =>
      cases last
      refine ⟨?_, rfl⟩
      by_cases isCalled : called
      · exact (heeds.1 isCalled).2 rfl
      · have notTold : ¬ Told [⟨.join true, answer⟩] := by
          intro told
          rcases heeds.2 told with isCalled' | ⟨impossible, -⟩
          · exact isCalled isCalled'
          · cases impossible
        rcases answer with (fault | _) | _
        · rcases resumes with impossible | ⟨impossible, -⟩ <;> cases impossible
        · exact absurd ⟨_, List.mem_cons_self, rfl⟩ notTold
        · intro loop member
          obtain ⟨result, ended, -⟩ := resumes loop member
          exact ⟨result, ended⟩
  | _ => cases last

/-! ### What a run shows of a task -/

/-- Whether the standing of a task has a property. -/
def Scene.Shows (scene : Scene RunState) (property : {α : Type} → Standing α → Prop) : TaskId → Prop
  | .walk => property scene.walk
  | .loop number => ∃ standing, scene.loops[number]? = some standing ∧ property standing

section Shows

variable {registry : Registry} {program : Program} {scene later : Scene RunState} {task : TaskId}
  {trace : TaskTrace} {property : {α : Type} → Standing α → Prop} {exchanges : List RunExchange}
  {after : Bool}

theorem Scene.shows_walked (leaves : scene.Leaves registry program task trace)
    (differs : task ≠ .walk) (standing : Standing RunState) :
    (scene.walked registry exchanges after standing).Shows property task ↔
      scene.Shows property task := by
  cases task with
  | walk => exact absurd rfl differs
  | loop number =>
      rw [Shows, Scene.walked, List.getElem?_append_left leaves.known]
      rfl

theorem Scene.shows_looped {moved : Nat} (leaves : scene.Leaves registry program task trace)
    (differs : task ≠ .loop moved) (standing : Standing LoopStep) :
    (scene.looped registry moved exchanges after standing).Shows property task ↔
      scene.Shows property task := by
  cases task with
  | walk => rfl
  | loop number =>
      have kept : number < (scene.loops.set moved standing).length := by
        rw [List.length_set]
        exact leaves.known
      have other : moved ≠ number := by
        rintro rfl
        exact differs rfl
      rw [Shows, Scene.looped, List.getElem?_append_left kept, List.getElem?_set_ne other]
      rfl

/-- A task that has ended stays as it is. -/
theorem Step.ended (step : Step registry scene later)
    (leaves : scene.Leaves registry program task trace) (shows : scene.Shows property task)
    (isEnd : ∀ {α : Type} (standing : Standing α), property standing → standing.HasEnded) :
    later.Leaves registry program task trace ∧ later.Shows property task := by
  cases step with
  | stop idle =>
      refine ⟨leaves.stopped, ?_⟩
      cases task <;> exact shows
  | walk alone moves =>
      by_cases own : task = .walk
      · subst own
        obtain ⟨result, ended⟩ := isEnd _ shows
        rw [ended] at moves
        exact moves.not_ended.elim
      · exact ⟨leaves.beside_walk own _, (Scene.shows_walked leaves own _).mpr shows⟩
  | @loop moved _ _ _ _ found alone moves =>
      by_cases own : task = .loop moved
      · subst own
        obtain ⟨standing, foundToo, holds⟩ := shows
        obtain rfl := Option.some.inj (found.symm.trans foundToo)
        obtain ⟨result, ended⟩ := isEnd _ holds
        rw [ended] at moves
        exact moves.not_ended.elim
      · exact ⟨leaves.beside_loop own _, (Scene.shows_looped leaves own _).mpr shows⟩

theorem Steps.ended (steps : Steps registry scene later)
    (leaves : scene.Leaves registry program task trace) (shows : scene.Shows property task)
    (isEnd : ∀ {α : Type} (standing : Standing α), property standing → standing.HasEnded) :
    later.Leaves registry program task trace ∧ later.Shows property task := by
  induction steps with
  | refl => exact ⟨leaves, shows⟩
  | tail earlier step hypothesis =>
      obtain ⟨leavesNow, showsNow⟩ := hypothesis
      exact step.ended leavesNow showsNow isEnd

end Shows

/-! ### Unwinding in a run -/

section Unwinding

variable {registry : Registry} {program : Program} {signal : Bool} {scene : Scene RunState}
  {task : TaskId} {trace : TaskTrace}

theorem Steps.history_prefix {later : Scene RunState} (steps : Steps registry scene later) :
    scene.history <+: later.history := by
  induction steps with
  | refl => exact List.prefix_rfl
  | tail earlier step hypothesis =>
      refine hypothesis.trans ?_
      cases step with
      | stop idle => exact List.prefix_rfl
      | walk alone moves => exact List.prefix_append _ _
      | loop found alone moves => exact List.prefix_append _ _

/-- The exchanges of a run in which the observers hear what they are told. -/
theorem Steps.heard (steps : Steps registry (Scene.start signal (execute registry program)) scene)
    (heard : ∀ entry ∈ scene.history, IsHeard entry.2) (task : TaskId) :
    ∀ exchange ∈ scene.exchangesOf task, IsHeard exchange ∧ IsTolerated exchange := by
  intro exchange member
  refine ⟨?_, Steps.isTolerated steps task exchange member⟩
  obtain ⟨entry, isEntry, rfl⟩ := List.mem_map.mp member
  exact heard entry (List.mem_of_mem_filter isEntry)

/-- In a run whose observers hear what they are told, the trace of each task has led it to a depth that
fits where it stands. -/
theorem Scene.Leaves.keepsDepth (leaves : scene.Leaves registry program task trace)
    (allPassOn : AllPassOn registry)
    (steps : Steps registry (Scene.start signal (execute registry program)) scene)
    (heard : ∀ entry ∈ scene.history, IsHeard entry.2) :
    Depth.discipline.InOrder {} trace ∧
      scene.Shows (Depth.discipline.advance {} trace).Fits task := by
  have hears := Steps.heard steps heard task
  cases task with
  | walk =>
      obtain ⟨stands, same⟩ := leaves
      rw [← same] at hears
      exact stands.keepsDepth (markExecute_keepsDepth allPassOn program)
        (fun _ _ impossible => nomatch impossible) hears
  | loop number =>
      obtain ⟨index, block, standing, -, found, stands, same⟩ := leaves
      rw [← same] at hears
      have renewed : ∀ value next, renewLoop registry value = some next → KeepsDepth [] next := by
        intro value next renews
        cases value with
        | ended => cases renews
        | again rest state =>
            cases renews
            exact markTurn_keepsDepth allPassOn state
      obtain ⟨inOrder, fits⟩ := stands.keepsDepth
        (markBeginLoop_keepsDepth allPassOn index block {} rfl rfl) renewed hears
      exact ⟨inOrder, standing, found, fits⟩

variable {request : RunRequest} {answer : request.Answer}

theorem Depth.after_of_tells (depth : Depth) (told : tells request answer = true) :
    depth.after (.request request) answer = { depth with due := none, isCalledOff := true } := by
  cases request with
  | action request => cases request <;> simp_all [tells, tellsAction, Depth.after]
  | handover => simp_all [Depth.after]
  | join tolerant => simp_all [Depth.after]
  | _ => cases told

theorem eventsOf_of_tells (told : tells request answer = true) :
    eventsOf [⟨request, answer⟩] = [] := by
  cases request with
  | report event => cases told
  | _ => rfl

/-- Where a task has ended, no step is in progress, and none is owed if it was called off. -/
theorem Scene.Shows.ended_depth {depth : Depth} (fits : scene.Shows depth.Fits task)
    (ended : scene.Shows Standing.HasEnded task) :
    depth.levels = [] ∧
      (depth.isCalledOff = true → depth.owed = [] ∧ scene.Shows Standing.IsRevoked task) := by
  have owed {α : Type} {result : Except Interruption α} (ends : depth.EndsAt [] result)
      (calledOff : depth.isCalledOff = true) : depth.owed = [] := by
    rw [Depth.owed, ends.1, (ends.2 calledOff).1]
    rfl
  cases task with
  | walk =>
      obtain ⟨result, isEnded⟩ := ended
      change depth.Fits scene.walk at fits
      rw [isEnded] at fits
      refine ⟨fits.1, fun calledOff => ⟨owed fits calledOff, ?_⟩⟩
      rw [(fits.2 calledOff).2] at isEnded
      exact isEnded
  | loop number =>
      obtain ⟨_, found, result, rfl⟩ := ended
      obtain ⟨_, foundToo, fits⟩ := fits
      cases found.symm.trans foundToo
      refine ⟨fits.1, fun calledOff => ⟨owed fits calledOff, _, found, ?_⟩⟩
      rw [(fits.2 calledOff).2]
      rfl

/-- Where a task has not begun, no step is in progress. -/
theorem Scene.Shows.ready_depth {depth : Depth} (fits : scene.Shows depth.Fits task)
    (ready : scene.Shows Standing.IsReady task) : depth.levels = [] := by
  have none {α : Type} {standing : Standing α} (fits : depth.Fits standing)
      (ready : standing.IsReady) : depth.levels = [] := by
    cases standing with
    | ready activity => exact fits.1
    | _ => exact ready.elim
  cases task with
  | walk => exact none fits ready
  | loop number =>
      obtain ⟨_, found, ready⟩ := ready
      obtain ⟨_, foundToo, fits⟩ := fits
      cases found.symm.trans foundToo
      exact none fits ready

/-- A task that was told that it is called off and has ended has reported the steps that were in
progress as cancelled, and has ended as called off. -/
theorem Scene.Leaves.reported {more : TaskTrace}
    (leaves : scene.Leaves registry program task (trace ++ ⟨.request request, answer⟩ :: more))
    (allPassOn : AllPassOn registry)
    (steps : Steps registry (Scene.start signal (execute registry program)) scene)
    (heard : ∀ entry ∈ scene.history, IsHeard entry.2) (told : tells request answer = true)
    (ended : scene.Shows Standing.HasEnded task) :
    eventsOf (Activity.Trace.exchanges (⟨.request request, answer⟩ :: more : TaskTrace)) =
        cancelledEvents (inProgress trace.marks) ∧
      scene.Shows Standing.IsRevoked task := by
  obtain ⟨inOrder, fits⟩ := leaves.keepsDepth allPassOn steps heard
  rw [Discipline.advance_append] at fits
  obtain ⟨-, -, inOrderMore⟩ := Discipline.inOrder_append.mp inOrder
  -- From the answer that tells it on, the task owes the steps that are in progress.
  have start := (Depth.discipline.advance {} trace).after_of_tells told
  obtain ⟨calledOff, owes⟩ := Depth.unwinds inOrderMore (congrArg Depth.isCalledOff start)
  obtain ⟨none, revoked⟩ := fits.ended_depth ended |>.2 calledOff
  refine ⟨?_, revoked⟩
  calc eventsOf (Activity.Trace.exchanges (⟨.request request, answer⟩ :: more : TaskTrace))
      = eventsOf [⟨request, answer⟩] ++ eventsOf more.exchanges := eventsOf_append [_] _
    _ = eventsOf more.exchanges ++ cancelledEvents [] := by
        rw [eventsOf_of_tells told, List.nil_append]
        exact (List.append_nil _).symm
    _ = eventsOf more.exchanges ++ cancelledEvents _ :=
        congrArg (fun names => _ ++ cancelledEvents names) none.symm
    _ = cancelledEvents
          ((Depth.discipline.advance {} trace).after (.request request) answer).owed := owes
    _ = cancelledEvents (inProgress trace.marks) := by
        rw [start, inProgress, ← Depth.advance_levels {} trace]
        rfl

end Unwinding

/-! ### Draining -/

section Draining

variable {registry : Registry} {program : Program} {signal : Bool} {watch later final : Watch}
  {task : TaskId} {trace : TaskTrace}

/-- What can happen next to a task that is called off and not at work: nothing, it is told, or it ends
without having begun. -/
theorem Watch.Step.of_called (step : Watch.Step registry watch later) (called : task ∈ watch.pending)
    (rests : ¬ watch.scene.Shows Standing.IsActive task)
    (leaves : watch.scene.Leaves registry program task trace) :
    (task ∈ later.pending ∧ ¬ later.scene.Shows Standing.IsActive task ∧
        (later.scene.Shows Standing.HasEnded task → watch.scene.Shows Standing.HasEnded task) ∧
        later.scene.Leaves registry program task trace) ∨
      (∃ request answer quiet, tells request answer = true ∧
        later.scene.Leaves registry program task (trace ++ ⟨.request request, answer⟩ :: quiet)) ∨
      (∃ quiet : TaskTrace, quiet.exchanges = [] ∧ watch.scene.Shows Standing.IsReady task ∧
        later.scene.Shows Standing.IsRevoked task ∧
        later.scene.Leaves registry program task (trace ++ quiet)) := by
  cases step with
  | callOff underWay others => exact .inl ⟨.inr called, rests, id, leaves⟩
  | stop idle =>
      refine .inl ⟨called, ?_, ?_, leaves.stopped⟩ <;> cases task <;> first | exact rests | exact id
  | @walk exchanges after standing alone moves heeds =>
      by_cases own : task = .walk
      · subst own
        obtain ⟨quiet, silent, leavesLater⟩ := leaves.walked moves
        rcases moves.told_of_called heeds called rests with ⟨request, answer, rfl, told⟩ |
          ⟨rfl, ready, revoked⟩
        · exact .inr (.inl ⟨request, answer, quiet, told, leavesLater⟩)
        · exact .inr (.inr ⟨quiet, silent, ready, revoked, leavesLater⟩)
      · refine .inl ⟨.inl ⟨called, fun same => absurd same own⟩, ?_, ?_, leaves.beside_walk own _⟩
        · rwa [Scene.shows_walked leaves own]
        · exact (Scene.shows_walked leaves own _).mp
  | @loop moved standing standingLater exchanges after found alone moves heeds =>
      by_cases own : task = .loop moved
      · subst own
        obtain ⟨quiet, silent, leavesLater⟩ := leaves.looped found moves
        have rests : ¬ standing.IsActive := fun active => rests ⟨standing, found, active⟩
        rcases moves.told_of_called heeds called rests with ⟨request, answer, rfl, told⟩ |
          ⟨rfl, ready, revoked⟩
        · exact .inr (.inl ⟨request, answer, quiet, told, leavesLater⟩)
        · refine .inr (.inr ⟨quiet, silent, ⟨standing, found, ready⟩, ⟨standingLater, ?_, revoked⟩,
            leavesLater⟩)
          have kept : moved < (watch.scene.loops.set moved standingLater).length := by
            rw [List.length_set]
            exact leaves.known
          rw [Scene.looped, List.getElem?_append_left kept, List.getElem?_set_self leaves.known]
      · refine .inl ⟨.inl ⟨called, fun same => absurd same own⟩, ?_, ?_, leaves.beside_loop own _⟩
        · rwa [Scene.shows_looped leaves own]
        · exact (Scene.shows_looped leaves own _).mp

/-- When a task that was called off while it was not at work has ended, all its steps that were in
progress have been reported as cancelled, and it has ended as called off. -/
theorem Watch.Steps.unwound (allPassOn : AllPassOn registry)
    (reached : Interleaving.Steps registry (Scene.start signal (execute registry program)) watch.scene)
    (steps : Watch.Steps registry watch final)
    (heard : ∀ entry ∈ final.scene.history, IsHeard entry.2) (called : task ∈ watch.pending)
    (rests : ¬ watch.scene.Shows Standing.IsActive task)
    (leaves : watch.scene.Leaves registry program task trace)
    (ended : final.scene.Shows Standing.HasEnded task) :
    ∃ more : TaskTrace, final.scene.Leaves registry program task (trace ++ more) ∧
      eventsOf more.exchanges = cancelledEvents (inProgress trace.marks) ∧
      (watch.scene.Shows Standing.HasEnded task ∨ final.scene.Shows Standing.IsRevoked task) := by
  induction steps using Relation.ReflTransGen.head_induction_on with
  | refl =>
      obtain ⟨-, fits⟩ := leaves.keepsDepth allPassOn reached heard
      refine ⟨[], by rwa [List.append_nil], ?_, .inl ended⟩
      rw [inProgress, ← Depth.advance_levels {} trace, (fits.ended_depth ended).1]
      rfl
  | @head watch later step rest hypothesis =>
      have goesOn := Watch.Steps.scene rest
      have reachedLater := reached.trans step.scene
      have reachedFinal := reachedLater.trans goesOn
      rcases step.of_called called rests leaves with ⟨stillCalled, stillRests, same, leavesLater⟩ |
        ⟨request, answer, quiet, told, leavesLater⟩ | ⟨quiet, silent, ready, revoked, leavesLater⟩
      · obtain ⟨more, leavesFinal, events, ends⟩ :=
          hypothesis reachedLater stillCalled stillRests leavesLater
        exact ⟨more, leavesFinal, events, ends.imp_left same⟩
      · obtain ⟨more, leavesFinal⟩ := Interleaving.Steps.leaves goesOn leavesLater
        rw [List.append_assoc, List.cons_append] at leavesFinal
        obtain ⟨events, revoked⟩ := leavesFinal.reported allPassOn reachedFinal heard told ended
        exact ⟨_, leavesFinal, events, .inr revoked⟩
      · obtain ⟨leavesFinal, revokedFinal⟩ := Interleaving.Steps.ended goesOn leavesLater revoked
          fun _ isEnd => ⟨_, isEnd⟩
        have prefixed := Interleaving.Steps.history_prefix (step.scene.trans goesOn)
        obtain ⟨-, fits⟩ := leaves.keepsDepth allPassOn reached
          fun entry member => heard entry (prefixed.subset member)
        refine ⟨quiet, leavesFinal, ?_, .inr revokedFinal⟩
        rw [silent, inProgress, ← Depth.advance_levels {} trace, fits.ready_depth ready]
        rfl

/-- Whether all loops of a run have ended if the last thing that its walk did was to wait for them
tolerantly. -/
def Scene.Drained (scene : Scene RunState) : Prop :=
  ∀ answer, (scene.exchangesOf .walk).getLast? = some ⟨.join true, answer⟩ →
    ∀ loop ∈ scene.loops, loop.HasEnded

theorem Watch.Step.drained (step : Watch.Step registry watch later) (drained : watch.scene.Drained) :
    later.scene.Drained := by
  intro answer last
  cases step with
  | callOff underWay others => exact drained answer last
  | stop idle => exact drained answer last
  | @walk exchanges after standing alone moves heeds =>
      rw [Scene.exchangesOf_append rfl, if_pos rfl, List.getLast?_append] at last
      cases told : exchanges.getLast? with
      | none =>
          obtain rfl := List.getLast?_eq_none_iff.mp told
          rw [told] at last
          simpa [Scene.walked] using drained answer last
      | some exchange =>
          rw [told] at last
          obtain ⟨allEnded, none⟩ := moves.drained registry heeds (told.trans last)
          simpa [Scene.walked, none] using allEnded
  | @loop number standing standingLater exchanges after found alone moves heeds =>
      rw [Scene.exchangesOf_append rfl, if_neg nofun, List.append_nil] at last
      obtain ⟨result, rfl⟩ := drained answer last standing (List.mem_of_getElem? found)
      exact moves.not_ended.elim

theorem Watch.Steps.drained (steps : Watch.Steps registry watch later)
    (drained : watch.scene.Drained) : later.scene.Drained := by
  induction steps with
  | refl => exact drained
  | tail earlier step hypothesis => exact step.drained hypothesis

end Draining

end InputScript.Interleaving
