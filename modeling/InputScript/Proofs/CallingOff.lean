/-
Module: InputScript.Proofs.CallingOff
Purpose: A run that is called off.  When it ends as such, the signal is set, all its loops have ended,
  every step that was in progress has been reported as cancelled, and nothing happens any more.  An
  observer that refuses to hear of a step can have the steps around it reported as failed.
Main exports: execute_runs_revoked, calling_off_drains
-/
import InputScript.Proofs.Watch

namespace InputScript.Interleaving

open Catalog Run Rehearsal Script Reporting
open Activity (runs_finished runs_perform)

/-! ### The end of a run -/

section Ends

variable {registry : Registry} {program : Program} {signal : Bool} {scene later : Scene RunState}
  {exchanges : List RunExchange}

/-- A run that has been called off has itself stopped, calls off its loops and waits for them. -/
theorem execute_runs_revoked (ran : (execute registry program).Runs exchanges (.error .revoked)) :
    ∃ earlier answer, exchanges =
      earlier ++ [⟨.action .stop, ()⟩, ⟨.revokeLoops, ()⟩, ⟨.join true, answer⟩] := by
  rcases Activity.runs_bind.mp ran with ⟨first, second, ended, rfl, -, goesOn⟩ | ⟨_, -, attempted⟩
  · rcases ended with (fault | _) | state
    · obtain ⟨-, impossible⟩ := runs_finished.mp goesOn
      cases impossible
    · obtain ⟨_, _, rfl, stopped⟩ := runs_perform.mp goesOn
      obtain ⟨_, _, rfl, revoked⟩ := runs_perform.mp stopped
      obtain ⟨answer, last, rfl, joined⟩ := runs_perform.mp revoked
      obtain rfl : last = [] := by
        rcases answer with interruption | _ <;> exact (runs_finished.mp joined).1
      exact ⟨first, answer, rfl⟩
    · obtain ⟨-, impossible⟩ := runs_finished.mp goesOn
      cases impossible
  · obtain ⟨_, impossible, -⟩ := Activity.runs_attempt.mp attempted
    cases impossible

/-- A walk that has begun runs to its end. -/
theorem Steps.runs_of_underWay
    (reached : Steps registry (Scene.start signal (execute registry program)) scene)
    (underWay : scene.walk.IsUnderWay) (steps : Steps registry scene later)
    {result : Except Interruption RunState} (isEnded : later.walk = .ended result) :
    (execute registry program).Runs (later.exchangesOf .walk) result := by
  suffices begun : ¬ later.walk.IsReady ∧ ∀ result, later.walk = .ended result →
      (execute registry program).Runs (later.exchangesOf .walk) result from begun.2 result isEnded
  clear isEnded
  induction steps with
  | refl =>
      cases standing : scene.walk <;> simp_all [Standing.IsUnderWay, Standing.IsReady]
  | @tail middle final earlier step hypothesis =>
      obtain ⟨notReady, ran⟩ := hypothesis
      cases step with
      | stop idle => exact ⟨notReady, ran⟩
      | loop found alone moves =>
          refine ⟨notReady, ?_⟩
          rw [Scene.exchangesOf_append rfl, if_neg nofun, List.append_nil]
          exact ran
      | @walk exchanges after standing alone moves =>
          have follows := Steps.follows (reached.trans earlier)
          rw [Scene.exchangesOf_append rfl, if_pos rfl]
          generalize middle.walk = before at moves follows notReady
          cases moves with
          | begin activity => exact absurd trivial notReady
          | revoke activity => exact absurd trivial notReady
          | conclude ended =>
              refine ⟨id, fun result same => ?_⟩
              cases same
              rw [List.append_nil]
              exact follows
          | _ => exact ⟨id, nofun⟩

variable {loops : List (Standing LoopStep)}

theorem Moves.signal_of_stop {α : Type} {conclude : Except Interruption α → Standing α}
    {before after : Bool} {standing later : Standing α} {exchange : RunExchange}
    (moves : Moves conclude loops before standing exchanges after later)
    (member : exchange ∈ exchanges) (isStop : exchange.request = .action .stop) : after = true := by
  cases moves with
  | answer answers =>
      obtain rfl := List.mem_singleton.mp member
      cases isStop
      exact answers
  | resume resumes =>
      obtain rfl := List.mem_singleton.mp member
      cases isStop
      exact resumes.elim
  | wake | startle =>
      obtain rfl := List.mem_singleton.mp member
      cases isStop
  | _ => cases member

/-- Once a task has had the run stopped, the signal is set. -/
theorem Steps.signal_of_stop {start : RunActivity RunState} {entry : TaskId × RunExchange}
    (steps : Steps registry (Scene.start signal start) scene) (member : entry ∈ scene.history)
    (isStop : entry.2.request = .action .stop) : scene.signal = true := by
  induction steps with
  | refl => cases member
  | tail earlier step hypothesis =>
      cases step with
      | stop idle => rfl
      | walk _ moves | loop _ _ moves =>
          rcases List.mem_append.mp member with old | new
          · exact moves.signal_mono (hypothesis old)
          · obtain ⟨exchange, isNew, rfl⟩ := List.mem_map.mp new
            exact moves.signal_of_stop isNew isStop

/-- A move that calls off the loops starts none. -/
theorem Moves.flatMap_startedBy_of_revokeLoops (registry : Registry) {α : Type}
    {conclude : Except Interruption α → Standing α} {before after : Bool}
    {standing later : Standing α}
    (moves : Moves conclude loops before standing exchanges after later)
    (member : ⟨.revokeLoops, ()⟩ ∈ exchanges) : exchanges.flatMap (startedBy registry) = [] := by
  cases moves with
  | answer answers =>
      cases List.mem_singleton.mp member
      rfl
  | resume resumes =>
      cases List.mem_singleton.mp member
      exact resumes.elim
  | wake wakes => cases List.mem_singleton.mp member
  | startle => cases List.mem_singleton.mp member
  | _ => cases member

/-- Whether every loop of a run has been called off and has not moved since. -/
def Watch.CalledOffLoops (watch : Watch) : Prop :=
  ∀ number < watch.scene.loops.length, .loop number ∈ watch.pending ∧
    ¬ watch.scene.Shows Standing.IsActive (.loop number)

/-- Where a walk has called off its loops, every loop has to be told. -/
theorem Watch.Steps.exists_calledOffLoops {first watch : Watch}
    (steps : Watch.Steps registry first watch) (quiet : first.scene.exchangesOf .walk = [])
    (member : ⟨.revokeLoops, ()⟩ ∈ watch.scene.exchangesOf .walk) :
    ∃ middle, Watch.Steps registry first middle ∧ Watch.Steps registry middle watch ∧
      middle.CalledOffLoops := by
  induction steps with
  | refl =>
      rw [quiet] at member
      cases member
  | @tail middle last earlier step hypothesis =>
      have alreadyThere : ⟨.revokeLoops, ()⟩ ∈ middle.scene.exchangesOf .walk →
          ∃ point, Watch.Steps registry first point ∧ Watch.Steps registry point last ∧
            point.CalledOffLoops := by
        intro old
        obtain ⟨point, reached, goesOn, calledOff⟩ := hypothesis old
        exact ⟨point, reached, goesOn.tail step, calledOff⟩
      cases step with
      | callOff underWay others => exact alreadyThere member
      | stop idle => exact alreadyThere member
      | loop found alone moves heeds =>
          rw [Scene.exchangesOf_append rfl, if_neg nofun, List.append_nil] at member
          exact alreadyThere member
      | @walk exchanges after standing alone moves heeds =>
          rw [Scene.exchangesOf_append rfl, if_pos rfl] at member
          rcases List.mem_append.mp member with old | new
          · exact alreadyThere old
          · refine ⟨_, earlier.tail (.walk alone moves heeds), .refl, fun number known => ?_⟩
            have same := moves.flatMap_startedBy_of_revokeLoops registry new
            simp only [Scene.walked, same, List.append_nil] at known ⊢
            refine ⟨.inr ⟨⟨_, new, rfl⟩, number, known, rfl⟩, ?_⟩
            rintro ⟨loop, found, active⟩
            exact alone loop (List.mem_of_getElem? found) active

/-- When a run ends as called off, the signal is set, all loops have ended, and on the way all of them
have been called off. -/
theorem Watch.Steps.ends_drained {called final : Watch}
    (reached : Watch.Steps registry (Watch.start signal (execute registry program)) called)
    (underWay : called.scene.walk.IsUnderWay) (steps : Watch.Steps registry called final)
    (isEnded : final.scene.walk = .ended (.error .revoked)) :
    final.scene.signal = true ∧ (∀ loop ∈ final.scene.loops, loop.HasEnded) ∧
      ∃ middle, Watch.Steps registry (Watch.start signal (execute registry program)) middle ∧
        Watch.Steps registry middle final ∧ middle.CalledOffLoops := by
  have whole := reached.trans steps
  obtain ⟨earlier, answer, exchanged⟩ := execute_runs_revoked
    (Interleaving.Steps.runs_of_underWay (Watch.Steps.scene reached) underWay
      (Watch.Steps.scene steps) isEnded)
  refine ⟨?_, ?_, ?_⟩
  · have member : (⟨.action .stop, ()⟩ : RunExchange) ∈ final.scene.exchangesOf .walk := by
      rw [exchanged]
      simp
    obtain ⟨entry, isEntry, same⟩ := List.mem_map.mp member
    exact Interleaving.Steps.signal_of_stop (Watch.Steps.scene whole)
      (List.mem_of_mem_filter isEntry) (congrArg Activity.Exchange.request same)
  · refine Watch.Steps.drained whole nofun answer ?_
    rw [exchanged, List.getLast?_append]
    rfl
  · refine Watch.Steps.exists_calledOffLoops whole rfl ?_
    rw [exchanged]
    simp

/-- When all tasks of a run have ended, nothing happens any more. -/
theorem Steps.over {later : Scene RunState} (steps : Steps registry scene later)
    (isEnded : scene.walk.HasEnded) (allEnded : ∀ loop ∈ scene.loops, loop.HasEnded) :
    later.history = scene.history := by
  suffices same : later.walk = scene.walk ∧ later.loops = scene.loops ∧
      later.history = scene.history from same.2.2
  obtain ⟨result, isEnded⟩ := isEnded
  induction steps with
  | refl => exact ⟨rfl, rfl, rfl⟩
  | @tail middle final earlier step hypothesis =>
      obtain ⟨sameWalk, sameLoops, same⟩ := hypothesis
      cases step with
      | stop idle => exact ⟨sameWalk, sameLoops, same⟩
      | walk alone moves =>
          rw [sameWalk, isEnded] at moves
          exact moves.not_ended.elim
      | loop found alone moves =>
          rw [sameLoops] at found
          obtain ⟨result, rfl⟩ := allEnded _ (List.mem_of_getElem? found)
          exact moves.not_ended.elim

/-- Draining.  Let a run that has begun be called off at any point of it, and let the actions pass it
on when they are called off and the observers hear what they are told.  If the walk had to wait there,
it can only end as called off.  When it ends as called off, the signal is set and all loops have ended;
on the way all of them have been called off.  Wherever a task that has been called off was not at work,
it has reported from there on each step that was in progress, the innermost first, as cancelled, and
nothing else.  After that nothing happens any more, so no action is called. -/
theorem calling_off_drains (allPassOn : AllPassOn registry) {called final : Watch}
    (reached : Watch.Steps registry (Watch.start signal (execute registry program)) called)
    (underWay : called.scene.walk.IsUnderWay) (others : Set TaskId)
    (steps : Watch.Steps registry (called.callOff others) final)
    (heard : ∀ entry ∈ final.scene.history, IsHeard entry.2)
    {result : Except Interruption RunState} (isEnded : final.scene.walk = .ended result) :
    (called.scene.walk.IsSuspended → result = .error .revoked) ∧
    (result = .error .revoked →
      final.scene.signal = true ∧ (∀ loop ∈ final.scene.loops, loop.HasEnded) ∧
      (∃ middle, Watch.Steps registry (Watch.start signal (execute registry program)) middle ∧
        Watch.Steps registry middle final ∧ middle.CalledOffLoops) ∧
      (∀ middle task trace,
        Watch.Steps registry (Watch.start signal (execute registry program)) middle →
        Watch.Steps registry middle final → task ∈ middle.pending →
        ¬ middle.scene.Shows Standing.IsActive task →
        middle.scene.Leaves registry program task trace →
        ∃ more : TaskTrace, final.scene.Leaves registry program task (trace ++ more) ∧
          eventsOf more.exchanges = cancelledEvents (inProgress trace.marks)) ∧
      ∀ later, Steps registry final.scene later → later.history = final.scene.history) := by
  have call : Watch.Step registry called (called.callOff others) := .callOff underWay others
  constructor
  · intro suspended
    obtain ⟨trace, leaves⟩ := Steps.exists_walk_trace (Watch.Steps.scene (reached.tail call))
    have rests : ¬ (called.callOff others).scene.Shows Standing.IsActive .walk := by
      intro active
      change called.scene.walk.IsActive at active
      cases standing : called.scene.walk <;> simp_all [Standing.IsSuspended, Standing.IsActive]
    obtain ⟨-, -, -, ended | revoked⟩ := Watch.Steps.unwound allPassOn
      (Watch.Steps.scene (reached.tail call)) steps heard (.inl (.inl rfl)) rests leaves
      ⟨result, isEnded⟩
    · obtain ⟨_, ended⟩ := ended
      change called.scene.walk = _ at ended
      rw [ended] at suspended
      exact suspended.elim
    · exact Standing.ended.inj (isEnded.symm.trans revoked)
  · rintro rfl
    obtain ⟨set, allEnded, calledOff⟩ :=
      Watch.Steps.ends_drained reached underWay (.head call steps) isEnded
    refine ⟨set, allEnded, calledOff, ?_, fun later goesOn =>
      Steps.over goesOn ⟨_, isEnded⟩ allEnded⟩
    intro middle task trace reachedMiddle goesOn isCalled rests leaves
    have ended : final.scene.Shows Standing.HasEnded task := by
      cases task with
      | walk => exact ⟨_, isEnded⟩
      | loop number =>
          obtain ⟨more, leavesFinal⟩ := Steps.leaves (Watch.Steps.scene goesOn) leaves
          obtain ⟨_, _, standing, -, found, -⟩ := leavesFinal
          exact ⟨standing, found, allEnded standing (List.mem_of_getElem? found)⟩
    obtain ⟨more, leavesFinal, events, -⟩ := Watch.Steps.unwound allPassOn
      (Watch.Steps.scene reachedMiddle) goesOn heard isCalled rests leaves ended
    exact ⟨more, leavesFinal, events⟩

end Ends

/-! ### Runs that are called off -/

section Runs

variable {α : Type} {signal : Bool} {registry : Registry} {first watch : Watch}

/-- The requests that do not concern the loops. -/
def IsLocal : RunRequest → Prop
  | .spawn _ _ | .revokeLoops => False
  | _ => True

/-- `Stretch signal activity exchanges rest`: an activity can go on to the rest without a wait while the
signal stays as it is. -/
inductive Stretch (signal : Bool) : RunActivity α → List RunExchange → RunActivity α → Prop where
  | rest (activity : RunActivity α) : Stretch signal activity [] activity
  | ask {request : RunRequest} {next : request.Answer → RunActivity α} {answer : request.Answer}
      {exchanges : List RunExchange} {last : RunActivity α}
      (answers : Answers signal request answer signal) (isLocal : IsLocal request)
      (later : Stretch signal (next answer) exchanges last) :
      Stretch signal (.perform request next) (⟨request, answer⟩ :: exchanges) last

namespace Stretch

variable {last : RunActivity α} {exchanges : List RunExchange}

theorem look {next : Bool → RunActivity α} (later : Stretch signal (next signal) exchanges last) :
    Stretch signal (.perform (.action .isStopping) next)
      (⟨.action .isStopping, signal⟩ :: exchanges) last :=
  .ask ⟨rfl, rfl⟩ trivial later

variable {next : Except Fault Unit → RunActivity α}

theorem log {line : LogLine} (answer : Except Fault Unit)
    (later : Stretch signal (next answer) exchanges last) :
    Stretch signal (.perform (.log line) next) (⟨.log line, answer⟩ :: exchanges) last :=
  .ask id trivial later

theorem report {event : StepEvent} (answer : Except Fault Unit)
    (later : Stretch signal (next answer) exchanges last) :
    Stretch signal (.perform (.report event) next) (⟨.report event, answer⟩ :: exchanges) last :=
  .ask id trivial later

theorem call {label : String} {arguments : List Value} {next : Nat → RunActivity α} (ordinal : Nat)
    (later : Stretch signal (next ordinal) exchanges last) :
    Stretch signal (.perform (.call label arguments) next)
      (⟨.call label arguments, ordinal⟩ :: exchanges) last :=
  .ask rfl trivial later

end Stretch

variable {task : TaskId} {wasActive : Prop} {exchanges : List RunExchange}

theorem Watch.pendingAfter_active (active : wasActive)
    (quiet : ∀ exchange ∈ exchanges, exchange.request ≠ .revokeLoops) :
    watch.pendingAfter task wasActive exchanges = watch.pending := by
  ext other
  constructor
  · rintro (⟨member, -⟩ | ⟨⟨exchange, member, isRevoke⟩, -⟩)
    · exact member
    · exact absurd isRevoke (quiet exchange member)
  · exact fun member => .inl ⟨member, fun _ => active⟩

/-- A task that was not at work has been told. -/
theorem Watch.pendingAfter_rested {pending : Set TaskId} (rested : ¬ wasActive)
    (quiet : ∀ exchange ∈ exchanges, exchange.request ≠ .revokeLoops)
    (same : watch.pending \ {task} = pending) :
    watch.pendingAfter task wasActive exchanges = pending := by
  subst same
  ext other
  constructor
  · rintro (⟨member, told⟩ | ⟨⟨exchange, member, isRevoke⟩, -⟩)
    · exact ⟨member, fun same => rested (told same)⟩
    · exact absurd isRevoke (quiet exchange member)
  · exact fun ⟨member, other⟩ => .inl ⟨member, fun same => absurd same other⟩

theorem quiet_single {request : RunRequest} {answer : request.Answer}
    (differs : request ≠ .revokeLoops) :
    ∀ exchange ∈ [(⟨request, answer⟩ : RunExchange)], exchange.request ≠ .revokeLoops := by
  intro exchange member
  obtain rfl := List.mem_singleton.mp member
  exact differs

theorem IsLocal.startedBy_eq_nil {request : RunRequest} (isLocal : IsLocal request)
    (answer : request.Answer) (registry : Registry) : startedBy registry ⟨request, answer⟩ = [] := by
  cases request with
  | spawn index block => exact isLocal.elim
  | _ => rfl

namespace Watch.Steps

variable {exchanges : List RunExchange}

/-- The walk moves. -/
theorem walked (steps : Watch.Steps registry first watch) {after : Bool}
    {later : Standing RunState} (pending : Set TaskId)
    (moves : Moves .ended watch.scene.loops watch.scene.signal watch.scene.walk exchanges after later)
    (alone : ∀ loop ∈ watch.scene.loops, ¬ loop.IsActive)
    (heeds : Heeds (.walk ∈ watch.pending) watch.scene.loops watch.scene.walk exchanges later)
    (same : watch.pendingAfter .walk watch.scene.walk.IsActive exchanges = pending) :
    Watch.Steps registry first ⟨watch.scene.walked registry exchanges after later, pending⟩ :=
  same ▸ steps.tail (.walk alone moves heeds)

/-- The walk goes on without a wait. -/
theorem walkedOn (steps : Watch.Steps registry first watch) {activity rest : RunActivity RunState}
    (isActive : watch.scene.walk = .active activity)
    (stretch : Stretch watch.scene.signal activity exchanges rest)
    (alone : ∀ loop ∈ watch.scene.loops, ¬ loop.IsActive) :
    Watch.Steps registry first
      ⟨⟨watch.scene.signal, watch.scene.history ++ exchanges.map (.walk, ·),
        .active rest, watch.scene.loops⟩, watch.pending⟩ := by
  obtain ⟨⟨signal, history, walk, loops⟩, pending⟩ := watch
  dsimp only at isActive stretch alone ⊢
  subst isActive
  induction stretch generalizing history with
  | rest activity => simpa using steps
  | @ask request next answer exchanges last answers isLocal later hypothesis =>
      have moved := steps.tail (.walk alone (.answer answers) trivial)
      have quiet : request ≠ .revokeLoops := by
        rintro rfl
        exact isLocal
      rw [Watch.pendingAfter_active (by exact trivial) (quiet_single quiet)] at moved
      simp only [Scene.walked, List.flatMap_cons, isLocal.startedBy_eq_nil, List.flatMap_nil,
        List.append_nil] at moved
      simpa using hypothesis _ moved

/-- The only loop moves. -/
theorem looped (steps : Watch.Steps registry first watch) {loop later : Standing LoopStep}
    {after : Bool} (pending : Set TaskId) (only : watch.scene.loops = [loop])
    (moves : Moves (Standing.ofLoop registry) watch.scene.loops watch.scene.signal loop exchanges after
      later) (rests : ¬ watch.scene.walk.IsActive)
    (heeds : Heeds (.loop 0 ∈ watch.pending) watch.scene.loops loop exchanges later)
    (none : exchanges.flatMap (startedBy registry) = [])
    (same : watch.pendingAfter (.loop 0) loop.IsActive exchanges = pending) :
    Watch.Steps registry first
      ⟨⟨after, watch.scene.history ++ exchanges.map fun exchange => (.loop 0, exchange),
        watch.scene.walk, [later]⟩, pending⟩ := by
  have found : watch.scene.loops[0]? = some loop := by
    rw [only]
    rfl
  have moved := steps.tail (.loop found ⟨rests, only ▸ alone_of_only⟩ moves heeds)
  rw [same] at moved
  simpa [Scene.looped, only, none] using moved

/-- The only loop goes on without a wait. -/
theorem loopedOn (steps : Watch.Steps registry first watch) {activity rest : RunActivity LoopStep}
    (only : watch.scene.loops = [.active activity])
    (stretch : Stretch watch.scene.signal activity exchanges rest)
    (rests : ¬ watch.scene.walk.IsActive) :
    Watch.Steps registry first
      ⟨⟨watch.scene.signal, watch.scene.history ++ exchanges.map fun exchange => (.loop 0, exchange),
        watch.scene.walk, [.active rest]⟩, watch.pending⟩ := by
  obtain ⟨⟨signal, history, walk, loops⟩, pending⟩ := watch
  dsimp only at only stretch rests ⊢
  subst only
  induction stretch generalizing history with
  | rest activity => simpa using steps
  | @ask request next answer exchanges last answers isLocal later hypothesis =>
      have quiet : request ≠ .revokeLoops := by
        rintro rfl
        exact isLocal
      have moved := steps.looped pending rfl (.answer answers) rests trivial
        (by simp [isLocal.startedBy_eq_nil])
        (Watch.pendingAfter_active (by exact trivial) (quiet_single quiet))
      simpa using hypothesis _ moved

end Watch.Steps

/-- An action that sleeps. -/
def dozeRegistry : Registry :=
  ⟨[("doze", [⟨{ name := "doze" }, [],
    { label := "doze", parameters := none, isAsync := true,
      body := fun _ => (Action.sleep 1).bind fun _ => .finished (.ok .none) }⟩])]⟩

/-- A loop with a step that sleeps inside another one, beside a block with a step that sleeps. -/
def dozeProgram : Program :=
  ⟨[⟨.forever, [⟨"outer", [.step "doze" []]⟩]⟩, ⟨.once, [⟨"doze", []⟩]⟩], []⟩

theorem dozeRegistry_allPassOn : AllPassOn dozeRegistry := by
  intro name overload member call
  have body : overload.implementation.body =
      fun _ => (Action.sleep 1).bind fun _ => .finished (.ok .none) := by
    by_cases isDoze : "doze" = name
    · simp [dozeRegistry, Registry.overloads, Dictionary.get?_cons, isDoze] at member
      rw [member]
    · simp [dozeRegistry, Registry.overloads, Dictionary.get?_cons, isDoze] at member
  rw [body]
  intro exchanges result ran told
  obtain ⟨answer, later, rfl, ended⟩ := runs_perform.mp ran
  rw [told_cons] at told
  rcases answer with (_ | _) | _ <;> obtain ⟨rfl, rfl⟩ := runs_finished.mp ended
  · rcases told with impossible | ⟨_, impossible, -⟩ <;> cases impossible
  · rfl
  · rcases told with impossible | ⟨_, impossible, -⟩ <;> cases impossible

/-- A walk that calls off the only loop. -/
theorem Watch.pendingAfter_revokeLoops (none : watch.pending = ∅)
    (one : watch.scene.loops.length = 1) :
    watch.pendingAfter task wasActive [⟨.revokeLoops, ()⟩] = {.loop 0} := by
  ext other
  simp [Watch.pendingAfter, none, one]

variable {activity : RunActivity α}

/-- Exchanges lead an activity to one place. -/
theorem leads_unique {first second : RunActivity α} (leads : activity.Leads exchanges first)
    (other : activity.Leads exchanges second) :
    second = first := by
  have onward : first.Leads [] second := leads.goesOn (by rwa [List.append_nil])
  cases onward
  rfl

theorem Stretch.leads {rest : RunActivity α} (stretch : Stretch signal activity exchanges rest) :
    activity.Leads exchanges rest := by
  induction stretch with
  | rest activity => exact .rest _
  | ask answers isLocal later hypothesis => exact .exchange hypothesis

/-- A run that pauses can go on from where it stands, also if it is called off there. -/
theorem Watch.Steps.pause (steps : Watch.Steps registry first watch) :
    Watch.Steps registry first watch ∧ Watch.Steps registry watch watch ∧
      Watch.Steps registry (watch.callOff ∅) (watch.callOff ∅) :=
  ⟨steps, .refl, .refl⟩

variable {loops : List (Standing LoopStep)} {called : Prop} {α : Type}
  {next : Except Interruption Unit → RunActivity α}

/-- A task that sleeps and is called off is told. -/
theorem heeds_sleep {seconds : Float} (isCalled : called) :
    Heeds called loops (.waiting (.action (.sleep seconds)) next)
      [⟨.action (.sleep seconds), .error .revoked⟩] (.active (next (.error .revoked))) :=
  ⟨fun _ => ⟨_, List.mem_singleton_self _, rfl⟩, fun _ => isCalled⟩

theorem heeds_join (absent : ¬ called) :
    Heeds called loops (.waiting (.join true) next) [⟨.join true, .ok ()⟩] (.active (next (.ok ()))) := by
  refine ⟨fun isCalled => absurd isCalled absent, ?_⟩
  rintro ⟨_, member, told⟩
  cases List.mem_singleton.mp member
  cases told

theorem joinEnds_only (result : Except Interruption LoopStep) :
    JoinEnds true [.ended result] (.ok ()) := by
  intro loop member
  obtain rfl := List.mem_singleton.mp member
  exact ⟨result, rfl, .inl rfl⟩

theorem heeds_begin (absent : ¬ called) :
    Heeds called loops (.ready activity) [] (.active activity) :=
  ⟨fun isCalled => absurd isCalled absent, fun ⟨_, impossible⟩ => nomatch impossible⟩

/-- What an observer raises. -/
def refusal : Fault :=
  .raised .runtime (some "refused")

/-- That program is called off while both tasks sleep.  Where the observers hear what they are told, and
where one of them refuses to hear of the inner step of the loop, the walk ends as called off. -/
theorem doze_run : ∃ called middle trace,
    Watch.Steps dozeRegistry (Watch.start false (execute dozeRegistry dozeProgram)) called ∧
      called.scene.walk.IsSuspended ∧ Watch.Steps dozeRegistry (called.callOff ∅) middle ∧
      .loop 0 ∈ middle.pending ∧ ¬ middle.scene.Shows Standing.IsActive (.loop 0) ∧
      middle.scene.Leaves dozeRegistry dozeProgram (.loop 0) trace ∧
      inProgress trace.marks = ["doze", "outer"] ∧ eventsOf trace.exchanges = [] ∧
      (∃ final, Watch.Steps dozeRegistry middle final ∧
        final.scene.walk = .ended (.error .revoked) ∧
        ∀ entry ∈ final.scene.history, IsHeard entry.2) ∧
      ∃ final, Watch.Steps dozeRegistry middle final ∧
        final.scene.walk = .ended (.error .revoked) ∧
        eventsOf (final.scene.exchangesOf (.loop 0)) =
          [⟨"doze", .cancelled⟩, ⟨"outer", refusal.outcome⟩] := by
  have run : Watch.Steps dozeRegistry (Watch.start false (execute dozeRegistry dozeProgram)) _ := .refl
  -- The walk starts the loop and sleeps.
  have run := run.walked ∅ (.begin false _) nofun (heeds_begin nofun)
    (Watch.pendingAfter_rested id (List.forall_mem_nil _) (Set.empty_sdiff _))
  have run := run.walkedOn rfl (.look (.log (.ok ()) (.rest _))) nofun
  have run := run.walked ∅ (.respond (.spawn _ _) () false rfl) nofun trivial
    (Watch.pendingAfter_active trivial (quiet_single nofun))
  have run := run.walkedOn rfl (.look (.log (.ok ()) (.look (.look (.look (.call 1 (.rest _)))))))
    (rests_of_only id)
  have run := run.walked ∅ (.suspend trivial) (rests_of_only id) trivial
    (Watch.pendingAfter_active trivial (List.forall_mem_nil _))
  -- The loop sleeps in its inner step.
  have run := run.looped ∅ rfl (.begin false _) id (heeds_begin nofun) rfl
    (Watch.pendingAfter_rested id (List.forall_mem_nil _) (Set.empty_sdiff _))
  have stretch : Stretch false (beginLoop dozeRegistry 0 ⟨.forever, [⟨"outer", [.step "doze" []]⟩]⟩)
      _ _ := .look (.look (.look (.look (.look (.call 2 (.rest _))))))
  have run := run.loopedOn rfl stretch id
  have run := run.looped ∅ rfl (.suspend trivial) id trivial rfl
    (Watch.pendingAfter_active trivial (List.forall_mem_nil _))
  -- The walk is called off and calls off the loop.
  obtain ⟨called, -, run⟩ := run.pause
  have run := run.walked ∅ (.regain (.action (.sleep 1)) (.error .revoked) (.inr rfl))
    (rests_of_only id) (heeds_sleep (.inl (.inl rfl)))
    (Watch.pendingAfter_rested id (quiet_single nofun) (by simp [Watch.callOff]))
  have run := run.walkedOn rfl (.look (.log (.ok ()) (.report (.ok ()) (.rest _)))) (rests_of_only id)
  have run := run.walked ∅ (.respond (.action .stop) () true rfl) (rests_of_only id) trivial
    (Watch.pendingAfter_active trivial (quiet_single nofun))
  have run := run.walked {.loop 0} (.respond .revokeLoops () true rfl) (rests_of_only id) trivial
    (Watch.pendingAfter_revokeLoops rfl rfl)
  have run := run.walked {.loop 0} (.suspend trivial) (rests_of_only id) trivial
    (Watch.pendingAfter_active trivial (List.forall_mem_nil _))
  -- The loop is told.
  obtain ⟨middle, run, -⟩ := run.pause
  have told := run.looped ∅ rfl (.regain (.action (.sleep 1)) (.error .revoked) (.inr rfl)) id
    (heeds_sleep rfl) rfl
    (Watch.pendingAfter_rested id (quiet_single nofun) (by simp))
  have run := told.loopedOn rfl
    (.look (.log (.ok ()) (.report (.ok ()) (.look (.log (.ok ()) (.report (.ok ()) (.rest _))))))) id
  have run := run.looped ∅ rfl (.conclude true (.error .revoked)) id trivial rfl
    (Watch.pendingAfter_active trivial (List.forall_mem_nil _))
  have run := run.walked ∅ (.regain (.join true) (.ok ()) (joinEnds_only _)) (rests_of_only id)
    (heeds_join nofun) (Watch.pendingAfter_rested id (quiet_single nofun) (Set.empty_sdiff _))
  have final := run.walked ∅ (.conclude true (.error .revoked)) (rests_of_only id) trivial
    (Watch.pendingAfter_active trivial (List.forall_mem_nil _))
  -- The report of the inner step is refused, and the loop goes on until it finds the signal set.
  have run := told.loopedOn rfl
    (.look (.log (.ok ()) (.report (.error refusal) (.look (.log (.ok ()) (.report (.ok ())
      (.log (.ok ()) (.rest _)))))))) id
  have run := run.looped ∅ rfl (.conclude true (.ok (LoopStep.again .pass _))) id trivial rfl
    (Watch.pendingAfter_active trivial (List.forall_mem_nil _))
  have run := run.looped ∅ rfl (.begin true _) id (heeds_begin nofun) rfl
    (Watch.pendingAfter_rested id (List.forall_mem_nil _) (Set.empty_sdiff _))
  have run := run.loopedOn rfl (.look (.log (.ok ()) (.rest _))) id
  have run := run.looped ∅ rfl (.conclude true (.ok LoopStep.ended)) id trivial rfl
    (Watch.pendingAfter_active trivial (List.forall_mem_nil _))
  have run := run.walked ∅ (.regain (.join true) (.ok ()) (joinEnds_only _)) (rests_of_only id)
    (heeds_join nofun) (Watch.pendingAfter_rested id (quiet_single nofun) (Set.empty_sdiff _))
  have refused := run.walked ∅ (.conclude true (.error .revoked)) (rests_of_only id) trivial
    (Watch.pendingAfter_active trivial (List.forall_mem_nil _))
  have leads : (markBeginLoop dozeRegistry 0 ⟨.forever, [⟨"outer", [.step "doze" []]⟩]⟩).Leads
      ([⟨.request (.action .isStopping), false⟩, ⟨.mark (.looked (.pass 0 0) false), ()⟩,
        ⟨.request (.action .isStopping), false⟩,
        ⟨.mark (.looked (.step 0 ⟨"outer", [.step "doze" []]⟩) false), ()⟩,
        ⟨.mark (.entered "outer"), ()⟩, ⟨.request (.action .isStopping), false⟩,
        ⟨.mark (.entered "doze"), ()⟩, ⟨.request (.action .isStopping), false⟩,
        ⟨.request (.action .isStopping), false⟩, ⟨.request (.call "doze" []), (2 : Nat)⟩]) _ :=
    .exchange (.exchange (.exchange (.exchange (.exchange (.exchange (.exchange (.exchange (.exchange
      (.exchange (.rest _))))))))))
  have same := leads_unique stretch.leads (markBeginLoop_unmark dozeRegistry 0 _ ▸ leads.unmark)
  refine ⟨_, _, _, called, trivial, middle, rfl, ?_,
    ⟨0, _, _, rfl, rfl, ⟨_, Unrolls.start.leads leads, trivial, ?_⟩, rfl⟩, rfl, rfl,
    ⟨_, final, rfl, ?_⟩, _, refused, rfl, rfl⟩
  · rintro ⟨loop, found, active⟩
    cases found
    exact active
  · exact same
  · simp [Scene.walked, Watch.callOff, Watch.start, Scene.start, IsHeard]

/-- That run drains: the steps that sleep in the loop are reported as cancelled, from inside out. -/
theorem calling_off_drains_doze : ∃ (called middle final : Watch) (trace more : TaskTrace),
    Watch.Steps dozeRegistry (Watch.start false (execute dozeRegistry dozeProgram)) called ∧
      called.scene.walk.IsSuspended ∧ Watch.Steps dozeRegistry (called.callOff ∅) final ∧
      (∀ entry ∈ final.scene.history, IsHeard entry.2) ∧
      final.scene.walk = .ended (.error .revoked) ∧ final.scene.signal = true ∧
      (∀ loop ∈ final.scene.loops, loop.HasEnded) ∧
      middle.scene.Leaves dozeRegistry dozeProgram (.loop 0) trace ∧
      inProgress trace.marks = ["doze", "outer"] ∧
      final.scene.Leaves dozeRegistry dozeProgram (.loop 0) (trace ++ more) ∧
      eventsOf more.exchanges = [⟨"doze", .cancelled⟩, ⟨"outer", .cancelled⟩] := by
  obtain ⟨called, middle, trace, reached, suspended, calls, isCalled, rests, leaves, levels, -,
    ⟨final, goesOn, isEnded, heard⟩, -⟩ := doze_run
  have steps := calls.trans goesOn
  obtain ⟨revoked, drains⟩ := calling_off_drains dozeRegistry_allPassOn reached suspended.isUnderWay ∅
    steps heard isEnded
  obtain ⟨set, allEnded, -, reports, -⟩ := drains (revoked suspended)
  have reachedMiddle := (reached.tail (.callOff suspended.isUnderWay ∅)).trans calls
  obtain ⟨more, leavesFinal, events⟩ :=
    reports middle (.loop 0) trace reachedMiddle goesOn isCalled rests leaves
  rw [levels] at events
  exact ⟨called, middle, final, trace, more, reached, suspended, steps, heard, isEnded, set, allEnded,
    leaves, levels, leavesFinal, events⟩

/-- Where an observer refuses to hear of the inner step, the outer step is reported as failed, although
the walk ends as called off. -/
theorem calling_off_misreports : ∃ (called middle final : Watch) (trace : TaskTrace),
    AllPassOn dozeRegistry ∧
      Watch.Steps dozeRegistry (Watch.start false (execute dozeRegistry dozeProgram)) called ∧
      called.scene.walk.IsSuspended ∧ Watch.Steps dozeRegistry (called.callOff ∅) middle ∧
      Watch.Steps dozeRegistry middle final ∧ final.scene.walk = .ended (.error .revoked) ∧
      .loop 0 ∈ middle.pending ∧ ¬ middle.scene.Shows Standing.IsActive (.loop 0) ∧
      middle.scene.Leaves dozeRegistry dozeProgram (.loop 0) trace ∧
      inProgress trace.marks = ["doze", "outer"] ∧ eventsOf trace.exchanges = [] ∧
      eventsOf (final.scene.exchangesOf (.loop 0)) =
        [⟨"doze", .cancelled⟩, ⟨"outer", .failed "refused" false⟩] := by
  obtain ⟨called, middle, trace, reached, suspended, calls, isCalled, rests, leaves, levels, silent, -,
    final, goesOn, isEnded, events⟩ := doze_run
  exact ⟨called, middle, final, trace, dozeRegistry_allPassOn, reached, suspended, calls, goesOn, isEnded,
    isCalled, rests, leaves, levels, silent, events⟩

end Runs

end InputScript.Interleaving
