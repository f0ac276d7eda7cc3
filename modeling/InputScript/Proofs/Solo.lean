/-
Module: InputScript.Proofs.Solo
Purpose: Runs without a disturbance.  As long as the signal is unset, every exchange of a task is one
  that it could have had without any other task; and an activity that has only such exchanges can be
  run by itself, from its beginning to its end.
Main exports: Undisturbed, Steps.undisturbed, Steps.solo_leads
-/
import InputScript.Proofs.Interleaving
import InputScript.Proofs.Nap

namespace InputScript.Interleaving

open Run Rehearsal

/-! ### Exchanges without a disturbance -/

/-- The exchanges that a task can have, at once or after a wait, while the signal stays unset.  It may
be called off whenever it waits. -/
def Undisturbed : RunExchange → Prop
  | ⟨.action .isStopping, (answer : Bool)⟩ => answer = false
  | ⟨.action .stop, _⟩ => False
  | ⟨.action (.wait _), (answer : Bool)⟩ => answer = false
  | ⟨.action (.nap chunk seconds), (answer : Except Interruption Bool)⟩ =>
    (answer = .ok false ∧ NapElapses chunk seconds 0) ∨
      (answer = .error .revoked ∧ ∃ time later, napStep false chunk 0 seconds = .part time later)
  | ⟨.action .pass, (answer : Except Interruption Unit)⟩
  | ⟨.action (.sleep _), (answer : Except Interruption Unit)⟩
  | ⟨.handover, (answer : Except Interruption Unit)⟩ =>
    answer = .ok () ∨ answer = .error .revoked
  | ⟨.action .block, (answer : Except Interruption Unit)⟩ => answer = .error .revoked
  | _ => True

/-- Whether a request is no concern of the loops. -/
def IsPrivate : RunRequest → Prop
  | .spawn _ _ | .join _ => False
  | _ => True

section Moves

variable {α : Type}

/-- What is known of a nap that has gone on while the signal was unset. -/
def Standing.Dozes : Standing α → Prop
  | .napping chunk elapsed seconds _ =>
    (NapElapses chunk seconds elapsed → NapElapses chunk seconds 0) ∧
      ∃ time later, napStep false chunk 0 seconds = .part time later
  | _ => True

theorem Answers.undisturbed {request : RunRequest} {answer : request.Answer}
    (answers : Answers false request answer false) : Undisturbed ⟨request, answer⟩ := by
  cases request with
  | action request =>
      cases request with
      | isStopping => exact answers.1
      | stop => cases answers
      | wait seconds => exact answers.1
      | nap chunk seconds =>
          obtain ⟨stopping, isOver, rfl, -⟩ := answers
          obtain rfl := napStep_over isOver
          exact .inl ⟨rfl, .ended isOver⟩
      | pass | sleep | block => exact answers.elim
      | _ => trivial
  | handover => exact answers.elim
  | _ => trivial

theorem Resumes.undisturbed {loops : List (Standing LoopStep)} {request : RunRequest}
    {answer : request.Answer} (resumes : Resumes loops request answer) :
    Undisturbed ⟨request, answer⟩ := by
  cases request with
  | action request =>
      cases request with
      | pass | sleep | block => exact resumes
      | _ => exact resumes.elim
  | handover => exact resumes
  | join tolerant => trivial
  | _ => exact resumes.elim

/-- A move that leaves the signal unset is undisturbed. -/
theorem Moves.undisturbed {conclude : Except Interruption α → Standing α}
    {loops : List (Standing LoopStep)} {standing later : Standing α} {exchanges : List RunExchange}
    (moves : Moves conclude loops false standing exchanges false later) (dozes : standing.Dozes)
    (concludes : ∀ result, (conclude result).Dozes) :
    later.Dozes ∧ ∀ exchange ∈ exchanges, Undisturbed exchange := by
  cases moves with
  | begin activity => exact ⟨trivial, List.forall_mem_nil _⟩
  | revoke activity => exact ⟨trivial, List.forall_mem_nil _⟩
  | answer answers => exact ⟨trivial, List.forall_mem_singleton.mpr answers.undisturbed⟩
  | suspend suspends => exact ⟨trivial, List.forall_mem_nil _⟩
  | resume resumes => exact ⟨trivial, List.forall_mem_singleton.mpr resumes.undisturbed⟩
  | fallAsleep sleeps => exact ⟨⟨.part sleeps, _, _, sleeps⟩, List.forall_mem_nil _⟩
  | sleepOn sleeps =>
      obtain ⟨elapses, parted⟩ := dozes
      exact ⟨⟨fun later => elapses (.part sleeps later), parted⟩, List.forall_mem_nil _⟩
  | wake wakes =>
      obtain rfl := napStep_over wakes
      exact ⟨trivial, List.forall_mem_singleton.mpr (.inl ⟨rfl, dozes.1 (.ended wakes)⟩)⟩
  | startle => exact ⟨trivial, List.forall_mem_singleton.mpr (.inr ⟨rfl, dozes.2⟩)⟩
  | conclude result => exact ⟨concludes _, List.forall_mem_nil _⟩

end Moves

/-! ### Runs -/

section Scene

variable {ρ : Type} {registry : Catalog.Registry}

/-- What holds of a run as long as the signal is unset. -/
structure Scene.Undisturbed (scene : Scene ρ) : Prop where
  walk : scene.walk.Dozes
  loops : ∀ loop ∈ scene.loops, loop.Dozes
  history : ∀ entry ∈ scene.history, Interleaving.Undisturbed entry.2

variable {exchanges : List RunExchange}

theorem startedBy_dozes {loop : Standing LoopStep}
    (started : loop ∈ exchanges.flatMap (startedBy registry)) : loop.Dozes := by
  obtain ⟨exchange, -, started⟩ := List.mem_flatMap.mp started
  unfold startedBy at started
  split at started
  · obtain rfl := List.mem_singleton.mp started
    trivial
  · cases started

theorem history_undisturbed {history : List (TaskId × RunExchange)} {task : TaskId}
    (earlier : ∀ entry ∈ history, Undisturbed entry.2)
    (now : ∀ exchange ∈ exchanges, Undisturbed exchange) :
    ∀ entry ∈ history ++ exchanges.map (task, ·), Undisturbed entry.2 := by
  intro entry member
  rcases List.mem_append.mp member with old | new
  · exact earlier entry old
  · obtain ⟨exchange, inside, rfl⟩ := List.mem_map.mp new
    exact now exchange inside

/-- A run whose signal is unset has not been disturbed. -/
theorem Steps.undisturbed {signal : Bool} {start : RunActivity ρ} {scene : Scene ρ}
    (steps : Steps registry (Scene.start signal start) scene) (unset : scene.signal = false) :
    scene.Undisturbed := by
  induction steps with
  | refl => exact ⟨trivial, List.forall_mem_nil _, List.forall_mem_nil _⟩
  | @tail middle final earlier step hypothesis =>
      have before : middle.signal = false := by
        cases wasSet : middle.signal with
        | false => rfl
        | true =>
            rw [step.signal_mono wasSet] at unset
            cases unset
      have sound := hypothesis before
      cases step with
      | stop idle => cases unset
      | walk alone moves =>
          obtain rfl : _ = false := unset
          rw [before] at moves
          obtain ⟨dozes, now⟩ := moves.undisturbed sound.walk fun _ => trivial
          refine ⟨dozes, fun loop member => ?_, history_undisturbed sound.history now⟩
          rcases List.mem_append.mp member with old | new
          · exact sound.loops loop old
          · exact startedBy_dozes new
      | loop found alone moves =>
          obtain rfl : _ = false := unset
          rw [before] at moves
          obtain ⟨dozes, now⟩ := moves.undisturbed
            (sound.loops _ (List.mem_of_getElem? found)) fun result => by
              unfold Standing.ofLoop
              split <;> trivial
          refine ⟨sound.walk, fun loop member => ?_, history_undisturbed sound.history now⟩
          rcases List.mem_append.mp member with old | new
          · rcases List.mem_or_eq_of_mem_set old with other | rfl
            · exact sound.loops loop other
            · exact dozes
          · exact startedBy_dozes new

/-! ### One task by itself -/

/-- A run in which only the walk is left, with the signal unset. -/
abbrev Scene.alone (history : List RunExchange) (walk : Standing ρ) : Scene ρ :=
  ⟨false, history.map (.walk, ·), walk, []⟩

variable {first : Scene ρ} {history : List RunExchange}

/-- A walk that is alone moves. -/
theorem Steps.alone {standing later : Standing ρ}
    (steps : Steps registry first (Scene.alone history standing))
    (moves : Moves .ended [] false standing exchanges false later)
    (isPrivate : ∀ exchange ∈ exchanges, IsPrivate exchange.request) :
    Steps registry first (Scene.alone (history ++ exchanges) later) := by
  have quiet : exchanges.flatMap (startedBy registry) = [] := by
    refine List.flatMap_eq_nil_iff.mpr fun exchange member => ?_
    have own := isPrivate exchange member
    unfold startedBy
    split
    next spawned => rw [spawned] at own; exact own.elim
    · rfl
  have step := steps.tail (.walk (nofun : ∀ loop ∈ ([] : List (Standing LoopStep)), _) moves)
  simpa [quiet, Scene.alone] using step

/-- A nap whose time elapses comes to its end. -/
theorem Steps.nap {chunk seconds elapsed : Float} {next : Except Interruption Bool → RunActivity ρ}
    (elapses : NapElapses chunk seconds elapsed)
    (steps : Steps registry first (Scene.alone history (.napping chunk elapsed seconds next))) :
    Steps registry first
      (Scene.alone (history ++ [⟨.action (.nap chunk seconds), .ok false⟩])
        (.active (next (.ok false)))) := by
  induction elapses with
  | ended ends =>
      exact steps.alone (.wake ends) (List.forall_mem_singleton.mpr trivial)
  | part sleeps elapses hypothesis =>
      have slept := steps.alone (.sleepOn sleeps) (List.forall_mem_nil _)
      rw [List.append_nil] at slept
      exact hypothesis slept

/-- A request that is answered after a wait. -/
theorem Steps.wait {request : RunRequest} {next : request.Answer → RunActivity ρ}
    {answer : request.Answer} (suspends : Suspends request) (resumes : Resumes [] request answer)
    (isPrivate : IsPrivate request)
    (steps : Steps registry first (Scene.alone history (.active (.perform request next)))) :
    Steps registry first
      (Scene.alone (history ++ [⟨request, answer⟩]) (.active (next answer))) := by
  have waits := steps.alone (.suspend suspends) (List.forall_mem_nil _)
  rw [List.append_nil] at waits
  exact waits.alone (.resume resumes) (List.forall_mem_singleton.mpr isPrivate)

/-- A walk that is alone can have every exchange that is undisturbed. -/
theorem Steps.exchange {request : RunRequest} {next : request.Answer → RunActivity ρ}
    {answer : request.Answer} (undisturbed : Undisturbed ⟨request, answer⟩)
    (isPrivate : IsPrivate request)
    (steps : Steps registry first (Scene.alone history (.active (.perform request next)))) :
    Steps registry first
      (Scene.alone (history ++ [⟨request, answer⟩]) (.active (next answer))) := by
  have atOnce (answers : Answers false request answer false) :
      Steps registry first
        (Scene.alone (history ++ [⟨request, answer⟩]) (.active (next answer))) :=
    steps.alone (.answer answers) (List.forall_mem_singleton.mpr isPrivate)
  cases request with
  | action request =>
      cases request with
      | isStopping => exact atOnce ⟨undisturbed, rfl⟩
      | stop => exact undisturbed.elim
      | wait seconds => exact atOnce ⟨undisturbed, id⟩
      | nap chunk seconds =>
          rcases undisturbed with ⟨rfl, elapses⟩ | ⟨rfl, time, later, sleeps⟩
          · cases elapses with
            | ended ends => exact atOnce ⟨false, ends, rfl, rfl⟩
            | part sleeps elapses =>
                have slept := steps.alone (.fallAsleep sleeps) (List.forall_mem_nil _)
                rw [List.append_nil] at slept
                exact slept.nap elapses
          · have slept := steps.alone (.fallAsleep sleeps) (List.forall_mem_nil _)
            rw [List.append_nil] at slept
            exact slept.alone (.startle _ _ _ _ _) (List.forall_mem_singleton.mpr trivial)
      | pass | sleep | block => exact steps.wait trivial undisturbed trivial
      | _ => exact atOnce id
  | handover => exact steps.wait trivial undisturbed trivial
  | spawn index block => exact isPrivate.elim
  | join tolerant => exact isPrivate.elim
  | call label arguments => exact atOnce rfl
  | revokeLoops => exact atOnce rfl
  | _ => exact atOnce id

variable {activity : RunActivity ρ}

theorem Steps.leads {rest : RunActivity ρ} (leads : activity.Leads exchanges rest)
    (undisturbed : ∀ exchange ∈ exchanges, Undisturbed exchange)
    (isPrivate : ∀ exchange ∈ exchanges, IsPrivate exchange.request)
    (steps : Steps registry first (Scene.alone history (.active activity))) :
    Steps registry first (Scene.alone (history ++ exchanges) (.active rest)) := by
  induction leads generalizing history with
  | rest activity => rwa [List.append_nil]
  | exchange later hypothesis =>
      rw [List.forall_mem_cons] at undisturbed isPrivate
      have next := steps.exchange undisturbed.1 isPrivate.1
      have goesOn := hypothesis undisturbed.2 isPrivate.2 next
      rwa [List.append_assoc] at goesOn

/-- An activity that has only undisturbed exchanges can have them by itself. -/
theorem Steps.solo_leads {rest : RunActivity ρ} (leads : activity.Leads exchanges rest)
    (undisturbed : ∀ exchange ∈ exchanges, Undisturbed exchange)
    (isPrivate : ∀ exchange ∈ exchanges, IsPrivate exchange.request) :
    Steps registry (Scene.start false activity) (Scene.alone exchanges (.active rest)) := by
  have start : Steps registry (Scene.start false activity)
      (Scene.alone [] (.ready activity)) := .refl
  have begun := start.alone (.begin false activity) (List.forall_mem_nil _)
  exact begun.leads leads undisturbed isPrivate

end Scene

end InputScript.Interleaving
