/-
Module: InputScript.Proofs.Interleaving
Purpose: Runs in any order.  The walk of a run and its loops take turns: a task goes on by itself
  until it has to wait, then any task may go on.  Who goes on is left open, and so is every answer
  that does not follow from the signal; the signal is set by the requests of a task or, between two
  turns, from outside.  It is never taken back.  That a worker carries out its part of an action in one
  unbroken turn of its task is an assumption here; the module `Workers` does without it.
Main exports: Standing, Answers, Resumes, Moves, Steps, Steps.follows
-/
import InputScript.Proofs.Exchange
import InputScript.Rehearsal.Machine
import Mathlib.Logic.Relation

namespace InputScript.Interleaving

open Catalog Run Rehearsal

/-- A request of a run with its answer. -/
abbrev RunExchange := Activity.Exchange RunRequest.Answer

/-! ### Tasks -/

/-- Where a task stands. -/
inductive Standing (α : Type) where
  /-- It waits for its turn to begin. -/
  | ready (activity : RunActivity α)
  /-- It is at work; no other task goes on meanwhile. -/
  | active (activity : RunActivity α)
  /-- It waits for the answer to a request. -/
  | waiting (request : RunRequest) (next : request.Answer → RunActivity α)
  /-- It naps, and so much of the time has elapsed. -/
  | napping (chunk elapsed seconds : Float) (next : Except Interruption Bool → RunActivity α)
  | ended (result : Except Interruption α)

namespace Standing

variable {α : Type}

/-- Whether a task is at work. -/
def IsActive : Standing α → Prop
  | .active _ => True
  | _ => False

/-- Where a loop stands after a pass: it waits for its next pass, or has ended. -/
def ofLoop (registry : Registry) : Except Interruption LoopStep → Standing LoopStep
  | .ok (.again _ next) => .ready (turn registry next)
  | .ok .ended => .ended (.ok .ended)
  | .error interruption => .ended (.error interruption)

end Standing

/-! ### Answers -/

/-- The answers that a request can get without a wait when the signal is `before`, and the signal
afterwards.  Observers, devices and the clock answer as they like and may have the run stopped. -/
def Answers (before : Bool) : (request : RunRequest) → request.Answer → Bool → Prop
  | .action .isStopping, answer, after => answer = before ∧ after = before
  | .action .stop, _, after => after = true
  | .action (.wait _), answer, after => answer = after ∧ (before = true → after = true)
  | .action (.nap chunk seconds), answer, after =>
    ∃ stopping, napStep before chunk 0 seconds = .over stopping ∧ answer = .ok stopping ∧
      after = before
  | .action .pass, _, _ | .action (.sleep _), _, _ | .action .block, _, _ => False
  | .handover, _, _ | .join _, _, _ => False
  | .call _ _, _, after | .spawn _ _, _, after | .revokeLoops, _, after => after = before
  | .action _, _, after | .log _, _, after | .report _, _, after => before = true → after = true

/-- The requests whose answers take a turn of the others. -/
def Suspends : RunRequest → Prop
  | .action .pass | .action (.sleep _) | .action .block | .handover | .join _ => True
  | _ => False

/-- How a wait for the loops ends: when all of them have ended, at the first one that fails unless it
is tolerant, or by being called off. -/
def JoinEnds (tolerant : Bool) (loops : List (Standing LoopStep)) : Except Interruption Unit → Prop
  | .ok () =>
    ∀ loop ∈ loops, ∃ result, loop = .ended result ∧ (tolerant = true ∨ ∃ step, result = .ok step)
  | .error interruption =>
    interruption = .revoked ∨ (tolerant = false ∧ .ended (.error interruption) ∈ loops)

/-- The answers that a waiting task can get.  Whatever it waits for, it may be called off. -/
def Resumes (loops : List (Standing LoopStep)) : (request : RunRequest) → request.Answer → Prop
  | .action .pass, answer | .action (.sleep _), answer | .handover, answer =>
    answer = .ok () ∨ answer = .error .revoked
  | .action .block, answer => answer = .error .revoked
  | .join tolerant, answer => JoinEnds tolerant loops answer
  | _, _ => False

/-! ### Moves of one task -/

/-- `Moves conclude loops before standing exchanges after later`: beside the given loops, a task can
move from one standing to a later one, with at most one exchange, while the signal goes from `before`
to `after`.  `conclude` says where it stands when its activity has ended. -/
inductive Moves {α : Type} (conclude : Except Interruption α → Standing α)
    (loops : List (Standing LoopStep)) :
    Bool → Standing α → List RunExchange → Bool → Standing α → Prop where
  | begin (before : Bool) (activity : RunActivity α) :
      Moves conclude loops before (.ready activity) [] before (.active activity)
  | revoke (before : Bool) (activity : RunActivity α) :
      Moves conclude loops before (.ready activity) [] before (.ended (.error .revoked))
  | answer {before after : Bool} {request : RunRequest} {next : request.Answer → RunActivity α}
      {answer : request.Answer} (answers : Answers before request answer after) :
      Moves conclude loops before (.active (.perform request next)) [⟨request, answer⟩] after
        (.active (next answer))
  | suspend {before : Bool} {request : RunRequest} {next : request.Answer → RunActivity α}
      (suspends : Suspends request) :
      Moves conclude loops before (.active (.perform request next)) [] before
        (.waiting request next)
  | resume {before : Bool} {request : RunRequest} {next : request.Answer → RunActivity α}
      {answer : request.Answer} (resumes : Resumes loops request answer) :
      Moves conclude loops before (.waiting request next) [⟨request, answer⟩] before
        (.active (next answer))
  | fallAsleep {before : Bool} {chunk seconds time elapsed : Float}
      {next : Except Interruption Bool → RunActivity α}
      (sleeps : napStep before chunk 0 seconds = .part time elapsed) :
      Moves conclude loops before (.active (.perform (.action (.nap chunk seconds)) next)) [] before
        (.napping chunk elapsed seconds next)
  | sleepOn {before : Bool} {chunk elapsed seconds time later : Float}
      {next : Except Interruption Bool → RunActivity α}
      (sleeps : napStep before chunk elapsed seconds = .part time later) :
      Moves conclude loops before (.napping chunk elapsed seconds next) [] before
        (.napping chunk later seconds next)
  | wake {before stopping : Bool} {chunk elapsed seconds : Float}
      {next : Except Interruption Bool → RunActivity α}
      (wakes : napStep before chunk elapsed seconds = .over stopping) :
      Moves conclude loops before (.napping chunk elapsed seconds next)
        [⟨.action (.nap chunk seconds), .ok stopping⟩] before (.active (next (.ok stopping)))
  | startle (before : Bool) (chunk elapsed seconds : Float)
      (next : Except Interruption Bool → RunActivity α) :
      Moves conclude loops before (.napping chunk elapsed seconds next)
        [⟨.action (.nap chunk seconds), .error .revoked⟩] before (.active (next (.error .revoked)))
  | conclude (before : Bool) (result : Except Interruption α) :
      Moves conclude loops before (.active (.finished result)) [] before (conclude result)

/-! ### Runs -/

/-- The state of a run: the signal, what happened so far, and where its tasks stand. -/
structure Scene (ρ : Type) where
  signal : Bool
  history : List (TaskId × RunExchange)
  walk : Standing ρ
  loops : List (Standing LoopStep)

namespace Scene

variable {ρ : Type}

/-- A run that has not begun. -/
def start (signal : Bool) (walk : RunActivity ρ) : Scene ρ :=
  ⟨signal, [], .ready walk, []⟩

/-- Whether no task is at work. -/
def IsIdle (scene : Scene ρ) : Prop :=
  ¬ scene.walk.IsActive ∧ ∀ loop ∈ scene.loops, ¬ loop.IsActive

/-- The exchanges of one task. -/
def exchangesOf (scene : Scene ρ) (task : TaskId) : List RunExchange :=
  (scene.history.filter (·.1 == task)).map (·.2)

end Scene

/-- The loops that an exchange starts. -/
def startedBy (registry : Registry) (exchange : RunExchange) : List (Standing LoopStep) :=
  match exchange.request with
  | .spawn index block => [.ready (beginLoop registry index block)]
  | _ => []

/-- One step of a run: the signal is set between two turns, or one task moves while no other is at
work. -/
inductive Step {ρ : Type} (registry : Registry) : Scene ρ → Scene ρ → Prop where
  | stop {scene : Scene ρ} (idle : scene.IsIdle) : Step registry scene { scene with signal := true }
  | walk {scene : Scene ρ} {exchanges : List RunExchange} {after : Bool} {later : Standing ρ}
      (alone : ∀ loop ∈ scene.loops, ¬ loop.IsActive)
      (moves : Moves .ended scene.loops scene.signal scene.walk exchanges after later) :
      Step registry scene
        { signal := after
          history := scene.history ++ exchanges.map (.walk, ·)
          walk := later
          loops := scene.loops ++ exchanges.flatMap (startedBy registry) }
  | loop {scene : Scene ρ} {number : Nat} {standing later : Standing LoopStep}
      {exchanges : List RunExchange} {after : Bool} (found : scene.loops[number]? = some standing)
      (alone : ¬ scene.walk.IsActive ∧ ∀ other loop, other ≠ number →
        scene.loops[other]? = some loop → ¬ loop.IsActive)
      (moves : Moves (Standing.ofLoop registry) scene.loops scene.signal standing exchanges after
        later) :
      Step registry scene
        { signal := after
          history := scene.history ++ exchanges.map fun exchange => (.loop number, exchange)
          walk := scene.walk
          loops := scene.loops.set number later ++ exchanges.flatMap (startedBy registry) }

/-- Any number of steps of a run. -/
abbrev Steps {ρ : Type} (registry : Registry) : Scene ρ → Scene ρ → Prop :=
  Relation.ReflTransGen (Step registry)

/-! ### The signal -/

theorem napStep_over {signal stopping : Bool} {chunk elapsed seconds : Float}
    (isOver : napStep signal chunk elapsed seconds = .over stopping) : stopping = signal := by
  unfold napStep at isOver
  split at isOver
  · split at isOver
    · cases isOver
      simp_all
    · cases isOver
  · cases isOver
    rfl

/-- An answer never takes the signal back. -/
theorem Answers.signal_mono {before after : Bool} {request : RunRequest} {answer : request.Answer}
    (answers : Answers before request answer after) (set : before = true) : after = true := by
  unfold Answers at answers
  split at answers
  case h_4 =>
    obtain ⟨_, _, _, rfl⟩ := answers
    exact set
  all_goals simp_all

theorem Moves.signal_mono {α : Type} {conclude : Except Interruption α → Standing α}
    {loops : List (Standing LoopStep)} {before after : Bool} {standing later : Standing α}
    {exchanges : List RunExchange}
    (moves : Moves conclude loops before standing exchanges after later) (set : before = true) :
    after = true := by
  cases moves with
  | answer answers => exact answers.signal_mono set
  | _ => exact set

theorem Step.signal_mono {ρ : Type} {registry : Registry} {scene later : Scene ρ}
    (step : Step registry scene later) (set : scene.signal = true) : later.signal = true := by
  cases step with
  | stop idle => rfl
  | walk alone moves => exact moves.signal_mono set
  | loop found alone moves => exact moves.signal_mono set

/-! ### What a task has done -/

section Follows

variable {α : Type}

/-- Whether a task that began with an activity can stand so after its exchanges. -/
def Standing.Follows (start : RunActivity α) (exchanges : List RunExchange) : Standing α → Prop
  | .ready activity => activity = start ∧ exchanges = []
  | .active activity => start.Leads exchanges activity
  | .waiting request next => start.Leads exchanges (.perform request next)
  | .napping chunk _ seconds next =>
    start.Leads exchanges (.perform (.action (.nap chunk seconds)) next)
  | .ended result => start.Runs exchanges result ∨ result = .error .revoked

theorem Moves.follows {loops : List (Standing LoopStep)} {before after : Bool}
    {standing later : Standing α} {exchanges : List RunExchange}
    (moves : Moves .ended loops before standing exchanges after later)
    {start : RunActivity α} {earlier : List RunExchange}
    (follows : standing.Follows start earlier) : later.Follows start (earlier ++ exchanges) := by
  cases moves with
  | begin activity =>
      obtain ⟨rfl, rfl⟩ := follows
      exact .rest _
  | revoke activity => exact .inr rfl
  | answer answers => exact follows.snoc _
  | resume resumes => exact follows.snoc _
  | wake | startle =>
      have leads : start.Leads earlier (.perform (.action (.nap _ _)) _) := follows
      exact leads.snoc _
  | suspend suspends => exact (List.append_nil earlier).symm ▸ follows
  | fallAsleep sleeps => exact (List.append_nil earlier).symm ▸ follows
  | sleepOn sleeps => exact (List.append_nil earlier).symm ▸ follows
  | conclude result => exact .inl ((List.append_nil earlier).symm ▸ follows)

end Follows

section Scene

variable {ρ : Type} {registry : Registry}

theorem Scene.exchangesOf_append {scene later : Scene ρ} {task other : TaskId}
    {exchanges : List RunExchange}
    (appended : later.history = scene.history ++ exchanges.map (other, ·)) :
    later.exchangesOf task =
      scene.exchangesOf task ++ if other = task then exchanges else [] := by
  have map_filter : (exchanges.map (other, ·)).filter (·.1 == task) =
      if other = task then exchanges.map (other, ·) else [] := by
    split <;> simp_all
  unfold Scene.exchangesOf
  rw [appended, List.filter_append, List.map_append, map_filter]
  split
  · rw [List.map_map, Function.comp_def, List.map_id']
  · rfl

/-- At every point of a run, the walk stands where its own exchanges have led it. -/
theorem Steps.follows {signal : Bool} {start : RunActivity ρ} {scene : Scene ρ}
    (steps : Steps registry (Scene.start signal start) scene) :
    scene.walk.Follows start (scene.exchangesOf .walk) := by
  induction steps with
  | refl => exact ⟨rfl, rfl⟩
  | tail earlier step hypothesis =>
      cases step with
      | stop idle => exact hypothesis
      | walk alone moves =>
          rw [Scene.exchangesOf_append rfl]
          exact moves.follows hypothesis
      | loop found alone moves =>
          rw [Scene.exchangesOf_append rfl]
          simpa using hypothesis

end Scene

end InputScript.Interleaving
