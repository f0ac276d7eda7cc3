/-
Module: InputScript.Proofs.Turns
Purpose: The turns of a rehearsed task.  Between two waits the world alone answers a task, so what the
  machine has a task do in one go is a run in which no other task moves.
Main exports: Scene.after, Strides, Rests, stretch_strides, resume_steps
-/
import InputScript.Proofs.Cancellation

namespace InputScript

/-- The type of the results of a task. -/
abbrev Rehearsal.TaskId.Result (ρ : Type) : Rehearsal.TaskId → Type
  | .walk => ρ
  | .loop _ => Run.LoopStep

namespace Interleaving

open Catalog Run Rehearsal Stopping

/-! ### The tasks of a scene -/

section Scene

variable {ρ : Type} {registry : Registry}

/-- Where a task stands when its activity has ended. -/
def conclude (registry : Registry) :
    (task : TaskId) → Except Interruption (task.Result ρ) → Standing (task.Result ρ)
  | .walk => .ended
  | .loop _ => .ofLoop registry

namespace Scene

/-- How a task of the scene stands. -/
def standing? (scene : Scene ρ) : (task : TaskId) → Option (Standing (task.Result ρ))
  | .walk => some scene.walk
  | .loop number => scene.loops[number]?

/-- The scene after moves of one task. -/
def after (registry : Registry) (scene : Scene ρ) (exchanges : List RunExchange)
    (signal : Bool) : (task : TaskId) → Standing (task.Result ρ) → Scene ρ
  | .walk, later =>
    { signal
      history := scene.history ++ exchanges.map (.walk, ·)
      walk := later
      loops := scene.loops ++ exchanges.flatMap (startedBy registry) }
  | .loop number, later =>
    { signal
      history := scene.history ++ exchanges.map fun exchange => (.loop number, exchange)
      walk := scene.walk
      loops := scene.loops.set number later ++ exchanges.flatMap (startedBy registry) }

/-- Whether only one task may be at work. -/
def Spares (scene : Scene ρ) (task : TaskId) : Prop :=
  ∀ other standing, other ≠ task → scene.standing? other = some standing → ¬ standing.IsActive

variable {scene : Scene ρ} {task : TaskId} {standing later : Standing (task.Result ρ)}
  {exchanges more : List RunExchange} {signal : Bool}

@[simp] theorem signal_after : (scene.after registry exchanges signal task later).signal = signal := by
  cases task <;> rfl

theorem length_loops_after : (scene.after registry exchanges signal task later).loops.length =
    scene.loops.length + (exchanges.flatMap (startedBy registry)).length := by
  cases task <;> simp [after]

theorem number_lt {number : Nat} {standing : Standing LoopStep}
    (found : scene.standing? (.loop number) = some standing) : number < scene.loops.length :=
  (List.getElem?_eq_some_iff.mp found).1

theorem standing?_after (found : scene.standing? task = some standing) :
    (scene.after registry exchanges signal task later).standing? task = some later := by
  cases task with
  | walk => rfl
  | loop number =>
      have bound := number_lt found
      simp [after, standing?, List.getElem?_append, bound]

theorem after_after (found : scene.standing? task = some standing) {middle : Bool}
    {next : Standing (task.Result ρ)} :
    (scene.after registry exchanges middle task next).after registry more signal task later =
      scene.after registry (exchanges ++ more) signal task later := by
  cases task with
  | walk => simp [after]
  | loop number =>
      have bound := number_lt found
      simp [after, bound]

theorem standing?_after_of_ne {other : TaskId} {stands : Standing (other.Result ρ)}
    (different : other ≠ task) (found : scene.standing? other = some stands) :
    (scene.after registry exchanges signal task later).standing? other = some stands := by
  cases other with
  | walk =>
      cases task with
      | walk => exact absurd rfl different
      | loop number => exact found
  | loop number =>
      have bound := number_lt found
      have kept : scene.loops[number]? = some stands := found
      cases task with
      | walk => simpa [after, standing?, List.getElem?_append, bound] using kept
      | loop moved =>
          have apart : moved ≠ number := fun same => different (congrArg _ same.symm)
          simpa [after, standing?, List.getElem?_append, bound, apart] using kept

/-- The loops after those that there were are the ones that were started. -/
theorem mem_startedBy_of_standing? {number : Nat} {stands : Standing LoopStep}
    (new : scene.loops.length ≤ number)
    (found : (scene.after registry exchanges signal task later).standing? (.loop number) =
      some stands) : stands ∈ exchanges.flatMap (startedBy registry) := by
  cases task with
  | walk =>
      rw [standing?, after, List.getElem?_append_right new] at found
      exact List.mem_of_getElem? found
  | loop moved =>
      rw [standing?, after, List.getElem?_append_right (by simpa using new)] at found
      exact List.mem_of_getElem? found

theorem Spares.after (spares : scene.Spares task) :
    (scene.after registry exchanges signal task later).Spares task := by
  intro other stands different found
  cases other with
  | walk =>
      cases task with
      | walk => exact absurd rfl different
      | loop number => exact spares .walk _ different found
  | loop number =>
      by_cases new : scene.loops.length ≤ number
      · obtain ⟨exchange, -, started⟩ := List.mem_flatMap.mp (mem_startedBy_of_standing? new found)
        unfold startedBy at started
        split at started
        · obtain rfl := List.mem_singleton.mp started
          exact id
        · cases started
      · have old : scene.standing? (.loop number) = some scene.loops[number] :=
          List.getElem?_eq_getElem (Nat.not_le.mp new)
        have same := (standing?_after_of_ne different old).symm.trans found
        obtain rfl := Option.some.inj same
        exact spares _ _ different old

end Scene

variable {scene : Scene ρ} {task : TaskId} {exchanges : List RunExchange} {after : Bool}
  {standing later : Standing (task.Result ρ)}

/-- One task moves while all others rest. -/
theorem Step.move (found : scene.standing? task = some standing) (spares : scene.Spares task)
    (moves : Moves (conclude registry task) scene.loops scene.signal standing exchanges after later) :
    Step registry scene (scene.after registry exchanges after task later) := by
  cases task with
  | walk =>
      obtain rfl : scene.walk = standing := Option.some.inj found
      apply Step.walk _ moves
      intro loop member
      obtain ⟨number, stands⟩ := List.mem_iff_getElem?.mp member
      exact spares (.loop number) loop nofun stands
  | loop number =>
      apply Step.loop found _ moves
      refine ⟨spares .walk _ nofun rfl, fun other loop different stands => ?_⟩
      exact spares (.loop other) loop (fun same => different (TaskId.loop.inj same)) stands

variable {origin : Standing (task.Result ρ)}

/-- A task that has moved moves on. -/
theorem Steps.move {first : Scene ρ} {more : List RunExchange} {signal : Bool}
    (steps : Steps registry first (scene.after registry exchanges signal task standing))
    (found : scene.standing? task = some origin) (spares : scene.Spares task)
    (moves : Moves (conclude registry task)
      (scene.after registry exchanges signal task standing).loops signal standing more after later) :
    Steps registry first (scene.after registry (exchanges ++ more) after task later) := by
  rw [← Scene.after_after found]
  apply steps.tail
  apply Step.move (Scene.standing?_after found) spares.after
  rwa [Scene.signal_after]

/-! ### Strides -/

/-- The answers that a request can get without a turn of the others, beside so many loops: where there
are none, a wait for them is over at once. -/
def Responds (loops : Nat) (before : Bool) (request : RunRequest) (answer : request.Answer)
    (after : Bool) : Prop :=
  Answers before request answer after ∨
    match request, answer with
    | .join _, answer => loops = 0 ∧ answer = .ok () ∧ after = before
    | _, _ => False

/-- `Strides registry loops before activity exchanges after rest`: beside so many loops, an activity
has the exchanges without a turn of the others while the signal goes from `before` to `after`, and
`rest` is what it still has to do. -/
inductive Strides {α : Type} (registry : Registry) :
    Nat → Bool → RunActivity α → List RunExchange → Bool → RunActivity α → Prop where
  | rest (loops : Nat) (before : Bool) (activity : RunActivity α) :
      Strides registry loops before activity [] before activity
  | answer {loops : Nat} {before middle after : Bool} {request : RunRequest}
      {next : request.Answer → RunActivity α} {answer : request.Answer}
      {exchanges : List RunExchange} {rest : RunActivity α}
      (responds : Responds loops before request answer middle)
      (strides : Strides registry (loops + (startedBy registry ⟨request, answer⟩).length) middle
        (next answer) exchanges after rest) :
      Strides registry loops before (.perform request next) (⟨request, answer⟩ :: exchanges) after
        rest

/-- Strides of a task are a run in which no other task moves: each answer is a move, or two if the
task would have to wait. -/
theorem Strides.steps {first : Scene ρ} (found : scene.standing? task = some origin)
    (spares : scene.Spares task) {loops : Nat} {before : Bool}
    {activity rest : RunActivity (task.Result ρ)}
    (strides : Strides registry loops before activity exchanges after rest)
    {earlier : List RunExchange}
    (count : scene.loops.length + (earlier.flatMap (startedBy registry)).length = loops)
    (steps : Steps registry first (scene.after registry earlier before task (.active activity))) :
    Steps registry first (scene.after registry (earlier ++ exchanges) after task (.active rest)) := by
  induction strides generalizing earlier with
  | rest loops before activity => rwa [List.append_nil]
  | @answer loops before middle after request next answer exchanges rest responds strides
      hypothesis =>
      suffices answered : Steps registry first
          (scene.after registry (earlier ++ [⟨request, answer⟩]) middle task
            (.active (next answer))) by
        have later := hypothesis (by simp [← count, Nat.add_assoc]) answered
        rwa [List.append_assoc] at later
      rcases responds with answers | joined
      · exact steps.move found spares (.answer answers)
      · split at joined
        · obtain ⟨rfl, rfl, rfl⟩ := joined
          have waits := steps.move found spares (.suspend trivial)
          rw [List.append_nil] at waits
          refine waits.move found spares (.regain (.join _) (.ok ()) ?_)
          rw [List.length_eq_zero_iff.mp (Scene.length_loops_after.trans count)]
          exact nofun
        · exact joined.elim

/-- A task that may not start loops starts none. -/
theorem Strides.quiet {α : Type} {loops : Nat} {before : Bool} {activity rest : RunActivity α}
    {post : Knowledge → Except Interruption α → Prop} {known : Knowledge}
    (strides : Strides registry loops before activity exchanges after rest)
    (holds : known.Holds before) (keeps : activity.Keeps (discipline false) post known) :
    exchanges.flatMap (startedBy registry) = [] := by
  induction strides generalizing known with
  | rest loops before activity => rfl
  | @answer loops before middle after request next answer exchanges rest responds strides
      hypothesis =>
      obtain ⟨admits, goesOn⟩ := keeps
      have starts : startedBy registry ⟨request, answer⟩ = [] := by
        cases request with
        | spawn index block => cases admits
        | _ => rfl
      have heeds : (discipline false).expects known request answer ∧
          ((discipline false).after known request answer).Holds middle := by
        rcases responds with answers | joined
        · exact answers.holds holds
        · split at joined
          · obtain ⟨-, -, rfl⟩ := joined
            exact ⟨trivial, Knowledge.Holds.later holds id⟩
          · exact joined.elim
      rw [List.flatMap_cons, starts, hypothesis heeds.2 (goesOn _ heeds.1)]
      rfl

end Scene

/-! ### Waits -/

section Waits

variable {α : Type}

/-- Where a task stands that goes on so.  The rest between two passes of a loop is no request. -/
inductive Rests : Resumption α → Standing α → Prop where
  | begin (activity : RunActivity α) : Rests (.begin activity) (.ready activity)
  | pause (activity : RunActivity α) :
      Rests (.nap Action.napChunk Action.napChunk Action.napChunk fun
        | .ok _ => activity
        | .error interruption => .finished (.error interruption)) (.ready activity)
  | pass (next : Except Interruption Unit → RunActivity α) :
      Rests (.answer next) (.waiting (.action .pass) next)
  | sleep (seconds : Float) (next : Except Interruption Unit → RunActivity α) :
      Rests (.answer next) (.waiting (.action (.sleep seconds)) next)
  | block (next : Except Interruption Unit → RunActivity α) :
      Rests (.answer next) (.waiting (.action .block) next)
  | handover (next : Except Interruption Unit → RunActivity α) :
      Rests (.answer next) (.waiting .handover next)
  | join (tolerant : Bool) (next : Except Interruption Unit → RunActivity α) :
      Rests (.answer next) (.waiting (.join tolerant) next)
  | nap (chunk elapsed seconds : Float) (next : Except Interruption Bool → RunActivity α) :
      Rests (.nap chunk elapsed seconds next) (.napping chunk elapsed seconds next)

/-- Whether a task may go on with a result; `ends` says with which ones a wait for the loops may. -/
def Accepts (ends : Bool → Except Interruption Unit → Prop) (result : Except Interruption Unit) :
    Standing α → Prop
  | .waiting (.action .block) _ => result = .error .revoked
  | .waiting (.join tolerant) _ => ends tolerant result
  | _ => result = .ok () ∨ result = .error .revoked

/-- Whether a task can have begun to wait so. -/
def Fits (standing : Standing α) : Wait → Prop
  | .pass | .timer _ | .handover => ∀ ends, Accepts ends (.ok ()) standing
  | .never => True
  | .loops tolerant => ∃ next, standing = .waiting (.join tolerant) next

/-- Where a task stands after a stretch of its activity. -/
inductive Parks (conclude : Except Interruption α → Standing α) : Stop α → Standing α → Prop where
  | finished (result : Except Interruption α) : Parks conclude (.finished result) (conclude result)
  | suspended {wait : Wait} {resumption : Resumption α} {standing : Standing α}
      (rests : Rests resumption standing) (fits : Fits standing wait) :
      Parks conclude (.suspended wait resumption) standing

end Waits

/-! ### The world -/

/-- The orders to the machine that an exchange leaves. -/
def ordersOf (exchange : RunExchange) : List Command :=
  match exchange.request with
  | .spawn index block => [.spawn index block]
  | .revokeLoops => [.revokeLoops]
  | _ => []

/-- How often each action was called, after one more exchange. -/
def countCall (calls : Dictionary Nat) (exchange : RunExchange) : Dictionary Nat :=
  match exchange.request with
  | .call label _ => Dictionary.set calls label ((Dictionary.get? calls label).getD 0 + 1)
  | _ => calls

/-- What exchanges change in the world beside the signal. -/
structure Charges (registry : Registry) (world : World) (exchanges : List RunExchange)
    (after : World) : Prop where
  loops : after.loops = world.loops + (exchanges.flatMap (startedBy registry)).length
  commands : after.commands = (exchanges.flatMap ordersOf).reverse ++ world.commands
  calls : after.calls = exchanges.foldl countCall world.calls

section World

variable {registry : Registry} {rules : Rules} {world : World}

theorem Charges.append {middle after : World} {exchanges more : List RunExchange}
    (first : Charges registry world exchanges middle) (second : Charges registry middle more after) :
    Charges registry world (exchanges ++ more) after where
  loops := by simp [first.loops, second.loops, Nat.add_assoc]
  commands := by simp [first.commands, second.commands]
  calls := by simp [first.calls, second.calls]

/-- How an activity that has to wait stands. -/
def Halts {α : Type} (signal : Bool) (activity : RunActivity α) (wait : Wait)
    (resumption : Resumption α) : Prop :=
  ∃ standing, (∀ conclude loops, Moves conclude loops signal (.active activity) [] signal standing) ∧
    Rests resumption standing ∧ Fits standing wait

/-- Whether a reaction to a request is one that the request can get. -/
def Suits (registry : Registry) (world : World) {request : RunRequest} :
    Reaction request → Prop
  | .answered answer after =>
    Responds world.loops world.signal request answer after.signal ∧
      Charges registry world [⟨request, answer⟩] after
  | .suspended wait after deliver =>
    after.signal = world.signal ∧ Charges registry world [] after ∧
      ∀ {α : Type} (next : request.Answer → RunActivity α),
        Halts world.signal (.perform request next) wait (.answer fun result => next (deliver result))
  | .napping time chunk elapsed seconds deliver =>
    ∀ {α : Type} (next : request.Answer → RunActivity α),
      Halts world.signal (.perform request next) (.timer time)
        (.nap chunk elapsed seconds fun result => next (deliver result))

/-- Something happened that neither calls an action nor leaves an order. -/
structure Calm (world after : World) : Prop where
  rises : world.signal = true → after.signal = true
  loops : after.loops = world.loops
  commands : after.commands = world.commands
  calls : after.calls = world.calls

theorem Calm.trans {middle after : World} (first : Calm world middle) (second : Calm middle after) :
    Calm world after where
  rises := fun set => second.rises (first.rises set)
  loops := second.loops.trans first.loops
  commands := second.commands.trans first.commands
  calls := second.calls.trans first.calls

theorem enter_calm (world : World) (entry : Entry) : Calm world (world.enter entry) :=
  ⟨id, rfl, rfl, rfl⟩

theorem stopIf_calm (world : World) (condition : Bool) : Calm world (world.stopIf condition) := by
  cases condition with
  | true => exact ⟨fun _ => rfl, rfl, rfl, rfl⟩
  | false => exact ⟨id, rfl, rfl, rfl⟩

theorem logged_calm (rules : Rules) (world : World) (line : LogLine) :
    Calm world (world.logged rules line).2 := by
  unfold World.logged
  dsimp only
  split
  · split
    · exact (enter_calm _ _).trans (stopIf_calm _ _)
    · exact (enter_calm _ _).trans (stopIf_calm _ _)
  · exact (enter_calm _ _).trans (stopIf_calm _ _)

theorem reported_calm (rules : Rules) (world : World) (event : StepEvent) :
    Calm world (world.reported rules event).2 := by
  have shown : Calm world (if rules.showsProgress then
      (world.enter (.step event world.signal)).advance else world.enter (.step event world.signal)) := by
    split
    · exact ⟨id, rfl, rfl, rfl⟩
    · exact enter_calm _ _
  have counted {entered : World} (same : Calm world entered) (steps : Nat) (condition : Bool) :
      Calm world ({ entered with steps := steps }.stopIf condition) := by
    have stepped : Calm entered { entered with steps := steps } := ⟨id, rfl, rfl, rfl⟩
    exact same.trans (stepped.trans (stopIf_calm _ _))
  unfold World.reported
  dsimp only
  split
  · exact counted shown _ _
  · exact counted shown _ _

theorem waited_calm (rules : Rules) (world : World) (seconds : Option Float) :
    Calm world (world.waited rules seconds).2 := by
  have counted : Calm world
      { world.enter (.wait (seconds.map microseconds)) with waits := world.waits + 1 } :=
    ⟨id, rfl, rfl, rfl⟩
  exact counted.trans (stopIf_calm _ _)

theorem called_charges (registry : Registry) (rules : Rules) (world : World) (label : String)
    (arguments : List Value) :
    (world.called rules label arguments).2.signal = world.signal ∧
      Charges registry world [⟨.call label arguments, (world.called rules label arguments).1⟩]
        (world.called rules label arguments).2 := by
  unfold World.called
  dsimp only
  split
  · exact ⟨rfl, rfl, rfl, rfl⟩
  · exact ⟨rfl, rfl, rfl, rfl⟩

/-- The world reacts to every request as it should. -/
theorem react_suits (registry : Registry) (rules : Rules) (world : World)
    (request : RunRequest) : Suits registry world (react rules world request) := by
  cases request with
  | action request =>
      cases request with
      | isStopping => exact ⟨.inl ⟨rfl, rfl⟩, rfl, rfl, rfl⟩
      | stop => exact ⟨.inl rfl, rfl, rfl, rfl⟩
      | wait seconds =>
          have calm := waited_calm rules world seconds
          exact ⟨.inl ⟨rfl, calm.rises⟩, calm.loops, calm.commands, calm.calls⟩
      | isVisible handle =>
          have calm := stopIf_calm world (world.desk.stopWindow == some handle)
          exact ⟨.inl calm.rises, calm.loops, calm.commands, calm.calls⟩
      | pass =>
          exact ⟨rfl, ⟨rfl, rfl, rfl⟩, fun next =>
            ⟨_, fun _ _ => .suspend trivial, .pass _, fun _ => .inl rfl⟩⟩
      | sleep seconds =>
          refine ⟨rfl, ⟨rfl, rfl, rfl⟩, fun next =>
            ⟨_, fun _ _ => .suspend trivial, .sleep _ _, ?_⟩⟩
          split
          · exact fun _ => .inl rfl
          · exact fun _ => .inl rfl
      | nap chunk seconds =>
          rw [react]
          split
          · next ended =>
              exact ⟨.inl ⟨_, ended, rfl, rfl⟩, rfl, rfl, rfl⟩
          · next sleeps =>
              exact fun next => ⟨_, fun _ _ => .fallAsleep sleeps, .nap _ _ _ _, fun _ => .inl rfl⟩
      | block =>
          exact ⟨rfl, ⟨rfl, rfl, rfl⟩, fun next =>
            ⟨_, fun _ _ => .suspend trivial, .block _, trivial⟩⟩
      | _ => exact ⟨.inl id, rfl, rfl, rfl⟩
  | log line =>
      have calm := logged_calm rules world line
      exact ⟨.inl calm.rises, calm.loops, calm.commands, calm.calls⟩
  | report event =>
      have calm := reported_calm rules world event
      exact ⟨.inl calm.rises, calm.loops, calm.commands, calm.calls⟩
  | call label arguments =>
      obtain ⟨same, charges⟩ := called_charges registry rules world label arguments
      exact ⟨.inl same, charges⟩
  | handover =>
      exact ⟨rfl, ⟨rfl, rfl, rfl⟩, fun next =>
        ⟨_, fun _ _ => .suspend trivial, .handover _, fun _ => .inl rfl⟩⟩
  | join tolerant =>
      rw [react]
      split
      · next none =>
          exact ⟨.inr ⟨beq_iff_eq.mp none, rfl, rfl⟩, rfl, rfl, rfl⟩
      · exact ⟨rfl, ⟨rfl, rfl, rfl⟩, fun next =>
          ⟨_, fun _ _ => .suspend trivial, .join _ _, ⟨_, rfl⟩⟩⟩
  | spawn index block => exact ⟨.inl rfl, rfl, rfl, rfl⟩
  | revokeLoops => exact ⟨.inl rfl, rfl, rfl, rfl⟩

/-- What an activity does before it ends or has to wait: it is answered, and then stands where the
end of the stretch says. -/
theorem stretch_strides {α : Type} (registry : Registry) (rules : Rules) (world : World)
    (activity : RunActivity α) (conclude : Except Interruption α → Standing α) :
    ∃ exchanges rest later,
      Strides registry world.loops world.signal activity exchanges
        (stretch rules world activity).2.signal rest ∧
      (∀ loops, Moves conclude loops (stretch rules world activity).2.signal (.active rest) []
        (stretch rules world activity).2.signal later) ∧
      Parks conclude (stretch rules world activity).1 later ∧
      Charges registry world exchanges (stretch rules world activity).2 := by
  induction activity generalizing world with
  | finished result =>
      exact ⟨[], _, _, .rest _ _ _, fun _ => .conclude _ _, .finished _, rfl, rfl, rfl⟩
  | perform request next hypothesis =>
      have suits := react_suits registry rules world request
      unfold stretch
      split
      · next answer after reacts =>
          rw [reacts] at suits
          obtain ⟨responds, charges⟩ := suits
          obtain ⟨exchanges, rest, later, strides, moves, parks, more⟩ :=
            hypothesis answer after
          have started : after.loops =
              world.loops + (startedBy registry ⟨request, answer⟩).length := by
            simpa using charges.loops
          rw [started] at strides
          exact ⟨_, rest, later, .answer responds strides, moves, parks, charges.append more⟩
      · next wait after deliver reacts =>
          rw [reacts] at suits
          obtain ⟨same, charges, halts⟩ := suits
          obtain ⟨standing, moves, rests, fits⟩ := halts next
          dsimp only
          rw [same]
          exact ⟨[], _, standing, .rest _ _ _, fun _ => moves _ _, .suspended rests fits, charges⟩
      · next time chunk elapsed seconds deliver reacts =>
          rw [reacts] at suits
          obtain ⟨standing, moves, rests, fits⟩ := suits next
          exact ⟨[], _, standing, .rest _ _ _, fun _ => moves _ _, .suspended rests fits,
            rfl, rfl, rfl⟩

end World

/-! ### Turns -/

section Turns

variable {ρ : Type} {registry : Registry} {rules : Rules} {world : World} {scene : Scene ρ}
  {task : TaskId} {standing : Standing (task.Result ρ)}

/-- The results with which the waits of a task for the loops may end.  The machine tells no loop of
the end of the others. -/
def Scene.ends (scene : Scene ρ) : TaskId → Bool → Except Interruption Unit → Prop
  | .walk, tolerant, result => JoinEnds tolerant scene.loops result
  | .loop _, _, result => result = .error .revoked

variable {result : Except Interruption Unit}

theorem joinEnds_of_ends {tolerant : Bool} (ends : scene.ends task tolerant result) :
    JoinEnds tolerant scene.loops result := by
  cases task with
  | walk => exact ends
  | loop number =>
      obtain rfl : result = .error .revoked := ends
      exact .inl rfl

/-- `IsTurn registry scene task world (stop, after)`: a task can take a turn that ends in that stop,
while the world becomes `after`.  A loop of a sound run starts no loops. -/
def IsTurn (registry : Registry) (scene : Scene ρ) (task : TaskId) (world : World)
    (turn : Stop (task.Result ρ) × World) : Prop :=
  ∃ exchanges later,
    Steps registry scene (scene.after registry exchanges turn.2.signal task later) ∧
      Parks (conclude registry task) turn.1 later ∧ Charges registry world exchanges turn.2 ∧
      (scene.Sound → task ≠ .walk → exchanges.flatMap (startedBy registry) = [])

variable {activity : RunActivity (task.Result ρ)}

/-- A task that is at work after its first move goes on to the end of a stretch. -/
theorem stretch_isTurn {first : List RunExchange} (found : scene.standing? task = some standing)
    (spares : scene.Spares task) (signal : world.signal = scene.signal)
    (count : world.loops = scene.loops.length)
    (moves : Moves (conclude registry task) scene.loops scene.signal standing first scene.signal
      (.active activity)) (idle : Charges registry world first world) :
    IsTurn registry scene task world (stretch rules world activity) := by
  have none : first.flatMap (startedBy registry) = [] := by
    have same := idle.loops
    exact List.length_eq_zero_iff.mp (by omega)
  obtain ⟨exchanges, rest, later, strides, stops, parks, charges⟩ :=
    stretch_strides registry rules world activity (conclude registry task)
  refine ⟨first ++ exchanges, later, ?_, parks, idle.append charges, fun sound isLoop => ?_⟩
  · have begins : Steps registry scene
        (scene.after registry first world.signal task (.active activity)) := by
      rw [signal]
      exact .single (.move found spares moves)
    have goesOn := strides.steps found spares (by simp [none, count]) begins
    simpa using goesOn.move found spares (stops _)
  · cases task with
    | walk => exact absurd rfl isLoop
    | loop number =>
        have active := moves.sound (sound.loops _ (List.mem_of_getElem? found)) loopOver_forgives
          ofLoop_sound
        obtain ⟨known, holds, keeps⟩ := active
        rw [List.flatMap_append, none, strides.quiet (signal ▸ holds) keeps]
        rfl

/-- Whatever a task waits for, it can learn that it was called off. -/
theorem Rests.accepts_revoked {α : Type} {resumption : Resumption α} {standing : Standing α}
    (rests : Rests resumption standing) {ends : Bool → Except Interruption Unit → Prop}
    (revokes : ∀ tolerant, ends tolerant (.error .revoked)) :
    Accepts ends (.error .revoked) standing := by
  cases rests with
  | block next => exact rfl
  | join tolerant next => exact revokes tolerant
  | _ => exact .inr rfl

/-- A move without an exchange after which the task waits again or has ended. -/
theorem move_isTurn {stop : Stop (task.Result ρ)} {later : Standing (task.Result ρ)}
    (found : scene.standing? task = some standing) (spares : scene.Spares task)
    (signal : world.signal = scene.signal)
    (moves : Moves (conclude registry task) scene.loops scene.signal standing [] scene.signal later)
    (parks : Parks (conclude registry task) stop later) :
    IsTurn registry scene task world (stop, world) := by
  refine ⟨[], later, ?_, parks, ⟨rfl, rfl, rfl⟩, fun _ _ => rfl⟩
  rw [signal]
  exact .single (.move found spares moves)

/-- A task that is called off before its turn begins has ended. -/
theorem revoked_isTurn (found : scene.standing? task = some (.ready activity))
    (spares : scene.Spares task) (signal : world.signal = scene.signal) :
    IsTurn registry scene task world (.finished (.error .revoked), world) := by
  apply move_isTurn found spares signal (.revoke _ _)
  cases task with
  | walk => exact .finished _
  | loop number => exact .finished _

theorem napStep_pause (signal : Bool) :
    napStep signal Action.napChunk Action.napChunk Action.napChunk = .over signal := by
  have elapsed : ¬ Action.napChunk < Action.napChunk := by
    rw [lt_iff_unpack, napChunk_unpack]
    decide
  simp [napStep, elapsed]

/-- What the machine has a task do in one go is a turn of that task. -/
theorem resume_isTurn {resumption : Resumption (task.Result ρ)} (rules : Rules)
    (found : scene.standing? task = some standing) (spares : scene.Spares task)
    (signal : world.signal = scene.signal) (count : world.loops = scene.loops.length)
    (rests : Rests resumption standing) (accepts : Accepts (scene.ends task) result standing) :
    IsTurn registry scene task world (resumption.resume rules world result) := by
  cases rests with
  | begin activity =>
      rcases accepts with rfl | rfl
      · exact stretch_isTurn found spares signal count (.begin _ _) ⟨rfl, rfl, rfl⟩
      · exact revoked_isTurn found spares signal
  | pause activity =>
      rcases accepts with rfl | rfl
      · simp only [Resumption.resume, napStep_pause]
        exact stretch_isTurn found spares signal count (.begin _ _) ⟨rfl, rfl, rfl⟩
      · exact revoked_isTurn found spares signal
  | pass next => exact stretch_isTurn found spares signal count (.resume accepts) ⟨rfl, rfl, rfl⟩
  | sleep seconds next =>
      exact stretch_isTurn found spares signal count (.resume accepts) ⟨rfl, rfl, rfl⟩
  | block next => exact stretch_isTurn found spares signal count (.resume accepts) ⟨rfl, rfl, rfl⟩
  | handover next => exact stretch_isTurn found spares signal count (.resume accepts) ⟨rfl, rfl, rfl⟩
  | join tolerant next =>
      exact stretch_isTurn found spares signal count (.resume (joinEnds_of_ends accepts))
        ⟨rfl, rfl, rfl⟩
  | nap chunk elapsed seconds next =>
      rcases accepts with rfl | rfl
      · rw [Resumption.resume]
        split
        · next wakes =>
            rw [signal] at wakes
            exact stretch_isTurn found spares signal count (.wake wakes) ⟨rfl, rfl, rfl⟩
        · next sleeps =>
            rw [signal] at sleeps
            exact move_isTurn found spares signal (.sleepOn sleeps)
              (.suspended (.nap _ _ _ _) fun _ => .inl rfl)
      · exact stretch_isTurn found spares signal count (.startle _ _ _ _ _) ⟨rfl, rfl, rfl⟩

end Turns

end Interleaving

end InputScript
