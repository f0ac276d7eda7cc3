/-
Module: InputScript.Proofs.Regime
Purpose: Rules for the tasks of a run.  Each task has a state of what it has done so far, which is calm
  whenever the task gives way to the others.  If the actions that a program can reach keep the rules,
  so do its walk and its loops, wherever they stand.
Main exports: WithinReach, Regime, Suits, Standing.Keeps, Moves.keeps
-/
import InputScript.Proofs.Habit

namespace InputScript.Interleaving

open Catalog Run Rehearsal Script Reporting

/-! ### Names within reach -/

/-- The blocks that a task carries out: the walk those with an end of their own, a loop one of the
others. -/
def blocksOf (program : Program) : TaskId → List Block
  | .walk => program.blocks.filter fun block => !block.repetition.isUnbounded
  | .loop _ => program.blocks.filter fun block => block.repetition.isUnbounded

/-- Whether a task of a program can call a name. -/
def WithinReach (registry : Registry) (program : Program) (task : TaskId) (name : String) : Prop :=
  ∃ block ∈ blocksOf program task, name ∈ namesOf registry block.steps

theorem chooseFrom_mem {tokens : List String} {tried : List Overload} {resolution : Resolution}
    (chosen : chooseFrom tokens tried = .ok (some resolution)) : resolution.overload ∈ tried := by
  induction tried with
  | nil => cases chosen
  | cons overload rest hypothesis =>
      rw [chooseFrom] at chosen
      split at chosen
      · cases chosen
        exact List.mem_cons_self
      · exact List.mem_cons_of_mem _ (hypothesis chosen)
      · cases chosen

/-- The operation that is chosen for a name is one of that name. -/
theorem resolve_mem {registry : Registry} {name : String} {tokens : List String}
    {resolution : Resolution} (resolved : registry.resolve name tokens = .ok resolution) :
    resolution.overload ∈ registry.overloads name := by
  have candidates_mem : ∀ {count : Int} {overload : Overload},
      overload ∈ registry.candidates name count → overload ∈ registry.overloads name :=
    fun member => (List.mem_filter.mp member).1
  unfold Registry.resolve attempts at resolved
  dsimp only at resolved
  have chosen : ∀ {used : List String} {tried : List Overload},
      settle name tokens.length (chooseFrom used tried) = .ok resolution →
        resolution.overload ∈ tried := by
    intro used tried settled
    unfold settle at settled
    split at settled
    next found =>
      cases settled
      exact chooseFrom_mem found
    all_goals cases settled
  split at resolved
  · exact candidates_mem (List.mem_mergeSort.mp (chosen resolved))
  · exact candidates_mem (chosen resolved)

/-! ### Regimes -/

/-- Rules for the tasks of a run, with states of what a task has done so far: the requests of a task
that are in order in a state, the answers that can come there, and the state after an exchange.  A task
that is not at work is in the calm state. -/
structure Regime (σ : Type) where
  calm : σ
  admits : TaskId → σ → RunRequest → Prop
  expects : σ → (request : RunRequest) → request.Answer → Prop
  after : σ → (request : RunRequest) → request.Answer → σ

/-- The requests that a run makes for itself, apart from calls and the start of loops. -/
def IsRoutine : RunRequest → Prop
  | .action .isStopping | .action .stop | .action (.nap ..) => True
  | .log _ | .report _ | .join _ | .revokeLoops => True
  | _ => False

/-- An answer that a request of an action can get. -/
def usualAnswer : (request : ActionRequest) → request.Answer
  | .log _ | .stop | .rest _ => ()
  | .isStopping | .wait _ | .isVisible _ => false
  | .device _ => .ok ()
  | .pointer => (.none, .none)
  | .keyState _ => (0 : Int)
  | .clock => (0 : Nat)
  | .windows => []
  | .title _ => ""
  | .clipboard => none
  | .pass | .sleep _ | .block => .ok ()
  | .nap .. => .ok false

/-- The requests at which the other tasks may go on. -/
def GivesWay : RunRequest → Prop
  | .action .pass | .action (.sleep _) | .action (.nap ..) | .action .block => True
  | .handover | .join _ => True
  | _ => False

theorem Suspends.givesWay {request : RunRequest} (suspends : Suspends request) :
    GivesWay request := by
  unfold Suspends at suspends
  split at suspends
  case h_6 => exact suspends.elim
  all_goals trivial

namespace Regime

variable {σ α β : Type}

/-- The rules for one task. -/
def discipline (regime : Regime σ) (task : TaskId) : Discipline RunRequest.Answer σ where
  admits := regime.admits task
  expects := regime.expects
  after := regime.after

/-- An activity of a task keeps the rules from the calm state on and ends as it should. -/
def Settles (regime : Regime σ) (task : TaskId) (post : σ → Except Interruption α → Prop)
    (activity : RunActivity α) : Prop :=
  activity.Keeps (regime.discipline task) post regime.calm

/-- An activity of a task keeps the rules and leaves all calm. -/
abbrev Calm (regime : Regime σ) (task : TaskId) (activity : RunActivity α) : Prop :=
  regime.Settles task (fun state _ => state = regime.calm) activity

/-- Whether the operations of a name keep the rules when they are called. -/
def CallsCalm (regime : Regime σ) (registry : Registry) (task : TaskId) (name : String) : Prop :=
  ∀ tokens resolution, registry.resolve name tokens = .ok resolution →
    regime.Calm task (callResolved resolution)

/-- Whether the rules suit a program: they leave alone what a run does for itself, a task gives way
only when all is calm, the loops that may be started are those of the program, all operations within
reach keep the rules, and a task may be called off while a worker does its part. -/
structure Suits (regime : Regime σ) (registry : Registry) (program : Program) : Prop where
  routine : ∀ task request, IsRoutine request → regime.admits task regime.calm request
  unmoved : ∀ request answer, IsRoutine request →
    regime.after regime.calm request answer = regime.calm
  yields : ∀ task state request, GivesWay request → regime.admits task state request →
    state = regime.calm
  starts : ∀ index block, block ∈ blocksOf program (.loop index) →
    regime.admits .walk regime.calm (.spawn index block) ∧
      ∀ answer, regime.after regime.calm (.spawn index block) answer = regime.calm
  started : ∀ task state index block, regime.admits task state (.spawn index block) →
    block ∈ blocksOf program (.loop index)
  calls : ∀ task name, WithinReach registry program task name → regime.CallsCalm registry task name
  answered : ∀ state request, regime.expects state (.action request) (usualAnswer request)
  left : regime.expects regime.calm .handover (.error .revoked) ∧
    regime.after regime.calm .handover (.error .revoked) = regime.calm

section Rules

variable {regime : Regime σ} {registry : Registry} {program : Program} {task : TaskId}
  {post : σ → Except Interruption β → Prop}

theorem calm_finished (result : Except Interruption α) : regime.Calm task (.finished result) :=
  rfl

variable {activity : RunActivity α}

theorem settles_bind {next : α → RunActivity β} (first : regime.Calm task activity)
    (second : ∀ value, regime.Settles task post (next value))
    (forgives : ∀ interruption, post regime.calm (.error interruption)) :
    regime.Settles task post (activity.bind next) := by
  refine Activity.keeps_bind.mpr (Activity.Keeps.mono first ?_)
  rintro state (interruption | value) rfl
  · exact forgives interruption
  · exact second value

theorem calm_bind {next : α → RunActivity β} (first : regime.Calm task activity)
    (second : ∀ value, regime.Calm task (next value)) :
    regime.Calm task (activity.bind next) :=
  settles_bind first second fun _ => rfl

theorem calm_attempt (calm : regime.Calm task activity) :
    regime.Calm task activity.attempt :=
  Activity.keeps_attempt.mpr calm

/-- What a run does for itself can come first. -/
theorem routine_settles (suits : regime.Suits registry program) (request : RunRequest)
    (routine : IsRoutine request) {next : request.Answer → RunActivity β}
    (goesOn : ∀ answer, regime.Settles task post (next answer)) :
    regime.Settles task post (.perform request next) := by
  refine ⟨suits.routine task request routine, fun answer _ => ?_⟩
  have unmoved : (regime.discipline task).after regime.calm request answer = regime.calm :=
    suits.unmoved request answer routine
  rw [unmoved]
  exact goesOn answer

/-- To keep the rules is a habit. -/
def habit (suits : regime.Suits registry program) (task : TaskId) : Habit where
  Holds activity := regime.Calm task activity
  finished := calm_finished
  bind := calm_bind
  attempt := calm_attempt
  look goesOn := routine_settles suits (.action .isStopping) trivial goesOn
  log _ _ := routine_settles suits (.log _) trivial fun _ => calm_finished _
  report _ := routine_settles suits (.report _) trivial fun _ => calm_finished _

section Walk

variable (suits : regime.Suits registry program)
include suits

theorem isStopping_calm : regime.Calm task isStopping :=
  (Habit.isStopping_holds : (habit suits task).Holds isStopping)

theorem log_calm (level : Level) (message : String) : regime.Calm task (log level message) :=
  (habit suits task).log level message

/-! ### The walk -/

theorem walk_calm : regime.Calm .walk (walk registry 0 0 program.blocks) := by
  have starts : ∀ index, ∀ block ∈ program.blocks, block.repetition.isUnbounded = true →
      (habit suits .walk).Holds (spawn index block) := by
    intro index block member unbounded
    obtain ⟨admitted, unmoved⟩ := suits.starts index block (List.mem_filter.mpr ⟨member, unbounded⟩)
    exact ⟨admitted, fun answer _ => unmoved answer⟩
  have calls : ∀ block ∈ program.blocks, block.repetition.isUnbounded = false →
      ∀ name ∈ namesOf registry block.steps, (habit suits .walk).HasCalls registry name := by
    intro block member bounded name named
    have mine : block ∈ blocksOf program .walk := by simp [blocksOf, member, bounded]
    exact suits.calls .walk name ⟨block, mine, named⟩
  rw [← noteWalk_erase]
  exact calm_bind (Habit.noteWalk_holds 0 0 starts calls) fun _ => calm_finished _

theorem join_calm (tolerant : Bool) : regime.Calm task (join tolerant) :=
  routine_settles suits (.join tolerant) trivial fun _ => calm_finished _

/-- The walk of a run keeps the rules that suit the program. -/
theorem execute_calm : regime.Calm .walk (execute registry program) := by
  have walked : regime.Calm .walk (walkAndJoin registry program.blocks) := by
    refine calm_bind (walk_calm suits) fun ended => ?_
    split
    · exact calm_finished _
    · refine calm_bind (join_calm suits false) fun _ => ?_
      split <;> exact calm_finished _
  refine calm_bind (calm_attempt walked) ?_
  rintro ((fault | _) | state)
  · exact calm_finished _
  · refine calm_bind (routine_settles suits (.action .stop) trivial fun _ => calm_finished _)
      fun _ => ?_
    refine calm_bind (routine_settles suits .revokeLoops trivial fun _ => calm_finished _)
      fun _ => ?_
    exact calm_bind (join_calm suits true) fun _ => calm_finished _
  · exact calm_finished _

end Walk

end Rules

/-! ### Loops -/

section Loops

variable {regime : Regime σ} {registry : Registry} {program : Program} {number : Nat}

/-- A pass of a loop leaves all calm, and its next pass reaches no other names than the loops of the
program. -/
def LoopRests (regime : Regime σ) (registry : Registry) (program : Program) (number : Nat) (state : σ)
    (result : Except Interruption LoopStep) : Prop :=
  state = regime.calm ∧ ∀ rest next, result = .ok (.again rest next) →
    ∀ name ∈ namesOf registry next.steps, WithinReach registry program (.loop number) name

theorem loopRests_error (interruption : Interruption) :
    LoopRests regime registry program number regime.calm (.error interruption) :=
  ⟨rfl, nofun⟩

theorem loopRests_ended : LoopRests regime registry program number regime.calm (.ok .ended) :=
  ⟨rfl, nofun⟩

variable {state : LoopState}

theorem loopRests_again (rest : LoopRest)
    (within : ∀ name ∈ namesOf registry state.steps, WithinReach registry program (.loop number) name) :
    LoopRests regime registry program number regime.calm (.ok (.again rest state)) := by
  refine ⟨rfl, ?_⟩
  rintro _ _ ⟨⟩
  exact within

variable (suits : regime.Suits registry program)
include suits

theorem endLoop_settles (index passes : Nat) :
    regime.Settles (.loop number) (LoopRests regime registry program number)
      (endLoop index passes) :=
  settles_bind (log_calm suits _ _) (fun _ => loopRests_ended) loopRests_error

theorem throttle_settles
    (within : ∀ name ∈ namesOf registry state.steps, WithinReach registry program (.loop number) name) :
    regime.Settles (.loop number) (LoopRests regime registry program number) (throttle state) := by
  have look : regime.Settles (.loop number) (LoopRests regime registry program number)
      (isStopping.bind fun stopping =>
        if stopping = true then endLoop state.index state.passes
        else .finished (.ok (.again .nap { state with warned := true }))) := by
    refine settles_bind (isStopping_calm suits) ?_ loopRests_error
    rintro (_ | _)
    · exact loopRests_again .nap within
    · exact endLoop_settles suits _ _
  unfold throttle
  dsimp only
  split
  · exact settles_bind (log_calm suits _ _) (fun _ => look) loopRests_error
  · exact look

theorem turn_settles
    (within : ∀ name ∈ namesOf registry state.steps, WithinReach registry program (.loop number) name) :
    regime.Settles (.loop number) (LoopRests regime registry program number)
      (turn registry state) := by
  refine settles_bind (isStopping_calm suits) ?_ loopRests_error
  rintro (_ | _)
  · have calls : ∀ name ∈ namesOf registry state.steps,
        (habit suits (.loop number)).HasCalls registry name :=
      fun name member => suits.calls _ name (within name member)
    refine settles_bind (Habit.loopSteps_holds state false calls) ?_ loopRests_error
    rintro (_ | _)
    · exact throttle_settles suits within
    · exact loopRests_again .pass within
  · exact endLoop_settles suits _ _

/-- The loops of a program keep the rules that suit it. -/
theorem beginLoop_settles (index : Nat) {block : Block}
    (mine : block ∈ blocksOf program (.loop number)) :
    regime.Settles (.loop number) (LoopRests regime registry program number)
      (beginLoop registry index block) := by
  unfold beginLoop
  split
  · refine settles_bind (routine_settles suits (.action (.nap _ _)) trivial fun _ =>
      calm_finished _) (fun _ => loopRests_ended) loopRests_error
  · exact turn_settles suits fun name member => ⟨block, mine, member⟩

end Loops

/-- The state that exchanges of a task lead to. -/
def advance (regime : Regime σ) (state : σ) (exchanges : List RunExchange) : σ :=
  exchanges.foldl (fun state exchange => regime.after state exchange.request exchange.answer) state

end Regime

/-! ### Moves -/

section Moves

variable {σ α : Type} {regime : Regime σ} {registry : Registry} {program : Program}

/-- Whether a task keeps the rules from where it stands.  A task that is not at work goes on from the
calm state. -/
def Standing.Keeps (regime : Regime σ) (task : TaskId) (post : σ → Except Interruption α → Prop)
    (state : σ) : Standing α → Prop
  | .ready activity => regime.Settles task post activity
  | .active activity => activity.Keeps (regime.discipline task) post state
  | .waiting request next => regime.Settles task post (.perform request next)
  | .napping chunk _ seconds next =>
    regime.Settles task post (.perform (.action (.nap chunk seconds)) next)
  | .ended _ => True

variable {conclude : Except Interruption α → Standing α} {loops : List (Standing LoopStep)}
  {before after : Bool} {standing : Standing α} {exchanges : List RunExchange} {state : σ}

/-- A move of a task that keeps the rules: its request, if there is one, is in order, it goes on
keeping the rules, and all is calm if it does not stay at work. -/
theorem Moves.keeps {task : TaskId} {post : σ → Except Interruption α → Prop} {later : Standing α}
    (moves : Moves conclude loops before standing exchanges after later)
    (suits : regime.Suits registry program) (keeps : standing.Keeps regime task post state)
    (calm : ¬ standing.IsActive → state = regime.calm)
    (expected : ∀ exchange ∈ exchanges, regime.expects state exchange.request exchange.answer)
    (ends : ∀ result, post state result →
      state = regime.calm ∧ (conclude result).Keeps regime task post state) :
    later.Keeps regime task post (regime.advance state exchanges) ∧
      (∀ exchange ∈ exchanges, regime.admits task state exchange.request) ∧
      (¬ later.IsActive → regime.advance state exchanges = regime.calm) := by
  have goesOn : ∀ {request : RunRequest} {next : request.Answer → RunActivity α}
      {answer : request.Answer},
      (Activity.perform request next).Keeps (regime.discipline task) post state →
      exchanges = [⟨request, answer⟩] →
      (Standing.active (next answer)).Keeps regime task post (regime.advance state exchanges) ∧
        (∀ exchange ∈ exchanges, regime.admits task state exchange.request) ∧
        (¬ (Standing.active (next answer)).IsActive →
          regime.advance state exchanges = regime.calm) := by
    rintro request next answer ⟨admitted, continued⟩ rfl
    refine ⟨continued answer (expected _ List.mem_cons_self), ?_, fun rests => absurd trivial rests⟩
    intro exchange member
    obtain rfl := List.mem_singleton.mp member
    exact admitted
  cases moves with
  | begin activity =>
      obtain rfl := calm id
      exact ⟨keeps, List.forall_mem_nil _, fun rests => absurd trivial rests⟩
  | revoke activity => exact ⟨trivial, List.forall_mem_nil _, fun _ => calm id⟩
  | answer answers => exact goesOn keeps rfl
  | suspend suspends =>
      obtain rfl := suits.yields task state _ suspends.givesWay keeps.1
      exact ⟨keeps, List.forall_mem_nil _, fun _ => rfl⟩
  | resume resumes =>
      obtain rfl := calm id
      exact goesOn keeps rfl
  | fallAsleep sleeps =>
      obtain rfl := suits.yields task state (.action (.nap _ _)) trivial keeps.1
      exact ⟨keeps, List.forall_mem_nil _, fun _ => rfl⟩
  | sleepOn sleeps => exact ⟨keeps, List.forall_mem_nil _, fun _ => calm id⟩
  | wake wakes =>
      obtain rfl := calm id
      exact goesOn keeps rfl
  | startle =>
      obtain rfl := calm id
      exact goesOn keeps rfl
  | conclude result =>
      obtain ⟨rests, concluded⟩ := ends _ keeps
      exact ⟨concluded, List.forall_mem_nil _, fun _ => rests⟩

theorem Moves.exchanges_cases {later : Standing α}
    (moves : Moves conclude loops before standing exchanges after later) :
    exchanges = [] ∨ ∃ exchange, exchanges = [exchange] := by
  cases moves <;> simp

/-- A task that ends makes no request with its last move. -/
theorem Moves.exchanges_of_ended {result : Except Interruption α}
    (moves : Moves conclude loops before standing exchanges after (.ended result)) :
    exchanges = [] := by
  generalize isEnded : Standing.ended result = later at moves
  cases moves with
  | revoke activity => rfl
  | conclude result => rfl
  | _ => cases isEnded

theorem ofLoop_keeps (suits : regime.Suits registry program) {number : Nat}
    {result : Except Interruption LoopStep}
    (rests : regime.LoopRests registry program number state result) :
    state = regime.calm ∧ (Standing.ofLoop registry result).Keeps regime (.loop number)
      (regime.LoopRests registry program number) state := by
  refine ⟨rests.1, ?_⟩
  unfold Standing.ofLoop
  split
  · exact Regime.turn_settles suits (rests.2 _ _ rfl)
  · trivial
  · trivial

/-- A loop that is started in order keeps the rules. -/
theorem startedBy_keeps (suits : regime.Suits registry program) {task : TaskId} {other : σ}
    {exchange : RunExchange} (admitted : regime.admits task state exchange.request)
    {loop : Standing LoopStep} (started : loop ∈ startedBy registry exchange) (number : Nat) :
    loop.Keeps regime (.loop number) (regime.LoopRests registry program number) other := by
  obtain ⟨request, answer⟩ := exchange
  cases request with
  | spawn index block =>
      obtain rfl := List.mem_singleton.mp started
      exact Regime.beginLoop_settles suits index (suits.started task state index block admitted)
  | _ => cases started

end Moves

end InputScript.Interleaving
