/-
Module: InputScript.Proofs.Workers
Purpose: Runs whose workers take their time.  While a worker carries out an action, the other tasks go
  on, and its own task may be called off: then the worker goes on without it.  Of rules that each task
  keeps by itself, one induction over the steps of such runs says what comes of them in the history.
Main exports: workerPart, OnWorker, Party, Steps, Steps.staged
-/
import InputScript.Proofs.Regime
import Mathlib.Algebra.GroupWithZero.Nat

namespace InputScript.Interleaving

open Catalog Run Rehearsal Script Reporting

/-! ### Workers -/

/-- What a worker still does of an action, up to where its task takes over the result. -/
def workerPart {α : Type} : RunActivity α → RunActivity Unit
  | .perform (.action request) next =>
    .perform (.action request) fun answer => workerPart (next answer)
  | _ => .finished (.ok ())

/-- `OnWorker rest activity`: the activity has an action on a worker, and `rest` is how it goes on if
it is called off before it takes over the result. -/
inductive OnWorker {α : Type} (rest : RunActivity α) : RunActivity α → Prop where
  | handover {next : Except Interruption Unit → RunActivity α}
      (revoked : next (.error .revoked) = rest) : OnWorker rest (.perform .handover next)
  | works {request : ActionRequest} {next : request.Answer → RunActivity α}
      (stays : suspends request = false) (goesOn : ∀ answer, OnWorker rest (next answer)) :
      OnWorker rest (.perform (.action request) next)

section OnWorker

variable {α β : Type} {activity rest : RunActivity α}

theorem OnWorker.bind (works : OnWorker rest activity) (next : α → RunActivity β) :
    OnWorker (rest.bind next) (activity.bind next) := by
  induction works with
  | handover revoked => exact .handover (congrArg (·.bind next) revoked)
  | works stays goesOn hypothesis => exact .works stays hypothesis

theorem OnWorker.attempt (works : OnWorker rest activity) :
    OnWorker rest.attempt activity.attempt := by
  induction works with
  | handover revoked => exact .handover (congrArg Activity.attempt revoked)
  | works stays goesOn hypothesis => exact .works stays hypothesis

/-- An action that is handed over is on its worker, and its task can be called off there. -/
theorem handedOver_onWorker (action : ActionActivity α) :
    OnWorker (.finished (.error .revoked)) (handedOver action) := by
  induction action with
  | finished result => exact .handover rfl
  | perform request next hypothesis =>
      rw [handedOver]
      split
      · exact .handover rfl
      next stays => exact .works (Bool.eq_false_iff.mpr stays) hypothesis

end OnWorker

/-! ### Runs -/

/-- A task, or a worker that its task has left behind, with the exchanges that it has had. -/
structure Party (α : Type) where
  standing : Standing α
  strand : List RunExchange

/-- The state of a run with its workers: those that have been left behind, each with the task that it
worked for. -/
structure Stage (ρ : Type) where
  signal : Bool
  history : List (TaskId × RunExchange)
  walk : Party ρ
  loops : List (Party LoopStep)
  workers : List (TaskId × Party Unit)

/-- How a task can go on: it moves, or it is called off and leaves its worker behind.  Then what they
have exchanged stays with the worker. -/
inductive Goes {α : Type} (conclude : Except Interruption α → Standing α)
    (loops : List (Standing LoopStep)) (before : Bool) :
    Party α → List RunExchange → Bool → Party α → List (Party Unit) → Prop where
  | moves {party : Party α} {exchanges : List RunExchange} {after : Bool} {later : Standing α}
      (moves : Moves conclude loops before party.standing exchanges after later) :
      Goes conclude loops before party exchanges after ⟨later, party.strand ++ exchanges⟩ []
  | leaves {activity rest : RunActivity α} {strand : List RunExchange}
      (works : OnWorker rest activity) :
      Goes conclude loops before ⟨.active activity, strand⟩ [⟨.handover, .error .revoked⟩] before
        ⟨.active rest, [⟨.handover, .error .revoked⟩]⟩ [⟨.active (workerPart activity), strand⟩]

namespace Stage

variable {ρ : Type}

/-- A run that has not begun. -/
def start (signal : Bool) (walk : RunActivity ρ) : Stage ρ :=
  ⟨signal, [], ⟨.ready walk, []⟩, [], []⟩

/-- Whether no task is at work and all workers have finished. -/
def IsQuiet (stage : Stage ρ) : Prop :=
  ¬ stage.walk.standing.IsActive ∧ (∀ loop ∈ stage.loops, ¬ loop.standing.IsActive) ∧
    ∀ worker ∈ stage.workers, ¬ worker.2.standing.IsActive

/-- The run without the workers that have been left behind. -/
def scene (stage : Stage ρ) : Scene ρ :=
  ⟨stage.signal, stage.history, stage.walk.standing, stage.loops.map (·.standing)⟩

/-- One step of a run: the signal is set, or a task or a worker goes on, whatever the others do. -/
inductive Step (registry : Registry) : Stage ρ → Stage ρ → Prop where
  | stop (stage : Stage ρ) : Step registry stage { stage with signal := true }
  | walk {stage : Stage ρ} {exchanges : List RunExchange} {after : Bool} {later : Party ρ}
      {left : List (Party Unit)}
      (goes : Goes .ended stage.scene.loops stage.signal stage.walk exchanges after later left) :
      Step registry stage
        { signal := after
          history := stage.history ++ exchanges.map (.walk, ·)
          walk := later
          loops := stage.loops ++ (exchanges.flatMap (startedBy registry)).map (⟨·, []⟩)
          workers := stage.workers ++ left.map (.walk, ·) }
  | loop {stage : Stage ρ} {number : Nat} {loop later : Party LoopStep} {after : Bool}
      {exchanges : List RunExchange} {left : List (Party Unit)}
      (found : stage.loops[number]? = some loop)
      (goes : Goes (Standing.ofLoop registry) stage.scene.loops stage.signal loop exchanges after later
        left) :
      Step registry stage
        { signal := after
          history := stage.history ++ exchanges.map fun exchange => (.loop number, exchange)
          walk := stage.walk
          loops := stage.loops.set number later ++
            (exchanges.flatMap (startedBy registry)).map (⟨·, []⟩)
          workers := stage.workers ++ left.map fun worker => (.loop number, worker) }
  | worker {stage : Stage ρ} {place : Nat} {task : TaskId} {worker : Party Unit} {after : Bool}
      {exchanges : List RunExchange} {later : Standing Unit}
      (found : stage.workers[place]? = some (task, worker))
      (moves : Moves .ended [] stage.signal worker.standing exchanges after later) :
      Step registry stage
        { stage with
          signal := after
          history := stage.history ++ exchanges.map (task, ·)
          workers := stage.workers.set place (task, ⟨later, worker.strand ++ exchanges⟩) }

/-- Any number of steps of a run. -/
abbrev Steps (registry : Registry) : Stage ρ → Stage ρ → Prop :=
  Relation.ReflTransGen (Step registry)

end Stage

section Staged

variable {ρ : Type} {registry : Registry} {scene later : Scene ρ}

/-- Workers may also be done in one turn. -/
theorem Step.staged (step : Step registry scene later) {stage : Stage ρ}
    (shows : stage.scene = scene) :
    ∃ next, Stage.Step registry stage next ∧ next.scene = later ∧ next.workers = stage.workers := by
  subst shows
  cases step with
  | stop idle => exact ⟨_, .stop stage, rfl, rfl⟩
  | walk alone moves =>
      exact ⟨_, .walk (.moves moves), by simp [Stage.scene, Function.comp_def], List.append_nil _⟩
  | loop found alone moves =>
      obtain ⟨loop, isLoop, rfl⟩ := Option.map_eq_some_iff.mp ((List.getElem?_map ..).symm.trans found)
      exact ⟨_, .loop isLoop (.moves moves),
        by simp [Stage.scene, Function.comp_def, List.map_set], List.append_nil _⟩

/-- Every run whose workers are done in one turn is a run whose workers take their time. -/
theorem Steps.staged {signal : Bool} {start : RunActivity ρ}
    (steps : Steps registry (Scene.start signal start) scene) :
    ∃ stage, Stage.Steps registry (Stage.start signal start) stage ∧ stage.scene = scene ∧
      stage.workers = [] := by
  induction steps with
  | refl => exact ⟨_, .refl, rfl, rfl⟩
  | tail earlier step hypothesis =>
      obtain ⟨stage, steps, shows, none⟩ := hypothesis
      obtain ⟨next, step, shows, same⟩ := step.staged shows
      exact ⟨next, steps.tail step, shows, same.trans none⟩

end Staged

section Alone

variable {ρ : Type} {registry : Registry} {first : Stage ρ} {signal : Bool}
  {history : List (TaskId × RunExchange)} {workers : List (TaskId × Party Unit)}
  {exchanges : List RunExchange}

/-- A walk without loops goes on. -/
theorem Stage.Steps.walked {walk later : Party ρ} {after : Bool} {left : List (Party Unit)}
    (steps : Stage.Steps registry first ⟨signal, history, walk, [], workers⟩)
    (goes : Goes .ended [] signal walk exchanges after later left)
    (quiet : exchanges.flatMap (startedBy registry) = []) :
    Stage.Steps registry first
      ⟨after, history ++ exchanges.map (.walk, ·), later, [],
        workers ++ left.map (.walk, ·)⟩ := by
  have step := steps.tail (.walk goes)
  simpa [quiet] using step

/-- The only worker goes on. -/
theorem Stage.Step.only {stage : Stage ρ} {task : TaskId} {worker : Party Unit} {after : Bool}
    {later : Standing Unit} (only : stage.workers = [(task, worker)])
    (moves : Moves .ended [] stage.signal worker.standing exchanges after later) :
    Stage.Step registry stage
      ⟨after, stage.history ++ exchanges.map (task, ·), stage.walk,
        stage.loops, [(task, ⟨later, worker.strand ++ exchanges⟩)]⟩ := by
  have found : stage.workers[0]? = some (task, worker) := by rw [only]; rfl
  simpa [only] using Stage.Step.worker found moves

end Alone

/-! ### Rules -/

section Rules

variable {σ ρ α : Type} {regime : Regime σ} {registry : Registry} {program : Program} {task : TaskId}
  {post : σ → Except Interruption α → Prop}

/-- The state that the exchanges of a task or worker have led to. -/
def Regime.own (regime : Regime σ) (strand : List RunExchange) : σ :=
  regime.advance regime.calm strand

theorem Regime.own_append (strand more : List RunExchange) :
    regime.own (strand ++ more) = regime.advance (regime.own strand) more :=
  List.foldl_append ..

/-- Whether a task or worker keeps the rules from where it stands, and is calm unless at work. -/
structure Party.Keeps (regime : Regime σ) (task : TaskId) (post : σ → Except Interruption α → Prop)
    (party : Party α) : Prop where
  standing : party.standing.Keeps regime task post (regime.own party.strand)
  rests : ¬ party.standing.IsActive → regime.own party.strand = regime.calm

/-- Whether all tasks and workers of a run keep the rules. -/
structure Stage.Keeps (regime : Regime σ) (registry : Registry) (program : Program)
    (stage : Stage ρ) : Prop where
  walk : stage.walk.Keeps regime .walk (fun state _ => state = regime.calm)
  loops : ∀ (number : Nat) (loop : Party LoopStep), stage.loops[number]? = some loop →
    loop.Keeps regime (.loop number) (regime.LoopRests registry program number)
  workers : ∀ worker ∈ stage.workers,
    worker.2.Keeps regime worker.1 (fun state _ => state = regime.calm)

/-- A task that leaves its worker behind goes on calm, and the worker goes on keeping the rules. -/
theorem OnWorker.keeps {activity rest : RunActivity α} {state : σ} (works : OnWorker rest activity)
    (suits : regime.Suits registry program)
    (keeps : activity.Keeps (regime.discipline task) post state) :
    regime.Settles task post rest ∧ regime.admits task regime.calm .handover ∧
      (workerPart activity).Keeps (regime.discipline task) (fun state _ => state = regime.calm)
        state := by
  induction works generalizing state with
  | handover revoked =>
      obtain rfl := suits.yields task state .handover trivial keeps.1
      have goesOn := keeps.2 (.error .revoked) suits.left.1
      have calm : (regime.discipline task).after regime.calm .handover _ = _ := suits.left.2
      rw [revoked, calm] at goesOn
      exact ⟨goesOn, keeps.1, rfl⟩
  | works stays goesOn hypothesis =>
      have next := fun answer expected => hypothesis answer (keeps.2 answer expected)
      obtain ⟨goesOn, admitted, -⟩ := next _ (suits.answered state _)
      exact ⟨goesOn, admitted, keeps.1, fun answer expected => (next answer expected).2.2⟩

/-- What a step does to a sum over the exchanges of each task and worker: with at most one exchange, in
order for the one that has it. -/
inductive Shift (regime : Regime σ) (task : TaskId) (weigh : List RunExchange → Nat) :
    List RunExchange → Nat → Nat → Prop where
  | rest (sum : Nat) : Shift regime task weigh [] sum sum
  | exchange {strand : List RunExchange} {exchange : RunExchange}
      (admitted : regime.admits task (regime.own strand) exchange.request) (others : Nat) :
      Shift regime task weigh [exchange] (others + weigh strand)
        (others + weigh (strand ++ [exchange]))

variable {weigh : List RunExchange → Nat} {exchanges : List RunExchange}

theorem Shift.add {before after : Nat} (shift : Shift regime task weigh exchanges before after)
    (more : Nat) :
    Shift regime task weigh exchanges (more + before) (more + after) := by
  cases shift with
  | rest => exact .rest _
  | exchange admitted others =>
      rw [← Nat.add_assoc, ← Nat.add_assoc]
      exact .exchange admitted _

variable {conclude : Except Interruption α → Standing α} {loops : List (Standing LoopStep)}

/-- What a task does that keeps the rules. -/
theorem Goes.keeps {before after : Bool} {party later : Party α} {left : List (Party Unit)}
    (goes : Goes conclude loops before party exchanges after later left)
    (suits : regime.Suits registry program) (keeps : party.Keeps regime task post)
    (expected : ∀ exchange ∈ exchanges, ∀ state,
      regime.expects state exchange.request exchange.answer)
    (ends : ∀ state result, post state result →
      state = regime.calm ∧ (conclude result).Keeps regime task post state) :
    later.Keeps regime task post ∧
      (∀ worker ∈ left, worker.Keeps regime task fun state _ => state = regime.calm) ∧
      (∀ exchange ∈ exchanges, ∃ state, regime.admits task state exchange.request) ∧
      ∀ weigh, weigh [] = 0 → Shift regime task weigh exchanges (weigh party.strand)
        ((left.map (weigh ·.strand)).sum + weigh later.strand) := by
  cases goes with
  | moves moves =>
      obtain ⟨stands, admitted, rests⟩ := moves.keeps suits keeps.standing keeps.rests
        (fun exchange member => expected exchange member _) (ends _)
      rw [← Regime.own_append] at stands rests
      refine ⟨⟨stands, rests⟩, List.forall_mem_nil _,
        fun exchange member => ⟨_, admitted exchange member⟩, fun weigh _ => ?_⟩
      rw [List.map_nil, List.sum_nil, Nat.zero_add]
      rcases moves.exchanges_cases with rfl | ⟨exchange, rfl⟩
      · rw [List.append_nil]
        exact .rest _
      · have shift : Shift regime task weigh [exchange] (0 + _) (0 + _) :=
          .exchange (admitted exchange List.mem_cons_self) 0
        rwa [Nat.zero_add, Nat.zero_add] at shift
  | @leaves activity rest strand works =>
      obtain ⟨goesOn, admitted, worker⟩ := works.keeps suits keeps.standing
      refine ⟨⟨?_, absurd trivial⟩, ?_, ?_, fun weigh nothing => ?_⟩
      · have calm : regime.own [⟨.handover, .error .revoked⟩] = regime.calm := suits.left.2
        exact calm.symm ▸ goesOn
      · exact List.forall_mem_singleton.mpr ⟨worker, absurd trivial⟩
      · exact List.forall_mem_singleton.mpr ⟨_, admitted⟩
      · have shift : Shift regime task weigh [⟨.handover, .error .revoked⟩] (_ + weigh []) _ :=
          .exchange admitted (weigh strand)
        rw [nothing] at shift
        exact shift

theorem getElem?_append_cases {β : Type} {old new : List β} {place : Nat} {value : β}
    (found : (old ++ new)[place]? = some value) : old[place]? = some value ∨ value ∈ new := by
  rw [List.getElem?_append] at found
  split at found
  · exact .inl found
  · exact .inr (List.mem_of_getElem? found)

/-- The sum over the exchanges of each task and worker. -/
def Stage.total (weigh : List RunExchange → Nat) (stage : Stage ρ) : Nat :=
  weigh stage.walk.strand + (stage.loops.map (weigh ·.strand)).sum +
    (stage.workers.map (weigh ·.2.strand)).sum

theorem sum_set {β : Type} {list : List β} {place : Nat} {value : β}
    (found : list[place]? = some value) (weigh : β → Nat) : ∃ others,
      (list.map weigh).sum = others + weigh value ∧
        ∀ later, ((list.set place later).map weigh).sum = others + weigh later := by
  induction list generalizing place with
  | nil => cases found
  | cons head tail hypothesis =>
      cases place with
      | zero =>
          cases found
          exact ⟨(tail.map weigh).sum, Nat.add_comm .., fun later => Nat.add_comm ..⟩
      | succ place =>
          obtain ⟨others, before, after⟩ := hypothesis found
          refine ⟨weigh head + others, ?_, fun later => ?_⟩
          · rw [List.map_cons, List.sum_cons, before, Nat.add_assoc]
          · rw [List.set_cons_succ, List.map_cons, List.sum_cons, after, Nat.add_assoc]

/-- Loops that are started in order keep the rules. -/
theorem started_keeps (suits : regime.Suits registry program)
    (admitted : ∀ exchange ∈ exchanges, ∃ state, regime.admits task state exchange.request)
    {loop : Party LoopStep}
    (started : loop ∈ (exchanges.flatMap (startedBy registry)).map (⟨·, []⟩)) (number : Nat) :
    loop.Keeps regime (.loop number) (regime.LoopRests registry program number) := by
  obtain ⟨standing, member, rfl⟩ := List.mem_map.mp started
  obtain ⟨exchange, exchanged, starts⟩ := List.mem_flatMap.mp member
  obtain ⟨state, inOrder⟩ := admitted exchange exchanged
  exact ⟨startedBy_keeps suits inOrder starts number, fun _ => rfl⟩

theorem sum_started (nothing : weigh [] = 0) (started : List (Standing LoopStep)) :
    (started.map fun _ => weigh []).sum = 0 := by
  simp [nothing]

/-- What a step of a run does whose tasks and workers keep the rules. -/
theorem Stage.Step.keeps {stage later : Stage ρ} (step : Stage.Step registry stage later)
    (suits : regime.Suits registry program) (keeps : stage.Keeps regime registry program)
    (expected : ∀ entry ∈ later.history, ∀ state,
      regime.expects state entry.2.request entry.2.answer) :
    later.Keeps regime registry program ∧ ∃ task exchanges,
      later.history = stage.history ++ exchanges.map (task, ·) ∧
      ∀ weigh, weigh [] = 0 →
        Shift regime task weigh exchanges (stage.total weigh) (later.total weigh) := by
  cases step with
  | stop =>
      exact ⟨⟨keeps.walk, keeps.loops, keeps.workers⟩, .walk, [], (List.append_nil _).symm,
        fun weigh _ => .rest _⟩
  | @walk exchanges after later left goes =>
      obtain ⟨goesOn, workers, admitted, shift⟩ := goes.keeps suits keeps.walk
        (fun exchange member => expected (.walk, exchange) (by simp [member]))
        (fun _ _ calm => ⟨calm, trivial⟩)
      refine ⟨⟨goesOn, fun number loop found => ?_, ?_⟩, .walk, exchanges, rfl,
        fun weigh nothing => ?_⟩
      · exact (getElem?_append_cases found).elim (keeps.loops number loop)
          fun new => started_keeps suits admitted new number
      · exact List.forall_mem_append.mpr ⟨keeps.workers, List.forall_mem_map.mpr workers⟩
      · have sum := (shift weigh nothing).add
          ((stage.loops.map (weigh ·.strand)).sum + (stage.workers.map (weigh ·.2.strand)).sum)
        simp only [total, List.map_append, List.sum_append, List.map_map, Function.comp_def,
          sum_started nothing]
        convert sum using 1 <;> omega
  | @loop number loop later after exchanges left found goes =>
      obtain ⟨goesOn, workers, admitted, shift⟩ := goes.keeps suits (keeps.loops number loop found)
        (fun exchange member => expected (.loop number, exchange) (by simp [member]))
        (fun _ _ => ofLoop_keeps suits)
      refine ⟨⟨keeps.walk, fun other party stands => ?_, ?_⟩, .loop number, exchanges, rfl,
        fun weigh nothing => ?_⟩
      · rcases getElem?_append_cases stands with old | new
        · by_cases same : number = other
          · subst same
            rw [List.getElem?_set_self (List.getElem?_eq_some_iff.mp found).1] at old
            cases old
            exact goesOn
          · rw [List.getElem?_set_ne same] at old
            exact keeps.loops other party old
        · exact started_keeps suits admitted new other
      · exact List.forall_mem_append.mpr ⟨keeps.workers, List.forall_mem_map.mpr workers⟩
      · obtain ⟨others, before, after⟩ := sum_set found (weigh ·.strand)
        have sum := (shift weigh nothing).add
          (weigh stage.walk.strand + others + (stage.workers.map (weigh ·.2.strand)).sum)
        simp only [total, List.map_append, List.sum_append, List.map_map, Function.comp_def,
          sum_started nothing, before, after]
        convert sum using 1 <;> omega
  | @worker place task worker after exchanges later found moves =>
      obtain ⟨goesOn, -, -, shift⟩ := (Goes.moves moves).keeps suits
        (keeps.workers _ (List.mem_of_getElem? found))
        (fun exchange member => expected (task, exchange) (by simp [member]))
        (fun _ _ calm => ⟨calm, trivial⟩)
      refine ⟨⟨keeps.walk, keeps.loops, fun other member => ?_⟩, task, exchanges, rfl,
        fun weigh nothing => ?_⟩
      · rcases List.mem_or_eq_of_mem_set member with old | rfl
        · exact keeps.workers other old
        · exact goesOn
      · obtain ⟨others, before, after⟩ := sum_set found (weigh ·.2.strand)
        have sum := (shift weigh nothing).add
          (weigh stage.walk.strand + (stage.loops.map (weigh ·.strand)).sum + others)
        simp only [total, before, after, List.map_nil, List.sum_nil] at sum ⊢
        convert sum using 1 <;> omega

/-- What comes of the rules in every run: the tasks and workers keep them, and what one exchange in
order preserves, of the history and of a sum over the exchanges of each of them, holds throughout. -/
theorem Stage.Steps.tallies {signal : Bool} {stage : Stage RunState}
    {Balances : List (TaskId × RunExchange) → Nat → Prop}
    (steps : Stage.Steps registry (Stage.start signal (execute registry program)) stage)
    (suits : regime.Suits registry program)
    (expected : ∀ entry ∈ stage.history, ∀ state,
      regime.expects state entry.2.request entry.2.answer) (nothing : weigh [] = 0)
    (start : Balances [] 0)
    (exchanged : ∀ history task exchange strand others,
      regime.admits task (regime.own strand) exchange.request →
      Balances history (others + weigh strand) →
      Balances (history ++ [(task, exchange)]) (others + weigh (strand ++ [exchange]))) :
    stage.Keeps regime registry program ∧ Balances stage.history (stage.total weigh) := by
  induction steps with
  | refl =>
      refine ⟨⟨⟨Regime.execute_calm suits, fun _ => rfl⟩, nofun, nofun⟩, ?_⟩
      have none : (Stage.start signal (execute registry program)).total weigh = 0 := by
        simp [Stage.start, Stage.total, nothing]
      rwa [none]
  | @tail middle final earlier step hypothesis =>
      have grows : ∀ entry ∈ middle.history, entry ∈ final.history := by
        cases step <;> simp_all
      obtain ⟨keeps, balances⟩ := hypothesis fun entry member =>
        expected entry (grows entry member)
      obtain ⟨keeps, task, exchanges, history, shift⟩ := step.keeps suits keeps expected
      refine ⟨keeps, ?_⟩
      rw [history]
      have shift := shift weigh nothing
      generalize middle.total weigh = before at shift balances
      generalize final.total weigh = after at shift
      cases shift with
      | rest =>
          rw [List.map_nil, List.append_nil]
          exact balances
      | exchange admitted others => exact exchanged _ _ _ _ _ admitted balances

/-- A sum over calm tasks and workers. -/
theorem Stage.Keeps.total_eq_zero {stage : Stage ρ} (keeps : stage.Keeps regime registry program)
    (quiet : stage.IsQuiet) (calm : ∀ strand, regime.own strand = regime.calm → weigh strand = 0) :
    stage.total weigh = 0 := by
  have loops : ∀ loop ∈ stage.loops, weigh loop.strand = 0 := by
    intro loop member
    obtain ⟨number, found⟩ := List.mem_iff_getElem?.mp member
    exact calm _ ((keeps.loops number loop found).rests (quiet.2.1 loop member))
  have workers : ∀ worker ∈ stage.workers, weigh worker.2.strand = 0 := fun worker member =>
    calm _ ((keeps.workers worker member).rests (quiet.2.2 worker member))
  simp [Stage.total, calm _ (keeps.walk.rests quiet.1), List.map_congr_left loops,
    List.map_congr_left workers]

end Rules

end InputScript.Interleaving
