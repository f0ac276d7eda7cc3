/-
Module: InputScript.Proofs.Traces
Purpose: The traces of the tasks of a run.  At every point of a run, the walk and each loop stand where
  their own exchanges and marks have led them, a loop through all its turns.  A discipline that the
  activities of a task keep is kept along its trace.
Main exports: Unrolls, Unrolls.keeps, Fresh, Steps.exists_loop_trace
-/
import InputScript.Proofs.Marks

namespace InputScript.Interleaving

open Catalog Run Rehearsal Script

/-! ### One task -/

section Task

variable {α : Type} {renew : α → Option (MarkedActivity α)} {start rest : MarkedActivity α}
  {trace : TaskTrace}

/-- `Unrolls renew start trace rest`: a task that began with an activity has left a trace and still
has to do the rest.  When an activity has ended, `renew` says from its value how the task goes on, if
it does. -/
inductive Unrolls (renew : α → Option (MarkedActivity α)) (start : MarkedActivity α) :
    TaskTrace → MarkedActivity α → Prop where
  | start : Unrolls renew start [] start
  | exchange {trace : TaskTrace} {request : Marked RunRequest Mark}
      {next : request.Answer Mark RunRequest.Answer → MarkedActivity α}
      (earlier : Unrolls renew start trace (.perform request next))
      (answer : request.Answer Mark RunRequest.Answer) :
      Unrolls renew start (trace ++ [⟨request, answer⟩]) (next answer)
  | again {trace : TaskTrace} {value : α} {next : MarkedActivity α}
      (earlier : Unrolls renew start trace (.finished (.ok value)))
      (renews : renew value = some next) : Unrolls renew start trace next

/-- What an activity does extends the trace of its task. -/
theorem Unrolls.leads (unrolls : Unrolls renew start trace rest) {more : TaskTrace}
    {last : MarkedActivity α} (leads : rest.Leads more last) :
    Unrolls renew start (trace ++ more) last := by
  induction leads generalizing trace with
  | rest activity => rwa [List.append_nil]
  | exchange later hypothesis =>
      rw [List.append_cons]
      exact hypothesis (unrolls.exchange _)

/-- A task leaves the marks that are due. -/
theorem Unrolls.exists_due (unrolls : Unrolls renew start trace rest) :
    ∃ (more : TaskTrace) (last : MarkedActivity α), Unrolls renew start (trace ++ more) last ∧
      last.IsDue ∧ last.unmark = rest.unmark ∧ more.exchanges = [] := by
  obtain ⟨more, last, leads, due, same, silent⟩ := rest.exists_due
  exact ⟨more, last, unrolls.leads leads, due, same, silent⟩

/-- A discipline that each activity of a task keeps, wherever the last one has ended, is kept along
the trace of the task. -/
theorem Unrolls.keeps {σ : Type} {discipline : Discipline (Marked.Answer Mark RunRequest.Answer) σ}
    {post : σ → Except Interruption α → Prop} {state : σ}
    (unrolls : Unrolls renew start trace rest) (keeps : start.Keeps discipline post state)
    (renewed : ∀ state value next, post state (.ok value) → renew value = some next →
      next.Keeps discipline post state)
    (expected : discipline.Expected state trace) :
    discipline.InOrder state trace ∧ rest.Keeps discipline post (discipline.advance state trace) := by
  induction unrolls with
  | start => exact ⟨trivial, keeps⟩
  | exchange earlier answer hypothesis =>
      obtain ⟨before, now, -⟩ := Discipline.expected_append.mp expected
      obtain ⟨inOrder, admitted, goesOn⟩ := hypothesis before
      refine ⟨Discipline.inOrder_append.mpr ⟨inOrder, admitted, trivial⟩, ?_⟩
      rw [Discipline.advance_append]
      exact goesOn answer now
  | again earlier renews hypothesis =>
      obtain ⟨inOrder, ended⟩ := hypothesis expected
      exact ⟨inOrder, renewed _ _ _ ended renews⟩

/-- `Fresh renew start trace activity`: a task with this trace is about to begin with an activity. -/
inductive Fresh (renew : α → Option (MarkedActivity α)) (start : MarkedActivity α) :
    TaskTrace → MarkedActivity α → Prop where
  | start : Fresh renew start [] start
  | again {trace : TaskTrace} {value : α} {next : MarkedActivity α}
      (earlier : Unrolls renew start trace (.finished (.ok value)))
      (renews : renew value = some next) : Fresh renew start trace next

theorem Fresh.unrolls (fresh : Fresh renew start trace rest) : Unrolls renew start trace rest := by
  cases fresh with
  | start => exact .start
  | again earlier renews => exact .again earlier renews

/-- Whether a task with this trace stands here.  Marks are left as soon as they are due, and none
before the task begins; it may be called off where it is about to begin. -/
def Standing.Stands (renew : α → Option (MarkedActivity α)) (start : MarkedActivity α)
    (trace : TaskTrace) : Standing α → Prop
  | .ready activity => ∃ fresh, Fresh renew start trace fresh ∧ fresh.unmark = activity
  | .active activity => ∃ rest, Unrolls renew start trace rest ∧ rest.IsDue ∧ rest.unmark = activity
  | .waiting request next =>
    ∃ rest, Unrolls renew start trace rest ∧ rest.IsDue ∧ rest.unmark = .perform request next
  | .napping chunk _ seconds next =>
    ∃ rest, Unrolls renew start trace rest ∧ rest.IsDue ∧
      rest.unmark = .perform (.action (.nap chunk seconds)) next
  | .ended result =>
    Unrolls renew start trace (.finished result) ∨
      (result = .error .revoked ∧ ∃ fresh, Fresh renew start trace fresh)

theorem Standing.Stands.unrolls {standing : Standing α} (stands : standing.Stands renew start trace) :
    ∃ rest, Unrolls renew start trace rest := by
  match standing, stands with
  | .ready _, ⟨_, fresh, _⟩ => exact ⟨_, fresh.unrolls⟩
  | .active _, ⟨_, unrolls, _⟩ => exact ⟨_, unrolls⟩
  | .waiting _ _, ⟨_, unrolls, _⟩ => exact ⟨_, unrolls⟩
  | .napping _ _ _ _, ⟨_, unrolls, _⟩ => exact ⟨_, unrolls⟩
  | .ended _, .inl unrolls => exact ⟨_, unrolls⟩
  | .ended _, .inr ⟨_, _, fresh⟩ => exact ⟨_, fresh.unrolls⟩

/-- Where a task stands when an activity of it has ended. -/
def Standing.ofResult (renew : α → Option (MarkedActivity α)) :
    Except Interruption α → Standing α
  | .ok value =>
    match renew value with
    | some next => .ready next.unmark
    | none => .ended (.ok value)
  | .error interruption => .ended (.error interruption)

/-- Exchanges as parts of a trace. -/
def asked (exchanges : List RunExchange) : TaskTrace :=
  exchanges.map fun exchange => ⟨.request exchange.request, exchange.answer⟩

@[simp] theorem exchanges_asked (exchanges : List RunExchange) :
    (asked exchanges).exchanges = exchanges := by
  induction exchanges with
  | nil => rfl
  | cons exchange rest hypothesis => exact congrArg (exchange :: ·) hypothesis

/-- A move of a task extends its trace by what it exchanges and by the marks that are due then. -/
theorem Moves.stands {loops : List (Standing LoopStep)} {before after : Bool}
    {standing later : Standing α} {exchanges : List RunExchange}
    (moves : Moves (Standing.ofResult renew) loops before standing exchanges after later)
    (stands : standing.Stands renew start trace) :
    ∃ quiet : TaskTrace, quiet.exchanges = [] ∧
      later.Stands renew start (trace ++ (asked exchanges ++ quiet)) := by
  have stays : exchanges = [] → later.Stands renew start trace →
      ∃ quiet : TaskTrace, quiet.exchanges = [] ∧
        later.Stands renew start (trace ++ (asked exchanges ++ quiet)) := by
    rintro rfl standsLater
    exact ⟨[], rfl, by simpa [asked] using standsLater⟩
  have answered : ∀ {request : RunRequest} {next : request.Answer → RunActivity α}
      (answer : request.Answer),
      (∃ rest, Unrolls renew start trace rest ∧ rest.IsDue ∧ rest.unmark = .perform request next) →
      exchanges = [⟨request, answer⟩] → later = .active (next answer) →
      ∃ quiet : TaskTrace, quiet.exchanges = [] ∧
        later.Stands renew start (trace ++ (asked exchanges ++ quiet)) := by
    rintro request next answer ⟨rest, unrolls, due, same⟩ rfl rfl
    obtain ⟨resume, rfl, resumes⟩ := due.perform_of_unmark same
    obtain ⟨quiet, last, goesOn, lastDue, lastSame, silent⟩ := (unrolls.exchange answer).exists_due
    refine ⟨quiet, silent, last, ?_, lastDue, lastSame.trans (resumes answer)⟩
    rwa [← List.append_assoc]
  cases moves with
  | begin activity =>
      obtain ⟨fresh, isFresh, same⟩ := stands
      obtain ⟨quiet, last, goesOn, lastDue, lastSame, silent⟩ := isFresh.unrolls.exists_due
      exact ⟨quiet, silent, last, goesOn, lastDue, lastSame.trans same⟩
  | revoke activity =>
      obtain ⟨fresh, isFresh, -⟩ := stands
      exact stays rfl (.inr ⟨rfl, fresh, isFresh⟩)
  | answer answers => exact answered _ stands rfl rfl
  | suspend suspends => exact stays rfl stands
  | resume resumes => exact answered _ stands rfl rfl
  | fallAsleep sleeps => exact stays rfl stands
  | sleepOn sleeps => exact stays rfl stands
  | wake | startle =>
      obtain ⟨rest, unrolls, due, naps⟩ := stands
      exact answered _ ⟨rest, unrolls, due, naps⟩ rfl rfl
  | conclude result =>
      obtain ⟨rest, unrolls, due, same⟩ := stands
      obtain rfl := due.finished_of_unmark same
      cases result with
      | error interruption => exact stays rfl (.inl unrolls)
      | ok value =>
          cases renews : renew value with
          | none =>
              refine stays rfl ?_
              simp only [Standing.ofResult, renews]
              exact .inl unrolls
          | some next =>
              refine stays rfl ?_
              simp only [Standing.ofResult, renews]
              exact ⟨next, .again unrolls renews, rfl⟩

end Task

/-! ### Walks and loops -/

/-- How a loop goes on after a turn. -/
def renewLoop (registry : Registry) : LoopStep → Option (MarkedActivity LoopStep)
  | .again _ next => some (markTurn registry next)
  | .ended => none

theorem ofResult_walk : (Standing.ofResult fun _ : RunState => none) = Standing.ended := by
  funext result
  cases result <;> rfl

theorem ofResult_loop (registry : Registry) :
    Standing.ofResult (renewLoop registry) = Standing.ofLoop registry := by
  funext result
  rcases result with interruption | _ | ⟨_, next⟩
  · rfl
  · rfl
  · simp [Standing.ofResult, renewLoop, Standing.ofLoop, markTurn_unmark]

/-- The start of a loop that an exchange asks for. -/
def spawnOf (exchange : RunExchange) : Option (Nat × Block) :=
  match exchange.request with
  | .spawn index block => some (index, block)
  | _ => none

namespace Scene

variable {ρ : Type}

/-- The blocks whose loops have been started, with their places. -/
def spawned (scene : Scene ρ) : List (Nat × Block) :=
  scene.history.filterMap fun entry => spawnOf entry.2

/-- Whether a task has left a trace: its exchanges are those of the history, and it stands where the
trace has led it. -/
def Leaves (registry : Registry) (program : Program) (scene : Scene RunState) :
    TaskId → TaskTrace → Prop
  | .walk, trace =>
    scene.walk.Stands (fun _ => none) (markExecute registry program) trace ∧
      trace.exchanges = scene.exchangesOf .walk
  | .loop number, trace =>
    ∃ index block standing, scene.spawned[number]? = some (index, block) ∧
      scene.loops[number]? = some standing ∧
      standing.Stands (renewLoop registry) (markBeginLoop registry index block) trace ∧
      trace.exchanges = scene.exchangesOf (.loop number)

/-- Whether the loops are those that the history tells of, and nothing was heard of others. -/
structure Tallies (scene : Scene ρ) : Prop where
  length : scene.loops.length = scene.spawned.length
  silent : ∀ number, scene.loops.length ≤ number → scene.exchangesOf (.loop number) = []

end Scene

section Scene

variable {registry : Registry} {program : Program} {scene later : Scene RunState} {task : TaskId}
  {exchanges : List RunExchange}

theorem spawned_append {ρ : Type} {scene later : Scene ρ}
    (appended : later.history = scene.history ++ exchanges.map (task, ·)) :
    later.spawned = scene.spawned ++ exchanges.filterMap spawnOf := by
  unfold Scene.spawned
  rw [appended, List.filterMap_append, List.filterMap_map]
  rfl

theorem Scene.exchangesOf_of_ne {ρ : Type} {scene later : Scene ρ} {other : TaskId}
    (appended : later.history = scene.history ++ exchanges.map (task, ·))
    (differs : other ≠ task) : later.exchangesOf other = scene.exchangesOf other := by
  rw [Scene.exchangesOf_append appended, if_neg differs.symm, List.append_nil]

/-- The loops that exchanges start are those of the blocks that they name. -/
theorem flatMap_startedBy (exchanges : List RunExchange) :
    exchanges.flatMap (startedBy registry) = (exchanges.filterMap spawnOf).map fun spawn =>
      .ready (markBeginLoop registry spawn.1 spawn.2).unmark := by
  induction exchanges with
  | nil => rfl
  | cons exchange rest hypothesis =>
      rw [List.flatMap_cons, hypothesis, List.filterMap_cons]
      obtain ⟨request, answer⟩ := exchange
      cases request with
      | spawn index block => simp [startedBy, spawnOf, markBeginLoop_unmark]
      | _ => rfl

/-! ### One step -/

variable {number : Nat}

/-- What stands in a list stands in every longer one that begins with it. -/
theorem getElem?_append_of_some {α : Type} {first : List α} {item : α}
    (found : first[number]? = some item) (second : List α) :
    (first ++ second)[number]? = some item := by
  rw [List.getElem?_append_left (List.getElem?_eq_some_iff.mp found).1, found]

/-- The scene after a move of the walk. -/
def Scene.walked {ρ : Type} (registry : Registry) (scene : Scene ρ) (exchanges : List RunExchange)
    (after : Bool) (standing : Standing ρ) : Scene ρ :=
  { signal := after
    history := scene.history ++ exchanges.map (.walk, ·)
    walk := standing
    loops := scene.loops ++ exchanges.flatMap (startedBy registry) }

/-- The scene after a move of a loop. -/
def Scene.looped {ρ : Type} (registry : Registry) (scene : Scene ρ) (number : Nat)
    (exchanges : List RunExchange) (after : Bool) (standing : Standing LoopStep) : Scene ρ :=
  { signal := after
    history := scene.history ++ exchanges.map fun exchange => (.loop number, exchange)
    walk := scene.walk
    loops := scene.loops.set number standing ++ exchanges.flatMap (startedBy registry) }

namespace Scene.Leaves

variable {task : TaskId} {trace : TaskTrace} {number : Nat} {exchanges : List RunExchange}
  {after : Bool}

theorem walk_frame (leaves : scene.Leaves registry program .walk trace)
    (sameWalk : later.walk = scene.walk)
    (same : later.exchangesOf .walk = scene.exchangesOf .walk) :
    later.Leaves registry program .walk trace := by
  obtain ⟨stands, exchanged⟩ := leaves
  refine ⟨?_, exchanged.trans same.symm⟩
  rwa [sameWalk]

theorem loop_frame {new : List (Nat × Block)}
    (leaves : scene.Leaves registry program (.loop number) trace)
    (more : later.spawned = scene.spawned ++ new)
    (sameLoop : later.loops[number]? = scene.loops[number]?)
    (same : later.exchangesOf (.loop number) = scene.exchangesOf (.loop number)) :
    later.Leaves registry program (.loop number) trace := by
  obtain ⟨index, block, standing, spawned, found, stands, exchanged⟩ := leaves
  refine ⟨index, block, standing, ?_, sameLoop.trans found, stands, exchanged.trans same.symm⟩
  rw [more]
  exact getElem?_append_of_some spawned new

theorem known (leaves : scene.Leaves registry program (.loop number) trace) :
    number < scene.loops.length := by
  obtain ⟨_, _, _, -, found, -⟩ := leaves
  exact (List.getElem?_eq_some_iff.mp found).1

theorem stopped (leaves : scene.Leaves registry program task trace) :
    Scene.Leaves registry program { scene with signal := true } task trace := by
  cases task with
  | walk => exact leaves.walk_frame rfl rfl
  | loop number => exact leaves.loop_frame (List.append_nil _).symm rfl rfl

/-- A move of the walk extends its trace by what it exchanges and by the marks that are due then. -/
theorem walked {standing : Standing RunState} (leaves : scene.Leaves registry program .walk trace)
    (moves : Moves .ended scene.loops scene.signal scene.walk exchanges after standing) :
    ∃ quiet : TaskTrace, quiet.exchanges = [] ∧
      (scene.walked registry exchanges after standing).Leaves registry program .walk
        (trace ++ (asked exchanges ++ quiet)) := by
  obtain ⟨stands, exchanged⟩ := leaves
  rw [← ofResult_walk] at moves
  obtain ⟨quiet, silent, standsLater⟩ := moves.stands stands
  refine ⟨quiet, silent, standsLater, ?_⟩
  rw [Scene.exchangesOf_append rfl, if_pos rfl]
  simp [exchanged, silent]

/-- A move of a loop extends its trace by what it exchanges and by the marks that are due then. -/
theorem looped {before standing : Standing LoopStep}
    (leaves : scene.Leaves registry program (.loop number) trace)
    (found : scene.loops[number]? = some before)
    (moves : Moves (Standing.ofLoop registry) scene.loops scene.signal before exchanges after
      standing) :
    ∃ quiet : TaskTrace, quiet.exchanges = [] ∧
      (scene.looped registry number exchanges after standing).Leaves registry program (.loop number)
        (trace ++ (asked exchanges ++ quiet)) := by
  have kept : number < (scene.loops.set number standing).length := by
    rw [List.length_set]
    exact leaves.known
  obtain ⟨index, block, _, spawned, foundToo, stands, exchanged⟩ := leaves
  obtain rfl := Option.some.inj (found.symm.trans foundToo)
  rw [← ofResult_loop] at moves
  obtain ⟨quiet, silent, standsLater⟩ := moves.stands stands
  refine ⟨quiet, silent, index, block, standing, ?_, ?_, standsLater, ?_⟩
  · rw [spawned_append rfl]
    exact getElem?_append_of_some spawned _
  · rw [Scene.looped, List.getElem?_append_left kept, List.getElem?_set_self]
    rwa [List.length_set] at kept
  · rw [Scene.exchangesOf_append rfl, if_pos rfl]
    simp [exchanged, silent]

/-- The other tasks leave no trace of a move of the walk. -/
theorem beside_walk (leaves : scene.Leaves registry program task trace) (differs : task ≠ .walk)
    (standing : Standing RunState) :
    (scene.walked registry exchanges after standing).Leaves registry program task trace := by
  cases task with
  | walk => exact absurd rfl differs
  | loop number =>
      refine leaves.loop_frame (spawned_append rfl) ?_ (exchangesOf_of_ne rfl differs)
      exact List.getElem?_append_left leaves.known

/-- The other tasks leave no trace of a move of a loop. -/
theorem beside_loop {moved : Nat} (leaves : scene.Leaves registry program task trace)
    (differs : task ≠ .loop moved) (standing : Standing LoopStep) :
    (scene.looped registry moved exchanges after standing).Leaves registry program task trace := by
  cases task with
  | walk => exact leaves.walk_frame rfl (exchangesOf_of_ne rfl differs)
  | loop number =>
      refine leaves.loop_frame (spawned_append rfl) ?_ (exchangesOf_of_ne rfl differs)
      have kept : number < (scene.loops.set moved standing).length := by
        rw [List.length_set]
        exact leaves.known
      rw [Scene.looped, List.getElem?_append_left kept, List.getElem?_set_ne]
      rintro rfl
      exact differs rfl

end Scene.Leaves

/-- Each step of a run extends the traces of its tasks. -/
theorem Step.leaves (step : Step registry scene later) {trace : TaskTrace}
    (leaves : scene.Leaves registry program task trace) :
    ∃ more, later.Leaves registry program task (trace ++ more) := by
  have stays : later.Leaves registry program task trace →
      ∃ more, later.Leaves registry program task (trace ++ more) := by
    intro leavesLater
    exact ⟨[], by rwa [List.append_nil]⟩
  cases step with
  | stop idle => exact stays leaves.stopped
  | walk alone moves =>
      by_cases own : task = .walk
      · subst own
        obtain ⟨quiet, -, leavesLater⟩ := leaves.walked moves
        exact ⟨_, leavesLater⟩
      · exact stays (leaves.beside_walk own _)
  | @loop moved _ _ _ _ found alone moves =>
      by_cases own : task = .loop moved
      · subst own
        obtain ⟨quiet, -, leavesLater⟩ := leaves.looped found moves
        exact ⟨_, leavesLater⟩
      · exact stays (leaves.beside_loop own _)

/-- The loops stay those that the history tells of. -/
theorem Step.tallies (step : Step registry scene later) (tallies : scene.Tallies) : later.Tallies := by
  obtain ⟨length, silent⟩ := tallies
  cases step with
  | stop idle => exact ⟨length, silent⟩
  | @walk exchanges after standing alone moves =>
      constructor
      · rw [spawned_append rfl, flatMap_startedBy, List.length_append, List.length_append,
          List.length_map, length]
      · intro number large
        rw [Scene.exchangesOf_append rfl, if_neg nofun, List.append_nil]
        rw [List.length_append] at large
        exact silent number (by omega)
  | @loop moved standing standingLater exchanges after found alone moves =>
      have known := (List.getElem?_eq_some_iff.mp found).1
      constructor
      · rw [spawned_append rfl, flatMap_startedBy, List.length_append, List.length_append,
          List.length_map, List.length_set, length]
      · intro number large
        rw [List.length_append, List.length_set] at large
        rw [Scene.exchangesOf_append rfl, if_neg (by simp; omega), List.append_nil]
        exact silent number (by omega)

/-- A loop that has just been started has left an empty trace. -/
theorem leaves_of_spawned {standings : List (Standing LoopStep)}
    (loops : later.loops = standings ++ exchanges.flatMap (startedBy registry))
    (spawned : later.spawned = scene.spawned ++ exchanges.filterMap spawnOf)
    (length : standings.length = scene.spawned.length) (large : standings.length ≤ number)
    (known : number < later.loops.length) (silent : later.exchangesOf (.loop number) = []) :
    later.Leaves registry program (.loop number) [] := by
  rw [flatMap_startedBy] at loops
  rw [loops, List.length_append, List.length_map] at known
  have place : number - standings.length < (exchanges.filterMap spawnOf).length := by omega
  obtain ⟨⟨index, block⟩, found⟩ : ∃ spawn,
      (exchanges.filterMap spawnOf)[number - standings.length]? = some spawn :=
    ⟨_, List.getElem?_eq_getElem place⟩
  refine ⟨index, block, .ready (markBeginLoop registry index block).unmark, ?_, ?_,
    ⟨_, .start, rfl⟩, silent.symm⟩
  · rw [spawned, List.getElem?_append_right (length ▸ large), ← length, found]
  · rw [loops, List.getElem?_append_right large, List.getElem?_map, found]
    rfl

/-! ### Whole runs -/

theorem Steps.leaves (steps : Steps registry scene later) {trace : TaskTrace}
    (leaves : scene.Leaves registry program task trace) :
    ∃ more, later.Leaves registry program task (trace ++ more) := by
  induction steps with
  | refl => exact ⟨[], by rwa [List.append_nil]⟩
  | tail earlier step hypothesis =>
      obtain ⟨more, left⟩ := hypothesis
      obtain ⟨further, leftLater⟩ := step.leaves left
      exact ⟨more ++ further, by rwa [← List.append_assoc]⟩

variable {signal : Bool}

theorem Steps.tallies (steps : Steps registry (Scene.start signal (execute registry program)) scene) :
    scene.Tallies := by
  induction steps with
  | refl => exact ⟨rfl, fun _ _ => rfl⟩
  | tail earlier step hypothesis => exact step.tallies hypothesis

/-- The walk of a run has left a trace. -/
theorem Steps.exists_walk_trace
    (steps : Steps registry (Scene.start signal (execute registry program)) scene) :
    ∃ trace, scene.Leaves registry program .walk trace := by
  have begun : (Scene.start signal (execute registry program)).Leaves registry program .walk [] :=
    ⟨⟨_, .start, markExecute_unmark registry program⟩, rfl⟩
  obtain ⟨more, leftLater⟩ := steps.leaves begun
  exact ⟨_, leftLater⟩

/-- Each loop of a run has left a trace. -/
theorem Steps.exists_loop_trace
    (steps : Steps registry (Scene.start signal (execute registry program)) scene)
    (known : number < scene.loops.length) :
    ∃ trace, scene.Leaves registry program (.loop number) trace := by
  induction steps with
  | refl => exact absurd known (Nat.not_lt_zero number)
  | @tail middle final earlier step hypothesis =>
      by_cases old : number < middle.loops.length
      · obtain ⟨trace, left⟩ := hypothesis old
        obtain ⟨_, leftLater⟩ := step.leaves left
        exact ⟨_, leftLater⟩
      · obtain ⟨length, silent⟩ := Steps.tallies earlier
        have large := Nat.not_lt.mp old
        cases step with
        | stop idle => exact absurd known old
        | walk alone moves =>
            refine ⟨[], leaves_of_spawned rfl (spawned_append rfl) length large known ?_⟩
            rw [Scene.exchangesOf_append rfl, if_neg nofun, List.append_nil]
            exact silent number large
        | @loop moved standing standingLater exchanges after found alone moves =>
            have movedKnown := (List.getElem?_eq_some_iff.mp found).1
            refine ⟨[], leaves_of_spawned rfl (spawned_append rfl) (by rwa [List.length_set])
              (by rwa [List.length_set]) known ?_⟩
            rw [Scene.exchangesOf_append rfl, if_neg (by simp; omega), List.append_nil]
            exact silent number large

end Scene

end InputScript.Interleaving
