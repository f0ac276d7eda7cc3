/-
Module: InputScript.Proofs.Mirror
Purpose: What the machine of a rehearsal notes of its tasks.  It keeps a queue of notices, tickets for
  the waits of the tasks and counts for the waits for the loops; whatever it does to them, its tasks
  stand as in a scene of the run.
Main exports: Matches, Awaits, Mirrors, and one lemma for each thing that the machine does
-/
import InputScript.Proofs.Turns
import InputScript.Rehearsal.Machine
import Mathlib.Data.Finset.Card

namespace InputScript.Interleaving

open Run Rehearsal

/-! ### Notices -/

/-- The notices that wait, and those of the timers. -/
def underway {ρ : Type} (machine : Machine ρ) : List Notice :=
  machine.ready ++ machine.timers.map (·.notice)

/-- `Sheds earlier later`: later notices deliver nothing that the earlier ones do not, and tell of the
end of the same loops. -/
structure Sheds (earlier later : List Notice) : Prop where
  delivers : ∀ id ticket, .deliver id ticket ∈ later → .deliver id ticket ∈ earlier
  ends : ∀ number join,
    later.count (.loopEnded number join) = earlier.count (.loopEnded number join)

/-- A notice that neither delivers anything nor tells of the end of a loop. -/
def IsPlain : Notice → Prop
  | .deliver _ _ | .loopEnded _ _ => False
  | _ => True

theorem sheds_perm {earlier later : List Notice} (same : later.Perm earlier) :
    Sheds earlier later where
  delivers := fun _ _ member => same.mem_iff.mp member
  ends := fun _ _ => same.count_eq _

variable {notice : Notice}

theorem sheds_cons (notices : List Notice)
    (silent : ∀ number join, notice ≠ .loopEnded number join) :
    Sheds (notice :: notices) notices where
  delivers := fun _ _ member => List.mem_cons_of_mem _ member
  ends := fun number join => by rw [List.count_cons_of_ne (silent number join)]

/-- One more notice that delivers nothing and tells of no end. -/
theorem sheds_insert {earlier later : List Notice} (plain : IsPlain notice)
    (same : later.Perm (notice :: earlier)) : Sheds earlier later where
  delivers := by
    intro id ticket member
    rcases List.mem_cons.mp (same.mem_iff.mp member) with rfl | old
    · exact plain.elim
    · exact old
  ends := by
    intro number join
    have different : notice ≠ .loopEnded number join := by
      rintro rfl
      exact plain
    rw [same.count_eq, List.count_cons_of_ne different]

theorem sheds_push {ρ : Type} (pending : List Notice) (machine : Machine ρ)
    (plain : IsPlain notice) :
    Sheds (pending ++ underway machine) (pending ++ underway (machine.push notice)) := by
  apply sheds_insert plain
  simp only [underway, Machine.push, List.append_assoc, List.singleton_append]
  rw [← List.append_assoc, ← List.append_assoc]
  exact List.perm_middle

theorem sheds_dropWait {ρ : Type} (pending : List Notice) (machine : Machine ρ) (task : TaskId)
    (ticket : Nat) :
    Sheds (pending ++ underway machine) (pending ++ underway (machine.dropWait task ticket)) where
  delivers := by
    intro id other member
    simp only [underway, Machine.dropWait, List.mem_append, List.mem_map, List.mem_filter] at member ⊢
    obtain old | old | ⟨timer, ⟨old, -⟩, same⟩ := member
    · exact .inl old
    · exact .inr (.inl old)
    · exact .inr (.inr ⟨timer, old, same⟩)
  ends := by
    intro number join
    have kept : (machine.timers.filter (·.notice != .deliver task ticket)).map (·.notice) =
        (machine.timers.map (·.notice)).filter (· != .deliver task ticket) := by
      rw [List.filter_map]
      rfl
    simp [underway, Machine.dropWait, kept, List.count_filter]

/-! ### Tasks -/

section Tasks

variable {ρ α : Type}

/-- The task of the machine that is meant. -/
def task? (machine : Machine ρ) : (id : TaskId) → Option (Rehearsal.Task (id.Result ρ))
  | .walk => some machine.walk
  | .loop number => machine.loops[number]?.map (·.task)

/-- Whether a task of the machine can stand so.  A task that is queued goes on with a result that it
may have; a task that waits has a ticket, and what is delivered for it is such a result. -/
inductive Matches (ends : Bool → Except Interruption Unit → Prop) (tickets : Nat)
    (notices : List Notice) (id : TaskId) : Rehearsal.Task α → Standing α → Prop where
  | queued {resumption : Resumption α} {result : Except Interruption Unit} {revoked : Bool}
      {standing : Standing α} (rests : Rests resumption standing)
      (accepts : Accepts ends (Machine.resumeResult result revoked) standing) :
      Matches ends tickets notices id (.queued resumption result revoked) standing
  | waiting {ticket : Nat} {join : Option Nat} {resumption : Resumption α} {revoked : Bool}
      {standing : Standing α} (rests : Rests resumption standing) (given : ticket < tickets)
      (delivers : .deliver id ticket ∈ notices → Accepts ends (.ok ()) standing) :
      Matches ends tickets notices id (.waiting ticket join resumption revoked) standing
  | ended (result : Except Interruption α) :
      Matches ends tickets notices id (.ended result) (.ended result)

theorem Accepts.mono {ends more : Bool → Except Interruption Unit → Prop}
    {result : Except Interruption Unit} {standing : Standing α}
    (accepts : Accepts ends result standing)
    (implies : ∀ tolerant, ends tolerant result → more tolerant result) :
    Accepts more result standing := by
  unfold Accepts at accepts ⊢
  split at accepts
  · exact accepts
  · exact implies _ accepts
  · exact accepts

theorem Matches.mono {ends more : Bool → Except Interruption Unit → Prop} {tickets given : Nat}
    {notices later : List Notice} {id : TaskId} {task : Rehearsal.Task α} {standing : Standing α}
    (fits : Matches ends tickets notices id task standing)
    (implies : ∀ tolerant result, ends tolerant result → more tolerant result)
    (grows : tickets ≤ given)
    (delivers : ∀ ticket < tickets, .deliver id ticket ∈ later → .deliver id ticket ∈ notices) :
    Matches more given later id task standing := by
  cases fits with
  | queued rests accepts => exact .queued rests (accepts.mono fun _ => implies _ _)
  | waiting rests old delivered =>
      refine .waiting rests (old.trans_le grows) fun member => ?_
      exact (delivered (delivers _ old member)).mono fun _ => implies _ _
  | ended result => exact .ended result

end Tasks

/-! ### Waits for the loops -/

/-- What a wait for the loops has to do with one of them: `voices` is the number of notices under way
that tell it of the loop's end, `unheard` says whether the loop is still counted as missing. -/
def Attends (tolerant : Bool) (join voices : Nat) (unheard : Prop) : Option LoopTask → Prop
  | none => voices = 0
  | some ⟨.ended result, _⟩ =>
    (unheard ∧ voices = 1) ∨
      (¬ unheard ∧ voices = 0 ∧ (tolerant = true ∨ ∃ step, result = .ok step))
  | some ⟨_, watchers⟩ => unheard ∧ voices = 0 ∧ watchers.count join = 1

/-- Whether a wait for the loops misses no more loops than it counts. -/
def Awaits (notices : List Notice) (loops : List LoopTask) (join : Nat) (state : JoinState) : Prop :=
  ∃ unheard : Finset Nat, unheard.card ≤ state.missing ∧
    ∀ number, Attends state.tolerant join (notices.count (.loopEnded number join))
      (number ∈ unheard) loops[number]?

/-! ### The machine and the scene -/

section Mirrors

variable {ρ : Type}

/-- The wait for the loops that a task is in. -/
def joinOf? {α : Type} : Rehearsal.Task α → Option Nat
  | .waiting _ join _ _ => join
  | _ => none

/-- Whether the wait for the loops that the walk is in, if there is one, is as it should be. -/
def WalkAwaits (notices : List Notice) (machine : Machine ρ) (scene : Scene ρ) : Prop :=
  ∀ {join : Nat}, machine.isOver = false → joinOf? machine.walk = some join →
    ∃ tolerant next state, scene.walk = .waiting (.join tolerant) next ∧
      machine.joins[join]? = some state ∧ state.tolerant = tolerant ∧
      (state.settled = false → Awaits notices machine.loops join state)

/-- Whether the tasks of a machine, apart from one that is at work, stand as in a scene.  The one at
work is queued until the machine has noted where it has stopped. -/
structure Mirrors (acting : Option TaskId) (notices : List Notice) (machine : Machine ρ)
    (scene : Scene ρ) : Prop where
  size : machine.loops.length = scene.loops.length
  tasks : ∀ {id : TaskId} {task : Rehearsal.Task (id.Result ρ)} {standing : Standing (id.Result ρ)},
    acting ≠ some id → task? machine id = some task → scene.standing? id = some standing →
      Matches (scene.ends id) machine.tickets notices id task standing
  tickets : ∀ {id : TaskId} {ticket : Nat}, .deliver id ticket ∈ notices → ticket < machine.tickets
  watchers : ∀ {number : Nat} {loop : LoopTask}, machine.loops[number]? = some loop →
    ∀ join ∈ loop.watchers, join < machine.joins.length
  joins : ∀ {number join : Nat}, .loopEnded number join ∈ notices → join < machine.joins.length
  busy : ∀ {id : TaskId}, acting = some id → ∃ resumption result revoked,
    task? machine id = some (.queued resumption result revoked)
  awaits : WalkAwaits notices machine scene

variable {acting : Option TaskId} {notices later pending : List Notice} {machine : Machine ρ}
  {scene : Scene ρ}

theorem Mirrors.walk (mirrors : Mirrors acting notices machine scene) (free : acting ≠ some .walk)
    {task : Rehearsal.Task ρ} (is : machine.walk = task) :
    Matches (scene.ends .walk) machine.tickets notices .walk task scene.walk := by
  subst is
  exact mirrors.tasks free rfl rfl

variable {number : Nat}

theorem Mirrors.loop (mirrors : Mirrors acting notices machine scene)
    (free : acting ≠ some (.loop number)) {loop : LoopTask} {standing : Standing LoopStep}
    (is : machine.loops[number]? = some loop) (stands : scene.loops[number]? = some standing) :
    Matches (scene.ends (.loop number)) machine.tickets notices (.loop number) loop.task standing :=
  mirrors.tasks free (congrArg (Option.map _) is) stands

variable {join : Nat}

theorem Sheds.mem_ends (sheds : Sheds notices later) (member : .loopEnded number join ∈ later) :
    .loopEnded number join ∈ notices := by
  rw [← List.count_pos_iff] at member ⊢
  rwa [← sheds.ends]

variable {loops : List LoopTask} {state : JoinState}

theorem Awaits.sheds (awaits : Awaits notices loops join state) (sheds : Sheds notices later) :
    Awaits later loops join state := by
  unfold Awaits
  simp only [sheds.ends]
  exact awaits

/-- Fewer deliveries leave all as it was. -/
theorem Mirrors.sheds (mirrors : Mirrors acting notices machine scene)
    (sheds : Sheds notices later) : Mirrors acting later machine scene where
  size := mirrors.size
  tasks := fun free is stands => (mirrors.tasks free is stands).mono (fun _ _ ends => ends) le_rfl
    fun _ _ member => sheds.delivers _ _ member
  tickets := fun member => mirrors.tickets (sheds.delivers _ _ member)
  watchers := mirrors.watchers
  joins := fun member => mirrors.joins (sheds.mem_ends member)
  busy := mirrors.busy
  awaits := fun goesOn waits => by
    obtain ⟨tolerant, next, state, stands, is, same, awaits⟩ := mirrors.awaits goesOn waits
    exact ⟨tolerant, next, state, stands, is, same, fun unsettled => (awaits unsettled).sheds sheds⟩

/-- The queue, the timers and the world say nothing of where the tasks stand. -/
theorem Mirrors.around (mirrors : Mirrors acting notices machine scene) (ready : List Notice)
    (timers : List Timer) (world : World) :
    Mirrors acting notices { machine with ready := ready, timers := timers, world := world } scene :=
  ⟨mirrors.size, mirrors.tasks, mirrors.tickets, mirrors.watchers, mirrors.joins, mirrors.busy,
    mirrors.awaits⟩

theorem Mirrors.push (mirrors : Mirrors acting (pending ++ underway machine) machine scene)
    {notice : Notice} (plain : IsPlain notice) :
    Mirrors acting (pending ++ underway (machine.push notice)) (machine.push notice) scene :=
  (mirrors.around _ _ _).sheds (sheds_push pending machine plain)

theorem Mirrors.dropWait (mirrors : Mirrors acting (pending ++ underway machine) machine scene)
    (task : TaskId) (ticket : Nat) :
    Mirrors acting (pending ++ underway (machine.dropWait task ticket))
      (machine.dropWait task ticket) scene :=
  (mirrors.around _ _ _).sheds (sheds_dropWait pending machine task ticket)

/-- The walk is put in another state; what it waits for has to be as it should be. -/
theorem Mirrors.putWalk (mirrors : Mirrors acting notices machine scene)
    {walk : Rehearsal.Task ρ} (others : ∀ id, id ≠ .walk → acting ≠ some id)
    (fits : Matches (scene.ends .walk) machine.tickets notices .walk walk scene.walk)
    (awaits : WalkAwaits notices { machine with walk := walk } scene) :
    Mirrors none notices { machine with walk := walk } scene where
  size := mirrors.size
  tasks := by
    intro id task standing _ is stands
    cases id with
    | walk =>
        obtain rfl := Option.some.inj is
        obtain rfl := Option.some.inj stands
        exact fits
    | loop number => exact mirrors.tasks (others _ nofun) is stands
  tickets := mirrors.tickets
  watchers := mirrors.watchers
  joins := mirrors.joins
  busy := nofun
  awaits := awaits

/-- The walk is put in a state in which it does not wait for the loops. -/
theorem Mirrors.setWalk (mirrors : Mirrors acting notices machine scene)
    {walk : Rehearsal.Task ρ} (others : ∀ id, id ≠ .walk → acting ≠ some id)
    (free : joinOf? walk = none)
    (fits : Matches (scene.ends .walk) machine.tickets notices .walk walk scene.walk) :
    Mirrors none notices { machine with walk := walk } scene :=
  mirrors.putWalk others fits fun _ waits => nomatch free.symm.trans waits

theorem getElem?_setLoop (machine : Machine ρ) (number : Nat) (task : Rehearsal.Task LoopStep)
    (other : Nat) : (machine.setLoop number task).loops[other]? =
      machine.loops[other]?.map fun loop => if number = other then { loop with task } else loop := by
  simp [Machine.setLoop, Machine.modifyLoop, List.getElem?_modify]

theorem attends_running {tolerant : Bool} {voices : Nat} {unheard : Prop} {loop : LoopTask}
    (running : loop.task.isEnded = false) : Attends tolerant join voices unheard (some loop) ↔
      unheard ∧ voices = 0 ∧ loop.watchers.count join = 1 := by
  obtain ⟨task, watchers⟩ := loop
  cases task with
  | ended result => cases running
  | _ => rfl

/-- What bears on one loop only: the wait attends to the others as before. -/
theorem Awaits.change {after : List LoopTask} (awaits : Awaits notices loops join state)
    (others : ∀ other, number ≠ other →
      later.count (.loopEnded other join) = notices.count (.loopEnded other join) ∧
        after[other]? = loops[other]?)
    (here : ∀ {unheard : Prop},
      Attends state.tolerant join (notices.count (.loopEnded number join)) unheard loops[number]? →
      Attends state.tolerant join (later.count (.loopEnded number join)) unheard after[number]?) :
    Awaits later after join state := by
  obtain ⟨unheard, bound, attends⟩ := awaits
  refine ⟨unheard, bound, fun other => ?_⟩
  by_cases same : number = other
  · subst same
    exact here (attends number)
  · obtain ⟨counts, kept⟩ := others other same
    rw [counts, kept]
    exact attends other

theorem getElem?_setLoop_self {loop : LoopTask} (found : machine.loops[number]? = some loop)
    (task : Rehearsal.Task LoopStep) :
    (machine.setLoop number task).loops[number]? = some { loop with task } := by
  rw [getElem?_setLoop, found, Option.map_some, if_pos rfl]

variable {other : Nat}

theorem getElem?_setLoop_ne (different : number ≠ other) (task : Rehearsal.Task LoopStep) :
    (machine.setLoop number task).loops[other]? = machine.loops[other]? := by
  rw [getElem?_setLoop]
  simp only [if_neg different, Option.map_id']

/-- A loop is put in another state, and there may be notices of it; the waits for the loops have to
be as they should be. -/
theorem Mirrors.putLoop (mirrors : Mirrors acting notices machine scene) {next : Option TaskId}
    {loop : LoopTask} {task : Rehearsal.Task LoopStep} (ready : List Notice)
    (found : machine.loops[number]? = some loop)
    (others : ∀ id, id ≠ .loop number → next ≠ some id → acting ≠ some id)
    (busy : ∀ {id : TaskId}, next = some id → ∃ resumption result revoked,
      task? (machine.setLoop number task) id = some (.queued resumption result revoked))
    (fits : next ≠ some (.loop number) → ∀ standing, scene.loops[number]? = some standing →
      Matches (scene.ends (.loop number)) machine.tickets later (.loop number) task standing)
    (delivers : ∀ id ticket, .deliver id ticket ∈ later → .deliver id ticket ∈ notices)
    (joins : ∀ other join, .loopEnded other join ∈ later → join < machine.joins.length)
    (awaits : ∀ join state, Awaits notices machine.loops join state →
      Awaits later (machine.setLoop number task).loops join state) :
    Mirrors next later { machine.setLoop number task with ready := ready } scene where
  size := by simpa [Machine.setLoop, Machine.modifyLoop] using mirrors.size
  tasks := by
    intro id now standing free is stands
    have kept (different : id ≠ .loop number) (was : task? machine id = some now) :
        Matches (scene.ends id) machine.tickets later id now standing :=
      (mirrors.tasks (others id different free) was stands).mono (fun _ _ ends => ends) le_rfl
        fun ticket _ => delivers id ticket
    cases id with
    | walk => exact kept nofun is
    | loop other =>
        obtain ⟨current, now, rfl⟩ := Option.map_eq_some_iff.mp is
        by_cases same : number = other
        · subst same
          obtain rfl := Option.some.inj ((getElem?_setLoop_self found task).symm.trans now)
          exact fits free standing stands
        · have was := (getElem?_setLoop_ne same task).symm.trans now
          exact kept (fun equal => same (TaskId.loop.inj equal).symm) (congrArg (Option.map _) was)
  tickets := fun member => mirrors.tickets (delivers _ _ member)
  watchers := by
    intro other changed is
    obtain ⟨before, was, rfl⟩ :=
      Option.map_eq_some_iff.mp ((getElem?_setLoop machine number task other).symm.trans is)
    have bound := mirrors.watchers was
    split <;> exact bound
  joins := joins _ _
  busy := busy
  awaits := by
    intro join goesOn waits
    obtain ⟨tolerant, following, state, stands, is, same, awaited⟩ := mirrors.awaits goesOn waits
    exact ⟨tolerant, following, state, stands, is, same,
      fun unsettled => awaits join state (awaited unsettled)⟩

/-- A loop that runs is put in another state in which it does. -/
theorem Mirrors.setLoop (mirrors : Mirrors acting notices machine scene) {next : Option TaskId}
    {loop : LoopTask} {task : Rehearsal.Task LoopStep}
    (found : machine.loops[number]? = some loop) (running : loop.task.isEnded = false)
    (still : task.isEnded = false)
    (others : ∀ id, id ≠ .loop number → next ≠ some id → acting ≠ some id)
    (busy : ∀ {id : TaskId}, next = some id → ∃ resumption result revoked,
      task? (machine.setLoop number task) id = some (.queued resumption result revoked))
    (fits : next ≠ some (.loop number) → ∀ standing, scene.loops[number]? = some standing →
      Matches (scene.ends (.loop number)) machine.tickets notices (.loop number) task standing) :
    Mirrors next notices (machine.setLoop number task) scene := by
  apply mirrors.putLoop machine.ready found others busy fits (fun _ _ => id) fun _ _ => mirrors.joins
  intro join state awaits
  apply awaits.change fun other different => ⟨rfl, getElem?_setLoop_ne different task⟩
  intro unheard attends
  rw [found, attends_running running] at attends
  rw [getElem?_setLoop_self found]
  exact (attends_running still).mpr attends

/-! ### Calling off -/

theorem ends_revoked (scene : Scene ρ) (id : TaskId) (tolerant : Bool) :
    scene.ends id tolerant (.error .revoked) := by
  cases id with
  | walk => exact .inl rfl
  | loop number => exact rfl

variable {id : TaskId} {result : Except Interruption Unit} {standing : Standing (id.Result ρ)}

theorem accepts_resumeResult {resumption : Resumption (id.Result ρ)}
    (rests : Rests resumption standing) (accepts : Accepts (scene.ends id) result standing)
    (revoked : Bool) :
    Accepts (scene.ends id) (Machine.resumeResult result revoked) standing := by
  cases revoked with
  | true => exact rests.accepts_revoked (ends_revoked scene id)
  | false => exact accepts

variable {revoked : Bool}

/-- A loop that runs is queued. -/
theorem Mirrors.requeue (mirrors : Mirrors acting notices machine scene) {loop : LoopTask}
    {resumption : Resumption LoopStep} (found : machine.loops[number]? = some loop)
    (running : loop.task.isEnded = false)
    (fits : acting ≠ some (.loop number) → ∀ standing, scene.loops[number]? = some standing →
      Rests resumption standing ∧
        Accepts (scene.ends (.loop number)) (Machine.resumeResult result revoked) standing) :
    Mirrors acting notices (machine.setLoop number (.queued resumption result revoked)) scene := by
  apply mirrors.setLoop found running rfl (fun _ _ free => free)
  · intro id isActing
    obtain ⟨current, answer, off, is⟩ := mirrors.busy isActing
    cases id with
    | walk => exact ⟨current, answer, off, is⟩
    | loop other =>
        rw [task?] at is
        rw [task?, getElem?_setLoop]
        by_cases same : number = other
        · subst same
          rw [found]
          exact ⟨resumption, result, revoked, by simp⟩
        · exact ⟨current, answer, off, by simpa [same] using is⟩
  · intro free standing stands
    obtain ⟨rests, accepts⟩ := fits free standing stands
    exact .queued rests accepts

theorem Mirrors.revokeLoop (mirrors : Mirrors acting (pending ++ underway machine) machine scene)
    (number : Nat) :
    Mirrors acting (pending ++ underway (machine.revokeLoop number).2)
      (machine.revokeLoop number).2 scene := by
  unfold Machine.revokeLoop
  split
  · next resumption result revoked watchers found =>
      apply mirrors.requeue found rfl
      intro free standing stands
      cases mirrors.loop free found stands with
      | queued rests accepts => exact ⟨rests, rests.accepts_revoked (ends_revoked scene _)⟩
  · next ticket join resumption revoked watchers found =>
      have dropped := mirrors.dropWait (.loop number) ticket
      refine Mirrors.push (dropped.requeue found rfl fun free standing stands => ?_) trivial
      cases mirrors.loop free found stands with
      | waiting rests given delivers => exact ⟨rests, rests.accepts_revoked (ends_revoked scene _)⟩
  · exact mirrors

theorem Mirrors.revokeAll (mirrors : Mirrors acting (pending ++ underway machine) machine scene) :
    Mirrors acting (pending ++ underway machine.revokeAll.2) machine.revokeAll.2 scene := by
  unfold Machine.revokeAll
  generalize List.range machine.loops.length = numbers
  suffices fold : ∀ current : Bool × Machine ρ,
      Mirrors acting (pending ++ underway current.2) current.2 scene →
      Mirrors acting (pending ++ underway (numbers.foldl _ current).2)
        (numbers.foldl _ current).2 scene from
    fold (false, machine) mirrors
  induction numbers with
  | nil => exact fun current mirrors => mirrors
  | cons number rest hypothesis =>
      exact fun current mirrors => hypothesis _ (mirrors.revokeLoop number)

theorem revokeLoop_frame (machine : Machine ρ) (number : Nat) :
    (machine.revokeLoop number).2.walk = machine.walk ∧
      (machine.revokeLoop number).2.world = machine.world := by
  unfold Machine.revokeLoop
  split <;> exact ⟨rfl, rfl⟩

/-- Calling off the loops changes neither the walk nor the world. -/
theorem revokeAll_frame (machine : Machine ρ) :
    machine.revokeAll.2.walk = machine.walk ∧ machine.revokeAll.2.world = machine.world := by
  unfold Machine.revokeAll
  generalize List.range machine.loops.length = numbers
  suffices fold : ∀ current : Bool × Machine ρ,
      (numbers.foldl _ current).2.walk = current.2.walk ∧
        (numbers.foldl _ current).2.world = current.2.world from
    fold (false, machine)
  induction numbers with
  | nil => exact fun current => ⟨rfl, rfl⟩
  | cons number rest hypothesis =>
      intro current
      obtain ⟨walk, world⟩ := revokeLoop_frame current.2 number
      obtain ⟨sameWalk, sameWorld⟩ := hypothesis _
      exact ⟨sameWalk.trans walk, sameWorld.trans world⟩

/-- A change of a wait for the loops after which it counts as before. -/
theorem Mirrors.modifyJoin (mirrors : Mirrors acting notices machine scene) (join : Nat)
    {change : JoinState → JoinState}
    (kept : ∀ state, (change state).tolerant = state.tolerant ∧
      (change state).missing = state.missing ∧
      ((change state).settled = false → state.settled = false)) :
    Mirrors acting notices { machine with joins := machine.joins.modify join change } scene where
  size := mirrors.size
  tasks := mirrors.tasks
  tickets := mirrors.tickets
  watchers := fun is other member => by simpa using mirrors.watchers is other member
  joins := fun member => by simpa using mirrors.joins member
  busy := mirrors.busy
  awaits := by
    intro other goesOn waits
    obtain ⟨tolerant, next, state, stands, is, same, awaits⟩ := mirrors.awaits goesOn waits
    obtain ⟨sameKind, sameCount, unsettled⟩ := kept state
    by_cases changed : join = other
    · refine ⟨tolerant, next, change state, stands, ?_, sameKind.trans same, fun still => ?_⟩
      · simp [is, changed]
      · obtain ⟨unheard, bound, attends⟩ := awaits (unsettled still)
        refine ⟨unheard, sameCount ▸ bound, fun number => ?_⟩
        rw [sameKind]
        exact attends number
    · exact ⟨tolerant, next, state, stands, by simp [is, changed], same, awaits⟩

variable {ticket : Nat} {resumption : Resumption ρ}

/-- The wait of the walk is over; it goes on with a result that it may have. -/
theorem Mirrors.wakeWalk (mirrors : Mirrors none (pending ++ underway machine) machine scene)
    {join : Option Nat} (waits : machine.walk = .waiting ticket join resumption revoked)
    (accepts : Accepts (scene.ends .walk) result scene.walk) (off : Bool) :
    Mirrors none
      (pending ++ underway
        (({ machine with walk := .queued resumption result off }).push (.resume .walk)))
      (({ machine with walk := .queued resumption result off }).push (.resume .walk)) scene := by
  have stands := mirrors.walk nofun waits
  have woken : Mirrors none
      (pending ++ underway { machine with walk := .queued resumption result off })
      { machine with walk := .queued resumption result off } scene := by
    apply mirrors.setWalk (fun _ _ => nofun) rfl
    cases stands with
    | waiting rests given delivers => exact .queued rests (accepts_resumeResult rests accepts off)
  exact woken.push trivial

/-- A walk that is called off while it waits for loops that have ended learns of it later. -/
theorem Mirrors.markWalk (mirrors : Mirrors none notices machine scene) {join : Option Nat}
    (waits : machine.walk = .waiting ticket join resumption revoked) (off : Bool) :
    Mirrors none notices { machine with walk := .waiting ticket join resumption off } scene := by
  apply mirrors.putWalk fun _ _ => nofun
  · cases mirrors.walk nofun waits with
    | waiting rests given delivers => exact .waiting rests given delivers
  · exact fun goesOn awaited => mirrors.awaits goesOn (by rw [waits]; exact awaited)

/-- Calling off the walk leaves all tasks where they stand. -/
theorem Mirrors.revoke (mirrors : Mirrors none (pending ++ underway machine) machine scene) :
    Mirrors none (pending ++ underway machine.revoke) machine.revoke scene := by
  unfold Machine.revoke
  split
  · exact mirrors
  · next resumption result revoked is =>
      apply mirrors.setWalk (fun _ _ => nofun) rfl
      cases mirrors.walk nofun is with
      | queued rests accepts => exact .queued rests (rests.accepts_revoked (ends_revoked scene .walk))
  · next ticket resumption revoked is =>
      have dropped := mirrors.dropWait .walk ticket
      cases mirrors.walk nofun is with
      | waiting rests given delivers =>
          exact dropped.wakeWalk is (rests.accepts_revoked (ends_revoked scene .walk)) false
  · next ticket join resumption revoked is =>
      have called := mirrors.revokeAll
      dsimp only
      split
      · exact called.modifyJoin join fun _ => ⟨rfl, rfl, id⟩
      · exact called.markWalk ((revokeAll_frame machine).1.trans is) true

/-! ### Deliveries -/

variable {α : Type}

theorem deliverTo_eq_some {task queued : Rehearsal.Task α}
    (delivered : Machine.deliverTo task ticket result = some queued) :
    ∃ join resumption revoked, task = .waiting ticket join resumption revoked ∧
      queued = .queued resumption result revoked := by
  unfold Machine.deliverTo at delivered
  split at delivered
  · split at delivered
    · next current join resumption revoked same =>
        obtain rfl := beq_iff_eq.mp same
        exact ⟨join, resumption, revoked, rfl, (Option.some.inj delivered).symm⟩
    · cases delivered
  · cases delivered

/-- A task whose wait is over is queued. -/
theorem Mirrors.deliver
    (mirrors : Mirrors none (.deliver id ticket :: (pending ++ underway machine)) machine scene) :
    Mirrors none (pending ++ underway (machine.deliver id ticket (.ok ())))
      (machine.deliver id ticket (.ok ())) scene := by
  have shed := mirrors.sheds (sheds_cons _ fun _ _ => nofun)
  unfold Machine.deliver
  split
  · split
    · next walk delivered =>
        obtain ⟨join, resumption, revoked, waits, rfl⟩ := deliverTo_eq_some delivered
        cases mirrors.walk nofun waits with
        | waiting rests given delivers =>
            exact shed.wakeWalk waits (delivers (List.mem_cons_self ..)) revoked
    · exact shed
  · next number =>
      split
      · next queued delivered =>
          obtain ⟨⟨task, watchers⟩, found, delivered⟩ := Option.bind_eq_some_iff.mp delivered
          obtain ⟨join, resumption, revoked, rfl, rfl⟩ := deliverTo_eq_some delivered
          refine Mirrors.push (shed.requeue found rfl fun free standing stands => ?_) trivial
          cases mirrors.loop free found stands with
          | waiting rests given delivers =>
              exact ⟨rests, accepts_resumeResult rests (delivers (List.mem_cons_self ..)) revoked⟩
      · exact shed

/-! ### The end of the loops -/

/-- A wait hears only of loops that have ended, and counts them. -/
theorem Awaits.hear (awaits : Awaits (.loopEnded number join :: notices) loops join state) :
    ∃ result watchers, loops[number]? = some ⟨.ended result, watchers⟩ ∧
      ((state.tolerant = true ∨ ∃ step, result = .ok step) →
        Awaits notices loops join { state with missing := state.missing - 1 }) := by
  obtain ⟨unheard, bound, attends⟩ := awaits
  have attended := attends number
  rw [List.count_cons_self] at attended
  match found : loops[number]? with
  | none =>
      rw [found] at attended
      cases attended
  | some ⟨.queued resumption result revoked, watchers⟩ =>
      rw [found] at attended
      cases attended.2.1
  | some ⟨.waiting ticket wait resumption revoked, watchers⟩ =>
      rw [found] at attended
      cases attended.2.1
  | some ⟨.ended result, watchers⟩ =>
      rw [found] at attended
      refine ⟨result, watchers, rfl, fun fine => ?_⟩
      rcases attended with ⟨missing, once⟩ | ⟨-, impossible, -⟩
      · refine ⟨unheard.erase number, ?_, fun other => ?_⟩
        · rw [Finset.card_erase_of_mem missing]
          exact Nat.sub_le_sub_right bound 1
        · by_cases same : number = other
          · subst same
            rw [found]
            exact .inr ⟨Finset.notMem_erase _ _, Nat.succ_inj.mp once, fine⟩
          · have attendsOther := attends other
            have different : Notice.loopEnded number join ≠ .loopEnded other join :=
              fun equal => same (Notice.loopEnded.inj equal).1
            rw [List.count_cons_of_ne different] at attendsOther
            simpa [Finset.mem_erase, Ne.symm same] using attendsOther
      · cases impossible

/-- A wait that misses no loop has heard of all of them. -/
theorem Awaits.all_ended (awaits : Awaits notices loops join state) (complete : state.missing = 0)
    {loop : LoopTask} (found : loops[number]? = some loop) :
    ∃ result, loop.task = .ended result ∧ (state.tolerant = true ∨ ∃ step, result = .ok step) := by
  obtain ⟨unheard, bound, attends⟩ := awaits
  have empty : unheard = ∅ := Finset.card_eq_zero.mp (Nat.le_zero.mp (complete ▸ bound))
  have attended := attends number
  rw [found, empty] at attended
  obtain ⟨task, watchers⟩ := loop
  cases task with
  | queued resumption result revoked => exact absurd attended.1 (Finset.notMem_empty _)
  | waiting ticket wait resumption revoked => exact absurd attended.1 (Finset.notMem_empty _)
  | ended result =>
      rcases attended with ⟨impossible, -⟩ | ⟨-, -, fine⟩
      · exact absurd impossible (Finset.notMem_empty _)
      · exact ⟨result, rfl, fine⟩

/-- A notice of the end of a loop is gone, and the wait that it was for has another state. -/
theorem Mirrors.heard {now : JoinState}
    (mirrors : Mirrors none (.loopEnded number join :: notices) machine scene)
    (found : machine.joins[join]? = some state) (same : now.tolerant = state.tolerant)
    (counts : machine.isOver = false → joinOf? machine.walk = some join → now.settled = false →
      Awaits notices machine.loops join now) :
    Mirrors none notices { machine with joins := machine.joins.set join now } scene where
  size := mirrors.size
  tasks := fun free is stands => (mirrors.tasks free is stands).mono (fun _ _ ends => ends) le_rfl
    fun _ _ member => List.mem_cons_of_mem _ member
  tickets := fun member => mirrors.tickets (List.mem_cons_of_mem _ member)
  watchers := fun is other member => by simpa using mirrors.watchers is other member
  joins := fun member => by simpa using mirrors.joins (List.mem_cons_of_mem _ member)
  busy := nofun
  awaits := by
    intro other goesOn waits
    obtain ⟨tolerant, next, current, stands, is, kind, awaits⟩ := mirrors.awaits goesOn waits
    by_cases changed : join = other
    · subst changed
      obtain rfl := Option.some.inj (found.symm.trans is)
      have bound := (List.getElem?_eq_some_iff.mp found).1
      exact ⟨tolerant, next, now, stands, List.getElem?_set_self bound, same.trans kind,
        counts goesOn waits⟩
    · refine ⟨tolerant, next, current, stands, (List.getElem?_set_ne changed).trans is, kind, ?_⟩
      intro unsettled
      obtain ⟨unheard, bound, attends⟩ := awaits unsettled
      refine ⟨unheard, bound, fun heard => ?_⟩
      have different : Notice.loopEnded number join ≠ .loopEnded heard other :=
        fun equal => changed (Notice.loopEnded.inj equal).2
      rw [← List.count_cons_of_ne different]
      exact attends heard

/-- A wait for the loops is settled: the walk, if it is in that wait, goes on. -/
theorem Mirrors.settleJoin
    (settled : Mirrors none (pending ++ underway machine)
      { machine with joins := machine.joins.modify join fun state => { state with settled := true } }
      scene)
    (accepts : joinOf? machine.walk = some join → Accepts (scene.ends .walk) result scene.walk) :
    Mirrors none (pending ++ underway (machine.settleJoin join result))
      (machine.settleJoin join result) scene := by
  unfold Machine.settleJoin
  dsimp only
  split
  · next ticket current resumption revoked waits =>
      split
      · next same =>
          obtain rfl := beq_iff_eq.mp same
          have delivered : Machine.deliverTo machine.walk ticket result =
              some (.queued resumption result revoked) := by
            rw [waits]
            simp [Machine.deliverTo]
          have told : Mirrors none
              (pending ++ underway { machine with
                joins := machine.joins.modify current fun state => { state with settled := true } })
              { machine with
                joins := machine.joins.modify current fun state => { state with settled := true } }
              scene := settled
          unfold Machine.deliver
          simp only [delivered]
          exact told.wakeWalk waits (accepts (by rw [waits]; rfl)) revoked
      · exact settled
  · exact settled

/-- The walk may hear that all loops have ended. -/
theorem Mirrors.joinEnds (mirrors : Mirrors none notices machine scene)
    (awaits : Awaits later machine.loops join state) (complete : state.missing = 0) :
    JoinEnds state.tolerant scene.loops (.ok ()) := by
  intro standing member
  obtain ⟨number, stands⟩ := List.mem_iff_getElem?.mp member
  have bound : number < machine.loops.length := by
    rw [mirrors.size]
    exact (List.getElem?_eq_some_iff.mp stands).1
  have found := List.getElem?_eq_getElem bound
  obtain ⟨result, is, fine⟩ := awaits.all_ended complete found
  have fits := mirrors.loop nofun found stands
  rw [is] at fits
  cases fits with
  | ended result => exact ⟨result, rfl, fine⟩

/-- The walk may hear that a loop has failed. -/
theorem Mirrors.joinEnds_error {interruption : Interruption}
    (mirrors : Mirrors none notices machine scene)
    (failed : (machine.loops[number]?.bind (·.task.result?)) = some (.error interruption)) :
    JoinEnds false scene.loops (.error interruption) := by
  obtain ⟨⟨task, watchers⟩, found, result⟩ := Option.bind_eq_some_iff.mp failed
  have bound : number < scene.loops.length := by
    rw [← mirrors.size]
    exact (List.getElem?_eq_some_iff.mp found).1
  have stands := List.getElem?_eq_getElem bound
  have fits := mirrors.loop nofun found stands
  cases task with
  | ended ending =>
      obtain rfl : ending = .error interruption := Option.some.inj result
      generalize scene.loops[number] = standing at stands fits
      cases fits with
      | ended => exact .inr ⟨rfl, List.mem_of_getElem? stands⟩
  | queued resumption answer revoked => cases result
  | waiting ticket join resumption revoked => cases result

theorem modify_set (list : List α) (place : Nat) (value : α) (change : α → α) :
    (list.set place value).modify place change = list.set place (change value) := by
  apply List.ext_getElem?
  intro other
  rw [List.getElem?_modify, List.getElem?_set, List.getElem?_set]
  split
  · split <;> simp
  · simp [*]

/-- A wait for the loops hears that one of them has ended. -/
theorem Mirrors.hearLoop
    (mirrors : Mirrors none (.loopEnded number join :: (pending ++ underway machine)) machine scene)
    (goesOn : machine.isOver = false) :
    Mirrors none (pending ++ underway (machine.hearLoop number join)) (machine.hearLoop number join)
      scene := by
  unfold Machine.hearLoop
  split
  · next absent =>
      have bound := mirrors.joins (List.mem_cons_self ..)
      exact absurd bound (Nat.not_lt.mpr (List.getElem?_eq_none_iff.mp absent))
  · next state found =>
      have settles : Mirrors none (pending ++ underway machine)
          { machine with
            joins := machine.joins.set join
              { state with missing := state.missing - 1, settled := true } } scene :=
        mirrors.heard found rfl fun _ _ impossible => nomatch impossible
      have waiting (waits : joinOf? machine.walk = some join) (unsettled : state.settled = false) :
          (∃ next, scene.walk = .waiting (.join state.tolerant) next) ∧
            Awaits (.loopEnded number join :: (pending ++ underway machine)) machine.loops join state := by
        obtain ⟨tolerant, next, current, stands, is, kind, awaits⟩ := mirrors.awaits goesOn waits
        obtain rfl := Option.some.inj (found.symm.trans is)
        subst kind
        exact ⟨⟨next, stands⟩, awaits unsettled⟩
      dsimp only
      split
      · next settled =>
          exact mirrors.heard found rfl fun _ _ unsettled => nomatch settled.symm.trans unsettled
      · next notSettled =>
          have unsettled : state.settled = false := Bool.eq_false_iff.mpr notSettled
          split
          · next interruption failed intolerant =>
              apply Mirrors.settleJoin
              · rw [modify_set]
                exact settles
              · intro waits
                obtain ⟨⟨next, stands⟩, -⟩ := waiting waits unsettled
                rw [stands, intolerant]
                exact mirrors.joinEnds_error failed
          · next tolerates =>
              have counts (waits : joinOf? machine.walk = some join) :
                  Awaits (pending ++ underway machine) machine.loops join
                    { state with missing := state.missing - 1 } := by
                obtain ⟨-, awaits⟩ := waiting waits unsettled
                obtain ⟨result, watchers, isEnded, count⟩ := awaits.hear
                apply count
                cases result with
                | ok step => exact .inr ⟨step, rfl⟩
                | error interruption =>
                    have failed : (machine.loops[number]?.bind (·.task.result?)) =
                        some (.error interruption) := by
                      rw [isEnded]
                      rfl
                    exact .inl (Bool.ne_false_iff.mp (tolerates interruption failed))
              split
              · next complete =>
                  apply Mirrors.settleJoin
                  · rw [modify_set]
                    exact settles
                  · intro waits
                    obtain ⟨⟨next, stands⟩, -⟩ := waiting waits unsettled
                    rw [stands]
                    split
                    · exact .inl rfl
                    · have ended := mirrors.joinEnds (counts waits) (beq_iff_eq.mp complete)
                      exact ended
              · exact mirrors.heard found rfl fun _ waits _ => counts waits

/-! ### Orders -/

/-- The loops that an order starts. -/
def startedByOrder (registry : Catalog.Registry) : Command → List (Standing LoopStep)
  | .spawn index block => [.ready (beginLoop registry index block)]
  | .revokeLoops => []

theorem getElem?_snoc {list : List α} {value found : α} {place : Nat}
    (is : (list ++ [value])[place]? = some found) :
    list[place]? = some found ∨ (place = list.length ∧ found = value) := by
  grind

theorem Mirrors.walk_queued (mirrors : Mirrors (some .walk) notices machine scene) :
    ∃ resumption result revoked, machine.walk = .queued resumption result revoked := by
  obtain ⟨resumption, result, revoked, is⟩ := mirrors.busy rfl
  exact ⟨resumption, result, revoked, Option.some.inj is⟩

/-- The walk has a loop started. -/
theorem Mirrors.spawn (mirrors : Mirrors (some .walk) notices machine scene)
    (activity : RunActivity LoopStep) :
    Mirrors (some .walk) notices
      { machine with loops := machine.loops ++ [⟨.begin activity, []⟩] }
      { scene with loops := scene.loops ++ [.ready activity] } where
  size := by simp [mirrors.size]
  tasks := by
    intro id task standing free is stands
    cases id with
    | walk => exact absurd rfl free
    | loop number =>
        have size := mirrors.size
        obtain ⟨loop, found, rfl⟩ := Option.map_eq_some_iff.mp is
        rcases getElem?_snoc found with old | ⟨atEnd, rfl⟩
        · have bound := (List.getElem?_eq_some_iff.mp old).1
          rcases getElem?_snoc stands with older | ⟨newer, -⟩
          · exact mirrors.loop free old older
          · omega
        · rcases getElem?_snoc stands with older | ⟨-, rfl⟩
          · have bound := (List.getElem?_eq_some_iff.mp older).1
            omega
          · exact .queued (.begin activity) (.inl rfl)
  tickets := mirrors.tickets
  watchers := by
    intro number loop found
    rcases getElem?_snoc found with old | ⟨-, rfl⟩
    · exact mirrors.watchers old
    · exact nofun
  joins := mirrors.joins
  busy := by
    intro id isActing
    cases isActing
    exact mirrors.busy rfl
  awaits := by
    intro join goesOn waits
    obtain ⟨resumption, result, revoked, queued⟩ := mirrors.walk_queued
    rw [queued] at waits
    cases waits

/-- Orders call off the loops and, if they are the walk's, start new ones. -/
theorem Mirrors.carryOut {registry : Catalog.Registry} (orders : List Command)
    (mirrors : Mirrors acting (pending ++ underway machine) machine scene)
    (starts : acting = some .walk ∨ orders.flatMap (startedByOrder registry) = []) :
    Mirrors acting (pending ++ underway (orders.foldl (Machine.carryOut registry) machine))
      (orders.foldl (Machine.carryOut registry) machine)
      { scene with loops := scene.loops ++ orders.flatMap (startedByOrder registry) } := by
  induction orders generalizing machine scene with
  | nil => simpa using mirrors
  | cons order rest hypothesis =>
      rw [List.flatMap_cons, ← List.append_assoc]
      cases order with
      | revokeLoops =>
          rw [startedByOrder, List.append_nil]
          exact hypothesis mirrors.revokeAll starts
      | spawn index block =>
          obtain rfl : acting = some .walk := by simpa [startedByOrder] using starts
          have grown := mirrors.spawn (beginLoop registry index block)
          have told : Mirrors (some .walk)
              (pending ++ underway (machine.carryOut registry (.spawn index block))) _ _ :=
            Mirrors.push grown trivial
          exact hypothesis told (.inl rfl)

theorem carryOut_world (registry : Catalog.Registry) (orders : List Command) (machine : Machine ρ) :
    (orders.foldl (Machine.carryOut registry) machine).world = machine.world := by
  induction orders generalizing machine with
  | nil => rfl
  | cons order rest hypothesis =>
      rw [List.foldl_cons, hypothesis]
      cases order with
      | revokeLoops => exact (revokeAll_frame machine).2
      | spawn index block => rfl

/-! ### Waits -/

/-- Put a task in a state. -/
def setTask (machine : Machine ρ) : (id : TaskId) → Rehearsal.Task (id.Result ρ) → Machine ρ
  | .walk, task => { machine with walk := task }
  | .loop number, task => machine.setLoop number task

/-- A task that was at work begins to wait, though not for the loops if it is the walk. -/
theorem Mirrors.seat {task : Rehearsal.Task (id.Result ρ)}
    (mirrors : Mirrors (some id) notices machine scene)
    (stands : scene.standing? id = some standing) (running : task.isEnded = false)
    (free : id = .walk → joinOf? task = none)
    (fits : Matches (scene.ends id) machine.tickets notices id task standing) :
    Mirrors none notices (setTask machine id task) scene := by
  cases id with
  | walk =>
      obtain rfl := Option.some.inj stands
      apply mirrors.setWalk _ (free rfl) fits
      intro other different same
      exact different (Option.some.inj same).symm
  | loop number =>
      obtain ⟨resumption, result, revoked, is⟩ := mirrors.busy rfl
      obtain ⟨loop, found, queued⟩ := Option.map_eq_some_iff.mp is
      apply mirrors.setLoop found (by rw [queued]; rfl) running
      · intro other different _ same
        exact different (Option.some.inj same).symm
      · exact nofun
      · intro _ other found
        obtain rfl := Option.some.inj (stands.symm.trans found)
        exact fits

/-- A ticket is given out, and something may be delivered for it. -/
theorem Mirrors.counted (mirrors : Mirrors acting notices machine scene)
    (delivers : ∀ id ticket, .deliver id ticket ∈ later →
      .deliver id ticket ∈ notices ∨ ticket = machine.tickets)
    (ends : ∀ number join,
      later.count (.loopEnded number join) = notices.count (.loopEnded number join)) :
    Mirrors acting later { machine with tickets := machine.tickets + 1 } scene where
  size := mirrors.size
  tasks := by
    intro id task standing free is stands
    apply (mirrors.tasks free is stands).mono (fun _ _ ends => ends) (Nat.le_succ _)
    intro ticket given member
    rcases delivers id ticket member with old | rfl
    · exact old
    · exact absurd given (Nat.lt_irrefl _)
  tickets := by
    intro id ticket member
    rcases delivers id ticket member with old | rfl
    · exact (mirrors.tickets old).trans (Nat.lt_succ_self _)
    · exact Nat.lt_succ_self _
  watchers := mirrors.watchers
  joins := by
    intro number join member
    have older : .loopEnded number join ∈ notices := by
      rw [← List.count_pos_iff] at member ⊢
      rwa [← ends]
    exact mirrors.joins older
  busy := mirrors.busy
  awaits := by
    intro join goesOn waits
    obtain ⟨tolerant, next, state, stands, is, same, awaits⟩ := mirrors.awaits goesOn waits
    refine ⟨tolerant, next, state, stands, is, same, fun unsettled => ?_⟩
    unfold Awaits
    simp only [ends]
    exact awaits unsettled

theorem Mirrors.ticketed (mirrors : Mirrors acting notices machine scene) (id : TaskId)
    (same : later.Perm (.deliver id machine.tickets :: notices)) :
    Mirrors acting later { machine with tickets := machine.tickets + 1 } scene := by
  apply mirrors.counted
  · intro other ticket member
    rcases List.mem_cons.mp (same.mem_iff.mp member) with new | old
    · exact .inr (Notice.deliver.inj new).2
    · exact .inl old
  · intro number join
    have different : Notice.deliver id machine.tickets ≠ .loopEnded number join := nofun
    rw [same.count_eq, List.count_cons_of_ne different]

@[simp] theorem task_watchedBy (loop : LoopTask) (join : Nat) :
    (loop.watchedBy join).task = loop.task := by
  unfold LoopTask.watchedBy
  split <;> rfl

theorem mem_watchers_watchedBy {loop : LoopTask} (member : other ∈ (loop.watchedBy join).watchers) :
    other ∈ loop.watchers ∨ other = join := by
  unfold LoopTask.watchedBy at member
  split at member
  · exact .inl member
  · simpa using member

theorem mem_endedLoops :
    number ∈ machine.endedLoops ↔
      ∃ loop, machine.loops[number]? = some loop ∧ loop.task.isEnded = true := by
  unfold Machine.endedLoops
  rw [List.mem_filter, List.mem_range]
  constructor
  · rintro ⟨bound, ended⟩
    rw [List.getElem?_eq_getElem bound] at ended
    exact ⟨_, List.getElem?_eq_getElem bound, ended⟩
  · rintro ⟨loop, found, ended⟩
    refine ⟨(List.getElem?_eq_some_iff.mp found).1, ?_⟩
    rw [found]
    exact ended

theorem count_endedLoops (machine : Machine ρ) (number join : Nat) :
    (machine.endedLoops.map (Notice.loopEnded · join)).count (.loopEnded number join) =
      if number ∈ machine.endedLoops then 1 else 0 := by
  have injective : Function.Injective (Notice.loopEnded · join) :=
    fun _ _ same => (Notice.loopEnded.inj same).1
  rw [List.count_map_of_injective _ _ injective]
  exact List.Nodup.count (List.nodup_range.filter _)

/-- The machine after a task has begun to wait for the loops. -/
def joining (machine : Machine ρ) (tolerant : Bool) : Machine ρ :=
  { machine with
    tickets := machine.tickets + 1
    joins := machine.joins ++ [{ tolerant := tolerant, missing := machine.loops.length }]
    loops := machine.loops.map (·.watchedBy machine.joins.length)
    ready := machine.ready ++ machine.endedLoops.map (.loopEnded · machine.joins.length) }

theorem count_joining (pending : List Notice) (machine : Machine ρ) (tolerant : Bool)
    (number join : Nat) :
    (pending ++ underway (joining machine tolerant)).count (.loopEnded number join) =
      (pending ++ underway machine).count (.loopEnded number join) +
        if join = machine.joins.length ∧ number ∈ machine.endedLoops then 1 else 0 := by
  have new : (machine.endedLoops.map (Notice.loopEnded · machine.joins.length)).count
      (.loopEnded number join) =
        if join = machine.joins.length ∧ number ∈ machine.endedLoops then 1 else 0 := by
    by_cases same : join = machine.joins.length
    · subst same
      simpa using count_endedLoops machine number machine.joins.length
    · rw [if_neg fun both => same both.1, List.count_eq_zero]
      simp [Ne.symm same]
  simp only [underway, joining, List.count_append, new]
  omega

theorem task?_joining (machine : Machine ρ) (tolerant : Bool) (id : TaskId) :
    task? (joining machine tolerant) id = task? machine id := by
  cases id with
  | walk => rfl
  | loop number => simp [task?, joining, Function.comp_def]

theorem length_joins_joining (machine : Machine ρ) (tolerant : Bool) :
    (joining machine tolerant).joins.length = machine.joins.length + 1 := by
  simp [joining]

theorem getElem?_joining (machine : Machine ρ) (tolerant : Bool) (number : Nat) :
    (joining machine tolerant).loops[number]? =
      machine.loops[number]?.map (·.watchedBy machine.joins.length) := by
  simp [joining]

/-- A second wait for the loops does not bear on the first one. -/
theorem attends_watchedBy {tolerant : Bool} {voices : Nat} {unheard : Prop}
    {loop : Option LoopTask} (attends : Attends tolerant join voices unheard loop)
    (different : other ≠ join) :
    Attends tolerant join voices unheard (loop.map (·.watchedBy other)) := by
  match loop with
  | none => exact attends
  | some ⟨.ended result, watchers⟩ => exact attends
  | some ⟨.queued resumption result revoked, watchers⟩ =>
      obtain ⟨missing, silent, once⟩ := attends
      exact ⟨missing, silent, by simpa [List.count_append, different] using once⟩
  | some ⟨.waiting ticket wait resumption revoked, watchers⟩ =>
      obtain ⟨missing, silent, once⟩ := attends
      exact ⟨missing, silent, by simpa [List.count_append, different] using once⟩

/-- A task begins to wait for the loops: those that run are watched, and of the others there are
notices. -/
theorem Mirrors.startJoin (mirrors : Mirrors acting (pending ++ underway machine) machine scene)
    (tolerant : Bool) :
    Mirrors acting (pending ++ underway (joining machine tolerant)) (joining machine tolerant)
      scene where
  size := by simpa [joining] using mirrors.size
  tasks := by
    intro id task standing free is stands
    rw [task?_joining] at is
    apply (mirrors.tasks free is stands).mono (fun _ _ ends => ends) (Nat.le_succ _)
    intro ticket _ member
    simpa [underway, joining] using member
  tickets := by
    intro id ticket member
    have old : .deliver id ticket ∈ pending ++ underway machine := by
      simpa [underway, joining] using member
    exact (mirrors.tickets old).trans (Nat.lt_succ_self _)
  watchers := by
    intro number loop is join member
    rw [getElem?_joining] at is
    obtain ⟨before, was, rfl⟩ := Option.map_eq_some_iff.mp is
    rw [length_joins_joining]
    rcases mem_watchers_watchedBy member with old | rfl
    · exact (mirrors.watchers was join old).trans (Nat.lt_succ_self _)
    · exact Nat.lt_succ_self _
  joins := by
    intro number join member
    rw [← List.count_pos_iff, count_joining] at member
    rw [length_joins_joining]
    split at member
    · next new =>
        exact new.1 ▸ Nat.lt_succ_self _
    · exact (mirrors.joins (List.count_pos_iff.mp member)).trans (Nat.lt_succ_self _)
  busy := by
    intro id isActing
    rw [task?_joining]
    exact mirrors.busy isActing
  awaits := by
    intro join goesOn waits
    obtain ⟨kind, next, state, stands, is, same, awaits⟩ := mirrors.awaits goesOn waits
    have bound := (List.getElem?_eq_some_iff.mp is).1
    refine ⟨kind, next, state, stands, (List.getElem?_append_left bound).trans is, same, ?_⟩
    intro unsettled
    obtain ⟨unheard, few, attends⟩ := awaits unsettled
    refine ⟨unheard, few, fun number => ?_⟩
    rw [count_joining, if_neg fun new => absurd new.1 (Nat.ne_of_lt bound), getElem?_joining]
    exact attends_watchedBy (attends number) (Nat.ne_of_gt bound)

/-- At first a wait for the loops misses all of them. -/
theorem Mirrors.awaits_joining
    (mirrors : Mirrors acting (pending ++ underway machine) machine scene) (tolerant : Bool) :
    Awaits (pending ++ underway (joining machine tolerant))
      (joining machine tolerant).loops machine.joins.length
      { tolerant := tolerant, missing := machine.loops.length } := by
  refine ⟨Finset.range machine.loops.length, by simp, fun number => ?_⟩
  have silent : (pending ++ underway machine).count (.loopEnded number machine.joins.length) = 0 := by
    rw [List.count_eq_zero]
    exact fun member => absurd (mirrors.joins member) (Nat.lt_irrefl _)
  rw [count_joining, silent, getElem?_joining, Finset.mem_range]
  cases found : machine.loops[number]? with
  | none =>
      have absent : number ∉ machine.endedLoops := by
        rw [mem_endedLoops]
        rintro ⟨loop, is, -⟩
        cases found.symm.trans is
      rw [if_neg fun both => absent both.2]
      rfl
  | some loop =>
      have bound := (List.getElem?_eq_some_iff.mp found).1
      cases ended : loop.task.isEnded with
      | true =>
          have member := mem_endedLoops.mpr ⟨loop, found, ended⟩
          rw [if_pos ⟨rfl, member⟩, Option.map_some, LoopTask.watchedBy, if_pos ended]
          obtain ⟨task, watchers⟩ := loop
          cases task with
          | ended result => exact .inl ⟨bound, rfl⟩
          | _ => cases ended
      | false =>
          have absent : number ∉ machine.endedLoops := by
            rw [mem_endedLoops]
            rintro ⟨other, is, isEnded⟩
            obtain rfl := Option.some.inj (found.symm.trans is)
            cases ended.symm.trans isEnded
          have unwatched : loop.watchers.count machine.joins.length = 0 := by
            rw [List.count_eq_zero]
            exact fun watched => absurd (mirrors.watchers found _ watched) (Nat.lt_irrefl _)
          rw [if_neg fun both => absent both.2, Option.map_some,
            attends_running (by rw [task_watchedBy]; exact ended)]
          refine ⟨bound, rfl, ?_⟩
          simp [LoopTask.watchedBy, ended, unwatched]

/-- The walk begins to wait for the loops. -/
theorem Mirrors.seatJoin {next : Except Interruption Unit → RunActivity ρ}
    (mirrors : Mirrors (some .walk) notices machine scene)
    (stands : scene.walk = .waiting (.join state.tolerant) next)
    (found : machine.joins[join]? = some state) (awaits : Awaits notices machine.loops join state)
    (fits : Matches (scene.ends .walk) machine.tickets notices .walk
      (.waiting ticket (some join) resumption false) scene.walk) :
    Mirrors none notices
      { machine with walk := .waiting ticket (some join) resumption false } scene := by
  apply mirrors.putWalk _ fits
  · intro other _ waits
    obtain rfl := Option.some.inj waits
    exact ⟨_, next, state, stands, found, rfl, fun _ => awaits⟩
  · intro other different same
    exact different (Option.some.inj same).symm

/-- A task that was at work has to wait. -/
theorem Mirrors.suspend {wait : Wait} {resumption : Resumption (id.Result ρ)}
    (mirrors : Mirrors (some id) (pending ++ underway machine) machine scene)
    (stands : scene.standing? id = some standing) (rests : Rests resumption standing)
    (fits : Fits standing wait) :
    Mirrors none
      (pending ++ underway (setTask (machine.suspend id wait resumption).2 id
        (machine.suspend id wait resumption).1))
      (setTask (machine.suspend id wait resumption).2 id (machine.suspend id wait resumption).1)
      scene := by
  have same (task : Rehearsal.Task (id.Result ρ)) (machine : Machine ρ) :
      underway (setTask machine id task) = underway machine := by
    cases id <;> rfl
  rw [same]
  have undelivered {notices : List Notice}
      (old : .deliver id machine.tickets ∈ notices →
        .deliver id machine.tickets ∈ pending ++ underway machine) :
      .deliver id machine.tickets ∉ notices :=
    fun member => absurd (mirrors.tickets (old member)) (Nat.lt_irrefl _)
  cases wait with
  | pass =>
      have counted : Mirrors (some id)
          (pending ++ underway { machine with tickets := machine.tickets + 1 })
          { machine with tickets := machine.tickets + 1 } scene :=
        mirrors.counted (fun _ _ => .inl) fun _ _ => rfl
      have queued : Mirrors (some id) _
          (({ machine with tickets := machine.tickets + 1 }).push (.resume id)) scene :=
        counted.push trivial
      exact queued.seat stands rfl (fun _ => rfl) (.queued rests (fits _))
  | timer seconds =>
      have timed : Mirrors (some id)
          (pending ++ underway (machine.suspend id (.timer seconds) resumption).2)
          (machine.suspend id (.timer seconds) resumption).2 scene ∧
          (machine.suspend id (.timer seconds) resumption).2.tickets = machine.tickets + 1 := by
        unfold Machine.suspend Machine.addTimer
        dsimp only
        split
        · refine ⟨Mirrors.around (mirrors.ticketed id ?_) _ _ _, rfl⟩
          simpa [underway] using List.perm_append_singleton _ (pending ++ underway machine)
        · exact ⟨mirrors.counted (fun _ _ => .inl) fun _ _ => rfl, rfl⟩
      refine timed.1.seat stands rfl (fun _ => rfl) (.waiting rests ?_ fun _ => fits _)
      rw [timed.2]
      exact Nat.lt_succ_self _
  | handover =>
      have middle : (pending ++ underway (machine.suspend id .handover resumption).2).Perm
          (.deliver id machine.tickets :: (pending ++ underway machine)) := by
        simp only [underway, Machine.suspend, Machine.push, List.append_assoc, List.singleton_append]
        rw [← List.append_assoc, ← List.append_assoc]
        exact List.perm_middle
      have handed : Mirrors (some id) _ (machine.suspend id .handover resumption).2 scene :=
        (mirrors.ticketed id middle).around _ _ _
      exact handed.seat stands rfl (fun _ => rfl)
        (.waiting rests (Nat.lt_succ_self _) fun _ => fits _)
  | never =>
      have counted : Mirrors (some id) (pending ++ underway machine)
          { machine with tickets := machine.tickets + 1 } scene :=
        mirrors.counted (fun _ _ => .inl) fun _ _ => rfl
      exact counted.seat stands rfl (fun _ => rfl)
        (.waiting rests (Nat.lt_succ_self _) fun member => absurd member (undelivered fun old => old))
  | loops tolerant =>
      obtain ⟨next, rfl⟩ := fits
      have joined := mirrors.startJoin tolerant
      have waits : Matches (scene.ends id) (machine.tickets + 1)
          (pending ++ underway (joining machine tolerant)) id
          (.waiting machine.tickets (some machine.joins.length) resumption false)
          (.waiting (.join tolerant) next) := by
        refine .waiting rests (Nat.lt_succ_self _) fun member => absurd member (undelivered ?_)
        intro member
        simpa [underway, joining] using member
      cases id with
      | walk =>
          have here : scene.walk = .waiting (.join tolerant) next := Option.some.inj stands
          exact joined.seatJoin here List.getElem?_concat_length (mirrors.awaits_joining tolerant)
            (here ▸ waits)
      | loop number => exact joined.seat stands rfl nofun waits

/-! ### Ends -/

theorem count_loopEnded (watchers : List Nat) (number other join : Nat) :
    (watchers.map (Notice.loopEnded number ·)).count (.loopEnded other join) =
      if number = other then watchers.count join else 0 := by
  by_cases same : number = other
  · subst same
    have injective : Function.Injective (Notice.loopEnded number ·) :=
      fun _ _ same => (Notice.loopEnded.inj same).2
    rw [if_pos rfl, List.count_map_of_injective _ _ injective]
  · rw [if_neg same, List.count_eq_zero]
    simp [same]

/-- A loop ends, and a wait that watches it is told. -/
theorem Awaits.ends {loop : LoopTask} {outcome : Except Interruption LoopStep}
    (awaits : Awaits notices machine.loops join state)
    (found : machine.loops[number]? = some loop) (running : loop.task.isEnded = false)
    (counts : ∀ other, later.count (.loopEnded other join) =
      notices.count (.loopEnded other join) +
        if number = other then loop.watchers.count join else 0) :
    Awaits later (machine.setLoop number (.ended outcome)).loops join state := by
  apply awaits.change
  · intro other different
    rw [counts, if_neg different]
    exact ⟨rfl, getElem?_setLoop_ne different _⟩
  · intro unheard attends
    rw [found, attends_running running] at attends
    obtain ⟨missing, silent, once⟩ := attends
    rw [counts, getElem?_setLoop_self found, if_pos rfl, silent, once]
    exact .inl ⟨missing, rfl⟩

/-- A loop that was at work has ended; the waits that watch it are told. -/
theorem Mirrors.endLoop {outcome : Except Interruption LoopStep}
    (mirrors : Mirrors (some (.loop number)) (pending ++ underway machine) machine scene)
    (stands : scene.loops[number]? = some (.ended outcome)) :
    Mirrors none (pending ++ underway (machine.endLoop number outcome))
      (machine.endLoop number outcome) scene := by
  obtain ⟨resumption, result, revoked, is⟩ := mirrors.busy rfl
  obtain ⟨⟨task, watchers⟩, found, queued⟩ := Option.map_eq_some_iff.mp is
  obtain rfl : task = .queued resumption result revoked := queued
  have ends : machine.endLoop number outcome =
      { machine.setLoop number (.ended outcome) with
        ready := machine.ready ++ watchers.map (.loopEnded number ·) } := by
    unfold Machine.endLoop
    rw [found]
  have counts (other join : Nat) :
      (pending ++ underway (machine.endLoop number outcome)).count (.loopEnded other join) =
        (pending ++ underway machine).count (.loopEnded other join) +
          if number = other then watchers.count join else 0 := by
    rw [ends, ← count_loopEnded]
    simp only [underway, Machine.setLoop, Machine.modifyLoop, List.count_append]
    omega
  have delivers (id : TaskId) (ticket : Nat)
      (member : .deliver id ticket ∈ pending ++ underway (machine.endLoop number outcome)) :
      .deliver id ticket ∈ pending ++ underway machine := by
    rw [ends] at member
    simpa [underway, Machine.setLoop, Machine.modifyLoop] using member
  have joins (other join : Nat)
      (member : .loopEnded other join ∈ pending ++ underway (machine.endLoop number outcome)) :
      join < machine.joins.length := by
    rw [← List.count_pos_iff, counts] at member
    by_cases old : .loopEnded other join ∈ pending ++ underway machine
    · exact mirrors.joins old
    · rw [List.count_eq_zero.mpr old, Nat.zero_add] at member
      split at member
      · exact mirrors.watchers found join (List.count_pos_iff.mp member)
      · cases member
  generalize pending ++ underway (machine.endLoop number outcome) = told at counts delivers joins ⊢
  rw [ends]
  refine mirrors.putLoop _ found ?_ nofun ?_ delivers joins ?_
  · intro id different _ same
    exact different (Option.some.inj same).symm
  · intro _ standing here
    obtain rfl := Option.some.inj (stands.symm.trans here)
    exact .ended outcome
  · exact fun join state awaits => awaits.ends found rfl (counts · join)

end Mirrors

end InputScript.Interleaving
