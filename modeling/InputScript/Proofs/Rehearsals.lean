/-
Module: InputScript.Proofs.Rehearsals
Purpose: Every rehearsal is a run.  Each notice that the machine attends to is a row of steps of the
  run, or none, so that at all times the machine is in a state that the run can reach in some order
  of its turns.
Main exports: Shows, attend_steps, run_steps, rehearse_steps
-/
import InputScript.Proofs.Mirror
import InputScript.Rehearsal.Plan

namespace InputScript.Interleaving

open Catalog Run Rehearsal

section Turn

variable {ρ : Type} {registry : Registry} {rules : Rules} {pending : List Notice}
  {machine : Machine ρ} {scene : Scene ρ}

/-! ### The world -/

/-- How often each action was called in a run. -/
def tally (history : List (TaskId × RunExchange)) : Dictionary Nat :=
  history.foldl (fun calls entry => countCall calls entry.2) []

/-- Whether the world of a machine is the one of a scene. -/
structure Shows (world : World) (scene : Scene ρ) : Prop where
  signal : world.signal = scene.signal
  loops : world.loops = scene.loops.length
  commands : world.commands = []
  calls : world.calls = tally scene.history

variable {id : TaskId} {exchanges : List RunExchange}

theorem history_after {signal : Bool} {later : Standing (id.Result ρ)} :
    (scene.after registry exchanges signal id later).history =
      scene.history ++ exchanges.map (id, ·) := by
  cases id <;> rfl

theorem Shows.after {world after : World} {later : Standing (id.Result ρ)}
    (shows : Shows world scene) (charges : Charges registry world exchanges after) :
    Shows { after with commands := [] } (scene.after registry exchanges after.signal id later) where
  signal := Scene.signal_after.symm
  loops := by
    rw [Scene.length_loops_after, ← shows.loops]
    exact charges.loops
  commands := rfl
  calls := by
    rw [history_after, tally, List.foldl_append, ← tally, ← shows.calls, List.foldl_map]
    exact charges.calls

/-! ### One task -/

theorem startedBy_eq (registry : Registry) (exchange : RunExchange) :
    startedBy registry exchange = (ordersOf exchange).flatMap (startedByOrder registry) := by
  unfold startedBy ordersOf
  cases exchange.request <;> rfl

variable {α : Type}

theorem Rests.not_isActive {resumption : Resumption α} {standing : Standing α}
    (rests : Rests resumption standing) : ¬ standing.IsActive := by
  cases rests <;> exact nofun

theorem Rests.not_ended {resumption : Resumption α} {standing : Standing α}
    (rests : Rests resumption standing) (result : Except Interruption α) :
    standing ≠ .ended result := by
  cases rests <;> exact nofun

variable {notices : List Notice}

theorem Matches.not_isActive {ends : Bool → Except Interruption Unit → Prop} {tickets : Nat}
    {task : Rehearsal.Task α} {standing : Standing α}
    (fits : Matches ends tickets notices id task standing) :
    ¬ standing.IsActive := by
  cases fits with
  | queued rests accepts => exact rests.not_isActive
  | waiting rests given delivers => exact rests.not_isActive
  | ended result => exact nofun

theorem Mirrors.spares (mirrors : Mirrors none notices machine scene) (id : TaskId) :
    scene.Spares id := by
  intro other standing _ stands
  cases other with
  | walk => exact (mirrors.tasks nofun rfl stands).not_isActive
  | loop number =>
      have bound : number < machine.loops.length := by
        rw [mirrors.size]
        exact Scene.number_lt stands
      exact (mirrors.loop nofun (List.getElem?_eq_getElem bound) stands).not_isActive

theorem Mirrors.isIdle (mirrors : Mirrors none notices machine scene) :
    scene.IsIdle := by
  refine ⟨mirrors.spares (.loop 0) .walk _ nofun rfl, fun loop member => ?_⟩
  obtain ⟨number, stands⟩ := List.mem_iff_getElem?.mp member
  exact mirrors.spares .walk (.loop number) loop nofun stands

theorem Mirrors.standing (mirrors : Mirrors none notices machine scene)
    {task : Rehearsal.Task (id.Result ρ)} (is : task? machine id = some task) :
    ∃ standing, scene.standing? id = some standing := by
  cases id with
  | walk => exact ⟨_, rfl⟩
  | loop number =>
      obtain ⟨loop, found, -⟩ := Option.map_eq_some_iff.mp is
      have bound : number < scene.loops.length := by
        rw [← mirrors.size]
        exact (List.getElem?_eq_some_iff.mp found).1
      exact ⟨_, List.getElem?_eq_getElem bound⟩

variable {result : Except Interruption Unit}

/-- A task that is queued goes to work. -/
theorem Mirrors.act (mirrors : Mirrors none notices machine scene)
    {resumption : Resumption (id.Result ρ)} {revoked : Bool}
    (queued : task? machine id = some (.queued resumption result revoked)) :
    Mirrors (some id) notices machine scene where
  size := mirrors.size
  tasks := fun _ => mirrors.tasks nofun
  tickets := mirrors.tickets
  watchers := mirrors.watchers
  joins := mirrors.joins
  busy := fun same => by
    cases same
    exact ⟨resumption, result, revoked, queued⟩
  awaits := mirrors.awaits

/-- The end of a wait for the loops stays as it is when a loop that runs moves on. -/
theorem JoinEnds.set {tolerant : Bool} {loops : List (Standing LoopStep)}
    (ends : JoinEnds tolerant loops result) {number : Nat} {standing : Standing LoopStep}
    (stands : loops[number]? = some standing) (running : ∀ outcome, standing ≠ .ended outcome)
    (later : Standing LoopStep) :
    JoinEnds tolerant (loops.set number later) result := by
  cases result with
  | ok value =>
      obtain ⟨outcome, isEnded, -⟩ := ends standing (List.mem_of_getElem? stands)
      exact absurd isEnded (running outcome)
  | error interruption =>
      rcases ends with revoked | ⟨intolerant, member⟩
      · exact .inl revoked
      · obtain ⟨other, failed⟩ := List.mem_iff_getElem?.mp member
        have different : number ≠ other := by
          rintro rfl
          exact running _ (Option.some.inj (stands.symm.trans failed))
        exact .inr ⟨intolerant, List.mem_of_getElem? ((List.getElem?_set_ne different).trans failed)⟩

/-- The task at work has moved on in the scene, and the loops that it has started are there. -/
theorem Mirrors.moved {standing : Standing (id.Result ρ)} {signal : Bool}
    (mirrors : Mirrors (some id) notices machine
      { scene with loops := scene.loops ++ exchanges.flatMap (startedBy registry) })
    (stands : scene.standing? id = some standing) (running : ∀ outcome, standing ≠ .ended outcome)
    (quiet : id ≠ .walk → exchanges.flatMap (startedBy registry) = [])
    (later : Standing (id.Result ρ)) :
    Mirrors (some id) notices machine (scene.after registry exchanges signal id later) := by
  cases id with
  | walk =>
      refine ⟨mirrors.size, ?_, mirrors.tickets, mirrors.watchers, mirrors.joins, mirrors.busy, ?_⟩
      · intro other task here free is found
        cases other with
        | walk => exact absurd rfl free
        | loop number => exact mirrors.tasks free is found
      · intro join goesOn waits
        obtain ⟨resumption, result, revoked, queued⟩ := mirrors.walk_queued
        rw [queued] at waits
        cases waits
  | loop number =>
      have none := quiet nofun
      rw [none, List.append_nil] at mirrors
      have loops : (scene.after registry exchanges signal (.loop number) later).loops =
          scene.loops.set number later := by
        rw [Scene.after, none, List.append_nil]
      refine ⟨?_, ?_, mirrors.tickets, mirrors.watchers, mirrors.joins, mirrors.busy, mirrors.awaits⟩
      · rw [loops, List.length_set]
        exact mirrors.size
      · intro other task here free is found
        cases other with
        | walk =>
            apply (mirrors.tasks free is found).mono _ le_rfl fun _ _ member => member
            intro tolerant result ends
            rw [Scene.ends, loops]
            exact JoinEnds.set ends stands running later
        | loop other =>
            have different : number ≠ other := fun same => free (congrArg (some ∘ TaskId.loop) same)
            rw [Scene.standing?, loops, List.getElem?_set_ne different] at found
            exact mirrors.tasks free is found

/-- A task that is queued takes its turn: the scene moves on with it, and the machine carries out the
orders of the turn. -/
theorem Mirrors.turn {resumption : Resumption (id.Result ρ)} {revoked : Bool}
    {stop : Stop (id.Result ρ)} {world : World} (registry : Registry)
    (mirrors : Mirrors none (pending ++ underway machine) machine scene)
    (shows : Shows machine.world scene) (sound : scene.Sound)
    (queued : task? machine id = some (.queued resumption result revoked))
    (resumed : resumption.resume rules machine.world (Machine.resumeResult result revoked) =
      (stop, world)) :
    ∃ later standing, Steps registry scene later ∧ later.standing? id = some standing ∧
      Parks (conclude registry id) stop standing ∧
      Mirrors (some id)
        (pending ++ underway (Machine.obey registry { machine with world := world }))
        (Machine.obey registry { machine with world := world }) later ∧
      Shows (Machine.obey registry { machine with world := world }).world later := by
  obtain ⟨standing, stands⟩ := mirrors.standing queued
  cases mirrors.tasks nofun queued stands with
  | queued rests accepts =>
      obtain ⟨exchanges, later, steps, parks, charges, quiet⟩ :
          IsTurn registry scene id machine.world (stop, world) :=
        resumed ▸ resume_isTurn rules stands (mirrors.spares id) shows.signal shows.loops rests accepts
      have starts := quiet sound
      have orders : world.commands.reverse = exchanges.flatMap ordersOf := by
        rw [charges.commands, shows.commands, List.append_nil, List.reverse_reverse]
      have started : world.commands.reverse.flatMap (startedByOrder registry) =
          exchanges.flatMap (startedBy registry) := by
        rw [orders, List.flatMap_assoc]
        simp only [← startedBy_eq]
      have mayStart : some id = some .walk ∨
          world.commands.reverse.flatMap (startedByOrder registry) = [] := by
        cases id with
        | walk => exact .inl rfl
        | loop number => exact .inr (started.trans (starts nofun))
      have cleared : Mirrors (some id)
          (pending ++ underway { machine with world := { world with commands := [] } })
          { machine with world := { world with commands := [] } } scene :=
        (mirrors.act queued).around _ _ _
      have carried := cleared.carryOut world.commands.reverse mayStart
      rw [started] at carried
      refine ⟨_, later, steps, Scene.standing?_after stands, parks, ?_, ?_⟩
      · exact carried.moved stands rests.not_ended starts later
      · rw [Machine.obey, carryOut_world]
        exact shows.after charges

/-! ### Notices -/

theorem loopStop_parks {stop : Stop LoopStep} {standing : Standing LoopStep}
    (parks : Parks (Standing.ofLoop registry) stop standing) :
    Parks .ended (Machine.loopStop registry stop) standing := by
  cases parks with
  | suspended rests fits => exact .suspended rests fits
  | finished result =>
      match result with
      | .ok (.again .pass next) => exact .suspended (.begin _) fun _ => .inl rfl
      | .ok (.again .nap next) => exact .suspended (.pause _) fun _ => .inl rfl
      | .ok .ended => exact .finished _
      | .error interruption => exact .finished _

theorem suspend_world (machine : Machine ρ) (id : TaskId) (wait : Wait)
    (resumption : Resumption α) : (machine.suspend id wait resumption).2.world = machine.world := by
  cases wait with
  | timer seconds =>
      unfold Machine.suspend Machine.addTimer
      dsimp only
      split <;> rfl
  | _ => rfl

theorem endLoop_world (machine : Machine ρ) (number : Nat)
    (outcome : Except Interruption LoopStep) :
    (machine.endLoop number outcome).world = machine.world := by
  unfold Machine.endLoop
  split <;> rfl

theorem deliver_world (machine : Machine ρ) (id : TaskId) (ticket : Nat)
    (result : Except Interruption Unit) :
    (machine.deliver id ticket result).world = machine.world := by
  unfold Machine.deliver
  split <;> split <;> rfl

theorem settleJoin_world (machine : Machine ρ) (join : Nat) (result : Except Interruption Unit) :
    (machine.settleJoin join result).world = machine.world := by
  unfold Machine.settleJoin
  dsimp only
  split
  · split
    · exact deliver_world ..
    · rfl
  · rfl

theorem hearLoop_world (machine : Machine ρ) (number join : Nat) :
    (machine.hearLoop number join).world = machine.world := by
  unfold Machine.hearLoop
  split
  · rfl
  · dsimp only
    split
    · rfl
    · split
      · exact settleJoin_world ..
      · split
        · exact settleJoin_world ..
        · rfl

theorem revoke_world (machine : Machine ρ) : machine.revoke.world = machine.world := by
  unfold Machine.revoke
  split
  · rfl
  · rfl
  · rfl
  · dsimp only
    split
    · exact (revokeAll_frame machine).2
    · exact (revokeAll_frame machine).2

/-- The state of the machine between two notices: a scene that can be reached from another one. -/
def Reaches (registry : Registry) (scene : Scene ρ) (pending : List Notice)
    (machine : Machine ρ) : Prop :=
  ∃ later, Steps registry scene later ∧ Mirrors none (pending ++ underway machine) machine later ∧
    Shows machine.world later

theorem Mirrors.resumeWalk (mirrors : Mirrors none (pending ++ underway machine) machine scene)
    (shows : Shows machine.world scene) (sound : scene.Sound) :
    Reaches registry scene pending (machine.resumeWalk registry rules) := by
  unfold Machine.resumeWalk
  split
  · next resumption result revoked is =>
      have queued : task? machine .walk = some (.queued resumption result revoked) := congrArg some is
      obtain ⟨⟨stop, world⟩, resumed⟩ : ∃ turn, resumption.resume rules machine.world
        (Machine.resumeResult result revoked) = turn := ⟨_, rfl⟩
      obtain ⟨later, standing, steps, stands, parks, carried, shown⟩ :=
        mirrors.turn registry shows sound queued resumed
      rw [resumed]
      cases parks with
      | finished outcome =>
          have here : later.walk = .ended outcome := Option.some.inj stands
          have ended : Mirrors none
              (pending ++ underway
                { Machine.obey registry { machine with world := world } with walk := .ended outcome })
              { Machine.obey registry { machine with world := world } with walk := .ended outcome }
              later := by
            apply carried.setWalk _ rfl (here ▸ .ended outcome)
            exact fun id different same => different (Option.some.inj same).symm
          exact ⟨later, steps, ended.push trivial, shown⟩
      | suspended rests fits =>
          refine ⟨later, steps, carried.suspend stands rests fits, ?_⟩
          rw [← suspend_world] at shown
          exact shown
  · exact ⟨scene, .refl, mirrors, shows⟩

theorem Mirrors.resumeLoop (mirrors : Mirrors none (pending ++ underway machine) machine scene)
    (shows : Shows machine.world scene) (sound : scene.Sound) (number : Nat) :
    Reaches registry scene pending (machine.resumeLoop registry rules number) := by
  unfold Machine.resumeLoop
  split
  · next resumption result revoked watchers is =>
      have queued : task? machine (.loop number) = some (.queued resumption result revoked) :=
        congrArg (Option.map _) is
      obtain ⟨⟨stop, world⟩, resumed⟩ : ∃ turn, resumption.resume rules machine.world
        (Machine.resumeResult result revoked) = turn := ⟨_, rfl⟩
      obtain ⟨later, standing, steps, stands, parks, carried, shown⟩ :=
        mirrors.turn registry shows sound queued resumed
      rw [resumed]
      have stopped := loopStop_parks parks
      dsimp only
      generalize Machine.loopStop registry stop = stop at stopped
      cases stopped with
      | finished outcome =>
          refine ⟨later, steps, carried.endLoop stands, ?_⟩
          rw [← endLoop_world] at shown
          exact shown
      | suspended rests fits =>
          refine ⟨later, steps, carried.suspend stands rests fits, ?_⟩
          rw [← suspend_world] at shown
          exact shown
  · exact ⟨scene, .refl, mirrors, shows⟩

/-- After the end of the walk a notice is let go. -/
theorem Mirrors.discard {notice : Notice}
    (mirrors : Mirrors none (notice :: notices) machine scene) (isOver : machine.isOver = true) :
    Mirrors none notices machine scene where
  size := mirrors.size
  tasks := fun free is stands => (mirrors.tasks free is stands).mono (fun _ _ ends => ends) le_rfl
    fun _ _ member => List.mem_cons_of_mem _ member
  tickets := fun member => mirrors.tickets (List.mem_cons_of_mem _ member)
  watchers := mirrors.watchers
  joins := fun member => mirrors.joins (List.mem_cons_of_mem _ member)
  busy := mirrors.busy
  awaits := fun goesOn _ => nomatch isOver.symm.trans goesOn

/-- Attending to a notice is a row of steps of the run. -/
theorem attend_reaches (registry : Registry) (rules : Rules) {notice : Notice}
    (mirrors : Mirrors none (notice :: (pending ++ underway machine)) machine scene)
    (shows : Shows machine.world scene) (sound : scene.Sound) :
    Reaches registry scene pending (machine.attend registry rules notice) := by
  unfold Machine.attend
  split
  · next isOver =>
      exact ⟨scene, .refl, mirrors.discard isOver, shows⟩
  · next running =>
      have goesOn : machine.isOver = false := Bool.eq_false_iff.mpr running
      split
      · exact (mirrors.sheds (sheds_cons _ fun _ _ => nofun)).resumeWalk shows sound
      · exact (mirrors.sheds (sheds_cons _ fun _ _ => nofun)).resumeLoop shows sound _
      · refine ⟨scene, .refl, mirrors.deliver, ?_⟩
        rw [deliver_world]
        exact shows
      · refine ⟨scene, .refl, mirrors.hearLoop goesOn, ?_⟩
        rw [hearLoop_world]
        exact shows
      · have shed := mirrors.sheds (sheds_cons _ fun _ _ => nofun)
        refine ⟨{ scene with signal := true }, .single (.stop mirrors.isIdle), ?_, ?_⟩
        · exact ⟨shed.size, shed.tasks, shed.tickets, shed.watchers, shed.joins, shed.busy, shed.awaits⟩
        · exact ⟨rfl, shows.loops, shows.commands, shows.calls⟩
      · refine ⟨scene, .refl, (mirrors.sheds (sheds_cons _ fun _ _ => nofun)).revoke, ?_⟩
        rw [revoke_world]
        exact shows
      · have shed := mirrors.sheds (sheds_cons _ fun _ _ => nofun)
        refine ⟨scene, .refl, ?_, shows⟩
        exact ⟨shed.size, shed.tasks, shed.tickets, shed.watchers, shed.joins, shed.busy, nofun⟩

/-! ### Rehearsals -/

theorem Reaches.trans {later : Scene ρ} (reaches : Reaches registry later pending machine)
    (steps : Steps registry scene later) : Reaches registry scene pending machine := by
  obtain ⟨last, more, mirrors, shows⟩ := reaches
  exact ⟨last, steps.trans more, mirrors, shows⟩

theorem attendAll_reaches (registry : Registry) (rules : Rules) (notices : List Notice)
    (mirrors : Mirrors none (notices ++ underway machine) machine scene)
    (shows : Shows machine.world scene) (sound : scene.Sound) :
    Reaches registry scene [] (notices.foldl (Machine.attend registry rules) machine) := by
  induction notices generalizing machine scene with
  | nil => exact ⟨scene, .refl, mirrors, shows⟩
  | cons notice rest hypothesis =>
      obtain ⟨later, steps, mirrorsLater, showsLater⟩ :=
        attend_reaches registry rules mirrors shows sound
      exact (hypothesis mirrorsLater showsLater (steps.sound sound)).trans steps

theorem expire_perm (machine : Machine ρ) :
    (machine.expire.ready ++ machine.expire.timers.map (·.notice)).Perm (underway machine) := by
  have sorted := List.mergeSort_perm (machine.timers.filter (·.due ≤ machine.world.clock))
    fun first second => first.due ≤ second.due
  have split := List.filter_append_perm (fun timer : Timer => timer.due ≤ machine.world.clock)
    machine.timers
  unfold Machine.expire underway
  rw [List.append_assoc, ← List.map_append]
  exact ((sorted.append_right _).trans split).map _ |>.append_left _

/-- A turn of the machine is a row of steps of the run. -/
theorem turn_reaches (registry : Registry) (rules : Rules)
    (mirrors : Mirrors none (underway machine) machine scene) (shows : Shows machine.world scene)
    (sound : scene.Sound) : Reaches registry scene [] (machine.turn registry rules) := by
  obtain ⟨clock, moved⟩ : ∃ clock, machine.moveClock =
      { machine with world := { machine.world with clock := clock } } := by
    unfold Machine.moveClock
    split
    · exact ⟨_, rfl⟩
    · exact ⟨_, rfl⟩
  unfold Machine.turn
  rw [moved]
  apply attendAll_reaches registry rules _ _ _ sound
  · have expired := mirrors.sheds
      (sheds_perm (expire_perm { machine with world := { machine.world with clock := clock } }))
    exact expired.around _ _ _
  · exact ⟨shows.signal, shows.loops, shows.commands, shows.calls⟩

/-- However many turns the machine takes, it is in a state that the run can reach. -/
theorem run_reaches (registry : Registry) (rules : Rules) (turns : Nat)
    (mirrors : Mirrors none (underway machine) machine scene) (shows : Shows machine.world scene)
    (sound : scene.Sound) : Reaches registry scene [] (machine.run registry rules turns) := by
  induction turns generalizing machine scene with
  | zero => exact ⟨scene, .refl, mirrors, shows⟩
  | succ turns hypothesis =>
      unfold Machine.run
      split
      · exact ⟨scene, .refl, mirrors, shows⟩
      · obtain ⟨later, steps, mirrorsLater, showsLater⟩ :=
          turn_reaches registry rules mirrors shows sound
        exact (hypothesis mirrorsLater showsLater (steps.sound sound)).trans steps

/-- A machine before its first turn. -/
theorem start_mirrors (world : World) (walk : RunActivity ρ) (signal : Bool) :
    Mirrors none (underway (Machine.start world walk)) (Machine.start world walk)
      (Scene.start signal walk) where
  size := rfl
  tasks := by
    intro id task standing _ is stands
    cases id with
    | walk =>
        obtain rfl := Option.some.inj is
        obtain rfl := Option.some.inj stands
        exact .queued (.begin walk) (.inl rfl)
    | loop number => cases stands
  tickets := by simp [underway, Machine.start]
  watchers := nofun
  joins := by simp [underway, Machine.start]
  busy := nofun
  awaits := nofun

theorem timerAt_mirrors (mirrors : Mirrors none (underway machine) machine scene)
    (seconds : Option Float) (notice : Notice) (plain : IsPlain notice) :
    Mirrors none (underway (timerAt machine seconds notice)) (timerAt machine seconds notice) scene := by
  unfold timerAt
  split
  · unfold Machine.addTimer
    split
    · apply Mirrors.around (mirrors.sheds (sheds_insert plain _))
      simpa [underway] using List.perm_append_singleton _ (underway machine)
    · exact mirrors
  · exact mirrors

theorem timerAt_world (machine : Machine ρ) (seconds : Option Float) (notice : Notice) :
    (timerAt machine seconds notice).world = machine.world := by
  unfold timerAt
  split
  · unfold Machine.addTimer
    split <;> rfl
  · rfl

/-- After any number of turns a rehearsal of a careful activity is in a state that the run of that
activity can reach. -/
theorem rehearsal_reaches (registry : Registry) (plan : Plan) (desk : Desk)
    {activity : RunActivity ρ} (careful : Stopping.Careful true Stopping.AnyEnd activity)
    (turns : Nat) :
    Reaches registry (Scene.start plan.stopBefore activity) []
      ((plan.machine desk activity).run registry plan.rules turns) := by
  apply run_reaches registry plan.rules turns _ _ (Scene.sound_start careful _)
  · exact timerAt_mirrors (timerAt_mirrors (start_mirrors _ _ _) plan.stopAt .stop trivial)
      plan.revokeAt .revoke trivial
  · rw [Plan.machine, timerAt_world, timerAt_world]
    exact ⟨rfl, rfl, rfl, rfl⟩

end Turn

end InputScript.Interleaving
