/-
Module: InputScript.Proofs.Succession
Purpose: Runs that follow each other.  A call has a run stopped, waits for its end and calls it off if
  the end does not come in time; between the calls, and between what a call does, the run goes on as it
  can.  However that goes, all runs but the latest one have ended, and a run that has ended stays as it
  is.
Main exports: Runner.Sound, Runner.handles_in_succession
-/
import InputScript.Proofs.Endings
import InputScript.Proofs.Handles
import Mathlib.Logic.Relation

namespace InputScript.Session

namespace Runner

open Rehearsal Run

variable {runner middle later : Runner} {number : Nat}

/-! ### Sound runners -/

/-- The number of the run that goes on. -/
def liveNumber (runner : Runner) : Option Nat :=
  runner.live.map (·.number)

/-- Whether the run that goes on, if there is one, will end in a state of an end. -/
def IsBound (runner : Runner) : Prop :=
  ∀ run, runner.live = some run → run.machine.Returns (·.isFinished = true)

/-- The ledger is in order, the run that goes on is the latest one, no other one is live, and its state
will be one of an end. -/
structure Sound (runner : Runner) : Prop where
  orderly : runner.ledger.Orderly
  latest : ∀ number, runner.liveNumber = some number → number + 1 = runner.ledger.handles.length
  live : ∀ number, runner.ledger.IsLive number → runner.liveNumber = some number
  bound : runner.IsBound

/-- `runner.Continues later`: the runner is sound later, and its handles have become what they can. -/
structure Continues (runner later : Runner) : Prop where
  sound : later.Sound
  becomes : runner.ledger.Becomes later.ledger
  size : later.ledger.handles.length = runner.ledger.handles.length
  rules : later.rules = runner.rules
  schedule : runner.schedule = [] → later.schedule = []

theorem Sound.refl (sound : runner.Sound) : runner.Continues runner :=
  ⟨sound, .refl _, rfl, rfl, id⟩

theorem Continues.trans (first : runner.Continues middle) (second : middle.Continues later) :
    runner.Continues later :=
  ⟨second.sound, first.becomes.trans second.becomes, second.size.trans first.size,
    second.rules.trans first.rules, second.schedule ∘ first.schedule⟩

/-- A runner stays sound as long as the same run goes on and its ledger stays in order. -/
theorem Sound.continues (sound : runner.Sound) (orderly : later.ledger.Orderly)
    (becomes : runner.ledger.Becomes later.ledger)
    (size : later.ledger.handles.length = runner.ledger.handles.length)
    (rules : later.rules = runner.rules) (schedule : later.schedule = runner.schedule)
    (same : later.liveNumber = runner.liveNumber) (bound : later.IsBound) :
    runner.Continues later := by
  refine ⟨⟨orderly, ?_, ?_, bound⟩, becomes, size, rules, schedule.trans⟩
  · intro number goesOn
    rw [size]
    exact sound.latest number (same ▸ goesOn)
  · intro number live
    rw [same]
    exact sound.live number (becomes.isLive size live)

/-! ### Surroundings -/

theorem ledger_setSurroundings (runner : Runner) (world : World) :
    (runner.setSurroundings world).ledger = runner.ledger ∧
      (runner.setSurroundings world).rules = runner.rules ∧
      (runner.setSurroundings world).schedule = runner.schedule ∧
      (runner.setSurroundings world).liveNumber = runner.liveNumber := by
  unfold setSurroundings liveNumber
  split
  · next run goesOn => simp [goesOn]
  · exact ⟨rfl, rfl, rfl, rfl⟩

theorem isBound_setSurroundings (bound : runner.IsBound) (world : World) :
    (runner.setSurroundings world).IsBound := by
  unfold setSurroundings
  split
  · next run goesOn =>
      rintro _ ⟨⟩
      exact bound run goesOn
  · exact bound

theorem Sound.setSurroundings (sound : runner.Sound) (world : World) :
    runner.Continues (runner.setSurroundings world) := by
  obtain ⟨ledger, rules, schedule, same⟩ := ledger_setSurroundings runner world
  exact sound.continues (ledger ▸ sound.orderly) (ledger ▸ .refl _) (by rw [ledger]) rules schedule
    same (isBound_setSurroundings sound.bound world)

theorem Sound.logged (sound : runner.Sound) (level : Level) (message : String) :
    runner.Continues (runner.logged level message).2 :=
  sound.setSurroundings _

theorem Sound.logged_within (sound : runner.Sound) (world : World) (level : Level) (message : String) :
    runner.Continues ((runner.setSurroundings world).logged level message).2 :=
  (sound.setSurroundings world).trans ((sound.setSurroundings world).sound.logged level message)

/-- A log function that returns normally takes every line. -/
theorem logged_of_quiet (runner : Runner) (quiet : runner.rules.logFailure = none) (level : Level)
    (message : String) :
    (runner.logged level message).1 = .ok () := by
  simp [Runner.logged, World.logged, quiet]

/-! ### Ends of runs -/

theorem announce_frame (runner : Runner) (ended : Option Nat) :
    (runner.announce ended).ledger = runner.ledger ∧
      (runner.announce ended).rules = runner.rules ∧
      (runner.announce ended).schedule = runner.schedule ∧
      (runner.announce ended).liveNumber = runner.liveNumber := by
  unfold announce
  dsimp only
  split
  · exact ledger_setSurroundings _ _
  · exact ⟨rfl, rfl, rfl, rfl⟩

theorem isBound_announce (bound : runner.IsBound) (ended : Option Nat) :
    (runner.announce ended).IsBound := by
  unfold announce
  dsimp only
  split
  · exact isBound_setSurroundings (by exact bound) _
  · exact bound

/-- An end is entered in the ledger, and the same run goes on as before. -/
theorem settle_frame (runner : Runner) (number : Nat) (state : RunState) :
    (runner.settle number state).ledger = runner.ledger.settle number state ∧
      (runner.settle number state).rules = runner.rules ∧
      (runner.settle number state).schedule = runner.schedule ∧
      (runner.settle number state).liveNumber = runner.liveNumber := by
  unfold settle
  split
  · next done => exact ⟨(Ledger.settle_of_isDone done state).symm, rfl, rfl, rfl⟩
  · exact announce_frame _ _

theorem isBound_settle (bound : runner.IsBound) (number : Nat) (state : RunState) :
    (runner.settle number state).IsBound := by
  unfold settle
  split
  · exact bound
  · exact isBound_announce (by exact bound) _

theorem Sound.settle (sound : runner.Sound) (number : Nat) {state : RunState}
    (finished : state.isFinished = true) : runner.Continues (runner.settle number state) := by
  obtain ⟨ledger, rules, schedule, same⟩ := settle_frame runner number state
  apply sound.continues _ _ _ rules schedule same (isBound_settle sound.bound number state)
  · rw [ledger]
    exact sound.orderly.settle number finished
  · rw [ledger]
    exact Ledger.becomes_settle _ _ _
  · rw [ledger]
    exact Ledger.length_modify _ _ _

theorem isFinished_endState {result : Except Interruption RunState}
    (returns : ∀ state, result = .ok state → state.isFinished = true) :
    (endState result).isFinished = true := by
  match result with
  | .ok state => exact returns state rfl
  | .error .revoked => rfl
  | .error (.fault _) => rfl

/-- What collecting an end does: the run that has gone on is settled, and none goes on. -/
theorem collect_cases (runner : Runner) :
    runner.collect = runner ∨
      ∃ run result, ∃ bare : Runner, runner.live = some run ∧ run.machine.walk = .ended result ∧
        bare.live = none ∧ bare.rules = runner.rules ∧ bare.schedule = runner.schedule ∧
        (bare.ledger = runner.ledger ∨ bare.ledger = runner.ledger.requestCancel run.number) ∧
        runner.collect = bare.settle run.number (endState result) := by
  unfold collect
  split
  · exact .inl rfl
  · next run goesOn =>
      split
      · next result isOver returned =>
          refine .inr ⟨run, result, _, goesOn, ?_, ?_, ?_, ?_, ?_, rfl⟩
          · unfold Task.result? at returned
            split at returned
            · next walked => rw [walked, Option.some.inj returned]
            · cases returned
          · rfl
          · rfl
          · rfl
          · dsimp only
            split
            · exact .inr rfl
            · exact .inl rfl
      · exact .inl rfl

/-- When the run that goes on has ended, no run is live. -/
theorem Sound.collect (sound : runner.Sound) : runner.Continues runner.collect := by
  rcases collect_cases runner with
    same | ⟨run, result, bare, goesOn, ended, idle, rules, schedule, entered, collected⟩
  · rw [same]
    exact sound.refl
  · have numbered : runner.liveNumber = some run.number := by
      rw [liveNumber, goesOn]
      rfl
    have finished : (endState result).isFinished = true := by
      apply isFinished_endState
      have returns := sound.bound run goesOn
      rw [Machine.Returns, ended] at returns
      exact returns
    have orderly : bare.ledger.Orderly := by
      rcases entered with same | requested
      · exact same ▸ sound.orderly
      · exact requested ▸ sound.orderly.requestCancel _
    have becomes : runner.ledger.Becomes bare.ledger := by
      rcases entered with same | requested
      · exact same ▸ .refl _
      · exact requested ▸ Ledger.becomes_requestCancel _ _
    have size : bare.ledger.handles.length = runner.ledger.handles.length := by
      rcases entered with same | requested
      · rw [same]
      · exact requested ▸ Ledger.length_modify _ _ _
    obtain ⟨ledgerEq, rulesEq, scheduleEq, liveEq⟩ := settle_frame bare run.number (endState result)
    have settled : runner.ledger.Becomes (bare.settle run.number (endState result)).ledger := by
      rw [ledgerEq]
      exact becomes.trans (Ledger.becomes_settle _ _ _)
    have sizeEq : (bare.settle run.number (endState result)).ledger.handles.length =
        runner.ledger.handles.length := by
      rw [ledgerEq]
      exact (Ledger.length_modify _ _ _).trans size
    rw [collected]
    refine ⟨⟨?_, ?_, ?_, ?_⟩, settled, sizeEq, rulesEq.trans rules,
      (scheduleEq.trans schedule).trans⟩
    · rw [ledgerEq]
      exact orderly.settle _ finished
    · rw [liveEq, liveNumber, idle]
      intro number impossible
      cases impossible
    · intro number live
      have before := settled.isLive sizeEq live
      obtain rfl := Option.some.inj ((sound.live number before).symm.trans numbered)
      have done := Ledger.isDone_settle (size ▸ before.1) (endState result)
      rw [← ledgerEq, live.2] at done
      cases done
    · apply isBound_settle
      intro other impossible
      rw [idle] at impossible
      cases impossible

/-! ### Passing time -/

/-- The machine of the run that goes on may take any turns. -/
theorem Sound.setMachine (sound : runner.Sound) {run : LiveRun} (isLive : runner.live = some run)
    {machine : Machine RunState} (returns : machine.Returns (·.isFinished = true)) :
    runner.Continues { runner with live := some { run with machine := machine } } where
  sound := by
    have same : runner.liveNumber = some run.number := by
      rw [liveNumber, isLive]
      rfl
    refine ⟨sound.orderly, ?_, ?_, ?_⟩
    · rintro _ ⟨⟩
      exact sound.latest _ same
    · intro number live
      exact (same.symm.trans (sound.live number live))
    · rintro _ ⟨⟩
      exact returns
  becomes := .refl _
  size := rfl
  rules := rfl
  schedule := id

/-- Time passes: the run that goes on takes turns and may end. -/
theorem Sound.advanceWhile (sound : runner.Sound) (turns : Nat) (goesOn : Machine RunState → Bool) :
    runner.Continues (runner.advanceWhile turns goesOn) := by
  unfold Runner.advanceWhile
  split
  · exact sound.refl
  · next run isLive =>
      have advanced := sound.setMachine isLive
        (turnWhile_returns runner.registry runner.rules goesOn turns (sound.bound run isLive))
      exact advanced.trans advanced.sound.collect

/-- However many turns the schedule says, the run goes on as it can. -/
theorem Sound.span (sound : runner.Sound) (turns : Nat) (goesOn : Machine RunState → Bool) :
    runner.Continues (runner.span turns goesOn) := by
  have scheduled : runner.Continues { runner with schedule := runner.schedule.tail } :=
    ⟨⟨sound.orderly, sound.latest, sound.live, sound.bound⟩, .refl _, rfl, rfl,
      congrArg List.tail⟩
  exact scheduled.trans (scheduled.sound.advanceWhile _ _)

theorem Sound.lookAway (sound : runner.Sound) : runner.Continues runner.lookAway :=
  sound.span _ _

theorem Sound.requestCancel (sound : runner.Sound) (number : Nat) :
    runner.Continues (runner.requestCancel number) := by
  have requested : runner.Continues { runner with ledger := runner.ledger.requestCancel number } :=
    sound.continues (sound.orderly.requestCancel number)
      (Ledger.becomes_requestCancel _ _) (Ledger.length_modify _ _ _) rfl rfl rfl sound.bound
  unfold Runner.requestCancel
  dsimp only
  split
  · split
    · exact requested.trans (requested.sound.setSurroundings _)
    · exact requested
  · exact requested

theorem isSignalled_requestCancel (known : number < runner.ledger.handles.length) :
    (runner.requestCancel number).ledger.isSignalled number = true := by
  have requested := Ledger.isSignalled_requestCancel known
  unfold Runner.requestCancel
  dsimp only
  split
  · split
    · rw [(ledger_setSurroundings _ _).1]
      exact requested
    · exact requested
  · exact requested

theorem Sound.revoke (sound : runner.Sound) : runner.Continues runner.revoke := by
  unfold Runner.revoke
  split
  · next run isLive =>
      have revoked := sound.setMachine isLive (Machine.revoke_returns (sound.bound run isLive))
      exact revoked.trans (revoked.sound.advanceWhile _ _)
  · exact sound.refl

/-! ### Draining -/

/-- A run that does not stop counts as cancelled before it is called off. -/
theorem Sound.force (sound : runner.Sound) (known : number < runner.ledger.handles.length) :
    runner.Continues (runner.settle number .cancelled).revoke ∧
      (runner.settle number .cancelled).revoke.ledger.isDone number = true := by
  have settles : runner.Continues (runner.settle number .cancelled) := sound.settle number rfl
  have revoked := settles.sound.revoke
  have done : (runner.settle number .cancelled).ledger.isDone number = true := by
    rw [(settle_frame runner number .cancelled).1]
    exact Ledger.isDone_settle known .cancelled
  exact ⟨settles.trans revoked, (revoked.becomes.isDone done).1⟩

/-- The run is to be stopped, and goes on for as long as it is waited for. -/
theorem Sound.stopAndWait (sound : runner.Sound) (known : number < runner.ledger.handles.length) :
    runner.Continues (runner.stopAndWait number) ∧
      (runner.stopAndWait number).ledger.isSignalled number = true := by
  have requested := sound.requestCancel number
  have signalled := isSignalled_requestCancel known
  unfold Runner.stopAndWait
  dsimp only
  split
  · exact ⟨requested, signalled⟩
  · have waits := requested.sound.span maxTurns (isBusyUntil (Machine.dueTime
      (runner.requestCancel number).surroundings.clock runner.stopTimeout))
    exact ⟨requested.trans waits, waits.becomes.isSignalled signalled⟩

/-- Whether the run that is drained ends between the two looks at it: at the first one it has not
ended, and at the second one it has. -/
def EndsUnseen (runner : Runner) (number : Nat) : Prop :=
  (runner.stopAndWait number).ledger.isDone number = false ∧
    (runner.stopAndWait number).lookAway.ledger.isDone number = true

/-- A run that is drained has ended and was to be stopped.  The state that is told is the one it has
ended in, unless it has ended between the two looks at it; then it is told to be running.  Only a log
function that fails keeps this from happening. -/
theorem Sound.drain (sound : runner.Sound) (known : number < runner.ledger.handles.length) :
    runner.Continues (runner.drain number).2 ∧
      (∀ state, (runner.drain number).1 = .ok state →
        (runner.drain number).2.ledger.isDone number = true ∧
          (runner.drain number).2.ledger.isSignalled number = true ∧
          (state = .running ↔ runner.EndsUnseen number) ∧
          (state ≠ .running → state = (runner.drain number).2.ledger.stateOf number)) ∧
      (runner.rules.logFailure = none → ∃ state, (runner.drain number).1 = .ok state) := by
  obtain ⟨waits, signalled⟩ := sound.stopAndWait known
  have looks := waits.sound.lookAway
  have still := looks.becomes.isSignalled signalled
  unfold Runner.drain EndsUnseen
  dsimp only
  revert waits signalled looks still
  generalize runner.stopAndWait number = waited
  generalize waited.lookAway = looked
  intro waits signalled looks still
  have continued := waits.trans looks
  split
  · next done =>
      refine ⟨continued, fun state same => ⟨done, still, ?_⟩, fun _ => ⟨_, rfl⟩⟩
      obtain rfl := Except.ok.inj same
      cases seen : waited.ledger.isDone number with
      | true =>
          have told := waits.sound.orderly.stateOf_ne_running seen
          exact ⟨⟨fun running => absurd running told, nofun⟩,
            fun _ => (looks.becomes.isDone seen).2.symm⟩
      | false =>
          have running := Ledger.stateOf_of_isLive ⟨waits.size ▸ known, seen⟩
          exact ⟨⟨fun _ => ⟨rfl, done⟩, fun _ => running⟩, fun other => absurd running other⟩
  · next notDone =>
      have logs := continued.sound.logged .warning "Run did not stop in time, forcing cancellation"
      split
      · next fault warned failed =>
          rw [failed] at logs
          refine ⟨continued.trans logs, nofun, fun quiet => ?_⟩
          have taken := logged_of_quiet looked (continued.rules ▸ quiet) .warning
            "Run did not stop in time, forcing cancellation"
          rw [failed] at taken
          cases taken
      · next warned written =>
          rw [written] at logs
          have reached := logs.trans logs.sound.lookAway
          have sized := continued.trans reached
          obtain ⟨forced, done⟩ := reached.sound.force (sized.size ▸ known)
          have ended := sized.trans forced
          refine ⟨ended, fun state same => ?_, fun _ => ⟨_, rfl⟩⟩
          obtain rfl := Except.ok.inj same
          have told := ended.sound.orderly.stateOf_ne_running done
          exact ⟨done, (reached.trans forced).becomes.isSignalled still,
            ⟨fun running => absurd running told, fun unseen => absurd unseen.2 notDone⟩, fun _ => rfl⟩

/-! ### Runs that only the clock drives -/

theorem advanceWhile_zero (runner : Runner) (goesOn : Machine RunState → Bool) :
    runner.advanceWhile 0 goesOn = runner.collect := by
  unfold Runner.advanceWhile
  cases isLive : runner.live with
  | none => rw [Runner.collect, isLive]
  | some run =>
      have same : { runner with live := some run } = runner := by rw [← isLive]
      exact congrArg Runner.collect same

/-- Without a schedule nothing happens between two looks, once the run was waited for. -/
theorem lookAway_of_unscheduled (unscheduled : runner.schedule = []) :
    runner.lookAway = runner.collect := by
  have same : { runner with schedule := runner.schedule.tail } = runner := by
    rw [unscheduled, List.tail_nil, ← unscheduled]
  rw [Runner.lookAway, Runner.span, same, unscheduled]
  exact advanceWhile_zero runner _

/-- Whether a call names no run, or one that was started. -/
def Names (runner : Runner) (number : Option Nat) : Prop :=
  ∀ given, number = some given → given < runner.ledger.handles.length

theorem names_none (runner : Runner) : runner.Names none := nofun

/-- Without a run there is nothing to be cancelled; else some run is drained. -/
theorem Sound.cancel_cases (sound : runner.Sound) {number : Option Nat} (names : runner.Names number) :
    (number = none ∧ runner.ledger.handles = [] ∧ runner.cancel number = (.ok .idle, runner)) ∨
      ∃ chosen, number.or runner.ledger.current = some chosen ∧
        chosen < runner.ledger.handles.length ∧
        (number = none → chosen + 1 = runner.ledger.handles.length) ∧
        runner.cancel number = runner.drain chosen := by
  unfold Runner.cancel
  cases number with
  | some given => exact .inr ⟨given, rfl, names given rfl, nofun, rfl⟩
  | none =>
      rw [Option.none_or]
      cases current : runner.ledger.current with
      | none => exact .inl ⟨rfl, sound.orderly.current_eq_none.mp current, rfl⟩
      | some latest =>
          have size := (sound.orderly.current latest).mp current
          exact .inr ⟨latest, rfl, by omega, fun _ => size, rfl⟩

theorem Sound.cancel (sound : runner.Sound) {number : Option Nat} (names : runner.Names number) :
    runner.Continues (runner.cancel number).2 := by
  rcases sound.cancel_cases names with ⟨-, -, same⟩ | ⟨chosen, -, known, -, same⟩
  · rw [same]
    exact sound.refl
  · rw [same]
    exact (sound.drain known).1

/-- Only a log function that fails keeps a call to cancel from returning. -/
theorem Sound.cancel_answers (sound : runner.Sound) {number : Option Nat}
    (names : runner.Names number) (quiet : runner.rules.logFailure = none) :
    ∃ state, (runner.cancel number).1 = .ok state := by
  rcases sound.cancel_cases names with ⟨-, -, same⟩ | ⟨chosen, -, known, -, same⟩
  · exact ⟨.idle, congrArg Prod.fst same⟩
  · rw [same]
    exact (sound.drain known).2.2 quiet

/-- After the latest run was cancelled all runs have ended and were to be stopped. -/
theorem Sound.cancel_latest (sound : runner.Sound) {state : RunState} {ready : Runner}
    (cancelled : runner.cancel none = (.ok state, ready)) :
    runner.Continues ready ∧ ∀ number < ready.ledger.handles.length,
      ready.ledger.isDone number = true ∧ ready.ledger.isSignalled number = true := by
  have continued : runner.Continues ready := by
    have cancels := sound.cancel (names_none runner)
    rwa [cancelled] at cancels
  refine ⟨continued, fun number known => ?_⟩
  rcases Nat.lt_or_ge (number + 1) ready.ledger.handles.length with early | late
  · exact continued.sound.orderly.earlier number early
  · have size := continued.size
    rcases sound.cancel_cases (names_none runner) with
      ⟨-, empty, -⟩ | ⟨chosen, -, bound, latest, same⟩
    · rw [empty, List.length_nil] at size
      omega
    · have isLatest := latest rfl
      obtain rfl : number = chosen := by omega
      obtain ⟨-, drained, -⟩ := sound.drain bound
      rw [← same, cancelled] at drained
      obtain ⟨done, signalled, -, -⟩ := drained state rfl
      exact ⟨done, signalled⟩

/-! ### Calls -/

/-- A run may begin once all others have ended. -/
theorem Sound.begin (sound : runner.Sound) (program : Script.Program)
    (ended : ∀ number < runner.ledger.handles.length,
      runner.ledger.isDone number = true ∧ runner.ledger.isSignalled number = true) :
    (runner.begin program).Sound := by
  have orderly : runner.ledger.add.Orderly := sound.orderly.add ended
  have size : runner.ledger.add.handles.length = runner.ledger.handles.length + 1 := by
    simp [Ledger.add]
  refine ⟨orderly, ?_, ?_, ?_⟩
  · rintro _ ⟨⟩
    exact size.symm
  · intro number live
    have latest := orderly.of_isLive live
    have same : number = runner.ledger.handles.length := by omega
    exact congrArg some same.symm
  · rintro _ ⟨⟩
    exact Task.begin_returns (runActivity_returns _ _)

theorem Sound.setOpen (sound : runner.Sound) (isOpen : Bool) :
    runner.Continues { runner with isOpen := isOpen } :=
  ⟨⟨sound.orderly, sound.latest, sound.live, sound.bound⟩, .refl _, rfl, rfl, id⟩

/-- What a call to run a program does.  When it returns, a run was added, and all earlier ones have
ended and were to be stopped.  Only a log function that fails keeps it from returning. -/
theorem Sound.run (sound : runner.Sound) (program : Script.Program) :
    (runner.run program).2.Sound ∧ runner.ledger.Becomes (runner.run program).2.ledger ∧
      ((runner.run program).1 = .ok () →
        (runner.run program).2.ledger.handles.length = runner.ledger.handles.length + 1 ∧
          ∀ number < runner.ledger.handles.length,
            (runner.run program).2.ledger.isDone number = true ∧
              (runner.run program).2.ledger.isSignalled number = true) ∧
      (runner.rules.logFailure = none → (runner.run program).1 = .ok ()) := by
  have cancels := sound.cancel (names_none runner)
  have answers := sound.cancel_answers (names_none runner)
  unfold Runner.run
  split
  · next fault ready failed =>
      rw [failed] at cancels answers
      refine ⟨cancels.sound, cancels.becomes, nofun, fun quiet => ?_⟩
      obtain ⟨state, impossible⟩ := answers quiet
      cases impossible
  · next state ready cancelled =>
      obtain ⟨readied, ended⟩ := sound.cancel_latest cancelled
      have opens := readied.sound.setOpen true
      dsimp only
      generalize s!"Run started: {program.blocks.length} block(s), {program.stepCount} step(s)" = message
      have logs := opens.trans (opens.sound.logged .info message)
      split
      · next fault written failed =>
          rw [failed] at logs
          have kept := readied.trans logs
          refine ⟨kept.sound, kept.becomes, nofun, fun quiet => ?_⟩
          have taken := logged_of_quiet { ready with isOpen := true } (readied.rules ▸ quiet) .info message
          rw [failed] at taken
          cases taken
      · next written taken =>
          have logs : ready.Continues written := by rwa [taken] at logs
          have still (number : Nat) (known : number < written.ledger.handles.length) :
              written.ledger.isDone number = true ∧ written.ledger.isSignalled number = true := by
            obtain ⟨done, signalled⟩ := ended number (logs.size ▸ known)
            exact ⟨(logs.becomes.isDone done).1, logs.becomes.isSignalled signalled⟩
          have kept := readied.trans logs
          have adds := written.ledger.becomes_add
          refine ⟨logs.sound.begin program still, kept.becomes.trans adds, fun _ => ⟨?_, ?_⟩,
            fun _ => rfl⟩
          · rw [← kept.size]
            exact List.length_append
          · intro number known
            obtain ⟨done, signalled⟩ := still number (kept.size ▸ known)
            exact ⟨(adds.isDone done).1, adds.isSignalled signalled⟩

theorem Sound.shutDown (sound : runner.Sound) : runner.Continues runner.shutDown.2 := by
  unfold Runner.shutDown
  split
  · exact sound.refl
  · have closes := sound.setOpen false
    dsimp only
    split
    · exact closes.trans (closes.sound.logged_within _ _ _)
    · exact closes

theorem Sound.close (sound : runner.Sound) : runner.Continues runner.close.2 := by
  have cancels := sound.cancel (names_none runner)
  unfold Runner.close
  split
  · next fault cancelled failed =>
      rw [failed] at cancels
      exact cancels
  · next state cancelled ended =>
      rw [ended] at cancels
      exact cancels.trans cancels.sound.shutDown

theorem Sound.watch (sound : runner.Sound) (number : Nat) : runner.Continues (runner.watch number) := by
  unfold Runner.watch
  split
  · exact ⟨⟨sound.orderly, sound.latest, sound.live, sound.bound⟩, .refl _, rfl, rfl, id⟩
  · exact ⟨⟨sound.orderly, sound.latest, sound.live, sound.bound⟩, .refl _, rfl, rfl, id⟩

/-! ### Calls in succession -/

/-- What can happen to a runner: a call, whether it returns or fails, or that the run that goes on
takes turns for any time, has its signal set from outside, or is watched.  How many turns the run takes
within a call is up to the schedule, which may become any other one. -/
inductive Step (runner : Runner) : Runner → Prop where
  | run (program : Script.Program) : Step runner (runner.run program).2
  | cancel {number : Option Nat} (names : runner.Names number) : Step runner (runner.cancel number).2
  | close : Step runner runner.close.2
  | time (turns : Nat) (goesOn : Machine RunState → Bool) :
      Step runner (runner.advanceWhile turns goesOn)
  | requestCancel (number : Nat) : Step runner (runner.requestCancel number)
  | watch (number : Nat) : Step runner (runner.watch number)
  | schedule (spans : List Nat) : Step runner { runner with schedule := spans }

/-- What can happen to a runner in all. -/
abbrev Steps : Runner → Runner → Prop :=
  Relation.ReflTransGen Step

theorem Step.sound (step : runner.Step later) (sound : runner.Sound) :
    later.Sound ∧ runner.ledger.Becomes later.ledger := by
  cases step with
  | run program =>
      obtain ⟨after, becomes, -⟩ := sound.run program
      exact ⟨after, becomes⟩
  | cancel names => exact ⟨(sound.cancel names).sound, (sound.cancel names).becomes⟩
  | close => exact ⟨sound.close.sound, sound.close.becomes⟩
  | time turns goesOn =>
      have continues := sound.advanceWhile turns goesOn
      exact ⟨continues.sound, continues.becomes⟩
  | requestCancel number =>
      have continues := sound.requestCancel number
      exact ⟨continues.sound, continues.becomes⟩
  | watch number => exact ⟨(sound.watch number).sound, (sound.watch number).becomes⟩
  | schedule spans => exact ⟨⟨sound.orderly, sound.latest, sound.live, sound.bound⟩, .refl _⟩

/-- Whatever happens to a sound runner, it stays sound, and its handles become what they can. -/
theorem Steps.sound (steps : Steps runner later) (sound : runner.Sound) :
    later.Sound ∧ runner.ledger.Becomes later.ledger := by
  induction steps with
  | refl => exact ⟨sound, .refl _⟩
  | tail _ step hypothesis =>
      obtain ⟨middle, early⟩ := hypothesis
      obtain ⟨last, late⟩ := step.sound middle
      exact ⟨last, early.trans late⟩

/-- Whether a runner has not been used. -/
structure IsFresh (runner : Runner) : Prop where
  ledger : runner.ledger = {}
  live : runner.live = none

theorem IsFresh.sound (fresh : runner.IsFresh) : runner.Sound := by
  have noRun : runner.liveNumber = none := by rw [liveNumber, fresh.live]; rfl
  refine ⟨fresh.ledger ▸ Ledger.orderly_empty, ?_, ?_, ?_⟩
  · intro number live
    rw [noRun] at live
    cases live
  · intro number live
    have known := live.1
    rw [fresh.ledger] at known
    cases known
  · intro run live
    rw [fresh.live] at live
    cases live

end Runner

end InputScript.Session
