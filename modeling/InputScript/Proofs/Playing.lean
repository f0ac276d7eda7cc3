/-
Module: InputScript.Proofs.Playing
Purpose: What a player shows.  Texts are played, stopped and played again in any order, and runs end at
  any time.  The statuses take turns and agree with what is played, and the steps of each run are
  counted from one.
Main exports: Runner.InTune, Player.statuses_follow_runs
-/
import InputScript.Proofs.Score
import InputScript.Proofs.Succession
import InputScript.Session.Player

namespace InputScript.Session

open Rehearsal Run

theorem Ledger.isLive_requestCancel (ledger : Ledger) (number other : Nat) :
    (ledger.requestCancel number).IsLive other ↔ ledger.IsLive other := by
  rw [Ledger.IsLive, Ledger.IsLive, Ledger.isDone_requestCancel, Ledger.requestCancel,
    Ledger.length_modify]

namespace Runner

variable {runner middle later : Runner} {number : Nat}

/-! ### Surroundings -/

@[simp] theorem surroundings_setSurroundings (runner : Runner) (world : World) :
    (runner.setSurroundings world).surroundings = world := by
  unfold setSurroundings surroundings
  cases runner.live <;> rfl

@[simp] theorem playback_setSurroundings (runner : Runner) (world : World) :
    (runner.setSurroundings world).playback = runner.playback := by
  unfold setSurroundings
  cases runner.live <;> rfl

theorem surroundings_of_live {run : LiveRun} (isLive : runner.live = some run) :
    runner.surroundings = run.machine.world := by
  rw [surroundings, isLive]

/-! ### Tune -/

/-- The record of a runner is that of a player, and at its end the player plays the run that is live,
if there is one. -/
structure InTune (runner : Runner) : Prop where
  shows : runner.rules.showsProgress = true
  quiet : runner.rules.logFailure = none
  scored : Scored runner.surroundings.record runner.playback.handle.isSome
    runner.surroundings.progress
  plays : ∀ number, runner.playback.handle = some number ↔ runner.ledger.IsLive number

/-- A runner stays in tune as long as the player plays the same run. -/
theorem InTune.change (inTune : runner.InTune) (rules : later.rules = runner.rules)
    (playback : later.playback = runner.playback)
    (live : ∀ number, later.ledger.IsLive number ↔ runner.ledger.IsLive number)
    (keeps : runner.surroundings.KeepsScore later.surroundings) : later.InTune where
  shows := rules ▸ inTune.shows
  quiet := rules ▸ inTune.quiet
  scored := playback ▸ keeps.scored _ inTune.scored
  plays number := by
    rw [playback, live]
    exact inTune.plays number

theorem InTune.setSurroundings (inTune : runner.InTune) {world : World}
    (keeps : runner.surroundings.KeepsScore world) : (runner.setSurroundings world).InTune := by
  obtain ⟨ledger, rules, -, -⟩ := ledger_setSurroundings runner world
  apply inTune.change rules (playback_setSurroundings runner world)
  · intro number
    rw [ledger]
  · rw [surroundings_setSurroundings]
    exact keeps

/-- A player that plays nothing follows a runner without a live run. -/
theorem InTune.idle (inTune : runner.InTune) (stopped : runner.playback.handle = none)
    (number : Nat) : ¬ runner.ledger.IsLive number := by
  intro live
  rw [(inTune.plays number).mpr live] at stopped
  cases stopped

/-! ### Ends of runs -/

/-- The player that plays a run stops with it. -/
theorem announce_of_plays (plays : runner.playback.handle = some number) :
    (runner.announce (some number)).playback.handle = none ∧
      (runner.announce (some number)).surroundings = runner.surroundings.enter (.status false) := by
  have stops : runner.playback.finish (some number) = (true, ⟨none⟩) := by
    rw [Playback.finish, plays, beq_self_eq_true, if_pos rfl]
  unfold announce
  rw [stops]
  exact ⟨congrArg Playback.handle (playback_setSurroundings _ _), surroundings_setSurroundings _ _⟩

theorem Sound.announce (sound : runner.Sound) (ended : Option Nat) :
    runner.Continues (runner.announce ended) := by
  obtain ⟨ledger, rules, schedule, same⟩ := announce_frame runner ended
  exact sound.continues (ledger ▸ sound.orderly) (ledger ▸ .refl _) (by rw [ledger]) rules schedule
    same (isBound_announce sound.bound ended)

/-- When a run ends the player stops if the run was live, and else nothing is shown. -/
theorem InTune.settle (inTune : runner.InTune) (known : number < runner.ledger.handles.length)
    (state : RunState) : (runner.settle number state).InTune := by
  cases done : runner.ledger.isDone number with
  | true =>
      rw [Runner.settle, if_pos done]
      exact inTune
  | false =>
      have plays := (inTune.plays number).mpr ⟨known, done⟩
      obtain ⟨ledger, rules, -, -⟩ := settle_frame runner number state
      obtain ⟨stopped, shown⟩ : (runner.settle number state).playback.handle = none ∧
          (runner.settle number state).surroundings = runner.surroundings.enter (.status false) := by
        rw [Runner.settle, if_neg (by simp [done])]
        exact announce_of_plays plays
      refine ⟨rules ▸ inTune.shows, rules ▸ inTune.quiet, ?_, ?_⟩
      · have scored := inTune.scored
        rw [plays] at scored
        rw [stopped, shown]
        exact .stop scored
      · intro other
        rw [stopped, ledger]
        refine ⟨nofun, fun live => ?_⟩
        -- No run but the one that was played could be live, and it has ended.
        have before := (Ledger.becomes_settle runner.ledger number state).isLive
          (Ledger.length_modify _ _ _) live
        obtain rfl := Option.some.inj (plays.symm.trans ((inTune.plays other).mpr before))
        have ended := live.2
        rw [Ledger.isDone_settle known] at ended
        cases ended

/-- The run that has gone on is put aside, with the surroundings that it leaves. -/
theorem InTune.putAside (inTune : runner.InTune) {run : LiveRun} (isLive : runner.live = some run)
    {ledger : Ledger} (live : ∀ number, ledger.IsLive number ↔ runner.ledger.IsLive number) :
    InTune { runner with ledger := ledger, live := none, world := run.machine.world } := by
  refine inTune.change (by rfl) (by rfl) live ?_
  rw [surroundings_of_live isLive]
  exact .refl _

theorem InTune.collect (inTune : runner.InTune) (sound : runner.Sound) : runner.collect.InTune := by
  unfold Runner.collect
  split
  · exact inTune
  · next run isLive =>
      split
      · next result isOver returned =>
          have known : run.number < runner.ledger.handles.length := by
            have latest := sound.latest run.number (by rw [liveNumber, isLive]; rfl)
            omega
          dsimp only
          split
          · have aside := inTune.putAside isLive
              (Ledger.isLive_requestCancel runner.ledger run.number)
            exact aside.settle ((Ledger.length_modify _ _ _).symm ▸ known) _
          · exact (inTune.putAside isLive fun _ => .rfl).settle known _
      · exact inTune

/-! ### Passing time -/

theorem turnWhile_keepsScore (registry : Catalog.Registry) {rules : Rules}
    (shows : rules.showsProgress = true) (goesOn : Machine RunState → Bool) (turns : Nat)
    (machine : Machine RunState) :
    machine.world.KeepsScore (turnWhile registry rules goesOn turns machine).world := by
  induction turns generalizing machine with
  | zero => exact .refl _
  | succ turns hypothesis =>
      rw [turnWhile]
      split
      · exact .refl _
      · exact (Machine.turn_keepsScore registry shows machine).trans (hypothesis _)

theorem InTune.setMachine (inTune : runner.InTune) {run : LiveRun} (isLive : runner.live = some run)
    {machine : Machine RunState} (keeps : run.machine.world.KeepsScore machine.world) :
    InTune { runner with live := some { run with machine := machine } } := by
  refine inTune.change (by rfl) (by rfl) (fun _ => .rfl) ?_
  rw [surroundings_of_live isLive]
  exact keeps

theorem InTune.advanceWhile (inTune : runner.InTune) (sound : runner.Sound) (turns : Nat)
    (goesOn : Machine RunState → Bool) : (runner.advanceWhile turns goesOn).InTune := by
  unfold Runner.advanceWhile
  split
  · exact inTune
  · next run isLive =>
      have advanced := inTune.setMachine isLive
        (turnWhile_keepsScore runner.registry inTune.shows goesOn turns run.machine)
      have continues := sound.setMachine isLive
        (turnWhile_returns runner.registry runner.rules goesOn turns (sound.bound run isLive))
      exact advanced.collect continues.sound

theorem InTune.setSchedule (inTune : runner.InTune) (spans : List Nat) :
    InTune { runner with schedule := spans } :=
  inTune.change rfl rfl (fun _ => .rfl) (.refl _)

theorem InTune.span (inTune : runner.InTune) (sound : runner.Sound) (turns : Nat)
    (goesOn : Machine RunState → Bool) : (runner.span turns goesOn).InTune :=
  (inTune.setSchedule runner.schedule.tail).advanceWhile
    ⟨sound.orderly, sound.latest, sound.live, sound.bound⟩ _ _

/-- Having a run stopped shows nothing. -/
theorem requestCancel_frame (runner : Runner) (number : Nat) :
    (runner.requestCancel number).playback = runner.playback ∧
      (runner.requestCancel number).ledger = runner.ledger.requestCancel number ∧
      (runner.requestCancel number).surroundings.record = runner.surroundings.record ∧
      (runner.requestCancel number).surroundings.progress = runner.surroundings.progress := by
  unfold Runner.requestCancel
  dsimp only
  split
  · next run isLive =>
      split
      · refine ⟨playback_setSurroundings _ _, (ledger_setSurroundings _ _).1, ?_⟩
        rw [surroundings_setSurroundings]
        exact ⟨rfl, rfl⟩
      · exact ⟨rfl, rfl, rfl, rfl⟩
  · exact ⟨rfl, rfl, rfl, rfl⟩

theorem InTune.requestCancel (inTune : runner.InTune) (sound : runner.Sound) (number : Nat) :
    (runner.requestCancel number).InTune := by
  obtain ⟨playback, ledger, record, progress⟩ := requestCancel_frame runner number
  apply inTune.change (sound.requestCancel number).rules playback _ (.of_eq record progress)
  rw [ledger]
  exact Ledger.isLive_requestCancel runner.ledger number

theorem InTune.revoke (inTune : runner.InTune) (sound : runner.Sound) : runner.revoke.InTune := by
  unfold Runner.revoke
  split
  · next run isLive =>
      have revoked := inTune.setMachine isLive
        (.of_eq (congrArg World.record (Interleaving.revoke_world run.machine))
          (congrArg World.progress (Interleaving.revoke_world run.machine)))
      have continues := sound.setMachine isLive (Machine.revoke_returns (sound.bound run isLive))
      exact revoked.advanceWhile continues.sound _ _
  · exact inTune

/-! ### Log lines -/

/-- `runner.OnlyLogs later`: nothing happened in between but that log lines were written. -/
structure OnlyLogs (runner later : Runner) : Prop where
  ledger : later.ledger = runner.ledger
  rules : later.rules = runner.rules
  schedule : later.schedule = runner.schedule
  liveNumber : later.liveNumber = runner.liveNumber
  playback : later.playback = runner.playback
  progress : later.surroundings.progress = runner.surroundings.progress
  record : ∃ lines : List LogLine,
    later.surroundings.record = lines.map Entry.log ++ runner.surroundings.record

theorem OnlyLogs.refl (runner : Runner) : runner.OnlyLogs runner :=
  ⟨rfl, rfl, rfl, rfl, rfl, rfl, [], rfl⟩

theorem OnlyLogs.trans (first : runner.OnlyLogs middle) (second : middle.OnlyLogs later) :
    runner.OnlyLogs later := by
  obtain ⟨earlier, firstRecord⟩ := first.record
  obtain ⟨lines, secondRecord⟩ := second.record
  refine ⟨second.ledger.trans first.ledger, second.rules.trans first.rules,
    second.schedule.trans first.schedule, second.liveNumber.trans first.liveNumber,
    second.playback.trans first.playback, second.progress.trans first.progress, lines ++ earlier, ?_⟩
  rw [secondRecord, firstRecord, List.map_append, List.append_assoc]

theorem onlyLogs_logged (runner : Runner) (level : Level) (message : String) :
    runner.OnlyLogs (runner.logged level message).2 := by
  obtain ⟨record, progress⟩ :=
    World.logged_frame runner.rules runner.surroundings ⟨level, message⟩
  unfold Runner.logged
  obtain ⟨ledger, rules, schedule, same⟩ := ledger_setSurroundings runner
    (runner.surroundings.logged runner.rules ⟨level, message⟩).2
  refine ⟨ledger, rules, schedule, same, playback_setSurroundings _ _, ?_, [⟨level, message⟩], ?_⟩
  · rw [surroundings_setSurroundings]
    exact progress
  · rw [surroundings_setSurroundings]
    exact record

theorem OnlyLogs.keepsScore (logs : runner.OnlyLogs later) :
    runner.surroundings.KeepsScore later.surroundings := by
  obtain ⟨lines, record⟩ := logs.record
  refine ⟨fun playing scored => ?_, ?_⟩
  · rw [record, logs.progress]
    clear record
    induction lines with
    | nil => exact scored
    | cons line earlier hypothesis => exact .plain ⟨rfl, rfl⟩ hypothesis
  · rw [record]
    clear record
    induction lines with
    | nil => rfl
    | cons line earlier hypothesis =>
        rw [List.map_cons, List.cons_append, statuses_reverse_cons, hypothesis]
        exact List.append_nil _

theorem OnlyLogs.inTune (logs : runner.OnlyLogs later) (inTune : runner.InTune) : later.InTune :=
  inTune.change logs.rules logs.playback (fun _ => logs.ledger ▸ .rfl) logs.keepsScore

/-! ### Calls -/

theorem InTune.stopAndWait (inTune : runner.InTune) (sound : runner.Sound) (number : Nat) :
    (runner.stopAndWait number).InTune := by
  have requests := inTune.requestCancel sound number
  unfold Runner.stopAndWait
  dsimp only
  split
  · exact requests
  · exact requests.span (sound.requestCancel number).sound _ _

theorem InTune.drain (inTune : runner.InTune) (sound : runner.Sound)
    (known : number < runner.ledger.handles.length) : (runner.drain number).2.InTune := by
  have waits := (sound.stopAndWait known).1
  have looks := waits.trans waits.sound.lookAway
  have tuned : (runner.stopAndWait number).lookAway.InTune :=
    (inTune.stopAndWait sound number).span waits.sound _ _
  unfold Runner.drain
  dsimp only
  split
  · exact tuned
  · have continues := looks.sound.logged .warning "Run did not stop in time, forcing cancellation"
    have logs := (onlyLogs_logged _ .warning
      "Run did not stop in time, forcing cancellation").inTune tuned
    split
    · next fault warned failed =>
        rw [failed] at logs
        exact logs
    · next warned written =>
        rw [written] at logs continues
        have again := continues.trans continues.sound.lookAway
        have stillKnown : number < warned.lookAway.ledger.handles.length :=
          (looks.trans again).size ▸ known
        exact ((logs.span continues.sound _ _).settle stillKnown .cancelled).revoke
          (again.sound.settle number rfl).sound

theorem InTune.cancel (inTune : runner.InTune) (sound : runner.Sound) {number : Option Nat}
    (names : runner.Names number) : (runner.cancel number).2.InTune := by
  rcases sound.cancel_cases names with ⟨-, -, same⟩ | ⟨chosen, -, known, -, same⟩
  · rw [same]
    exact inTune
  · rw [same]
    exact inTune.drain sound known

theorem InTune.shutDown (inTune : runner.InTune) : runner.shutDown.2.InTune := by
  unfold Runner.shutDown
  split
  · exact inTune
  · have closes : InTune { runner with isOpen := false } :=
      inTune.change rfl rfl (fun _ => .rfl) (.refl _)
    dsimp only
    split
    · exact (onlyLogs_logged _ _ _).inTune (closes.setSurroundings (.of_eq rfl rfl))
    · exact closes

theorem InTune.close (inTune : runner.InTune) (sound : runner.Sound) : runner.close.2.InTune := by
  have cancels := inTune.cancel sound (names_none runner)
  unfold Runner.close
  split
  · next fault cancelled failed =>
      rw [failed] at cancels
      exact cancels
  · next state cancelled ended =>
      rw [ended] at cancels
      exact cancels.shutDown

/-! ### Starts -/

/-- `runner.StaysSilent later`: the player plays as little as before, and no status was shown. -/
structure StaysSilent (runner later : Runner) : Prop where
  stopped : later.playback.handle = none
  keeps : runner.surroundings.KeepsScore later.surroundings

theorem StaysSilent.trans (first : runner.StaysSilent middle) (second : middle.StaysSilent later) :
    runner.StaysSilent later :=
  ⟨second.stopped, first.keeps.trans second.keeps⟩

theorem announce_of_stopped (stopped : runner.playback.handle = none) (number : Nat) :
    runner.announce (some number) = runner := by
  have ignores : runner.playback.finish (some number) = (false, runner.playback) := by
    rw [Playback.finish, stopped, if_neg (by simp)]
  rw [announce, ignores]
  rfl

/-- While the player plays nothing, the end of a run shows nothing. -/
theorem staysSilent_settle (stopped : runner.playback.handle = none) (number : Nat)
    (state : RunState) : runner.StaysSilent (runner.settle number state) := by
  unfold Runner.settle
  split
  · exact ⟨stopped, .refl _⟩
  · dsimp only
    rw [announce_of_stopped (by exact stopped)]
    exact ⟨stopped, .refl _⟩

theorem staysSilent_collect (stopped : runner.playback.handle = none) :
    runner.StaysSilent runner.collect := by
  unfold Runner.collect
  split
  · exact ⟨stopped, .refl _⟩
  · next run isLive =>
      split
      · next result isOver returned =>
          dsimp only
          generalize (if run.machine.world.signal = true then runner.ledger.requestCancel run.number
            else runner.ledger) = ledger
          have aside : runner.StaysSilent
              { runner with ledger := ledger, live := none, world := run.machine.world } := by
            refine ⟨stopped, ?_⟩
            rw [surroundings_of_live isLive]
            exact .refl _
          exact aside.trans (staysSilent_settle aside.stopped run.number (endState result))
      · exact ⟨stopped, .refl _⟩

/-- While the player plays nothing, a run that goes on shows no status, also when it ends. -/
theorem staysSilent_advanceWhile (shows : runner.rules.showsProgress = true)
    (stopped : runner.playback.handle = none) (turns : Nat) (goesOn : Machine RunState → Bool) :
    runner.StaysSilent (runner.advanceWhile turns goesOn) := by
  unfold Runner.advanceWhile
  split
  · exact ⟨stopped, .refl _⟩
  · next run isLive =>
      let machine := turnWhile runner.registry runner.rules goesOn turns run.machine
      have advanced : runner.StaysSilent { runner with live := some { run with machine := machine } } := by
        refine ⟨stopped, ?_⟩
        rw [surroundings_of_live isLive]
        exact turnWhile_keepsScore runner.registry shows goesOn turns run.machine
      exact advanced.trans (staysSilent_collect advanced.stopped)

theorem staysSilent_lookAway (shows : runner.rules.showsProgress = true)
    (stopped : runner.playback.handle = none) : runner.StaysSilent runner.lookAway := by
  have scheduled : runner.StaysSilent { runner with schedule := runner.schedule.tail } :=
    ⟨stopped, .refl _⟩
  exact scheduled.trans (staysSilent_advanceWhile (by exact shows) scheduled.stopped _ _)

/-- If no run is live and the player plays nothing, a call to cancel shows nothing. -/
theorem Sound.cancel_of_idle (sound : runner.Sound) (shows : runner.rules.showsProgress = true)
    (stopped : runner.playback.handle = none) (idle : ∀ number, ¬ runner.ledger.IsLive number) :
    ∃ state ready, runner.cancel none = (.ok state, ready) ∧ runner.Continues ready ∧
      runner.StaysSilent ready := by
  rcases sound.cancel_cases (names_none runner) with ⟨-, -, same⟩ | ⟨chosen, -, known, -, same⟩
  · exact ⟨.idle, runner, same, sound.refl, stopped, .refl _⟩
  · have done : runner.ledger.isDone chosen = true := by
      by_contra running
      exact idle chosen ⟨known, Bool.eq_false_iff.mpr running⟩
    obtain ⟨playback, ledger, record, progress⟩ := requestCancel_frame runner chosen
    have requests := sound.requestCancel chosen
    have still : (runner.requestCancel chosen).ledger.isDone chosen = true := by
      rw [ledger, Ledger.isDone_requestCancel]
      exact done
    have waited : runner.stopAndWait chosen = runner.requestCancel chosen := by
      rw [Runner.stopAndWait]
      exact if_pos still
    have looks := requests.trans requests.sound.lookAway
    have silent : runner.StaysSilent (runner.requestCancel chosen) :=
      ⟨playback ▸ stopped, .of_eq record progress⟩
    refine ⟨(runner.requestCancel chosen).ledger.stateOf chosen,
      (runner.requestCancel chosen).lookAway, ?_, looks,
      silent.trans (staysSilent_lookAway (requests.rules ▸ shows) silent.stopped)⟩
    rw [same, Runner.drain, waited]
    exact if_pos (requests.sound.lookAway.becomes.isDone still).1

/-- If no run is live and the player plays nothing, a call to run a program returns, and shows nothing
by itself. -/
theorem Sound.run_of_idle (sound : runner.Sound) (shows : runner.rules.showsProgress = true)
    (quiet : runner.rules.logFailure = none) (stopped : runner.playback.handle = none)
    (idle : ∀ number, ¬ runner.ledger.IsLive number) (program : Script.Program) :
    ∃ ready : Runner, runner.run program = (.ok (), ready.begin program) ∧ runner.Continues ready ∧
      runner.StaysSilent ready := by
  obtain ⟨state, ready, cancelled, readied, silent⟩ := sound.cancel_of_idle shows stopped idle
  have opens := readied.sound.setOpen true
  unfold Runner.run
  rw [cancelled]
  dsimp only
  generalize s!"Run started: {program.blocks.length} block(s), {program.stepCount} step(s)" = message
  have continues := (readied.trans opens).trans (opens.sound.logged .info message)
  have logs := onlyLogs_logged { ready with isOpen := true } .info message
  have taken := logged_of_quiet { ready with isOpen := true } (readied.rules ▸ quiet) .info message
  have written : ready.StaysSilent (Runner.logged { ready with isOpen := true } .info message).2 :=
    ⟨(congrArg Playback.handle logs.playback).trans silent.stopped, logs.keepsScore⟩
  refine ⟨_, ?_, continues, silent.trans written⟩
  split
  · next fault written failed =>
      rw [failed] at taken
      cases taken
  · next written logged => rw [logged]

/-- The surroundings are changed, and something is entered in the record. -/
theorem Sound.enter_within (sound : runner.Sound) (world : World) (entry : Entry) :
    runner.Continues ((runner.setSurroundings world).enter entry) ∧
      ((runner.setSurroundings world).enter entry).ledger = runner.ledger ∧
      ((runner.setSurroundings world).enter entry).playback = runner.playback ∧
      ((runner.setSurroundings world).enter entry).surroundings = world.enter entry := by
  have changes := sound.setSurroundings world
  refine ⟨changes.trans (changes.sound.setSurroundings _), ?_, ?_, ?_⟩
  · exact (ledger_setSurroundings _ _).1.trans (ledger_setSurroundings _ _).1
  · rw [enter, playback_setSurroundings, playback_setSurroundings]
  · rw [enter, surroundings_setSurroundings, surroundings_setSurroundings]

/-- The player follows the run that was started last.  If it has ended meanwhile, the player stops at
once. -/
theorem Sound.follow (sound : runner.Sound) (shows : runner.rules.showsProgress = true)
    (quiet : runner.rules.logFailure = none)
    (scored : Scored runner.surroundings.record true runner.surroundings.progress)
    (latest : number + 1 = runner.ledger.handles.length) :
    runner.Continues (Player.follow runner number) ∧ (Player.follow runner number).InTune ∧
      (Player.follow runner number).playback.handle.isSome = !runner.ledger.isDone number ∧
      statuses (Player.follow runner number).surroundings.record.reverse =
        statuses runner.surroundings.record.reverse ++
          if runner.ledger.isDone number then [false] else [] := by
  have follows : runner.Continues { runner with playback := .begin number } :=
    ⟨⟨sound.orderly, sound.latest, sound.live, sound.bound⟩, .refl _, rfl, rfl, id⟩
  unfold Player.follow
  dsimp only
  cases done : runner.ledger.isDone number with
  | true =>
      rw [if_pos rfl]
      have begun : ({ runner with playback := .begin number } : Runner).playback.handle =
          some number := rfl
      obtain ⟨stopped, shown⟩ := announce_of_plays begun
      obtain ⟨ledger, rules, -, -⟩ :=
        announce_frame { runner with playback := .begin number } (some number)
      refine ⟨follows.trans (follows.sound.announce (some number)), ?_, ?_, ?_⟩
      · refine ⟨(congrArg Rules.showsProgress rules).trans shows,
          (congrArg Rules.logFailure rules).trans quiet, ?_, fun other => ?_⟩
        · rw [stopped, shown]
          exact .stop scored
        · rw [stopped, ledger]
          refine ⟨nofun, fun live => ?_⟩
          -- Only the run that was started last could be live, and it has ended.
          have last := sound.orderly.of_isLive live
          obtain rfl : other = number := by omega
          have running := live.2
          rw [done] at running
          cases running
      · rw [stopped]
        rfl
      · rw [shown]
        exact statuses_reverse_cons (.status false) _
  | false =>
      rw [if_neg (by simp)]
      refine ⟨follows, ⟨shows, quiet, scored, fun other => ?_⟩, rfl, (List.append_nil _).symm⟩
      constructor
      · rintro ⟨⟩
        exact ⟨Nat.lt_of_succ_le latest.le, done⟩
      · intro live
        have last := sound.orderly.of_isLive live
        obtain rfl : other = number := by omega
        rfl

/-- The player begins to play: that is shown, and a run is started.  If the run ends before the player
follows it, the player stops at once. -/
theorem InTune.start (inTune : runner.InTune) (sound : runner.Sound)
    (stopped : runner.playback.handle = none) (program : Script.Program) :
    ∃ after, Player.start runner program = (.ok (), after) ∧ after.Sound ∧ after.InTune ∧
      after.ledger.handles.length = runner.ledger.handles.length + 1 ∧
      statuses after.surroundings.record.reverse = statuses runner.surroundings.record.reverse ++
        true :: (if after.playback.handle.isSome then [] else [false]) ∧
      (runner.schedule = [] → after.playback.handle.isSome = true) := by
  unfold Player.start
  dsimp only
  have shows := sound.enter_within { runner.surroundings with progress := 0 } (.status true)
  revert shows
  generalize (runner.setSurroundings { runner.surroundings with progress := 0 }).enter
    (.status true) = shown
  rintro ⟨continues, ledger, playback, world⟩
  have scored : Scored shown.surroundings.record true shown.surroundings.progress := by
    have before := inTune.scored
    rw [stopped] at before
    rw [world]
    exact .play before
  have showsProgress : shown.rules.showsProgress = true := continues.rules ▸ inTune.shows
  obtain ⟨ready, ran, readied, silent⟩ := continues.sound.run_of_idle showsProgress
    (continues.rules ▸ inTune.quiet) (playback ▸ stopped) (ledger ▸ inTune.idle stopped) program
  have begun : (ready.begin program).Sound := by
    have after := (continues.sound.run program).1
    rwa [ran] at after
  have readySize : ready.ledger.handles.length = runner.ledger.handles.length :=
    readied.size.trans continues.size
  have size : (ready.begin program).ledger.handles.length = runner.ledger.handles.length + 1 :=
    List.length_append.trans (congrArg (· + 1) readySize)
  have rules : ready.rules = runner.rules := readied.rules.trans continues.rules
  have away := begun.lookAway
  have beginStopped : (ready.begin program).playback.handle = none := silent.stopped
  have aloof : (ready.begin program).StaysSilent (ready.begin program).lookAway :=
    staysSilent_lookAway (by exact rules ▸ inTune.shows) beginStopped
  have awayScored := aloof.keeps.scored true (silent.keeps.scored true scored)
  have latest : runner.ledger.handles.length + 1 =
      (ready.begin program).lookAway.ledger.handles.length := by
    rw [away.size, size]
  obtain ⟨follows, tuned, plays, statuses⟩ := away.sound.follow
    (away.rules ▸ rules ▸ inTune.shows) (away.rules ▸ rules ▸ inTune.quiet) awayScored latest
  rw [ran]
  dsimp only
  rw [size, Nat.add_sub_cancel]
  refine ⟨_, rfl, follows.sound, tuned, ?_, ?_, fun unscheduled => ?_⟩
  · rw [follows.size, away.size, size]
  · have entered := statuses_reverse_cons (.status true) runner.surroundings.record
    have before : Rehearsal.statuses (ready.begin program).lookAway.surroundings.record.reverse =
        Rehearsal.statuses runner.surroundings.record.reverse ++ [true] := by
      rw [aloof.keeps.statuses]
      exact silent.keeps.statuses.trans (world ▸ entered)
    rw [statuses, plays, before, List.append_assoc, List.singleton_append]
    cases (ready.begin program).lookAway.ledger.isDone runner.ledger.handles.length <;> rfl
  · have readyUnscheduled : (ready.begin program).schedule = [] :=
      (continues.trans readied).schedule unscheduled
    rw [plays, lookAway_of_unscheduled readyUnscheduled, Bool.not_eq_true', ← readySize]
    exact Ledger.Orderly.isDone_add_length ready.ledger

end Runner

/-! ### The player -/

namespace Player

variable {player later : Player}

/-- What the player has shown, in order. -/
def stream (player : Player) : List Entry :=
  player.runner.surroundings.record.reverse

/-- What can happen to a player: a call, whether it returns or fails, or that the run that goes on
takes turns for any time.  How many turns the run takes within a call is up to the schedule, which may
become any other one. -/
inductive Step (player : Player) : Player → Prop where
  | play (text : String) : Step player (player.play text).2
  | stop : Step player player.stop.2
  | close : Step player player.close.2
  | time (turns : Nat) (goesOn : Machine RunState → Bool) :
      Step player (player.withRunner (player.runner.advanceWhile turns goesOn))
  | schedule (spans : List Nat) :
      Step player (player.withRunner { player.runner with schedule := spans })

/-- What can happen to a player in all. -/
abbrev Steps : Player → Player → Prop :=
  Relation.ReflTransGen Step

end Player

end InputScript.Session
