/-
Module: InputScript.Session.Runner
Purpose: Runs one after another on one machine: starting a run drains the one before, and a run that
  does not stop in time is called off.
Main exports: runActivity, Runner, Runner.run, Runner.lookAway
-/
import InputScript.Rehearsal.Machine
import InputScript.Session.Ledger

namespace InputScript.Session

open Rehearsal Run

/-! ### One run -/

/-- The log line of the end of a run. -/
def endLine : RunState → LogLine
  | .completed => ⟨.success, "Run completed"⟩
  | .faulted => ⟨.error, "Run faulted"⟩
  | _ => ⟨.info, "Run cancelled"⟩

/-- Run a program and log how it ends. -/
def runActivity (registry : Catalog.Registry) (program : Script.Program) :
    RunActivity RunState := do
  match ← (execute registry program).attempt with
  | .ok state =>
    log (endLine state).level (endLine state).message
    return state
  | .error .revoked =>
    log .info "Run cancelled"
    Activity.interrupt .revoked
  | .error (.fault fault) =>
    log .error s!"Run error: {fault.shown}"
    Activity.fail fault

/-- The state that a run has ended in. -/
def endState : Except Interruption RunState → RunState
  | .ok state => state
  | .error .revoked => .cancelled
  | .error (.fault _) => .faulted

/-! ### The runner -/

/-- A run that has not ended. -/
structure LiveRun where
  number : Nat
  machine : Machine RunState

/-- A runner with all its runs, and the player in front of it. -/
structure Runner where
  registry : Catalog.Registry
  rules : Rules := {}
  /-- The time in seconds that a run is given to stop. -/
  stopTimeout : Float := 3.0
  ledger : Ledger := {}
  live : Option LiveRun := none
  /-- The surroundings between runs. -/
  world : World := {}
  /-- Whether the threads of the runner have been started. -/
  isOpen : Bool := false
  /-- The runs whose end is to be noted, once for each time they are listed. -/
  watchers : List Nat := []
  /-- The noted ends, the latest first. -/
  notes : List (Nat × RunState) := []
  /-- What the player in front of the runner plays. -/
  playback : Playback := {}
  /-- How many turns the run takes in the spans to come: whenever its caller waits for its end, and
  between two looks of its caller at it.  Without an entry it takes all turns that the time allows
  while it is waited for, and none between two looks. -/
  schedule : List Nat := []

namespace Runner

/-- The number of turns that a run is given at a time. -/
def maxTurns : Nat := 1000000

/-- The number of turns that a run is given to finish what is to be done at one moment. -/
def maxTurnsAtOnce : Nat := 10000

/-- The surroundings at this moment. -/
def surroundings (runner : Runner) : World :=
  match runner.live with
  | some run => run.machine.world
  | none => runner.world

/-- Change the surroundings. -/
def setSurroundings (runner : Runner) (world : World) : Runner :=
  match runner.live with
  | some run => { runner with live := some { run with machine := { run.machine with world := world } } }
  | none => { runner with world := world }

/-- Enter something in the record. -/
def enter (runner : Runner) (entry : Entry) : Runner :=
  runner.setSurroundings (runner.surroundings.enter entry)

/-- Write a log line. -/
def logged (runner : Runner) (level : Level) (message : String) : Except Fault Unit × Runner :=
  let (result, world) := runner.surroundings.logged runner.rules ⟨level, message⟩
  (result, runner.setSurroundings world)

/-- Hand out what was recorded since the last time. -/
def takeRecord (runner : Runner) : List Entry × Runner :=
  let world := runner.surroundings
  (world.record.reverse, runner.setSurroundings { world with record := [] })

/-- The player hears of the end of a run. -/
def announce (runner : Runner) (ended : Option Nat) : Runner :=
  let (stopped, playback) := runner.playback.finish ended
  let after := { runner with playback := playback }
  if stopped then after.enter (.status false) else after

/-- Let a run end in a state.  Those who wait for its end hear of it once. -/
def settle (runner : Runner) (number : Nat) (state : RunState) : Runner :=
  if runner.ledger.isDone number then runner
  else
    let heard := runner.watchers.filter (· == number)
    let settled :=
      { runner with
        ledger := runner.ledger.settle number state
        watchers := runner.watchers.filter (· != number)
        notes := heard.map (fun _ => (number, state)) ++ runner.notes }
    settled.announce (some number)

/-- Take notice of the end of the run that has not ended before. -/
def collect (runner : Runner) : Runner :=
  match runner.live with
  | none => runner
  | some run =>
    match run.machine.isOver, run.machine.walk.result? with
    | true, some result =>
      let ledger :=
        if run.machine.world.signal then runner.ledger.requestCancel run.number else runner.ledger
      { runner with ledger := ledger, live := none, world := run.machine.world }.settle
        run.number (endState result)
    | _, _ => runner

/-! ### Passing time -/

/-- Take turns as long as a condition holds. -/
def turnWhile (registry : Catalog.Registry) (rules : Rules)
    (goesOn : Machine RunState → Bool) : Nat → Machine RunState → Machine RunState
  | 0, machine => machine
  | turns + 1, machine =>
    if machine.isIdle || !goesOn machine then machine
    else turnWhile registry rules goesOn turns (machine.turn registry rules)

/-- Let the run that has not ended go on as long as a condition holds, for at most so many turns. -/
def advanceWhile (runner : Runner) (turns : Nat) (goesOn : Machine RunState → Bool) : Runner :=
  match runner.live with
  | none => runner
  | some run =>
    let machine := turnWhile runner.registry runner.rules goesOn turns run.machine
    { runner with live := some { run with machine := machine } }.collect

/-- Whether a machine has something to do up to a time. -/
def isBusyUntil (time : Option Nat) (machine : Machine RunState) : Bool :=
  !machine.ready.isEmpty ||
    match machine.earliest?, time with
    | some due, some limit => due ≤ limit
    | some _, none => true
    | none, _ => false

/-- Let time pass, in seconds. -/
def pass (runner : Runner) (seconds : Float) : Runner :=
  let limit := Machine.dueTime runner.surroundings.clock seconds
  runner.advanceWhile maxTurns (isBusyUntil limit)

/-- Let the run go on for a span: for as many turns as the schedule says, or else for those given. -/
def span (runner : Runner) (turns : Nat) (goesOn : Machine RunState → Bool) : Runner :=
  { runner with schedule := runner.schedule.tail }.advanceWhile (runner.schedule.headD turns) goesOn

/-- Wait for the end of the run for at most so many seconds. -/
def awaitEnd (runner : Runner) (seconds : Float) : Runner :=
  let limit := Machine.dueTime runner.surroundings.clock seconds
  runner.span maxTurns (isBusyUntil limit)

/-- The caller is between two looks at the run. -/
def lookAway (runner : Runner) : Runner :=
  runner.span 0 fun _ => true

/-- Wait for the end of the run. -/
def untilDone (runner : Runner) : Runner :=
  runner.advanceWhile maxTurns fun _ => true

/-- Let the run go on for one turn. -/
def turn (runner : Runner) : Runner :=
  runner.advanceWhile 1 fun _ => true

/-- The time in microseconds until something is to be done. -/
def idleTime (runner : Runner) : Nat :=
  match runner.live with
  | none => 0
  | some run =>
    if !run.machine.ready.isEmpty then 0
    else (run.machine.earliest?.getD 0) - run.machine.world.clock

/-- Wait until an action was called a number of times in all, and until nothing is left to be done at
that moment. -/
def untilCalls (runner : Runner) (label : String) (count : Nat) : Runner :=
  let called := runner.advanceWhile maxTurns fun machine =>
    (Dictionary.get? machine.world.calls label).getD 0 < count
  called.advanceWhile maxTurnsAtOnce fun machine => !machine.ready.isEmpty

/-! ### Operations -/

/-- Have a run stopped. -/
def requestCancel (runner : Runner) (number : Nat) : Runner :=
  let requested := { runner with ledger := runner.ledger.requestCancel number }
  match requested.live with
  | some run =>
    if run.number == number then requested.setSurroundings requested.surroundings.stop
    else requested
  | none => requested

/-- Call off the run that has not ended. -/
def revoke (runner : Runner) : Runner :=
  match runner.live with
  | some run => { runner with live := some { run with machine := run.machine.revoke } }.untilDone
  | none => runner

/-- Have a run stopped and wait for its end, unless it has ended. -/
def stopAndWait (runner : Runner) (number : Nat) : Runner :=
  let requested := runner.requestCancel number
  if requested.ledger.isDone number then requested else requested.awaitEnd runner.stopTimeout

/-- Have a run stopped and wait for its end.  If it does not end in time it counts as cancelled and is
called off.  The caller looks at the run twice: at its state when the wait is over, which is told, and
then at whether it has ended. -/
def drain (runner : Runner) (number : Nat) : Except Fault RunState × Runner :=
  let waited := runner.stopAndWait number
  let told := waited.ledger.stateOf number
  let looked := waited.lookAway
  if looked.ledger.isDone number then (.ok told, looked)
  else
    match looked.logged .warning "Run did not stop in time, forcing cancellation" with
    | (.error fault, warned) => (.error fault, warned)
    | (.ok (), warned) =>
      let forced := (warned.lookAway.settle number .cancelled).revoke
      (.ok (forced.ledger.stateOf number), forced)

/-- Drain a run, or the latest one. -/
def cancel (runner : Runner) (number : Option Nat) : Except Fault RunState × Runner :=
  match number.or runner.ledger.current with
  | none => (.ok .idle, runner)
  | some chosen => runner.drain chosen

/-- Begin a run on a fresh machine. -/
def begin (runner : Runner) (program : Script.Program) : Runner :=
  let number := runner.ledger.handles.length
  let world := { runner.surroundings with signal := false, loops := 0, commands := [] }
  { runner with
    ledger := runner.ledger.add
    live := some ⟨number, .start world (runActivity runner.registry program)⟩
    isOpen := true }

/-- Start a run, once the latest one is drained. -/
def run (runner : Runner) (program : Script.Program) : Except Fault Unit × Runner :=
  match runner.cancel none with
  | (.error fault, ready) => (.error fault, ready)
  | (.ok _, ready) =>
    let opened := { ready with isOpen := true }
    let message :=
      s!"Run started: {program.blocks.length} block(s), {program.stepCount} step(s)"
    match opened.logged .info message with
    | (.error fault, logged) => (.error fault, logged)
    | (.ok (), logged) => (.ok (), logged.begin program)

/-- Note the end of a run, at once if it has ended. -/
def watch (runner : Runner) (number : Nat) : Runner :=
  if runner.ledger.isDone number then
    { runner with notes := (number, runner.ledger.stateOf number) :: runner.notes }
  else { runner with watchers := runner.watchers ++ [number] }

/-- Wait until so many ends are noted. -/
def untilNoted (runner : Runner) (count : Nat) : Runner :=
  if runner.notes.length < count then runner.untilDone else runner

/-- Stop the threads.  Workers that never go on are waited for in vain. -/
def shutDown (runner : Runner) : Except Fault Unit × Runner :=
  if !runner.isOpen then (.ok (), runner)
  else
    let closed := { runner with isOpen := false }
    if closed.surroundings.blocked then
      let freed := closed.setSurroundings { closed.surroundings with blocked := false }
      freed.logged .warning "Worker threads did not finish in time"
    else (.ok (), closed)

/-- Cancel the latest run and stop the threads. -/
def close (runner : Runner) : Except Fault Unit × Runner :=
  match runner.cancel none with
  | (.error fault, cancelled) => (.error fault, cancelled)
  | (.ok _, cancelled) => cancelled.shutDown

/-- The noted ends in order of runs and states. -/
def sortedNotes (runner : Runner) : List (Nat × RunState) :=
  runner.notes.mergeSort fun first second =>
    first.1 < second.1 || (first.1 == second.1 && !(second.2.text < first.2.text))

end Runner

end InputScript.Session
