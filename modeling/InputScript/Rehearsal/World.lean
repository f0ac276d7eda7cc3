/-
Module: InputScript.Rehearsal.World
Purpose: The surroundings of a rehearsed run: the signal, the record of what happened, the devices,
  and the rules by which the observers of the run have it stopped or fail.
Main exports: Entry, Desk, Rules, World and one function for each thing that can happen
-/
import InputScript.Dictionary
import InputScript.Run.Walk

namespace InputScript.Rehearsal

open Number

/-! ### The record -/

/-- One thing that happened. -/
inductive Entry where
  | log (line : LogLine)
  /-- A step ended; with the state of the signal at that moment. -/
  | step (event : StepEvent) (signalSet : Bool)
  | call (label : String) (arguments : List Value)
  /-- A worker waited for the signal, with a limit in microseconds. -/
  | wait (microseconds : Option Int)
  /-- A worker waited without a signal. -/
  | rest (microseconds : Int)
  | device (event : Device.Event)
  /-- The player shows how many steps have ended; how many there will be it does not say. -/
  | progress (steps : Nat)
  /-- The player begins or stops playing. -/
  | status (playing : Bool)

/-- A time in seconds in whole microseconds. -/
def microseconds (seconds : Float) : Int :=
  ((roundToInteger (seconds * 1000000.0)).toOption).getD 0

/-! ### Devices -/

/-- A window. -/
structure Window where
  handle : Int
  title : String
  visible : Bool

/-- A device that fails: at the given occurrence of an event, counted from one. -/
structure DeviceFailure where
  source : String
  event : String
  occurrence : Nat
  message : String

/-- The state of the devices. -/
structure Desk where
  position : Value × Value := (.integer 0, .integer 0)
  clipboard : Option String := none
  windows : List Window := []
  keyStates : List (Int × Int) := []
  /-- Asking whether this window is visible has the run stopped. -/
  stopWindow : Option Int := none
  failures : List DeviceFailure := []
  /-- How often each event has happened. -/
  counts : List ((String × String) × Nat) := []

namespace Desk

/-- How often an event has happened. -/
def count (desk : Desk) (event : Device.Event) : Nat :=
  (desk.counts.lookup (event.source, event.name)).getD 0

/-- Count an event. -/
def countEvent (desk : Desk) (event : Device.Event) : Desk :=
  let key := (event.source, event.name)
  { desk with counts := (key, desk.count event + 1) :: desk.counts.filter (·.1 != key) }

/-- The failure of an event that has just been counted. -/
def failure? (desk : Desk) (event : Device.Event) : Option Fault :=
  (desk.failures.find? fun failure =>
    failure.source == event.source && failure.event == event.name &&
      failure.occurrence == desk.count event).map
    fun failure => .raised .system (some failure.message)

/-- What an event that does not fail changes. -/
def apply (desk : Desk) : Device.Event → Desk
  | .move x y => { desk with position := (x, y) }
  | .copy text => { desk with clipboard := some text }
  | _ => desk

/-- Let an event happen. -/
def perform (desk : Desk) (event : Device.Event) : Except Fault Unit × Desk :=
  let counted := desk.countEvent event
  match counted.failure? event with
  | some fault => (.error fault, counted)
  | none => (.ok (), counted.apply event)

/-- The state of a key. -/
def keyState (desk : Desk) (code : Int) : Int :=
  (desk.keyStates.lookup code).getD 0

/-- The window of a handle. -/
def window? (desk : Desk) (handle : Int) : Option Window :=
  desk.windows.find? (·.handle == handle)

end Desk

/-! ### The world -/

/-- What the observers of a run do. -/
structure Rules where
  /-- Have the run stopped at this step. -/
  stopAfterSteps : Option Nat := none
  /-- Have the run stopped at this step and at each later one. -/
  maxSteps : Option Nat := none
  /-- Have the run stopped at a log line once the record has so many entries. -/
  maxEntries : Option Nat := none
  /-- Have the run stopped at this wait of a worker. -/
  stopOnWait : Option Nat := none
  /-- Fail at log lines that begin so. -/
  logFailure : Option String := none
  /-- Fail at the report of steps of this name. -/
  stepFailure : Option String := none
  /-- Whether calls of actions are entered in the record. -/
  recordsCalls : Bool := true
  /-- Whether the player shows the progress of the run. -/
  showsProgress : Bool := false

/-- An order to the machine that runs the activities. -/
inductive Command where
  | spawn (index : Nat) (block : Script.Block)
  | revokeLoops

/-- The surroundings of a run. -/
structure World where
  /-- The time in microseconds. -/
  clock : Nat := 0
  /-- Whether the run is to be stopped. -/
  signal : Bool := false
  /-- What happened, the latest first. -/
  record : List Entry := []
  /-- How often each action was called. -/
  calls : Dictionary Nat := []
  /-- The number of steps that have ended. -/
  steps : Nat := 0
  /-- The number of waits of workers. -/
  waits : Nat := 0
  /-- The number of loops that have been started. -/
  loops : Nat := 0
  /-- Whether a worker will never go on. -/
  blocked : Bool := false
  /-- The number of steps that the player has shown. -/
  progress : Nat := 0
  desk : Desk := {}
  /-- Orders that the machine has not yet carried out, the latest first. -/
  commands : List Command := []

namespace World

/-- Enter something in the record. -/
def enter (world : World) (entry : Entry) : World :=
  { world with record := entry :: world.record }

/-- Have the run stopped. -/
def stop (world : World) : World :=
  { world with signal := true }

/-- Have the run stopped under a condition. -/
def stopIf (world : World) (condition : Bool) : World :=
  if condition then world.stop else world

/-- A log line of the run. -/
def logged (rules : Rules) (world : World) (line : LogLine) : Except Fault Unit × World :=
  let entered := world.enter (.log line)
  let after := entered.stopIf (rules.maxEntries.any (· ≤ entered.record.length))
  match rules.logFailure with
  | some start =>
    if line.message.startsWith start then
      (.error (.raised .runtime (some "log sink broken")), after)
    else (.ok (), after)
  | none => (.ok (), after)

/-- Show the progress of the run after a step. -/
def advance (world : World) : World :=
  { world.enter (.progress (world.progress + 1)) with progress := world.progress + 1 }

/-- The report of a step. -/
def reported (rules : Rules) (world : World) (event : StepEvent) : Except Fault Unit × World :=
  let shown := world.enter (.step event world.signal)
  let entered := if rules.showsProgress then shown.advance else shown
  let counted := { entered with steps := entered.steps + 1 }
  let after := counted.stopIf
    (rules.stopAfterSteps == some counted.steps || rules.maxSteps.any (· ≤ counted.steps))
  if rules.stepFailure == some event.name then
    (.error (.raised .runtime (some "observer broken")), after)
  else (.ok (), after)

/-- A call of an action. -/
def called (rules : Rules) (world : World) (label : String) (arguments : List Value) :
    Nat × World :=
  let entered := if rules.recordsCalls then world.enter (.call label arguments) else world
  let ordinal := (Dictionary.get? entered.calls label).getD 0 + 1
  (ordinal, { entered with calls := Dictionary.set entered.calls label ordinal })

/-- A wait of a worker for the signal. -/
def waited (rules : Rules) (world : World) (seconds : Option Float) : Bool × World :=
  let entered := world.enter (.wait (seconds.map microseconds))
  let counted := { entered with waits := entered.waits + 1 }
  let after := counted.stopIf (rules.stopOnWait == some counted.waits)
  (after.signal, after)

/-- An event on a device. -/
def performed (world : World) (event : Device.Event) : Except Fault Unit × World :=
  let (result, desk) := world.desk.perform event
  (result, { world.enter (.device event) with desk := desk })

/-- A look at whether a window is visible. -/
def looked (world : World) (handle : Int) : Bool × World :=
  let after := world.stopIf (world.desk.stopWindow == some handle)
  (((world.desk.window? handle).map (·.visible)).getD false, after)

/-- Leave an order to the machine. -/
def order (world : World) (command : Command) : World :=
  { world with commands := command :: world.commands }

end World

end InputScript.Rehearsal
