/-
Module: InputScript.Action.Request
Purpose: What an action can ask for while it runs.
Main exports: ActionRequest, ActionActivity, Call, Body and one function for each request
-/
import InputScript.Activity
import InputScript.Device.Event
import InputScript.Log

namespace InputScript

/-- A request of a running action.  The last four suspend the action: the run's other activities may
go on in between. -/
inductive ActionRequest where
  /-- Write a log line. -/
  | log (line : LogLine)
  /-- Ask whether the run is to be stopped. -/
  | isStopping
  /-- Have the run stopped. -/
  | stop
  /-- Keep the worker waiting for the signal, at most that many seconds. -/
  | wait (seconds : Option Float)
  /-- Keep the worker waiting, with no signal at hand. -/
  | rest (seconds : Float)
  /-- Do something to a device. -/
  | device (event : Device.Event)
  /-- Ask where the pointer is. -/
  | pointer
  /-- Ask for the state of a key. -/
  | keyState (code : Int)
  /-- Ask for the handles of all windows. -/
  | windows
  /-- Ask whether a window is visible. -/
  | isVisible (handle : Int)
  /-- Ask for the title of a window. -/
  | title (handle : Int)
  /-- Ask for the text on the clipboard. -/
  | clipboard
  /-- Ask for the time. -/
  | clock
  /-- Let the others go on once. -/
  | pass
  /-- Sleep, whatever the signal. -/
  | sleep (seconds : Float)
  /-- Sleep until the signal is set, at most that many seconds; the signal is looked at after each
  chunk of the time. -/
  | nap (chunk seconds : Float)
  /-- Never go on. -/
  | block

/-- The answer to a request of an action. -/
def ActionRequest.Answer : ActionRequest → Type
  | .log _ | .stop | .rest _ => Unit
  | .isStopping | .wait _ | .isVisible _ => Bool
  | .device _ => Except Fault Unit
  | .pointer => Value × Value
  | .keyState _ => Int
  | .clock => Nat
  | .windows => List Int
  | .title _ => String
  | .clipboard => Option String
  | .pass | .sleep _ | .block => Except Interruption Unit
  | .nap .. => Except Interruption Bool

/-- The activity of an action. -/
abbrev ActionActivity := Activity ActionRequest.Answer

/-- What an action is called with. -/
structure Call where
  arguments : List Value
  /-- Whether the action has been given the signal of the run. -/
  hasSignal : Bool
  /-- How often the action has been called, this call included. -/
  ordinal : Nat

/-- What an action does when it is called. -/
abbrev Action.Body := Call → ActionActivity Value

namespace Action

/-- Write a log line. -/
def log (level : Level) (message : String) : ActionActivity Unit :=
  .perform (.log ⟨level, message⟩) fun _ => pure ()

/-- Whether the run is to be stopped. -/
def isStopping : ActionActivity Bool :=
  .perform .isStopping fun stopping => pure stopping

/-- Have the run stopped. -/
def stop : ActionActivity Unit :=
  .perform .stop fun _ => pure ()

/-- Fail if the run is to be stopped. -/
def failIfStopping : ActionActivity Unit := do
  if ← isStopping then Activity.fail .stop

/-- Keep the worker waiting for the signal; the result says whether it is set. -/
def wait (seconds : Option Float) : ActionActivity Bool :=
  .perform (.wait seconds) fun stopping => pure stopping

/-- Keep the worker waiting. -/
def rest (seconds : Float) : ActionActivity Unit :=
  .perform (.rest seconds) fun _ => pure ()

/-- Do something to a device. -/
def device (event : Device.Event) : ActionActivity Unit :=
  .perform (.device event) fun result => .ofExcept result

/-- Where the pointer is. -/
def pointer : ActionActivity (Value × Value) :=
  .perform .pointer fun position => pure position

/-- The state of a key. -/
def keyState (code : Int) : ActionActivity Int :=
  .perform (.keyState code) fun state => pure state

/-- The handles of all windows. -/
def windows : ActionActivity (List Int) :=
  .perform .windows fun handles => pure handles

/-- Whether a window is visible. -/
def isVisible (handle : Int) : ActionActivity Bool :=
  .perform (.isVisible handle) fun visible => pure visible

/-- The title of a window. -/
def title (handle : Int) : ActionActivity String :=
  .perform (.title handle) fun text => pure text

/-- The text on the clipboard. -/
def clipboard : ActionActivity (Option String) :=
  .perform .clipboard fun text => pure text

/-- The time in microseconds. -/
def clock : ActionActivity Nat :=
  .perform .clock fun time => pure time

/-- Let the others go on once. -/
def pass : ActionActivity Unit :=
  .perform .pass .finished

/-- Sleep, whatever the signal. -/
def sleep (seconds : Float) : ActionActivity Unit :=
  .perform (.sleep seconds) .finished

/-- The time in seconds between two looks at the signal during a sleep. -/
def napChunk : Float := 0.05

/-- Sleep until the signal is set; the result says whether it is. -/
def nap (seconds : Float) : ActionActivity Bool :=
  .perform (.nap napChunk seconds) .finished

/-- The time in seconds between two looks at the signal while nothing else is waited for. -/
def holdChunk : Float := 0.005

/-- Wait for the signal. -/
def hold : ActionActivity Bool :=
  .perform (.nap holdChunk Number.infinity) .finished

/-- Never go on. -/
def block : ActionActivity Unit :=
  .perform .block .finished

end Action

end InputScript
