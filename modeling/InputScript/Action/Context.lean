/-
Module: InputScript.Action.Context
Purpose: What the input actions depend on: the abilities of the platform, the preferences of the user,
  and the pause between pressing and releasing.
Main exports: Platform, Preferences, InputContext, Action.warn
-/
import InputScript.Action.Request

namespace InputScript

open Number

/-- What the platform can do. -/
structure Platform where
  /-- The special keys that the keyboard lacks. -/
  missingKeys : List String := []
  /-- Whether there is a window system that can be asked. -/
  hasWindows : Bool := false
  /-- Whether there is a clipboard. -/
  hasClipboard : Bool := false
  /-- The longest time in milliseconds that a worker can be kept waiting, if there is one. -/
  longestRest : Option Nat := some 9223372036000

/-- Whether a worker can be kept waiting for a number of milliseconds. -/
def Platform.canRest (platform : Platform) (milliseconds : Int) : Bool :=
  platform.longestRest.all (milliseconds ≤ ·)

/-- The default time in milliseconds between pressing and releasing. -/
def defaultRestTime : Int := 10

/-- The default number of wheel notches of one turn. -/
def defaultScrollStep : Int := 1

/-- What the user prefers.  Reading a preference can fail. -/
structure Preferences where
  /-- The time in milliseconds between pressing and releasing. -/
  restTime : Except Fault Int := .ok defaultRestTime
  /-- The number of wheel notches of one turn. -/
  scrollStep : Except Fault Int := .ok defaultScrollStep

/-- What the input actions depend on. -/
structure InputContext where
  platform : Platform := {}
  preferences : Preferences := {}

/-- A number of milliseconds in seconds. -/
def millisecondsToSeconds (milliseconds : Int) : Except Fault Float :=
  let number := ofInteger milliseconds
  if number.isInf then .error (.raised .overflow (some "int too large to convert to float"))
  else .ok (number / 1000.0)

/-- The fault of a wait that takes longer than the platform allows. -/
def Fault.restTooLong : Fault := .raised .overflow (some "timestamp out of range for platform time_t")

/-- The time in seconds that a number of rest times takes, if it can be waited for. -/
def InputContext.restSeconds (context : InputContext) (factor : Int) : Except Fault Float := do
  let milliseconds := (← context.preferences.restTime) * factor
  let seconds ← millisecondsToSeconds milliseconds
  if context.platform.canRest milliseconds then return seconds else .error .restTooLong

/-- Keep the worker waiting for a number of rest times.  With the signal at hand the wait ends when it
is set. -/
def InputContext.pause (context : InputContext) (hasSignal : Bool) (factor : Int) :
    ActionActivity Unit := do
  let seconds ← Activity.ofExcept (context.restSeconds factor)
  if seconds ≤ 0 then return
  if hasSignal then
    let _ ← Action.wait (some seconds)
  else Action.rest seconds

/-- Log a warning. -/
def Action.warn (message : String) : ActionActivity Unit :=
  Action.log .warning message

end InputScript
