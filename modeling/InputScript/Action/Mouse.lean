/-
Module: InputScript.Action.Mouse
Purpose: The actions on pointer, mouse buttons and wheel.
Main exports: move, click, press, release, horizontal, vertical
-/
import InputScript.Action.Context

namespace InputScript.Mouse

open Device

/-- Move the pointer. -/
def move (x y : Value) : ActionActivity Value := do
  Action.device (.move x y)
  return .none

/-- Press a button. -/
def press (button : Value) : ActionActivity Value := do
  let button ← Activity.ofExcept (toButton false button)
  Action.device (.press button)
  return .none

/-- Release a button. -/
def release (button : Value) : ActionActivity Value := do
  let button ← Activity.ofExcept (toButton false button)
  Action.device (.release button)
  return .none

/-- Press a button, pause, and release it in any case. -/
def click (context : InputContext) (hasSignal : Bool) (button : Value) : ActionActivity Value := do
  let button ← Activity.ofExcept (toButton false button)
  Action.device (.press button)
  (context.pause hasSignal 1).ensuring (Action.device (.release button))
  return .none

/-- The number of rest times after a turn of the wheel. -/
def wheelPause : Int := 20

/-- Turn the wheel by one step in a direction and pause. -/
def turnWheel (context : InputContext) (hasSignal : Bool) (direction : Int) :
    ActionActivity Value := do
  let notches ← Activity.ofExcept context.preferences.scrollStep
  Action.device (.scroll 0 (direction * notches))
  context.pause hasSignal wheelPause
  return .none

/-- The horizontal position of the pointer. -/
def horizontal : ActionActivity Value := do
  let position ← Action.pointer
  return .integer (← Activity.ofExcept (wholeNumber position.1))

/-- The vertical position of the pointer. -/
def vertical : ActionActivity Value := do
  let position ← Action.pointer
  return .integer (← Activity.ofExcept (wholeNumber position.2))

end InputScript.Mouse
