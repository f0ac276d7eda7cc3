/-
Module: InputScript.Action.Keyboard
Purpose: The actions on the keyboard.
Main exports: press, release, tap, chord, lockState, toggleCase
-/
import InputScript.Action.Context
import InputScript.Text.Digit

namespace InputScript.Keyboard

open Device Text Number

/-- The value of a key by its name. -/
def keyValue (name : String) : Value :=
  match keyNames.named? name with
  | some member => .member member
  | none => .none

/-! ### Single keys -/

/-- Press a key and leave it pressed. -/
def press (context : InputContext) (key : Value) : ActionActivity Value := do
  let key ← Activity.ofExcept (toKey context.platform.missingKeys key)
  Action.device (.keyPress key)
  return .none

/-- Release a key. -/
def release (context : InputContext) (key : Value) : ActionActivity Value := do
  let key ← Activity.ofExcept (toKey context.platform.missingKeys key)
  Action.device (.keyRelease key)
  return .none

/-- Press a key, pause, and release it in any case. -/
def tapKey (context : InputContext) (hasSignal : Bool) (key : Key) : ActionActivity Unit := do
  Action.device (.keyPress key)
  (context.pause hasSignal 1).ensuring (Action.device (.keyRelease key))

/-- Tap the key of a value. -/
def tap (context : InputContext) (hasSignal : Bool) (key : Value) : ActionActivity Value := do
  let key ← Activity.ofExcept (toKey context.platform.missingKeys key)
  tapKey context hasSignal key
  return .none

/-! ### Chords -/

/-- Press keys one after another up to the first that fails.  The result is the keys that are pressed,
the latest first, and how it ended. -/
def pressAll (missing : List String) (pressed : List Key) :
    List Value → ActionActivity (List Key × Except Interruption Unit)
  | [] => pure (pressed, .ok ())
  | value :: rest =>
    match toKey missing value with
    | .error fault => pure (pressed, .error (.fault fault))
    | .ok key => do
      match ← (Action.device (.keyPress key)).attempt with
      | .ok () => pressAll missing (key :: pressed) rest
      | .error interruption => return (pressed, .error interruption)

/-- Release keys one after another. -/
def releaseAll : List Key → ActionActivity Unit
  | [] => pure ()
  | key :: rest => do
    Action.device (.keyRelease key)
    releaseAll rest

/-- Press keys, pause, and release those that are pressed in reverse. -/
def chord (context : InputContext) (hasSignal : Bool) (keys : List Value) :
    ActionActivity Value := do
  let (pressed, result) ← pressAll context.platform.missingKeys [] keys
  let ended ← match result with
    | .ok () => (context.pause hasSignal 1).attempt
    | .error interruption => pure (.error interruption)
  releaseAll pressed
  .finished (ended.map fun _ => .none)

/-- Play a chord written with plus signs.  If it is empty or some part names no key, no key is
touched. -/
def chordText (context : InputContext) (hasSignal : Bool) (text : Option String) :
    ActionActivity Value := do
  let written := text.getD ""
  let names := (chordSegments written).filter (!isBlankText ·)
  let keys := chordKeys written
  if keys.isEmpty || keys.length != names.length then
    let shown := (text.map quoted).getD "None"
    Action.warn s!"KeyboardCombo: unknown key in {shown}"
    return .none
  chord context hasSignal (keys.map .member)

/-! ### Texts -/

/-- Type a text. -/
def type (text : Option String) : ActionActivity Value := do
  let written := text.getD ""
  if !written.isEmpty then Action.device (.type written)
  return .none

/-- Tap characters one after another, unless the run is to be stopped. -/
def tapEach (context : InputContext) (hasSignal : Bool) : List Char → ActionActivity Value
  | [] => pure .none
  | c :: rest => do
    if hasSignal then Action.failIfStopping
    tapKey context hasSignal (.text (String.singleton c))
    tapEach context hasSignal rest

/-- Tap the characters of a text. -/
def tapCharacters (context : InputContext) (hasSignal : Bool) (text : Option String) :
    ActionActivity Value :=
  tapEach context hasSignal (text.getD "").toList

/-- Whether a name is that of one of the twelve function keys: its letter and a number in range,
which may have leading zeros. -/
def isFunctionKeyName (name : List Char) : Except Fault Bool :=
  match name with
  | 'F' :: digits =>
    if digits.isEmpty || !digits.all isDigitLike then .ok false
    else
      match readInteger (String.ofList digits) with
      | .ok number => .ok (1 ≤ number && number ≤ 12)
      | .error error => .error (.ofIntegerError error)
  | _ => .ok false

/-- Tap a function key.  A name out of range is logged and no key is touched. -/
def tapFunctionKey (context : InputContext) (hasSignal : Bool) (text : Option String) :
    ActionActivity Value := do
  let name := trimmed (text.getD "")
  if ← Activity.ofExcept (isFunctionKeyName name.toList) then
    match keyNames.named? name with
    | some member => tap context hasSignal (.member member)
    | none => Activity.fail (.raised .key (some name))
  else
    Action.warn s!"KeyboardPressF1_F12: not a function key: {quoted name}"
    return .none

/-! ### Lock keys -/

/-- Whether a lock key is on. -/
def lockState (context : InputContext) (key : Value) : ActionActivity Bool := do
  if !context.platform.hasWindows then
    Action.warn "GetKeyState requires pywin32"
    return false
  let code ← Activity.ofExcept (wholeNumber key)
  return (← Action.keyState code) % 2 != 0

/-- The key that locks capital letters. -/
def capsLock : Value := keyValue "CapsLock"

/-- Bring the lock of capital letters into a state. -/
def toggleCase (context : InputContext) (hasSignal : Bool) (state : Value) :
    ActionActivity Value := do
  let current ← lockState context capsLock
  if equalNumber? state == some (if current then 1 else 0) then return .none
  tap context hasSignal capsLock

end InputScript.Keyboard
