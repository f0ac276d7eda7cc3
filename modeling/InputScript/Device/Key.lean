/-
Module: InputScript.Device.Key
Purpose: Keys and mouse buttons: their names, their codes, and what is pressed on a device for them.
Main exports: keyNames, buttonNames, Key, Button, keyNamed?, chordKeys
-/
import InputScript.Outcome
import InputScript.Text.Blank

namespace InputScript.Device

open Text Number

/-! ### Names and codes -/

/-- How a key is pressed. -/
inductive KeyFace where
  /-- As a special key, on devices that have it. -/
  | special (name : String)
  /-- As the character that it writes. -/
  | character (text : String)
  /-- By its code. -/
  | plain
  deriving DecidableEq, Repr

/-- A key by name and code. -/
structure KeyEntry where
  name : String
  code : Nat
  face : KeyFace := .plain
  deriving DecidableEq, Repr

/-- The keys of a row: names made from a number, codes in sequence. -/
def keyRow (count : Nat) (entry : Nat → KeyEntry) : List KeyEntry :=
  (List.range count).map entry

/-- The editing, moving, locking and modifying keys, and those of the punctuation marks. -/
def specialKeys : List KeyEntry := [
  ⟨"Back", 0x08, .special "backspace"⟩, ⟨"Tab", 0x09, .special "tab"⟩,
  ⟨"Enter", 0x0D, .special "enter"⟩, ⟨"NumEnter", 0x0D, .special "enter"⟩,
  ⟨"Pause", 0x13, .special "pause"⟩, ⟨"CapsLock", 0x14, .special "caps_lock"⟩,
  ⟨"Escape", 0x1B, .special "esc"⟩, ⟨"Space", 0x20, .special "space"⟩,
  ⟨"PageUp", 0x21, .special "page_up"⟩, ⟨"PageDown", 0x22, .special "page_down"⟩,
  ⟨"End", 0x23, .special "end"⟩, ⟨"Home", 0x24, .special "home"⟩,
  ⟨"Left", 0x25, .special "left"⟩, ⟨"Up", 0x26, .special "up"⟩,
  ⟨"Right", 0x27, .special "right"⟩, ⟨"Down", 0x28, .special "down"⟩,
  ⟨"PrintScreen", 0x2C, .special "print_screen"⟩, ⟨"Insert", 0x2D, .special "insert"⟩,
  ⟨"Delete", 0x2E, .special "delete"⟩, ⟨"LWin", 0x5B, .special "cmd_l"⟩,
  ⟨"RWin", 0x5C, .special "cmd_r"⟩, ⟨"Apps", 0x5D, .special "menu"⟩,
  ⟨"NumMultiply", 0x6A, .plain⟩, ⟨"NumAdd", 0x6B, .plain⟩, ⟨"NumSubtract", 0x6D, .plain⟩,
  ⟨"NumDecimal", 0x6E, .plain⟩, ⟨"NumDivide", 0x6F, .plain⟩,
  ⟨"NumLock", 0x90, .special "num_lock"⟩, ⟨"ScrollLock", 0x91, .special "scroll_lock"⟩,
  ⟨"LeftShift", 0xA0, .special "shift_l"⟩, ⟨"RightShift", 0xA1, .special "shift_r"⟩,
  ⟨"LeftCtrl", 0xA2, .special "ctrl_l"⟩, ⟨"RightCtrl", 0xA3, .special "ctrl_r"⟩,
  ⟨"LeftAlt", 0xA4, .special "alt_l"⟩, ⟨"RightAlt", 0xA5, .special "alt_r"⟩,
  ⟨"OemSemicolon", 0xBA, .character ";"⟩, ⟨"OemPlus", 0xBB, .character "="⟩,
  ⟨"OemComma", 0xBC, .character ","⟩, ⟨"OemMinus", 0xBD, .character "-"⟩,
  ⟨"OemPeriod", 0xBE, .character "."⟩, ⟨"OemQuestion", 0xBF, .character "/"⟩,
  ⟨"OemTilde", 0xC0, .character "`"⟩, ⟨"OemOpenBrackets", 0xDB, .character "["⟩,
  ⟨"OemPipe", 0xDC, .character "\\"⟩, ⟨"OemCloseBrackets", 0xDD, .character "]"⟩,
  ⟨"OemQuotes", 0xDE, .character "'"⟩]

/-- The text of one character given by its code point. -/
def letter (code : Nat) : String := String.singleton (Char.ofNat code)

/-- All keys; a code that is listed twice belongs to the first key that has it. -/
def keys : List KeyEntry :=
  specialKeys ++
    keyRow 10 (fun n => ⟨s!"D{n}", 0x30 + n, .character (toString n)⟩) ++
    keyRow 26 (fun n => ⟨letter (0x41 + n), 0x41 + n, .character (letter (0x61 + n))⟩) ++
    keyRow 10 (fun n => ⟨s!"NumPad{n}", 0x60 + n, .plain⟩) ++
    keyRow 12 (fun n => ⟨s!"F{n + 1}", 0x70 + n, .special s!"f{n + 1}"⟩)

/-- The enumeration of key names. -/
def keyNames : Enumeration :=
  ⟨"KeyName", keys.map fun entry => (entry.name, .number entry.code)⟩

/-- The enumeration of mouse buttons. -/
def buttonNames : Enumeration :=
  ⟨"MouseButton", [("Left", .number 0), ("Right", .number 1), ("Middle", .number 2)]⟩

/-! ### What is pressed -/

/-- What is pressed on a keyboard. -/
inductive Key where
  | special (name : String)
  | character (text : String)
  | code (number : Int)
  /-- A character that is pressed as it stands. -/
  | text (text : String)
  deriving DecidableEq, Repr

/-- A mouse button. -/
inductive Button where
  | left
  | right
  | middle
  deriving DecidableEq, Repr

/-- The name of a mouse button on the device. -/
def Button.name : Button → String
  | .left => "left"
  | .right => "right"
  | .middle => "middle"

/-- What is pressed for a code, when the device lacks the special keys in `missing`. -/
def keyOfCode (missing : List String) (code : Int) : Key :=
  match keys.find? (fun entry => (entry.code : Int) == code) with
  | none => .code code
  | some entry =>
    match entry.face with
    | .special name => if missing.contains name then .code code else .special name
    | .character text => .character text
    | .plain => .code code

/-- The fault of a value that is no number. -/
def notANumber (value : Value) : Fault :=
  .raised .type (some
    s!"int() argument must be a string, a bytes-like object or a real number, not '{value.kindName}'")

/-- The whole number that a value stands for: a fraction is dropped and a text is read. -/
def wholeNumber (value : Value) : Except Fault Int :=
  match value with
  | .integer number => .ok number
  | .boolean flag => .ok (if flag then 1 else 0)
  | .float number => (truncate number).mapError .ofTruncateError
  | .text text => (readInteger text).mapError .ofIntegerError
  | .member ⟨_, _, .number number, true⟩ => .ok number
  | value => .error (notANumber value)

/-- What is pressed for a value: the key of its code. -/
def toKey (missing : List String) (value : Value) : Except Fault Key :=
  (wholeNumber value).map (keyOfCode missing)

/-- The button of a number. -/
def buttonOf? (number : Int) : Option Button :=
  if number == 0 then some .left
  else if number == 1 then some .right
  else if number == 2 then some .middle
  else none

/-- The number that a value is equal to, if it is equal to a whole number. -/
def equalNumber? : Value → Option Int
  | .integer number => some number
  | .boolean flag => some (if flag then 1 else 0)
  | .float number => (decode number).whole?
  | .member ⟨_, _, .number number, true⟩ => some number
  | _ => none

/-- The button that a value is equal to. -/
def toButton (signalSet : Bool) (value : Value) : Except Fault Button :=
  match (equalNumber? value).bind buttonOf? with
  | some button => .ok button
  | none => do
    let text ← Fault.orUnwritten (value.shown? signalSet)
    .error (.ofValue s!"{text} is not a valid MouseButton")

/-! ### Keys by name -/

/-- The key of a name, in any letter case and with blanks around it. -/
def keyNamed? (name : List Char) : Option Member :=
  keyNames.namedFolded? (String.ofList (trim name))

/-- The segments of a chord written with plus signs. -/
def chordSegments (text : String) : List (List Char) :=
  splitWhere (· == '+') text.toList

/-- The keys of a chord written with plus signs; segments that name no key are left out. -/
def chordKeys (text : String) : List Member :=
  (chordSegments text).filterMap keyNamed?

end InputScript.Device
