/-
Module: InputScript.Settings.Manager
Purpose: Access to the settings: typed reads with a fallback, writes that are saved, and what the rest
  of the program reads.
Main exports: Manager, Manager.load, Manager.set, Manager.preferences
-/
import InputScript.Action.Context
import InputScript.Script.Alias
import InputScript.Settings.Interpolation
import InputScript.Settings.Reader

namespace InputScript.Settings

open Text Number

/-- The settings, and whether they are kept in a file. -/
structure Manager where
  document : Document String := .initial
  hasFile : Bool := false

namespace Manager

/-- The settings that are kept in a file with the given content, if there is one. -/
def load (content : Option (List UInt8)) : Except ReadError Manager :=
  match content with
  | none => .ok ⟨.initial, true⟩
  | some bytes => (readDocument .initial bytes).map fun document => ⟨document, true⟩

/-! ### Typed reads -/

/-- The value of an option in a section with all references replaced, if the option is there. -/
def get? (manager : Manager) (sectionName option : String) : Except Fault (Option String) :=
  match manager.document.options? sectionName with
  | none => .ok none
  | some options =>
    match Dictionary.get? options option with
    | none => .ok none
    | some raw => (expand ⟨sectionName, option, raw⟩ (Dictionary.get? options)).map some

/-- An integer; the fallback if it is missing or none. -/
def readInt (manager : Manager) (sectionName option : String) (fallback : Value) :
    Except Fault Value := do
  match ← manager.get? sectionName option with
  | none => return fallback
  | some text =>
    match readInteger (trimmed text) with
    | .ok number => return .integer number
    | .error _ => return fallback

/-- A number; the fallback if it is missing or none. -/
def readFloat (manager : Manager) (sectionName option : String) (fallback : Value) :
    Except Fault Value := do
  match ← manager.get? sectionName option with
  | none => return fallback
  | some text =>
    match readFloat? (trimmed text) with
    | some number => return .float number
    | none => return fallback

/-- The words for truth values. -/
def truthWords : List (String × Bool) :=
  [("1", true), ("yes", true), ("true", true), ("on", true),
    ("0", false), ("no", false), ("false", false), ("off", false)]

/-- A truth value, in any letter case; the fallback if it is missing or none. -/
def readBool (manager : Manager) (sectionName option : String) (fallback : Value) :
    Except Fault Value := do
  let text := (← manager.get? sectionName option).getD ""
  match truthWords.lookup (folded (trimmed text)) with
  | some flag => return .boolean flag
  | none => return fallback

/-- The kind of value that a read asks for. -/
inductive Reading where
  | int
  | float
  | bool
  deriving DecidableEq, Repr

/-- The fallback of a read that names none. -/
def Reading.fallback : Reading → Value
  | .int => .integer 0
  | .float => .float (Float.ofBits 0)
  | .bool => .boolean false

/-- A value of some kind; the fallback if it is missing or not of that kind. -/
def read (manager : Manager) (reading : Reading) (sectionName option : String)
    (fallback : Option Value) : Except Fault Value :=
  let value := fallback.getD reading.fallback
  match reading with
  | .int => manager.readInt sectionName option value
  | .float => manager.readFloat sectionName option value
  | .bool => manager.readBool sectionName option value

/-! ### Writes -/

/-- Store a value that has been accepted. -/
def store (document : Document String) (sectionName option value : String) : Document String :=
  let name := if sectionName.isEmpty then defaultSection else sectionName
  document.modifySection name fun options => Dictionary.set options option value

/-- Check a value before it is stored. -/
def acceptValue : Value → Except Fault String
  | .text value => do
    if !value.isEmpty then checkValue value
    return value
  | _ => .error (.raised .type (some "option values must be strings"))

/-- Set an option; a section that is missing is added first.  The settings are handed back also when
the value is refused. -/
def set (manager : Manager) (sectionName option : String) (value : Value) :
    Except Fault Unit × Manager :=
  if !manager.document.hasSection sectionName && sectionName == defaultSection then
    (.error (.ofValue s!"Invalid section name: {quoted sectionName}"), manager)
  else
    let document :=
      if manager.document.hasSection sectionName then manager.document
      else manager.document.addSection sectionName
    match acceptValue value with
    | .error fault => (.error fault, { manager with document := document })
    | .ok text =>
      (.ok (), { manager with document := store document sectionName option text })

/-! ### What the rest of the program reads -/

/-- The whole number that a value is. -/
def wholeOf : Value → Int
  | .integer number => number
  | _ => 0

/-- The time in milliseconds between pressing and releasing, never negative. -/
def restTime (manager : Manager) : Except Fault Int :=
  (manager.readInt "INPUT" "rest_time" (.integer defaultRestTime)).map fun value =>
    max 0 (wholeOf value)

/-- The number of wheel notches of one turn. -/
def scrollStep (manager : Manager) : Except Fault Int :=
  (manager.readInt "INPUT" "scroll_step" (.integer defaultScrollStep)).map wholeOf

/-- The default time in seconds that a run is given to stop. -/
def defaultStopTimeout : Float := 3.0

/-- The time in seconds that a run is given to stop. -/
def stopTimeout (manager : Manager) : Except Fault Float :=
  (manager.readFloat "RUNNER" "stop_timeout" (.float defaultStopTimeout)).map fun value =>
    match value with
    | .float number => number
    | _ => defaultStopTimeout

/-- The preferences of the input actions. -/
def preferences (manager : Manager) : Preferences :=
  ⟨manager.restTime, manager.scrollStep⟩

/-- The values of all options that hold in a section. -/
def items (manager : Manager) (sectionName : String) : Except Fault (List (String × String)) :=
  let options := (manager.document.options? sectionName).getD []
  options.mapM fun entry => do
    return (entry.1, ← expand ⟨sectionName, entry.1, entry.2⟩ (Dictionary.get? options))

/-- The aliases of action names; blank ones do not count. -/
def aliases (manager : Manager) : Except Fault Script.Aliases := do
  let entries ← manager.items "COMMANDS"
  return Dictionary.ofPairs <| entries.filterMap fun entry =>
    let target := trimmed entry.2
    if target.isEmpty then none else some (trimmed entry.1, target)

end Manager

/-! ### Settings with their file -/

/-- Settings together with the content of their file. -/
structure Stored where
  manager : Manager
  file : Option (List UInt8) := none

namespace Stored

/-- Settings that are read from their file, or those before any file without one. -/
def fresh (hasFile : Bool) (file : Option (List UInt8)) : Except ReadError Stored :=
  if hasFile then (Manager.load file).map (⟨·, file⟩) else .ok ⟨{}, file⟩

/-- Read the settings again.  If that fails they stay as they are. -/
def reload (stored : Stored) : Except ReadError Unit × Stored :=
  match fresh stored.manager.hasFile stored.file with
  | .ok read => (.ok (), read)
  | .error error => (.error error, stored)

/-- Set an option and save the settings. -/
def set (stored : Stored) (sectionName option : String) (value : Value) :
    Except Fault Unit × Stored :=
  let (result, manager) := stored.manager.set sectionName option value
  match result with
  | .error fault => (.error fault, { stored with manager := manager })
  | .ok () =>
    let file := if manager.hasFile then some (encodeBytes manager.document.render) else stored.file
    (.ok (), ⟨manager, file⟩)

/-- The text of the file. -/
def fileText (stored : Stored) : Option String :=
  stored.file.map fun bytes => String.ofList (unifyLineEnds (decodeBytes bytes).text)

end Stored

end InputScript.Settings
