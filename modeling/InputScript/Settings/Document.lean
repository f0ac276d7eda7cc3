/-
Module: InputScript.Settings.Document
Purpose: Settings as sections of options, with default options that hold in every section; the text of
  a document.
Main exports: Document, Document.lookup?, Document.initial
-/
import InputScript.Dictionary

namespace InputScript.Settings

/-- The name of the section of default options. -/
def defaultSection : String := "DEFAULT"

/-- Sections of options with values of some type. -/
structure Document (α : Type) where
  defaults : Dictionary α := []
  sections : Dictionary (Dictionary α) := []

namespace Document

variable {α β : Type}

/-- Whether a section is there; the default options are no section. -/
def hasSection (document : Document α) (name : String) : Bool :=
  Dictionary.has document.sections name

/-- The options that hold in a section, default options first; none if there is no such section. -/
def options? (document : Document α) (name : String) : Option (Dictionary α) :=
  match Dictionary.get? document.sections name with
  | some own => some (Dictionary.merge document.defaults own)
  | none => if name == defaultSection then some document.defaults else none

/-- The value of an option in a section: its own, else the default one. -/
def lookup? (document : Document α) (name option : String) : Option α :=
  (document.options? name).bind (Dictionary.get? · option)

/-- Change every value. -/
def map (change : α → β) (document : Document α) : Document β where
  defaults := document.defaults.map fun entry => (entry.1, change entry.2)
  sections := document.sections.map fun entry =>
    (entry.1, entry.2.map fun option => (option.1, change option.2))

/-- Add an empty section. -/
def addSection (document : Document α) (name : String) : Document α :=
  { document with sections := Dictionary.set document.sections name [] }

/-- Change the options of a section.  The section of default options has a name of its own. -/
def modifySection (document : Document α) (name : String)
    (change : Dictionary α → Dictionary α) : Document α :=
  if name == defaultSection then { document with defaults := change document.defaults }
  else
    let own := (Dictionary.get? document.sections name).getD []
    { document with sections := Dictionary.set document.sections name (change own) }

end Document

/-! ### Text -/

/-- A value as it is written: further lines are indented. -/
def renderValue (value : String) : String :=
  String.ofList (value.toList.flatMap fun c => if c == '\n' then ['\n', '\t'] else [c])

/-- The text of a section. -/
def renderSection (name : String) (options : Dictionary String) : String :=
  "[" ++ name ++ "]\n" ++
    String.join (options.map fun option => option.1 ++ " = " ++ renderValue option.2 ++ "\n") ++ "\n"

/-- The text of a document. -/
def Document.render (document : Document String) : String :=
  (if document.defaults.isEmpty then "" else renderSection defaultSection document.defaults) ++
    String.join (document.sections.map fun entry => renderSection entry.1 entry.2)

/-- The settings before any file is read. -/
def Document.initial : Document String where
  sections := [
    ("INPUT", [("rest_time", "10"), ("scroll_step", "1")]),
    ("RUNNER", [("stop_timeout", "3.0")]),
    ("COMMANDS", [])]

end InputScript.Settings
