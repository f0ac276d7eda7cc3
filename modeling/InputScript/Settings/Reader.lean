/-
Module: InputScript.Settings.Reader
Purpose: Reading settings files: section headers, options with values of several lines, comments, and
  the faults of a file.
Main exports: ReadError, readLine, readDocument
-/
import InputScript.Settings.Document
import InputScript.Text.Blank
import InputScript.Text.Utf8

namespace InputScript.Settings

open Text

/-! ### Errors -/

/-- Why a file cannot be read. -/
inductive ReadError where
  | duplicateSection (line : Nat) (name : String)
  | duplicateOption (line : Nat) (sectionName option : String)
  | missingHeader (line : Nat) (text : String)
  /-- Lines that are neither headers nor options. -/
  | malformed (lines : List (Nat × String))
  | undecodable (fault : DecodeFault)
  deriving Repr

/-- The name of a read error's kind. -/
def ReadError.label : ReadError → String
  | .duplicateSection .. => "DuplicateSectionError"
  | .duplicateOption .. => "DuplicateOptionError"
  | .missingHeader .. => "MissingSectionHeaderError"
  | .malformed _ => "ParsingError"
  | .undecodable _ => "UnicodeDecodeError"

/-- A line number in two columns. -/
def lineNumber (line : Nat) : String :=
  if line < 10 then s!" {line}" else toString line

/-- The wording of a read error in the file of a name. -/
def ReadError.message (file : String) (error : ReadError) : String :=
  let source := s!"PosixPath({quoted file})"
  match error with
  | .duplicateSection line name =>
    s!"While reading from {source} [line {lineNumber line}]: section {quoted name} already exists"
  | .duplicateOption line sectionName option =>
    s!"While reading from {source} [line {lineNumber line}]: option {quoted option} in section " ++
      s!"{quoted sectionName} already exists"
  | .missingHeader line text =>
    s!"File contains no section headers.\nfile: {source}, line: {line}\n{quoted text}"
  | .malformed lines =>
    s!"Source contains parsing errors: {source}" ++
      String.join (lines.map fun line => s!"\n\t[line {lineNumber line.1}]: {quoted line.2}")
  | .undecodable fault => fault.message

/-! ### Lines -/

/-- The part of a line before a comment within it: a comment mark at the start or after a blank.
`afterBlank` says whether the text stands at the start or after a blank. -/
def beforeInlineComment (afterBlank : Bool) : List Char → Option (List Char)
  | [] => none
  | c :: rest =>
    if c == '#' && afterBlank then some []
    else (beforeInlineComment (isBlank c) rest).map (c :: ·)

/-- Whether a line is a comment as a whole. -/
def isCommentLine (line : List Char) : Bool :=
  match (trim line).head? with
  | some c => c == '#' || c == ';'
  | none => false

/-- What a line says without its comment, and whether it has one. -/
def stripComment (line : List Char) : List Char × Bool :=
  if isCommentLine line then ([], true)
  else
    match beforeInlineComment true line with
    | some before => (trim before, true)
    | none => (trim line, false)

/-- The name in a section header: all between the opening bracket and the last closing one. -/
def headerName? : List Char → Option (List Char)
  | '[' :: rest =>
    match (rest.reverse.dropWhile (· != ']')).drop 1 with
    | [] => none
    | name => some name.reverse
  | _ => none

/-- Whether a character stands between an option and its value. -/
def isDelimiter (c : Char) : Bool := c == '=' || c == ':'

/-- An option and its value: what stands before and after the first delimiter. -/
def optionParts? (value : List Char) : Option (List Char × List Char) :=
  match value.dropWhile (!isDelimiter ·) with
  | [] => none
  | _ :: after => some (trimEnd (value.takeWhile (!isDelimiter ·)), trim after)

/-! ### Reading -/

/-- What is known after some lines. -/
structure ReadState where
  /-- The values so far, line by line. -/
  document : Document (List String)
  /-- The section that options belong to. -/
  current : Option String := none
  /-- The option that further lines belong to. -/
  option : Option String := none
  /-- The indentation of the last line that was no further line of a value. -/
  indentation : Nat := 0
  seenSections : List String := []
  seenOptions : List (String × String) := []
  /-- Lines that cannot be read, the latest first. -/
  malformed : List (Nat × String) := []

namespace ReadState

/-- Add a line to the value of the open option. -/
def extend (state : ReadState) (text : String) : ReadState :=
  match state.current, state.option with
  | some name, some option =>
    { state with
      document := state.document.modifySection name fun options =>
        Dictionary.set options option (((Dictionary.get? options option).getD []) ++ [text]) }
  | _, _ => state

/-- Note a line that cannot be read. -/
def note (state : ReadState) (number : Nat) (line : List Char) : ReadState :=
  { state with malformed := (number, String.ofList line) :: state.malformed }

/-- Begin a section. -/
def beginSection (state : ReadState) (number : Nat) (name : String) :
    Except ReadError ReadState :=
  if state.document.hasSection name then
    if state.seenSections.contains name then .error (.duplicateSection number name)
    else
      .ok { state with
        current := some name, option := none, seenSections := name :: state.seenSections }
  else if name == defaultSection then .ok { state with current := some name, option := none }
  else
    .ok { state with
      document := state.document.addSection name
      current := some name
      option := none
      seenSections := name :: state.seenSections }

/-- Set an option.  An option without a name is noted and set all the same, and has no further
lines. -/
def setOption (state : ReadState) (number : Nat) (line : List Char) (sectionName : String)
    (option value : List Char) : Except ReadError ReadState :=
  let name := String.ofList option
  let noted := if option.isEmpty then state.note number line else state
  if noted.seenOptions.contains (sectionName, name) then
    .error (.duplicateOption number sectionName name)
  else
    .ok { noted with
      document := noted.document.modifySection sectionName fun options =>
        Dictionary.set options name [String.ofList value]
      option := if option.isEmpty then none else some name
      seenOptions := (sectionName, name) :: noted.seenOptions }

end ReadState

/-- Read one line, which is given with its end. -/
def readLine (state : ReadState) (number : Nat) (line : List Char) : Except ReadError ReadState :=
  let (value, hasComment) := stripComment line
  if value.isEmpty then .ok (if hasComment then state else state.extend "")
  else
    let indentation := (line.takeWhile isBlank).length
    if state.option.isSome && state.indentation < indentation then
      .ok (state.extend (String.ofList value))
    else
      let level := { state with indentation := indentation }
      match headerName? value with
      | some name => level.beginSection number (String.ofList name)
      | none =>
        match level.current with
        | none => .error (.missingHeader number (String.ofList line))
        | some sectionName =>
          match optionParts? value with
          | some (option, optionValue) => level.setOption number line sectionName option optionValue
          | none => .ok (level.note number line)

/-- Read lines from the given line number on. -/
def readLines (state : ReadState) : Nat → List (List Char) → Except ReadError ReadState
  | _, [] => .ok state
  | number, line :: rest =>
    match readLine state number line with
    | .error error => .error error
    | .ok after => readLines after (number + 1) rest

/-- A value of several lines as one text without blanks at its end. -/
def joinLines (lines : List String) : String :=
  String.ofList (trimEnd (String.intercalate "\n" lines).toList)

/-- The document of all lines. -/
def ReadState.finish (state : ReadState) : Except ReadError (Document String) :=
  if state.malformed.isEmpty then .ok (state.document.map joinLines)
  else .error (.malformed state.malformed.reverse)

/-- Read the bytes of a file into a document.  Bytes that are cut off within a character are noticed
after the last whole line. -/
def readDocument (document : Document String) (bytes : List UInt8) :
    Except ReadError (Document String) :=
  let decoded := decodeBytes bytes
  let lines := linesWithEnds (unifyLineEnds decoded.text)
  let start : ReadState := { document := document.map fun value => [value] }
  match decoded.ending with
  | .invalid fault => .error (.undecodable fault)
  | .complete =>
    match readLines start 1 lines with
    | .error error => .error error
    | .ok state => state.finish
  | .cut tail =>
    match readLines start 1 (lines.filter (·.getLast? == some '\n')) with
    | .error error => .error error
    | .ok _ => .error (.undecodable ⟨0, tail, .unexpectedEnd⟩)

end InputScript.Settings
