/-
Module: InputScript.Script.Parse
Purpose: Reading a whole script into blocks of steps.  Irregular lines are put right and noted.
Main exports: readStep, parse, ParseFailure, Anomaly.logLine
-/
import InputScript.Log
import InputScript.Outcome
import InputScript.Script.Arguments
import InputScript.Script.Line
import InputScript.Text.Quoted

namespace InputScript.Script

open Text Number

/-! ### Step lines -/

/-- Remove the blanks before the first opening bracket that has blanks before it. -/
def closeGap : List Char → List Char
  | [] => []
  | c :: rest =>
    if isBlank c && (rest.dropWhile isBlank).head? == some openBracket then rest.dropWhile isBlank
    else c :: closeGap rest

/-- Read a line without a separator: `Outer‹Inner a b›`, with or without a blank before the bracket,
stands for `Outer = Inner‹a b›`.  The result is the name and the argument text. -/
def readBracketed (name : List Char) : List Char × List Char :=
  let tight := closeGap name
  match nestedParts? tight with
  | none => (tight, [])
  | some (outer, inner) =>
    if isBalanced inner then
      match splitFirstWord inner with
      | none => (outer, [])
      | some (word, tail) => (outer, word ++ openBracket :: tail ++ [closeBracket])
    else (tight, [])

/-- The name and the argument text of a step line. -/
def stepParts (line : List Char) : List Char × List Char :=
  if line.contains separator then splitLine line else readBracketed (splitLine line).1

/-- What is irregular about a step line with this name and argument text, if anything. -/
def irregularity? (line name argumentText : List Char) : Option Irregularity :=
  if !isBalanced argumentText then some (.unbalanced (String.ofList argumentText))
  else if !line.contains separator && !isBalanced name then
    some (.unbalanced (String.ofList name))
  else if name.any isBlank then some (.blankInName (String.ofList name))
  else none

/-- What a step line says: a step unless the name is missing, and what is irregular about it. -/
structure StepReading where
  step : Option Step
  irregularity : Option Irregularity

/-- Read a step line. -/
def readStep (aliases : Aliases) (line : List Char) : StepReading :=
  if (splitLine line).1.isEmpty then ⟨none, some (.missingName (String.ofList line))⟩
  else
    let (name, argumentText) := stepParts line
    ⟨some ⟨aliases.expand (String.ofList name), tokenize aliases argumentText⟩,
      irregularity? line name argumentText⟩

/-! ### Blocks -/

/-- What is known after some of the lines: the finished blocks and the anomalies, the latest first,
and the open block, if any, with its steps, the latest first. -/
structure Draft where
  blocks : List Block := []
  anomalies : List Anomaly := []
  openBlock : Option (Repetition × List Step) := none

namespace Draft

/-- The draft before the first line. -/
def start : Draft := {}

/-- Note an anomaly. -/
def note (draft : Draft) (line : Nat) (irregularity : Option Irregularity) : Draft :=
  match irregularity with
  | none => draft
  | some cause => { draft with anomalies := ⟨line, cause⟩ :: draft.anomalies }

/-- Finish the open block. -/
def close (draft : Draft) : Draft :=
  match draft.openBlock with
  | none => draft
  | some (repetition, steps) =>
    { draft with blocks := ⟨repetition, steps.reverse⟩ :: draft.blocks, openBlock := none }

/-- Add a step to the open block.  Steps before the first marker are a block that runs once. -/
def push (draft : Draft) (step : Step) : Draft :=
  match draft.openBlock with
  | none => { draft with openBlock := some (.once, [step]) }
  | some (repetition, steps) => { draft with openBlock := some (repetition, step :: steps) }

/-- Begin a block.  An argument that is no repetition stands for one pass and is irregular unless it
is empty. -/
def begin (draft : Draft) (line : Nat) (argument : List Char) (repetition : Option Repetition) :
    Draft :=
  match repetition with
  | some repetition => { draft.close with openBlock := some (repetition, []) }
  | none =>
    let cause := if argument.isEmpty then none else some (.loopArgument (String.ofList argument))
    { draft.close.note line cause with openBlock := some (.once, []) }

/-- Take in the reading of a step line. -/
def addStep (draft : Draft) (line : Nat) (reading : StepReading) : Draft :=
  let noted := draft.note line reading.irregularity
  match reading.step with
  | none => noted
  | some step => noted.push step

/-- The program of all lines.  A script without markers and steps is one empty block. -/
def finish (draft : Draft) : Program :=
  let closed :=
    match draft.openBlock with
    | none => { draft with blocks := ⟨.once, []⟩ :: draft.blocks }
    | some _ => draft.close
  ⟨closed.blocks.reverse, closed.anomalies.reverse⟩

end Draft

/-- Why a script cannot be read, and the anomalies that were noted before. -/
structure ParseFailure where
  refusal : TooManyDigits
  anomalies : List Anomaly

/-- Read lines from the given line number on. -/
def readLines (aliases : Aliases) (draft : Draft) :
    Nat → List (List Char) → Except ParseFailure Draft
  | _, [] => .ok draft
  | number, raw :: rest =>
    match Line.read raw with
    | .empty => readLines aliases draft (number + 1) rest
    | .marker argument =>
      match readRepetition argument with
      | .error refusal => .error ⟨refusal, draft.anomalies.reverse⟩
      | .ok repetition => readLines aliases (draft.begin number argument repetition) (number + 1) rest
    | .step line =>
      readLines aliases (draft.addStep number (readStep aliases line)) (number + 1) rest

/-- Read a script.  Names are replaced through the aliases, whose letter case does not count. -/
def parse (text : String) (aliases : Aliases := []) : Except ParseFailure Program :=
  (readLines aliases.folded .start 0 (lines text.toList)).map Draft.finish

/-! ### Limited room -/

/-- What keeps a script from being read. -/
inductive Obstacle where
  /-- A loop marker whose count has too many digits. -/
  | digits (refusal : TooManyDigits)
  /-- A step line with more steps inside each other than there is room for. -/
  | depth

/-- The fault of an obstacle. -/
def Obstacle.fault : Obstacle → Fault
  | .digits refusal => .ofTooManyDigits refusal
  | .depth =>
    .raised .recursion (some "maximum recursion depth exceeded while calling a Python object")

/-- Why a script was not read to its end, and the anomalies that were noted before. -/
structure ReadFailure where
  obstacle : Obstacle
  anomalies : List Anomaly

/-- A failure that has nothing to do with the room. -/
def ReadFailure.ofParse (failure : ParseFailure) : ReadFailure :=
  ⟨.digits failure.refusal, failure.anomalies⟩

/-- Whether there is room for the nested steps of a line. -/
def lineFits (room : Nat) (raw : List Char) : Bool :=
  match Line.read raw with
  | .step line => (splitLine line).1.isEmpty || fitsWithin room (stepParts line).2
  | _ => true

/-- The anomalies that are noted when there is no room for the nested steps of a line. -/
def Draft.anomaliesAt (draft : Draft) (number : Nat) (raw : List Char) : List Anomaly :=
  match Line.read raw with
  | .step line =>
    let (name, argumentText) := stepParts line
    (draft.note number (irregularity? line name argumentText)).anomalies.reverse
  | _ => draft.anomalies.reverse

/-- Read a script with room for so many steps inside each other: up to the first line that needs more,
as if it were the end of the script. -/
def parseWithin (room : Nat) (text : String) (aliases : Aliases := []) :
    Except ReadFailure Program :=
  let fitting := (lines text.toList).takeWhile (lineFits room)
  match readLines aliases.folded .start 0 fitting with
  | .error failure => .error (.ofParse failure)
  | .ok draft =>
    match (lines text.toList).dropWhile (lineFits room) with
    | [] => .ok draft.finish
    | raw :: _ => .error ⟨.depth, draft.anomaliesAt fitting.length raw⟩

/-- The room on a stack of the usual size. -/
def usualRoom : Nat := 300

/-! ### Wording -/

/-- The wording of an irregularity. -/
def Irregularity.message : Irregularity → String
  | .loopArgument text => s!"{loopKeyword}: invalid argument {quoted text}, defaulting to 1"
  | .missingName line => s!"missing action name: {quoted line}"
  | .unbalanced text => s!"unbalanced brackets in {quoted text}, kept as text"
  | .blankInName name => s!"whitespace in action name {quoted name}"

/-- The wording of an anomaly without its line. -/
def Anomaly.message (anomaly : Anomaly) : String :=
  anomaly.irregularity.message

/-- The log line of an anomaly; lines are counted from one there. -/
def Anomaly.logLine (anomaly : Anomaly) : LogLine :=
  ⟨.warning, s!"Line {anomaly.line + 1}: {anomaly.message}"⟩

/-- The anomalies that reading a script notes, whether or not it succeeds. -/
def anomaliesOf : Except ParseFailure Program → List Anomaly
  | .ok program => program.anomalies
  | .error failure => failure.anomalies

/-- The anomalies that reading a script with limited room notes, whether or not it succeeds. -/
def anomaliesWithin : Except ReadFailure Program → List Anomaly
  | .ok program => program.anomalies
  | .error failure => failure.anomalies

end InputScript.Script
