/-
Module: InputScript.Script.Line
Purpose: The lines of a script one by one: which of them count, how a line splits into a name and its
  arguments, and what the argument of a loop marker says.
Main exports: splitLine, isLoopMarker, readRepetition, Line, Line.read
-/
import InputScript.Number.Literal
import InputScript.Script.Step
import InputScript.Text.Blank
import InputScript.Text.Folding

namespace InputScript.Script

open Text Number

/-- The mark at the start of a comment line. -/
def commentMark : Char := '#'

/-- The word that marks the beginning of a block. -/
def loopKeyword : String := "While"

/-- Split a line at its first separator into a name and an argument text, both trimmed. -/
def splitLine (line : List Char) : List Char × List Char :=
  (trim (line.takeWhile (· != separator)), trim ((line.dropWhile (· != separator)).drop 1))

/-- Whether a name is the loop keyword, in any letter case. -/
def isLoopMarker (name : List Char) : Bool :=
  fold name == fold loopKeyword.toList

theorem fold_loopKeyword : fold loopKeyword.toList = "while".toList := by decide

/-- The least number of passes that can be written. -/
def leastCount : Int := -(twoTo 31)

/-- The first number of passes that is too large to be written. -/
def countLimit : Int := twoTo 31

/-- Read the argument of a loop marker: a truth value, of which `false` means no pass at all, or a
decimal count in range.  Anything else is no repetition. -/
def readRepetition (text : List Char) : Except TooManyDigits (Option Repetition) :=
  let value := trim text
  let word := String.ofList (fold value)
  if word == "true" then .ok (some .forever)
  else if word == "false" then .ok (some (.times 0))
  else
    match signedDigits? value with
    | none => .ok none
    | some (negative, digits) =>
      (limitedDecimal negative digits).map fun count =>
        if leastCount ≤ count && count < countLimit then some (.times count) else none

/-- A line of a script by its role. -/
inductive Line where
  /-- A blank line or a comment. -/
  | empty
  /-- The beginning of a block, with its argument text. -/
  | marker (argument : List Char)
  /-- Any other line. -/
  | step (text : List Char)
  deriving DecidableEq, Repr

/-- The role of a line. -/
def Line.read (raw : List Char) : Line :=
  match trim raw with
  | [] => .empty
  | first :: rest =>
    if first == commentMark then .empty
    else if isLoopMarker (splitLine (first :: rest)).1 then
      .marker (splitLine (first :: rest)).2
    else .step (first :: rest)

end InputScript.Script
