/-
Module: InputScript.Script.Step
Purpose: The parts of a script: steps with their arguments, blocks of steps, and programs; and the
  text of a step.
Main exports: Argument, Step, Repetition, Argument.render, Step.render
-/
namespace InputScript.Script

/-- The mark between the name of a step and its arguments. -/
def separator : Char := '='

/-- The mark that opens the arguments of a nested step. -/
def openBracket : Char := '‹'

/-- The mark that closes the arguments of a nested step. -/
def closeBracket : Char := '›'

/-- An argument of a step: a plain token, or a nested step whose result takes its place. -/
inductive Argument where
  | token (text : String)
  | step (name : String) (arguments : List Argument)
  deriving Repr, Inhabited

/-- One action call with its arguments as they are written. -/
structure Step where
  name : String
  arguments : List Argument := []
  deriving Repr, Inhabited

/-- How often a block is run. -/
inductive Repetition where
  /-- Until the run is stopped, beside everything else. -/
  | forever
  /-- That many times, and not at all for a negative number. -/
  | times (count : Int)
  deriving DecidableEq, Repr

namespace Repetition

/-- Whether the block has no end of its own. -/
def isUnbounded : Repetition → Bool
  | .forever => true
  | .times _ => false

/-- The number that a block is written with; an unbounded one counts as one. -/
def count : Repetition → Int
  | .forever => 1
  | .times count => count

/-- The number of passes of a bounded block. -/
def passes (repetition : Repetition) : Nat :=
  repetition.count.toNat

/-- A block that says nothing else runs once. -/
def once : Repetition := .times 1

end Repetition

/-- A run of steps that is repeated as a whole. -/
structure Block where
  repetition : Repetition
  steps : List Step
  deriving Repr

/-! ### Text -/

mutual

/-- The text of an argument; the arguments of a nested step stand in brackets. -/
def Argument.render : Argument → String
  | .token text => text
  | .step name arguments =>
    name ++ String.singleton openBracket ++ String.intercalate " " (Argument.renderAll arguments) ++
      String.singleton closeBracket

/-- The texts of several arguments. -/
def Argument.renderAll : List Argument → List String
  | [] => []
  | argument :: rest => argument.render :: Argument.renderAll rest

end

/-- The text of a step; a step without arguments is its bare name. -/
def Step.render (step : Step) : String :=
  if step.arguments.isEmpty then step.name
  else
    step.name ++ String.singleton separator ++
      String.intercalate " " (Argument.renderAll step.arguments)

/-! ### Programs -/

/-- A line that could not be taken as it stands. -/
inductive Irregularity where
  /-- A loop marker with an argument that is neither a truth value nor a count. -/
  | loopArgument (text : String)
  /-- A line with nothing in front of the separator. -/
  | missingName (line : String)
  /-- Brackets that do not pair up. -/
  | unbalanced (text : String)
  /-- A name with a blank in it. -/
  | blankInName (name : String)
  deriving DecidableEq, Repr

/-- An irregularity and the number of its line, counted from zero. -/
structure Anomaly where
  line : Nat
  irregularity : Irregularity
  deriving DecidableEq, Repr

/-- The blocks of a script, and what had to be put right to read it. -/
structure Program where
  blocks : List Block
  anomalies : List Anomaly
  deriving Repr

namespace Program

/-- All steps of the script in the order in which they are written. -/
def steps (program : Program) : List Step :=
  program.blocks.flatMap (·.steps)

/-- The number of steps that are written in the script. -/
def stepCount (program : Program) : Nat :=
  program.steps.length

/-- Whether some block has no end of its own. -/
def hasUnbounded (program : Program) : Bool :=
  program.blocks.any (·.repetition.isUnbounded)

end Program

end InputScript.Script
