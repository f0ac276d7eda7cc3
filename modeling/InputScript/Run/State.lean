/-
Module: InputScript.Run.State
Purpose: The states of a run.
Main exports: RunState, isFinished, ofText
-/
import InputScript.Outcome

namespace InputScript

open Text

/-- The state of a run. -/
inductive RunState where
  | idle
  | running
  | completed
  | cancelled
  | faulted
  deriving DecidableEq, Repr

namespace RunState

/-- All states. -/
def all : List RunState := [.idle, .running, .completed, .cancelled, .faulted]

/-- The text of a state. -/
def text : RunState → String
  | .idle => "idle"
  | .running => "running"
  | .completed => "completed"
  | .cancelled => "cancelled"
  | .faulted => "faulted"

/-- The name of a state. -/
def name : RunState → String
  | .idle => "IDLE"
  | .running => "RUNNING"
  | .completed => "COMPLETED"
  | .cancelled => "CANCELLED"
  | .faulted => "FAULTED"

/-- Whether a run in that state has ended. -/
def isFinished : RunState → Bool
  | .idle | .running => false
  | .completed | .cancelled | .faulted => true

/-- The state of a text. -/
def ofText (text : String) : Except Fault RunState :=
  match all.find? (·.text == text) with
  | some state => .ok state
  | none => .error (.ofValue s!"{quoted text} is not a valid RunState")

end RunState

end InputScript
