/-
Module: InputScript.Run.Request
Purpose: What the activities of a run can ask for: everything that actions ask for, reports to the
  observers of the run, calls of actions, and the start, wait for and end of loops.
Main exports: RunRequest, RunActivity, ofAction, handedOver and one function for each request
-/
import InputScript.Action.Request
import InputScript.Script.Step

namespace InputScript

/-- A request of an activity of a run. -/
inductive RunRequest where
  /-- A request of the action that is being called. -/
  | action (request : ActionRequest)
  /-- Write a log line of the run itself. -/
  | log (line : LogLine)
  /-- Report the end of a step. -/
  | report (event : StepEvent)
  /-- Call an action.  The answer counts the calls of that action, this one included. -/
  | call (label : String) (arguments : List Value)
  /-- Take over the result of a worker. -/
  | handover
  /-- Start the loop of a block, given with its place in the program. -/
  | spawn (index : Nat) (block : Script.Block)
  /-- Wait for all loops; unless tolerant, the first one that fails ends the wait. -/
  | join (tolerant : Bool)
  /-- Call off all loops. -/
  | revokeLoops

/-- The answer to a request of an activity of a run. -/
def RunRequest.Answer : RunRequest → Type
  | .action request => request.Answer
  | .log _ | .report _ => Except Fault Unit
  | .call _ _ => Nat
  | .handover | .join _ => Except Interruption Unit
  | .spawn _ _ | .revokeLoops => Unit

/-- An activity of a run. -/
abbrev RunActivity := Activity RunRequest.Answer

namespace Run

/-- The activity of an action as one of the run. -/
def ofAction {α : Type} : ActionActivity α → RunActivity α
  | .finished result => .finished result
  | .perform request next => .perform (.action request) fun answer => ofAction (next answer)

/-- Whether a request gives the run's other activities the chance to go on. -/
def suspends : ActionRequest → Bool
  | .pass | .sleep _ | .nap .. | .block => true
  | _ => false

/-- Take over the result of a worker. -/
def handover : RunActivity Unit :=
  .perform .handover .finished

/-- The activity of an action whose first part runs on a worker: the worker goes on until the action
ends or first suspends, and its task takes over there.  Rehearsals let nobody in between. -/
def handedOver {α : Type} : ActionActivity α → RunActivity α
  | .finished result => handover.bind fun _ => .finished result
  | .perform request next =>
    if suspends request then handover.bind fun _ => ofAction (.perform request next)
    else .perform (.action request) fun answer => handedOver (next answer)

/-- Write a log line. -/
def log (level : Level) (message : String) : RunActivity Unit :=
  .perform (.log ⟨level, message⟩) fun result => .ofExcept result

/-- Report the end of a step. -/
def report (event : StepEvent) : RunActivity Unit :=
  .perform (.report event) fun result => .ofExcept result

/-- Call an action. -/
def call (label : String) (arguments : List Value) : RunActivity Nat :=
  .perform (.call label arguments) fun ordinal => pure ordinal

/-- Whether the run is to be stopped. -/
def isStopping : RunActivity Bool :=
  ofAction Action.isStopping

/-- Fail if the run is to be stopped. -/
def failIfStopping : RunActivity Unit :=
  ofAction Action.failIfStopping

/-- Have the run stopped. -/
def stop : RunActivity Unit :=
  ofAction Action.stop

/-- Sleep until the signal is set; the result says whether it is. -/
def nap (seconds : Float) : RunActivity Bool :=
  ofAction (Action.nap seconds)

/-- Start the loop of a block. -/
def spawn (index : Nat) (block : Script.Block) : RunActivity Unit :=
  .perform (.spawn index block) fun _ => pure ()

/-- Wait for all loops. -/
def join (tolerant : Bool) : RunActivity Unit :=
  .perform (.join tolerant) .finished

/-- Call off all loops. -/
def revokeLoops : RunActivity Unit :=
  .perform .revokeLoops fun _ => pure ()

end Run

end InputScript
