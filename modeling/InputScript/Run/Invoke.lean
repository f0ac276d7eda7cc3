/-
Module: InputScript.Run.Invoke
Purpose: One step: its nested steps, the choice of the overload, the call, and the report of its
  outcome.
Main exports: outcomeLine, reported, tokensOf, invoke
-/
import InputScript.Catalog.Resolve
import InputScript.Run.Request

namespace InputScript.Run

open Catalog Script

/-- The log line of an outcome.  There is none for a value that has no written form. -/
def outcomeLine (signalSet : Bool) (name : String) : Outcome → Except Fault LogLine
  | .success .none => .ok ⟨.debug, s!"{name} done"⟩
  | .success value =>
    (Fault.orUnwritten (value.shown? signalSet)).map fun text =>
      ⟨.info, s!"{name} returned: {text}"⟩
  | .cancelled => .ok ⟨.info, s!"{name} cancelled"⟩
  | .failed message true => .ok ⟨.warning, s!"{name}: {message}"⟩
  | .failed message false => .ok ⟨.error, s!"{name} failed: {message}"⟩

/-- Log and report the outcome of a step. -/
def conclude (name : String) (outcome : Outcome) : RunActivity Unit := do
  let line ← Activity.ofExcept (outcomeLine (← isStopping) name outcome)
  log line.level line.message
  report ⟨name, outcome⟩

/-- The outcome of a step that ends in a way. -/
def outcomeOf : Except Interruption Value → Outcome
  | .ok value => .success value
  | .error .revoked => .cancelled
  | .error (.fault fault) => fault.outcome

/-- Carry out a step, conclude it, and end as it ended. -/
def reported (name : String) (step : RunActivity Value) : RunActivity Value := do
  let result ← step.attempt
  conclude name (outcomeOf result)
  .finished result

/-- Call the operation that was chosen. -/
def callResolved (resolution : Resolution) : RunActivity Value := do
  let overload := resolution.overload
  let ordinal ← call overload.implementation.label resolution.arguments
  let activity := overload.implementation.body
    ⟨resolution.arguments, overload.declaration.cancellable, ordinal⟩
  if overload.implementation.isAsync then ofAction activity else handedOver activity

/-- Call the operation of a name with the tokens that an activity gives.  The signal is looked at
before the tokens are made and again before the call. -/
def perform (registry : Registry) (name : String) (tokens : RunActivity (List String)) :
    RunActivity Value := do
  failIfStopping
  let found ← tokens
  failIfStopping
  let resolution ← Activity.ofExcept (registry.resolve name found)
  callResolved resolution

/-- The token that stands for the result of a step. -/
def tokenOf (step : RunActivity Value) : RunActivity String := do
  let value ← step
  Activity.ofExcept (Fault.orUnwritten (value.token? (← isStopping)))

mutual

/-- The token of an argument: the result of a nested step or of a bare name that takes no argument,
else the text itself. -/
def argumentToken (registry : Registry) : Argument → RunActivity String
  | .token text =>
    if registry.isZeroArity text then
      tokenOf (reported text (perform registry text (pure [])))
    else pure text
  | .step name arguments =>
    tokenOf (reported name (perform registry name (tokensOf registry arguments)))

/-- The tokens of arguments from left to right. -/
def tokensOf (registry : Registry) : List Argument → RunActivity (List String)
  | [] => pure []
  | argument :: rest => do
    let token ← argumentToken registry argument
    let tokens ← tokensOf registry rest
    return token :: tokens

end

/-- Carry out a step with all its nested steps and give its outcome.  Only being called off is not an
outcome. -/
def invoke (registry : Registry) (step : Step) : RunActivity Outcome := do
  let activity := reported step.name (perform registry step.name (tokensOf registry step.arguments))
  match ← activity.attempt with
  | .ok value => return .success value
  | .error (.fault fault) => return fault.outcome
  | .error .revoked => Activity.interrupt .revoked

/-- Carry out steps one after another, whatever their outcomes. -/
def invokeAll (registry : Registry) : List Step → RunActivity (List Outcome)
  | [] => pure []
  | step :: rest => do
    let outcome ← invoke registry step
    let outcomes ← invokeAll registry rest
    return outcome :: outcomes

end InputScript.Run
