/-
Module: InputScript.Outcome
Purpose: What can go wrong in an action, and how a step ends.
Main exports: FaultKind, Fault, message, shown, outcome, StepEvent
-/
import InputScript.Number.Literal
import InputScript.Value

namespace InputScript

open Text Number

/-! ### Faults -/

/-- The kinds of faults that actions raise. -/
inductive FaultKind where
  | value
  | runtime
  | key
  | system
  | script
  | overflow
  | recursion
  | type
  | index
  | attribute
  /-- A wait was called off. -/
  | revoked
  | interpolationSyntax
  | interpolationMissingOption
  | interpolationDepth
  deriving DecidableEq, Repr

/-- The name of a kind of fault. -/
def FaultKind.label : FaultKind → String
  | .value => "ValueError"
  | .runtime => "RuntimeError"
  | .key => "KeyError"
  | .system => "OSError"
  | .script => "ScriptError"
  | .overflow => "OverflowError"
  | .recursion => "RecursionError"
  | .type => "TypeError"
  | .index => "IndexError"
  | .attribute => "AttributeError"
  | .revoked => "CancelledError"
  | .interpolationSyntax => "InterpolationSyntaxError"
  | .interpolationMissingOption => "InterpolationMissingOptionError"
  | .interpolationDepth => "InterpolationDepthError"

/-- All kinds of faults. -/
def FaultKind.all : List FaultKind :=
  [.value, .runtime, .key, .system, .script, .overflow, .recursion, .type, .index, .attribute,
    .revoked, .interpolationSyntax, .interpolationMissingOption, .interpolationDepth]

/-- The kind of fault of a name. -/
def FaultKind.named? (label : String) : Option FaultKind := all.find? (·.label == label)

/-- Why a step did not succeed. -/
inductive Fault where
  /-- The step noticed that the run is to be stopped. -/
  | stopped (message : String)
  /-- No action of that name takes that many arguments as they are. -/
  | unresolved (name : String) (count : Nat)
  /-- The action failed, with or without a message. -/
  | raised (kind : FaultKind) (detail : Option String)
  deriving DecidableEq, Repr

namespace Fault

/-- The fault of a step that notices the signal. -/
def stop : Fault := .stopped "Cancelled"

/-- The name of a fault's kind. -/
def label : Fault → String
  | .stopped _ => "StepCancelled"
  | .unresolved _ _ => "UnresolvedActionError"
  | .raised kind _ => kind.label

/-- The wording of a fault; a fault without a message has an empty one, and a missing key is
quoted. -/
def message : Fault → String
  | .stopped message => message
  | .unresolved name count =>
    s!"No matching overload for {quoted name} with {count} argument(s)"
  | .raised _ none => ""
  | .raised .key (some key) => quoted key
  | .raised _ (some message) => message

/-- A fault as log lines show it. -/
def shown : Fault → String
  | .raised kind none => s!"{kind.label}()"
  | .raised kind (some detail) => s!"{kind.label}({quoted detail})"
  | fault => s!"{fault.label}({quoted fault.message})"

/-- A fault about an unsuitable value. -/
def ofValue (message : String) : Fault := .raised .value (some message)

/-- The fault of a decimal integer with too many digits. -/
def ofTooManyDigits (refusal : TooManyDigits) : Fault := ofValue refusal.message

/-- A written form, or the fault of a value that has none. -/
def orUnwritten {α : Type} : Option α → Except Fault α
  | some text => .ok text
  | none => .error (ofValue unwrittenMessage)

/-- The fault of a text that is no integer. -/
def ofIntegerError (error : IntegerError) : Fault := ofValue error.message

/-- The fault of a number that has no integer part. -/
def ofTruncateError : TruncateError → Fault
  | .infinite => .raised .overflow (some TruncateError.infinite.message)
  | .notANumber => ofValue TruncateError.notANumber.message

end Fault

/-! ### Outcomes -/

/-- How a step ends. -/
inductive Outcome where
  | success (value : Value)
  | cancelled
  /-- An unresolved step is skipped; any other failure ends more than the step. -/
  | failed (message : String) (unresolved : Bool)
  deriving Inhabited

/-- The name of an outcome's kind. -/
def Outcome.kind : Outcome → String
  | .success _ => "success"
  | .cancelled => "cancelled"
  | .failed _ _ => "failed"

/-- The outcome of a step that ends with a fault.  A fault without a message is shown by the name of
its kind. -/
def Fault.outcome : Fault → Outcome
  | .stopped _ => .cancelled
  | .unresolved name count => .failed (Fault.unresolved name count).message true
  | .raised kind detail =>
    let message := (Fault.raised kind detail).message
    .failed (if message.isEmpty then kind.label else message) false

/-- The report of one step. -/
structure StepEvent where
  name : String
  outcome : Outcome

end InputScript
