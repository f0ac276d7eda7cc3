/-
Module: InputScript.Action.Scripted
Purpose: Actions that follow a list of instructions, for rehearsals.
Main exports: Instruction, body
-/
import InputScript.Action.Request
import InputScript.Coercion

namespace InputScript.Scripted

open Number

/-- One instruction of a scripted action. -/
inductive Instruction where
  /-- Have the run stopped from the given call on. -/
  | stopAfter (calls : Int)
  /-- Fail. -/
  | raise (fault : Fault)
  /-- Fail at the given call. -/
  | raiseOn (call : Int) (fault : Fault)
  /-- End with a value. -/
  | result (value : Value)
  /-- End with an argument. -/
  | argument (index : Nat)
  /-- End with the list of the arguments. -/
  | arguments
  /-- End with the sum of the arguments. -/
  | sum
  /-- End with the texts of the arguments, joined. -/
  | join (separator : String)
  /-- End with the number of calls. -/
  | count
  /-- End with the signal, if it was given. -/
  | signal
  /-- Keep the worker waiting for the signal. -/
  | wait (milliseconds : Float)
  /-- Pass once, then end with a value. -/
  | awaitable (value : Value)
  /-- Never go on. -/
  | block
  /-- Let the others go on, several times. -/
  | pass (times : Nat)
  /-- Sleep, whatever the signal. -/
  | sleep (milliseconds : Float)
  /-- Sleep for as many milliseconds as the first argument says; being stopped is a fault. -/
  | napArgument
  /-- Wait for the signal, which is a fault. -/
  | hold

/-- The fault of an operation on values that do not support it. -/
def unsupported (operation : String) (left right : Value) : Fault :=
  .raised .type (some
    s!"unsupported operand type(s) for {operation}: '{left.kindName}' and '{right.kindName}'")

/-- A number in arithmetic. -/
inductive Amount where
  | whole (value : Int)
  | fraction (value : Float)

/-- The number that a value is in arithmetic. -/
def amount? : Value → Option Amount
  | .integer value => some (.whole value)
  | .boolean value => some (.whole (if value then 1 else 0))
  | .float value => some (.fraction value)
  | .member ⟨_, _, .number value, true⟩ => some (.whole value)
  | _ => none

/-- The sum of two numbers. -/
def Amount.add : Amount → Amount → Amount
  | .whole left, .whole right => .whole (left + right)
  | .whole left, .fraction right => .fraction (ofInteger left + right)
  | .fraction left, .whole right => .fraction (left + ofInteger right)
  | .fraction left, .fraction right => .fraction (left + right)

/-- A number as a value. -/
def Amount.value : Amount → Value
  | .whole value => .integer value
  | .fraction value => .float value

/-- The sum of values from left to right. -/
def sumFrom (total : Amount) : List Value → Except Fault Value
  | [] => .ok total.value
  | value :: rest =>
    match amount? value with
    | some next => sumFrom (total.add next) rest
    | none => .error (unsupported "+" total.value value)

/-- A number of milliseconds in seconds. -/
def seconds (value : Value) : Except Fault Float :=
  match amount? value with
  | some (.whole count) => .ok (nearest (count < 0) count.natAbs 1000)
  | some (.fraction count) => .ok (count / 1000.0)
  | none => .error (unsupported "/" value (.integer 0))

/-- The fault of using a signal that was not given. -/
def missingSignal (operation : String) : Fault :=
  .raised .attribute (some s!"'NoneType' object has no attribute '{operation}'")

/-- Let the others go on, several times. -/
def passes : Nat → ActionActivity Unit
  | 0 => pure ()
  | times + 1 => do
    Action.pass
    passes times

/-- The argument of an index. -/
def argumentAt (call : Call) (index : Nat) : Except Fault Value :=
  match call.arguments[index]? with
  | some value => .ok value
  | none => .error (.raised .index (some "tuple index out of range"))

/-- What a call does under a list of instructions.  The end of the list ends with no value. -/
def follow (call : Call) : List Instruction → ActionActivity Value
  | [] => pure .none
  | .stopAfter calls :: rest => do
    if calls ≤ call.ordinal then Action.stop
    follow call rest
  | .raise fault :: _ => Activity.fail fault
  | .raiseOn number fault :: rest =>
    if number == (call.ordinal : Int) then Activity.fail fault else follow call rest
  | .result value :: _ => pure value
  | .argument index :: _ => Activity.ofExcept (argumentAt call index)
  | .arguments :: _ => pure (.list call.arguments)
  | .sum :: _ => Activity.ofExcept (sumFrom (.whole 0) call.arguments)
  | .join separator :: _ => do
    let stopping ← Action.isStopping
    let texts ← Activity.ofExcept (Fault.orUnwritten (call.arguments.mapM (·.plain? stopping)))
    return .text (String.intercalate separator texts)
  | .count :: _ => pure (.integer call.ordinal)
  | .signal :: _ => pure (if call.hasSignal then .signal else .none)
  | .wait milliseconds :: rest => do
    if call.hasSignal then
      let _ ← Action.wait (some (milliseconds / 1000.0))
      follow call rest
    else Activity.fail (missingSignal "wait")
  | .awaitable value :: _ => do
    Action.pass
    return value
  | .block :: rest => do
    Action.block
    follow call rest
  | .pass times :: rest => do
    passes times
    follow call rest
  | .sleep milliseconds :: rest => do
    Action.sleep (milliseconds / 1000.0)
    follow call rest
  | .napArgument :: rest => do
    if !call.hasSignal then Activity.fail (missingSignal "sleep")
    else
      let duration ← Activity.ofExcept (argumentAt call 0 >>= seconds)
      if ← Action.nap duration then Activity.fail .stop else follow call rest
  | .hold :: _ => do
    if call.hasSignal then
      let _ ← Action.hold
      Activity.fail .stop
    else Activity.fail (missingSignal "is_set")

/-- The action of a list of instructions. -/
def body (instructions : List Instruction) : Action.Body :=
  fun call => follow call instructions

end InputScript.Scripted
