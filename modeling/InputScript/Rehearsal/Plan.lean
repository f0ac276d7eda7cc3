/-
Module: InputScript.Rehearsal.Plan
Purpose: Whole rehearsals: of a script, of single steps, and of the signal.
Main exports: Plan, Ending, rehearse, SignalStep, signalActivity
-/
import InputScript.Rehearsal.Machine
import InputScript.Script.Parse

namespace InputScript.Rehearsal

open Run Number

/-- How a rehearsal is to go. -/
structure Plan where
  /-- Whether the run is to be stopped from the start. -/
  stopBefore : Bool := false
  /-- Have the run stopped after so many seconds. -/
  stopAt : Option Float := none
  /-- Call off the run after so many seconds. -/
  revokeAt : Option Float := none
  rules : Rules := {}

/-- How a rehearsal has ended. -/
structure Ending (ρ : Type) where
  /-- The result of the run; none if it did not end in the turns that it was given. -/
  result : Option (Except Interruption ρ)
  world : World

/-- What happened in a rehearsal, in order. -/
def Ending.record {ρ : Type} (ending : Ending ρ) : List Entry :=
  ending.world.record.reverse

/-- Make a timer if there is a time for it. -/
def timerAt {ρ : Type} (machine : Machine ρ) (seconds : Option Float) (notice : Notice) :
    Machine ρ :=
  match seconds with
  | some seconds => machine.addTimer seconds notice
  | none => machine

/-- The machine at the start of a rehearsal. -/
def Plan.machine {ρ : Type} (plan : Plan) (desk : Desk) (activity : RunActivity ρ) : Machine ρ :=
  let world : World := { signal := plan.stopBefore, desk := desk }
  timerAt (timerAt (.start world activity) plan.stopAt .stop) plan.revokeAt .revoke

/-- The number of turns that a rehearsal is given. -/
def maxTurns : Nat := 10000000

/-- Rehearse an activity. -/
def rehearse {ρ : Type} (registry : Catalog.Registry) (plan : Plan) (desk : Desk)
    (activity : RunActivity ρ) : Ending ρ :=
  let machine := (plan.machine desk activity).run registry plan.rules maxTurns
  ⟨if machine.isOver then machine.walk.result? else none, machine.world⟩

/-! ### Scripts -/

/-- Log lines one after another. -/
def logAll : List LogLine → RunActivity Unit
  | [] => pure ()
  | line :: rest => do
    log line.level line.message
    logAll rest

/-- Read a script and run it. -/
def scriptActivity (registry : Catalog.Registry) (aliases : Script.Aliases) (text : String) :
    RunActivity RunState := do
  let parsed := Script.parseWithin Script.usualRoom text aliases
  logAll ((Script.anomaliesWithin parsed).map (·.logLine))
  match parsed with
  | .ok program => execute registry program
  | .error failure => Activity.fail failure.obstacle.fault

/-! ### Single actions -/

/-- Carry out actions one after another, whatever their results. -/
def callsActivity : List (ActionActivity Value) → RunActivity (List (Except Fault Value))
  | [] => pure []
  | activity :: rest => do
    let result ← match ← (ofAction activity).attempt with
      | .ok value => pure (.ok value)
      | .error (.fault fault) => pure (.error fault)
      | .error .revoked => Activity.interrupt .revoked
    let results ← callsActivity rest
    return result :: results

/-! ### The signal -/

/-- A use of the signal. -/
inductive SignalStep where
  | set
  | isSet
  | failIfSet
  | show
  | wait (seconds : Option Float)
  | sleep (seconds : Float)

/-- The result of a use of the signal. -/
def SignalStep.activity : SignalStep → RunActivity Value
  | .set => do
    stop
    return .none
  | .isSet => return .boolean (← isStopping)
  | .failIfSet => do
    failIfStopping
    return .none
  | .show => return .text (signalText (← isStopping))
  | .wait seconds => return .boolean (← ofAction (Action.wait seconds))
  | .sleep seconds => return .boolean (← nap seconds)

/-- Use the signal step by step; each result with the time. -/
def signalActivity : List SignalStep → RunActivity (List (Except Fault Value × Nat))
  | [] => pure []
  | step :: rest => do
    let result ← step.activity.attempt
    let time ← ofAction Action.clock
    let shown ← match result with
      | .ok value => pure (.ok value)
      | .error (.fault fault) => pure (.error fault)
      | .error .revoked => Activity.interrupt .revoked
    let results ← signalActivity rest
    return (shown, time) :: results

end InputScript.Rehearsal
