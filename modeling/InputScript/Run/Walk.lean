/-
Module: InputScript.Run.Walk
Purpose: A whole program: bounded blocks one after another, unbounded blocks as loops beside them.
Main exports: WalkEnd, walk, execute, LoopState, turn, beginLoop
-/
import InputScript.Run.Invoke
import InputScript.Run.State

namespace InputScript.Run

open Catalog Script

/-! ### Bounded blocks -/

/-- Carry out the steps of a block once. -/
def runSteps (registry : Registry) (index : Nat) : List Step → RunActivity RunState
  | [] => pure .completed
  | step :: rest => do
    if ← isStopping then return .cancelled
    match ← invoke registry step with
    | .cancelled => return .cancelled
    | .failed _ false =>
      log .error s!"Block {index + 1}: aborted at {step.name}"
      return .faulted
    | _ => runSteps registry index rest

/-- Carry out the steps of a block a number of times. -/
def runPasses (registry : Registry) (index : Nat) (steps : List Step) : Nat → RunActivity RunState
  | 0 => pure .completed
  | passes + 1 => do
    match ← runSteps registry index steps with
    | .completed => runPasses registry index steps passes
    | state => return state

/-- Carry out a bounded block.  Without steps there is nothing to repeat. -/
def runBounded (registry : Registry) (index : Nat) (block : Block) : RunActivity RunState := do
  log .debug s!"Block {index + 1}: {block.repetition.passes} iteration(s)"
  if block.steps.isEmpty then return .completed
  runPasses registry index block.steps block.repetition.passes

/-! ### The walk through a program -/

/-- How a walk ends: the state of the run, and how many loops it has started. -/
structure WalkEnd where
  state : RunState
  loops : Nat

/-- Walk through the blocks from the given place on. -/
def walk (registry : Registry) (index loops : Nat) : List Block → RunActivity WalkEnd
  | [] => pure ⟨.completed, loops⟩
  | block :: rest => do
    if ← isStopping then return ⟨.cancelled, loops⟩
    match block.repetition with
    | .forever =>
      log .info s!"Block {index + 1}: looping until stopped"
      spawn index block
      walk registry (index + 1) (loops + 1) rest
    | .times _ =>
      match ← runBounded registry index block with
      | .completed => walk registry (index + 1) loops rest
      | state => return ⟨state, loops⟩

/-- Walk through the blocks and wait for the loops.  Loops end only by being stopped. -/
def walkAndJoin (registry : Registry) (blocks : List Block) : RunActivity RunState := do
  let ended ← walk registry 0 0 blocks
  if ended.loops == 0 then return ended.state
  join false
  if ended.state == .completed then return .cancelled
  return ended.state

/-- Run a program.  A run that is called off has itself stopped, calls off its loops and waits for
them. -/
def execute (registry : Registry) (program : Program) : RunActivity RunState := do
  match ← (walkAndJoin registry program.blocks).attempt with
  | .ok state => return state
  | .error (.fault fault) => Activity.fail fault
  | .error .revoked =>
    stop
    revokeLoops
    join true
    Activity.interrupt .revoked

/-! ### Loops -/

/-- Where a loop stands between two passes. -/
structure LoopState where
  index : Nat
  steps : List Step
  /-- The number of passes so far. -/
  passes : Nat := 0
  /-- Whether it was logged that no step can be resolved. -/
  warned : Bool := false

/-- How a loop rests between two passes. -/
inductive LoopRest where
  /-- It lets the others go on once. -/
  | pass
  /-- It sleeps for a while, unless it is stopped. -/
  | nap

/-- How a pass of a loop ends. -/
inductive LoopStep where
  | ended
  | again (rest : LoopRest) (next : LoopState)

/-- One pass through the steps of a loop.  The result says whether some step could be resolved. -/
def loopSteps (registry : Registry) (state : LoopState) (resolved : Bool) :
    List Step → RunActivity Bool
  | [] => pure resolved
  | step :: rest => do
    if ← isStopping then return resolved
    match ← invoke registry step with
    | .cancelled => return resolved
    | .failed _ true => loopSteps registry state resolved rest
    | .failed _ false =>
      log .warning s!"Block {state.index + 1}: iteration {state.passes + 1} abandoned at {step.name}"
      return true
    | .success _ => loopSteps registry state true rest

/-- Log the end of a loop. -/
def endLoop (index passes : Nat) : RunActivity LoopStep := do
  log .info s!"Block {index + 1}: stopped after {passes} iteration(s)"
  return .ended

/-- Rest after a pass in which nothing could be resolved. -/
def throttle (state : LoopState) : RunActivity LoopStep := do
  if !state.warned then
    log .warning
      s!"Block {state.index + 1}: no step could be resolved, retrying every 0.05s until stopped"
  if ← isStopping then endLoop state.index state.passes
  else return .again .nap { state with warned := true }

/-- One turn of a loop: end if the run is to be stopped, else one pass and a rest. -/
def turn (registry : Registry) (state : LoopState) : RunActivity LoopStep := do
  if ← isStopping then endLoop state.index state.passes
  else
    let resolved ← loopSteps registry state false state.steps
    let after := { state with passes := state.passes + 1 }
    if resolved then return .again .pass after else throttle after

/-- The beginning of the loop of a block.  A block without steps waits for the signal. -/
def beginLoop (registry : Registry) (index : Nat) (block : Block) : RunActivity LoopStep :=
  if block.steps.isEmpty then do
    let _ ← nap Number.infinity
    return .ended
  else turn registry { index := index, steps := block.steps }

end InputScript.Run
