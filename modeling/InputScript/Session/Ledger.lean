/-
Module: InputScript.Session.Ledger
Purpose: The bookkeeping of runs: a handle for each run, of which at most one is not done, and what the
  player plays.
Main exports: Handle, Ledger, Ledger.requestCancel, Ledger.add, Playback
-/
import InputScript.Run.State

namespace InputScript.Session

/-! ### Handles -/

/-- A run as its caller sees it. -/
structure Handle where
  /-- The state that the run has ended in. -/
  ended : Option RunState := none
  /-- Whether the run is to be stopped. -/
  signal : Bool := false
  deriving DecidableEq, Repr

namespace Handle

/-- Whether the run has ended. -/
def isDone (handle : Handle) : Bool := handle.ended.isSome

/-- The state of the run. -/
def state (handle : Handle) : RunState := handle.ended.getD .running

/-- Have the run stopped. -/
def requestCancel (handle : Handle) : Handle := { handle with signal := true }

/-- Let the run end in a state.  A run that has ended stays as it is. -/
def settle (handle : Handle) (state : RunState) : Handle :=
  { handle with ended := some (handle.ended.getD state) }

end Handle

/-! ### The ledger -/

/-- All runs in the order of their start, and the latest one. -/
structure Ledger where
  handles : List Handle := []
  current : Option Nat := none
  deriving DecidableEq, Repr

namespace Ledger

/-- The run of a number. -/
def handle? (ledger : Ledger) (number : Nat) : Option Handle := ledger.handles[number]?

/-- Whether the run of a number has ended. -/
def isDone (ledger : Ledger) (number : Nat) : Bool :=
  (ledger.handle? number).any (·.isDone)

/-- The state of the run of a number. -/
def stateOf (ledger : Ledger) (number : Nat) : RunState :=
  ((ledger.handle? number).map (·.state)).getD .idle

/-- Whether the latest run has not ended. -/
def isRunning (ledger : Ledger) : Bool :=
  ledger.current.any (!ledger.isDone ·)

/-- Change one run. -/
def modify (ledger : Ledger) (number : Nat) (change : Handle → Handle) : Ledger :=
  { ledger with handles := ledger.handles.modify number change }

/-- Have a run stopped. -/
def requestCancel (ledger : Ledger) (number : Nat) : Ledger :=
  ledger.modify number (·.requestCancel)

/-- Let a run end in a state. -/
def settle (ledger : Ledger) (number : Nat) (state : RunState) : Ledger :=
  ledger.modify number (·.settle state)

/-- Add a run, which is the latest one then. -/
def add (ledger : Ledger) : Ledger :=
  ⟨ledger.handles ++ [Handle.mk none false], some ledger.handles.length⟩

end Ledger

/-! ### Playing -/

/-- What the player plays. -/
structure Playback where
  /-- The run that it has begun and not heard the end of. -/
  handle : Option Nat := none
  deriving DecidableEq, Repr

namespace Playback

/-- Whether the player plays. -/
def isPlaying (playback : Playback) (ledger : Ledger) : Bool :=
  playback.handle.any (!ledger.isDone ·)

/-- Begin a run. -/
def begin (number : Nat) : Playback := ⟨some number⟩

/-- Hear of the end of a run.  The result says whether the player has stopped with it; the end of any
other run than the one it plays does not count. -/
def finish (playback : Playback) (ended : Option Nat) : Bool × Playback :=
  if playback.handle == ended then (true, ⟨none⟩) else (false, playback)

end Playback

end InputScript.Session
