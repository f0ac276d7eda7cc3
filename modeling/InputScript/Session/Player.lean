/-
Module: InputScript.Session.Player
Purpose: Playing script texts: a text is read, its run is started and followed, and its status and
  progress are shown.
Main exports: Player, Player.play, Player.stop, Player.close
-/
import InputScript.Script.Parse
import InputScript.Session.Runner

namespace InputScript.Session

open Rehearsal

/-- A player: a runner, and the aliases for its texts. -/
structure Player where
  runner : Runner
  aliases : Script.Aliases := []

namespace Player

/-- A player without runs. -/
def make (registry : Catalog.Registry) (aliases : Script.Aliases) (stopTimeout : Float) : Player :=
  ⟨{ registry := registry, rules := { showsProgress := true }, stopTimeout := stopTimeout }, aliases⟩

/-- Whether the player plays. -/
def isPlaying (player : Player) : Bool :=
  player.runner.playback.isPlaying player.runner.ledger

/-- Change the runner. -/
def withRunner (player : Player) (runner : Runner) : Player :=
  { player with runner := runner }

/-- Log lines one after another. -/
def logAll (runner : Runner) (lines : List LogLine) : Runner :=
  lines.foldl (fun current line => (current.logged line.level line.message).2) runner

/-- Follow a run that was started.  A run that has ended meanwhile is heard of at once. -/
def follow (runner : Runner) (number : Nat) : Runner :=
  let following := { runner with playback := .begin number }
  if runner.ledger.isDone number then following.announce (some number) else following

/-- Start the run of a program that was read, and follow it. -/
def start (runner : Runner) (program : Script.Program) : Except Fault Unit × Runner :=
  let reset := runner.setSurroundings { runner.surroundings with progress := 0 }
  match (reset.enter (.status true)).run program with
  | (.error fault, failed) => (.error fault, failed)
  | (.ok (), running) =>
    (.ok (), follow running.lookAway (running.ledger.handles.length - 1))

/-- Play a text.  Nothing happens while another text is played, and a text without steps is not
played. -/
def play (player : Player) (text : String) : Except Fault Unit × Player :=
  if player.isPlaying then (.ok (), player)
  else
    let parsed := Script.parseWithin Script.usualRoom text player.aliases
    let runner := logAll player.runner ((Script.anomaliesWithin parsed).map (·.logLine))
    match parsed with
    | .error failure => (.error failure.obstacle.fault, player.withRunner runner)
    | .ok program =>
      if program.stepCount == 0 then
        (.ok (), player.withRunner (runner.logged .warning "No steps to run").2)
      else
        let (result, after) := start runner program
        (result, player.withRunner after)

/-- Stop what is played. -/
def stop (player : Player) : Except Fault Unit × Player :=
  match player.runner.playback.handle with
  | none => (.ok (), player)
  | some number =>
    let (result, runner) := player.runner.cancel (some number)
    (result.map fun _ => (), player.withRunner runner)

/-- Stop what is played, and the threads. -/
def close (player : Player) : Except Fault Unit × Player :=
  let (result, runner) := player.runner.close
  (result, player.withRunner runner)

/-- Wait until nothing is played. -/
def untilStopped (player : Player) : Player :=
  if player.isPlaying then player.withRunner player.runner.untilDone else player

/-- Let time pass, in seconds. -/
def pass (player : Player) (seconds : Float) : Player :=
  player.withRunner (player.runner.pass seconds)

end Player

end InputScript.Session
