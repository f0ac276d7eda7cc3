/-
Module: InputScript.Main
Purpose: The program: it reads the files that its arguments name, plays the script in real time, and
  writes the log as it comes.
Main exports: main
-/
import InputScript.CommandLine.Command

namespace InputScript.CommandLine

open Session

/-- Read a file. -/
def readFile (path : String) : IO (Except Unreadable (List UInt8)) := do
  match ← (IO.FS.readBinFile path).toBaseIO with
  | .ok bytes => return .ok bytes.toList
  | .error (.noFileOrDirectory ..) => return .error .missing
  | .error (.inappropriateType ..) => return .error .directory
  | .error error => return .error (.other (toString error))

/-- Write what a command has to say. -/
def write (output : Output) : IO UInt32 := do
  (← IO.getStdout).putStr output.stdout
  (← IO.getStdout).flush
  (← IO.getStderr).putStr output.stderr
  (← IO.getStderr).flush
  return UInt32.ofNat output.exitCode

/-- Write the log lines that were recorded since the last time. -/
def writeLog (player : Player) : IO Player := do
  let (record, runner) := player.runner.takeRecord
  for line in logLines record do
    let stream ← if isProblem line.level then IO.getStderr else IO.getStdout
    stream.putStr (writtenLine line)
    stream.flush
  return player.withRunner runner

/-- Follow what is played to its end, turn by turn. -/
partial def follow (player : Player) : IO Player := do
  let shown ← writeLog player
  if !shown.isPlaying then return shown
  IO.sleep (UInt32.ofNat (shown.runner.idleTime / 1000))
  follow (shown.withRunner shown.runner.turn)

/-- Write why the program cannot go on. -/
def writeTrouble (trouble : Trouble) : IO UInt32 :=
  write { exitCode := 1, stderr := lineOf s!"{trouble.label}: {trouble.message}" }

/-- Play a script that was read. -/
def playFile (files : Files) (script : String) (bytes : List UInt8) (settings : Option String) :
    IO UInt32 := do
  let opened := do
    let text ← decodeScript script bytes
    let manager ← loadSettings files settings
    let player ← (openPlayer manager).mapError .raised
    return (text, player)
  match opened with
  | .error trouble => writeTrouble trouble
  | .ok (text, player) =>
    match player.play text with
    | (.error fault, stopped) =>
      let _ ← writeLog stopped
      writeTrouble (.raised fault)
    | (.ok (), started) =>
      let ended ← follow started
      let _ ← writeLog ended.close.2
      return if started.isPlaying then 0 else 1

/-- Carry out a command. -/
def carryOut : Command → IO UInt32
  | .play script settings => do
    match ← readFile script with
    | .error cause => write (unreadableOutput script cause)
    | .ok bytes =>
      let stored ← readFile (settings.getD "settings.ini")
      playFile (fun _ => stored) script bytes (some (settings.getD "settings.ini"))
  | .list name => write (printCatalog (BuiltIn.registry {}) name)
  | .usage => write usageOutput

end InputScript.CommandLine

/-- The program. -/
def main (arguments : List String) : IO UInt32 :=
  InputScript.CommandLine.carryOut (.ofArguments arguments)
