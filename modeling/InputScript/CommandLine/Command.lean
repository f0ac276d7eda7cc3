/-
Module: InputScript.CommandLine.Command
Purpose: The command line: what its arguments ask for, the files that it reads, and the playing of a
  script with its log on the two output streams.
Main exports: Command, Command.ofArguments, Unreadable, perform
-/
import InputScript.Action.BuiltIn
import InputScript.CommandLine.Output
import InputScript.Session.Player
import InputScript.Settings.Manager

namespace InputScript.CommandLine

open Text Session Rehearsal

/-! ### Arguments -/

/-- What the command line is asked for. -/
inductive Command where
  /-- Nothing: it tells how it is used. -/
  | usage
  /-- The catalog, or the operations of one name. -/
  | list (name : Option String)
  /-- The playing of a script, under the settings of a file. -/
  | play (script : String) (settings : Option String)
  deriving DecidableEq, Repr

/-- The parts of a path between its separators, without those that lead nowhere. -/
def pathParts (path : String) : List String :=
  (path.splitOn "/").filter fun part => part != "" && part != "."

/-- The root that a path starts at.  Just two separators at the start are a root of their own. -/
def pathRoot (path : String) : String :=
  if path.startsWith "//" && !path.startsWith "///" then "//"
  else if path.startsWith "/" then "/"
  else ""

/-- The shortest spelling of a path, in which steps back are kept. -/
def normalPath (path : String) : String :=
  let spelled := pathRoot path ++ "/".intercalate (pathParts path)
  if spelled.isEmpty then "." else spelled

/-- Read the arguments. -/
def Command.ofArguments : List String → Command
  | [] => .usage
  | "--list" :: rest => .list rest.head?
  | script :: rest => .play (normalPath script) (rest.head?.map normalPath)

/-- How the command line is used. -/
def usageOutput : Output where
  exitCode := 2
  stderr := lineOf
    "usage: python main.py SCRIPT [settings.ini]\n       python main.py --list [ACTION]"

/-! ### Files -/

/-- Why a file cannot be read. -/
inductive Unreadable where
  | missing
  | directory
  | other (reason : String)
  deriving DecidableEq, Repr

/-- The wording of why the file at a path cannot be read. -/
def Unreadable.message (path : String) : Unreadable → String
  | .missing => s!"[Errno 2] No such file or directory: {quoted path}"
  | .directory => s!"[Errno 21] Is a directory: {quoted path}"
  | .other reason => reason

/-- The files that can be read. -/
abbrev Files := String → Except Unreadable (List UInt8)

/-- The output for a script that cannot be read. -/
def unreadableOutput (path : String) (cause : Unreadable) : Output where
  exitCode := 1
  stderr := lineOf s!"cannot read {path}: {cause.message path}"

/-- What keeps the command line from going on. -/
inductive Trouble where
  /-- A file that is no text, or no settings. -/
  | file (path : String) (error : Settings.ReadError)
  | raised (fault : Fault)

namespace Trouble

/-- The name of a trouble's kind. -/
def label : Trouble → String
  | .file _ error => error.label
  | .raised fault => fault.label

/-- The wording of a trouble. -/
def message : Trouble → String
  | .file path error => error.message path
  | .raised fault => fault.message

end Trouble

/-- The text of a script. -/
def decodeScript (path : String) (bytes : List UInt8) : Except Trouble String :=
  let decoded := decodeBytes bytes
  match decoded.fault? bytes.length with
  | some fault => .error (.file path (.undecodable fault))
  | none => .ok (String.ofList (unifyLineEnds decoded.text))

/-- The settings in a file; a file that cannot be read holds none. -/
def loadSettings (files : Files) : Option String → Except Trouble Settings.Manager
  | none => .ok ⟨.initial, true⟩
  | some path =>
    match Settings.Manager.load (files path).toOption with
    | .ok manager => .ok manager
    | .error error => .error (.file path error)

/-! ### Playing -/

/-- Whether lines of a level go to the stream for problems. -/
def isProblem (level : Level) : Bool :=
  level == .warning || level == .error

/-- A log line as it is written. -/
def writtenLine (line : LogLine) : String :=
  lineOf s!"[{line.level.name}] {line.message}"

/-- The log lines of a record. -/
def logLines (record : List Entry) : List LogLine :=
  record.filterMap fun
    | .log line => some line
    | _ => none

/-- What is written of a record. -/
def Output.ofRecord (exitCode : Nat) (record : List Entry) : Output where
  exitCode := exitCode
  stdout := String.join (((logLines record).filter (!isProblem ·.level)).map writtenLine)
  stderr := String.join (((logLines record).filter (isProblem ·.level)).map writtenLine)

/-- What came of a command: its output, and the record of what was played. -/
structure Report where
  output : Output
  record : List Entry := []

/-- A player of the input actions under the given settings. -/
def openPlayer (settings : Settings.Manager) : Except Fault Player := do
  let stopTimeout ← settings.stopTimeout
  let aliases ← settings.aliases
  return .make (BuiltIn.registry ⟨{}, settings.preferences⟩) aliases stopTimeout

/-- Wait for the end of what is played, or stop it after so many seconds. -/
def playOut (player : Player) : Option Float → Except Fault Unit × Player
  | none => (.ok (), player.untilStopped)
  | some seconds =>
    let later := player.pass seconds
    if later.isPlaying then later.stop else (.ok (), later)

/-- Play a text to its end.  Without anything to play the exit code is one. -/
def playText (player : Player) (text : String) (interrupt : Option Float) :
    Except Fault Report := do
  let (started, playing) := player.play text
  started
  let exitCode := if playing.isPlaying then 0 else 1
  let (ended, stopped) := playOut playing interrupt
  ended
  let (closed, last) := stopped.close
  closed
  let record := last.runner.takeRecord.1
  return ⟨.ofRecord exitCode record, record⟩

/-- Carry out a command; what is played is stopped after so many seconds, if a time is given. -/
def perform (files : Files) (interrupt : Option Float) : Command → Except Trouble Report
  | .usage => .ok ⟨usageOutput, []⟩
  | .list name => .ok ⟨printCatalog (BuiltIn.registry {}) name, []⟩
  | .play script settings =>
    match files script with
    | .error cause => .ok ⟨unreadableOutput script cause, []⟩
    | .ok bytes => do
      let text ← decodeScript script bytes
      let manager ← loadSettings files settings
      ((openPlayer manager).bind (playText · text interrupt)).mapError .raised

end InputScript.CommandLine
