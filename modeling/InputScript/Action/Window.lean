/-
Module: InputScript.Action.Window
Purpose: The actions on windows.  A window is given by its handle or by a part of its title.
Main exports: find, handleOf, move, place, focus, close
-/
import InputScript.Action.Context
import InputScript.Text.Folding

namespace InputScript.Window

open Device Text

/-- Whether a text occurs in another one. -/
def occursIn (part : List Char) : List Char → Bool
  | [] => part.isEmpty
  | c :: rest => part.isPrefixOf (c :: rest) || occursIn part rest

/-- The first visible window among those given whose title contains a text in any letter case, or
zero.  With the signal at hand the search ends when it is set. -/
def findAmong (hasSignal : Bool) (wanted : List Char) : List Int → ActionActivity Int
  | [] => pure 0
  | handle :: rest => do
    if hasSignal then
      if ← Action.isStopping then return 0
    if ← Action.isVisible handle then
      let title ← Action.title handle
      if !title.isEmpty && occursIn wanted (fold title.toList) then return handle
    findAmong hasSignal wanted rest

/-- The first visible window whose title contains a text in any letter case, or zero. -/
def find (hasSignal : Bool) (title : String) : ActionActivity Int := do
  if isBlankText title.toList then return 0
  findAmong hasSignal (fold title.toList) (← Action.windows)

/-- A text as log lines show it. -/
def shownText (text : Option String) : String :=
  (text.map quoted).getD "None"

/-- The handle of the first window whose title contains a text, or zero. -/
def handleOf (context : InputContext) (hasSignal : Bool) (name : Option String) :
    ActionActivity Value := do
  let written := name.getD ""
  if isBlankText written.toList then return .integer 0
  if !context.platform.hasWindows then
    Action.warn "GetWindowsHandle requires pywin32"
    return .integer 0
  let handle ← find hasSignal (trimmed written)
  Action.failIfStopping
  if handle == 0 then
    let shown := shownText name
    Action.warn s!"GetWindowsHandle: window not found: {shown}"
  return .integer handle

/-- Send a command if there is a window system. -/
def command (context : InputContext) (action : String) (command : WindowCommand) :
    ActionActivity Value := do
  if context.platform.hasWindows then Action.device (.window command)
  else Action.warn s!"{action} requires pywin32"
  return .none

/-- Move and resize a window. -/
def move (context : InputContext) (handle x y width height : Value) : ActionActivity Value :=
  command context "MoveWindows" (.move handle x y width height)

/-- Place a window among the others. -/
def place (context : InputContext) (handle insertAfter x y width height flags : Value) :
    ActionActivity Value :=
  command context "WindowsSetPos" (.place handle insertAfter x y width height flags)

/-- A window that an action is directed at. -/
inductive Target where
  | handle (value : Value)
  | title (text : Option String)

/-- The handle of a target. -/
def Target.locate : Target → ActionActivity Value
  | .handle value => pure value
  | .title text => do
    let handle ← find false (text.getD "")
    return .integer handle

/-- How log lines show a target. -/
def Target.shown? : Target → Option String
  | .handle value => value.plain? false
  | .title text => some (shownText text)

/-- Whether a value is no handle. -/
def isNoHandle (value : Value) : Bool :=
  equalNumber? value == some 0

/-- Send commands to a target if it is found.  The result says whether it is. -/
def direct (context : InputContext) (action : String) (target : Target)
    (commands : Value → List WindowCommand) : ActionActivity Value := do
  if !context.platform.hasWindows then
    Action.warn s!"{action} requires pywin32"
    return .boolean false
  let handle ← target.locate
  if isNoHandle handle then
    let shown ← Activity.ofExcept (Fault.orUnwritten target.shown?)
    Action.warn s!"{action}: window not found: {shown}"
    return .boolean false
  for command in commands handle do
    Action.device (.window command)
  return .boolean true

/-- Restore a window and bring it to the foreground. -/
def focus (context : InputContext) (target : Target) : ActionActivity Value :=
  direct context "FocusWindow" target fun handle => [.restore handle, .foreground handle]

/-- Ask a window to close. -/
def close (context : InputContext) (target : Target) : ActionActivity Value :=
  direct context "CloseWindow" target fun handle => [.close handle]

end InputScript.Window
