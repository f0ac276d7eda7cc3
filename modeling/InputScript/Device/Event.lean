/-
Module: InputScript.Device.Event
Purpose: What is done to the devices: pointer, mouse buttons, wheel, keyboard, windows and clipboard.
Main exports: WindowCommand, Event, Event.source, Event.name
-/
import InputScript.Device.Key

namespace InputScript.Device

/-- A command to the window system. -/
inductive WindowCommand where
  /-- Show a window in its normal size. -/
  | restore (handle : Value)
  /-- Bring a window to the foreground. -/
  | foreground (handle : Value)
  /-- Ask a window to close. -/
  | close (handle : Value)
  /-- Move and resize a window. -/
  | move (handle x y width height : Value)
  /-- Place a window among the others. -/
  | place (handle insertAfter x y width height flags : Value)

/-- The name of a window command. -/
def WindowCommand.name : WindowCommand → String
  | .restore _ => "ShowWindow"
  | .foreground _ => "SetForegroundWindow"
  | .close _ => "PostMessage"
  | .move .. => "MoveWindow"
  | .place .. => "SetWindowPos"

/-- The number for showing a window in its normal size. -/
def restoreNumber : Int := 9

/-- The number of the message that asks a window to close. -/
def closeNumber : Int := 16

/-- The arguments that a window command is sent with. -/
def WindowCommand.arguments : WindowCommand → List Value
  | .restore handle => [handle, .integer restoreNumber]
  | .foreground handle => [handle]
  | .close handle => [handle, .integer closeNumber, .integer 0, .integer 0]
  | .move handle x y width height => [handle, x, y, width, height, .boolean true]
  | .place handle insertAfter x y width height flags =>
    [handle, insertAfter, x, y, width, height, flags]

/-- Something done to a device. -/
inductive Event where
  | move (x y : Value)
  | press (button : Button)
  | release (button : Button)
  | scroll (dx dy : Int)
  | keyPress (key : Key)
  | keyRelease (key : Key)
  | type (text : String)
  | window (command : WindowCommand)
  | copy (text : String)

namespace Event

/-- The name of the device. -/
def source : Event → String
  | .move .. | .press _ | .release _ | .scroll .. => "mouse"
  | .keyPress _ | .keyRelease _ | .type _ => "key"
  | .window _ => "gui"
  | .copy _ => "clipboard"

/-- The name of the event on its device. -/
def name : Event → String
  | .move .. => "move"
  | .press _ | .keyPress _ => "press"
  | .release _ | .keyRelease _ => "release"
  | .scroll .. => "scroll"
  | .type _ => "type"
  | .window command => command.name
  | .copy _ => "copy"

end Event

end InputScript.Device
