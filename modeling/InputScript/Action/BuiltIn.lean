/-
Module: InputScript.Action.BuiltIn
Purpose: The catalog of input actions: what each is called, what it takes, and what it does.
Main exports: declared, keyActions, registry
-/
import InputScript.Action.Clipboard
import InputScript.Action.Keyboard
import InputScript.Action.Mouse
import InputScript.Action.Window
import InputScript.Catalog.Registry

namespace InputScript.BuiltIn

open Catalog Device

/-! ### Types and values -/

/-- The type of keys. -/
def keyType : ParameterType := .enumeration keyNames

/-- The type of mouse buttons. -/
def buttonType : ParameterType := .enumeration buttonNames

/-- The enumerations that the input actions take or give. -/
def enumerations : List Enumeration := [keyNames, buttonNames, Message.characterClasses]

/-- The type of plain integers. -/
def integerType : ParameterType := .integer .int32

/-- The type of window handles. -/
def handleType : ParameterType := .integer .handle

/-- The value of a mouse button by its name. -/
def buttonValue (name : String) : Value :=
  match buttonNames.named? name with
  | some member => .member member
  | none => .none

/-- The text that a value is. -/
def textOf? : Value → Option String
  | .text text => some text
  | _ => none

/-! ### Shapes of actions -/

/-- A required parameter. -/
def required : Option Value := none

/-- An action with the given default values and documentation. -/
def action (declaration : Declaration) (defaults : List (Option Value)) (documentation : String)
    (body : Action.Body) : Overload :=
  .make declaration (some defaults)
    { label := declaration.name, parameters := none, documentation := some documentation,
      body := body }

/-- An action without parameters. -/
def nullary (name : String) (documentation : String) (activity : ActionActivity Value) : Overload :=
  action { name := name } [] documentation fun _ => activity

/-- An action without parameters that is given the signal. -/
def nullaryCancellable (name : String) (documentation : String)
    (activity : Bool → ActionActivity Value) : Overload :=
  action { name := name, cancellable := true } [] documentation fun call => activity call.hasSignal

/-- The body of an action of one argument. -/
def onFirst (body : Bool → Value → ActionActivity Value) : Action.Body :=
  fun call => body call.hasSignal (call.arguments.headD .none)

/-- The body of an action of one text. -/
def onText (body : Bool → Option String → ActionActivity Value) : Action.Body :=
  onFirst fun hasSignal value => body hasSignal (textOf? value)

/-! ### Timing -/

/-- Sleep for a number of milliseconds; being stopped meanwhile ends the step. -/
def delay (value : Value) : ActionActivity Value := do
  let milliseconds ← Activity.ofExcept (wholeNumber value)
  if milliseconds < 0 then
    Activity.fail (.ofValue s!"Delay: ms must be >= 0, got {milliseconds}")
  else
    let seconds ← Activity.ofExcept (millisecondsToSeconds milliseconds)
    if ← Action.nap seconds then Activity.fail .stop
    return .none

/-- The timing action, the only one that runs beside the others. -/
def timing : List Overload := [
  .make { name := "Delay", parameterTypes := [integerType], cancellable := true } (some [required])
    { label := "Delay"
      parameters := none
      documentation := some "Delay = ms — non-blocking wait; cut short by a cancel request."
      isAsync := true
      body := onFirst fun _ => delay }]

/-! ### Mouse -/

/-- A mouse action on one button, which is the left one by default. -/
def onButton (name : String) (documentation : String) (cancellable : Bool)
    (body : Bool → Value → ActionActivity Value) : Overload :=
  action { name := name, parameterTypes := [buttonType], cancellable := cancellable }
    [some (buttonValue "Left")] documentation (onFirst body)

/-- The actions on the mouse. -/
def mouse (context : InputContext) : List Overload := [
  action { name := "MouseMove", parameterTypes := [integerType, integerType] } [required, required]
    "" (fun call =>
      match call.arguments with
      | [x, y] => Mouse.move x y
      | _ => pure .none),
  onButton "MouseClick" "MouseClick [= Left|Right|Middle] — press, wait rest_time, release." true
    (Mouse.click context),
  onButton "MouseDown" "" false fun _ => Mouse.press,
  onButton "MouseUp" "" false fun _ => Mouse.release,
  nullaryCancellable "MouseClickLeft" "" (Mouse.click context · (buttonValue "Left")),
  nullaryCancellable "MouseClickRight" "" (Mouse.click context · (buttonValue "Right")),
  nullaryCancellable "MouseClickMiddle" "" (Mouse.click context · (buttonValue "Middle")),
  nullary "MouseLeftDown" "" (Mouse.press (buttonValue "Left")),
  nullary "MouseLeftUp" "" (Mouse.release (buttonValue "Left")),
  nullary "MouseRightDown" "" (Mouse.press (buttonValue "Right")),
  nullary "MouseRightUp" "" (Mouse.release (buttonValue "Right")),
  nullary "MouseMiddleDown" "" (Mouse.press (buttonValue "Middle")),
  nullary "MouseMiddleUp" "" (Mouse.release (buttonValue "Middle")),
  nullaryCancellable "MouseRollerUp" "" (Mouse.turnWheel context · 1),
  nullaryCancellable "MouseRollerDown" "" (Mouse.turnWheel context · (-1)),
  nullary "GetMouseX" "" Mouse.horizontal,
  nullary "GetMouseY" "" Mouse.vertical]

/-! ### Keyboard -/

/-- The documentation of pressing a key. -/
def pressDocumentation : String :=
  "KeyboardPressKey = key — press and hold (name or virtual-key code)."

/-- The documentation of tapping a key. -/
def tapDocumentation : String :=
  "KeyboardPress = key — tap: press, wait rest_time, release."

/-- An action on one key, given by name or by code. -/
def onKey (name : String) (documentation : String) (cancellable : Bool)
    (body : Bool → Value → ActionActivity Value) : List Overload :=
  [keyType, .integer .uint32].map fun type =>
    action { name := name, parameterTypes := [type], cancellable := cancellable } [required]
      documentation (onFirst body)

/-- An action on one text that is given the signal. -/
def onTextCancellable (name : String) (documentation : String)
    (body : Bool → Option String → ActionActivity Value) : Overload :=
  action { name := name, parameterTypes := [.text], cancellable := true } [required] documentation
    (onText body)

/-- An action on one text that may be left out. -/
def onOptionalText (name : String) (documentation : String)
    (body : Option String → ActionActivity Value) : Overload :=
  action { name := name, parameterTypes := [.text] } [some .none] documentation
    (onText fun _ => body)

/-- A chord with the control key. -/
def controlChord (context : InputContext) (name letter : String) : Overload :=
  nullaryCancellable name ""
    (Keyboard.chord context · [Keyboard.keyValue "LeftCtrl", Keyboard.keyValue letter])

/-- The actions on the keyboard. -/
def keyboard (context : InputContext) : List Overload :=
  onKey "KeyboardPressKey" pressDocumentation false (fun _ => Keyboard.press context) ++
  onKey "KeyboardLoosenKey" "" false (fun _ => Keyboard.release context) ++
  onKey "KeyboardPress" tapDocumentation true (Keyboard.tap context) ++ [
    action { name := "KeyboardCombo", variadic := some keyType, cancellable := true } []
      "KeyboardCombo = LeftCtrl LeftShift S — press all, wait, release in reverse."
      (fun call => Keyboard.chord context call.hasSignal call.arguments),
    onTextCancellable "KeyboardCombo" "KeyboardCombo = LeftCtrl+S — the same chord written with '+'."
      (Keyboard.chordText context),
    onOptionalText "KeyboardInput" "KeyboardInput = text — type text via the layout-aware controller."
      Keyboard.type,
    onTextCancellable "KeyboardPressCommonKey"
      "Tap each character of ``text`` in turn, rest_time apart." (Keyboard.tapCharacters context),
    onTextCancellable "KeyboardPressF1_F12"
      "KeyboardPressF1_F12 = F5 — anything outside F1..F12 is ignored."
      (Keyboard.tapFunctionKey context),
    controlChord context "Copy" "C",
    controlChord context "Paste" "V",
    controlChord context "SelectAll" "A",
    controlChord context "Save" "S",
    action { name := "GetKeyState", parameterTypes := [keyType] } [required]
      "GetKeyState = CapsLock — toggle state of a lock key (Windows only)."
      (onFirst fun _ key => return .boolean (← Keyboard.lockState context key)),
    nullary "GetToggleCaseStatus" ""
      (return .boolean (← Keyboard.lockState context Keyboard.capsLock)),
    action { name := "ToggleCase", parameterTypes := [.boolean], cancellable := true } [required]
      "ToggleCase = true|false — tap CapsLock if its state differs."
      (onFirst (Keyboard.toggleCase context))]

/-! ### Texts, windows and clipboard -/

/-- The actions on texts. -/
def messages : List Overload := [
  onOptionalText "Print" "Print = message — write to the log." Message.print,
  onOptionalText "DetermineType"
    "DetermineType = c — class of the first character (Number, LowerCase, …)."
    fun text => pure (Message.classify text)]

/-- The place among the other windows that a window is given by default: above all others. -/
def topmost : Value := .integer (-1)

/-- The flags that a window is placed with by default: neither moved nor resized. -/
def inPlace : Value := .integer 3

/-- An action on a window given by its handle or by its title. -/
def onWindow (name : String) (byHandle byTitle : String)
    (body : Window.Target → ActionActivity Value) : List Overload := [
  action { name := name, parameterTypes := [handleType] } [required] byHandle
    (onFirst fun _ handle => body (.handle handle)),
  action { name := name, parameterTypes := [.text] } [required] byTitle
    (onText fun _ title => body (.title title))]

/-- The actions on windows. -/
def windows (context : InputContext) : List Overload := [
  onTextCancellable "GetWindowsHandle"
    "GetWindowsHandle = title — handle of the first matching window, or 0."
    (Window.handleOf context),
  action
    { name := "MoveWindows"
      parameterTypes := handleType :: List.replicate 4 integerType }
    (List.replicate 5 required) "MoveWindows = hwnd x y w h — move and resize a window."
    (fun call =>
      match call.arguments with
      | [handle, x, y, width, height] => Window.move context handle x y width height
      | _ => pure .none),
  action
    { name := "WindowsSetPos"
      parameterTypes := handleType :: List.replicate 5 integerType ++ [.integer .uint32] }
    ([required, some topmost] ++ List.replicate 4 (some (.integer 0)) ++ [some inPlace])
    "WindowsSetPos = hwnd [insert_after x y cx cy flags] — SetWindowPos."
    (fun call =>
      match call.arguments with
      | [handle, insertAfter, x, y, width, height, flags] =>
        Window.place context handle insertAfter x y width height flags
      | _ => pure .none)] ++
  onWindow "FocusWindow" "FocusWindow = hwnd — restore and bring a window to the foreground."
    "FocusWindow = title — same, looking the window up by title." (Window.focus context) ++
  onWindow "CloseWindow" "CloseWindow = hwnd — send WM_CLOSE to a window." "" (Window.close context)

/-- The actions on the clipboard. -/
def clipboard (context : InputContext) : List Overload := [
  onOptionalText "CopyContent"
    "CopyContent = text — put text on the clipboard; nothing when omitted." (Clipboard.copy context),
  nullary "GetClipboard" "GetClipboard — current clipboard text (\"\" when unavailable)."
    (Clipboard.paste context)]

/-! ### The catalog -/

/-- The three actions of one key: tapping, pressing and releasing it. -/
def keyActions (context : InputContext) (entry : KeyEntry) : List Overload :=
  let key := Keyboard.keyValue entry.name
  [nullaryCancellable s!"Key{entry.name}" tapDocumentation (Keyboard.tap context · key),
    nullary s!"Key{entry.name}Press" pressDocumentation (Keyboard.press context key),
    nullary s!"Key{entry.name}Loosen" "" (Keyboard.release context key)]

/-- All actions in the order of the catalog. -/
def all (context : InputContext) : List Overload :=
  timing ++ mouse context ++ keyboard context ++ messages ++ windows context ++ clipboard context ++
    keys.flatMap (keyActions context)

/-- The table of all input actions. -/
def registry (context : InputContext) : Registry :=
  Registry.empty.registerAll (all context)

end InputScript.BuiltIn
