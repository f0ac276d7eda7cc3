/-
Module: InputScript.Action.Clipboard
Purpose: The actions on the clipboard, and those that only look at texts.
Main exports: Clipboard.copy, Clipboard.paste, print, classify
-/
import InputScript.Action.Context

namespace InputScript

/-- Put a text on the clipboard; nothing happens without a text. -/
def Clipboard.copy (context : InputContext) : Option String → ActionActivity Value
  | none => pure .none
  | some text => do
    if context.platform.hasClipboard then Action.device (.copy text)
    else Action.warn "CopyContent requires pyperclip"
    return .none

/-- The text on the clipboard; empty without one. -/
def Clipboard.paste (context : InputContext) : ActionActivity Value := do
  if context.platform.hasClipboard then return .text ((← Action.clipboard).getD "")
  Action.warn "GetClipboard requires pyperclip"
  return .text ""

namespace Message

/-- Write a text to the log. -/
def print (text : Option String) : ActionActivity Value := do
  Action.log .info (text.getD "")
  return .none

/-- The classes of characters. -/
def characterClasses : Enumeration :=
  ⟨"DataType", [("Number", .number 0), ("LowerCase", .number 1), ("UpperCase", .number 2),
    ("Symbol", .number 3)]⟩

/-- The number of the class of a text's first character; only plain letters and digits are told
apart. -/
def classNumber (text : String) : Int :=
  match text.toList with
  | [] => 3
  | c :: _ =>
    if '0' ≤ c && c ≤ '9' then 0
    else if 'a' ≤ c && c ≤ 'z' then 1
    else if 'A' ≤ c && c ≤ 'Z' then 2
    else 3

/-- The class of a text's first character. -/
def classify (text : Option String) : Value :=
  match characterClasses.memberOf? (.number (classNumber (text.getD ""))) with
  | some member => .member member
  | none => .none

end Message

end InputScript
