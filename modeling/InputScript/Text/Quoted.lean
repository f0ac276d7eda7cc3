/-
Module: InputScript.Text.Quoted
Purpose: Texts written between quotes, as messages and log lines show them.
Main exports: quote, quoted
-/
import InputScript.Text.Printable

namespace InputScript.Text

/-- The digits of a number to base sixteen, padded with zeros on the left to a width. -/
def hexDigits (width : Nat) (value : Nat) : List Char :=
  let digits := Nat.toDigits 16 value
  List.replicate (width - digits.length) '0' ++ digits

/-- The mark around a quoted text: an apostrophe, unless the text holds an apostrophe and no double
quote. -/
def quoteMark (text : List Char) : Char :=
  if text.contains '\'' && !text.contains '"' then '"' else '\''

/-- One character inside a quoted text.  The mark and the backslash get a backslash in front,
characters that cannot be shown are written by their code point, and all others stand for
themselves. -/
def quoteChar (mark : Char) (c : Char) : List Char :=
  if c == mark || c == '\\' then ['\\', c]
  else if c == '\t' then ['\\', 't']
  else if c == '\n' then ['\\', 'n']
  else if c == '\r' then ['\\', 'r']
  else if isPrintable c then [c]
  else
    let code := c.toNat
    if code < 0x100 then '\\' :: 'x' :: hexDigits 2 code
    else if code < 0x10000 then '\\' :: 'u' :: hexDigits 4 code
    else '\\' :: 'U' :: hexDigits 8 code

/-- The quoted form of a text. -/
def quote (text : List Char) : List Char :=
  let mark := quoteMark text
  mark :: text.flatMap (quoteChar mark) ++ [mark]

/-- `quote` on strings. -/
def quoted (text : String) : String :=
  String.ofList (quote text.toList)

end InputScript.Text
