/-
Module: InputScript.Text.Blank
Purpose: Blank characters and line breaks, and the cuts of a text at them.
Main exports: isBlank, trim, words, splitFirstWord, lines
-/
namespace InputScript.Text

/-! ### Blank characters -/

/-- A blank is a space separator, or a control character that separates lines, segments or
paragraphs.  Blanks surround and divide the tokens of a script and of a settings file. -/
def isBlank (c : Char) : Bool :=
  let code := c.toNat
  (0x09 ≤ code && code ≤ 0x0D) || (0x1C ≤ code && code ≤ 0x20) || code == 0x85 || code == 0xA0 ||
    code == 0x1680 || (0x2000 ≤ code && code ≤ 0x200A) || code == 0x2028 || code == 0x2029 ||
    code == 0x202F || code == 0x205F || code == 0x3000

/-- The text without its leading blanks. -/
def trimStart (text : List Char) : List Char :=
  text.dropWhile isBlank

/-- The text without its trailing blanks. -/
def trimEnd (text : List Char) : List Char :=
  (text.reverse.dropWhile isBlank).reverse

/-- The text without its leading and trailing blanks. -/
def trim (text : List Char) : List Char :=
  trimEnd (trimStart text)

/-- A text of blanks only, the empty text included. -/
def isBlankText (text : List Char) : Bool :=
  text.all isBlank

/-- `trim` on strings. -/
def trimmed (text : String) : String :=
  String.ofList (trim text.toList)

/-- The first word and what follows the blanks after it, or `none` for a blank text.  Blanks at
the end of the remainder are kept. -/
def splitFirstWord (text : List Char) : Option (List Char × List Char) :=
  match trimStart text with
  | [] => none
  | start => some (start.takeWhile (!isBlank ·), trimStart (start.dropWhile (!isBlank ·)))

/-! ### Pieces between separators -/

/-- The pieces of a text between the characters that separate, empty pieces included. -/
def splitWhere (separates : Char → Bool) : List Char → List (List Char)
  | [] => [[]]
  | c :: rest =>
    if separates c then
      [] :: splitWhere separates rest
    else
      match splitWhere separates rest with
      | [] => [[c]]
      | piece :: pieces => (c :: piece) :: pieces

/-- The non-empty pieces of a text between the characters that separate. -/
def pieces (separates : Char → Bool) (text : List Char) : List (List Char) :=
  (splitWhere separates text).filter (!·.isEmpty)

/-- The words of a text: its maximal runs without blanks. -/
def words (text : List Char) : List (List Char) :=
  pieces isBlank text

/-! ### Lines -/

/-- The characters that end a line of a script. -/
def isLineBreak (c : Char) : Bool :=
  let code := c.toNat
  (0x0A ≤ code && code ≤ 0x0D) || (0x1C ≤ code && code ≤ 0x1E) || code == 0x85 || code == 0x2028 ||
    code == 0x2029

/-- The lines of a text without their line breaks.  A carriage return with the line feed after it
is one break, and a break at the end opens no further line. -/
def lines : List Char → List (List Char)
  | [] => []
  | '\r' :: '\n' :: rest => [] :: lines rest
  | c :: rest =>
    if isLineBreak c then
      [] :: lines rest
    else
      match lines rest with
      | [] => [[c]]
      | line :: more => (c :: line) :: more

end InputScript.Text
