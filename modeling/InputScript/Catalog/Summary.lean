/-
Module: InputScript.Catalog.Summary
Purpose: The documentation of an operation without its indentation, and its first line.
Main exports: cleaned, summary
-/
import InputScript.Text.Blank

namespace InputScript.Catalog

open Text

/-- The distance between two tab stops. -/
def tabWidth : Nat := 8

/-- Replace tabs by blanks up to the next tab stop; `column` is the column of the first character. -/
def expandTabs (column : Nat) : List Char → List Char
  | [] => []
  | c :: rest =>
    if c == '\t' then
      let width := tabWidth - column % tabWidth
      List.replicate width ' ' ++ expandTabs (column + width) rest
    else if c == '\n' || c == '\r' then c :: expandTabs 0 rest
    else c :: expandTabs (column + 1) rest

/-- The indentation of a line that is not blank. -/
def indentation? (line : List Char) : Option Nat :=
  if isBlankText line then none else some (line.takeWhile isBlank).length

/-- The lines of a documentation: the first one without blanks in front, the others without their
common indentation, and no empty lines at either end. -/
def cleaned (documentation : String) : List (List Char) :=
  match splitWhere (· == '\n') (expandTabs 0 documentation.toList) with
  | [] => []
  | first :: others =>
    let margin := (others.filterMap indentation?).min?.getD 0
    let straightened := trimStart first :: others.map (·.drop margin)
    ((straightened.dropWhile List.isEmpty).reverse.dropWhile List.isEmpty).reverse

/-- The first line of a documentation; empty without one. -/
def summary (documentation : Option String) : String :=
  let text := (cleaned (documentation.getD "")).intersperse ['\n']
  String.ofList ((lines text.flatten).headD [])

end InputScript.Catalog
