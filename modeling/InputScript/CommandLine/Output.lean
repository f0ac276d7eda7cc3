/-
Module: InputScript.CommandLine.Output
Purpose: What the command line writes, and the listing of the catalog.
Main exports: Output, printCatalog
-/
import InputScript.Catalog.Registry

namespace InputScript.CommandLine

/-- What a command writes, and its exit code. -/
structure Output where
  exitCode : Nat := 0
  stdout : String := ""
  stderr : String := ""

/-- A text with the end of its line. -/
def lineOf (text : String) : String := text ++ "\n"

/-- List the operations of a name, or all operations with their number. -/
def printCatalog (registry : Catalog.Registry) : Option String → Output
  | some name =>
    if registry.contains name then
      { stdout := String.join ((registry.describe name).map lineOf) }
    else { exitCode := 1, stderr := lineOf s!"unknown action: {name}" }
  | none =>
    let total := s!"\n{registry.size} overload(s) of {registry.names.length} action(s)"
    { stdout := String.join ((registry.describeAll ++ [total]).map lineOf) }

end InputScript.CommandLine
