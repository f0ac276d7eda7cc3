/-
Module: InputScript.Script.Alias
Purpose: Aliases of action names.
Main exports: Aliases, Aliases.expand, Aliases.folded
-/
import InputScript.Dictionary
import InputScript.Text.Folding

namespace InputScript.Script

open Text

/-- The action that each alias stands for. -/
abbrev Aliases := Dictionary String

namespace Aliases

/-- The action that a name stands for: that of the alias written exactly so, else that of the first
alias equal up to letter case, else the name itself.  The result is not looked up again. -/
def expand (aliases : Aliases) (name : String) : String :=
  match Dictionary.get? aliases name with
  | some action => action
  | none =>
    match aliases.find? (sameFolded ·.1 name) with
    | some entry => entry.2
    | none => name

/-- The aliases with their letter case removed; of aliases that become equal the last one counts. -/
def folded (aliases : Aliases) : Aliases :=
  Dictionary.ofPairs (aliases.map fun entry => (Text.folded entry.1, entry.2))

end Aliases

end InputScript.Script
