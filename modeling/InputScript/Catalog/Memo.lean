/-
Module: InputScript.Catalog.Memo
Purpose: A table of operations that remembers its look-ups.  Registration forgets what was remembered
  about the name.
Main exports: Memo, Memo.register, Memo.candidates, Memo.resolve
-/
import InputScript.Catalog.Resolve

namespace InputScript.Catalog

/-- A table of operations and the look-ups made so far, by name and number of arguments. -/
structure Memo where
  registry : Registry := .empty
  remembered : Dictionary (List (Int × List Overload)) := []

namespace Memo

/-- A table without remembered look-ups. -/
def ofRegistry (registry : Registry) : Memo := ⟨registry, []⟩

/-- Add an operation. -/
def register (memo : Memo) (overload : Overload) : Memo :=
  ⟨memo.registry.register overload, memo.remembered.filter (·.1 != overload.name)⟩

/-- The remembered look-up of a name and number of arguments. -/
def remembered? (memo : Memo) (name : String) (count : Int) : Option (List Overload) :=
  ((Dictionary.get? memo.remembered name).getD []).lookup count

/-- Remember a look-up. -/
def remember (memo : Memo) (name : String) (count : Int) (found : List Overload) : Memo :=
  let known := (Dictionary.get? memo.remembered name).getD []
  { memo with remembered := Dictionary.set memo.remembered name (known ++ [(count, found)]) }

/-- The overloads of a name that take a number of arguments, remembered or looked up. -/
def candidates (memo : Memo) (name : String) (count : Int) : List Overload × Memo :=
  match memo.remembered? name count with
  | some found => (found, memo)
  | none =>
    let found := memo.registry.candidates name count
    (found, memo.remember name count found)

/-- The overloads of a name that take one argument, those with few parameters first. -/
def collapseCandidates (memo : Memo) (name : String) : List Overload × Memo :=
  let (found, after) := memo.candidates name 1
  (Registry.sortByArity found, after)

/-- Choose the overload for a name and tokens. -/
def resolve (memo : Memo) (name : String) (tokens : List String) :
    Except Fault Resolution × Memo :=
  let (found, looked) := memo.candidates name tokens.length
  let (collapsed, after) :=
    if found.isEmpty && tokens.length > 1 then looked.collapseCandidates name else ([], looked)
  let (used, tried) := attempts found collapsed tokens
  (settle name tokens.length (chooseFrom used tried), after)

end Memo

end InputScript.Catalog
