/-
Module: InputScript.Catalog.Registry
Purpose: The table of operations: registration, look-up by name and number of arguments, and the
  listing of the catalog.
Main exports: Registry, Registry.register, Registry.describe
-/
import InputScript.Catalog.Overload
import InputScript.Catalog.Summary
import InputScript.Dictionary

namespace InputScript.Catalog

open Text

/-- The operations by name, each name with its overloads in the order of registration. -/
structure Registry where
  entries : Dictionary (List Overload) := []

namespace Registry

/-- A table without operations. -/
def empty : Registry := {}

/-- The overloads of a name in the order of registration. -/
def overloads (registry : Registry) (name : String) : List Overload :=
  (Dictionary.get? registry.entries name).getD []

/-- Add an operation after the others of its name. -/
def register (registry : Registry) (overload : Overload) : Registry :=
  ⟨Dictionary.set registry.entries overload.name (registry.overloads overload.name ++ [overload])⟩

/-- Add several operations. -/
def registerAll (registry : Registry) (overloads : List Overload) : Registry :=
  overloads.foldl register registry

/-- The overloads of a name that take a number of arguments, in the order of registration. -/
def candidates (registry : Registry) (name : String) (count : Int) : List Overload :=
  (registry.overloads name).filter (·.accepts count)

/-- Overloads by the number of their parameters; equal ones keep their order. -/
def sortByArity (overloads : List Overload) : List Overload :=
  overloads.mergeSort fun first second => first.arity ≤ second.arity

/-- The overloads of a name that take one argument, those with few parameters first. -/
def collapseCandidates (registry : Registry) (name : String) : List Overload :=
  sortByArity (registry.candidates name 1)

/-- Whether a name is that of an operation that takes no argument at all. -/
def isZeroArity (registry : Registry) (name : String) : Bool :=
  (registry.overloads name).any (·.isNullary)

/-- All names in the order of their first registration. -/
def names (registry : Registry) : List String :=
  registry.entries.map (·.1)

/-- Whether a name has an operation. -/
def contains (registry : Registry) (name : String) : Bool :=
  Dictionary.has registry.entries name

/-- The number of operations. -/
def size (registry : Registry) : Nat :=
  (registry.entries.flatMap (·.2)).length

/-! ### What registration changes -/

theorem overloads_register (registry : Registry) (overload : Overload) (name : String) :
    (registry.register overload).overloads name =
      registry.overloads name ++ [overload].filter (·.name == name) := by
  simp only [overloads, register, Dictionary.get?_set]
  by_cases here : overload.name = name
  · rw [if_pos here, here, List.filter_cons_of_pos (by simpa using here)]
    rfl
  · rw [if_neg here, List.filter_cons_of_neg (by simpa using here)]
    exact (List.append_nil _).symm

/-- The overloads of a name come in the order of registration. -/
theorem overloads_registerAll (registry : Registry) (overloads : List Overload) (name : String) :
    (registry.registerAll overloads).overloads name =
      registry.overloads name ++ overloads.filter (·.name == name) := by
  induction overloads generalizing registry with
  | nil => exact (List.append_nil _).symm
  | cons overload rest hypothesis =>
      have step : registry.registerAll (overload :: rest) =
          (registry.register overload).registerAll rest := rfl
      rw [step, hypothesis, overloads_register, List.append_assoc, ← List.filter_append]
      rfl

theorem registerAll_append (registry : Registry) (first second : List Overload) :
    registry.registerAll (first ++ second) = (registry.registerAll first).registerAll second :=
  List.foldl_append

/-! ### Listing -/

/-- The width of the column of signatures. -/
def signatureWidth : Nat := 40

/-- The line of an operation in the catalog: its signature and the first line of its
documentation. -/
def catalogLine (overload : Overload) : String :=
  let signature := overload.signature.toList
  let padding := List.replicate (signatureWidth - signature.length) ' '
  let summary := (summary overload.implementation.documentation).toList
  String.ofList (trimEnd (signature ++ padding ++ ' ' :: summary))

/-- The lines of a name. -/
def describe (registry : Registry) (name : String) : List String :=
  (registry.overloads name).map catalogLine

/-- The lines of all names, in the order of their characters. -/
def describeAll (registry : Registry) : List String :=
  (registry.names.mergeSort fun first second => !(second < first)).flatMap registry.describe

end Registry

end InputScript.Catalog
