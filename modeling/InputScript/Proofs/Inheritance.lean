/-
Module: InputScript.Proofs.Inheritance
Purpose: Declarations follow look-up.  The table of a class is collected from base to derived classes
  and bound by look-up from derived to base classes; both ways come to the same definition of every
  attribute, so the table holds exactly what the found definitions declare.
Main exports: Attribute.overloads, Registry.ofHierarchy_follows_lookUp
-/
import InputScript.Catalog.Hierarchy
import Mathlib.Data.List.Induction
import Mathlib.Data.List.Nodup

namespace InputScript.Catalog

/-- The operations of a definition: its own declarations with its own function. -/
def Attribute.overloads (definition : Attribute) : List Overload :=
  definition.bind definition.declarations

namespace Hierarchy

variable (hierarchy : Hierarchy) (name : String)

/-- The names of declared definitions. -/
def declaredIn (definitions : List (String × Attribute)) : List String :=
  (definitions.filter (·.2.isDeclared)).map (·.1)

/-- The definitions that a class has or takes over, from base to derived classes. -/
def definitionsOf : List (String × Attribute) :=
  (hierarchy.orderOf name).reverse.flatMap hierarchy.attributesOf

/-- The attributes of a class that are declared somewhere, in the order in which a declared definition
of them is first met from base to derived classes. -/
def declaredNames : List String :=
  (declaredIn (hierarchy.definitionsOf name)).eraseDups

/-! ### Collecting -/

/-- What has been collected of definitions: the declared attributes in the order of their first
declaration, each with its latest definition. -/
structure Collects (definitions : List (String × Attribute)) (known : Dictionary Attribute) :
    Prop where
  keys : known.map (·.1) = (declaredIn definitions).eraseDups
  latest : ∀ attributeName ∈ declaredIn definitions,
    Dictionary.get? known attributeName = Dictionary.get? definitions.reverse attributeName

section Collecting

variable {definitions : List (String × Attribute)} {known : Dictionary Attribute}
  {entry : String × Attribute}

theorem declaredIn_snoc :
    declaredIn (definitions ++ [entry]) =
      declaredIn definitions ++ if entry.2.isDeclared then [entry.1] else [] := by
  cases declared : entry.2.isDeclared <;> simp [declaredIn, declared]

theorem Collects.has_iff (collects : Collects definitions known) (attributeName : String) :
    Dictionary.has known attributeName = true ↔ attributeName ∈ declaredIn definitions := by
  rw [Dictionary.has_iff, collects.keys, List.mem_eraseDups]

/-- A name that is met again keeps its place, and a new one comes last. -/
theorem eraseDups_snoc (names : List String) (added : String) :
    (names ++ [added]).eraseDups =
      if added ∈ names then names.eraseDups else names.eraseDups ++ [added] := by
  rw [List.eraseDups_append]
  by_cases known : added ∈ names
  · simp [List.removeAll, known]
  · simp [List.removeAll, known, List.eraseDups_cons]

/-- One definition is taken in. -/
theorem Collects.snoc (collects : Collects definitions known) (entry : String × Attribute) :
    Collects (definitions ++ [entry]) (takeAttribute known entry) := by
  have isKnown := collects.has_iff entry.1
  by_cases taken : (Dictionary.has known entry.1 || entry.2.isDeclared) = true
  · rw [takeAttribute, if_pos taken]
    constructor
    · rw [Dictionary.keys_set, collects.keys, declaredIn_snoc]
      simp only [List.mem_eraseDups]
      cases declared : entry.2.isDeclared with
      | true => exact (eraseDups_snoc _ _).symm
      | false =>
          rw [declared, Bool.or_false] at taken
          rw [if_pos (isKnown.mp taken)]
          simp
    · intro attributeName member
      rw [Dictionary.get?_set, List.reverse_append, Dictionary.get?_append]
      by_cases here : entry.1 = attributeName
      · simp [Dictionary.get?_cons, here]
      · have earlier : attributeName ∈ declaredIn definitions := by
          rw [declaredIn_snoc] at member
          rcases List.mem_append.mp member with early | late
          · exact early
          · split at late
            · exact absurd (List.mem_singleton.mp late).symm here
            · cases late
        simp [Dictionary.get?_cons, here, collects.latest attributeName earlier]
  · -- An undeclared definition of an unknown attribute leaves everything as it is.
    rw [takeAttribute, if_neg taken]
    rw [Bool.not_eq_true, Bool.or_eq_false_iff] at taken
    have unchanged : declaredIn (definitions ++ [entry]) = declaredIn definitions := by
      simp [declaredIn_snoc, taken.2]
    constructor
    · rw [unchanged, collects.keys]
    · intro attributeName member
      rw [unchanged] at member
      have other : entry.1 ≠ attributeName := by
        rintro rfl
        rw [isKnown.mpr member] at taken
        cases taken.1
      rw [List.reverse_append, Dictionary.get?_append]
      simp [Dictionary.get?_cons, other, collects.latest attributeName member]

/-- Definitions are taken in one after another. -/
theorem Collects.append (collects : Collects definitions known)
    (later : List (String × Attribute)) :
    Collects (definitions ++ later) (later.foldl takeAttribute known) := by
  induction later generalizing definitions known with
  | nil =>
      rw [List.append_nil]
      exact collects
  | cons entry rest hypothesis =>
      rw [List.append_cons]
      exact hypothesis (collects.snoc entry)

end Collecting

theorem collects_effective : Collects (hierarchy.definitionsOf name) (hierarchy.effective name) := by
  have nothing : Collects [] [] := ⟨rfl, fun _ member => absurd member List.not_mem_nil⟩
  exact nothing.append (hierarchy.definitionsOf name)

/-! ### Look-up -/

/-- Whether no class defines an attribute twice. -/
def HasDistinctAttributes : Prop :=
  ∀ definition ∈ hierarchy.classes, (definition.attributes.map (·.1)).Nodup

section LookUp

variable {hierarchy : Hierarchy} {name : String}

theorem HasDistinctAttributes.attributesOf (distinct : hierarchy.HasDistinctAttributes)
    (definer : String) : ((hierarchy.attributesOf definer).map (·.1)).Nodup := by
  rw [Hierarchy.attributesOf]
  split
  next definition found => exact distinct definition (List.mem_of_find?_eq_some found)
  · exact List.nodup_nil

/-- The latest definition from base to derived classes is the one that look-up finds. -/
theorem get?_definitionsOf_reverse (distinct : hierarchy.HasDistinctAttributes)
    (attributeName : String) :
    Dictionary.get? (hierarchy.definitionsOf name).reverse attributeName =
      hierarchy.lookUp? name attributeName := by
  have same (definer : String) :
      Dictionary.get? (hierarchy.attributesOf definer).reverse attributeName =
        Dictionary.get? (hierarchy.attributesOf definer) attributeName :=
    Dictionary.get?_reverse (distinct.attributesOf definer) attributeName
  rw [definitionsOf, List.reverse_flatMap, List.reverse_reverse, Dictionary.get?_flatMap, lookUp?]
  simp only [Function.comp_apply, same]

/-- A declared definition that look-up finds is among the definitions of the class. -/
theorem mem_declaredNames (distinct : hierarchy.HasDistinctAttributes) {attributeName : String}
    {definition : Attribute} (found : hierarchy.lookUp? name attributeName = some definition)
    (declared : definition.isDeclared = true) : attributeName ∈ hierarchy.declaredNames name := by
  rw [← get?_definitionsOf_reverse distinct] at found
  have member : (attributeName, definition) ∈ hierarchy.definitionsOf name :=
    List.mem_reverse.mp (Dictionary.mem_of_get? found)
  rw [declaredNames, List.mem_eraseDups]
  exact List.mem_map_of_mem (List.mem_filter.mpr ⟨member, declared⟩)

theorem nodup_eraseDups (names : List String) : names.eraseDups.Nodup := by
  induction names using List.reverseRecOn with
  | nil => exact List.nodup_nil
  | append_singleton names added hypothesis =>
      rw [eraseDups_snoc]
      split
      · exact hypothesis
      next unknown =>
        refine List.nodup_append.mpr ⟨hypothesis, List.nodup_singleton added, ?_⟩
        rintro earlier member _ (_ | ⟨_, ⟨⟩⟩) rfl
        exact unknown (List.mem_eraseDups.mp member)

/-- What is collected of an attribute is what look-up finds. -/
theorem lookUp?_of_mem_effective (distinct : hierarchy.HasDistinctAttributes)
    {entry : String × Attribute} (member : entry ∈ hierarchy.effective name) :
    hierarchy.lookUp? name entry.1 = some entry.2 := by
  have collects := collects_effective hierarchy name
  have distinctKeys : ((hierarchy.effective name).map (·.1)).Nodup :=
    collects.keys ▸ nodup_eraseDups _
  have declared : entry.1 ∈ declaredIn (hierarchy.definitionsOf name) := by
    rw [← List.mem_eraseDups, ← collects.keys]
    exact List.mem_map_of_mem member
  rw [← get?_definitionsOf_reverse distinct, ← collects.latest entry.1 declared]
  exact Dictionary.get?_eq_some_of_mem distinctKeys member

end LookUp

/-- The operations of the definition that look-up finds, if there is one. -/
def foundOverloads (attributeName : String) : List Overload :=
  ((hierarchy.lookUp? name attributeName).map Attribute.overloads).getD []

theorem boundOverloads_effective {hierarchy : Hierarchy} {name : String}
    (distinct : hierarchy.HasDistinctAttributes) :
    (hierarchy.effective name).flatMap (hierarchy.boundOverloads name) =
      (hierarchy.declaredNames name).flatMap (hierarchy.foundOverloads name) := by
  rw [declaredNames, ← (collects_effective hierarchy name).keys, List.flatMap_map]
  apply List.flatMap_congr
  intro entry member
  simp only [boundOverloads, foundOverloads, lookUp?_of_mem_effective distinct member]
  rfl

end Hierarchy

/-! ### The table of a class -/

/-- Declarations follow look-up: the table of a class holds, for every attribute, exactly the
operations that the definition declares which look-up finds, in the order of their declaration and
with the function of that same definition, and nothing for an attribute whose definition declares
none.  The attributes come in the order in which a declared definition of them is first met from base
to derived classes, each one once. -/
theorem Registry.ofHierarchy_follows_lookUp {hierarchy : Hierarchy}
    (distinct : hierarchy.HasDistinctAttributes) (name : String) :
    Registry.ofHierarchy hierarchy name =
      Registry.empty.registerAll
        ((hierarchy.declaredNames name).flatMap (hierarchy.foundOverloads name)) ∧
    (hierarchy.declaredNames name).Nodup ∧
    ∀ attributeName definition, hierarchy.lookUp? name attributeName = some definition →
      definition.isDeclared = true → attributeName ∈ hierarchy.declaredNames name := by
  refine ⟨?_, Hierarchy.nodup_eraseDups _, ?_⟩
  · rw [Registry.ofHierarchy, Hierarchy.boundOverloads_effective distinct]
  · intro attributeName definition found declared
    exact Hierarchy.mem_declaredNames distinct found declared

/-- A class under two others that share a base.  One of the two overrides `click` without a
declaration, the other one puts something else in the place of `stamp`, and the class at the bottom
declares `click` again. -/
def diamond : List ClassDefinition :=
  let method (declared : List String) (label : String) : Attribute :=
    .method ⟨declared.map fun operation => { name := operation },
      { label := label, parameters := none, body := fun _ => pure .none }⟩
  [{ name := "Base"
     attributes := [("stamp", method ["Stamp"] "Base.stamp"), ("click", method ["Click"] "Base.click"),
       ("pause", method ["Pause", "Rest"] "Base.pause")] },
    { name := "Left", bases := ["Base"], attributes := [("click", method [] "Left.click")] },
    { name := "Right", bases := ["Base"], attributes := [("stamp", .plain)] },
    { name := "Bottom"
      bases := ["Left", "Right"]
      attributes := [("click", method ["Click", "Tap"] "Bottom.click")] }]

/-- In the diamond nothing is left of `stamp`, and `click` is what the class at the bottom declares,
in the place of its first declaration. -/
theorem Registry.ofHierarchy_follows_lookUp_diamond :
    ∃ hierarchy, Hierarchy.ofClasses diamond = .ok hierarchy ∧ hierarchy.HasDistinctAttributes ∧
      hierarchy.declaredNames "Bottom" = ["stamp", "click", "pause"] ∧
      ((Registry.ofHierarchy hierarchy "Bottom").entries.flatMap (·.2)).map
          (fun overload => (overload.name, overload.implementation.label)) =
        [("Click", "Bottom.click"), ("Tap", "Bottom.click"), ("Pause", "Base.pause"),
          ("Rest", "Base.pause")] := by
  refine ⟨_, rfl, ?_, rfl, ?_⟩
  · simp [Hierarchy.HasDistinctAttributes]
  · rw [(Registry.ofHierarchy_follows_lookUp (by simp [Hierarchy.HasDistinctAttributes]) "Bottom").1]
    rfl

end InputScript.Catalog
