/-
Module: InputScript.Settings.Interpolation
Purpose: References between options: a value may name another option, whose value takes its place.
Main exports: Piece, template, expand, checkValue
-/
import InputScript.Outcome

namespace InputScript.Settings

open Text

/-! ### References -/

/-- The name in a reference whose opening has been read, and what follows the reference. -/
def reference? (text : List Char) : Option (List Char × List Char) :=
  let name := text.takeWhile (· != ')')
  match text.dropWhile (· != ')') with
  | ')' :: 's' :: after => if name.isEmpty then none else some (name, after)
  | _ => none

theorem reference?_length {text name after : List Char} (found : reference? text = some (name, after)) :
    after.length < text.length := by
  have whole : text.takeWhile (· != ')') ++ text.dropWhile (· != ')') = text :=
    List.takeWhile_append_dropWhile
  rw [reference?] at found
  split at found
  · next rest_eq =>
      split at found
      · cases found
      · cases found
        rw [← whole, rest_eq]
        simp only [List.length_append, List.length_cons]
        omega
  · cases found

/-- A part of a value. -/
inductive Piece where
  | literal (c : Char)
  | reference (name : String)
  /-- A reference that is not well formed, with the rest of the value. -/
  | badReference (rest : List Char)
  /-- A mark that begins nothing, with the rest of the value. -/
  | badMark (rest : List Char)

/-- The parts of a value, up to the first that is not well formed. -/
def template : List Char → List Piece
  | [] => []
  | '%' :: '%' :: rest => .literal '%' :: template rest
  | '%' :: '(' :: rest =>
    match found : reference? rest with
    | some (name, after) =>
      have : after.length < rest.length := reference?_length found
      .reference (String.ofList name) :: template after
    | none => [.badReference ('%' :: '(' :: rest)]
  | c :: rest => if c == '%' then [.badMark (c :: rest)] else .literal c :: template rest
termination_by text => text.length

/-! ### Values -/

/-- How deep references may lead to further references. -/
def maxDepth : Nat := 10

/-- An option whose value is being made. -/
structure Place where
  sectionName : String
  option : String
  /-- Its value as it is stored. -/
  raw : String

namespace Place

/-- The fault of a value that is not well formed. -/
def malformed (message : String) : Fault :=
  .raised .interpolationSyntax (some message)

/-- The fault of a reference to an option that is not there. -/
def missingOption (place : Place) (name : String) : Fault :=
  .raised .interpolationMissingOption (some <|
    s!"Bad value substitution: option {quoted place.option} in section {quoted place.sectionName} " ++
      s!"contains an interpolation key {quoted name} which is not a valid option name. " ++
      s!"Raw value: {quoted place.raw}")

/-- The fault of references that lead too deep. -/
def tooDeep (place : Place) : Fault :=
  .raised .interpolationDepth (some <|
    s!"Recursion limit exceeded in value substitution: option {quoted place.option} in section " ++
      s!"{quoted place.sectionName} contains an interpolation key which cannot be substituted in " ++
      s!"{maxDepth} steps. Raw value: {quoted place.raw}")

end Place

/-- The text of a value with all references replaced, when references may lead so much deeper. -/
def expandTo (place : Place) (lookup? : String → Option String) :
    Nat → String → Except Fault String
  | 0, _ => .error place.tooDeep
  | deeper + 1, value => do
    let parts ← (template value.toList).mapM fun piece =>
      match piece with
      | .literal c => .ok (String.singleton c)
      | .reference name =>
        match lookup? name with
        | none => .error (place.missingOption name)
        | some other =>
          if other.toList.contains '%' then expandTo place lookup? deeper other else .ok other
      | .badReference rest =>
        .error (Place.malformed
          s!"bad interpolation variable reference {quoted (String.ofList rest)}")
      | .badMark rest =>
        .error (Place.malformed
          ("'%' must be followed by '%' or '(', found: " ++ quoted (String.ofList rest)))
    return String.join parts

/-- The text of the value of an option. -/
def expand (place : Place) (lookup? : String → Option String) : Except Fault String :=
  expandTo place lookup? maxDepth place.raw

/-! ### Values that may be stored -/

/-- Remove the doubled marks. -/
def withoutDoubled : List Char → List Char
  | [] => []
  | '%' :: '%' :: rest => withoutDoubled rest
  | c :: rest => c :: withoutDoubled rest

/-- Remove the references. -/
def withoutReferences : List Char → List Char
  | [] => []
  | '%' :: '(' :: rest =>
    match found : reference? rest with
    | some (_, after) =>
      have : after.length < rest.length := reference?_length found
      withoutReferences after
    | none => '%' :: withoutReferences ('(' :: rest)
  | c :: rest => c :: withoutReferences rest
termination_by text => text.length

/-- Check that every mark in a value is doubled or begins a reference. -/
def checkValue (value : String) : Except Fault Unit :=
  match (withoutReferences (withoutDoubled value.toList)).idxOf? '%' with
  | none => .ok ()
  | some position =>
    .error (.ofValue
      s!"invalid interpolation syntax in {quoted value} at position {position}")

end InputScript.Settings
