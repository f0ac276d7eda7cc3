/-
Module: InputScript.Proofs.References
Purpose: What a value with references stands for.  A value is followed from left to right and into the
  values that it refers to, and either it makes a text or it breaks at the first mark that cannot be
  followed, with the fault of that mark.  Replacing the references gives just this.
Main exports: Expands, Breaks, expands_or_breaks, Breaks.isInterpolation
-/
import InputScript.Settings.Interpolation
import Mathlib.Data.List.TakeWhile

namespace InputScript.Settings

open Text

/-! ### References as they are written -/

/-- A name that can stand in a reference. -/
structure IsReferenceName (name : List Char) : Prop where
  nonempty : name ≠ []
  unclosed : ')' ∉ name

/-- A reference to an option as it is written. -/
def referenceText (name : List Char) : List Char :=
  '%' :: '(' :: (name ++ [')', 's'])

theorem referenceText_append (name rest : List Char) :
    referenceText name ++ rest = '%' :: '(' :: (name ++ ')' :: 's' :: rest) := by
  simp [referenceText]

theorem forall_bne_parenthesis {name : List Char} (unclosed : ')' ∉ name) :
    ∀ c ∈ name, (c != ')') = true := by
  intro c member
  rw [bne_iff_ne]
  rintro rfl
  exact unclosed member

variable {text : List Char}

/-- Behind the opening of a reference its name and its end are found. -/
theorem reference?_eq_some {name after : List Char} :
    reference? text = some (name, after) ↔
      IsReferenceName name ∧ text = name ++ ')' :: 's' :: after := by
  constructor
  · intro found
    have whole : text.takeWhile (· != ')') ++ text.dropWhile (· != ')') = text :=
      List.takeWhile_append_dropWhile
    have unclosed : ')' ∉ text.takeWhile (· != ')') := by
      intro member
      have other := List.mem_takeWhile_imp member
      simp at other
    rw [reference?] at found
    split at found
    · next rest ends =>
        split at found
        · cases found
        · next named =>
            cases found
            rw [List.isEmpty_iff] at named
            exact ⟨⟨named, unclosed⟩, by rw [← ends, whole]⟩
    · cases found
  · rintro ⟨isName, rfl⟩
    have plain := forall_bne_parenthesis isName.unclosed
    have taken : (name ++ ')' :: 's' :: after).takeWhile (· != ')') = name := by
      rw [List.takeWhile_append_of_pos plain]
      simp
    have dropped : (name ++ ')' :: 's' :: after).dropWhile (· != ')') = ')' :: 's' :: after := by
      rw [List.dropWhile_append_of_pos plain]
      simp
    simp only [reference?, taken, dropped]
    rw [if_neg (by simpa using isName.nonempty)]

/-! ### The parts of a value -/

theorem template_literal {c : Char} (plain : c ≠ '%') (rest : List Char) :
    template (c :: rest) = .literal c :: template rest := by
  rw [template]
  · rw [if_neg (by simpa using plain)]
  · rintro _ rfl
    exact absurd rfl plain
  · rintro _ rfl
    exact absurd rfl plain

theorem template_doubled (rest : List Char) :
    template ('%' :: '%' :: rest) = .literal '%' :: template rest := by
  rw [template]

theorem template_reference {name : List Char} (isName : IsReferenceName name) (rest : List Char) :
    template (referenceText name ++ rest) = .reference (String.ofList name) :: template rest := by
  have found : reference? (name ++ ')' :: 's' :: rest) = some (name, rest) :=
    reference?_eq_some.mpr ⟨isName, rfl⟩
  rw [referenceText_append, template]
  split
  · next other after same =>
      rw [found] at same
      cases same
      rfl
  · next missing =>
      rw [found] at missing
      cases missing

/-- No reference begins with what follows its opening. -/
def IsUnended (text : List Char) : Prop :=
  ∀ name after, IsReferenceName name → text ≠ name ++ ')' :: 's' :: after

theorem reference?_eq_none : reference? text = none ↔ IsUnended text := by
  rw [Option.eq_none_iff_forall_ne_some]
  constructor
  · intro nothing name after isName same
    exact nothing (name, after) (reference?_eq_some.mpr ⟨isName, same⟩)
  · rintro unended ⟨name, after⟩ found
    obtain ⟨isName, same⟩ := reference?_eq_some.mp found
    exact unended name after isName same

theorem template_badReference {rest : List Char} (unended : IsUnended rest) :
    template ('%' :: '(' :: rest) = [.badReference ('%' :: '(' :: rest)] := by
  rw [template]
  split
  · next found =>
      rw [reference?_eq_none.mpr unended] at found
      cases found
  · rfl

/-- A mark that is neither doubled nor opens a reference. -/
def IsStray (rest : List Char) : Prop :=
  ∀ c ∈ rest.head?, c ≠ '%' ∧ c ≠ '('

theorem template_badMark {rest : List Char} (stray : IsStray rest) :
    template ('%' :: rest) = [.badMark ('%' :: rest)] := by
  rw [template]
  · rw [if_pos (beq_self_eq_true _)]
  · rintro _ - rfl
    exact (stray '%' rfl).1 rfl
  · rintro _ - rfl
    exact (stray '(' rfl).2 rfl

/-! ### What a value makes, and where it breaks -/

/-- The fault of a text that begins with a mark that begins nothing. -/
def strayFault (text : List Char) : Fault :=
  Place.malformed ("'%' must be followed by '%' or '(', found: " ++ quoted (String.ofList text))

/-- The fault of a text that begins with a reference that does not end. -/
def unendedFault (text : List Char) : Fault :=
  Place.malformed s!"bad interpolation variable reference {quoted (String.ofList text)}"

section Relations

variable (lookup? : String → Option String)

/-- A value and the text that it makes, where references may lead so much deeper.  The value of an option
that is referred to is copied if there is no mark in it, and followed otherwise. -/
inductive Expands : Nat → List Char → List Char → Prop where
  | nil {deeper : Nat} : Expands deeper [] []
  | literal {deeper : Nat} {c : Char} {rest made : List Char} (plain : c ≠ '%')
      (follows : Expands deeper rest made) : Expands deeper (c :: rest) (c :: made)
  | doubled {deeper : Nat} {rest made : List Char} (follows : Expands deeper rest made) :
      Expands deeper ('%' :: '%' :: rest) ('%' :: made)
  | copied {deeper : Nat} {name rest made : List Char} {value : String} (isName : IsReferenceName name)
      (found : lookup? (String.ofList name) = some value) (plain : '%' ∉ value.toList)
      (follows : Expands deeper rest made) :
      Expands deeper (referenceText name ++ rest) (value.toList ++ made)
  | followed {deeper : Nat} {name rest inner made : List Char} {value : String}
      (isName : IsReferenceName name) (found : lookup? (String.ofList name) = some value)
      (refers : '%' ∈ value.toList) (inside : Expands deeper value.toList inner)
      (follows : Expands (deeper + 1) rest made) :
      Expands (deeper + 1) (referenceText name ++ rest) (inner ++ made)

/-- A value of an option and the fault of the first mark in it that cannot be followed. -/
inductive Breaks (place : Place) : Nat → List Char → Fault → Prop where
  | stray {deeper : Nat} {rest : List Char} (isStray : IsStray rest) :
      Breaks place deeper ('%' :: rest) (strayFault ('%' :: rest))
  | unended {deeper : Nat} {rest : List Char} (isUnended : IsUnended rest) :
      Breaks place deeper ('%' :: '(' :: rest) (unendedFault ('%' :: '(' :: rest))
  | missing {deeper : Nat} {name rest : List Char} (isName : IsReferenceName name)
      (absent : lookup? (String.ofList name) = none) :
      Breaks place deeper (referenceText name ++ rest) (place.missingOption (String.ofList name))
  | tooDeep {name rest : List Char} {value : String} (isName : IsReferenceName name)
      (found : lookup? (String.ofList name) = some value) (refers : '%' ∈ value.toList) :
      Breaks place 0 (referenceText name ++ rest) place.tooDeep
  | inside {deeper : Nat} {name rest : List Char} {value : String} {fault : Fault}
      (isName : IsReferenceName name) (found : lookup? (String.ofList name) = some value)
      (refers : '%' ∈ value.toList) (breaks : Breaks place deeper value.toList fault) :
      Breaks place (deeper + 1) (referenceText name ++ rest) fault
  | literal {deeper : Nat} {c : Char} {rest : List Char} {fault : Fault} (plain : c ≠ '%')
      (follows : Breaks place deeper rest fault) : Breaks place deeper (c :: rest) fault
  | doubled {deeper : Nat} {rest : List Char} {fault : Fault} (follows : Breaks place deeper rest fault) :
      Breaks place deeper ('%' :: '%' :: rest) fault
  | copied {deeper : Nat} {name rest : List Char} {value : String} {fault : Fault}
      (isName : IsReferenceName name) (found : lookup? (String.ofList name) = some value)
      (plain : '%' ∉ value.toList) (follows : Breaks place deeper rest fault) :
      Breaks place deeper (referenceText name ++ rest) fault
  | followed {deeper : Nat} {name rest inner : List Char} {value : String} {fault : Fault}
      (isName : IsReferenceName name) (found : lookup? (String.ofList name) = some value)
      (refers : '%' ∈ value.toList) (inside : Expands lookup? deeper value.toList inner)
      (follows : Breaks place (deeper + 1) rest fault) :
      Breaks place (deeper + 1) (referenceText name ++ rest) fault

end Relations

variable {lookup? : String → Option String} {place : Place}

/-- What follows a reference to a value with marks decides, or the reference breaks. -/
def Passes (lookup? : String → Option String) (place : Place) (deeper : Nat) (name rest : List Char) : Prop :=
  (∃ inner, ∀ made, Expands lookup? deeper rest made →
      Expands lookup? deeper (referenceText name ++ rest) (inner ++ made)) ∧
    ∀ fault, Breaks lookup? place deeper rest fault →
      Breaks lookup? place deeper (referenceText name ++ rest) fault

variable {deeper : Nat}

/-- A text is settled if references to values with marks are. -/
theorem settles_of_references
    (references : ∀ name rest value, IsReferenceName name → lookup? (String.ofList name) = some value →
      '%' ∈ value.toList → Passes lookup? place deeper name rest ∨
        ∃ fault, Breaks lookup? place deeper (referenceText name ++ rest) fault)
    (text : List Char) :
    (∃ made, Expands lookup? deeper text made) ∨ ∃ fault, Breaks lookup? place deeper text fault := by
  -- Each mark that the scanner tells apart is a constructor of one of the two relations.
  fun_induction template text with
  | case1 => exact .inl ⟨[], .nil⟩
  | case2 rest follows =>
      rcases follows with ⟨made, expands⟩ | ⟨fault, breaks⟩
      · exact .inl ⟨_, .doubled expands⟩
      · exact .inr ⟨fault, .doubled breaks⟩
  | case3 rest name after found _ follows =>
      obtain ⟨isName, rfl⟩ := reference?_eq_some.mp found
      rw [← referenceText_append]
      have passes : Passes lookup? place deeper name after ∨
          ∃ fault, Breaks lookup? place deeper (referenceText name ++ after) fault := by
        cases value : lookup? (String.ofList name) with
        | none => exact .inr ⟨_, .missing isName value⟩
        | some other =>
            by_cases refers : '%' ∈ other.toList
            · exact references name after other isName value refers
            · exact .inl ⟨⟨other.toList, fun _ => .copied isName value refers⟩,
                fun _ => .copied isName value refers⟩
      rcases passes with ⟨⟨inner, expandsOn⟩, breaksOn⟩ | breaks
      · rcases follows with ⟨made, expands⟩ | ⟨fault, breaks⟩
        · exact .inl ⟨_, expandsOn made expands⟩
        · exact .inr ⟨fault, breaksOn fault breaks⟩
      · exact .inr breaks
  | case4 rest missing => exact .inr ⟨_, .unended (reference?_eq_none.mp missing)⟩
  | case5 c rest notDoubled notReference mark =>
      obtain rfl := beq_iff_eq.mp mark
      refine .inr ⟨_, .stray ?_⟩
      intro c first
      cases rest with
      | nil => cases first
      | cons next rest =>
          cases first
          exact ⟨fun same => notDoubled rest rfl (by rw [same]),
            fun same => notReference rest rfl (by rw [same])⟩
  | case6 c rest _ _ plain follows =>
      rw [beq_iff_eq] at plain
      rcases follows with ⟨made, expands⟩ | ⟨fault, breaks⟩
      · exact .inl ⟨_, .literal plain expands⟩
      · exact .inr ⟨fault, .literal plain breaks⟩

/-- Every value makes a text or breaks. -/
theorem expands_or_breaks (place : Place) (lookup? : String → Option String) (deeper : Nat)
    (text : List Char) :
    (∃ made, Expands lookup? deeper text made) ∨ ∃ fault, Breaks lookup? place deeper text fault := by
  induction deeper generalizing text with
  | zero =>
      apply settles_of_references
      intro name rest value isName found refers
      exact .inr ⟨_, .tooDeep isName found refers⟩
  | succ deeper hypothesis =>
      apply settles_of_references
      intro name rest value isName found refers
      rcases hypothesis value.toList with ⟨inner, expands⟩ | ⟨fault, breaks⟩
      · exact .inl ⟨⟨inner, fun _ => .followed isName found refers expands⟩,
          fun _ => .followed isName found refers expands⟩
      · exact .inr ⟨fault, .inside isName found refers breaks⟩

/-! ### Replacing references -/

/-- The text of one part of a value. -/
def pieceText (place : Place) (lookup? : String → Option String) (deeper : Nat) :
    Piece → Except Fault String
  | .literal c => .ok (String.singleton c)
  | .reference name =>
    match lookup? name with
    | none => .error (place.missingOption name)
    | some other =>
      if other.toList.contains '%' then expandTo place lookup? deeper other else .ok other
  | .badReference rest => .error (unendedFault rest)
  | .badMark rest => .error (strayFault rest)

/-- The text of parts of a value. -/
def piecesText (place : Place) (lookup? : String → Option String) (deeper : Nat) (parts : List Piece) :
    Except Fault (List Char) :=
  (parts.mapM (pieceText place lookup? deeper)).map fun texts => texts.flatMap String.toList

theorem expandTo_succ (place : Place) (lookup? : String → Option String) (deeper : Nat) (value : String) :
    expandTo place lookup? (deeper + 1) value =
      (piecesText place lookup? deeper (template value.toList)).map String.ofList := by
  have opened : expandTo place lookup? (deeper + 1) value =
      (template value.toList).mapM (pieceText place lookup? deeper) >>= fun parts =>
        pure (String.join parts) := by
    rw [expandTo]
    congr
  rw [opened, piecesText]
  cases (template value.toList).mapM (pieceText place lookup? deeper) with
  | error fault => rfl
  | ok parts =>
      apply congrArg Except.ok
      rw [← String.toList_inj, String.toList_join, String.toList_ofList]

theorem piecesText_cons (deeper : Nat) (piece : Piece) (parts : List Piece) :
    piecesText place lookup? deeper (piece :: parts) =
      pieceText place lookup? deeper piece >>= fun text =>
        (piecesText place lookup? deeper parts).map (text.toList ++ ·) := by
  rw [piecesText, List.mapM_cons, piecesText]
  cases pieceText place lookup? deeper piece with
  | error fault => rfl
  | ok text => cases parts.mapM (pieceText place lookup? deeper) <;> rfl

theorem piecesText_literal (deeper : Nat) (c : Char) (parts : List Piece) :
    piecesText place lookup? deeper (.literal c :: parts) =
      (piecesText place lookup? deeper parts).map (c :: ·) := by
  rw [piecesText_cons]
  change (piecesText place lookup? deeper parts).map ((String.singleton c).toList ++ ·) = _
  rw [String.toList_singleton]
  rfl

section Names

variable {deeper : Nat} {name : List Char} {value : String}

theorem pieceText_missing (absent : lookup? (String.ofList name) = none) :
    pieceText place lookup? deeper (.reference (String.ofList name)) =
      .error (place.missingOption (String.ofList name)) := by
  rw [pieceText, absent]

theorem pieceText_copied (found : lookup? (String.ofList name) = some value) (plain : '%' ∉ value.toList) :
    pieceText place lookup? deeper (.reference (String.ofList name)) = .ok value := by
  simp only [pieceText, found]
  rw [if_neg (by simpa using plain)]

theorem pieceText_followed (found : lookup? (String.ofList name) = some value)
    (refers : '%' ∈ value.toList) :
    pieceText place lookup? deeper (.reference (String.ofList name)) =
      expandTo place lookup? deeper value := by
  simp only [pieceText, found]
  rw [if_pos (by simpa using refers)]

end Names

theorem Expands.piecesText_eq {made : List Char} (expands : Expands lookup? deeper text made)
    (place : Place) :
    piecesText place lookup? deeper (template text) = .ok made := by
  induction expands with
  | nil =>
      rw [template]
      rfl
  | literal plain _ follows =>
      rw [template_literal plain, piecesText_literal, follows]
      rfl
  | doubled _ follows =>
      rw [template_doubled, piecesText_literal, follows]
      rfl
  | copied isName found plain _ follows =>
      rw [template_reference isName, piecesText_cons, pieceText_copied found plain, follows]
      rfl
  | followed isName found refers _ _ inside follows =>
      rw [template_reference isName, piecesText_cons, pieceText_followed found refers, expandTo_succ,
        inside, follows]
      exact congrArg (fun inner => Except.ok (inner ++ _)) String.toList_ofList

variable {fault : Fault}

theorem Breaks.piecesText_eq (breaks : Breaks lookup? place deeper text fault) :
    piecesText place lookup? deeper (template text) = .error fault := by
  induction breaks with
  | stray isStray =>
      rw [template_badMark isStray]
      rfl
  | unended isUnended =>
      rw [template_badReference isUnended]
      rfl
  | missing isName absent =>
      rw [template_reference isName, piecesText_cons, pieceText_missing absent]
      rfl
  | tooDeep isName found refers =>
      rw [template_reference isName, piecesText_cons, pieceText_followed found refers]
      rfl
  | inside isName found refers _ inside =>
      rw [template_reference isName, piecesText_cons, pieceText_followed found refers, expandTo_succ, inside]
      rfl
  | literal plain _ follows =>
      rw [template_literal plain, piecesText_literal, follows]
      rfl
  | doubled _ follows =>
      rw [template_doubled, piecesText_literal, follows]
      rfl
  | copied isName found plain _ follows =>
      rw [template_reference isName, piecesText_cons, pieceText_copied found plain, follows]
      rfl
  | followed isName found refers inside _ follows =>
      rw [template_reference isName, piecesText_cons, pieceText_followed found refers, expandTo_succ,
        inside.piecesText_eq, follows]
      rfl

/-- How much deeper the references in a stored value may lead. -/
def furtherDepth : Nat := maxDepth - 1

theorem expand_eq_piecesText (place : Place) (lookup? : String → Option String) :
    expand place lookup? =
      (piecesText place lookup? furtherDepth (template place.raw.toList)).map String.ofList :=
  expandTo_succ place lookup? furtherDepth place.raw

theorem Expands.expand_eq {made : List Char} (expands : Expands lookup? furtherDepth place.raw.toList made) :
    expand place lookup? = .ok (String.ofList made) := by
  rw [expand_eq_piecesText, expands.piecesText_eq]
  rfl

theorem Breaks.expand_eq (breaks : Breaks lookup? place furtherDepth place.raw.toList fault) :
    expand place lookup? = .error fault := by
  rw [expand_eq_piecesText, breaks.piecesText_eq]
  rfl

/-- Replacing the references gives the text that a value makes. -/
theorem expand_eq_ok {text : String} :
    expand place lookup? = .ok text ↔ Expands lookup? furtherDepth place.raw.toList text.toList := by
  constructor
  · intro expanded
    rcases expands_or_breaks place lookup? furtherDepth place.raw.toList with
      ⟨made, expands⟩ | ⟨fault, breaks⟩
    · rw [expands.expand_eq] at expanded
      cases expanded
      rwa [String.toList_ofList]
    · rw [breaks.expand_eq] at expanded
      cases expanded
  · intro expands
    rw [expands.expand_eq, String.ofList_toList]

/-- It fails with the fault of the mark at which a value breaks. -/
theorem expand_eq_error :
    expand place lookup? = .error fault ↔ Breaks lookup? place furtherDepth place.raw.toList fault := by
  constructor
  · intro failed
    rcases expands_or_breaks place lookup? furtherDepth place.raw.toList with
      ⟨made, expands⟩ | ⟨other, breaks⟩
    · rw [expands.expand_eq] at failed
      cases failed
    · rw [breaks.expand_eq] at failed
      cases failed
      exact breaks
  · exact Breaks.expand_eq

/-- A text without marks makes itself. -/
theorem expands_plain (plain : '%' ∉ text) (deeper : Nat) :
    Expands lookup? deeper text text := by
  induction text with
  | nil => exact .nil
  | cons c rest hypothesis =>
      rw [List.mem_cons, not_or] at plain
      exact .literal (Ne.symm plain.1) (hypothesis plain.2)

/-- A value without marks is read as it is. -/
theorem expand_plain {place : Place} (plain : '%' ∉ place.raw.toList) (lookup? : String → Option String) :
    expand place lookup? = .ok place.raw :=
  expand_eq_ok.mpr (expands_plain plain furtherDepth)

/-! ### Faults -/

/-- The kinds of the faults of references. -/
def interpolationKinds : List FaultKind :=
  [.interpolationSyntax, .interpolationMissingOption, .interpolationDepth]

/-- A fault of references, which is not one of an unsuitable value. -/
def IsInterpolation (fault : Fault) : Prop :=
  ∃ kind ∈ interpolationKinds, ∃ message, fault = .raised kind (some message)

theorem Breaks.isInterpolation (breaks : Breaks lookup? place deeper text fault) :
    IsInterpolation fault := by
  induction breaks with
  | stray | unended => exact ⟨.interpolationSyntax, by decide, _, rfl⟩
  | missing => exact ⟨.interpolationMissingOption, by decide, _, rfl⟩
  | tooDeep => exact ⟨.interpolationDepth, by decide, _, rfl⟩
  | inside _ _ _ _ follows | literal _ _ follows | doubled _ follows | copied _ _ _ _ follows
  | followed _ _ _ _ _ follows => exact follows

end InputScript.Settings
