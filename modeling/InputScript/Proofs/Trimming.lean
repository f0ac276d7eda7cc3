/-
Module: InputScript.Proofs.Trimming
Purpose: What is left of a text without the blanks at its ends.  A trimmed text is not changed again,
  and a word that is left of a text with a blank in it stands on one side of the blank.
Main exports: blankCodes, trim_trim, exists_trim, solid_of_trim
-/
import InputScript.Text.Blank
import Mathlib.Data.List.DropRight

namespace InputScript.Text

/-- The code points of the blanks. -/
def blankCodes : List Nat :=
  [0x09, 0x0A, 0x0B, 0x0C, 0x0D, 0x1C, 0x1D, 0x1E, 0x1F, 0x20, 0x85, 0xA0, 0x1680, 0x2000, 0x2001,
    0x2002, 0x2003, 0x2004, 0x2005, 0x2006, 0x2007, 0x2008, 0x2009, 0x200A, 0x2028, 0x2029, 0x202F,
    0x205F, 0x3000]

variable {c : Char}

theorem toNat_mem_blankCodes (blank : isBlank c = true) : c.toNat ∈ blankCodes := by
  simp only [isBlank, Bool.or_eq_true, Bool.and_eq_true, decide_eq_true_eq, beq_iff_eq] at blank
  simp only [blankCodes, List.mem_cons, List.not_mem_nil, or_false]
  omega

variable {text : List Char}

theorem trimStart_trimEnd (started : trimStart text = text) :
    trimStart (trimEnd text) = trimEnd text := by
  have kept : trimEnd text <+: text := List.rdropWhile_prefix isBlank text
  cases rest : trimEnd text with
  | nil => rfl
  | cons c later =>
      rw [rest] at kept
      obtain ⟨blanks, rfl⟩ := kept
      rw [trimStart, List.cons_append] at started
      rw [trimStart, List.dropWhile_cons_of_neg]
      intro blank
      rw [List.dropWhile_cons_of_pos blank] at started
      have shorter := congrArg List.length started
      have bound := (List.dropWhile_suffix isBlank (l := later ++ blanks)).length_le
      simp only [List.length_cons] at shorter
      omega

/-- Trimming a trimmed text changes nothing. -/
@[simp] theorem trim_trim (text : List Char) : trim (trim text) = trim text := by
  have started : trimStart (trimStart text) = trimStart text := List.dropWhile_idempotent isBlank text
  have ended : trimEnd (trimEnd (trimStart text)) = trimEnd (trimStart text) :=
    List.rdropWhile_idempotent isBlank _
  rw [trim, trim, trimStart_trimEnd started, ended]

/-- What trimming takes away are blanks. -/
theorem exists_trim (text : List Char) :
    ∃ before after, text = before ++ (trim text ++ after) ∧ (∀ c ∈ before, isBlank c = true) ∧
      ∀ c ∈ after, isBlank c = true := by
  refine ⟨text.takeWhile isBlank, (trimStart text).rtakeWhile isBlank, ?_, ?_, ?_⟩
  · rw [trim, trimEnd, ← List.rdropWhile, List.rdropWhile_append_rtakeWhile, trimStart,
      List.takeWhile_append_dropWhile]
  · intro c member
    exact List.mem_takeWhile_imp member
  · intro c member
    exact List.mem_rtakeWhile_imp member

variable {core : List Char}

theorem dropWhile_solid (solid : ∀ c ∈ core, isBlank c = false) :
    core.dropWhile isBlank = core := by
  cases core with
  | nil => rfl
  | cons c rest => exact List.dropWhile_cons_of_neg (by simp [solid c List.mem_cons_self])

/-- A word with only blanks around it is what is left. -/
theorem trim_surrounded {before after : List Char} (early : ∀ c ∈ before, isBlank c = true)
    (late : ∀ c ∈ after, isBlank c = true) (solid : ∀ c ∈ core, isBlank c = false) :
    trim (before ++ (core ++ after)) = core := by
  have trimmed : trimEnd (core ++ after) = core := by
    rw [trimEnd, List.reverse_append, List.dropWhile_append_of_pos (by simpa using late),
      dropWhile_solid (by simpa using solid), List.reverse_reverse]
  rw [trim, trimStart, List.dropWhile_append_of_pos early]
  cases core with
  | nil =>
      rw [List.nil_append, List.dropWhile_eq_nil_iff.mpr late]
      rfl
  | cons c rest =>
      rw [List.cons_append, List.dropWhile_cons_of_neg (by simp [solid c List.mem_cons_self])]
      exact trimmed

/-- A word without blanks is left as it is. -/
theorem trim_solid (solid : ∀ c ∈ core, isBlank c = false) : trim core = core := by
  simpa using trim_surrounded (List.forall_mem_nil _) (List.forall_mem_nil _) solid

/-- A word that is left of two texts with a blank between them is left of one of the two. -/
theorem trim_around_blank {first second : List Char} {blank : Char}
    (isBlank_blank : isBlank blank = true) (left : trim (first ++ blank :: second) = core)
    (nonempty : core ≠ []) (solid : ∀ c ∈ core, isBlank c = false) :
    trim first = core ∨ trim second = core := by
  have outside : blank ∉ core := by
    intro inside
    rw [solid blank inside] at isBlank_blank
    cases isBlank_blank
  obtain ⟨before, after, whole, early, late⟩ := exists_trim (first ++ blank :: second)
  rw [left] at whole
  -- The blank in the middle belongs to what is taken away before or after the word.
  rcases List.append_eq_append_iff.mp whole with ⟨extra, rfl, secondEq⟩ | ⟨extra, rfl, coreEq⟩
  · cases extra with
    | nil =>
        obtain ⟨c, rest, rfl⟩ := List.exists_cons_of_ne_nil nonempty
        cases secondEq
        exact absurd List.mem_cons_self outside
    | cons c extra =>
        cases secondEq
        have blanks : ∀ c ∈ extra, isBlank c = true := by
          intro c member
          exact early c (by simp [member])
        exact .inr (trim_surrounded blanks late solid)
  · rcases List.append_eq_append_iff.mp coreEq with ⟨more, rfl, rfl⟩ | ⟨more, rfl, afterEq⟩
    · have blanks : ∀ c ∈ more, isBlank c = true := by
        intro c member
        exact late c (by simp [member])
      exact .inl (trim_surrounded early blanks solid)
    · cases more with
      | nil =>
          have alone := trim_surrounded early (List.forall_mem_nil _) solid
          simp only [List.append_nil] at alone ⊢
          exact .inl alone
      | cons c more =>
          cases afterEq
          exact absurd (by simp) outside

/-- A word that is left of joined texts is left of one of them. -/
theorem trim_joined {texts : List (List Char)} {blank : Char}
    (isBlank_blank : isBlank blank = true) (left : trim ([blank].intercalate texts) = core)
    (nonempty : core ≠ []) (solid : ∀ c ∈ core, isBlank c = false) :
    ∃ text ∈ texts, trim text = core := by
  induction texts with
  | nil => exact absurd left.symm nonempty
  | cons text rest hypothesis =>
      cases rest with
      | nil =>
          rw [List.intercalate_singleton] at left
          exact ⟨text, List.mem_cons_self, left⟩
      | cons next rest =>
          rw [List.intercalate_cons_cons, List.append_assoc, List.singleton_append] at left
          rcases trim_around_blank isBlank_blank left nonempty solid with here | there
          · exact ⟨text, List.mem_cons_self, here⟩
          · obtain ⟨found, member, leftOfFound⟩ := hypothesis there
            exact ⟨found, List.mem_cons_of_mem _ member, leftOfFound⟩

/-! ### Blanks at the ends -/

theorem trimStart_solid (solid : isBlank c = false) (rest : List Char) :
    trimStart (c :: rest) = c :: rest :=
  List.dropWhile_cons_of_neg (by simp [solid])

theorem trim_blank (blank : isBlank c = true) (rest : List Char) :
    trim (c :: rest) = trim rest := by
  rw [trim, trimStart, List.dropWhile_cons_of_pos blank]
  rfl

theorem trimEnd_blank (blank : isBlank c = true) (text : List Char) :
    trimEnd (text ++ [c]) = trimEnd text := by
  rw [trimEnd, List.reverse_append, List.reverse_singleton, List.singleton_append,
    List.dropWhile_cons_of_pos blank]
  rfl

/-- What stands before a character that is no blank is kept. -/
theorem trimEnd_solid (solid : isBlank c = false) (before after : List Char) :
    trimEnd (before ++ c :: after) = before ++ c :: trimEnd after := by
  have stops : (c :: before.reverse).dropWhile isBlank = c :: before.reverse :=
    List.dropWhile_cons_of_neg (by simp [solid])
  rw [trimEnd, trimEnd, List.reverse_append, List.reverse_cons, List.append_assoc,
    List.singleton_append, List.dropWhile_append]
  split
  · next nothing =>
      rw [List.isEmpty_iff.mp nothing, stops]
      simp
  · rw [List.reverse_append, List.reverse_cons, List.reverse_reverse, List.append_assoc]
    rfl

@[simp] theorem trimEnd_trimEnd (text : List Char) : trimEnd (trimEnd text) = trimEnd text :=
  List.rdropWhile_idempotent isBlank text

theorem trim_solid_cons (solid : isBlank c = false) (rest : List Char) :
    trim (c :: rest) = c :: trimEnd rest := by
  rw [trim, trimStart_solid solid]
  exact trimEnd_solid solid [] rest

/-- Trimming at the end first makes no difference. -/
theorem trim_trimEnd (text : List Char) : trim (trimEnd text) = trim text := by
  induction text using List.reverseRecOn with
  | nil => rfl
  | append_singleton text c hypothesis =>
      cases blank : isBlank c with
      | false => rw [trimEnd_solid blank]; rfl
      | true =>
          rw [trimEnd_blank blank, hypothesis, trim, trim, trimStart, trimStart,
            List.dropWhile_append]
          split
          · next nothing =>
              rw [List.isEmpty_iff.mp nothing, List.dropWhile_cons_of_pos blank]
              rfl
          · rw [trimEnd_blank blank]

theorem trim_append_blank (blank : isBlank c = true) (text : List Char) :
    trim (text ++ [c]) = trim text := by
  rw [← trim_trimEnd, trimEnd_blank blank, trim_trimEnd]

theorem trimEnd_of_trim (trimmed : trim text = text) : trimEnd text = text := by
  rw [← trimmed, trim, trimEnd_trimEnd]

/-- A trimmed text does not begin with a blank. -/
theorem solid_of_trim {rest : List Char} (spelled : trim text = c :: rest) :
    isBlank c = false := by
  cases blank : isBlank c with
  | false => rfl
  | true =>
      have again := trim_trim text
      rw [spelled, trim_blank blank] at again
      obtain ⟨before, after, whole, -, -⟩ := exists_trim rest
      have lengths := congrArg List.length whole
      rw [again] at lengths
      simp only [List.length_append, List.length_cons] at lengths
      omega

/-- The characters of a trimmed text are among those of the text. -/
theorem mem_of_mem_trim (inside : c ∈ trim text) : c ∈ text := by
  obtain ⟨before, after, whole, -, -⟩ := exists_trim text
  rw [whole]
  simp [inside]

/-- Whether a text has blanks at its end depends on its last part only. -/
theorem trimEnd_append_of_ended {first second : List Char} (nonempty : second ≠ [])
    (ended : trimEnd (first ++ second) = first ++ second) (other : List Char) :
    trimEnd (other ++ second) = other ++ second := by
  obtain ⟨early, c, rfl⟩ := (List.eq_nil_or_concat second).resolve_left nonempty
  rw [List.concat_eq_append] at ended ⊢
  cases blank : isBlank c with
  | false =>
      rw [← List.append_assoc, trimEnd_solid blank]
      rfl
  | true =>
      rw [← List.append_assoc, trimEnd_blank blank] at ended
      have shorter : (trimEnd (first ++ early)).length ≤ (first ++ early).length :=
        (List.rdropWhile_prefix isBlank _).length_le
      rw [ended] at shorter
      simp only [List.length_append, List.length_singleton] at shorter
      omega

end InputScript.Text
