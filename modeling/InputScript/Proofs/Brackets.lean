/-
Module: InputScript.Proofs.Brackets
Purpose: Texts with brackets.  The grammar of balanced texts is the check for them, a solid text is
  one piece outside of brackets, and a name with a bracketed text after it splits into these two.
Main exports: Balanced, Solid, isBalanced_iff, nestedParts?_eq_some
-/
import InputScript.Script.Arguments

namespace InputScript.Script

open Text

/-! ### Grammars -/

/-- A text whose brackets pair up. -/
inductive Balanced : List Char → Prop where
  | nil : Balanced []
  | plain {c : Char} {rest : List Char} (notOpen : c ≠ openBracket) (notClose : c ≠ closeBracket)
      (later : Balanced rest) : Balanced (c :: rest)
  | group {inner rest : List Char} (inside : Balanced inner) (later : Balanced rest) :
      Balanced (openBracket :: (inner ++ closeBracket :: rest))

/-- A text whose brackets pair up and that has no separator outside of them. -/
inductive Solid : List Char → Prop where
  | nil : Solid []
  | plain {c : Char} {rest : List Char} (notOpen : c ≠ openBracket) (notClose : c ≠ closeBracket)
      (joins : separatesArguments c = false) (later : Solid rest) : Solid (c :: rest)
  | group {inner rest : List Char} (inside : Balanced inner) (later : Solid rest) :
      Solid (openBracket :: (inner ++ closeBracket :: rest))

theorem closeBracket_ne_openBracket : closeBracket ≠ openBracket := by decide

variable {text : List Char}

theorem Solid.balanced (solid : Solid text) : Balanced text := by
  induction solid with
  | nil => exact .nil
  | plain notOpen notClose _ _ hypothesis => exact .plain notOpen notClose hypothesis
  | group inside _ hypothesis => exact .group inside hypothesis

theorem Balanced.append {first second : List Char} (before : Balanced first)
    (after : Balanced second) : Balanced (first ++ second) := by
  induction before with
  | nil => exact after
  | plain notOpen notClose _ hypothesis => exact .plain notOpen notClose hypothesis
  | group inside _ _ hypothesis =>
      simp only [List.cons_append, List.append_assoc]
      exact .group inside hypothesis

theorem Solid.append {first second : List Char} (before : Solid first) (after : Solid second) :
    Solid (first ++ second) := by
  induction before with
  | nil => exact after
  | plain notOpen notClose joins _ hypothesis =>
      exact .plain notOpen notClose joins hypothesis
  | group inside _ hypothesis =>
      simp only [List.cons_append, List.append_assoc]
      exact .group inside hypothesis

/-! ### The check for balanced texts -/

section Check

variable (depth : Nat) (rest : List Char)

@[simp] theorem isBalancedFrom_open :
    isBalancedFrom depth (openBracket :: rest) = isBalancedFrom (depth + 1) rest := by
  cases depth <;> simp [isBalancedFrom]

@[simp] theorem isBalancedFrom_close_zero : isBalancedFrom 0 (closeBracket :: rest) = false := by
  simp [isBalancedFrom, closeBracket_ne_openBracket]

@[simp] theorem isBalancedFrom_close_succ :
    isBalancedFrom (depth + 1) (closeBracket :: rest) = isBalancedFrom depth rest := by
  simp [isBalancedFrom, closeBracket_ne_openBracket]

theorem isBalancedFrom_plain {c : Char} (notOpen : c ≠ openBracket) (notClose : c ≠ closeBracket) :
    isBalancedFrom depth (c :: rest) = isBalancedFrom depth rest := by
  cases depth <;> simp [isBalancedFrom, notOpen, notClose]

end Check

theorem isBalancedFrom_append (balanced : Balanced text) (depth : Nat) (rest : List Char) :
    isBalancedFrom depth (text ++ rest) = isBalancedFrom depth rest := by
  induction balanced generalizing depth rest with
  | nil => rfl
  | plain notOpen notClose _ hypothesis =>
      rw [List.cons_append, isBalancedFrom_plain depth _ notOpen notClose, hypothesis]
  | group _ _ insideHypothesis laterHypothesis =>
      simp [insideHypothesis, laterHypothesis]

/-- What a text looks like that closes the brackets that are open before it. -/
def Closes : Nat → List Char → Prop
  | 0, text => Balanced text
  | depth + 1, text =>
    ∃ inner rest, text = inner ++ closeBracket :: rest ∧ Balanced inner ∧ Closes depth rest

variable {c : Char} {depth : Nat}

theorem Closes.plain {rest : List Char} (notOpen : c ≠ openBracket) (notClose : c ≠ closeBracket)
    (closes : Closes depth rest) : Closes depth (c :: rest) := by
  cases depth with
  | zero => exact Balanced.plain notOpen notClose closes
  | succ depth =>
      obtain ⟨inner, later, rfl, balanced, outer⟩ := closes
      exact ⟨c :: inner, later, rfl, .plain notOpen notClose balanced, outer⟩

theorem Closes.group {rest : List Char} (closes : Closes (depth + 1) rest) :
    Closes depth (openBracket :: rest) := by
  obtain ⟨inner, later, rfl, balanced, outer⟩ := closes
  cases depth with
  | zero => exact Balanced.group balanced outer
  | succ depth =>
      obtain ⟨further, last, rfl, balancedFurther, outermost⟩ := outer
      refine ⟨openBracket :: (inner ++ closeBracket :: further), last, ?_, ?_, outermost⟩
      · simp
      · exact .group balanced balancedFurther

theorem closes_of_isBalancedFrom (balanced : isBalancedFrom depth text = true) :
    Closes depth text := by
  induction text generalizing depth with
  | nil =>
      obtain rfl : depth = 0 := by simpa [isBalancedFrom] using balanced
      exact Balanced.nil
  | cons c rest hypothesis =>
      by_cases isOpen : c = openBracket
      · subst isOpen
        rw [isBalancedFrom_open] at balanced
        exact (hypothesis balanced).group
      · by_cases isClose : c = closeBracket
        · subst isClose
          cases depth with
          | zero => simp at balanced
          | succ depth =>
              rw [isBalancedFrom_close_succ] at balanced
              exact ⟨[], rest, rfl, .nil, hypothesis balanced⟩
        · rw [isBalancedFrom_plain depth rest isOpen isClose] at balanced
          exact (hypothesis balanced).plain isOpen isClose

theorem isBalanced_iff : isBalanced text = true ↔ Balanced text := by
  constructor
  · exact closes_of_isBalancedFrom
  · intro balanced
    have checked := isBalancedFrom_append balanced 0 []
    rw [List.append_nil] at checked
    exact checked

/-! ### Pieces outside of brackets -/

/-- Put a text in front of the first piece. -/
def prepend (text : List Char) : List (List Char) → List (List Char)
  | [] => [text]
  | piece :: others => (text ++ piece) :: others

@[simp] theorem prepend_cons (text piece : List Char) (others : List (List Char)) :
    prepend text (piece :: others) = (text ++ piece) :: others := rfl

theorem prepend_prepend (first second : List Char) (pieces : List (List Char)) :
    prepend first (prepend second pieces) = prepend (first ++ second) pieces := by
  cases pieces with
  | nil => rfl
  | cons piece others => simp

@[simp] theorem splitOutside_nil (depth : Nat) : splitOutside depth [] = [[]] := rfl

theorem splitOutside_separator (separates : separatesArguments c = true) (rest : List Char) :
    splitOutside 0 (c :: rest) = [] :: splitOutside 0 rest := by
  simp [splitOutside, separates]

theorem splitOutside_joins (joins : (depth == 0 && separatesArguments c) = false)
    (rest : List Char) :
    splitOutside depth (c :: rest) = prepend [c] (splitOutside (depthAfter depth c) rest) := by
  rw [splitOutside, joins]
  cases splitOutside (depthAfter depth c) rest <;> rfl

theorem splitOutside_ne_nil (depth : Nat) (text : List Char) : splitOutside depth text ≠ [] := by
  cases text with
  | nil => simp
  | cons c rest =>
      by_cases separates : (depth == 0 && separatesArguments c) = true
      · simp [splitOutside, separates]
      · rw [splitOutside_joins (Bool.eq_false_iff.mpr separates)]
        cases splitOutside (depthAfter depth c) rest <;> simp [prepend]

theorem prepend_nil {pieces : List (List Char)} (some : pieces ≠ []) : prepend [] pieces = pieces := by
  cases pieces with
  | nil => exact absurd rfl some
  | cons piece others => rfl

theorem depthAfter_plain (notOpen : c ≠ openBracket) (notClose : c ≠ closeBracket) (depth : Nat) :
    depthAfter depth c = depth := by
  simp [depthAfter, notOpen, notClose]

@[simp] theorem depthAfter_open (depth : Nat) : depthAfter depth openBracket = depth + 1 := by
  simp [depthAfter]

@[simp] theorem depthAfter_close (depth : Nat) : depthAfter (depth + 1) closeBracket = depth := by
  simp [depthAfter, closeBracket_ne_openBracket]

theorem bracket_joins : separatesArguments openBracket = false := by decide

/-- Inside brackets nothing separates. -/
theorem splitOutside_inside {inner : List Char} (balanced : Balanced inner) (depth : Nat)
    (rest : List Char) :
    splitOutside (depth + 1) (inner ++ rest) = prepend inner (splitOutside (depth + 1) rest) := by
  induction balanced generalizing depth rest with
  | nil => exact (prepend_nil (splitOutside_ne_nil _ _)).symm
  | plain notOpen notClose _ hypothesis =>
      rw [List.cons_append, splitOutside_joins (by simp), depthAfter_plain notOpen notClose,
        hypothesis, prepend_prepend]
      rfl
  | @group inner later _ _ insideHypothesis laterHypothesis =>
      rw [List.cons_append, splitOutside_joins (by simp), depthAfter_open, List.append_assoc,
        insideHypothesis, List.cons_append, splitOutside_joins (by simp), depthAfter_close,
        laterHypothesis, prepend_prepend, prepend_prepend, prepend_prepend]
      simp

theorem splitOutside_solid (solid : Solid text) (rest : List Char) :
    splitOutside 0 (text ++ rest) = prepend text (splitOutside 0 rest) := by
  induction solid with
  | nil => exact (prepend_nil (splitOutside_ne_nil _ _)).symm
  | plain notOpen notClose joins _ hypothesis =>
      rw [List.cons_append, splitOutside_joins (by simp [joins]), depthAfter_plain notOpen notClose,
        hypothesis, prepend_prepend]
      rfl
  | group inside _ hypothesis =>
      rw [List.cons_append, splitOutside_joins (by simp [bracket_joins]), depthAfter_open,
        List.append_assoc, splitOutside_inside inside, List.cons_append,
        splitOutside_joins (by simp), depthAfter_close, hypothesis, prepend_prepend,
        prepend_prepend, prepend_prepend]
      simp

theorem prepend_eq_singleton {whole : List Char} {pieces : List (List Char)} (some : pieces ≠ []) :
    prepend text pieces = [text ++ whole] ↔ pieces = [whole] := by
  cases pieces with
  | nil => exact absurd rfl some
  | cons piece others => simp

/-- A text is solid if its brackets pair up and it is its only piece. -/
theorem solid_iff :
    Solid text ↔ isBalanced text = true ∧ splitOutside 0 text = [text] := by
  constructor
  · intro solid
    have split := splitOutside_solid solid []
    rw [List.append_nil, splitOutside_nil, prepend_cons, List.append_nil] at split
    exact ⟨isBalanced_iff.mpr solid.balanced, split⟩
  · rintro ⟨balanced, split⟩
    have grammar := isBalanced_iff.mp balanced
    clear balanced
    induction grammar with
    | nil => exact .nil
    | @plain c rest notOpen notClose _ hypothesis =>
        cases separates : separatesArguments c with
        | true => simp [splitOutside_separator separates] at split
        | false =>
            rw [splitOutside_joins (by simp [separates]), depthAfter_plain notOpen notClose] at split
            have later := (prepend_eq_singleton (splitOutside_ne_nil 0 rest)).mp split
            exact .plain notOpen notClose separates (hypothesis later)
    | @group inner rest inside _ _ hypothesis =>
        have whole : openBracket :: (inner ++ closeBracket :: rest) =
            [openBracket] ++ (inner ++ ([closeBracket] ++ rest)) := rfl
        rw [splitOutside_joins (by simp [bracket_joins]), depthAfter_open,
          splitOutside_inside inside, splitOutside_joins (by simp), depthAfter_close,
          prepend_prepend, prepend_prepend, whole, ← List.append_assoc, ← List.append_assoc,
          prepend_eq_singleton (splitOutside_ne_nil _ _)] at split
        exact .group inside (hypothesis split)

instance (text : List Char) : Decidable (Balanced text) :=
  decidable_of_iff _ isBalanced_iff

instance (text : List Char) : Decidable (Solid text) :=
  decidable_of_iff _ solid_iff.symm

/-- Solid pieces with blanks between them are the pieces outside of brackets. -/
theorem outerPieces_intercalate {texts : List (List Char)}
    (solid : ∀ text ∈ texts, Solid text ∧ text ≠ []) :
    outerPieces ([' '].intercalate texts) = texts := by
  induction texts with
  | nil => rfl
  | cons text others hypothesis =>
      obtain ⟨solidText, nonempty⟩ := solid text List.mem_cons_self
      have later := hypothesis fun other member => solid other (List.mem_cons_of_mem _ member)
      cases others with
      | nil =>
          have split := splitOutside_solid solidText []
          rw [List.append_nil, splitOutside_nil, prepend_cons, List.append_nil] at split
          simp [outerPieces, split, nonempty]
      | cons next others =>
          rw [List.intercalate_cons_cons, List.append_assoc, outerPieces,
            splitOutside_solid solidText, List.singleton_append, splitOutside_separator (by decide),
            prepend_cons, List.append_nil, List.filter_cons_of_pos (by simp [nonempty])]
          exact congrArg (text :: ·) later

/-! ### Nested steps -/

theorem openBracket_not_name : isNameChar openBracket = false := by decide

/-- A piece splits into a name and a bracketed text exactly if it is made of them. -/
theorem nestedParts?_eq_some {piece name inner : List Char} :
    nestedParts? piece = some (name, inner) ↔
      name ≠ [] ∧ (∀ c ∈ name, isNameChar c = true) ∧
        piece = name ++ openBracket :: (inner ++ [closeBracket]) := by
  constructor
  · intro parts
    have whole : piece.takeWhile isNameChar ++ piece.dropWhile isNameChar = piece :=
      List.takeWhile_append_dropWhile
    rw [nestedParts?] at parts
    split at parts
    · cases parts
    · next mark body bodyEq =>
        split at parts
        · next shape =>
            simp only [Bool.and_eq_true, Bool.not_eq_true', List.isEmpty_eq_false_iff, beq_iff_eq]
              at shape
            obtain ⟨⟨nonempty, rfl⟩, closes⟩ := shape
            obtain ⟨inside, rfl⟩ := List.getLast?_eq_some_iff.mp closes
            cases parts
            refine ⟨nonempty, List.all_eq_true.mp List.all_takeWhile, ?_⟩
            rw [List.dropLast_concat, ← bodyEq, whole]
        · cases parts
  · rintro ⟨nonempty, named, rfl⟩
    have taken : (name ++ openBracket :: (inner ++ [closeBracket])).takeWhile isNameChar = name := by
      rw [List.takeWhile_append_of_pos named, List.takeWhile_cons_of_neg (by simp [openBracket_not_name]),
        List.append_nil]
    have dropped : (name ++ openBracket :: (inner ++ [closeBracket])).dropWhile isNameChar =
        openBracket :: (inner ++ [closeBracket]) := by
      rw [List.dropWhile_append_of_pos named,
        List.dropWhile_cons_of_neg (by simp [openBracket_not_name])]
    simp [nestedParts?, taken, dropped, nonempty]

end InputScript.Script
