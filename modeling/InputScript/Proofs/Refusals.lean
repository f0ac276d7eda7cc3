/-
Module: InputScript.Proofs.Refusals
Purpose: Which scripts cannot be read.  No irregular line stands in the way of a program; reading is
  broken off only at a loop marker whose count has more digits than are converted, and at a step line
  with more steps inside each other than there is room for, and there it always is.
Main exports: IsOverlong, IsTooDeep, parseWithin_settles
-/
import InputScript.Proofs.Folding
import InputScript.Proofs.Outline
import InputScript.Proofs.RoundTrip

namespace InputScript.Script

open Text Number

/-! ### Markers with too long a count -/

/-- A loop marker whose argument is an optional sign and more than 4300 digits, with the refusal that
counts them. -/
def IsOverlong (line : List Char) (refusal : TooManyDigits) : Prop :=
  isMarkerLine line = true ∧ ∃ negative digits, IsDecimal (splitLine line).2 negative digits ∧
    4300 < digits.length ∧ refusal = ⟨digits.length⟩

/-! ### Arguments of markers -/

theorem foldChar_of_isAsciiDigit {c : Char} (digit : isAsciiDigit c = true) : foldChar c = [c] := by
  simp only [isAsciiDigit, Bool.and_eq_true, decide_eq_true_eq] at digit
  rw [foldChar, if_pos (by omega), if_neg]
  simp only [Bool.and_eq_true, decide_eq_true_eq]
  omega

variable {text digits : List Char}

/-- A decimal integer has no letters, so folding leaves it as it is. -/
theorem fold_of_isDecimal {negative : Bool} (decimal : IsDecimal text negative digits) :
    fold text = text := by
  apply fold_of_final
  have final : ∀ c ∈ digits, foldChar c = [c] := by
    intro c member
    exact foldChar_of_isAsciiDigit (decimal.row.2 c member)
  cases decimal with
  | bare row => exact final
  | plus row => exact List.forall_mem_cons.mpr ⟨by decide, final⟩
  | minus row => exact List.forall_mem_cons.mpr ⟨by decide, final⟩

/-- A decimal integer is no word without digits. -/
theorem fold_ne_of_isDecimal {word : List Char} {negative : Bool}
    (decimal : IsDecimal text negative digits) (noDigit : word.any isAsciiDigit = false) :
    fold text ≠ word := by
  obtain ⟨digit, member⟩ := List.exists_mem_of_ne_nil digits decimal.row.1
  have inside : digit ∈ text := by
    cases decimal with
    | bare row => exact member
    | plus row => exact List.mem_cons_of_mem _ member
    | minus row => exact List.mem_cons_of_mem _ member
  rw [fold_of_isDecimal decimal]
  rintro rfl
  exact List.any_eq_false.mp noDigit digit inside (decimal.row.2 digit member)

/-- The argument of a marker is refused exactly if it is a decimal integer with too many digits. -/
theorem readRepetition_eq_error {argument : List Char} {refusal : TooManyDigits}
    (trimmed : trim argument = argument) :
    readRepetition argument = .error refusal ↔
      ∃ negative digits, IsDecimal argument negative digits ∧ 4300 < digits.length ∧
        refusal = ⟨digits.length⟩ := by
  simp only [readRepetition, trimmed, word_eq_iff]
  constructor
  · intro refused
    split at refused
    · cases refused
    · split at refused
      · cases refused
      · split at refused
        · cases refused
        · next negative digits found =>
            have limited : limitedDecimal negative digits = .error refusal := by
              cases limited : limitedDecimal negative digits with
              | ok count =>
                  rw [limited] at refused
                  cases refused
              | error reason =>
                  rw [limited] at refused
                  cases refused
                  rfl
            exact ⟨negative, digits, signedDigits?_eq_some.mp found, limitedDecimal_error.mp limited⟩
  · rintro ⟨negative, digits, decimal, long⟩
    rw [if_neg (fold_ne_of_isDecimal decimal (by decide)),
      if_neg (fold_ne_of_isDecimal decimal (by decide)), signedDigits?_eq_some.mpr decimal]
    simp only [limitedDecimal_error.mpr long]
    rfl

/-! ### Steps inside each other -/

mutual

/-- How many steps of an argument stand inside each other. -/
def Argument.depth : Argument → Nat
  | .token _ => 0
  | .step _ arguments => Argument.depthAll arguments + 1

/-- How many steps of several arguments stand inside each other. -/
def Argument.depthAll : List Argument → Nat
  | [] => 0
  | argument :: rest => max argument.depth (Argument.depthAll rest)

end

theorem Argument.depthAll_le {arguments : List Argument} {bound : Nat} :
    Argument.depthAll arguments ≤ bound ↔ ∀ argument ∈ arguments, argument.depth ≤ bound := by
  induction arguments with
  | nil => simp [Argument.depthAll]
  | cons argument rest hypothesis =>
      rw [Argument.depthAll, Nat.max_le, hypothesis, List.forall_mem_cons]

theorem mem_nestedTexts {inner : List Char} :
    inner ∈ nestedTexts text ↔ isBalanced text = true ∧
      ∃ piece ∈ outerPieces text, ∃ name,
        nestedParts? piece = some (name, inner) ∧ isBalanced inner = true := by
  unfold nestedTexts
  split
  · next balanced =>
      simp only [List.mem_filterMap, balanced, true_and]
      constructor
      · rintro ⟨⟨name, _⟩, ⟨piece, member, parts⟩, kept⟩
        split at kept
        · next inside =>
            cases kept
            exact ⟨piece, member, name, parts, inside⟩
        · cases kept
      · rintro ⟨piece, member, name, parts, inside⟩
        exact ⟨(name, inner), ⟨piece, member, parts⟩, if_pos inside⟩
  · next unbalanced => simp [unbalanced]

theorem depth_toArgument_le {aliases : Aliases} {piece : List Char} {bound : Nat} :
    (toArgument aliases piece).depth ≤ bound ↔
      ∀ name inner, nestedParts? piece = some (name, inner) → isBalanced inner = true →
        Argument.depthAll (tokenize aliases inner) + 1 ≤ bound := by
  unfold toArgument
  split
  · next name inner parts =>
      split
      · next inside =>
          rw [Argument.depth]
          constructor
          · rintro bounded _ _ same _
            cases parts.symm.trans same
            exact bounded
          · exact fun bounded => bounded name inner parts inside
      · next outside =>
          refine iff_of_true (Nat.zero_le _) fun _ _ same inside => ?_
          cases parts.symm.trans same
          exact absurd inside outside
  · next plain =>
      refine iff_of_true (Nat.zero_le _) fun _ _ same _ => ?_
      rw [plain] at same
      cases same

/-- The depth of an argument text is one more than that of the texts inside its nested steps. -/
theorem depthAll_tokenize_le {aliases : Aliases} {bound : Nat} :
    Argument.depthAll (tokenize aliases text) ≤ bound ↔
      ∀ inner ∈ nestedTexts text, Argument.depthAll (tokenize aliases inner) + 1 ≤ bound := by
  rw [Argument.depthAll_le]
  simp only [mem_nestedTexts]
  cases balanced : isBalanced text with
  | true =>
      rw [tokenize_of_balanced balanced, List.forall_mem_map]
      constructor
      · rintro bounded inner ⟨-, piece, member, name, parts, inside⟩
        exact depth_toArgument_le.mp (bounded piece member) name inner parts inside
      · intro bounded piece member
        exact depth_toArgument_le.mpr fun name inner parts inside =>
          bounded inner ⟨rfl, piece, member, name, parts, inside⟩
  | false =>
      rw [tokenize_of_unbalanced balanced, List.forall_mem_map]
      exact iff_of_true (fun _ _ => Nat.zero_le _) (by simp)

variable {room : Nat}

/-- There is room for an argument text exactly if its arguments are no deeper than that. -/
theorem fitsWithin_iff (aliases : Aliases) :
    fitsWithin room text = true ↔ Argument.depthAll (tokenize aliases text) ≤ room := by
  rw [depthAll_tokenize_le]
  induction room generalizing text with
  | zero => simp [fitsWithin, List.eq_nil_iff_forall_not_mem]
  | succ room hypothesis =>
      rw [fitsWithin, List.all_eq_true]
      refine forall₂_congr fun inner member => ?_
      rw [hypothesis, Nat.add_le_add_iff_right, depthAll_tokenize_le]

/-- A step line with more steps inside each other than there is room for. -/
def IsTooDeep (room : Nat) (line : List Char) : Prop :=
  isStepLine line = true ∧ room < Argument.depthAll (stepOf [] line).arguments

/-- A line needs more room than there is exactly if it counts and is a step line that is too deep. -/
theorem lineFits_eq_false {raw : List Char} :
    lineFits room raw = false ↔ isSignificant (trim raw) = true ∧ IsTooDeep room (trim raw) := by
  unfold lineFits IsTooDeep
  cases counts : isSignificant (trim raw) with
  | false => simp [read_empty counts]
  | true =>
      rw [read_significant counts]
      cases role : isMarkerLine (trim raw) with
      | true => simp [isStepLine, role]
      | false =>
          have tooDeep : fitsWithin room (stepParts (trim raw)).2 = false ↔
              room < Argument.depthAll (stepOf [] (trim raw)).arguments := by
            rw [← Bool.not_eq_true, fitsWithin_iff [], Nat.not_le]
            rfl
          simp [isStepLine, role, tooDeep]

/-! ### Lines that stand in the way -/

/-- Whether a line is an obstacle to reading a script. -/
def IsObstacle (room : Nat) (line : List Char) : Obstacle → Prop
  | .digits refusal => IsOverlong line refusal
  | .depth => IsTooDeep room line

/-- The first offending line among some, and its offence. -/
inductive FirstOffence {Offence : Type} (offends : List Char → Offence → Prop) :
    List (List Char) → Offence → Prop where
  | here {line : List Char} {offence : Offence} (offending : offends line offence)
      (rest : List (List Char)) : FirstOffence offends (line :: rest) offence
  | later {line : List Char} {rest : List (List Char)} {offence : Offence}
      (passes : ∀ other, ¬ offends line other) (first : FirstOffence offends rest offence) :
      FirstOffence offends (line :: rest) offence

namespace FirstOffence

variable {Offence : Type} {offends : List Char → Offence → Prop} {texts rest : List (List Char)}

theorem exists_mem {offence : Offence} (first : FirstOffence offends texts offence) :
    ∃ line ∈ texts, offends line offence := by
  induction first with
  | here offending rest => exact ⟨_, List.mem_cons_self, offending⟩
  | later _ _ hypothesis =>
      obtain ⟨line, member, offending⟩ := hypothesis
      exact ⟨line, List.mem_cons_of_mem _ member, offending⟩

theorem append {offence : Offence} (passes : ∀ line ∈ texts, ∀ other, ¬ offends line other)
    (first : FirstOffence offends rest offence) : FirstOffence offends (texts ++ rest) offence := by
  induction texts with
  | nil => exact first
  | cons line others hypothesis =>
      rw [List.forall_mem_cons] at passes
      exact .later passes.1 (hypothesis passes.2)

/-- An overlong marker is the first obstacle if there is room for all lines up to the end of those
among which it is the first. -/
theorem isObstacle {room : Nat} {refusal : TooManyDigits}
    (first : FirstOffence IsOverlong texts refusal) (fits : ∀ line ∈ texts, ¬ IsTooDeep room line)
    (rest : List (List Char)) : FirstOffence (IsObstacle room) (texts ++ rest) (.digits refusal) := by
  induction first with
  | here overlong _ => exact .here (by exact overlong) _
  | later passes _ hypothesis =>
      rw [List.forall_mem_cons] at fits
      refine .later (fun obstacle offending => ?_) (hypothesis fits.2)
      cases obstacle with
      | digits other => exact passes other offending
      | depth => exact fits.1 offending

end FirstOffence

/-! ### Scripts that cannot be read -/

/-- What the reading of lines comes to: it succeeds if no marker among them is overlong, and ends at the
first one that is. -/
inductive Settles (texts : List (List Char)) : Except ParseFailure Draft → Prop where
  | read (passes : ∀ line ∈ texts, ∀ refusal, ¬ IsOverlong line refusal) (draft : Draft) :
      Settles texts (.ok draft)
  | refused {failure : ParseFailure} (first : FirstOffence IsOverlong texts failure.refusal) :
      Settles texts (.error failure)

theorem Settles.cons {line : List Char} {rest : List (List Char)} {result : Except ParseFailure Draft}
    (passes : ∀ refusal, ¬ IsOverlong line refusal) (settles : Settles rest result) :
    Settles (line :: rest) result := by
  cases settles with
  | read others draft => exact .read (List.forall_mem_cons.mpr ⟨passes, others⟩) draft
  | refused first => exact .refused (.later passes first)

theorem readLines_settles (aliases : Aliases) (draft : Draft) (number : Nat)
    (texts : List (List Char)) :
    Settles (significant texts) (readLines aliases draft number texts) := by
  induction texts generalizing draft number with
  | nil => exact .read (List.forall_mem_nil _) draft
  | cons raw rest hypothesis =>
      rw [readLines]
      cases counts : isSignificant (trim raw) with
      | false =>
          rw [read_empty counts, significant_cons_of_neg counts]
          exact hypothesis _ _
      | true =>
          rw [read_significant counts, significant_cons_of_pos counts]
          cases role : isMarkerLine (trim raw) with
          | false =>
              have passes : ∀ refusal, ¬ IsOverlong (trim raw) refusal := by
                intro refusal overlong
                rw [overlong.1] at role
                cases role
              exact (hypothesis _ _).cons passes
          | true =>
              have trimmed : trim (splitLine (trim raw)).2 = (splitLine (trim raw)).2 := trim_trim _
              simp only [if_true]
              cases readEq : readRepetition (splitLine (trim raw)).2 with
              | error refusal => exact .refused (.here ⟨role, (readRepetition_eq_error trimmed).mp readEq⟩ _)
              | ok repetition =>
                  refine (hypothesis _ _).cons ?_
                  intro refusal overlong
                  have failed := (readRepetition_eq_error trimmed).mpr overlong.2
                  rw [readEq] at failed
                  cases failed

theorem not_isTooDeep_of_mem {texts : List (List Char)}
    (fits : ∀ raw ∈ texts, lineFits room raw = true) :
    ∀ line ∈ significant texts, ¬ IsTooDeep room line := by
  intro line member tooDeep
  obtain ⟨inside, counts⟩ := List.mem_filter.mp member
  obtain ⟨raw, rawMember, rfl⟩ := List.mem_map.mp inside
  have lacking := lineFits_eq_false.mpr ⟨counts, tooDeep⟩
  rw [fits raw rawMember] at lacking
  cases lacking

/-- With room for all lines a script is read as if the room were unlimited. -/
theorem parseWithin_of_fits {text : String} (aliases : Aliases)
    (fits : ∀ line ∈ significantLines text, ¬ IsTooDeep room line) :
    parseWithin room text aliases = (parse text aliases).mapError .ofParse := by
  have all : ∀ raw ∈ lines text.toList, lineFits room raw = true := by
    intro raw member
    by_contra lacking
    obtain ⟨counts, tooDeep⟩ := lineFits_eq_false.mp (Bool.eq_false_iff.mpr lacking)
    exact fits (trim raw) (List.mem_filter.mpr ⟨List.mem_map_of_mem member, counts⟩) tooDeep
  have whole : (lines text.toList).takeWhile (lineFits room) = lines text.toList :=
    List.takeWhile_eq_self_iff.mpr all
  have nothing : (lines text.toList).dropWhile (lineFits room) = [] :=
    List.dropWhile_eq_nil_iff.mpr all
  rw [parseWithin, parse, whole, nothing]
  cases readLines aliases.folded .start 0 (lines text.toList) <;> rfl

/-- What reading with limited room comes to: it succeeds if no line stands in the way, and ends at the
first one that does. -/
inductive SettlesWithin (room : Nat) (texts : List (List Char)) : Except ReadFailure Program → Prop where
  | read (clear : ∀ line ∈ texts, ∀ obstacle, ¬ IsObstacle room line obstacle) (program : Program) :
      SettlesWithin room texts (.ok program)
  | refused {failure : ReadFailure} (first : FirstOffence (IsObstacle room) texts failure.obstacle) :
      SettlesWithin room texts (.error failure)

theorem parseWithin_settlesWithin (room : Nat) (text : String) (aliases : Aliases) :
    SettlesWithin room (significantLines text) (parseWithin room text aliases) := by
  have split : significantLines text =
      significant ((lines text.toList).takeWhile (lineFits room)) ++
        significant ((lines text.toList).dropWhile (lineFits room)) := by
    unfold significant
    rw [← List.filter_append, ← List.map_append, List.takeWhile_append_dropWhile]
    rfl
  have fits : ∀ line ∈ significant ((lines text.toList).takeWhile (lineFits room)),
      ¬ IsTooDeep room line :=
    not_isTooDeep_of_mem fun raw member => List.all_eq_true.mp List.all_takeWhile raw member
  have settles := readLines_settles aliases.folded .start 0
    ((lines text.toList).takeWhile (lineFits room))
  rw [split, parseWithin]
  revert settles
  cases readLines aliases.folded .start 0 ((lines text.toList).takeWhile (lineFits room)) with
  | error failure =>
      rintro ⟨⟩
      next first => exact .refused (first.isObstacle fits _)
  | ok draft =>
      intro settles
      have clear : ∀ line ∈ significant ((lines text.toList).takeWhile (lineFits room)),
          ∀ obstacle, ¬ IsObstacle room line obstacle := by
        cases settles with
        | read passes _ =>
            intro line member obstacle offending
            cases obstacle with
            | digits refusal => exact passes line member refusal offending
            | depth => exact fits line member offending
      have lacking := List.head?_dropWhile_not (lineFits room) (lines text.toList)
      revert lacking
      cases (lines text.toList).dropWhile (lineFits room) with
      | nil =>
          intro _
          refine .read ?_ draft.finish
          rw [show significant [] = [] from rfl, List.append_nil]
          exact clear
      | cons raw others =>
          intro lacking
          obtain ⟨counts, tooDeep⟩ := lineFits_eq_false.mp (by simpa using lacking)
          rw [significant_cons_of_pos counts]
          exact .refused (.append clear (.here (by exact tooDeep) _))

/-- With room for so many steps inside each other, a script is read as a program unless a line stands
in the way: a loop marker that has an optional sign and more than 4300 digits for its argument, or a
step line with more steps inside each other.  The first such line decides how reading fails.  The
program is the one that is read with unlimited room. -/
theorem parseWithin_settles (room : Nat) (text : String) (aliases : Aliases) :
    ((∀ line ∈ significantLines text, ∀ obstacle, ¬ IsObstacle room line obstacle) →
      ∃ program, parseWithin room text aliases = .ok program ∧ parse text aliases = .ok program) ∧
    ((∃ line ∈ significantLines text, ∃ obstacle, IsObstacle room line obstacle) →
      ∃ failure, parseWithin room text aliases = .error failure ∧
        FirstOffence (IsObstacle room) (significantLines text) failure.obstacle ∧
        (∀ refusal, failure.obstacle = .digits refusal →
          failure.obstacle.fault.label = "ValueError") ∧
        (failure.obstacle = .depth → failure.obstacle.fault.label = "RecursionError")) := by
  have settles := parseWithin_settlesWithin room text aliases
  constructor
  · intro clear
    have fits : ∀ line ∈ significantLines text, ¬ IsTooDeep room line :=
      fun line member => clear line member .depth
    have same := parseWithin_of_fits aliases fits
    cases parsed : parse text aliases with
    | ok program =>
        rw [parsed] at same
        exact ⟨program, same, rfl⟩
    | error failure =>
        rw [parsed] at same
        rw [same] at settles
        cases settles with
        | refused first =>
            obtain ⟨line, member, offending⟩ := first.exists_mem
            exact absurd offending (clear line member _)
  · rintro ⟨line, member, obstacle, offending⟩
    revert settles
    cases parseWithin room text aliases with
    | ok program =>
        rintro ⟨clear, -⟩
        exact absurd offending (clear line member obstacle)
    | error failure =>
        rintro ⟨⟩
        next first =>
          refine ⟨failure, rfl, first, fun refusal digits => ?_, fun depth => ?_⟩
          · rw [digits]
            rfl
          · rw [depth]
            rfl

/-- Brackets that do not pair up, a line without a name, and a marker without a count. -/
def malformedScript : String := "‹\n=\nWhile=‹\nA‹‹›"

/-- A marker with a negative count. -/
def countingLine (digits : List Char) : List Char :=
  "wHiLe=-".toList ++ digits

/-- A marker with a negative count after a line that is irregular only. -/
def countingScript (digits : List Char) : String :=
  String.ofList ("‹".toList ++ '\n' :: countingLine digits)

theorem clear_malformedScript :
    ∀ line ∈ significantLines malformedScript, ∀ obstacle, ¬ IsObstacle 0 line obstacle := by
  have undecimal : (significantLines malformedScript).all
      (fun line => (signedDigits? (splitLine line).2).isNone) = true := by decide
  have shallow : (lines malformedScript.toList).all (lineFits 0) = true := by decide
  intro line member obstacle offending
  cases obstacle with
  | digits refusal =>
      obtain ⟨-, negative, digits, decimal, -⟩ := offending
      have none := List.all_eq_true.mp undecimal line member
      rw [signedDigits?_eq_some.mpr decimal] at none
      cases none
  | depth => exact not_isTooDeep_of_mem (List.all_eq_true.mp shallow) line member offending

theorem isBlank_countingLine (row : IsDigitRow digits) :
    ∀ c ∈ countingLine digits, isBlank c = false := by
  intro c member
  rcases List.mem_append.mp member with mark | digit
  · have marks : "wHiLe=-".toList.all (fun c => !isBlank c) = true := by decide
    simpa using List.all_eq_true.mp marks c mark
  · exact isBlank_of_isAsciiDigit (row.2 c digit)

theorem isOverlong_countingLine (row : IsDigitRow digits) (long : 4300 < digits.length) :
    IsOverlong (countingLine digits) ⟨digits.length⟩ := by
  have decimal := IsDecimal.minus row
  have argument : (splitLine (countingLine digits)).2 = '-' :: digits :=
    trim_solid decimal.isBlank_eq_false
  refine ⟨rfl, true, digits, ?_, long, rfl⟩
  rw [argument]
  exact decimal

theorem mem_significantLines_countingScript (row : IsDigitRow digits) :
    countingLine digits ∈ significantLines (countingScript digits) := by
  have solid := isBlank_countingLine row
  have unbroken : ∀ c ∈ countingLine digits, isLineBreak c = false := by
    intro c member
    exact isLineBreak_of_not_isBlank (solid c member)
  have first : ∀ c ∈ "‹".toList, isLineBreak c = false := by
    intro c member
    rw [List.mem_singleton.mp member]
    decide
  have twoLines : lines (countingScript digits).toList = ["‹".toList, countingLine digits] := by
    rw [countingScript, String.toList_ofList, lines_append_lineFeed first,
      lines_last unbroken (List.cons_ne_nil _ _)]
  have trimmed : countingLine digits ∈ (lines (countingScript digits).toList).map trim := by
    rw [twoLines, List.map_cons, List.map_singleton, trim_solid solid]
    exact List.mem_cons_of_mem _ List.mem_cons_self
  exact List.mem_filter.mpr ⟨trimmed, rfl⟩

/-- A step with one step inside of another. -/
def nestedScript : String := "A=B‹C‹››"

theorem parseWithin_settles_samples :
    (∃ program, parseWithin 0 malformedScript = .ok program) ∧
      (∃ failure, parseWithin 0 (countingScript (List.replicate 4301 '1')) = .error failure ∧
        FirstOffence (IsObstacle 0) (significantLines (countingScript (List.replicate 4301 '1')))
          failure.obstacle) ∧
      ∃ failure, parseWithin 1 nestedScript = .error failure ∧
        FirstOffence (IsObstacle 1) (significantLines nestedScript) failure.obstacle := by
  have row := isDigitRow_replicate 4300
  have overlong := isOverlong_countingLine row (by rw [List.length_replicate]; decide)
  refine ⟨?_, ?_, ?_⟩
  · obtain ⟨program, read, -⟩ := (parseWithin_settles 0 malformedScript []).1 clear_malformedScript
    exact ⟨program, read⟩
  · obtain ⟨failure, failed, first, -⟩ :=
      (parseWithin_settles 0 (countingScript (List.replicate 4301 '1')) []).2
        ⟨_, mem_significantLines_countingScript row, .digits _, overlong⟩
    exact ⟨failure, failed, first⟩
  · obtain ⟨-, tooDeep⟩ := lineFits_eq_false.mp
      (show lineFits 1 nestedScript.toList = false by decide)
    obtain ⟨failure, failed, first, -⟩ := (parseWithin_settles 1 nestedScript []).2
      ⟨trim nestedScript.toList, by decide, .depth, tooDeep⟩
    exact ⟨failure, failed, first⟩

/-! ### Texts that there is no room for -/

/-- So many steps inside each other. -/
def nest : Nat → Argument
  | 0 => .step "B" []
  | depth + 1 => .step "B" [nest depth]

theorem depth_nest (depth : Nat) : (nest depth).depth = depth + 1 := by
  induction depth with
  | zero => rfl
  | succ depth hypothesis =>
      rw [nest, Argument.depth, Argument.depthAll, hypothesis]
      rfl

theorem isFaithful_nest (depth : Nat) : (nest depth).IsFaithful := by
  induction depth with
  | zero => exact .step (by decide) (by simp)
  | succ depth hypothesis => exact .step (by decide) (by simpa using hypothesis)

theorem lines_render {step : Step} (faithful : step.IsFaithful) :
    lines step.render.toList = [step.render.toList] := by
  obtain ⟨first, rest, line, -⟩ := faithful.render_eq_cons
  exact lines_last faithful.unbroken_render (line ▸ List.cons_ne_nil first rest)

theorem lineFits_render {step : Step} (faithful : step.IsFaithful) (room : Nat) :
    lineFits room step.render.toList = true ↔ Argument.depthAll step.arguments ≤ room := by
  rw [lineFits, faithful.read_render]
  dsimp only
  rw [faithful.splitLine_render, faithful.stepParts_render,
    List.isEmpty_eq_false_iff.mpr faithful.1.nonempty, Bool.false_or, fitsWithin_iff [],
    tokenize_textsOf faithful.2]

/-- A step around many others. -/
def deepStep (depth : Nat) : Step := ⟨"A", [nest depth]⟩

/-- However much room there is, the text of some step is not read for lack of it, though the text says
nothing else than this step. -/
theorem parseWithin_deepStep (room : Nat) :
    parse (deepStep room).render = .ok ⟨[⟨.times 1, [deepStep room]⟩], []⟩ ∧
      ∃ failure, parseWithin room (deepStep room).render = .error failure ∧
        failure.obstacle = .depth := by
  let step := deepStep room
  have named : IsOuterName "A".toList := by decide
  have faithful : step.IsFaithful := ⟨named, by simpa [step, deepStep] using isFaithful_nest room⟩
  have lacking : lineFits room step.render.toList = false := by
    rw [← Bool.not_eq_true, lineFits_render faithful, Nat.not_le]
    simp [step, deepStep, Argument.depthAll, depth_nest]
  refine ⟨?_, ⟨.depth, Draft.start.anomaliesAt 0 step.render.toList⟩, ?_, rfl⟩
  · have read := readLines_render (List.forall_mem_singleton.mpr faithful) [] 0
    rw [parse, lines_render faithful]
    exact (congrArg (Except.map Draft.finish) read).trans
      (congrArg Except.ok (Draft.finish_ofSteps [step]))
  · rw [parseWithin, lines_render faithful, List.takeWhile_cons_of_neg (by simp [lacking]),
      List.dropWhile_cons_of_neg (by simp [lacking])]
    rfl

/-- In the usual room there is a text that is not read, though none of its lines has too many digits. -/
theorem parseWithin_lacks_room :
    parse (deepStep usualRoom).render = .ok ⟨[⟨.times 1, [deepStep usualRoom]⟩], []⟩ ∧
      ∃ failure, parseWithin usualRoom (deepStep usualRoom).render = .error failure ∧
        failure.obstacle = .depth :=
  parseWithin_deepStep usualRoom

end InputScript.Script
