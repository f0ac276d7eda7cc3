/-
Module: InputScript.Proofs.Shorthand
Purpose: Lines without a separator.  `Outer ‹Inner a b›` is read as `Outer=Inner‹a b›` whatever the
  arguments are.  `Outer‹Inner a b›` is read so unless there are blanks before a bracket among the
  arguments: only one gap of a line is closed, and where the outer bracket leaves none, it is the first
  one among the arguments.
Main exports: HasGap, IsFirstGap, parse_shorthand
-/
import InputScript.Proofs.Joining
import InputScript.Proofs.Renaming
import InputScript.Proofs.Tokens

namespace InputScript.Script

open Text

/-! ### Gaps -/

/-- A blank stands directly before an opening bracket. -/
def HasGap (text : List Char) : Prop :=
  ∃ before blank after, isBlank blank = true ∧ text = before ++ blank :: openBracket :: after

/-- All blanks before the first opening bracket that has blanks before it. -/
structure IsFirstGap (text before blanks after : List Char) : Prop where
  whole : text = before ++ (blanks ++ openBracket :: after)
  nonempty : blanks ≠ []
  blank : ∀ c ∈ blanks, isBlank c = true
  first : ¬ HasGap before
  maximal : ∀ c, before.getLast? = some c → isBlank c = false

theorem openBracket_not_blank : isBlank openBracket = false := by decide

variable {text : List Char}

theorem HasGap.cons (gap : HasGap text) (c : Char) : HasGap (c :: text) := by
  obtain ⟨before, blank, after, isBlank, rfl⟩ := gap
  exact ⟨c :: before, blank, after, isBlank, rfl⟩

variable {c : Char} {rest : List Char}

theorem hasGap_of_head? (blank : isBlank c = true)
    (bracket : (rest.dropWhile isBlank).head? = some openBracket) : HasGap (c :: rest) := by
  induction rest generalizing c with
  | nil => cases bracket
  | cons d rest hypothesis =>
      cases further : isBlank d with
      | true =>
          rw [List.dropWhile_cons_of_pos further] at bracket
          exact (hypothesis further bracket).cons c
      | false =>
          rw [List.dropWhile_cons_of_neg (by simp [further])] at bracket
          cases bracket
          exact ⟨[], c, rest, blank, rfl⟩

theorem closeGap_cons
    (apart : isBlank c = true → (rest.dropWhile isBlank).head? ≠ some openBracket) :
    closeGap (c :: rest) = c :: closeGap rest := by
  rw [closeGap, if_neg]
  rw [Bool.and_eq_true, beq_iff_eq]
  rintro ⟨blank, bracket⟩
  exact apart blank bracket

theorem closeGap_of_not_hasGap (gapless : ¬ HasGap text) :
    closeGap text = text := by
  induction text with
  | nil => rfl
  | cons c rest hypothesis =>
      rw [closeGap_cons fun blank bracket => gapless (hasGap_of_head? blank bracket),
        hypothesis fun gap => gapless (gap.cons c)]

variable {blanks : List Char}

theorem dropWhile_blanks (blank : ∀ c ∈ blanks, isBlank c = true) (after : List Char) :
    (blanks ++ openBracket :: after).dropWhile isBlank = openBracket :: after := by
  rw [List.dropWhile_append_of_pos blank,
    List.dropWhile_cons_of_neg (by simp [openBracket_not_blank])]

/-- Where a text does not end in blanks, there is more after a blank. -/
theorem exists_last (blank : isBlank c = true)
    (maximal : ∀ last, (c :: rest).getLast? = some last → isBlank last = false) :
    ∃ last, rest.getLast? = some last ∧ isBlank last = false := by
  cases lastEq : rest.getLast? with
  | some last =>
      refine ⟨last, rfl, maximal last ?_⟩
      rw [List.getLast?_cons, lastEq]
      rfl
  | none =>
      rw [List.getLast?_eq_none_iff] at lastEq
      subst lastEq
      rw [maximal c rfl] at blank
      cases blank

variable {before after : List Char}

/-- The first gap is the one that is closed. -/
theorem IsFirstGap.closeGap_eq (gap : IsFirstGap text before blanks after) :
    closeGap text = before ++ openBracket :: after := by
  obtain ⟨rfl, nonempty, blank, first, maximal⟩ := gap
  induction before with
  | nil =>
      obtain ⟨c, more, rfl⟩ := List.exists_cons_of_ne_nil nonempty
      rw [List.forall_mem_cons] at blank
      rw [List.nil_append, List.nil_append, List.cons_append, closeGap, dropWhile_blanks blank.2]
      simp [blank.1]
  | cons c before hypothesis =>
      rw [List.cons_append, closeGap_cons, hypothesis, List.cons_append]
      · exact fun earlier => first (earlier.cons c)
      · intro last found
        apply maximal last
        rw [List.getLast?_cons, found]
        rfl
      · -- Before the gap there is a character that is no blank, and it is no bracket.
        intro blankHere bracket
        obtain ⟨last, lastEq, solid⟩ := exists_last blankHere maximal
        have remains : before.dropWhile isBlank ≠ [] := by
          intro nothing
          rw [List.dropWhile_eq_nil_iff] at nothing
          rw [nothing last (List.mem_of_getLast? lastEq)] at solid
          cases solid
        apply first
        apply hasGap_of_head? blankHere
        rw [← bracket, List.dropWhile_append, if_neg (by simpa using remains),
          List.head?_append_of_ne_nil _ remains]

theorem not_hasGap_nil : ¬ HasGap [] := by
  rintro ⟨before, _, _, _, impossible⟩
  simp at impossible

theorem isFirstGap_of_head? (blank : isBlank c = true)
    (bracket : (rest.dropWhile isBlank).head? = some openBracket) :
    ∃ after, IsFirstGap (c :: rest) [] (c :: rest.takeWhile isBlank) after := by
  obtain ⟨after, restEq⟩ := List.head?_eq_some_iff.mp bracket
  refine ⟨after, ?_, by simp, ?_, not_hasGap_nil, by simp⟩
  · rw [List.nil_append, List.cons_append, ← restEq, List.takeWhile_append_dropWhile]
  · rw [List.forall_mem_cons]
    exact ⟨blank, fun other member => List.mem_takeWhile_imp member⟩

/-- A character that does not belong to a gap leaves the first gap where it is. -/
theorem IsFirstGap.cons (gap : IsFirstGap rest before blanks after)
    (apart : isBlank c = true → (rest.dropWhile isBlank).head? ≠ some openBracket) :
    IsFirstGap (c :: rest) (c :: before) blanks after := by
  obtain ⟨rfl, nonempty, blank, first, maximal⟩ := gap
  refine ⟨rfl, nonempty, blank, ?_, ?_⟩
  · rintro ⟨earlier, other, more, otherBlank, whole⟩
    cases earlier with
    | nil =>
        cases whole
        refine apart otherBlank ?_
        rw [List.cons_append, List.dropWhile_cons_of_neg (by simp [openBracket_not_blank])]
        rfl
    | cons _ earlier =>
        cases whole
        exact first ⟨earlier, other, more, otherBlank, rfl⟩
  · intro last found
    rw [List.getLast?_cons] at found
    cases lastEq : before.getLast? with
    | some other =>
        rw [lastEq] at found
        cases found
        exact maximal other lastEq
    | none =>
        rw [List.getLast?_eq_none_iff] at lastEq
        subst lastEq
        cases found
        rw [← Bool.not_eq_true]
        intro blankHere
        refine apart blankHere ?_
        rw [List.nil_append, dropWhile_blanks blank]
        rfl

theorem exists_isFirstGap (gap : HasGap text) :
    ∃ before blanks after, IsFirstGap text before blanks after := by
  induction text with
  | nil => exact absurd gap not_hasGap_nil
  | cons c rest hypothesis =>
      by_cases here : isBlank c = true ∧ (rest.dropWhile isBlank).head? = some openBracket
      · obtain ⟨after, first⟩ := isFirstGap_of_head? here.1 here.2
        exact ⟨_, _, after, first⟩
      · have later : HasGap rest := by
          obtain ⟨before, blank, after, isBlank, whole⟩ := gap
          cases before with
          | nil =>
              cases whole
              refine absurd ⟨isBlank, ?_⟩ here
              rw [List.dropWhile_cons_of_neg (by simp [openBracket_not_blank])]
              rfl
          | cons _ before =>
              cases whole
              exact ⟨before, blank, after, isBlank, rfl⟩
        obtain ⟨before, blanks, after, first⟩ := hypothesis later
        exact ⟨_, _, _, first.cons (not_and.mp here)⟩

instance (text : List Char) : Decidable (HasGap text) :=
  decidable_of_iff (closeGap text ≠ text) <| by
    constructor
    · intro changed
      by_contra gapless
      exact changed (closeGap_of_not_hasGap gapless)
    · intro gap same
      obtain ⟨before, blanks, after, first⟩ := exists_isFirstGap gap
      have shorter := congrArg List.length (first.closeGap_eq.symm.trans (same.trans first.whole))
      have some := List.length_pos_of_ne_nil first.nonempty
      simp only [List.length_append, List.length_cons] at shorter
      omega

theorem IsFirstGap.append (gap : IsFirstGap text before blanks after) (rest : List Char) :
    IsFirstGap (text ++ rest) before blanks (after ++ rest) := by
  obtain ⟨rfl, nonempty, blank, first, maximal⟩ := gap
  exact ⟨by simp, nonempty, blank, first, maximal⟩

theorem IsFirstGap.subset (gap : IsFirstGap text before blanks after) :
    before ++ openBracket :: after ⊆ text := by
  rw [gap.whole]
  exact ((List.sublist_append_right _ _).append_left _).subset

theorem not_hasGap_concat (gapless : ¬ HasGap text) (notOpen : c ≠ openBracket) :
    ¬ HasGap (text ++ [c]) := by
  rintro ⟨before, blank, after, isBlank, whole⟩
  rcases List.eq_nil_or_concat after with rfl | ⟨after, last, rfl⟩
  · have last := congrArg List.getLast? whole
    simp [List.getLast?_append, notOpen] at last
  · apply gapless
    refine ⟨before, blank, after, isBlank, ?_⟩
    have same : text ++ [c] = (before ++ blank :: openBracket :: after) ++ [last] := by
      rw [whole]
      simp
    exact (List.append_inj_left' same rfl)

/-! ### Separators before and after a piece -/

section Separators

variable {blanks : List Char}

theorem outerPieces_separator {c : Char} (separates : separatesArguments c = true)
    (rest : List Char) : outerPieces (c :: rest) = outerPieces rest := by
  rw [outerPieces, splitOutside_separator separates, List.filter_cons_of_neg (by simp), outerPieces]

theorem separatesArguments_of_isBlank {c : Char} (blank : isBlank c = true) :
    separatesArguments c = true := by
  rw [separatesArguments, blank, Bool.true_or]

theorem outerPieces_blanks (blank : ∀ c ∈ blanks, isBlank c = true) (rest : List Char) :
    outerPieces (blanks ++ rest) = outerPieces rest := by
  induction blanks with
  | nil => rfl
  | cons c blanks hypothesis =>
      rw [List.forall_mem_cons] at blank
      rw [List.cons_append, outerPieces_separator (separatesArguments_of_isBlank blank.1),
        hypothesis blank.2]

theorem residue_blanks (blank : ∀ c ∈ blanks, isBlank c = true) : residue blanks = [] := by
  rw [residue, List.filter_eq_nil_iff]
  intro c member
  simp [blank c member]

/-- Whether brackets pair up does not depend on blanks. -/
theorem isBalanced_without_blanks (blank : ∀ c ∈ blanks, isBlank c = true)
    (before after : List Char) :
    isBalanced (before ++ (blanks ++ after)) = isBalanced (before ++ after) := by
  rw [← isBalanced_residue, residue_append, residue_append, residue_blanks blank, List.nil_append,
    ← residue_append, isBalanced_residue]

end Separators

section Trimmed

variable {text : List Char}

theorem blank_of_mem_takeWhile (text : List Char) : ∀ c ∈ text.takeWhile isBlank, isBlank c = true :=
  fun _ member => List.mem_takeWhile_imp member

theorem balanced_trimStart (balanced : Balanced text) : Balanced (trimStart text) := by
  have same := isBalanced_without_blanks (blank_of_mem_takeWhile text) [] (trimStart text)
  rw [List.nil_append, List.nil_append, trimStart, List.takeWhile_append_dropWhile,
    isBalanced_iff.mpr balanced] at same
  exact isBalanced_iff.mp same.symm

/-- Blanks at the beginning of an argument text do not matter. -/
theorem tokenize_trimStart (aliases : Aliases) (balanced : Balanced text) :
    tokenize aliases (trimStart text) = tokenize aliases text := by
  have same := outerPieces_blanks (blank_of_mem_takeWhile text) (trimStart text)
  rw [trimStart, List.takeWhile_append_dropWhile] at same
  rw [tokenize_of_balanced (isBalanced_iff.mpr (balanced_trimStart balanced)),
    tokenize_of_balanced (isBalanced_iff.mpr balanced), trimStart, same]

end Trimmed

/-! ### Counting pieces -/

section Count

variable {piece rest blanks : List Char}

theorem isEmpty_head?_splitOutside (c : Char) (rest : List Char) :
    (splitOutside 0 (c :: rest)).head?.all List.isEmpty = separatesArguments c := by
  cases separates : separatesArguments c with
  | true =>
      rw [splitOutside_separator separates]
      rfl
  | false =>
      rw [splitOutside_joins (by simp [separates])]
      cases splitOutside (depthAfter 0 c) rest <;> rfl

theorem length_filter_prepend (nonempty : piece ≠ []) (pieces : List (List Char)) :
    ((prepend piece pieces).filter (!·.isEmpty)).length =
      (pieces.filter (!·.isEmpty)).length + if pieces.head?.all List.isEmpty then 1 else 0 := by
  cases pieces with
  | nil => simp [prepend, nonempty]
  | cons first others => cases first <;> simp [nonempty]

/-- A piece counts by itself if there is a separator after it. -/
theorem length_outerPieces_solid (solid : Solid piece) (nonempty : piece ≠ []) (c : Char)
    (rest : List Char) :
    (outerPieces (piece ++ c :: rest)).length =
      (outerPieces (c :: rest)).length + if separatesArguments c then 1 else 0 := by
  rw [outerPieces, splitOutside_solid solid, length_filter_prepend nonempty,
    isEmpty_head?_splitOutside, outerPieces]

theorem length_outerPieces_gap_solid (solid : Solid piece) (nonempty : piece ≠ [])
    (someBlanks : blanks ≠ []) (blank : ∀ c ∈ blanks, isBlank c = true) {after : List Char}
    (later : rest ≠ [] → (outerPieces (rest ++ (blanks ++ openBracket :: after))).length =
      (outerPieces (rest ++ openBracket :: after)).length + 1) :
    (outerPieces (piece ++ (rest ++ (blanks ++ openBracket :: after)))).length =
      (outerPieces (piece ++ (rest ++ openBracket :: after))).length + 1 := by
  cases rest with
  | nil =>
      obtain ⟨c, more, rfl⟩ := List.exists_cons_of_ne_nil someBlanks
      rw [List.forall_mem_cons] at blank
      have separates := separatesArguments_of_isBlank blank.1
      rw [List.nil_append, List.nil_append, List.cons_append,
        length_outerPieces_solid solid nonempty, length_outerPieces_solid solid nonempty,
        outerPieces_separator separates, outerPieces_blanks blank.2]
      simp [separates, bracket_joins]
  | cons c rest =>
      have longer := later (by simp)
      simp only [List.cons_append] at longer ⊢
      rw [length_outerPieces_solid solid nonempty, length_outerPieces_solid solid nonempty, longer]
      omega

/-- Without the blanks between them a piece and a bracket are one piece. -/
theorem length_outerPieces_gap {early : List Char} (balanced : Balanced early) {last : Char}
    (lastEq : early.getLast? = some last) (joins : separatesArguments last = false)
    (someBlanks : blanks ≠ []) (blank : ∀ c ∈ blanks, isBlank c = true) (after : List Char) :
    (outerPieces (early ++ (blanks ++ openBracket :: after))).length =
      (outerPieces (early ++ openBracket :: after)).length + 1 := by
  induction balanced with
  | nil => cases lastEq
  | @plain c rest notOpen notClose _ hypothesis =>
      have lastOfRest (nonempty : rest ≠ []) : rest.getLast? = some last := by
        rwa [← List.singleton_append, List.getLast?_append_of_ne_nil _ nonempty] at lastEq
      cases separates : separatesArguments c with
      | true =>
          have nonempty : rest ≠ [] := by
            rintro rfl
            rw [List.getLast?_singleton, Option.some.injEq] at lastEq
            rw [← lastEq, separates] at joins
            cases joins
          rw [List.cons_append, List.cons_append, outerPieces_separator separates,
            outerPieces_separator separates, hypothesis (lastOfRest nonempty)]
      | false =>
          have solid : Solid [c] := .plain notOpen notClose separates .nil
          exact length_outerPieces_gap_solid solid (by simp) someBlanks blank
            fun nonempty => hypothesis (lastOfRest nonempty)
  | @group inner rest inside _ _ hypothesis =>
      have solid : Solid (openBracket :: (inner ++ [closeBracket])) := .group inside .nil
      have whole (more : List Char) : openBracket :: (inner ++ closeBracket :: rest) ++ more =
          openBracket :: (inner ++ [closeBracket]) ++ (rest ++ more) := by simp
      rw [whole, whole]
      apply length_outerPieces_gap_solid solid (by simp) someBlanks blank
      intro nonempty
      apply hypothesis
      have last := whole []
      rw [List.append_nil, List.append_nil] at last
      rwa [last, List.getLast?_append_of_ne_nil _ nonempty] at lastEq

end Count

/-! ### Step lines -/

/-- A step line that stands as it is read: without blanks at its ends and on a line of its own. -/
structure IsTidyLine (line : List Char) : Prop where
  tight : IsTight line
  unbroken : ∀ c ∈ line, isLineBreak c = false
  counts : isSignificant line = true
  plain : isMarkerLine line = false

/-- A script of one step line. -/
theorem IsTidyLine.parse_eq {line : List Char} (tidy : IsTidyLine line) (aliases : Aliases) :
    parse (String.ofList line) aliases =
      .ok (Draft.start.addStep 0 (readStep aliases.folded line)).finish := by
  have nonempty : line ≠ [] := by
    rintro rfl
    cases tidy.counts
  have read : Line.read line = .step line := by
    have trimmed := tidy.tight.trim_eq
    rw [read_significant (by rw [trimmed, tidy.counts]), trimmed, tidy.plain, if_neg (by simp)]
  rw [parse, String.toList_ofList, lines_last tidy.unbroken nonempty, readLines, read]
  rfl

/-- A script of one step line that is read without any irregularity. -/
theorem IsTidyLine.parse_of_readStep {line : List Char} (tidy : IsTidyLine line) {aliases : Aliases}
    {step : Step} (read : readStep aliases.folded line = ⟨some step, none⟩) :
    parse (String.ofList line) aliases = .ok ⟨[⟨.once, [step]⟩], []⟩ := by
  have added : Draft.start.addStep 0 ⟨some step, none⟩ = Draft.ofSteps [step] :=
    Draft.addStep_ofSteps [] 0 step
  rw [tidy.parse_eq, read, added, Draft.finish_ofSteps]

/-- A step line without a separator. -/
structure IsUndividedLine (line : List Char) : Prop extends IsTidyLine line where
  undivided : separator ∉ line

section Undivided

variable {line other : List Char}

theorem IsUndividedLine.readStep_eq (whole : IsUndividedLine line) (aliases : Aliases) :
    readStep aliases line =
      ⟨some ⟨aliases.expand (String.ofList (readBracketed line).1),
          tokenize aliases (readBracketed line).2⟩,
        if !isBalanced (readBracketed line).2 then
          some (.unbalanced (String.ofList (readBracketed line).2))
        else if !isBalanced (readBracketed line).1 then
          some (.unbalanced (String.ofList (readBracketed line).1))
        else if (readBracketed line).1.any isBlank then
          some (.blankInName (String.ofList (readBracketed line).1))
        else none⟩ := by
  have noSeparator : line.contains separator = false := by simpa using whole.undivided
  have nonempty : line ≠ [] := by
    rintro rfl
    cases whole.counts
  rw [readStep, stepParts, splitLine_undivided whole.undivided whole.tight]
  simp [nonempty, whole.undivided, irregularity?]

/-- A line without a separator is read by what is left of it when its first gap is closed. -/
theorem IsUndividedLine.parse_congr (whole : IsUndividedLine line) (wholeOther : IsUndividedLine other)
    (same : closeGap line = closeGap other) (aliases : Aliases) :
    parse (String.ofList line) aliases = parse (String.ofList other) aliases := by
  have sameParts : readBracketed line = readBracketed other := by
    rw [readBracketed, readBracketed, same]
  rw [whole.parse_eq, wholeOther.parse_eq, whole.readStep_eq, wholeOther.readStep_eq, sameParts]

end Undivided

/-! ### Nested steps in brackets -/

/-- A line with a text in brackets after its name. -/
def bracketedLine (outer gap content : List Char) : List Char :=
  outer ++ (gap ++ openBracket :: (content ++ [closeBracket]))

/-- A line with a separator between its name and a nested step. -/
def separatedLine (outer inner arguments : List Char) : List Char :=
  outer ++ separator :: (inner ++ openBracket :: (arguments ++ [closeBracket]))

/-- A step with one nested step that can be written with or without a separator: both have names of
nested steps, the outer one is neither a comment nor the loop keyword, and the arguments of the inner
one are a balanced text on one line without a separator. -/
structure IsShorthand (outer inner arguments : List Char) : Prop where
  outerNamed : IsNestedName outer
  noComment : outer.head? ≠ some commentMark
  noMarker : fold outer ≠ "while".toList
  innerNamed : IsNestedName inner
  balanced : Balanced arguments
  undivided : separator ∉ arguments
  unbroken : ∀ c ∈ arguments, isLineBreak c = false

/-- The step that all forms of the line stand for. -/
def nestedStep (aliases : Aliases) (outer inner arguments : List Char) : Step :=
  ⟨aliases.renamed (String.ofList outer),
    [.step (aliases.renamed (String.ofList inner)) (tokenize aliases.folded arguments)]⟩

/-- Blanks within a line. -/
def AreBlanks (gap : List Char) : Prop :=
  ∀ c ∈ gap, isBlank c = true ∧ isLineBreak c = false

instance (gap : List Char) : Decidable (AreBlanks gap) :=
  decidable_of_iff (gap.all fun c => isBlank c && !isLineBreak c) (by simp [AreBlanks])

variable {outer : List Char}

theorem isShorthand_iff {inner arguments : List Char} :
    IsShorthand outer inner arguments ↔
      IsNestedName outer ∧ outer.head? ≠ some commentMark ∧ fold outer ≠ "while".toList ∧
      IsNestedName inner ∧ Balanced arguments ∧ separator ∉ arguments ∧
      (arguments.all fun c => !isLineBreak c) := by
  constructor
  · intro shorthand
    exact ⟨shorthand.outerNamed, shorthand.noComment, shorthand.noMarker, shorthand.innerNamed,
      shorthand.balanced, shorthand.undivided, by simpa using shorthand.unbroken⟩
  · rintro ⟨outerNamed, noComment, noMarker, innerNamed, balanced, undivided, unbroken⟩
    exact ⟨outerNamed, noComment, noMarker, innerNamed, balanced, undivided, by simpa using unbroken⟩

instance (outer inner arguments : List Char) : Decidable (IsShorthand outer inner arguments) :=
  decidable_of_iff _ isShorthand_iff.symm

theorem not_isBlank_separator : isBlank separator = false := by decide

theorem isTight_closeBracket : IsTight [closeBracket] := by
  constructor
  · intro c found
    cases found
    decide
  · intro c found
    cases found
    decide

theorem foldChar_openBracket : foldChar openBracket = [openBracket] := by decide

theorem IsOuterName.isSignificant_append (named : IsOuterName outer) (rest : List Char) :
    isSignificant (outer ++ rest) = true := by
  cases outer with
  | nil => exact absurd rfl named.nonempty
  | cons first others => simpa [isSignificant] using named.noComment

theorem IsOuterName.isUndividedLine {gap content : List Char} (named : IsOuterName outer)
    (blanks : AreBlanks gap) (undivided : separator ∉ content)
    (unbroken : ∀ c ∈ content, isLineBreak c = false) :
    IsUndividedLine (bracketedLine outer gap content) := by
  have tight : IsTight (bracketedLine outer gap content) := by
    have ends := named.isTight.join isTight_closeBracket (gap ++ openBracket :: content)
      named.nonempty (by simp)
    simpa [bracketedLine] using ends
  have whole : separator ∉ bracketedLine outer gap content := by
    simp only [bracketedLine, List.mem_append, List.mem_cons, List.not_mem_nil, or_false, not_or]
    refine ⟨named.undivided, ?_, by decide, undivided, by decide⟩
    intro member
    have blank := (blanks separator member).1
    rw [not_isBlank_separator] at blank
    cases blank
  refine ⟨⟨tight, ?_, ?_, ?_⟩, whole⟩
  · intro c member
    simp only [bracketedLine, List.mem_append, List.mem_cons, List.not_mem_nil, or_false] at member
    rcases member with early | inGap | rfl | late | rfl
    · exact isLineBreak_of_not_isBlank (named.characters c early).1
    · exact (blanks c inGap).2
    · decide
    · exact unbroken c late
    · decide
  · exact named.isSignificant_append _
  · -- The loop keyword has no bracket in it.
    have bracket : openBracket ∈ fold (bracketedLine outer gap content) := by
      rw [fold, List.mem_flatMap]
      exact ⟨openBracket, by simp [bracketedLine], by simp [foldChar_openBracket]⟩
    rw [isMarkerLine, splitLine_undivided whole tight, beq_eq_false_iff_ne]
    intro marker
    rw [marker] at bracket
    exact absurd bracket (by decide)

theorem closeGap_bracketedLine {gap : List Char} (named : IsOuterName outer) (nonempty : gap ≠ [])
    (blanks : AreBlanks gap) (content : List Char) :
    closeGap (bracketedLine outer gap content) = bracketedLine outer [] content := by
  have first : IsFirstGap (gap ++ openBracket :: (content ++ [closeBracket])) [] gap
      (content ++ [closeBracket]) :=
    ⟨rfl, nonempty, fun c member => (blanks c member).1, not_hasGap_nil, by simp⟩
  rw [bracketedLine, closeGap_append fun c member => (named.characters c member).1,
    first.closeGap_eq]
  rfl

section Shorthand

variable {outer inner arguments : List Char} (shorthand : IsShorthand outer inner arguments)
include shorthand

theorem IsShorthand.outerName : IsOuterName outer where
  nonempty := shorthand.outerNamed.1
  characters := by
    intro c member
    obtain ⟨notBlank, _, notOpen, notClose, notSeparator⟩ := shorthand.outerNamed.2 c member
    exact ⟨notBlank, notOpen, notClose, notSeparator⟩
  noComment := shorthand.noComment
  noMarker := shorthand.noMarker

theorem IsShorthand.balanced_content : Balanced (inner ++ ' ' :: arguments) :=
  shorthand.innerNamed.isPiece.solid.balanced.append
    (.plain (by decide) (by decide) shorthand.balanced)

theorem IsShorthand.undivided_content : separator ∉ inner ++ ' ' :: arguments := by
  simp only [List.mem_append, List.mem_cons, not_or]
  refine ⟨?_, by decide, shorthand.undivided⟩
  intro member
  exact (shorthand.innerNamed.2 separator member).2.2.2.2 rfl

theorem IsShorthand.unbroken_content : ∀ c ∈ inner ++ ' ' :: arguments, isLineBreak c = false := by
  intro c member
  simp only [List.mem_append, List.mem_cons] at member
  rcases member with early | rfl | late
  · exact isLineBreak_of_not_isBlank (shorthand.innerNamed.2 c early).1
  · decide
  · exact shorthand.unbroken c late

theorem IsShorthand.splitFirstWord_content :
    splitFirstWord (inner ++ ' ' :: arguments) = some (inner, trimStart arguments) := by
  have solid : ∀ c ∈ inner, (!isBlank c) = true := by
    intro c member
    simp [(shorthand.innerNamed.2 c member).1]
  have started : trimStart (inner ++ ' ' :: arguments) = inner ++ ' ' :: arguments := by
    apply trimStart_of_head
    intro c found
    rw [List.head?_append_of_ne_nil _ shorthand.innerNamed.1] at found
    exact (shorthand.innerNamed.2 c (List.mem_of_mem_head? found)).1
  have taken : (inner ++ ' ' :: arguments).takeWhile (!isBlank ·) = inner := by
    rw [List.takeWhile_append_of_pos solid, List.takeWhile_cons_of_neg (by decide), List.append_nil]
  have dropped : (inner ++ ' ' :: arguments).dropWhile (!isBlank ·) = ' ' :: arguments := by
    rw [List.dropWhile_append_of_pos solid, List.dropWhile_cons_of_neg (by decide)]
  have blank : trimStart (' ' :: arguments) = trimStart arguments :=
    List.dropWhile_cons_of_pos (by decide)
  rw [splitFirstWord, started]
  split
  · next nothing => simp at nothing
  · rw [taken, dropped, blank]

theorem IsShorthand.readBracketed_eq {line : List Char}
    (closed : closeGap line = bracketedLine outer [] (inner ++ ' ' :: arguments)) :
    readBracketed line = (outer, inner ++ openBracket :: (trimStart arguments ++ [closeBracket])) := by
  have parts : nestedParts? (bracketedLine outer [] (inner ++ ' ' :: arguments)) =
      some (outer, inner ++ ' ' :: arguments) :=
    nestedParts?_eq_some.mpr
      ⟨shorthand.outerNamed.1, (isNestedName_iff.mp shorthand.outerNamed).2, rfl⟩
  simp only [readBracketed, closed, parts, isBalanced_iff.mpr shorthand.balanced_content, if_true,
    shorthand.splitFirstWord_content, List.append_assoc, List.cons_append]

/-- A line without a separator that has this form when its first gap is closed. -/
theorem IsShorthand.parse_closed {line : List Char} (whole : IsUndividedLine line)
    (closed : closeGap line = bracketedLine outer [] (inner ++ ' ' :: arguments))
    (aliases : Aliases) :
    parse (String.ofList line) aliases =
      .ok ⟨[⟨.once, [nestedStep aliases outer inner arguments]⟩], []⟩ := by
  apply whole.parse_of_readStep
  have trimmed := balanced_trimStart shorthand.balanced
  have group : Solid (inner ++ openBracket :: (trimStart arguments ++ [closeBracket])) :=
    shorthand.innerNamed.isPiece.solid.append (.group trimmed .nil)
  have noBlank : outer.any isBlank = false := by
    rw [List.any_eq_false]
    intro c member
    simp [(shorthand.outerNamed.2 c member).1]
  rw [whole.readStep_eq, shorthand.readBracketed_eq closed,
    shorthand.innerNamed.tokenize_group trimmed, tokenize_trimStart _ shorthand.balanced,
    Aliases.expand_folded, Aliases.expand_folded, isBalanced_iff.mpr group.balanced,
    isBalanced_iff.mpr shorthand.outerName.balanced, noBlank]
  rfl

theorem IsShorthand.isUndividedLine {gap : List Char} (blanks : AreBlanks gap) :
    IsUndividedLine (bracketedLine outer gap (inner ++ ' ' :: arguments)) :=
  shorthand.outerName.isUndividedLine blanks shorthand.undivided_content shorthand.unbroken_content

theorem IsShorthand.isPiece_group :
    IsPiece (inner ++ openBracket :: (arguments ++ [closeBracket])) :=
  shorthand.innerNamed.isPiece.group shorthand.balanced shorthand.unbroken

theorem IsShorthand.splitLine_separated :
    splitLine (separatedLine outer inner arguments) =
      (outer, inner ++ openBracket :: (arguments ++ [closeBracket])) :=
  shorthand.outerName.splitLine shorthand.isPiece_group.solid.isTight

theorem IsShorthand.isTidyLine_separated : IsTidyLine (separatedLine outer inner arguments) := by
  have named := shorthand.outerName
  have group := shorthand.isPiece_group
  refine ⟨?_, ?_, named.isSignificant_append _, ?_⟩
  · exact named.isTight.join group.solid.isTight [separator] named.nonempty group.nonempty
  · intro c member
    rw [separatedLine, List.mem_append, List.mem_cons] at member
    rcases member with early | rfl | late
    · exact isLineBreak_of_not_isBlank (named.characters c early).1
    · decide
    · exact group.unbroken c late
  · rw [isMarkerLine, shorthand.splitLine_separated, beq_eq_false_iff_ne]
    exact named.noMarker

theorem IsShorthand.parse_separated (aliases : Aliases) :
    parse (String.ofList (separatedLine outer inner arguments)) aliases =
      .ok ⟨[⟨.once, [nestedStep aliases outer inner arguments]⟩], []⟩ := by
  have named := shorthand.outerName
  apply shorthand.isTidyLine_separated.parse_of_readStep
  have separated : separator ∈ separatedLine outer inner arguments := by simp [separatedLine]
  have noBlank : ∀ c ∈ outer, isBlank c = false := fun c member => (named.characters c member).1
  rw [readStep, stepParts, shorthand.splitLine_separated]
  simp only [List.contains_eq_mem, separated, decide_true, if_true, List.isEmpty_iff, named.nonempty,
    if_false, shorthand.innerNamed.tokenize_group shorthand.balanced, irregularity?,
    isBalanced_iff.mpr shorthand.isPiece_group.solid.balanced, Bool.not_true, Bool.false_and,
    Aliases.expand_folded]
  simpa [nestedStep] using noBlank

/-- With blanks before the outer bracket, these are the gap that is closed. -/
theorem IsShorthand.parse_spaced {gap : List Char} (nonempty : gap ≠ []) (blanks : AreBlanks gap)
    (aliases : Aliases) :
    parse (String.ofList (bracketedLine outer gap (inner ++ ' ' :: arguments))) aliases =
      .ok ⟨[⟨.once, [nestedStep aliases outer inner arguments]⟩], []⟩ :=
  shorthand.parse_closed (shorthand.isUndividedLine blanks)
    (closeGap_bracketedLine shorthand.outerName nonempty blanks _) aliases

theorem IsShorthand.closeGap_attached :
    closeGap (bracketedLine outer [] (inner ++ ' ' :: arguments)) =
      (outer ++ openBracket :: inner) ++ closeGap (' ' :: arguments ++ [closeBracket]) := by
  have solid : ∀ c ∈ outer ++ openBracket :: inner, isBlank c = false := by
    intro c member
    rw [List.mem_append, List.mem_cons] at member
    rcases member with early | rfl | late
    · exact (shorthand.outerNamed.2 c early).1
    · exact openBracket_not_blank
    · exact (shorthand.innerNamed.2 c late).1
  rw [← closeGap_append solid]
  simp [bracketedLine]

/-- Where there is no gap at all, none is closed. -/
theorem IsShorthand.parse_attached (gapless : ¬ HasGap (' ' :: arguments)) (aliases : Aliases) :
    parse (String.ofList (bracketedLine outer [] (inner ++ ' ' :: arguments))) aliases =
      .ok ⟨[⟨.once, [nestedStep aliases outer inner arguments]⟩], []⟩ := by
  apply shorthand.parse_closed (shorthand.isUndividedLine (List.forall_mem_nil _))
  rw [shorthand.closeGap_attached, closeGap_of_not_hasGap (not_hasGap_concat gapless (by decide))]
  simp [bracketedLine]

variable {blanks after : List Char}

/-- Without blanks before the outer bracket, the first gap that is left is closed. -/
theorem IsShorthand.parse_attached_gap {before : List Char}
    (gap : IsFirstGap (' ' :: arguments) before blanks after) (aliases : Aliases) :
    parse (String.ofList (bracketedLine outer [] (inner ++ ' ' :: arguments))) aliases =
      parse (String.ofList
        (bracketedLine outer [' '] (inner ++ (before ++ openBracket :: after)))) aliases := by
  have blank : AreBlanks [' '] := by decide
  have fewer : inner ++ (before ++ openBracket :: after) ⊆ inner ++ ' ' :: arguments := by
    exact List.append_subset.mpr ⟨List.subset_append_left _ _,
      List.subset_append_of_subset_right _ gap.subset⟩
  have closed : IsUndividedLine
      (bracketedLine outer [' '] (inner ++ (before ++ openBracket :: after))) :=
    shorthand.outerName.isUndividedLine blank (fun member => shorthand.undivided_content (fewer member))
      fun c member => shorthand.unbroken_content c (fewer member)
  apply (shorthand.isUndividedLine (List.forall_mem_nil _)).parse_congr closed
  rw [shorthand.closeGap_attached, (gap.append [closeBracket]).closeGap_eq,
    closeGap_bracketedLine shorthand.outerName (by simp) blank]
  simp [bracketedLine]

/-- The arguments of the inner step with their first gap closed. -/
theorem IsShorthand.withoutGap {early : List Char}
    (gap : IsFirstGap (' ' :: arguments) (' ' :: early) blanks after) :
    IsShorthand outer inner (early ++ openBracket :: after) := by
  have whole : arguments = early ++ (blanks ++ openBracket :: after) := List.tail_eq_of_cons_eq gap.whole
  have fewer : early ++ openBracket :: after ⊆ arguments := by
    rw [whole]
    exact ((List.sublist_append_right _ _).append_left _).subset
  refine { shorthand with balanced := ?_, undivided := ?_, unbroken := ?_ }
  · rw [← isBalanced_iff, ← isBalanced_without_blanks gap.blank, ← whole, isBalanced_iff]
    exact shorthand.balanced
  · exact fun member => shorthand.undivided (fewer member)
  · exact fun c member => shorthand.unbroken c (fewer member)

/-- A gap between two arguments of the inner step, once closed, makes one argument of them. -/
theorem IsShorthand.parse_attached_ne {early : List Char}
    (gap : IsFirstGap (' ' :: arguments) (' ' :: early) blanks after) (balanced : Balanced early)
    (noComma : early.getLast? ≠ some ',') (aliases : Aliases) :
    parse (String.ofList (bracketedLine outer [] (inner ++ ' ' :: arguments))) aliases ≠
      parse (String.ofList (separatedLine outer inner arguments)) aliases := by
  have closed := shorthand.withoutGap gap
  have whole : arguments = early ++ (blanks ++ openBracket :: after) := List.tail_eq_of_cons_eq gap.whole
  have blank : AreBlanks [' '] := by decide
  have longer : (tokenize aliases.folded arguments).length =
      (tokenize aliases.folded (early ++ openBracket :: after)).length + 1 := by
    obtain ⟨last, lastEq, notBlank⟩ := exists_last (by decide) gap.maximal
    have joins : separatesArguments last = false := by
      have notComma : last ≠ ',' := by
        rintro rfl
        exact noComma lastEq
      simp [separatesArguments, notBlank, notComma]
    rw [tokenize_of_balanced (isBalanced_iff.mpr shorthand.balanced),
      tokenize_of_balanced (isBalanced_iff.mpr closed.balanced), List.length_map, List.length_map,
      whole, length_outerPieces_gap balanced lastEq joins gap.nonempty gap.blank]
  rw [shorthand.parse_attached_gap gap, List.cons_append, closed.parse_spaced (by simp) blank,
    shorthand.parse_separated]
  intro same
  simp only [nestedStep, Except.ok.injEq, Program.mk.injEq, List.cons.injEq, Block.mk.injEq,
    Step.mk.injEq, Argument.step.injEq, true_and, and_true] at same
  rw [same] at longer
  omega

end Shorthand

/-- A step with a nested step reads the same with a separator and with blanks before its bracket.
With the bracket directly after its name it reads the same if no argument of the nested step has
blanks before a bracket; else the first of these gaps is closed, by which two arguments that stand
outside of brackets become one. -/
theorem parse_shorthand {outer inner arguments : List Char}
    (shorthand : IsShorthand outer inner arguments) (aliases : Aliases) :
    parse (String.ofList (separatedLine outer inner arguments)) aliases =
        .ok ⟨[⟨.times 1, [⟨aliases.renamed (String.ofList outer),
          [.step (aliases.renamed (String.ofList inner)) (tokenize aliases.folded arguments)]⟩]⟩], []⟩ ∧
      (∀ gap, gap ≠ [] → AreBlanks gap →
        parse (String.ofList (bracketedLine outer gap (inner ++ ' ' :: arguments))) aliases =
          parse (String.ofList (separatedLine outer inner arguments)) aliases) ∧
      (¬ HasGap (' ' :: arguments) →
        parse (String.ofList (bracketedLine outer [] (inner ++ ' ' :: arguments))) aliases =
          parse (String.ofList (separatedLine outer inner arguments)) aliases) ∧
      (HasGap (' ' :: arguments) →
        ∃ before blanks after, IsFirstGap (' ' :: arguments) before blanks after ∧
          parse (String.ofList (bracketedLine outer [] (inner ++ ' ' :: arguments))) aliases =
            parse (String.ofList
              (bracketedLine outer [' '] (inner ++ (before ++ openBracket :: after)))) aliases ∧
          ∀ early, before = ' ' :: early → Balanced early → early.getLast? ≠ some ',' →
            parse (String.ofList (bracketedLine outer [] (inner ++ ' ' :: arguments))) aliases ≠
              parse (String.ofList (separatedLine outer inner arguments)) aliases) := by
  have separated := shorthand.parse_separated aliases
  refine ⟨separated, ?_, ?_, ?_⟩
  · intro gap nonempty blanks
    rw [shorthand.parse_spaced nonempty blanks, separated]
  · intro gapless
    rw [shorthand.parse_attached gapless, separated]
  · intro hasGap
    obtain ⟨before, blanks, after, gap⟩ := exists_isFirstGap hasGap
    refine ⟨before, blanks, after, gap, shorthand.parse_attached_gap gap aliases, ?_⟩
    rintro early rfl balanced noComma
    exact shorthand.parse_attached_ne gap balanced noComma aliases

theorem parse_shorthand_samples :
    (IsShorthand "Click".toList "Get".toList "a, b‹c d›".toList ∧
      ¬ HasGap (' ' :: "a, b‹c d›".toList) ∧
      parse "Click‹Get a, b‹c d››" = parse "Click=Get‹a, b‹c d››" ∧
      parse "Click \t‹Get a, b‹c d››" = parse "Click=Get‹a, b‹c d››") ∧
    (IsShorthand "Click".toList "Get".toList "a ‹b›".toList ∧
      HasGap (' ' :: "a ‹b›".toList) ∧
      parse "Click ‹Get a ‹b››" = parse "Click=Get‹a ‹b››" ∧
      ∃ before blanks after, IsFirstGap (' ' :: "a ‹b›".toList) before blanks after ∧
        parse "Click‹Get a ‹b››" =
          parse (String.ofList (bracketedLine "Click".toList [' ']
            ("Get".toList ++ (before ++ openBracket :: after))))) := by
  have gapless : IsShorthand "Click".toList "Get".toList "a, b‹c d›".toList := by decide
  have gapped : IsShorthand "Click".toList "Get".toList "a ‹b›".toList := by decide
  have blanks : AreBlanks [' ', '\t'] := by decide
  have blank : AreBlanks [' '] := by decide
  obtain ⟨_, spacedGapless, attachedGapless, _⟩ := parse_shorthand gapless []
  obtain ⟨_, spacedGapped, _, attachedGapped⟩ := parse_shorthand gapped []
  have gap : HasGap (' ' :: "a ‹b›".toList) := by decide
  obtain ⟨before, blanksBefore, after, first, same, _⟩ := attachedGapped gap
  refine ⟨⟨gapless, by decide, attachedGapless (by decide), ?_⟩, gapped, gap, ?_, ?_⟩
  · exact spacedGapless [' ', '\t'] (by decide) blanks
  · exact spacedGapped [' '] (by decide) blank
  · exact ⟨before, blanksBefore, after, first, same⟩

/-- Of the two arguments of `Inner` the gap between them makes a nested step if `Outer` has its bracket
directly after it. -/
theorem parse_attached_merges :
    IsShorthand "Outer".toList "Inner".toList "x ‹y›".toList ∧
      parse "Outer‹Inner x ‹y››" =
        .ok ⟨[⟨.times 1, [⟨"Outer", [.step "Inner" [.step "x" [.token "y"]]]⟩]⟩], []⟩ ∧
      parse "Outer ‹Inner x ‹y››" =
        .ok ⟨[⟨.times 1, [⟨"Outer", [.step "Inner" [.token "x", .token "‹y›"]]⟩]⟩], []⟩ ∧
      parse "Outer=Inner‹x ‹y››" =
        .ok ⟨[⟨.times 1, [⟨"Outer", [.step "Inner" [.token "x", .token "‹y›"]]⟩]⟩], []⟩ ∧
      parse "Outer‹Inner x ‹y››" ≠ parse "Outer=Inner‹x ‹y››" := by
  have shorthand : IsShorthand "Outer".toList "Inner".toList "x ‹y›".toList := by decide
  have apart : tokenize [] "x ‹y›".toList = [.token "x", .token "‹y›"] := by
    rw [tokenize_of_balanced (by decide)]
    rfl
  have deep : tokenize [] "y".toList = [.token "y"] := by
    rw [tokenize_of_balanced (by decide)]
    rfl
  have merged : tokenize [] "x‹y›".toList = [.step "x" [.token "y"]] := by
    rw [tokenize_of_balanced (by decide), ← deep]
    rfl
  have gap : IsFirstGap (' ' :: "x ‹y›".toList) " x".toList " ".toList "y›".toList := by
    refine ⟨rfl, by decide, ?_, by decide, ?_⟩
    · exact List.forall_mem_singleton.mpr (by decide)
    · intro c found
      cases found
      decide
  have blank : AreBlanks [' '] := by decide
  have attached := (shorthand.parse_attached_gap gap []).trans
    ((shorthand.withoutGap gap).parse_spaced (by decide) blank [])
  have spaced := shorthand.parse_spaced (by decide) blank []
  have separated := shorthand.parse_separated []
  have different := shorthand.parse_attached_ne gap (by decide) (by decide) []
  refine ⟨shorthand, ?_, ?_, ?_, different⟩
  · rw [← merged]
    exact attached
  · rw [← apart]
    exact spaced
  · rw [← apart]
    exact separated

end InputScript.Script
