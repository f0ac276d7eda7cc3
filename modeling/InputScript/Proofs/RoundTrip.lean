/-
Module: InputScript.Proofs.RoundTrip
Purpose: The text of steps reads back as these steps.  Names and texts that cannot be taken for
  anything else are described by their characters and brackets; the text of a list of such steps is
  one block with exactly these steps, and nothing is irregular about it.
Main exports: IsNestedName, IsOuterName, IsPlainText, parse_render
-/
import InputScript.Proofs.Brackets
import InputScript.Script.Parse
import Mathlib.Data.List.TakeWhile

namespace InputScript.Script

open Text

/-! ### Names and texts -/

/-- A name of a nested step: no blanks (line breaks are blanks), commas, brackets or separators. -/
def IsNestedName (name : List Char) : Prop :=
  name ≠ [] ∧ ∀ c ∈ name, isBlank c = false ∧ c ≠ ',' ∧ c ≠ openBracket ∧ c ≠ closeBracket ∧
    c ≠ separator

/-- A name of a step on a line of its own, which may have commas in it but is neither a comment nor
the loop keyword. -/
structure IsOuterName (name : List Char) : Prop where
  nonempty : name ≠ []
  characters : ∀ c ∈ name, isBlank c = false ∧ c ≠ openBracket ∧ c ≠ closeBracket ∧ c ≠ separator
  noComment : name.head? ≠ some commentMark
  noMarker : fold name ≠ "while".toList

/-- A text argument: brackets that pair up, blanks and commas only inside of them, no line break, and
not the look of a nested step. -/
structure IsPlainText (text : List Char) : Prop where
  nonempty : text ≠ []
  solid : Solid text
  unbroken : ∀ c ∈ text, isLineBreak c = false
  notNested : ∀ name inner, IsNestedName name → Balanced inner →
    text ≠ name ++ openBracket :: (inner ++ [closeBracket])

/-- An argument that reads back as it is. -/
inductive Argument.IsFaithful : Argument → Prop where
  | token {text : String} (plain : IsPlainText text.toList) : IsFaithful (.token text)
  | step {name : String} {arguments : List Argument} (named : IsNestedName name.toList)
      (each : ∀ argument ∈ arguments, IsFaithful argument) : IsFaithful (.step name arguments)

/-- A step that reads back as it is. -/
def Step.IsFaithful (step : Step) : Prop :=
  IsOuterName step.name.toList ∧ ∀ argument ∈ step.arguments, argument.IsFaithful

theorem isBlank_of_isLineBreak {c : Char} (breaks : isLineBreak c = true) : isBlank c = true := by
  simp only [isLineBreak, isBlank, Bool.or_eq_true, Bool.and_eq_true, decide_eq_true_eq,
    beq_iff_eq] at *
  omega

theorem isLineBreak_of_not_isBlank {c : Char} (solid : isBlank c = false) :
    isLineBreak c = false := by
  cases breaks : isLineBreak c with
  | false => rfl
  | true =>
      rw [isBlank_of_isLineBreak breaks] at solid
      cases solid

variable {name : List Char}

theorem isNestedName_iff :
    IsNestedName name ↔ name ≠ [] ∧ ∀ c ∈ name, isNameChar c = true := by
  simp [IsNestedName, isNameChar, and_assoc]

theorem isOuterName_iff :
    IsOuterName name ↔
      name ≠ [] ∧
      (name.all fun c => !(isBlank c || c == openBracket || c == closeBracket || c == separator)) ∧
      name.head? ≠ some commentMark ∧ fold name ≠ "while".toList := by
  constructor
  · intro named
    refine ⟨named.nonempty, ?_, named.noComment, named.noMarker⟩
    simpa [and_assoc] using named.characters
  · rintro ⟨nonempty, characters, noComment, noMarker⟩
    refine ⟨nonempty, ?_, noComment, noMarker⟩
    simpa [and_assoc] using characters

instance (name : List Char) : Decidable (IsNestedName name) :=
  decidable_of_iff (name ≠ [] ∧ name.all isNameChar)
    (by rw [isNestedName_iff, List.all_eq_true])

instance (name : List Char) : Decidable (IsOuterName name) :=
  decidable_of_iff _ isOuterName_iff.symm

variable {text : List Char}

/-- A text looks like a nested step if it splits like one. -/
theorem notNested_iff :
    (∀ name inner, IsNestedName name → Balanced inner →
      text ≠ name ++ openBracket :: (inner ++ [closeBracket])) ↔
    ∀ parts ∈ nestedParts? text, ¬ Balanced parts.2 := by
  constructor
  · intro notNested parts found balanced
    obtain ⟨nonempty, named, same⟩ := nestedParts?_eq_some.mp found
    exact notNested parts.1 parts.2 (isNestedName_iff.mpr ⟨nonempty, named⟩) balanced same
  · intro notBalanced name inner named balanced same
    obtain ⟨nonempty, characters⟩ := isNestedName_iff.mp named
    have found := nestedParts?_eq_some.mpr ⟨nonempty, characters, same⟩
    exact notBalanced (name, inner) found balanced

theorem isPlainText_iff :
    IsPlainText text ↔
      text ≠ [] ∧ Solid text ∧ (text.all fun c => !isLineBreak c) ∧
      ((nestedParts? text).all fun parts => !isBalanced parts.2) := by
  have notBalanced : ((nestedParts? text).all fun parts => !isBalanced parts.2) = true ↔
      ∀ parts ∈ nestedParts? text, ¬ Balanced parts.2 := by
    cases nestedParts? text <;> simp [← isBalanced_iff]
  rw [notBalanced, ← notNested_iff]
  constructor
  · intro plain
    exact ⟨plain.nonempty, plain.solid, by simpa using plain.unbroken, plain.notNested⟩
  · rintro ⟨nonempty, solid, unbroken, notNested⟩
    exact ⟨nonempty, solid, by simpa using unbroken, notNested⟩

instance (text : List Char) : Decidable (IsPlainText text) :=
  decidable_of_iff _ isPlainText_iff.symm

/-! ### Rendered arguments -/

/-- One piece of an argument text on one line. -/
structure IsPiece (text : List Char) : Prop where
  nonempty : text ≠ []
  solid : Solid text
  unbroken : ∀ c ∈ text, isLineBreak c = false

theorem IsPiece.separable (piece : IsPiece text) : Solid text ∧ text ≠ [] :=
  ⟨piece.solid, piece.nonempty⟩

variable {texts : List (List Char)}

theorem balanced_intercalate (pieces : ∀ text ∈ texts, Balanced text) :
    Balanced ([' '].intercalate texts) := by
  induction texts with
  | nil => exact .nil
  | cons text others hypothesis =>
      have later := hypothesis fun other member => pieces other (List.mem_cons_of_mem _ member)
      have first := pieces text List.mem_cons_self
      cases others with
      | nil => rwa [List.intercalate_singleton]
      | cons next others =>
          rw [List.intercalate_cons_cons, List.append_assoc]
          exact first.append (.plain (by decide) (by decide) later)

theorem unbroken_intercalate (unbroken : ∀ text ∈ texts, ∀ c ∈ text, isLineBreak c = false) :
    ∀ c ∈ [' '].intercalate texts, isLineBreak c = false := by
  induction texts with
  | nil => simp
  | cons text others hypothesis =>
      have later := hypothesis fun other member => unbroken other (List.mem_cons_of_mem _ member)
      have first := unbroken text List.mem_cons_self
      cases others with
      | nil => rwa [List.intercalate_singleton]
      | cons next others =>
          intro c member
          rw [List.intercalate_cons_cons, List.append_assoc] at member
          simp only [List.mem_append, List.mem_singleton] at member
          rcases member with early | rfl | late
          · exact first c early
          · decide
          · exact later c late

theorem solid_of_joins
    (joins : ∀ c ∈ text, c ≠ openBracket ∧ c ≠ closeBracket ∧ separatesArguments c = false) :
    Solid text := by
  induction text with
  | nil => exact .nil
  | cons c rest hypothesis =>
      obtain ⟨notOpen, notClose, joinsFirst⟩ := joins c List.mem_cons_self
      apply Solid.plain notOpen notClose joinsFirst
      apply hypothesis
      intro other member
      exact joins other (List.mem_cons_of_mem _ member)

theorem IsNestedName.isPiece (named : IsNestedName name) : IsPiece name where
  nonempty := named.1
  solid := by
    apply solid_of_joins
    intro c member
    obtain ⟨notBlank, notComma, notOpen, notClose, _⟩ := named.2 c member
    exact ⟨notOpen, notClose, by simp [separatesArguments, notBlank, notComma]⟩
  unbroken := by
    intro c member
    exact isLineBreak_of_not_isBlank (named.2 c member).1

variable {inner : List Char}

/-- A name with a bracketed text after it is a piece. -/
theorem IsPiece.group (named : IsPiece name) (balanced : Balanced inner)
    (unbroken : ∀ c ∈ inner, isLineBreak c = false) :
    IsPiece (name ++ openBracket :: (inner ++ [closeBracket])) where
  nonempty := by simp
  solid := named.solid.append (.group balanced .nil)
  unbroken := by
    intro c member
    simp only [List.mem_append, List.mem_cons, List.not_mem_nil, or_false] at member
    rcases member with early | rfl | late | rfl
    · exact named.unbroken c early
    · decide
    · exact unbroken c late
    · decide

/-- The arguments as they are written. -/
def textsOf (arguments : List Argument) : List (List Char) :=
  (Argument.renderAll arguments).map String.toList

theorem toList_render_step (name : String) (arguments : List Argument) :
    (Argument.render (.step name arguments)).toList =
      name.toList ++ openBracket :: ([' '].intercalate (textsOf arguments) ++ [closeBracket]) := by
  simp [Argument.render, textsOf, String.toList_intercalate]

mutual

theorem render_isPiece : (argument : Argument) → argument.IsFaithful →
    IsPiece argument.render.toList
  | .token text, faithful => by
      cases faithful with
      | token plain => exact ⟨plain.nonempty, plain.solid, plain.unbroken⟩
  | .step name arguments, faithful => by
      cases faithful with
      | step named each =>
          have pieces := textsOf_isPiece arguments each
          rw [toList_render_step]
          apply named.isPiece.group
          · exact balanced_intercalate fun text member => (pieces text member).solid.balanced
          · exact unbroken_intercalate fun text member => (pieces text member).unbroken

theorem textsOf_isPiece : (arguments : List Argument) →
    (∀ argument ∈ arguments, argument.IsFaithful) → ∀ text ∈ textsOf arguments, IsPiece text
  | [], _ => by simp [textsOf, Argument.renderAll]
  | argument :: rest, faithful => by
      intro text member
      rw [textsOf, Argument.renderAll, List.map_cons, List.mem_cons] at member
      rcases member with rfl | late
      · exact render_isPiece argument (faithful argument List.mem_cons_self)
      · exact textsOf_isPiece rest
          (fun other inside => faithful other (List.mem_cons_of_mem _ inside)) text late

end

/-! ### Reading arguments back -/

theorem IsPlainText.toArgument (plain : IsPlainText text) :
    toArgument [] text = .token (String.ofList text) := by
  rw [Script.toArgument]
  split
  · next name inner parts =>
      have unbalanced := notNested_iff.mp plain.notNested _ parts
      rw [if_neg (mt isBalanced_iff.mp unbalanced)]
  · rfl

/-- Solid texts with blanks between them are read one by one. -/
theorem tokenize_intercalate (aliases : Aliases) (solid : ∀ text ∈ texts, Solid text ∧ text ≠ []) :
    tokenize aliases ([' '].intercalate texts) = texts.map (toArgument aliases) := by
  have balanced : Balanced ([' '].intercalate texts) :=
    balanced_intercalate fun text member => (solid text member).1.balanced
  rw [tokenize_of_balanced (isBalanced_iff.mpr balanced), outerPieces_intercalate solid]

/-- A name with a balanced text in brackets is a nested step with the arguments of that text. -/
theorem IsNestedName.toArgument_group (named : IsNestedName name) (balanced : Balanced inner)
    (aliases : Aliases) :
    Script.toArgument aliases (name ++ openBracket :: (inner ++ [closeBracket])) =
      .step (aliases.expand (String.ofList name)) (tokenize aliases inner) := by
  have parts : nestedParts? (name ++ openBracket :: (inner ++ [closeBracket])) = some (name, inner) :=
    nestedParts?_eq_some.mpr ⟨named.1, (isNestedName_iff.mp named).2, rfl⟩
  simp only [Script.toArgument, parts, isBalanced_iff.mpr balanced, if_true]

theorem IsNestedName.tokenize_group (named : IsNestedName name) (balanced : Balanced inner)
    (aliases : Aliases) :
    tokenize aliases (name ++ openBracket :: (inner ++ [closeBracket])) =
      [.step (aliases.expand (String.ofList name)) (tokenize aliases inner)] := by
  have group : Solid (name ++ openBracket :: (inner ++ [closeBracket])) :=
    named.isPiece.solid.append (.group balanced .nil)
  have alone := tokenize_intercalate aliases (List.forall_mem_singleton.mpr ⟨group, by simp⟩)
  rwa [List.intercalate_singleton, List.map_singleton, named.toArgument_group balanced] at alone

mutual

theorem toArgument_render : (argument : Argument) → argument.IsFaithful →
    toArgument [] argument.render.toList = argument
  | .token text, faithful => by
      cases faithful with
      | token plain =>
          rw [Argument.render, plain.toArgument, String.ofList_toList]
  | .step name arguments, faithful => by
      cases faithful with
      | step named each =>
          have pieces := textsOf_isPiece arguments each
          have balanced : Balanced ([' '].intercalate (textsOf arguments)) :=
            balanced_intercalate fun text member => (pieces text member).solid.balanced
          rw [toList_render_step, named.toArgument_group balanced, String.ofList_toList,
            tokenize_intercalate [] fun text member => (pieces text member).separable,
            toArgument_textsOf arguments each]
          rfl

theorem toArgument_textsOf : (arguments : List Argument) →
    (∀ argument ∈ arguments, argument.IsFaithful) →
    (textsOf arguments).map (toArgument []) = arguments
  | [], _ => rfl
  | argument :: rest, faithful => by
      rw [textsOf, Argument.renderAll, List.map_cons, List.map_cons,
        toArgument_render argument (faithful argument List.mem_cons_self)]
      exact congrArg (argument :: ·) (toArgument_textsOf rest
        fun other inside => faithful other (List.mem_cons_of_mem _ inside))

end

theorem tokenize_textsOf {arguments : List Argument}
    (faithful : ∀ argument ∈ arguments, argument.IsFaithful) :
    tokenize [] ([' '].intercalate (textsOf arguments)) = arguments := by
  have pieces := textsOf_isPiece arguments faithful
  rw [tokenize_intercalate [] fun text member => (pieces text member).separable,
    toArgument_textsOf arguments faithful]

/-! ### Ends of a text -/

/-- Neither the first nor the last character is a blank. -/
def IsTight (text : List Char) : Prop :=
  (∀ c, text.head? = some c → isBlank c = false) ∧ ∀ c, text.getLast? = some c → isBlank c = false

theorem trimStart_of_head (solid : ∀ c, text.head? = some c → isBlank c = false) :
    trimStart text = text := by
  cases text with
  | nil => rfl
  | cons c rest => exact List.dropWhile_cons_of_neg (by simp [solid c rfl])

theorem IsTight.trim_eq (tight : IsTight text) : trim text = text := by
  rw [trim, trimStart_of_head tight.1, trimEnd]
  have reversed : trimStart text.reverse = text.reverse := trimStart_of_head (by simpa using tight.2)
  rw [← trimStart, reversed, List.reverse_reverse]

theorem isTight_nil : IsTight [] := by
  constructor
  · intro c impossible
    cases impossible
  · intro c impossible
    cases impossible

theorem IsTight.join {first second : List Char} (before : IsTight first) (after : IsTight second)
    (middle : List Char) (someFirst : first ≠ []) (someSecond : second ≠ []) :
    IsTight (first ++ (middle ++ second)) := by
  constructor
  · intro c found
    apply before.1 c
    cases first with
    | nil => exact absurd rfl someFirst
    | cons start rest => exact found
  · intro c found
    apply after.2 c
    obtain ⟨last, lastEq⟩ := Option.isSome_iff_exists.mp (List.getLast?_isSome.mpr someSecond)
    simpa [List.getLast?_append, lastEq] using found

theorem Solid.isTight (solid : Solid text) : IsTight text := by
  induction solid with
  | nil => exact isTight_nil
  | @plain c rest _ _ joins _ hypothesis =>
      have notBlank : isBlank c = false := by
        simp only [separatesArguments, Bool.or_eq_false_iff] at joins
        exact joins.1
      constructor
      · intro first found
        cases found
        exact notBlank
      · intro last found
        rw [List.getLast?_cons] at found
        cases lastEq : rest.getLast? with
        | none =>
            rw [lastEq] at found
            cases found
            exact notBlank
        | some other =>
            rw [lastEq] at found
            cases found
            exact hypothesis.2 _ lastEq
  | @group inner rest _ _ hypothesis =>
      constructor
      · intro first found
        cases found
        decide
      · intro last found
        rw [← List.cons_append, List.getLast?_append, List.getLast?_cons] at found
        cases lastEq : rest.getLast? with
        | none =>
            rw [lastEq] at found
            cases found
            decide
        | some other =>
            rw [lastEq] at found
            cases found
            exact hypothesis.2 _ lastEq

theorem intercalate_ne_nil (nonempty : text ≠ []) (others : List (List Char)) :
    [' '].intercalate (text :: others) ≠ [] := by
  cases others with
  | nil => rwa [List.intercalate_singleton]
  | cons next others => simp [List.intercalate_cons_cons]

theorem isTight_intercalate (pieces : ∀ text ∈ texts, IsPiece text) :
    IsTight ([' '].intercalate texts) := by
  induction texts with
  | nil => exact isTight_nil
  | cons text others hypothesis =>
      have later := hypothesis fun other member => pieces other (List.mem_cons_of_mem _ member)
      have first := pieces text List.mem_cons_self
      cases others with
      | nil =>
          rw [List.intercalate_singleton]
          exact first.solid.isTight
      | cons next others =>
          have nonempty := (pieces next (by simp)).nonempty
          rw [List.intercalate_cons_cons, List.append_assoc]
          exact first.solid.isTight.join later [' '] first.nonempty (intercalate_ne_nil nonempty others)

/-! ### Reading a line back -/

/-- The characters of an outer name are not blanks, so that the name is tight. -/
theorem IsOuterName.isTight (named : IsOuterName name) : IsTight name := by
  constructor
  · intro c found
    exact (named.characters c (List.mem_of_mem_head? found)).1
  · intro c found
    exact (named.characters c (List.mem_of_getLast? found)).1

theorem IsOuterName.balanced (named : IsOuterName name) : Balanced name := by
  have characters := named.characters
  clear named
  induction name with
  | nil => exact .nil
  | cons c rest hypothesis =>
      obtain ⟨_, notOpen, notClose, _⟩ := characters c List.mem_cons_self
      apply Balanced.plain notOpen notClose
      apply hypothesis
      intro other member
      exact characters other (List.mem_cons_of_mem _ member)

theorem closeGap_append (solid : ∀ c ∈ text, isBlank c = false) (rest : List Char) :
    closeGap (text ++ rest) = text ++ closeGap rest := by
  induction text with
  | nil => rfl
  | cons c text hypothesis =>
      rw [List.cons_append, closeGap, solid c List.mem_cons_self, Bool.false_and, if_neg (by simp),
        hypothesis fun other member => solid other (List.mem_cons_of_mem _ member)]
      rfl

theorem closeGap_of_solid (solid : ∀ c ∈ text, isBlank c = false) :
    closeGap text = text := by
  have closed := closeGap_append solid []
  rwa [List.append_nil, closeGap, List.append_nil] at closed

/-- A bare name stands for itself. -/
theorem IsOuterName.readBracketed (named : IsOuterName name) :
    readBracketed name = (name, []) := by
  have noParts : nestedParts? name = none := by
    cases parts : nestedParts? name with
    | none => rfl
    | some found =>
        obtain ⟨_, _, rfl⟩ := nestedParts?_eq_some.mp parts
        exact absurd rfl (named.characters openBracket (by simp)).2.1
  rw [Script.readBracketed, closeGap_of_solid fun c member => (named.characters c member).1, noParts]

/-- What the line of a step consists of. -/
theorem toList_render (step : Step) :
    step.render.toList =
      step.name.toList ++
        if step.arguments = [] then []
        else separator :: [' '].intercalate (textsOf step.arguments) := by
  rw [Step.render]
  by_cases bare : step.arguments = []
  · simp [bare]
  · simp [bare, textsOf, String.toList_intercalate]

theorem IsOuterName.splitLine (named : IsOuterName name) (tight : IsTight text) :
    splitLine (name ++ separator :: text) = (name, text) := by
  have taken : ∀ c ∈ name, (c != separator) = true := by
    intro c member
    simpa using (named.characters c member).2.2.2
  rw [Script.splitLine, List.takeWhile_append_of_pos taken, List.dropWhile_append_of_pos taken]
  simp [named.isTight.trim_eq, tight.trim_eq]

variable {line : List Char}

/-- A line without a separator is all name. -/
theorem splitLine_undivided (undivided : separator ∉ line) (tight : IsTight line) :
    splitLine line = (line, []) := by
  have taken : ∀ c ∈ line, (c != separator) = true := by
    intro c member
    rw [bne_iff_ne]
    rintro rfl
    exact undivided member
  have whole : line.takeWhile (· != separator) = line := List.takeWhile_eq_self_iff.mpr taken
  have nothing : line.dropWhile (· != separator) = [] := List.dropWhile_eq_nil_iff.mpr taken
  rw [splitLine, whole, nothing, tight.trim_eq]
  rfl

theorem IsOuterName.undivided (named : IsOuterName name) : separator ∉ name := by
  intro member
  exact absurd rfl (named.characters separator member).2.2.2

theorem IsOuterName.splitLine_bare (named : IsOuterName name) :
    Script.splitLine name = (name, []) :=
  splitLine_undivided named.undivided named.isTight

section Lines

variable {step : Step}

/-- The name and the argument text of a rendered step. -/
theorem Step.IsFaithful.splitLine_render (faithful : step.IsFaithful) :
    splitLine step.render.toList =
      (step.name.toList, [' '].intercalate (textsOf step.arguments)) := by
  obtain ⟨named, arguments⟩ := faithful
  rw [toList_render]
  by_cases bare : step.arguments = []
  · rw [if_pos bare, List.append_nil, named.splitLine_bare, bare]
    rfl
  · rw [if_neg bare, named.splitLine (isTight_intercalate (textsOf_isPiece _ arguments))]

theorem Step.IsFaithful.stepParts_render (faithful : step.IsFaithful) :
    stepParts step.render.toList =
      (step.name.toList, [' '].intercalate (textsOf step.arguments)) := by
  rw [stepParts, faithful.splitLine_render]
  by_cases bare : step.arguments = []
  · have noSeparator : step.render.toList.contains separator = false := by
      rw [toList_render, if_pos bare, List.append_nil]
      simpa only [List.contains_eq_mem, decide_eq_false_iff_not] using faithful.1.undivided
    rw [noSeparator, if_neg (by simp), faithful.1.readBracketed, bare]
    rfl
  · have separated : step.render.toList.contains separator = true := by
      rw [toList_render, if_neg bare]
      simp
    rw [separated, if_pos rfl]

theorem Step.IsFaithful.irregularity?_render (faithful : step.IsFaithful) :
    irregularity? step.render.toList step.name.toList
      ([' '].intercalate (textsOf step.arguments)) = none := by
  obtain ⟨named, arguments⟩ := faithful
  have pieces := textsOf_isPiece step.arguments arguments
  have balanced := balanced_intercalate fun text member => (pieces text member).solid.balanced
  have noBlank : step.name.toList.any isBlank = false := by
    rw [List.any_eq_false]
    intro c member
    simp [(named.characters c member).1]
  simp [irregularity?, isBalanced_iff.mpr balanced, isBalanced_iff.mpr named.balanced, noBlank]

/-- The line of a step reads as the step, without any irregularity. -/
theorem Step.IsFaithful.readStep_render (faithful : step.IsFaithful) :
    readStep [] step.render.toList = ⟨some step, none⟩ := by
  have named := faithful.1.nonempty
  simp only [readStep, faithful.splitLine_render, faithful.stepParts_render,
    faithful.irregularity?_render, tokenize_textsOf faithful.2, String.ofList_toList,
    List.isEmpty_iff, named, if_false]
  rfl

theorem Step.IsFaithful.isTight_render (faithful : step.IsFaithful) :
    IsTight step.render.toList := by
  obtain ⟨named, arguments⟩ := faithful
  rw [toList_render]
  by_cases bare : step.arguments = []
  · rw [if_pos bare, List.append_nil]
    exact named.isTight
  · rw [if_neg bare]
    have pieces := textsOf_isPiece step.arguments arguments
    have nonempty : [' '].intercalate (textsOf step.arguments) ≠ [] := by
      cases argumentsEq : step.arguments with
      | nil => exact absurd argumentsEq bare
      | cons argument rest =>
          rw [argumentsEq] at arguments
          have first := render_isPiece argument (arguments argument List.mem_cons_self)
          exact intercalate_ne_nil first.nonempty _
    exact named.isTight.join (isTight_intercalate pieces) [separator] named.nonempty nonempty

theorem Step.IsFaithful.unbroken_render (faithful : step.IsFaithful) :
    ∀ c ∈ step.render.toList, isLineBreak c = false := by
  obtain ⟨named, arguments⟩ := faithful
  have pieces := textsOf_isPiece step.arguments arguments
  intro c member
  rw [toList_render, List.mem_append] at member
  rcases member with early | late
  · exact isLineBreak_of_not_isBlank (named.characters c early).1
  · split at late
    · cases late
    · rcases List.mem_cons.mp late with rfl | later
      · decide
      · exact unbroken_intercalate (fun text inside => (pieces text inside).unbroken) c later

theorem Step.IsFaithful.render_eq_cons (faithful : step.IsFaithful) :
    ∃ first rest, step.render.toList = first :: rest ∧ first ≠ commentMark := by
  obtain ⟨named, _⟩ := faithful
  rw [toList_render]
  cases nameEq : step.name.toList with
  | nil => exact absurd nameEq named.nonempty
  | cons first rest =>
      refine ⟨first, _, rfl, ?_⟩
      intro comment
      apply named.noComment
      rw [nameEq, comment]
      rfl

/-- The line of a step counts as a step. -/
theorem Step.IsFaithful.read_render (faithful : step.IsFaithful) :
    Line.read step.render.toList = .step step.render.toList := by
  obtain ⟨first, rest, lineEq, noComment⟩ := faithful.render_eq_cons
  have noMarker : isLoopMarker (Script.splitLine (first :: rest)).1 = false := by
    rw [← lineEq, faithful.splitLine_render, isLoopMarker, fold_loopKeyword, beq_eq_false_iff_ne]
    exact faithful.1.noMarker
  rw [Line.read, faithful.isTight_render.trim_eq, lineEq]
  simp [noComment, noMarker]

end Lines

/-! ### Reading a script back -/

theorem lines_lineFeed (rest : List Char) : lines ('\n' :: rest) = [] :: lines rest := by
  rw [lines]
  · rfl
  · intro later impossible
    cases impossible

theorem lines_cons {c : Char} (solid : isLineBreak c = false) (rest : List Char) :
    lines (c :: rest) =
      match lines rest with
      | [] => [[c]]
      | line :: more => (c :: line) :: more := by
  rw [lines, solid]
  · rfl
  · rintro later rfl
    cases solid

theorem lines_append_lineFeed (unbroken : ∀ c ∈ line, isLineBreak c = false) (rest : List Char) :
    lines (line ++ '\n' :: rest) = line :: lines rest := by
  induction line with
  | nil => exact lines_lineFeed rest
  | cons c line hypothesis =>
      rw [List.cons_append, lines_cons (unbroken c List.mem_cons_self), hypothesis]
      intro other member
      exact unbroken other (List.mem_cons_of_mem _ member)

theorem lines_last (unbroken : ∀ c ∈ line, isLineBreak c = false) (nonempty : line ≠ []) :
    lines line = [line] := by
  induction line with
  | nil => exact absurd rfl nonempty
  | cons c line hypothesis =>
      rw [lines_cons (unbroken c List.mem_cons_self)]
      cases line with
      | nil => rfl
      | cons next line =>
          rw [hypothesis (fun other member => unbroken other (List.mem_cons_of_mem _ member))
            (by simp)]

theorem lines_intercalate
    (unbroken : ∀ text ∈ texts, text ≠ [] ∧ ∀ c ∈ text, isLineBreak c = false) :
    lines (['\n'].intercalate texts) = texts := by
  induction texts with
  | nil => rfl
  | cons text others hypothesis =>
      obtain ⟨nonempty, first⟩ := unbroken text List.mem_cons_self
      have later := hypothesis fun other member =>
        unbroken other (List.mem_cons_of_mem _ member)
      cases others with
      | nil => rw [List.intercalate_singleton, lines_last first nonempty]
      | cons next others =>
          rw [List.intercalate_cons_cons, List.append_assoc, List.singleton_append,
            lines_append_lineFeed first, later]

/-- A draft that has met nothing but steps. -/
def Draft.ofSteps (steps : List Step) : Draft :=
  { openBlock := if steps = [] then none else some (.once, steps.reverse) }

theorem Draft.addStep_ofSteps (earlier : List Step) (number : Nat) (step : Step) :
    (Draft.ofSteps earlier).addStep number ⟨some step, none⟩ = Draft.ofSteps (earlier ++ [step]) := by
  cases earlier with
  | nil => rfl
  | cons first rest => simp [Draft.ofSteps, Draft.addStep, Draft.note, Draft.push]

theorem Draft.finish_ofSteps (steps : List Step) :
    (Draft.ofSteps steps).finish = ⟨[⟨.once, steps⟩], []⟩ := by
  cases steps with
  | nil => rfl
  | cons first rest => simp [Draft.ofSteps, Draft.finish, Draft.close]

/-- Lines of steps add their steps one after another. -/
theorem readLines_render {steps : List Step} (faithful : ∀ step ∈ steps, step.IsFaithful)
    (earlier : List Step) (number : Nat) :
    readLines [] (Draft.ofSteps earlier) number (steps.map fun step => step.render.toList) =
      .ok (Draft.ofSteps (earlier ++ steps)) := by
  induction steps generalizing earlier number with
  | nil => rw [List.append_nil]; rfl
  | cons step rest hypothesis =>
      have first := faithful step List.mem_cons_self
      have later := hypothesis
        (fun other member => faithful other (List.mem_cons_of_mem _ member)) (earlier ++ [step])
        (number + 1)
      simp only [List.map_cons, readLines, first.read_render, first.readStep_render,
        Draft.addStep_ofSteps, later, List.append_assoc, List.singleton_append]

/-- The text of steps that read back as they are is a script of one block, which runs once and has
exactly these steps, and nothing in it is irregular. -/
theorem parse_render (steps : List Step) (faithful : ∀ step ∈ steps, step.IsFaithful) :
    parse (String.intercalate "\n" (steps.map Step.render)) =
      .ok ⟨[⟨.times 1, steps⟩], []⟩ := by
  have lineTexts : lines (String.intercalate "\n" (steps.map Step.render)).toList =
      steps.map fun step => step.render.toList := by
    rw [String.toList_intercalate, List.map_map]
    apply lines_intercalate
    intro text member
    obtain ⟨step, inside, rfl⟩ := List.mem_map.mp member
    obtain ⟨first, rest, lineEq, _⟩ := (faithful step inside).render_eq_cons
    exact ⟨by simp [lineEq], (faithful step inside).unbroken_render⟩
  have read : readLines (Aliases.folded []) .start 0 (steps.map fun step => step.render.toList) =
      .ok (Draft.ofSteps steps) := readLines_render faithful [] 0
  rw [parse, lineTexts, read]
  exact congrArg Except.ok (Draft.finish_ofSteps steps)

/-- A step with a nested step, a text with a blank inside of brackets and a separator in a text, and a
bare name with a comma. -/
def sampleSteps : List Step :=
  [⟨"Move", [.step "Sum" [.token "1", .step "GetX" [], .token "a=b"], .token "a‹b c›d"]⟩,
    ⟨"Stop,#", []⟩]

theorem parse_render_sample :
    (∀ step ∈ sampleSteps, step.IsFaithful) ∧
      String.intercalate "\n" (sampleSteps.map Step.render) =
        "Move=Sum‹1 GetX‹› a=b› a‹b c›d\nStop,#" ∧
      parse (String.intercalate "\n" (sampleSteps.map Step.render)) =
        .ok ⟨[⟨.times 1, sampleSteps⟩], []⟩ := by
  have getX : (Argument.step "GetX" []).IsFaithful := .step (by decide) (by simp)
  have sum : (Argument.step "Sum" [.token "1", .step "GetX" [], .token "a=b"]).IsFaithful := by
    apply Argument.IsFaithful.step (by decide)
    simp only [List.forall_mem_cons]
    exact ⟨.token (by decide), getX, .token (by decide), nofun⟩
  have faithful : ∀ step ∈ sampleSteps, step.IsFaithful := by
    simp only [sampleSteps, List.forall_mem_cons]
    refine ⟨⟨by decide, ?_⟩, ⟨by decide, nofun⟩, nofun⟩
    simp only [List.forall_mem_cons]
    exact ⟨sum, .token (by decide), nofun⟩
  exact ⟨faithful, by decide, parse_render sampleSteps faithful⟩

end InputScript.Script
