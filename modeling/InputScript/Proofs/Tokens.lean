/-
Module: InputScript.Proofs.Tokens
Purpose: What becomes of an argument text.  To cut a text takes away nothing but blanks and commas; the
  tokens and nested steps that it is read as are written with all characters that are left, and what
  is written for them is read as the same tokens and nested steps again.
Main exports: residue, tokenize_rendered, tokenize_keeps_characters
-/
import InputScript.Proofs.RoundTrip

namespace InputScript.Script

open Text

/-! ### What separators leave -/

/-- The characters of a text that are neither blanks nor commas. -/
def residue (text : List Char) : List Char :=
  text.filter fun c => !(isBlank c || c == ',')

@[simp] theorem residue_append (first second : List Char) :
    residue (first ++ second) = residue first ++ residue second :=
  List.filter_append first second

variable {c : Char}

theorem residue_separator (separates : separatesArguments c = true) (rest : List Char) :
    residue (c :: rest) = residue rest := by
  apply List.filter_cons_of_neg
  rw [← separatesArguments, separates]
  decide

theorem residue_joins (joins : separatesArguments c = false) (rest : List Char) :
    residue (c :: rest) = c :: residue rest := by
  apply List.filter_cons_of_pos
  rw [← separatesArguments, joins]
  decide

/-- Blanks between texts leave nothing. -/
theorem residue_intercalate (texts : List (List Char)) :
    residue ([' '].intercalate texts) = residue texts.flatten := by
  induction texts with
  | nil => rfl
  | cons text others hypothesis =>
      cases others with
      | nil => simp
      | cons next others =>
          rw [List.intercalate_cons_cons, List.append_assoc, List.singleton_append, residue_append,
            residue_separator (by decide), hypothesis, ← residue_append, ← List.flatten_cons]

theorem not_bracket_of_separates (separates : separatesArguments c = true) :
    c ≠ openBracket ∧ c ≠ closeBracket := by
  constructor
  · rintro rfl
    exact absurd separates (by decide)
  · rintro rfl
    exact absurd separates (by decide)

theorem isBalancedFrom_residue (depth : Nat) (text : List Char) :
    isBalancedFrom depth (residue text) = isBalancedFrom depth text := by
  induction text generalizing depth with
  | nil => rfl
  | cons c rest hypothesis =>
      cases separates : separatesArguments c with
      | true =>
          obtain ⟨notOpen, notClose⟩ := not_bracket_of_separates separates
          rw [residue_separator separates, isBalancedFrom_plain depth rest notOpen notClose,
            hypothesis]
      | false =>
          rw [residue_joins separates]
          by_cases isOpen : c = openBracket
          · subst isOpen
            rw [isBalancedFrom_open, isBalancedFrom_open, hypothesis]
          · by_cases isClose : c = closeBracket
            · subst isClose
              cases depth with
              | zero => rw [isBalancedFrom_close_zero, isBalancedFrom_close_zero]
              | succ depth =>
                  rw [isBalancedFrom_close_succ, isBalancedFrom_close_succ, hypothesis]
            · rw [isBalancedFrom_plain depth _ isOpen isClose,
                isBalancedFrom_plain depth _ isOpen isClose, hypothesis]

/-- Whether brackets pair up does not depend on the separators between them. -/
theorem isBalanced_residue (text : List Char) : isBalanced (residue text) = isBalanced text :=
  isBalancedFrom_residue 0 text

/-! ### Pieces outside of brackets -/

theorem flatten_prepend (text : List Char) (pieces : List (List Char)) :
    (prepend text pieces).flatten = text ++ pieces.flatten := by
  cases pieces <;> simp [prepend]

theorem residue_splitOutside (depth : Nat) (text : List Char) :
    residue (splitOutside depth text).flatten = residue text := by
  induction text generalizing depth with
  | nil => rfl
  | cons c rest hypothesis =>
      cases cut : (depth == 0 && separatesArguments c) with
      | true =>
          rw [Bool.and_eq_true, beq_iff_eq] at cut
          obtain ⟨rfl, separates⟩ := cut
          rw [splitOutside_separator separates, residue_separator separates]
          exact hypothesis 0
      | false =>
          rw [splitOutside_joins cut, flatten_prepend, residue_append, hypothesis,
            ← residue_append, List.singleton_append]

/-- The pieces outside of brackets have all characters of the text but separators. -/
theorem residue_outerPieces (text : List Char) : residue (outerPieces text).flatten = residue text := by
  rw [outerPieces, List.flatten_filter_not_isEmpty, residue_splitOutside]

variable {text : List Char}

theorem solid_of_mem_prepend {pieces : List (List Char)} (solid : Solid text)
    (each : ∀ piece ∈ pieces, Solid piece) : ∀ piece ∈ prepend text pieces, Solid piece := by
  cases pieces with
  | nil => simpa [prepend] using solid
  | cons first others =>
      rw [List.forall_mem_cons] at each
      rw [prepend_cons, List.forall_mem_cons]
      exact ⟨solid.append each.1, each.2⟩

theorem solid_of_mem_splitOutside (balanced : Balanced text) :
    ∀ piece ∈ splitOutside 0 text, Solid piece := by
  induction balanced with
  | nil =>
      rw [splitOutside_nil, List.forall_mem_singleton]
      exact .nil
  | @plain c rest notOpen notClose _ hypothesis =>
      cases separates : separatesArguments c with
      | true =>
          rw [splitOutside_separator separates, List.forall_mem_cons]
          exact ⟨.nil, hypothesis⟩
      | false =>
          rw [splitOutside_joins (by simp [separates]), depthAfter_plain notOpen notClose]
          exact solid_of_mem_prepend (.plain notOpen notClose separates .nil) hypothesis
  | @group inner rest inside _ _ hypothesis =>
      have group : Solid (openBracket :: (inner ++ [closeBracket])) := .group inside .nil
      have split := splitOutside_solid group rest
      rw [List.cons_append, List.append_assoc, List.singleton_append] at split
      rw [split]
      exact solid_of_mem_prepend group hypothesis

variable {piece : List Char}

/-- The pieces outside of brackets have no separators outside of brackets, and none is empty. -/
theorem solid_of_mem_outerPieces (balanced : Balanced text) (member : piece ∈ outerPieces text) :
    Solid piece ∧ piece ≠ [] := by
  obtain ⟨inside, nonempty⟩ := List.mem_filter.mp member
  exact ⟨solid_of_mem_splitOutside balanced piece inside, by simpa using nonempty⟩

/-! ### Pieces between all separators -/

section Everywhere

variable {separates : Char → Bool}

theorem splitWhere_separator {c : Char} (isSeparator : separates c = true) (rest : List Char) :
    splitWhere separates (c :: rest) = [] :: splitWhere separates rest := by
  rw [splitWhere, if_pos isSeparator]

theorem splitWhere_joins {c : Char} (joins : separates c = false) (rest : List Char) :
    splitWhere separates (c :: rest) = prepend [c] (splitWhere separates rest) := by
  rw [splitWhere, if_neg (by simp [joins])]
  cases splitWhere separates rest <;> rfl

theorem splitWhere_ne_nil (text : List Char) : splitWhere separates text ≠ [] := by
  cases text with
  | nil => simp [splitWhere]
  | cons c rest =>
      cases kind : separates c with
      | true => simp [splitWhere_separator kind]
      | false =>
          rw [splitWhere_joins kind]
          cases splitWhere separates rest <;> simp [prepend]

variable {text : List Char}

theorem splitWhere_append (joins : ∀ c ∈ text, separates c = false) (rest : List Char) :
    splitWhere separates (text ++ rest) = prepend text (splitWhere separates rest) := by
  induction text with
  | nil => exact (prepend_nil (splitWhere_ne_nil _)).symm
  | cons c text hypothesis =>
      rw [List.forall_mem_cons] at joins
      rw [List.cons_append, splitWhere_joins joins.1, hypothesis joins.2, prepend_prepend]
      rfl

theorem joins_of_mem_splitWhere :
    ∀ piece ∈ splitWhere separates text, ∀ c ∈ piece, separates c = false := by
  induction text with
  | nil => simp [splitWhere]
  | cons c rest hypothesis =>
      cases kind : separates c with
      | true =>
          rw [splitWhere_separator kind, List.forall_mem_cons]
          exact ⟨List.forall_mem_nil _, hypothesis⟩
      | false =>
          rw [splitWhere_joins kind]
          cases split : splitWhere separates rest with
          | nil => simpa [prepend] using kind
          | cons first others =>
              rw [split, List.forall_mem_cons] at hypothesis
              rw [prepend_cons, List.singleton_append, List.forall_mem_cons, List.forall_mem_cons]
              exact ⟨⟨kind, hypothesis.1⟩, hypothesis.2⟩

/-- There are no separators in the pieces between all separators, and no piece is empty. -/
theorem joins_of_mem_pieces {piece : List Char} (member : piece ∈ pieces separates text) :
    (∀ c ∈ piece, separates c = false) ∧ piece ≠ [] := by
  obtain ⟨inside, nonempty⟩ := List.mem_filter.mp member
  exact ⟨joins_of_mem_splitWhere piece inside, by simpa using nonempty⟩

/-- Texts without separators, with blanks between them, are the pieces between all separators. -/
theorem pieces_intercalate {texts : List (List Char)} (blank : separates ' ' = true)
    (joins : ∀ text ∈ texts, (∀ c ∈ text, separates c = false) ∧ text ≠ []) :
    pieces separates ([' '].intercalate texts) = texts := by
  induction texts with
  | nil => rfl
  | cons text others hypothesis =>
      rw [List.forall_mem_cons] at joins
      obtain ⟨⟨joinsText, nonempty⟩, joinsOthers⟩ := joins
      cases others with
      | nil =>
          have split := splitWhere_append joinsText []
          rw [List.append_nil] at split
          simp [pieces, split, splitWhere, nonempty]
      | cons next others =>
          rw [List.intercalate_cons_cons, List.append_assoc, List.singleton_append, pieces,
            splitWhere_append joinsText, splitWhere_separator blank, prepend_cons, List.append_nil,
            List.filter_cons_of_pos (by simp [nonempty])]
          exact congrArg (text :: ·) (hypothesis joinsOthers)

end Everywhere

theorem residue_splitWhere (text : List Char) :
    residue (splitWhere separatesArguments text).flatten = residue text := by
  induction text with
  | nil => rfl
  | cons c rest hypothesis =>
      cases kind : separatesArguments c with
      | true =>
          rw [splitWhere_separator kind, residue_separator kind]
          exact hypothesis
      | false =>
          rw [splitWhere_joins kind, flatten_prepend, residue_append, hypothesis,
            ← residue_append, List.singleton_append]

/-- The pieces between all separators have all characters of the text but separators. -/
theorem residue_pieces (text : List Char) :
    residue (pieces separatesArguments text).flatten = residue text := by
  rw [pieces, List.flatten_filter_not_isEmpty, residue_splitWhere]

/-! ### What a piece is read as -/

/-- A piece is a token as it stands, or a name with a balanced text in brackets, which is a nested
step with the arguments of that text. -/
theorem toArgument_cases (piece : List Char) :
    toArgument [] piece = .token (String.ofList piece) ∨
      ∃ name inner, IsNestedName name ∧ Balanced inner ∧
        piece = name ++ openBracket :: (inner ++ [closeBracket]) ∧
        toArgument [] piece =
          .step (String.ofList name) ((outerPieces inner).map (toArgument [])) := by
  cases parts : nestedParts? piece with
  | none =>
      left
      simp only [toArgument, parts]
  | some found =>
      obtain ⟨name, inner⟩ := found
      by_cases balanced : isBalanced inner = true
      · right
        obtain ⟨nonempty, characters, rfl⟩ := nestedParts?_eq_some.mp parts
        have named := isNestedName_iff.mpr ⟨nonempty, characters⟩
        refine ⟨name, inner, named, isBalanced_iff.mp balanced, rfl, ?_⟩
        rw [named.toArgument_group (isBalanced_iff.mp balanced), tokenize_of_balanced balanced]
        rfl
      · left
        simp only [toArgument, parts, if_neg balanced]

/-- Induction along the nesting of brackets: a piece that is read as a token, and a piece that is read
as a nested step, for the pieces of whose bracketed text the statement holds already. -/
@[elab_as_elim] theorem piece_induction {motive : List Char → Prop}
    (token : ∀ piece, Solid piece → piece ≠ [] →
      toArgument [] piece = .token (String.ofList piece) → motive piece)
    (step : ∀ name inner, IsNestedName name → Balanced inner →
      toArgument [] (name ++ openBracket :: (inner ++ [closeBracket])) =
        .step (String.ofList name) ((outerPieces inner).map (toArgument [])) →
      (∀ piece ∈ outerPieces inner, motive piece) →
      motive (name ++ openBracket :: (inner ++ [closeBracket]))) (solid : Solid piece)
    (nonempty : piece ≠ []) : motive piece := by
  induction size : piece.length using Nat.strong_induction_on generalizing piece with
  | _ length hypothesis =>
      rcases toArgument_cases piece with plain | ⟨name, inner, named, balanced, rfl, nested⟩
      · exact token piece solid nonempty plain
      · refine step name inner named balanced nested fun deeper member => ?_
        obtain ⟨solidDeeper, someDeeper⟩ := solid_of_mem_outerPieces balanced member
        have bound := length_le_of_mem_outerPieces member
        refine hypothesis deeper.length ?_ solidDeeper someDeeper rfl
        simp only [List.length_append, List.length_cons] at size
        omega

theorem textsOf_map (pieces : List (List Char)) (read : List Char → Argument) :
    textsOf (pieces.map read) = pieces.map fun piece => (read piece).render.toList := by
  induction pieces with
  | nil => rfl
  | cons piece rest hypothesis =>
      rw [List.map_cons, List.map_cons, ← hypothesis]
      rfl

theorem textsOf_tokens (pieces : List (List Char)) :
    textsOf (pieces.map fun piece => .token (String.ofList piece)) = pieces := by
  rw [textsOf_map]
  simp [Argument.render]

theorem toList_intercalate_renderAll (arguments : List Argument) :
    (String.intercalate " " (Argument.renderAll arguments)).toList =
      [' '].intercalate (textsOf arguments) := by
  rw [String.toList_intercalate, textsOf]
  rfl

/-! ### Characters -/

theorem residue_flatten_congr {pieces : List (List Char)} {change : List Char → List Char}
    (each : ∀ piece ∈ pieces, residue (change piece) = residue piece) :
    residue (pieces.map change).flatten = residue pieces.flatten := by
  induction pieces with
  | nil => rfl
  | cons piece rest hypothesis =>
      rw [List.forall_mem_cons] at each
      simp [each.1, hypothesis each.2]

/-- A nested step and the text that it is read from have the same characters but separators. -/
theorem residue_render (solid : Solid piece) (nonempty : piece ≠ []) :
    residue (toArgument [] piece).render.toList = residue piece := by
  refine piece_induction ?token ?step solid nonempty
  case token =>
    intro piece _ _ plain
    rw [plain, Argument.render, String.toList_ofList]
  case step =>
    intro name inner _ _ nested each
    have inside : residue (textsOf ((outerPieces inner).map (toArgument []))).flatten =
        residue inner := by
      rw [textsOf_map, ← residue_outerPieces inner]
      exact residue_flatten_congr each
    rw [nested, toList_render_step, String.toList_ofList]
    simp only [residue_append, residue_joins bracket_joins, residue_intercalate, inside]

theorem residue_textsOf_tokenize (text : List Char) :
    residue (textsOf (tokenize [] text)).flatten = residue text := by
  cases balanced : isBalanced text with
  | true =>
      rw [tokenize_of_balanced balanced, textsOf_map, ← residue_outerPieces text]
      apply residue_flatten_congr
      intro piece member
      obtain ⟨solid, nonempty⟩ := solid_of_mem_outerPieces (isBalanced_iff.mp balanced) member
      exact residue_render solid nonempty
  | false => rw [tokenize_of_unbalanced balanced, textsOf_tokens, residue_pieces]

/-- A token of an argument, at any depth. -/
inductive Argument.HasToken (token : String) : Argument → Prop where
  | here : HasToken token (.token token)
  | inside {name : String} {arguments : List Argument} {argument : Argument}
      (member : argument ∈ arguments) (deeper : HasToken token argument) :
      HasToken token (.step name arguments)

theorem solid_of_hasToken (solid : Solid piece) (nonempty : piece ≠ []) (token : String) :
    (toArgument [] piece).HasToken token → Solid token.toList := by
  refine piece_induction ?token ?step solid nonempty
  case token =>
    intro piece solid _ plain found
    rw [plain] at found
    cases found with
    | here => rwa [String.toList_ofList]
  case step =>
    intro name inner _ _ nested each found
    rw [nested] at found
    cases found with
    | inside member deeper =>
        obtain ⟨piece, inPieces, rfl⟩ := List.mem_map.mp member
        exact each piece inPieces deeper

/-- Read as arguments, a text keeps all its characters but blanks and commas, in their order.  In a
balanced text the tokens, at any depth, have blanks and commas only inside of brackets; in a text
whose brackets do not pair up they have none. -/
theorem tokenize_keeps_characters (text : List Char) :
    residue ((Argument.renderAll (tokenize [] text)).flatMap String.toList) = residue text ∧
      ∀ argument ∈ tokenize [] text, ∀ token, argument.HasToken token →
        (Balanced text → Solid token.toList) ∧
        (¬ Balanced text → ∀ c ∈ token.toList, isBlank c = false ∧ c ≠ ',') := by
  refine ⟨residue_textsOf_tokenize text, ?_⟩
  intro argument member token found
  constructor
  · intro balanced
    rw [tokenize_of_balanced (isBalanced_iff.mpr balanced)] at member
    obtain ⟨piece, inPieces, rfl⟩ := List.mem_map.mp member
    obtain ⟨solid, nonempty⟩ := solid_of_mem_outerPieces balanced inPieces
    exact solid_of_hasToken solid nonempty token found
  · intro unbalanced
    rw [← isBalanced_iff, Bool.not_eq_true] at unbalanced
    rw [tokenize_of_unbalanced unbalanced] at member
    obtain ⟨piece, inPieces, rfl⟩ := List.mem_map.mp member
    cases found with
    | here =>
        intro c inside
        rw [String.toList_ofList] at inside
        have joins := (joins_of_mem_pieces inPieces).1 c inside
        simpa [separatesArguments] using joins

/-! ### Reading what was written -/

/-- What is written for the argument of a piece is one piece, which is read as that argument. -/
theorem toArgument_rendered (solid : Solid piece) (nonempty : piece ≠ []) :
    (Solid (toArgument [] piece).render.toList ∧ (toArgument [] piece).render.toList ≠ []) ∧
      toArgument [] (toArgument [] piece).render.toList = toArgument [] piece := by
  refine piece_induction ?token ?step solid nonempty
  case token =>
    intro piece solid nonempty plain
    rw [plain, Argument.render, String.toList_ofList]
    exact ⟨⟨solid, nonempty⟩, plain⟩
  case step =>
    intro name inner named balanced nested each
    -- The arguments of the nested step are written with blanks between them.
    have separable : ∀ text ∈ textsOf ((outerPieces inner).map (toArgument [])),
        Solid text ∧ text ≠ [] := by
      rw [textsOf_map, List.forall_mem_map]
      exact fun piece member => (each piece member).1
    have readBack : (textsOf ((outerPieces inner).map (toArgument []))).map (toArgument []) =
        (outerPieces inner).map (toArgument []) := by
      rw [textsOf_map, List.map_map]
      exact List.map_congr_left fun piece member => (each piece member).2
    have joined : Balanced ([' '].intercalate (textsOf ((outerPieces inner).map (toArgument [])))) :=
      balanced_intercalate fun text member => (separable text member).1.balanced
    rw [nested, toList_render_step, String.toList_ofList]
    refine ⟨⟨named.isPiece.solid.append (.group joined .nil), by simp⟩, ?_⟩
    rw [named.toArgument_group joined, tokenize_intercalate [] separable, readBack]
    rfl

/-- What is written for the arguments of a text, with blanks between them, is read as these
arguments again. -/
theorem tokenize_rendered (text : List Char) :
    tokenize [] (String.intercalate " " (Argument.renderAll (tokenize [] text))).toList =
      tokenize [] text := by
  rw [toList_intercalate_renderAll]
  cases balanced : isBalanced text with
  | true =>
      have pieces {piece : List Char} (member : piece ∈ outerPieces text) :=
        solid_of_mem_outerPieces (isBalanced_iff.mp balanced) member
      rw [tokenize_of_balanced balanced, textsOf_map, tokenize_intercalate [], List.map_map]
      · refine List.map_congr_left fun piece member => ?_
        exact (toArgument_rendered (pieces member).1 (pieces member).2).2
      · rw [List.forall_mem_map]
        intro piece member
        exact (toArgument_rendered (pieces member).1 (pieces member).2).1
  | false =>
      have stillUnbalanced : isBalanced ([' '].intercalate (textsOf (tokenize [] text))) = false := by
        rw [← isBalanced_residue, residue_intercalate, residue_textsOf_tokenize, isBalanced_residue,
          balanced]
      rw [tokenize_of_unbalanced stillUnbalanced, tokenize_of_unbalanced balanced, textsOf_tokens,
        pieces_intercalate (by decide) fun piece member => joins_of_mem_pieces member]

end InputScript.Script
