/-
Module: InputScript.Proofs.Outline
Purpose: The blocks of a script are the sections of its lines.  The lines that count are cut at the
  loop markers; every section is one block with one step for each of its step lines, and so no step
  is lost, doubled or moved.
Main exports: significantLines, Outline, outlineOf, parse_outline
-/
import InputScript.Proofs.Decimals
import InputScript.Proofs.Trimming
import InputScript.Script.Parse
import Mathlib.Data.List.Forall2

namespace InputScript.Script

open Text Number

/-! ### Lines by their roles -/

/-- A trimmed line that counts: not blank and no comment. -/
def isSignificant (line : List Char) : Bool :=
  line != [] && line.head? != some commentMark

/-- The lines that count among some lines. -/
def significant (texts : List (List Char)) : List (List Char) :=
  (texts.map trim).filter isSignificant

/-- The lines of a script that count. -/
def significantLines (text : String) : List (List Char) :=
  significant (lines text.toList)

/-- A line whose name is the loop keyword. -/
def isMarkerLine (line : List Char) : Bool :=
  fold (splitLine line).1 == "while".toList

/-- A line with a name that is not the loop keyword. -/
def isStepLine (line : List Char) : Bool :=
  !isMarkerLine line && (splitLine line).1 != []

variable {raw : List Char}

theorem read_empty (insignificant : isSignificant (trim raw) = false) :
    Line.read raw = .empty := by
  rw [Line.read]
  cases line : trim raw with
  | nil => rfl
  | cons first rest =>
      have comment : first = commentMark := by simpa [isSignificant, line] using insignificant
      simp [comment]

theorem read_significant (counts : isSignificant (trim raw) = true) :
    Line.read raw =
      if isMarkerLine (trim raw) then .marker (splitLine (trim raw)).2 else .step (trim raw) := by
  rw [Line.read]
  cases line : trim raw with
  | nil => simp [isSignificant, line] at counts
  | cons first rest =>
      have noComment : first ≠ commentMark := by simpa [isSignificant, line] using counts
      simp [noComment, isLoopMarker, fold_loopKeyword, isMarkerLine]

theorem significant_cons_of_pos (counts : isSignificant (trim raw) = true)
    (rest : List (List Char)) : significant (raw :: rest) = trim raw :: significant rest :=
  List.filter_cons_of_pos counts

theorem significant_cons_of_neg (insignificant : isSignificant (trim raw) = false)
    (rest : List (List Char)) : significant (raw :: rest) = significant rest :=
  List.filter_cons_of_neg (by simp [insignificant])

/-! ### Outlines -/

/-- A loop marker and the lines from it to the next one. -/
structure Section where
  marker : List Char
  body : List (List Char)

/-- All lines of a section. -/
def Section.lines (part : Section) : List (List Char) :=
  part.marker :: part.body

/-- Lines cut at the loop markers among them. -/
structure Outline (texts : List (List Char)) where
  /-- The lines before the first marker. -/
  preface : List (List Char)
  sections : List Section
  whole : preface ++ sections.flatMap Section.lines = texts
  preface_plain : ∀ line ∈ preface, isMarkerLine line = false
  marked : ∀ part ∈ sections, isMarkerLine part.marker = true
  body_plain : ∀ part ∈ sections, ∀ line ∈ part.body, isMarkerLine line = false

namespace Outline

variable {texts : List (List Char)} {line : List Char}

/-- The outline of no lines. -/
def nil : Outline [] :=
  ⟨[], [], rfl, nofun, nofun, nofun⟩

/-- A marker begins a section with what was the preface. -/
def consMarker (outline : Outline texts) (isMarker : isMarkerLine line = true) :
    Outline (line :: texts) where
  preface := []
  sections := ⟨line, outline.preface⟩ :: outline.sections
  whole := by simp [Section.lines, outline.whole]
  preface_plain := nofun
  marked := List.forall_mem_cons.mpr ⟨isMarker, outline.marked⟩
  body_plain := List.forall_mem_cons.mpr ⟨outline.preface_plain, outline.body_plain⟩

/-- Any other line belongs to the preface. -/
def consPlain (outline : Outline texts) (plain : isMarkerLine line = false) :
    Outline (line :: texts) where
  preface := line :: outline.preface
  sections := outline.sections
  whole := by simp [outline.whole]
  preface_plain := List.forall_mem_cons.mpr ⟨plain, outline.preface_plain⟩
  marked := outline.marked
  body_plain := outline.body_plain

end Outline

/-- The outline of some lines. -/
def outlineOf : (texts : List (List Char)) → Outline texts
  | [] => .nil
  | line :: rest =>
    if isMarker : isMarkerLine line = true then (outlineOf rest).consMarker isMarker
    else (outlineOf rest).consPlain (Bool.eq_false_iff.mpr isMarker)

variable {line : List Char}

theorem outlineOf_marker (isMarker : isMarkerLine line = true) (rest : List (List Char)) :
    outlineOf (line :: rest) = (outlineOf rest).consMarker isMarker := by
  rw [outlineOf, dif_pos isMarker]

theorem outlineOf_plain (plain : isMarkerLine line = false) (rest : List (List Char)) :
    outlineOf (line :: rest) = (outlineOf rest).consPlain plain := by
  rw [outlineOf, dif_neg (by simp [plain])]

/-! ### What a section says -/

/-- The range of the counts that are taken: those of 32 bits. -/
def IsCount (count : Int) : Prop :=
  -2147483648 ≤ count ∧ count < 2147483648

/-- How often the block of a marker is run, by the argument of the marker: a truth value in any letter
case, a decimal count in range, or anything else. -/
inductive Announces (argument : List Char) : Repetition → Prop where
  | forever (word : fold argument = "true".toList) : Announces argument .forever
  | never (word : fold argument = "false".toList) : Announces argument (.times 0)
  | count {negative : Bool} {digits : List Char} (decimal : IsDecimal argument negative digits)
      (inRange : IsCount (signed negative (decimalValue digits))) :
      Announces argument (.times (signed negative (decimalValue digits)))
  | otherwise (notTrue : fold argument ≠ "true".toList) (notFalse : fold argument ≠ "false".toList)
      (noCount : ∀ negative digits, IsDecimal argument negative digits →
        ¬ IsCount (signed negative (decimalValue digits))) :
      Announces argument (.times 1)

/-- The step of a step line. -/
def stepOf (aliases : Aliases) (line : List Char) : Step :=
  ⟨aliases.expand (String.ofList (stepParts line).1), tokenize aliases (stepParts line).2⟩

/-- The steps of the step lines among some lines. -/
def stepsOf (aliases : Aliases) (texts : List (List Char)) : List Step :=
  (texts.filter isStepLine).map (stepOf aliases)

/-- The block of a section. -/
structure Section.Makes (aliases : Aliases) (part : Section) (block : Block) : Prop where
  announced : Announces (splitLine part.marker).2 block.repetition
  steps_eq : block.steps = stepsOf aliases part.body

/-- The lines before the first marker are a block that runs once if there is a step among them or no
marker at all. -/
def Outline.prefaceBlocks {texts : List (List Char)} (outline : Outline texts) (aliases : Aliases) :
    List Block :=
  if outline.preface.any isStepLine || outline.sections.isEmpty then
    [⟨.times 1, stepsOf aliases outline.preface⟩]
  else []

theorem word_eq_iff {text : List Char} {word : String} :
    (String.ofList text == word) = true ↔ text = word.toList := by
  rw [beq_iff_eq]
  constructor
  · rintro rfl
    exact String.toList_ofList.symm
  · rintro rfl
    exact String.ofList_toList

theorem isCount_iff {count : Int} :
    (leastCount ≤ count && count < countLimit) = true ↔ IsCount count := by
  have least : leastCount = -2147483648 := by decide
  have limit : countLimit = 2147483648 := by decide
  rw [IsCount, least, limit, Bool.and_eq_true, decide_eq_true_eq, decide_eq_true_eq]

variable {repetition : Option Repetition}

/-- A decimal argument announces its count or, if that is out of range, one pass. -/
theorem announces_of_decimal {argument digits : List Char} {negative : Bool}
    (notTrue : fold argument ≠ "true".toList) (notFalse : fold argument ≠ "false".toList)
    (decimal : IsDecimal argument negative digits)
    (read : ((limitedDecimal negative digits).map fun count =>
      if leastCount ≤ count && count < countLimit then some (.times count) else none) =
        .ok repetition) :
    Announces argument (repetition.getD .once) := by
  rw [limitedDecimal] at read
  split at read
  · cases read
  · simp only [Except.map, Except.ok.injEq] at read
    split at read
    · next inRange =>
        subst read
        exact .count decimal (isCount_iff.mp inRange)
    · next outOfRange =>
        subst read
        apply Announces.otherwise notTrue notFalse
        intro sign row other inRange
        have same := (signedDigits?_eq_some.mpr decimal).symm.trans (signedDigits?_eq_some.mpr other)
        cases same
        exact outOfRange (isCount_iff.mpr inRange)

/-- The repetition that is read from an argument, or one pass in its place, is what it announces. -/
theorem announces_of_readRepetition {argument : List Char} (trimmed : trim argument = argument)
    (read : readRepetition argument = .ok repetition) :
    Announces argument (repetition.getD .once) := by
  simp only [readRepetition, trimmed, word_eq_iff] at read
  split at read
  · next word =>
      cases read
      exact .forever word
  · next notTrue =>
      split at read
      · next word =>
          cases read
          exact .never word
      · next notFalse =>
          split at read
          · next noDigits =>
              cases read
              apply Announces.otherwise notTrue notFalse
              intro negative digits decimal
              exact absurd decimal (signedDigits?_eq_none.mp noDigits negative digits)
          · next negative digits found =>
              exact announces_of_decimal notTrue notFalse (signedDigits?_eq_some.mp found) read

/-! ### What the lines add to a draft -/

theorem stepsOf_cons (aliases : Aliases) (line : List Char) (rest : List (List Char)) :
    stepsOf aliases (line :: rest) =
      if isStepLine line then stepOf aliases line :: stepsOf aliases rest
      else stepsOf aliases rest := by
  rw [stepsOf, List.filter_cons]
  split <;> rfl

theorem stepsOf_append (aliases : Aliases) (first second : List (List Char)) :
    stepsOf aliases (first ++ second) = stepsOf aliases first ++ stepsOf aliases second := by
  rw [stepsOf, List.filter_append, List.map_append]
  rfl

theorem isEmpty_stepsOf (aliases : Aliases) (texts : List (List Char)) :
    (stepsOf aliases texts).isEmpty = !texts.any isStepLine := by
  induction texts with
  | nil => rfl
  | cons line rest hypothesis =>
      rw [stepsOf_cons]
      cases role : isStepLine line <;> simp [role, hypothesis]

/-- A line that is no marker adds its step, if it has one. -/
theorem step_readStep (plain : isMarkerLine line = false) (aliases : Aliases) :
    (readStep aliases line).step = if isStepLine line then some (stepOf aliases line) else none := by
  rw [readStep]
  cases named : (splitLine line).1 with
  | nil => simp [isStepLine, named]
  | cons c rest => simp [isStepLine, plain, named, stepOf]

namespace Draft

/-- The blocks that follow the finished ones up to the next marker, when lines with the given steps
come before it.  The flag says that there is no further marker. -/
def leading (draft : Draft) (steps : List Step) (isLast : Bool) : List Block :=
  match draft.openBlock with
  | some (repetition, earlier) => [⟨repetition, earlier.reverse ++ steps⟩]
  | none => if !steps.isEmpty || isLast then [⟨.once, steps⟩] else []

variable (draft : Draft) (number : Nat)

theorem blocks_finish : draft.finish.blocks = draft.blocks.reverse ++ draft.leading [] true := by
  obtain ⟨blocks, anomalies, openBlock⟩ := draft
  cases openBlock <;> simp [finish, close, leading]

@[simp] theorem blocks_note (irregularity : Option Irregularity) :
    (draft.note number irregularity).blocks = draft.blocks := by
  cases irregularity <;> rfl

@[simp] theorem leading_note (irregularity : Option Irregularity) :
    (draft.note number irregularity).leading = draft.leading := by
  cases irregularity <;> rfl

/-- A marker finishes the open block. -/
theorem blocks_close : draft.close.blocks.reverse = draft.blocks.reverse ++ draft.leading [] false := by
  obtain ⟨blocks, anomalies, openBlock⟩ := draft
  cases openBlock <;> simp [close, leading]

theorem blocks_begin (argument : List Char) (repetition : Option Repetition) :
    (draft.begin number argument repetition).blocks = draft.close.blocks := by
  cases repetition with
  | none => exact blocks_note _ _ _
  | some repetition => rfl

theorem leading_begin (argument : List Char) (repetition : Option Repetition) (steps : List Step)
    (isLast : Bool) :
    (draft.begin number argument repetition).leading steps isLast =
      [⟨repetition.getD .once, steps⟩] := by
  cases repetition <;> rfl

theorem blocks_push (step : Step) : (draft.push step).blocks = draft.blocks := by
  obtain ⟨blocks, anomalies, openBlock⟩ := draft
  cases openBlock <;> rfl

theorem leading_push (step : Step) (steps : List Step) (isLast : Bool) :
    (draft.push step).leading steps isLast = draft.leading (step :: steps) isLast := by
  obtain ⟨blocks, anomalies, openBlock⟩ := draft
  cases openBlock <;> simp [push, leading]

theorem blocks_addStep (reading : StepReading) :
    (draft.addStep number reading).blocks = draft.blocks := by
  obtain ⟨step, irregularity⟩ := reading
  cases step with
  | none => exact blocks_note _ _ _
  | some step => exact (blocks_push _ _).trans (blocks_note _ _ _)

theorem leading_addStep (reading : StepReading) (steps : List Step) (isLast : Bool) :
    (draft.addStep number reading).leading steps isLast =
      draft.leading (reading.step.toList ++ steps) isLast := by
  obtain ⟨step, irregularity⟩ := reading
  cases step with
  | none => exact congrFun (congrFun (leading_note _ _ _) _) _
  | some step =>
      rw [addStep, leading_push, leading_note]
      rfl

end Draft

variable {texts : List (List Char)} {aliases : Aliases}

/-- Reading lines leaves the finished blocks, completes the open one with the lines before the first
marker, and makes one block of each section. -/
theorem readLines_blocks {draft after : Draft} {number : Nat}
    (read : readLines aliases draft number texts = .ok after) :
    ∃ marked, List.Forall₂ (Section.Makes aliases) (outlineOf (significant texts)).sections marked ∧
      after.finish.blocks = draft.blocks.reverse ++
        (draft.leading (stepsOf aliases (outlineOf (significant texts)).preface)
          (outlineOf (significant texts)).sections.isEmpty ++ marked) := by
  induction texts generalizing draft number with
  | nil =>
      cases read
      refine ⟨[], .nil, ?_⟩
      rw [List.append_nil]
      exact Draft.blocks_finish _
  | cons raw rest hypothesis =>
      rw [readLines] at read
      cases counts : isSignificant (trim raw) with
      | false =>
          rw [read_empty counts] at read
          rw [significant_cons_of_neg counts]
          exact hypothesis read
      | true =>
          rw [read_significant counts] at read
          rw [significant_cons_of_pos counts]
          cases role : isMarkerLine (trim raw) with
          | true =>
              simp only [role, if_true] at read
              rw [outlineOf_marker role]
              cases readEq : readRepetition (splitLine (trim raw)).2 with
              | error refusal =>
                  rw [readEq] at read
                  cases read
              | ok repetition =>
                  rw [readEq] at read
                  obtain ⟨marked, made, blocksEq⟩ := hypothesis read
                  have announced := announces_of_readRepetition (trim_trim _) readEq
                  refine ⟨⟨repetition.getD .once, _⟩ :: marked, .cons ⟨announced, rfl⟩ made, ?_⟩
                  rw [blocksEq, Draft.blocks_begin, Draft.leading_begin, Draft.blocks_close,
                    List.append_assoc]
                  rfl
          | false =>
              simp only [role] at read
              rw [outlineOf_plain role]
              obtain ⟨marked, made, blocksEq⟩ := hypothesis read
              refine ⟨marked, made, ?_⟩
              rw [blocksEq, Draft.blocks_addStep, Draft.leading_addStep, step_readStep role]
              simp only [Outline.consPlain, stepsOf_cons]
              cases isStepLine (trim raw) <;> rfl

/-! ### The blocks of a script -/

theorem Outline.prefaceBlocks_eq (outline : Outline texts) (aliases : Aliases) :
    outline.prefaceBlocks aliases =
      Draft.start.leading (stepsOf aliases outline.preface) outline.sections.isEmpty := by
  rw [prefaceBlocks, Draft.leading, isEmpty_stepsOf, Bool.not_not]
  rfl

theorem steps_marked {sections : List Section} {marked : List Block}
    (made : List.Forall₂ (Section.Makes aliases) sections marked)
    (markers : ∀ part ∈ sections, isMarkerLine part.marker = true) :
    marked.flatMap (·.steps) = stepsOf aliases (sections.flatMap Section.lines) := by
  induction made with
  | nil => rfl
  | @cons part block sections marked makes _ hypothesis =>
      have noStep : isStepLine part.marker = false := by
        simp [isStepLine, markers part List.mem_cons_self]
      have later := hypothesis fun other member =>
        markers other (List.mem_cons_of_mem _ member)
      rw [List.flatMap_cons, List.flatMap_cons, stepsOf_append, Section.lines, stepsOf_cons, noStep,
        makes.steps_eq, later]
      rfl

theorem Outline.steps_prefaceBlocks (outline : Outline texts) (aliases : Aliases) :
    (outline.prefaceBlocks aliases).flatMap (·.steps) = stepsOf aliases outline.preface := by
  rw [prefaceBlocks]
  split
  · exact List.append_nil _
  · next noBlock =>
      rw [Bool.or_eq_true, not_or, Bool.not_eq_true] at noBlock
      have noSteps := isEmpty_stepsOf aliases outline.preface
      rw [noBlock.1] at noSteps
      exact (List.isEmpty_iff.mp noSteps).symm

theorem parse_eq_ok {text : String} {program : Program}
    (accepted : parse text aliases = .ok program) :
    ∃ draft, readLines aliases.folded .start 0 (lines text.toList) = .ok draft ∧
      draft.finish = program := by
  rw [parse] at accepted
  cases read : readLines aliases.folded .start 0 (lines text.toList) with
  | error failure =>
      rw [read] at accepted
      cases accepted
  | ok draft =>
      rw [read] at accepted
      cases accepted
      exact ⟨draft, rfl, rfl⟩

/-- The blocks of a script that can be read are one for the lines before the first marker, if there is
a step among them or no marker at all, and then one for each marker, with the repetition that the
marker announces.  The steps of a block are those of its step lines in the order of the lines, so all
steps of the script are those of all its step lines. -/
theorem parse_outline {text : String} {aliases : Aliases} {program : Program}
    (accepted : parse text aliases = .ok program) :
    (∃ marked,
      program.blocks =
        (outlineOf (significantLines text)).prefaceBlocks aliases.folded ++ marked ∧
      List.Forall₂ (Section.Makes aliases.folded) (outlineOf (significantLines text)).sections
        marked) ∧
      program.steps = stepsOf aliases.folded (significantLines text) ∧
      program.stepCount = (significantLines text).countP isStepLine := by
  obtain ⟨draft, read, rfl⟩ := parse_eq_ok accepted
  obtain ⟨marked, made, blocksEq⟩ := readLines_blocks read
  rw [← significantLines] at made blocksEq
  have outlined : draft.finish.blocks =
      (outlineOf (significantLines text)).prefaceBlocks aliases.folded ++ marked := by
    have noBlocks : Draft.start.blocks.reverse = [] := rfl
    rw [Outline.prefaceBlocks_eq, blocksEq, noBlocks, List.nil_append]
  have steps : draft.finish.steps = stepsOf aliases.folded (significantLines text) := by
    rw [Program.steps, outlined, List.flatMap_append, Outline.steps_prefaceBlocks,
      steps_marked made (outlineOf _).marked, ← stepsOf_append, Outline.whole]
  refine ⟨⟨marked, outlined, made⟩, steps, ?_⟩
  rw [Program.stepCount, steps, stepsOf, List.length_map, List.countP_eq_length_filter]

/-- A step before the first marker, a comment, a negative count, a line without a name, and a last
section without steps. -/
def sampleScript : String :=
  "Move = 1 Get‹7›\n#\nWHILE = -2\n Click \n=\nWhile = True"

/-- What that script says. -/
def sampleProgram : Program :=
  ⟨[⟨.times 1, [⟨"Move", [.token "1", .step "Get" [.token "7"]]⟩]⟩,
      ⟨.times (-2), [⟨"Click", []⟩]⟩, ⟨.forever, []⟩],
    [⟨4, .missingName "="⟩]⟩

theorem parse_outline_sample :
    parse sampleScript = .ok sampleProgram ∧
      (∃ marked,
        sampleProgram.blocks =
          (outlineOf (significantLines sampleScript)).prefaceBlocks (Aliases.folded []) ++ marked ∧
        List.Forall₂ (Section.Makes (Aliases.folded []))
          (outlineOf (significantLines sampleScript)).sections marked) ∧
      sampleProgram.steps = stepsOf (Aliases.folded []) (significantLines sampleScript) ∧
      sampleProgram.stepCount = (significantLines sampleScript).countP isStepLine := by
  have inner : tokenize [] "7".toList = [.token "7"] := by
    rw [tokenize_of_balanced (by decide)]
    rfl
  have move : tokenize [] "1 Get‹7›".toList = [.token "1", .step "Get" [.token "7"]] := by
    rw [tokenize_of_balanced (by decide), ← inner]
    rfl
  have click : tokenize [] [] = [] := by
    rw [tokenize_of_balanced (by decide)]
    rfl
  have accepted : parse sampleScript = .ok sampleProgram := by
    rw [sampleProgram, ← move, ← click]
    rfl
  have outlined := parse_outline accepted
  exact ⟨accepted, outlined⟩

end InputScript.Script
