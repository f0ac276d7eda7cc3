/-
Module: InputScript.Proofs.Renaming
Purpose: Aliases rename actions and do nothing else.  A script read with aliases is the script read
  without them in which every name of a step, nested ones included, has been looked up once.
Main exports: Argument.rename, Step.rename, Program.rename, parse_rename
-/
import InputScript.Proofs.Folding
import InputScript.Script.Parse
import Mathlib.Data.Nat.Init

namespace InputScript.Script

open Text

/-! ### Renaming the parts of a script -/

mutual

/-- Rename the steps of an argument; tokens stay as they are. -/
def Argument.rename (change : String → String) : Argument → Argument
  | .token text => .token text
  | .step name arguments => .step (change name) (Argument.renameAll change arguments)

/-- Rename the steps of several arguments. -/
def Argument.renameAll (change : String → String) : List Argument → List Argument
  | [] => []
  | argument :: rest => argument.rename change :: Argument.renameAll change rest

end

theorem Argument.renameAll_eq_map (change : String → String) (arguments : List Argument) :
    Argument.renameAll change arguments = arguments.map (Argument.rename change) := by
  induction arguments with
  | nil => rfl
  | cons argument rest hypothesis =>
      rw [Argument.renameAll, hypothesis, List.map_cons]

/-- Rename a step and all steps in it. -/
def Step.rename (change : String → String) (step : Step) : Step :=
  ⟨change step.name, step.arguments.map (Argument.rename change)⟩

/-- Rename the steps of a block. -/
def Block.rename (change : String → String) (block : Block) : Block :=
  ⟨block.repetition, block.steps.map (Step.rename change)⟩

/-- Rename the steps of a program. -/
def Program.rename (change : String → String) (program : Program) : Program :=
  ⟨program.blocks.map (Block.rename change), program.anomalies⟩

/-! ### What a name is changed to -/

namespace Aliases

/-- The action of the last alias that is equal to a name up to letter case. -/
def target? (aliases : Aliases) (name : String) : Option String :=
  (aliases.reverse.find? (sameFolded ·.1 name)).map (·.2)

/-- What stands for a name: the action of its alias, or the name itself. -/
def renamed (aliases : Aliases) (name : String) : String :=
  (aliases.target? name).getD name

theorem target?_congr (aliases : Aliases) {first second : String}
    (same : sameFolded first second = true) : aliases.target? first = aliases.target? second := by
  rw [sameFolded, beq_iff_eq] at same
  simp only [target?, sameFolded, same]

theorem get?_folded (aliases : Aliases) (name : String) :
    Dictionary.get? aliases.folded (Text.folded name) = aliases.target? name := by
  rw [folded, Dictionary.get?_ofPairs, ← List.map_reverse, Dictionary.get?, List.find?_map,
    Option.map_map]
  rfl

/-- Every key of the folded aliases is a folded text. -/
theorem folded_key {aliases : Aliases} {entry : String × String} (member : entry ∈ aliases.folded) :
    Text.folded entry.1 = entry.1 := by
  obtain ⟨pair, inside, same⟩ := Dictionary.fst_of_mem_ofPairs member
  obtain ⟨original, _, rfl⟩ := List.mem_map.mp inside
  rw [← same, folded_folded]

theorem find?_folded (aliases : Aliases) (name : String) :
    aliases.folded.find? (sameFolded ·.1 name) =
      aliases.folded.find? (·.1 == Text.folded name) := by
  rw [← List.head?_filter, ← List.head?_filter]
  apply congrArg List.head?
  apply List.filter_congr
  intro entry member
  rw [sameFolded, folded_key member]

/-- A name that is a key as it is written is a folded text. -/
theorem folded_of_get? {aliases : Aliases} {name action : String}
    (found : Dictionary.get? aliases.folded name = some action) : Text.folded name = name := by
  obtain ⟨entry, entryFound, _⟩ := Option.map_eq_some_iff.mp found
  have key : entry.1 = name := by simpa using List.find?_some entryFound
  have settled := folded_key (List.mem_of_find?_eq_some entryFound)
  rwa [key] at settled

/-- The exact look-up and the look-up without regard to letter case agree on folded aliases. -/
theorem expand_folded (aliases : Aliases) (name : String) :
    aliases.folded.expand name = aliases.renamed name := by
  rw [expand, renamed, ← get?_folded]
  cases exact : Dictionary.get? aliases.folded name with
  | some action => rw [folded_of_get? exact, exact]; rfl
  | none =>
      rw [find?_folded, Dictionary.get?]
      cases aliases.folded.find? (·.1 == Text.folded name) <;> rfl

theorem expand_nil (name : String) : expand [] name = name := rfl

end Aliases

/-! ### Reading arguments -/

section Reading

variable (aliases : Aliases)

theorem toArgument_rename {piece : List Char}
    (inside : ∀ inner : List Char, inner.length < piece.length →
      tokenize aliases inner = (tokenize [] inner).map (Argument.rename aliases.expand)) :
    toArgument aliases piece = (toArgument [] piece).rename aliases.expand := by
  rw [toArgument, toArgument]
  cases parts : nestedParts? piece with
  | none => rfl
  | some found =>
      obtain ⟨name, inner⟩ := found
      dsimp only
      split
      · rw [Argument.rename, Argument.renameAll_eq_map, Aliases.expand_nil,
          inside inner (nestedParts?_length parts)]
      · rfl

/-- Aliases change the names of nested steps and leave the tokens. -/
theorem tokenize_rename (text : List Char) :
    tokenize aliases text = (tokenize [] text).map (Argument.rename aliases.expand) := by
  induction size : text.length using Nat.strong_induction_on generalizing text with
  | _ length hypothesis =>
      subst size
      by_cases balanced : isBalanced text = true
      · rw [tokenize_of_balanced balanced, tokenize_of_balanced balanced, List.map_map]
        apply List.map_congr_left
        intro piece member
        apply toArgument_rename
        intro inner shorter
        have within := length_le_of_mem_outerPieces member
        exact hypothesis inner.length (by omega) inner rfl
      · have unbalanced := Bool.eq_false_iff.mpr balanced
        rw [tokenize_of_unbalanced unbalanced, tokenize_of_unbalanced unbalanced, List.map_map]
        rfl

/-! ### Reading lines -/

/-- Rename the step of a line. -/
def StepReading.rename (change : String → String) (reading : StepReading) : StepReading :=
  ⟨reading.step.map (Step.rename change), reading.irregularity⟩

theorem readStep_rename (line : List Char) :
    readStep aliases line = (readStep [] line).rename aliases.expand := by
  rw [readStep, readStep]
  split
  · rfl
  · simp only [StepReading.rename, Step.rename, Option.map_some, tokenize_rename aliases,
      Aliases.expand_nil]

/-- Rename the steps of a draft. -/
def Draft.rename (change : String → String) (draft : Draft) : Draft where
  blocks := draft.blocks.map (Block.rename change)
  anomalies := draft.anomalies
  openBlock := draft.openBlock.map fun (repetition, steps) =>
    (repetition, steps.map (Step.rename change))

end Reading

namespace Draft

variable (change : String → String) (draft : Draft)

theorem rename_note (line : Nat) (irregularity : Option Irregularity) :
    (draft.note line irregularity).rename change = (draft.rename change).note line irregularity := by
  cases irregularity <;> rfl

theorem rename_close : draft.close.rename change = (draft.rename change).close := by
  obtain ⟨blocks, anomalies, openBlock⟩ := draft
  cases openBlock with
  | none => rfl
  | some block => simp [close, rename, Block.rename]

theorem rename_push (step : Step) :
    (draft.push step).rename change = (draft.rename change).push (step.rename change) := by
  obtain ⟨blocks, anomalies, openBlock⟩ := draft
  cases openBlock <;> rfl

theorem rename_begin (line : Nat) (argument : List Char) (repetition : Option Repetition) :
    (draft.begin line argument repetition).rename change =
      (draft.rename change).begin line argument repetition := by
  cases repetition with
  | some repetition =>
      dsimp only [begin]
      rw [← rename_close]
      rfl
  | none =>
      dsimp only [begin]
      rw [← rename_close, ← rename_note]
      rfl

theorem rename_addStep (line : Nat) (reading : StepReading) :
    (draft.addStep line reading).rename change =
      (draft.rename change).addStep line (reading.rename change) := by
  obtain ⟨step, irregularity⟩ := reading
  cases step with
  | none => exact rename_note change draft line irregularity
  | some step => exact (rename_push change _ step).trans (by rw [rename_note]; rfl)

theorem rename_finish : (draft.rename change).finish = draft.finish.rename change := by
  obtain ⟨blocks, anomalies, openBlock⟩ := draft
  cases openBlock <;> simp [finish, close, rename, Program.rename, Block.rename]

end Draft

theorem readLines_rename (aliases : Aliases) (draft : Draft) (number : Nat)
    (texts : List (List Char)) :
    readLines aliases (draft.rename aliases.expand) number texts =
      (readLines [] draft number texts).map (Draft.rename aliases.expand) := by
  induction texts generalizing draft number with
  | nil => rfl
  | cons raw rest hypothesis =>
      rw [readLines, readLines]
      cases Line.read raw with
      | empty => exact hypothesis draft (number + 1)
      | marker argument =>
          dsimp only
          cases readRepetition argument with
          | error refusal => rfl
          | ok repetition =>
              dsimp only
              rw [← Draft.rename_begin, hypothesis]
      | step line =>
          dsimp only
          rw [readStep_rename, ← Draft.rename_addStep, hypothesis]

/-! ### Reading a script -/

/-- A script read with aliases has the outcome, the blocks, the tokens, the anomalies and the log
lines of the script read without them; every name of a step, at any depth, is the action of the last
alias that is equal to it up to letter case, or unchanged if there is none.  Names that are equal up
to letter case have the same alias. -/
theorem parse_rename (text : String) (aliases : Aliases) :
    parse text aliases = (parse text).map (Program.rename aliases.renamed) ∧
      (anomaliesOf (parse text aliases)).map Anomaly.logLine =
        (anomaliesOf (parse text)).map Anomaly.logLine ∧
      ∀ first second, sameFolded first second = true →
        aliases.target? first = aliases.target? second := by
  have names : aliases.folded.expand = aliases.renamed := funext aliases.expand_folded
  have whole : parse text aliases = (parse text).map (Program.rename aliases.renamed) := by
    have read := readLines_rename aliases.folded .start 0 (lines text.toList)
    have plain : Aliases.folded [] = [] := rfl
    have untouched : Draft.rename aliases.folded.expand .start = .start := rfl
    rw [untouched] at read
    rw [parse, parse, plain, read, ← names]
    cases readLines [] .start 0 (lines text.toList) with
    | error failure => rfl
    | ok draft => exact congrArg Except.ok (Draft.rename_finish _ draft)
  refine ⟨whole, ?_, fun first second => aliases.target?_congr⟩
  rw [whole]
  cases parse text <;> rfl

/-- Of two aliases that differ in letter case the last one counts, and its action is not looked up
again. -/
example :
    Aliases.renamed [("Go", "Move"), ("GO", "Turn"), ("turn", "Stop")] "go" = "Turn" := by decide

end InputScript.Script
