/-
Module: InputScript.Proofs.Joining
Purpose: Scripts that are written one below the other.  The lines of the second script come after
  those of the first, a loop marker closes the block that is open at the seam, and so blocks and
  anomalies are joined, with the line numbers of the second script moved on.
Main exports: lines_append, Draft.join, readLines_join, parse_join
-/
import InputScript.Proofs.Outline
import InputScript.Proofs.RoundTrip

namespace InputScript.Script

open Text

/-! ### Lines below lines -/

theorem lines_break {c : Char} {rest : List Char} (breaks : isLineBreak c = true)
    (single : ∀ later, c = '\r' → rest ≠ '\n' :: later) : lines (c :: rest) = [] :: lines rest := by
  rw [lines, breaks]
  · rfl
  · intro later carriage feed
    exact single later carriage feed

variable {text : List Char}

theorem lines_ne_nil (nonempty : text ≠ []) : lines text ≠ [] := by
  fun_cases lines text with
  | case1 => exact absurd rfl nonempty
  | _ => simp

/-- A character that is no line break belongs to the first line of what follows it. -/
theorem lines_cons_append {c : Char} {rest : List Char} (solid : isLineBreak c = false)
    (splits : lines (text ++ '\n' :: rest) = lines (text ++ ['\n']) ++ lines rest) :
    lines (c :: text ++ '\n' :: rest) = lines (c :: text ++ ['\n']) ++ lines rest := by
  rw [List.cons_append, List.cons_append, lines_cons solid, lines_cons solid, splits]
  cases first : lines (text ++ ['\n']) with
  | nil => exact absurd first (lines_ne_nil (by simp))
  | cons line more => rfl

theorem single_append {c next : Char}
    (single : ∀ later, c = '\r' → next :: text = '\n' :: later → False) (rest : List Char) :
    ∀ later, c = '\r' → next :: (text ++ rest) ≠ '\n' :: later := by
  intro later carriage equal
  cases equal
  exact single text carriage rfl

/-- A line feed ends a line, whatever stands before it and after it. -/
theorem lines_append (text rest : List Char) :
    lines (text ++ '\n' :: rest) = lines (text ++ ['\n']) ++ lines rest := by
  fun_induction lines text with
  | case1 => simp [lines_lineFeed, lines]
  | case2 text hypothesis => simp [lines, hypothesis]
  | case3 c text single breaks hypothesis =>
      cases text with
      | nil =>
          -- The added line feed is part of a carriage return at the end of the text.
          by_cases carriage : c = '\r'
          · simp [carriage, lines]
          · simp [lines_break breaks (fun _ equal => absurd equal carriage), lines_lineFeed, lines]
      | cons next text =>
          simp only [List.cons_append] at hypothesis ⊢
          rw [lines_break breaks (single_append single _),
            lines_break breaks (single_append single _), hypothesis]
          rfl
  | case4 c text single solid last hypothesis =>
      exact lines_cons_append (by simpa using solid) hypothesis
  | case5 c text single solid line more split hypothesis =>
      exact lines_cons_append (by simpa using solid) hypothesis

/-- A line feed at the end of a text adds at most an empty line. -/
theorem lines_append_feed (text : List Char) :
    lines (text ++ ['\n']) = lines text ∨ lines (text ++ ['\n']) = lines text ++ [[]] := by
  fun_induction lines text with
  | case1 => exact .inr rfl
  | case2 text hypothesis => simpa [lines] using hypothesis
  | case3 c text single breaks hypothesis =>
      cases text with
      | nil =>
          by_cases carriage : c = '\r'
          · simp [carriage, lines]
          · simp [lines_break breaks (fun _ equal => absurd equal carriage), lines_lineFeed, lines]
      | cons next text =>
          rw [List.cons_append, List.cons_append, lines_break breaks (single_append single _)]
          simpa using hypothesis
  | case4 c text single solid last hypothesis =>
      have ended : text = [] := by
        by_contra nonempty
        exact lines_ne_nil nonempty last
      subst ended
      rw [List.cons_append, lines_cons (by simpa using solid)]
      simp [lines_lineFeed, lines]
  | case5 c text single solid line more split hypothesis =>
      rw [List.cons_append, lines_cons (by simpa using solid)]
      rcases hypothesis with same | added
      · simp [same, split]
      · simp [added, split]

/-! ### Drafts after drafts -/

/-- The same anomaly with some lines written above it. -/
def Anomaly.moved (count : Nat) (anomaly : Anomaly) : Anomaly :=
  { anomaly with line := count + anomaly.line }

/-- What is known after a draft for the lines below some others, for which there is a draft already. -/
def Draft.join (front : Draft) (count : Nat) (draft : Draft) : Draft where
  blocks := draft.blocks ++ front.blocks
  anomalies := draft.anomalies.map (Anomaly.moved count) ++ front.anomalies
  openBlock := draft.openBlock

namespace Draft

variable (front draft : Draft) (count number : Nat)

theorem join_note (irregularity : Option Irregularity) :
    (front.join count draft).note (count + number) irregularity =
      front.join count (draft.note number irregularity) := by
  cases irregularity <;> rfl

theorem join_close : (front.join count draft).close = front.join count draft.close := by
  obtain ⟨blocks, anomalies, openBlock⟩ := draft
  cases openBlock <;> rfl

theorem join_push (step : Step) :
    (front.join count draft).push step = front.join count (draft.push step) := by
  obtain ⟨blocks, anomalies, openBlock⟩ := draft
  cases openBlock <;> rfl

theorem join_begin (argument : List Char) (repetition : Option Repetition) :
    (front.join count draft).begin (count + number) argument repetition =
      front.join count (draft.begin number argument repetition) := by
  cases repetition with
  | some repetition =>
      simp only [begin, join_close]
      rfl
  | none =>
      simp only [begin, join_close, join_note]
      rfl

theorem join_addStep (reading : StepReading) :
    (front.join count draft).addStep (count + number) reading =
      front.join count (draft.addStep number reading) := by
  obtain ⟨step, irregularity⟩ := reading
  cases step with
  | none => exact join_note _ _ _ _ _
  | some step => simp only [addStep, join_note, join_push]

/-- At the end the blocks and anomalies of both drafts stand one after the other. -/
theorem finish_join :
    (front.join count draft).finish =
      ⟨front.blocks.reverse ++ draft.finish.blocks,
        front.anomalies.reverse ++ draft.finish.anomalies.map (Anomaly.moved count)⟩ := by
  obtain ⟨blocks, anomalies, openBlock⟩ := draft
  cases openBlock <;> simp [finish, join, close]

theorem anomalies_close : draft.close.anomalies = draft.anomalies := by
  rw [close]
  split <;> rfl

theorem anomalies_finish : draft.finish.anomalies = draft.anomalies.reverse := by
  obtain ⟨blocks, anomalies, openBlock⟩ := draft
  cases openBlock <;> rfl

theorem join_start (unopened : front.openBlock = none) : front.join count .start = front := by
  obtain ⟨blocks, anomalies, openBlock⟩ := front
  cases unopened
  rfl

/-- A marker closes what is open, and what it begins does not depend on the lines before it. -/
theorem begin_eq_join (argument : List Char) (repetition : Option Repetition) :
    draft.begin (count + number) argument repetition =
      draft.close.join count (start.begin number argument repetition) := by
  cases repetition with
  | some repetition => rfl
  | none =>
      simp only [begin]
      cases argument <;> rfl

end Draft

/-! ### One line after another -/

/-- What one line makes of a draft. -/
def Draft.take (aliases : Aliases) (draft : Draft) (number : Nat) (raw : List Char) :
    Except ParseFailure Draft :=
  match Line.read raw with
  | .empty => .ok draft
  | .marker argument =>
    match readRepetition argument with
    | .error refusal => .error ⟨refusal, draft.anomalies.reverse⟩
    | .ok repetition => .ok (draft.begin number argument repetition)
  | .step line => .ok (draft.addStep number (readStep aliases line))

theorem readLines_cons (aliases : Aliases) (draft : Draft) (number : Nat) (raw : List Char)
    (rest : List (List Char)) :
    readLines aliases draft number (raw :: rest) =
      (draft.take aliases number raw).bind fun next => readLines aliases next (number + 1) rest := by
  rw [readLines, Draft.take]
  cases Line.read raw with
  | empty => rfl
  | marker argument =>
      dsimp only
      cases readRepetition argument <;> rfl
  | step line => rfl

variable {aliases : Aliases} {draft after : Draft} {number : Nat}

/-- Lines that can be read are read one by one. -/
theorem readLines_cons_eq_ok {raw : List Char} {rest : List (List Char)}
    (read : readLines aliases draft number (raw :: rest) = .ok after) :
    ∃ next, draft.take aliases number raw = .ok next ∧
      readLines aliases next (number + 1) rest = .ok after := by
  rw [readLines_cons] at read
  cases taken : draft.take aliases number raw with
  | error failure =>
      rw [taken] at read
      cases read
  | ok next =>
      rw [taken] at read
      exact ⟨next, rfl, read⟩

variable {texts : List (List Char)}

theorem readLines_append {middle : Draft}
    (read : readLines aliases draft number texts = .ok middle) (rest : List (List Char)) :
    readLines aliases draft number (texts ++ rest) =
      readLines aliases middle (number + texts.length) rest := by
  induction texts generalizing draft number with
  | nil =>
      cases read
      rfl
  | cons raw texts hypothesis =>
      obtain ⟨next, taken, read⟩ := readLines_cons_eq_ok read
      have later := hypothesis read
      rw [Nat.add_assoc, Nat.add_comm 1] at later
      rw [List.cons_append, readLines_cons, taken]
      exact later

namespace Draft

variable {aliases : Aliases} {draft next : Draft} {number : Nat} {raw : List Char}

/-- A line that counts is a marker, which begins a block, or adds what it says as a step. -/
theorem take_cases (taken : draft.take aliases number raw = .ok next) :
    (isSignificant (trim raw) = false ∧ next = draft) ∨
      (isSignificant (trim raw) = true ∧ isMarkerLine (trim raw) = true ∧
        ∃ argument repetition, next = draft.begin number argument repetition) ∨
      (isSignificant (trim raw) = true ∧ isMarkerLine (trim raw) = false ∧
        next = draft.addStep number (readStep aliases (trim raw))) := by
  rw [take] at taken
  cases counts : isSignificant (trim raw) with
  | false =>
      rw [read_empty counts] at taken
      cases taken
      exact .inl ⟨rfl, rfl⟩
  | true =>
      rw [read_significant counts] at taken
      cases role : isMarkerLine (trim raw) with
      | true =>
          simp only [role, if_true] at taken
          split at taken
          · cases taken
          · cases taken
            exact .inr (.inl ⟨rfl, rfl, _, _, rfl⟩)
      | false =>
          simp only [role] at taken
          cases taken
          exact .inr (.inr ⟨rfl, rfl, rfl⟩)

/-- A line says the same below a front of other lines. -/
theorem take_join (front : Draft) (count : Nat) (taken : draft.take aliases number raw = .ok next) :
    (front.join count draft).take aliases (count + number) raw = .ok (front.join count next) := by
  rw [take] at taken ⊢
  cases role : Line.read raw with
  | empty =>
      simp only [role] at taken ⊢
      cases taken
      rfl
  | marker argument =>
      simp only [role] at taken ⊢
      cases readEq : readRepetition argument with
      | error refusal =>
          rw [readEq] at taken
          cases taken
      | ok repetition =>
          simp only [readEq] at taken ⊢
          cases taken
          rw [join_begin]
  | step line =>
      simp only [role] at taken ⊢
      cases taken
      rw [join_addStep]

/-- A marker says the same below any other lines, and closes the block that is open there. -/
theorem take_marker (front : Draft) (count : Nat) (counts : isSignificant (trim raw) = true)
    (isMarker : isMarkerLine (trim raw) = true) (taken : start.take aliases number raw = .ok next) :
    front.take aliases (count + number) raw = .ok (front.close.join count next) := by
  rw [take, read_significant counts, isMarker] at taken ⊢
  simp only [if_true] at taken ⊢
  cases readEq : readRepetition (splitLine (trim raw)).2 with
  | error refusal =>
      rw [readEq] at taken
      cases taken
  | ok repetition =>
      simp only [readEq] at taken ⊢
      cases taken
      rw [begin_eq_join]

end Draft

/-- Lines are read in the same way below a front of other lines. -/
theorem readLines_join (front : Draft) (count : Nat)
    (read : readLines aliases draft number texts = .ok after) :
    readLines aliases (front.join count draft) (count + number) texts =
      .ok (front.join count after) := by
  induction texts generalizing draft number with
  | nil =>
      cases read
      rfl
  | cons raw rest hypothesis =>
      obtain ⟨next, taken, read⟩ := readLines_cons_eq_ok read
      rw [readLines_cons, Draft.take_join front count taken]
      exact hypothesis read

/-- Lines of which the first that counts is a marker are read in the same way below any others: the
marker closes the block that is open. -/
theorem readLines_seam {marker : List Char} (front : Draft) (count : Nat)
    (begins : (significant texts).head? = some marker) (isMarker : isMarkerLine marker = true)
    (read : readLines aliases .start number texts = .ok after) :
    readLines aliases front (count + number) texts = .ok (front.close.join count after) := by
  induction texts generalizing number with
  | nil => cases begins
  | cons raw rest hypothesis =>
      cases counts : isSignificant (trim raw) with
      | false =>
          rw [significant_cons_of_neg counts] at begins
          rw [readLines, read_empty counts] at read ⊢
          exact hypothesis begins read
      | true =>
          rw [significant_cons_of_pos counts] at begins
          cases begins
          obtain ⟨next, taken, read⟩ := readLines_cons_eq_ok read
          rw [readLines_cons, Draft.take_marker front count counts isMarker taken]
          exact readLines_join _ _ read

/-- A line feed at the end of the text is read over. -/
theorem readLines_feed (read : readLines aliases draft number (lines text) = .ok after) :
    readLines aliases draft number (lines (text ++ ['\n'])) = .ok after := by
  rcases lines_append_feed text with same | added
  · rw [same, read]
  · rw [added, readLines_append read]
    rfl

/-! ### What opens a block -/

/-- A line that belongs to a block: a marker or a line with a step. -/
def opensBlock (line : List Char) : Bool :=
  isMarkerLine line || isStepLine line

namespace Draft

variable {aliases : Aliases} {draft next : Draft} {number : Nat} {raw : List Char}

theorem isSome_begin (draft : Draft) (number : Nat) (argument : List Char)
    (repetition : Option Repetition) :
    (draft.begin number argument repetition).openBlock.isSome = true := by
  cases repetition <;> rfl

theorem openBlock_note (irregularity : Option Irregularity) :
    (draft.note number irregularity).openBlock = draft.openBlock := by
  cases irregularity <;> rfl

theorem isSome_addStep (plain : isMarkerLine raw = false) :
    (draft.addStep number (readStep aliases raw)).openBlock.isSome =
      (draft.openBlock.isSome || isStepLine raw) := by
  have said := step_readStep plain aliases
  cases role : isStepLine raw with
  | true =>
      rw [role, if_pos rfl] at said
      simp only [addStep, said, push]
      split <;> simp
  | false =>
      simp only [role] at said
      simp [addStep, said, openBlock_note]

/-- A block is open after a line if one was open before or the line opens one. -/
theorem isSome_take (taken : draft.take aliases number raw = .ok next) :
    next.openBlock.isSome =
      (draft.openBlock.isSome || (isSignificant (trim raw) && opensBlock (trim raw))) := by
  rcases take_cases taken with ⟨skipped, rfl⟩ | ⟨counts, isMarker, argument, repetition, rfl⟩ |
    ⟨counts, plain, rfl⟩
  · simp [skipped]
  · simp [isSome_begin, counts, isMarker, opensBlock]
  · simp [isSome_addStep plain, counts, plain, opensBlock]

/-- Blocks are only finished while one is open. -/
theorem blocks_take (taken : draft.take aliases number raw = .ok next)
    (unopened : next.openBlock = none) : next.blocks = draft.blocks := by
  rcases take_cases taken with ⟨_, rfl⟩ | ⟨_, _, argument, repetition, rfl⟩ | ⟨_, _, rfl⟩
  · rfl
  · have opened := isSome_begin draft number argument repetition
    simp [unopened] at opened
  · exact blocks_addStep _ _ _

end Draft

/-- Reading ends with an open block if one was open before or some line opens one. -/
theorem readLines_isSome (read : readLines aliases draft number texts = .ok after) :
    after.openBlock.isSome = (draft.openBlock.isSome || (significant texts).any opensBlock) := by
  induction texts generalizing draft number with
  | nil =>
      cases read
      simp [significant]
  | cons raw rest hypothesis =>
      obtain ⟨next, taken, read⟩ := readLines_cons_eq_ok read
      rw [hypothesis read, Draft.isSome_take taken]
      cases counts : isSignificant (trim raw) with
      | false => simp [significant_cons_of_neg counts]
      | true => simp [significant_cons_of_pos counts, Bool.or_assoc]

/-- As long as no block is open, none is finished. -/
theorem readLines_unopened (read : readLines aliases draft number texts = .ok after)
    (unopened : after.openBlock = none) : after.blocks = draft.blocks := by
  induction texts generalizing draft number with
  | nil =>
      cases read
      rfl
  | cons raw rest hypothesis =>
      obtain ⟨next, taken, read⟩ := readLines_cons_eq_ok read
      have stillNone : next.openBlock = none := by
        have opened := readLines_isSome read
        rw [unopened] at opened
        cases openEq : next.openBlock with
        | none => rfl
        | some block => simp [openEq] at opened
      rw [hypothesis read, Draft.blocks_take taken stillNone]

/-- What a marker below a text finds finished: the blocks of the text, without the block that stands
for a text without any. -/
theorem readLines_closed (read : readLines aliases .start number texts = .ok after) :
    after.close.blocks.reverse =
      if (significant texts).any opensBlock then after.finish.blocks else [] := by
  have opened := readLines_isSome read
  cases openEq : after.openBlock with
  | none =>
      have blocksEq := readLines_unopened read openEq
      rw [openEq] at opened
      rw [← (show _ = (significant texts).any opensBlock from opened), Draft.close, openEq, blocksEq]
      rfl
  | some block =>
      rw [openEq] at opened
      rw [← (show _ = (significant texts).any opensBlock from opened), Draft.finish, openEq]
      rfl

/-! ### Scripts below scripts -/

/-- A script below another one is read on from what is known after the other one. -/
theorem parse_below {first : String} {front : Draft}
    (read : readLines aliases.folded .start 0 (lines first.toList) = .ok front) (second : String) :
    parse (first ++ "\n" ++ second) aliases =
      (readLines aliases.folded front ((lines (first ++ "\n").toList).length + 0)
        (lines second.toList)).map Draft.finish := by
  have lineFeed : "\n".toList = ['\n'] := rfl
  have parts : lines (first ++ "\n" ++ second).toList =
      lines (first ++ "\n").toList ++ lines second.toList := by
    rw [String.toList_append, String.toList_append, lineFeed, List.append_assoc]
    exact lines_append _ _
  have above : readLines aliases.folded .start 0 (lines (first ++ "\n").toList) = .ok front := by
    rw [String.toList_append, lineFeed]
    exact readLines_feed read
  rw [parse, parts, readLines_append above, Nat.zero_add, Nat.add_zero]

/-- The text of a name is empty only for a line that opens no block. -/
theorem opensBlock_of_nameless {line : List Char} (nameless : (splitLine line).1 = []) :
    opensBlock line = false := by
  have noMarker : isMarkerLine line = false := by
    rw [isMarkerLine, nameless]
    decide
  simp [opensBlock, noMarker, isStepLine, nameless]

/-- A script that begins with a loop marker may be written below any other: the blocks are those of
the upper script, of which a script with neither marker nor step has none here, and then those of the
lower one; the anomalies are those of both, with the line numbers of the lower script moved on by the
lines above it.  Lines without a name leave all blocks below them as they are. -/
theorem parse_join {first second : String} {aliases : Aliases} {upper lower : Program}
    (acceptedFirst : parse first aliases = .ok upper)
    (acceptedSecond : parse second aliases = .ok lower) :
    (∀ marker, (significantLines second).head? = some marker → isMarkerLine marker = true →
      parse (first ++ "\n" ++ second) aliases =
        .ok ⟨(if (significantLines first).any opensBlock then upper.blocks else []) ++ lower.blocks,
          upper.anomalies ++
            lower.anomalies.map (Anomaly.moved (lines (first ++ "\n").toList).length)⟩) ∧
      ((∀ line ∈ significantLines first, (splitLine line).1 = []) →
        parse (first ++ "\n" ++ second) aliases =
          .ok ⟨lower.blocks, upper.anomalies ++
            lower.anomalies.map (Anomaly.moved (lines (first ++ "\n").toList).length)⟩) := by
  obtain ⟨front, readFirst, rfl⟩ := parse_eq_ok acceptedFirst
  obtain ⟨after, readSecond, rfl⟩ := parse_eq_ok acceptedSecond
  constructor
  · intro marker begins isMarker
    have seam := readLines_seam front (lines (first ++ "\n").toList).length begins isMarker readSecond
    rw [parse_below readFirst, seam, Except.map, Draft.finish_join, readLines_closed readFirst,
      Draft.anomalies_close, Draft.anomalies_finish front]
    rfl
  · intro nameless
    have unopened : (significantLines first).any opensBlock = false := by
      rw [List.any_eq_false]
      intro line member
      simp [opensBlock_of_nameless (nameless line member)]
    have stillNone : front.openBlock = none := by
      have opened := readLines_isSome readFirst
      rw [← significantLines, unopened] at opened
      simpa [Draft.start] using opened
    have below := readLines_join front (lines (first ++ "\n").toList).length readSecond
    rw [Draft.join_start _ _ stillNone] at below
    rw [parse_below readFirst, below, Except.map, Draft.finish_join,
      readLines_unopened readFirst stillNone, Draft.anomalies_finish front]
    rfl

/-- The upper script ends with a carriage return, to which the line feed belongs. -/
def upperScript : String := "=\nMove\r"

/-- The marker comes after a comment and has an argument that is no count. -/
def lowerScript : String := "#\nWHILE = x\n=\nClick"

theorem parse_join_sample :
    parse upperScript = .ok ⟨[⟨.times 1, [⟨"Move", []⟩]⟩], [⟨0, .missingName "="⟩]⟩ ∧
      parse lowerScript =
        .ok ⟨[⟨.times 1, [⟨"Click", []⟩]⟩], [⟨1, .loopArgument "x"⟩, ⟨2, .missingName "="⟩]⟩ ∧
      parse (upperScript ++ "\n" ++ lowerScript) =
        .ok ⟨[⟨.times 1, [⟨"Move", []⟩]⟩, ⟨.times 1, [⟨"Click", []⟩]⟩],
          [⟨0, .missingName "="⟩, ⟨3, .loopArgument "x"⟩, ⟨4, .missingName "="⟩]⟩ := by
  have none : tokenize [] [] = [] := by
    rw [tokenize_of_balanced (by decide)]
    rfl
  have upper : parse upperScript =
      .ok ⟨[⟨.times 1, [⟨"Move", []⟩]⟩], [⟨0, .missingName "="⟩]⟩ := by
    rw [← none]
    rfl
  have lower : parse lowerScript =
      .ok ⟨[⟨.times 1, [⟨"Click", []⟩]⟩], [⟨1, .loopArgument "x"⟩, ⟨2, .missingName "="⟩]⟩ := by
    rw [← none]
    rfl
  refine ⟨upper, lower, ?_⟩
  rw [(parse_join upper lower).1 "WHILE = x".toList (by decide) (by decide)]
  rfl

end InputScript.Script
