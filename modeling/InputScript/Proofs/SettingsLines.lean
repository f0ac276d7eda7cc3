/-
Module: InputScript.Proofs.SettingsLines
Purpose: The lines of a settings file.  A comment mark is a number sign at the start of a text or after a
  blank.  Headers, options and further lines of values are read as they are written, up to a comment mark
  in the first line of a value; and whatever a line of a file says, it does one of few things.
Main exports: HasMark, IsOptionName, IsFirst, readLine_cases
-/
import InputScript.Proofs.Encoding
import InputScript.Proofs.Trimming
import InputScript.Settings.Reader

namespace InputScript

namespace Text

/-! ### Ends of lines -/

theorem isBlank_newline : isBlank '\n' = true := by decide

/-- A line has no end but the one it ends with. -/
theorem IsLine.newline_notMem {line : List Char} (isLine : IsLine line) {before after : List Char} {c : Char}
    (whole : line = before ++ c :: after) : '\n' ∉ before := by
  obtain ⟨body, single, rfl | rfl⟩ := isLine
  · intro inside
    exact single (whole ▸ List.mem_append_left _ inside)
  · intro inside
    have shorter := congrArg List.dropLast whole
    rw [List.dropLast_concat, List.dropLast_append_of_ne_nil (List.cons_ne_nil c after)] at shorter
    exact single (shorter ▸ List.mem_append_left _ inside)

theorem IsLine.newline_notMem_trim {line : List Char} (isLine : IsLine line) : '\n' ∉ trim line := by
  obtain ⟨body, single, rfl | rfl⟩ := isLine
  · exact mt mem_of_mem_trim single
  · rw [trim_append_blank isBlank_newline]
    exact mt mem_of_mem_trim single

end Text

namespace Settings

open Text

/-! ### Comment marks -/

/-- A text has a comment mark: a number sign at its start or after a blank. -/
def HasMark (text : List Char) : Prop :=
  ∃ before after, text = before ++ '#' :: after ∧ before.getLast?.all isBlank = true

/-- Whether what follows a text follows a blank. -/
def endsBlank (afterBlank : Bool) (text : List Char) : Bool :=
  (text.getLast?.map isBlank).getD afterBlank

theorem endsBlank_cons (afterBlank : Bool) (c : Char) (rest : List Char) :
    endsBlank afterBlank (c :: rest) = endsBlank (isBlank c) rest := by
  rw [endsBlank, endsBlank, List.getLast?_cons]
  cases rest.getLast? <;> rfl

variable {afterBlank : Bool} {text before : List Char}

/-- The text before a comment ends where the first comment mark stands. -/
theorem exists_of_beforeInlineComment (cut : beforeInlineComment afterBlank text = some before) :
    ∃ after, text = before ++ '#' :: after ∧ endsBlank afterBlank before = true := by
  induction text generalizing afterBlank before with
  | nil => cases cut
  | cons c rest hypothesis =>
      rw [beforeInlineComment] at cut
      split at cut
      · next mark =>
          rw [Bool.and_eq_true, beq_iff_eq] at mark
          obtain rfl := Option.some.inj cut
          exact ⟨rest, by rw [mark.1]; rfl, mark.2⟩
      · obtain ⟨kept, found, rfl⟩ := Option.map_eq_some_iff.mp cut
        obtain ⟨after, rfl, ends⟩ := hypothesis found
        exact ⟨after, rfl, by rw [endsBlank_cons, ends]⟩

variable {first : List Char}

/-- A comment behind a text without one is a comment of the whole. -/
theorem beforeInlineComment_append (clean : beforeInlineComment afterBlank first = none)
    (second : List Char) :
    beforeInlineComment afterBlank (first ++ second) =
      (beforeInlineComment (endsBlank afterBlank first) second).map (first ++ ·) := by
  induction first generalizing afterBlank with
  | nil => simp [endsBlank]
  | cons c rest hypothesis =>
      rw [beforeInlineComment] at clean
      split at clean
      · cases clean
      · next noMark =>
          rw [Option.map_eq_none_iff] at clean
          rw [List.cons_append, beforeInlineComment, if_neg noMark, hypothesis clean,
            endsBlank_cons, Option.map_map]
          rfl

theorem beforeInlineComment_mark (ends : endsBlank afterBlank before = true) (after : List Char) :
    (beforeInlineComment afterBlank (before ++ '#' :: after)).isSome = true := by
  induction before generalizing afterBlank with
  | nil =>
      have atStart : afterBlank = true := ends
      rw [atStart]
      rfl
  | cons c rest hypothesis =>
      rw [endsBlank_cons] at ends
      rw [List.cons_append, beforeInlineComment]
      split
      · rfl
      · rw [Option.isSome_map]
        exact hypothesis ends

theorem hasMark_iff (text : List Char) :
    HasMark text ↔ (beforeInlineComment true text).isSome = true := by
  have ends (before : List Char) :
      before.getLast?.all isBlank = endsBlank true before := by
    rw [endsBlank]
    cases before.getLast? <;> rfl
  constructor
  · rintro ⟨before, after, rfl, blank⟩
    exact beforeInlineComment_mark (by rw [← ends, blank]) after
  · intro found
    obtain ⟨before, cut⟩ := Option.isSome_iff_exists.mp found
    obtain ⟨after, whole, blank⟩ := exists_of_beforeInlineComment cut
    exact ⟨before, after, whole, by rw [ends, blank]⟩

theorem not_hasMark_iff (text : List Char) :
    ¬HasMark text ↔ beforeInlineComment true text = none := by
  rw [hasMark_iff, Bool.not_eq_true, Option.isSome_eq_false_iff, Option.isNone_iff_eq_none]

instance (text : List Char) : Decidable (HasMark text) :=
  decidable_of_iff _ (hasMark_iff text).symm

/-- What stands before the first comment mark of a text, without the blanks at its end; the whole text
if it has none. -/
def withoutComment (text : List Char) : List Char :=
  match beforeInlineComment true text with
  | some before => trimEnd before
  | none => text

theorem withoutComment_eq_self_iff (text : List Char) : withoutComment text = text ↔ ¬HasMark text := by
  rw [not_hasMark_iff, withoutComment]
  split
  · next before cut =>
      obtain ⟨after, whole, -⟩ := exists_of_beforeInlineComment cut
      have shorter : (trimEnd before).length ≤ before.length :=
        (List.rdropWhile_prefix isBlank before).length_le
      rw [cut]
      constructor
      · intro same
        rw [same, whole, List.length_append, List.length_cons] at shorter
        omega
      · intro nothing
        cases nothing
  · next clean => simp [clean]

/-! ### Names, values and headers -/

/-- A text within one line. -/
def IsSingle (text : List Char) : Prop := '\n' ∉ text ∧ '\r' ∉ text

/-- The name of an option as a file can give it. -/
structure IsOptionName (name : List Char) : Prop where
  nonempty : name ≠ []
  trimmed : trim name = name
  single : IsSingle name
  undivided : ∀ c ∈ name, isDelimiter c = false
  unmarked : ¬HasMark name
  noComment : name.head? ≠ some ';'

/-- The first line of the value of an option.  Together with the name of the option it is no header. -/
structure IsFirst (name line : List Char) : Prop where
  trimmed : trim line = line
  single : IsSingle line
  noHeader : name.head? = some '[' → ']' ∉ name.drop 2 ∧ ']' ∉ line

/-- A further line of a value. -/
structure IsFurther (line : List Char) : Prop where
  trimmed : trim line = line
  single : IsSingle line
  unmarked : ¬HasMark line
  noComment : line.head? ≠ some ';'

/-- The name in a section header. -/
structure IsHeaderName (name : List Char) : Prop where
  nonempty : name ≠ []
  single : IsSingle name
  unmarked : ¬HasMark ('[' :: name)

theorem isFurther_nil : IsFurther [] where
  trimmed := rfl
  single := ⟨List.not_mem_nil, List.not_mem_nil⟩
  unmarked := (not_hasMark_iff _).mpr rfl
  noComment := by simp

theorem head?_ne_of_unmarked (unmarked : ¬HasMark text) : text.head? ≠ some '#' := by
  intro marked
  obtain ⟨rest, rfl⟩ := List.head?_eq_some_iff.mp marked
  exact unmarked ⟨[], rest, rfl, rfl⟩

theorem forall_bne_bracket (outside : ']' ∉ text) :
    ∀ c ∈ text.reverse, (c != ']') = true := by
  intro c member
  rw [bne_iff_ne]
  rintro rfl
  exact outside (List.mem_reverse.mp member)

/-- The last closing bracket ends the name in a header. -/
theorem headerName?_bracket {after : List Char} (last : ']' ∉ after) (name : List Char) :
    headerName? ('[' :: (name ++ ']' :: after)) = if name = [] then none else some name := by
  rw [headerName?, List.reverse_append, List.reverse_cons, List.append_assoc, List.singleton_append,
    List.dropWhile_append_of_pos (forall_bne_bracket last), List.dropWhile_cons_of_neg (by simp),
    List.drop_succ_cons, List.drop_zero]
  split
  · next nothing => rw [if_pos (List.reverse_eq_nil_iff.mp nothing)]
  · next something => rw [List.reverse_reverse, if_neg (mt List.reverse_eq_nil_iff.mpr something)]

theorem exists_last_bracket (inside : ']' ∈ text) :
    ∃ before after, text = before ++ ']' :: after ∧ ']' ∉ after := by
  obtain ⟨after, before, reversed, last⟩ := List.eq_append_cons_of_mem (List.mem_reverse.mpr inside)
  refine ⟨before.reverse, after.reverse, ?_, mt List.mem_reverse.mp last⟩
  rw [← List.reverse_reverse text, reversed]
  simp

theorem headerName?_unbracketed {rest : List Char} (outside : ']' ∉ rest) :
    headerName? ('[' :: rest) = none := by
  rw [headerName?, List.dropWhile_eq_nil_iff.mpr (forall_bne_bracket outside)]
  rfl

/-- A header is what begins with an opening bracket and has a closing one behind the next character. -/
theorem headerName?_eq_none_iff (text : List Char) :
    headerName? text = none ↔ (text.head? = some '[' → ']' ∉ text.drop 2) := by
  constructor
  · intro noHeader opens inside
    obtain ⟨rest, rfl⟩ := List.head?_eq_some_iff.mp opens
    cases rest with
    | nil => cases inside
    | cons c rest =>
        obtain ⟨before, after, rfl, last⟩ := exists_last_bracket (show ']' ∈ rest from inside)
        have named := headerName?_bracket last (c :: before)
        rw [if_neg (List.cons_ne_nil c before)] at named
        rw [List.cons_append] at named
        rw [noHeader] at named
        cases named
  · intro noHeader
    unfold headerName?
    split
    · next rest =>
        by_cases inside : ']' ∈ rest
        · obtain ⟨before, after, rfl, last⟩ := exists_last_bracket inside
          cases before with
          | nil => exact headerName?_bracket last []
          | cons c before => exact absurd (by simp) (noHeader rfl)
        · exact headerName?_unbracketed inside
    · rfl

variable {name : List Char}

theorem exists_of_headerName? (named : headerName? text = some name) :
    name ≠ [] ∧ ∃ after, text = '[' :: (name ++ ']' :: after) := by
  have isHeader : headerName? text ≠ none := by simp [named]
  rw [ne_eq, headerName?_eq_none_iff, Classical.not_imp, not_not] at isHeader
  obtain ⟨rest, rfl⟩ := List.head?_eq_some_iff.mp isHeader.1
  obtain ⟨before, after, rfl, last⟩ := exists_last_bracket (List.mem_of_mem_drop (i := 1) isHeader.2)
  rw [headerName?_bracket last] at named
  split at named
  · cases named
  · next nonempty =>
      obtain rfl := Option.some.inj named
      exact ⟨nonempty, after, rfl⟩

/-! ### Written lines -/

variable {line : List Char}

theorem isCommentLine_eq_false (noNumberSign : (trim line).head? ≠ some '#')
    (noSemicolon : (trim line).head? ≠ some ';') : isCommentLine line = false := by
  rw [isCommentLine]
  split
  · next c begins =>
      rw [begins, ne_eq, Option.some.injEq] at noNumberSign noSemicolon
      simp [noNumberSign, noSemicolon]
  · rfl

/-- The end of a line makes no comment. -/
theorem beforeInlineComment_line (afterBlank : Bool) (text : List Char) :
    beforeInlineComment afterBlank (text ++ ['\n']) = beforeInlineComment afterBlank text := by
  induction text generalizing afterBlank with
  | nil => cases afterBlank <;> rfl
  | cons c rest hypothesis =>
      rw [List.cons_append, beforeInlineComment, beforeInlineComment, hypothesis]

/-- A header line begins the section of its name. -/
theorem readLine_header (state : ReadState) (number : Nat) (isName : IsHeaderName name) :
    readLine state number ('[' :: (name ++ [']', '\n'])) =
      ReadState.beginSection { state with indentation := 0 } number (String.ofList name) := by
  have bracket : isBlank '[' = false := by decide
  have spelled : trim ('[' :: (name ++ [']', '\n'])) = '[' :: (name ++ [']']) := by
    rw [trim_solid_cons bracket, trimEnd_solid (by decide)]
    rfl
  have clean : beforeInlineComment true ('[' :: (name ++ [']', '\n'])) = none := by
    rw [← List.cons_append, beforeInlineComment_append ((not_hasMark_iff _).mp isName.unmarked)]
    rfl
  have named := headerName?_bracket (List.not_mem_nil (a := ']')) name
  rw [if_neg isName.nonempty] at named
  have stripped : stripComment ('[' :: (name ++ [']', '\n'])) = ('[' :: (name ++ [']']), false) := by
    rw [stripComment, isCommentLine_eq_false (by simp [spelled]) (by simp [spelled]), clean, spelled]
    rfl
  have indented : (('[' :: (name ++ [']', '\n'])).takeWhile isBlank).length = 0 := by
    rw [List.takeWhile_cons_of_neg (by simp [bracket])]
    rfl
  simp only [readLine, stripped, indented, named, List.isEmpty_cons, Nat.not_lt_zero, decide_false,
    Bool.and_false, Bool.false_eq_true, if_false]

theorem optionParts?_written (isName : IsOptionName name) (after : List Char) :
    optionParts? (name ++ ' ' :: '=' :: after) = some (name, trim after) := by
  have plain : ∀ c ∈ name ++ [' '], (!isDelimiter c) = true := by
    intro c member
    rcases List.mem_append.mp member with inName | last
    · rw [isName.undivided c inName]
      rfl
    · rw [List.mem_singleton.mp last]
      rfl
  have split : name ++ ' ' :: '=' :: after = (name ++ [' ']) ++ '=' :: after := by simp
  have before : trimEnd (name ++ [' ']) = name := by
    rw [trimEnd_blank (by decide), trimEnd_of_trim isName.trimmed]
  rw [optionParts?, split, List.dropWhile_append_of_pos plain, List.dropWhile_cons_of_neg (by decide),
    List.takeWhile_append_of_pos plain, List.takeWhile_cons_of_neg (by decide), List.append_nil, before]

theorem trim_written (isName : IsOptionName name) (after : List Char) :
    trim (name ++ ' ' :: '=' :: after) = name ++ ' ' :: '=' :: trimEnd after := by
  obtain ⟨c, rest, rfl⟩ := List.exists_cons_of_ne_nil isName.nonempty
  have split (tail : List Char) : rest ++ ' ' :: '=' :: tail = (rest ++ [' ']) ++ '=' :: tail := by simp
  rw [List.cons_append, List.cons_append, trim_solid_cons (solid_of_trim isName.trimmed), split, split,
    trimEnd_solid (by decide)]

/-- Only the value of an option can have a comment mark. -/
theorem beforeInlineComment_written (isName : IsOptionName name) (value : List Char) :
    beforeInlineComment true (name ++ ' ' :: '=' :: ' ' :: value) =
      (beforeInlineComment true value).map (name ++ ' ' :: '=' :: ' ' :: ·) := by
  have clean : beforeInlineComment true name = none := (not_hasMark_iff _).mp isName.unmarked
  have spaced (afterBlank : Bool) : beforeInlineComment afterBlank (' ' :: '=' :: ' ' :: value) =
      (beforeInlineComment true value).map (' ' :: '=' :: ' ' :: ·) := by
    have equals : isBlank '=' = false := by decide
    have space : isBlank ' ' = true := by decide
    simp only [beforeInlineComment, space, equals]
    cases beforeInlineComment true value <;> rfl
  rw [beforeInlineComment_append clean, spaced, Option.map_map]
  rfl

/-- What is left of the value of an option when its line is read, still with blanks around it. -/
def keptPart (first : List Char) : List Char :=
  (beforeInlineComment true first).getD (first ++ ['\n'])

theorem trim_keptPart (trimmed : trim first = first) :
    trim (keptPart first) = withoutComment first := by
  rw [keptPart, withoutComment]
  cases cut : beforeInlineComment true first with
  | none =>
      change trim (first ++ ['\n']) = first
      rw [trim_append_blank isBlank_newline, trimmed]
  | some before =>
      change trim before = trimEnd before
      obtain ⟨after, rfl, -⟩ := exists_of_beforeInlineComment cut
      cases before with
      | nil => rfl
      | cons c before =>
          have solid : isBlank c = false := solid_of_trim trimmed
          rw [trim, trimStart_solid solid]

theorem mem_of_mem_keptPart {c : Char} (inside : c ∈ keptPart first) (noEnd : c ≠ '\n') :
    c ∈ first := by
  rw [keptPart] at inside
  cases cut : beforeInlineComment true first with
  | none =>
      rw [cut, Option.getD_none] at inside
      simpa [noEnd] using inside
  | some before =>
      obtain ⟨after, whole, -⟩ := exists_of_beforeInlineComment cut
      rw [cut, Option.getD_some] at inside
      rw [whole]
      exact List.mem_append_left _ inside

theorem stripComment_written (isName : IsOptionName name) (first : List Char) :
    ∃ hasComment, stripComment (name ++ ' ' :: '=' :: ' ' :: (first ++ ['\n'])) =
      (name ++ ' ' :: '=' :: trimEnd (' ' :: keptPart first), hasComment) := by
  have spelled := trim_written isName (' ' :: (first ++ ['\n']))
  have noComment : isCommentLine (name ++ ' ' :: '=' :: ' ' :: (first ++ ['\n'])) = false := by
    apply isCommentLine_eq_false
    · rw [spelled, List.head?_append_of_ne_nil _ isName.nonempty]
      exact head?_ne_of_unmarked isName.unmarked
    · rw [spelled, List.head?_append_of_ne_nil _ isName.nonempty]
      exact isName.noComment
  rw [stripComment, noComment, beforeInlineComment_written isName, beforeInlineComment_line, keptPart]
  cases beforeInlineComment true first with
  | none => exact ⟨false, congrArg (·, false) spelled⟩
  | some before => exact ⟨true, congrArg (·, true) (trim_written isName (' ' :: before))⟩

/-- The line of an option sets it, up to a comment mark in the first line of its value. -/
theorem readLine_option (state : ReadState) (number : Nat) {sectionName : String}
    (isName : IsOptionName name) (isFirst : IsFirst name first)
    (inSection : state.current = some sectionName) :
    readLine state number (name ++ ' ' :: '=' :: ' ' :: (first ++ ['\n'])) =
      ReadState.setOption { state with indentation := 0 } number
        (name ++ ' ' :: '=' :: ' ' :: (first ++ ['\n'])) sectionName name (withoutComment first) := by
  obtain ⟨hasComment, stripped⟩ := stripComment_written isName first
  have parts : optionParts? (name ++ ' ' :: '=' :: trimEnd (' ' :: keptPart first)) =
      some (name, withoutComment first) := by
    rw [optionParts?_written isName, trim_trimEnd, trim_blank (by decide), trim_keptPart isFirst.trimmed]
  have noHeader : headerName? (name ++ ' ' :: '=' :: trimEnd (' ' :: keptPart first)) = none := by
    rw [headerName?_eq_none_iff]
    intro opens inside
    rw [List.head?_append_of_ne_nil _ isName.nonempty] at opens
    obtain ⟨notInName, notInFirst⟩ := isFirst.noHeader opens
    rw [List.drop_append] at inside
    rcases List.mem_append.mp inside with inName | later
    · exact notInName inName
    · have inKept : ']' ∈ trimEnd (' ' :: keptPart first) := by
        simpa using List.mem_of_mem_drop later
      have inPart : ']' ∈ keptPart first := by
        simpa using (List.rdropWhile_prefix isBlank (' ' :: keptPart first)).subset inKept
      exact notInFirst (mem_of_mem_keptPart inPart (by decide))
  have indented : ((name ++ ' ' :: '=' :: ' ' :: (first ++ ['\n'])).takeWhile isBlank).length = 0 := by
    obtain ⟨c, rest, rfl⟩ := List.exists_cons_of_ne_nil isName.nonempty
    rw [List.cons_append, List.takeWhile_cons_of_neg (by simp [solid_of_trim isName.trimmed])]
    rfl
  have something : (name ++ ' ' :: '=' :: trimEnd (' ' :: keptPart first)).isEmpty = false := by simp
  simp only [readLine, stripped, something, indented, noHeader, inSection, parts, Nat.not_lt_zero,
    decide_false, Bool.and_false, Bool.false_eq_true, if_false]

/-- An indented line belongs to the value of the open option. -/
theorem readLine_further (state : ReadState) (number : Nat) (isFurther : IsFurther line)
    (opened : state.option.isSome = true) (outer : state.indentation = 0) :
    readLine state number ('\t' :: (line ++ ['\n'])) = .ok (state.extend (String.ofList line)) := by
  have tab : isBlank '\t' = true := by decide
  have spelled : trim ('\t' :: (line ++ ['\n'])) = line := by
    rw [trim_blank tab, trim_append_blank isBlank_newline, isFurther.trimmed]
  have clean : beforeInlineComment true ('\t' :: (line ++ ['\n'])) = none := by
    rw [← List.cons_append, beforeInlineComment_line, beforeInlineComment, tab,
      (not_hasMark_iff _).mp isFurther.unmarked]
    rfl
  have noComment : isCommentLine ('\t' :: (line ++ ['\n'])) = false := by
    apply isCommentLine_eq_false
    · rw [spelled]
      exact head?_ne_of_unmarked isFurther.unmarked
    · rw [spelled]
      exact isFurther.noComment
  have stripped : stripComment ('\t' :: (line ++ ['\n'])) = (line, false) := by
    rw [stripComment, noComment, clean, spelled]
    rfl
  have indented : 0 < (('\t' :: (line ++ ['\n'])).takeWhile isBlank).length := by
    rw [List.takeWhile_cons_of_pos tab]
    exact Nat.succ_pos _
  simp only [readLine, stripped, opened, outer, indented, decide_true, Bool.and_true, if_true]
  cases line <;> rfl

theorem readLine_empty (state : ReadState) (number : Nat) :
    readLine state number ['\n'] = .ok (state.extend "") := rfl

/-! ### Lines of any file -/

theorem HasMark.append (marked : HasMark text) (more : List Char) :
    HasMark (text ++ more) := by
  obtain ⟨before, after, rfl, blank⟩ := marked
  exact ⟨before, after ++ more, by simp, blank⟩

/-- Trimming makes no comment mark. -/
theorem hasMark_of_trim (marked : HasMark (trim text)) : HasMark text := by
  obtain ⟨early, late, whole, blanks, -⟩ := exists_trim text
  obtain ⟨before, after, spelled, blank⟩ := marked
  refine ⟨early ++ before, after ++ late, ?_, ?_⟩
  · rw [whole, spelled]
    simp
  · rw [List.getLast?_append]
    cases last : before.getLast? with
    | some c =>
        rw [last] at blank
        exact blank
    | none =>
        rw [Option.none_or, Option.all_eq_true]
        intro c isLast
        exact blanks c (List.mem_of_getLast? isLast)

theorem beforeInlineComment_before (cut : beforeInlineComment afterBlank text = some before) :
    beforeInlineComment afterBlank before = none := by
  induction text generalizing afterBlank before with
  | nil => cases cut
  | cons c rest hypothesis =>
      rw [beforeInlineComment] at cut
      split at cut
      · obtain rfl := Option.some.inj cut
        rfl
      · next noMark =>
          obtain ⟨kept, found, rfl⟩ := Option.map_eq_some_iff.mp cut
          rw [beforeInlineComment, if_neg noMark, hypothesis found]
          rfl

theorem head?_trim_append {c : Char} (begins : (trim text).head? = some c) (more : List Char) :
    (trim (text ++ more)).head? = some c := by
  obtain ⟨rest, spelled⟩ := List.head?_eq_some_iff.mp begins
  obtain ⟨early, late, whole, blanks, -⟩ := exists_trim text
  rw [spelled] at whole
  rw [whole, List.append_assoc, trim, trimStart, List.dropWhile_append_of_pos blanks, List.cons_append,
    List.cons_append]
  change (trim (c :: _)).head? = some c
  rw [trim_solid_cons (solid_of_trim spelled), List.head?_cons]

/-- What a line says without its comment could be a further line of a value. -/
theorem isFurther_stripComment (isLine : IsLine line) (plain : '\r' ∉ line) :
    IsFurther (stripComment line).1 := by
  rw [stripComment]
  split
  · exact isFurther_nil
  · next noComment =>
      have begins : (trim line).head? ≠ some ';' := by
        intro semicolon
        rw [isCommentLine, semicolon] at noComment
        exact noComment rfl
      split
      · next before cut =>
          obtain ⟨after, whole, -⟩ := exists_of_beforeInlineComment cut
          refine ⟨trim_trim before, ⟨?_, ?_⟩, ?_, ?_⟩
          · exact mt mem_of_mem_trim (isLine.newline_notMem whole)
          · intro inside
            exact plain (whole ▸ List.mem_append_left _ (mem_of_mem_trim inside))
          · intro marked
            exact (not_hasMark_iff before).mpr (beforeInlineComment_before cut) (hasMark_of_trim marked)
          · intro semicolon
            exact begins (whole ▸ head?_trim_append semicolon ('#' :: after))
      · next clean =>
          refine ⟨trim_trim line, ⟨isLine.newline_notMem_trim, mt mem_of_mem_trim plain⟩, ?_, begins⟩
          exact mt hasMark_of_trim ((not_hasMark_iff line).mpr clean)

theorem isHeaderName_of_headerName? {value : List Char} (isFurther : IsFurther value)
    (named : headerName? value = some name) : IsHeaderName name := by
  obtain ⟨nonempty, after, rfl⟩ := exists_of_headerName? named
  refine ⟨nonempty, ⟨?_, ?_⟩, ?_⟩
  · intro inside
    exact isFurther.single.1 (by simp [inside])
  · intro inside
    exact isFurther.single.2 (by simp [inside])
  · intro marked
    exact isFurther.unmarked (marked.append (']' :: after))

/-- An option that a line of a file sets under a name can be written. -/
theorem isOption_of_optionParts? {value : List Char} (isFurther : IsFurther value)
    (noHeader : headerName? value = none) (parts : optionParts? value = some (name, first))
    (nonempty : name ≠ []) : IsOptionName name ∧ IsFirst name first := by
  rw [optionParts?] at parts
  split at parts
  · cases parts
  · next delimiter after dropped =>
      obtain ⟨rfl, rfl⟩ := Prod.mk.inj (Option.some.inj parts)
      have whole : value = value.takeWhile (!isDelimiter ·) ++ delimiter :: after := by
        rw [← dropped, List.takeWhile_append_dropWhile]
      have undivided : ∀ c ∈ value.takeWhile (!isDelimiter ·), isDelimiter c = false := by
        intro c member
        simpa using List.mem_takeWhile_imp member
      -- The value is its name, the delimiter and the rest, and only these parts matter.
      generalize value.takeWhile (!isDelimiter ·) = early at *
      subst whole
      cases early with
      | nil => exact absurd rfl nonempty
      | cons c rest =>
          have solid : isBlank c = false := solid_of_trim isFurther.trimmed
          have spelled : trimEnd (c :: rest) = c :: trimEnd rest := trimEnd_solid solid [] rest
          obtain ⟨blanks, early⟩ : trimEnd (c :: rest) <+: c :: rest := List.rdropWhile_prefix isBlank _
          have inName {letter : Char} (inside : letter ∈ trimEnd (c :: rest)) : letter ∈ c :: rest :=
            early ▸ List.mem_append_left _ inside
          have inValue {letter : Char} (inside : letter ∈ trim after) :
              letter ∈ c :: rest ++ delimiter :: after := by
            simp [mem_of_mem_trim inside]
          refine ⟨⟨nonempty, ?_, ⟨?_, ?_⟩, ?_, ?_, ?_⟩, trim_trim after, ⟨?_, ?_⟩, ?_⟩
          · rw [trim_trimEnd, trim, trimStart_solid solid]
          · exact fun inside => isFurther.single.1 (List.mem_append_left _ (inName inside))
          · exact fun inside => isFurther.single.2 (List.mem_append_left _ (inName inside))
          · exact fun letter inside => undivided letter (inName inside)
          · intro marked
            have whole := marked.append (blanks ++ delimiter :: after)
            rw [← List.append_assoc, early] at whole
            exact isFurther.unmarked whole
          · rw [spelled]
            exact isFurther.noComment
          · exact fun inside => isFurther.single.1 (inValue inside)
          · exact fun inside => isFurther.single.2 (inValue inside)
          · intro opens
            rw [spelled] at opens
            have outside := (headerName?_eq_none_iff _).mp noHeader opens
            constructor
            · rw [← early, List.append_assoc, List.drop_append] at outside
              exact fun inside => outside (List.mem_append_left _ inside)
            · intro inside
              have late : ']' ∈ after := mem_of_mem_trim inside
              cases rest with
              | nil => exact outside late
              | cons second rest =>
                  exact outside (List.mem_append_right rest (List.mem_cons_of_mem _ late))

/-- All that a line of a file can do. -/
theorem readLine_cases {state after : ReadState} {number : Nat} (isLine : IsLine line)
    (plain : '\r' ∉ line) (reads : readLine state number line = .ok after) :
    after = state ∨
    (∃ text, IsFurther text ∧ after = state.extend (String.ofList text)) ∨
    ∃ indentation,
      (∃ name, IsHeaderName name ∧
        ReadState.beginSection { state with indentation } number (String.ofList name) = .ok after) ∨
      (∃ sectionName name first, state.current = some sectionName ∧
        (name ≠ [] → IsOptionName name ∧ IsFirst name first) ∧
        ReadState.setOption { state with indentation } number line sectionName name first = .ok after) ∨
      after = ReadState.note { state with indentation } number line := by
  have isFurther := isFurther_stripComment isLine plain
  rw [readLine] at reads
  generalize stripComment line = stripped at isFurther reads
  obtain ⟨value, hasComment⟩ := stripped
  dsimp only at isFurther reads
  split at reads
  · obtain rfl := Except.ok.inj reads
    cases hasComment with
    | true => exact .inl rfl
    | false => exact .inr (.inl ⟨[], isFurther_nil, rfl⟩)
  · split at reads
    · obtain rfl := Except.ok.inj reads
      exact .inr (.inl ⟨value, isFurther, rfl⟩)
    · refine .inr (.inr ⟨(line.takeWhile isBlank).length, ?_⟩)
      split at reads
      · next name named =>
          exact .inl ⟨name, isHeaderName_of_headerName? isFurther named, reads⟩
      · next noHeader =>
          split at reads
          · cases reads
          · next sectionName inSection =>
              split at reads
              · next name first parts =>
                  exact .inr (.inl ⟨sectionName, name, first, inSection,
                    isOption_of_optionParts? isFurther noHeader parts, reads⟩)
              · exact .inr (.inr (Except.ok.inj reads).symm)

end Settings

end InputScript
