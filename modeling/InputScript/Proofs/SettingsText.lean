/-
Module: InputScript.Proofs.SettingsText
Purpose: Reading the text of sound settings.  Sections and options come back in their order, on top of
  those before any file, and a value comes back up to the first comment mark of its first line.
Main exports: Reads, within, uncommented, readDocument_render
-/
import InputScript.Proofs.SettingsUpkeep

namespace InputScript.Settings

open Text

variable {α β : Type}

/-! ### Changes of documents -/

namespace Document

theorem modifySection_modifySection (document : Document α) (name : String)
    (first second : Dictionary α → Dictionary α) :
    (document.modifySection name first).modifySection name second =
      document.modifySection name fun options => second (first options) := by
  unfold modifySection
  split
  · rfl
  · simp only [Dictionary.get?_set, if_true, Option.getD_some, Dictionary.set_set]

theorem map_modifySection (view : α → β) (document : Document α) (name : String)
    {change : Dictionary α → Dictionary α} {change' : Dictionary β → Dictionary β}
    (commutes : ∀ options, (change options).map (fun entry => (entry.1, view entry.2)) =
      change' (options.map fun entry => (entry.1, view entry.2))) :
    (document.modifySection name change).map view = (document.map view).modifySection name change' := by
  unfold modifySection
  split
  · simp only [map, commutes]
  · simp only [map, Dictionary.map_set, commutes, Dictionary.get?_map]
    cases Dictionary.get? document.sections name <;> rfl

/-- A section that is there is kept by a change of nothing. -/
theorem modifySection_id {document : Document α} {name : String}
    (present : document.hasSection name = true ∨ name = defaultSection) :
    document.modifySection name id = document := by
  unfold modifySection
  split
  · rfl
  · next proper =>
      have known : document.hasSection name = true :=
        present.resolve_right (by simpa using proper)
      rw [hasSection, Dictionary.has_iff] at known
      obtain ⟨own, found⟩ := Dictionary.exists_get?_of_mem_keys known
      rw [found]
      simp only [Option.getD_some, id, Dictionary.set_of_get? found]

end Document

/-! ### Reading a text -/

/-- Reading a text leads from one state to another, whatever follows it. -/
def Reads (text : List Char) (state after : ReadState) : Prop :=
  ∀ number tail, ∃ later,
    readLines state number (linesWithEnds (text ++ tail)) = readLines after later (linesWithEnds tail)

theorem Reads.nil (state : ReadState) : Reads [] state state := fun number _ => ⟨number, rfl⟩

variable {first : List Char} {state after : ReadState}

theorem Reads.append {second : List Char} {middle : ReadState} (early : Reads first state middle)
    (late : Reads second middle after) :
    Reads (first ++ second) state after := by
  intro number tail
  obtain ⟨between, firstReads⟩ := early number (second ++ tail)
  obtain ⟨later, secondReads⟩ := late between tail
  exact ⟨later, by rw [List.append_assoc, firstReads, secondReads]⟩

theorem reads_line {line : List Char} (single : '\n' ∉ line)
    (step : ∀ number, readLine state number (line ++ ['\n']) = .ok after) :
    Reads (line ++ ['\n']) state after := by
  intro number tail
  refine ⟨number + 1, ?_⟩
  rw [List.append_assoc, List.singleton_append, linesWithEnds_append single, readLines, step]

variable {text : List Char}

theorem Reads.all (reads : Reads text state after) (number : Nat) :
    readLines state number (linesWithEnds text) = .ok after := by
  obtain ⟨later, whole⟩ := reads number []
  rw [List.append_nil] at whole
  exact whole

/-! ### Reading a section -/

/-- The state within a section, after options with the given lines. -/
def within (state : ReadState) (name : String) (options : Dictionary (List String)) : ReadState :=
  { state with
    document := state.document.modifySection name (Dictionary.merge · options)
    current := some name
    option := options.getLast?.map (·.1)
    indentation := 0
    seenSections := if name == defaultSection then state.seenSections else name :: state.seenSections
    seenOptions := (options.map fun option => (name, option.1)).reverse ++ state.seenOptions }

theorem within_extend (state : ReadState) (name : String) (options : Dictionary (List String))
    (key : String) (lines : List String) (text : String) :
    (within state name (options ++ [(key, lines)])).extend text =
      within state name (options ++ [(key, lines ++ [text])]) := by
  unfold within ReadState.extend
  simp only [List.getLast?_concat, Option.map_some, Document.modifySection_modifySection,
    Dictionary.merge_append_singleton, Dictionary.get?_set, Dictionary.set_set, if_true, Option.getD_some,
    List.map_append, List.map_cons, List.map_nil]

variable {name : String}

/-- A header begins its section, if that has not been begun before. -/
theorem reads_header (isHeader : IsHeaderName name.toList) (unseen : name ∉ state.seenSections)
    (unheld : state.document.hasSection defaultSection = false) :
    Reads ('[' :: (name.toList ++ [']', '\n'])) state (within state name []) := by
  have single : '\n' ∉ '[' :: (name.toList ++ [']']) := by
    simp [isHeader.single.1]
  have begins (number : Nat) :
      ReadState.beginSection { state with indentation := 0 } number name = .ok (within state name []) := by
    have unchanged (present : state.document.hasSection name = true ∨ name = defaultSection) :
        state.document.modifySection name (Dictionary.merge · []) = state.document :=
      Document.modifySection_id present
    rw [ReadState.beginSection, within]
    split
    · next present =>
        have proper : (name == defaultSection) = false := by
          rw [beq_eq_false_iff_ne]
          rintro rfl
          rw [unheld] at present
          cases present
        rw [if_neg (by simpa using unseen), unchanged (.inl present), proper]
        rfl
    · next missing =>
        split
        · next isDefault =>
            rw [unchanged (.inr (by simpa using isDefault))]
            rfl
        · next proper =>
            rw [Document.addSection_eq (by simpa using missing) (by simpa using proper)]
            rfl
  have line : Reads ('[' :: (name.toList ++ [']']) ++ ['\n']) state (within state name []) := by
    refine reads_line single fun number => ?_
    have reads := readLine_header state number isHeader
    rw [String.ofList_toList, begins] at reads
    simpa using reads
  simpa using line

variable {options : Dictionary (List String)}

/-- The line of an option that has not been set before sets it. -/
theorem reads_first {key : String} (isName : IsOptionName key.toList)
    (isFirst : IsFirst key.toList first) (fresh : key ∉ options.map (·.1))
    (unseen : (name, key) ∉ state.seenOptions) :
    Reads (key.toList ++ ' ' :: '=' :: ' ' :: (first ++ ['\n'])) (within state name options)
      (within state name (options ++ [(key, [String.ofList (withoutComment first)])])) := by
  have single : '\n' ∉ key.toList ++ ' ' :: '=' :: ' ' :: first := by
    simp [isName.single.1, isFirst.single.1]
  have new : ¬(within state name options).seenOptions.contains (name, key) = true := by
    rw [List.contains_iff_mem]
    simpa [within, unseen] using fresh
  have named : key.toList.isEmpty = false := by simpa using isName.nonempty
  have sets (number : Nat) (line : List Char) :
      (within state name options).setOption number line name key.toList (withoutComment first) =
        .ok (within state name (options ++ [(key, [String.ofList (withoutComment first)])])) := by
    simp only [ReadState.setOption, named, Bool.false_eq_true, if_false, String.ofList_toList, if_neg new]
    simp only [within, Document.modifySection_modifySection, Dictionary.merge_append_singleton,
      List.getLast?_concat, Option.map_some, List.map_append, List.map_cons, List.map_nil,
      List.reverse_append, List.reverse_singleton, List.cons_append, List.nil_append]
  have line : Reads (key.toList ++ ' ' :: '=' :: ' ' :: first ++ ['\n']) (within state name options)
      (within state name (options ++ [(key, [String.ofList (withoutComment first)])])) := by
    refine reads_line single fun number => ?_
    have reads := readLine_option (within state name options) number isName isFirst rfl
    rw [show { within state name options with indentation := 0 } = within state name options from rfl,
      sets] at reads
    simpa using reads
  simpa using line

variable {rest : List (List Char)}

/-- Further lines of a value are added to it. -/
theorem reads_further {key : String} {lines : List String}
    (further : ∀ line ∈ rest, IsFurther line) :
    Reads (rest.flatMap fun line => '\t' :: (line ++ ['\n'])) (within state name (options ++ [(key, lines)]))
      (within state name (options ++ [(key, lines ++ rest.map String.ofList)])) := by
  induction rest generalizing lines with
  | nil =>
      rw [List.map_nil, List.append_nil]
      exact Reads.nil _
  | cons line rest hypothesis =>
      rw [List.forall_mem_cons] at further
      have isOpen : (within state name (options ++ [(key, lines)])).option.isSome = true := by
        simp [within]
      have single : '\n' ∉ '\t' :: line := by
        simp [further.1.single.1]
      have first : Reads ('\t' :: line ++ ['\n']) (within state name (options ++ [(key, lines)]))
          (within state name (options ++ [(key, lines ++ [String.ofList line])])) := by
        refine reads_line single fun number => ?_
        rw [List.cons_append, readLine_further _ number further.1 isOpen rfl, within_extend]
      have whole := first.append (hypothesis further.2)
      rw [List.append_assoc lines] at whole
      exact whole

/-! ### Values without comments -/

/-- The first line of a value. -/
def firstLine (value : String) : List Char := value.toList.takeWhile (· != '\n')

/-- What is read back of a value that is written: its first line ends at its first comment mark. -/
def uncommented (value : String) : String :=
  String.ofList (withoutComment (firstLine value) ++ value.toList.dropWhile (· != '\n'))

/-- A value is kept in full exactly if its first line has no comment mark. -/
theorem uncommented_eq_self_iff (value : String) :
    uncommented value = value ↔ ¬HasMark (firstLine value) := by
  rw [← withoutComment_eq_self_iff, uncommented, ← String.toList_inj, String.toList_ofList]
  have whole : firstLine value ++ value.toList.dropWhile (· != '\n') = value.toList :=
    List.takeWhile_append_dropWhile
  constructor
  · intro same
    exact List.append_cancel_right (same.trans whole.symm)
  · intro same
    rw [same, whole]

/-- The characters of a text within one line are written as they are. -/
theorem flatMap_indent (single : '\n' ∉ text) :
    (text.flatMap fun c => if c == '\n' then ['\n', '\t'] else [c]) = text := by
  induction text with
  | nil => rfl
  | cons c rest hypothesis =>
      rw [List.mem_cons, not_or] at single
      rw [List.flatMap_cons, hypothesis single.2, if_neg (by simpa using Ne.symm single.1)]
      rfl

variable {value : String}

/-- A value is written line by line, with its further lines indented. -/
theorem toList_renderValue (shape : value.toList = first ++ rest.flatMap ('\n' :: ·))
    (single : '\n' ∉ first) (further : ∀ line ∈ rest, '\n' ∉ line) :
    (renderValue value).toList ++ ['\n'] =
      first ++ '\n' :: rest.flatMap fun line => '\t' :: (line ++ ['\n']) := by
  rw [renderValue, String.toList_ofList, shape, List.flatMap_append, flatMap_indent single,
    List.append_assoc]
  congr 1
  clear shape
  induction rest with
  | nil => rfl
  | cons line rest hypothesis =>
      rw [List.forall_mem_cons] at further
      rw [List.flatMap_cons, List.flatMap_append, List.append_assoc, hypothesis further.2,
        List.flatMap_cons, List.flatMap_cons, flatMap_indent further.1]
      simp

theorem firstLine_eq (shape : value.toList = first ++ rest.flatMap ('\n' :: ·))
    (single : '\n' ∉ first) :
    firstLine value = first ∧ value.toList.dropWhile (· != '\n') = rest.flatMap ('\n' :: ·) := by
  have passes : ∀ c ∈ first, (c != '\n') = true := by
    intro c member
    rw [bne_iff_ne]
    rintro rfl
    exact single member
  rw [firstLine, shape, List.takeWhile_append_of_pos passes, List.dropWhile_append_of_pos passes]
  cases rest with
  | nil => simp
  | cons line rest => simp [List.flatMap_cons]

theorem trimEnd_withoutComment (trimmed : trim text = text) :
    trimEnd (withoutComment text) = withoutComment text := by
  rw [withoutComment]
  split
  · exact trimEnd_trimEnd _
  · exact trimEnd_of_trim trimmed

/-- The lines that are read back of a value make it up without its comment. -/
theorem joinLines_reread (shape : value.toList = first ++ rest.flatMap ('\n' :: ·))
    (ended : trimEnd value.toList = value.toList) (trimmed : trim first = first)
    (single : '\n' ∉ first) :
    joinLines (String.ofList (withoutComment first) :: rest.map String.ofList) = uncommented value := by
  have spelled : (rest.map String.ofList).flatMap ('\n' :: ·.toList) = rest.flatMap ('\n' :: ·) := by
    rw [List.flatMap_map]
    simp only [String.toList_ofList]
  obtain ⟨isFirst, isRest⟩ := firstLine_eq shape single
  rw [joinLines, uncommented, toList_intercalate_lines, String.toList_ofList, isFirst, isRest, spelled]
  congr 1
  rw [shape] at ended
  -- With further lines the end is as it was, and else the first line is cut to end without blanks.
  by_cases several : rest.flatMap ('\n' :: ·) = []
  · rw [several, List.append_nil, trimEnd_withoutComment trimmed]
  · exact trimEnd_append_of_ended several ended _

/-- The text of an option. -/
def optionText (option : String × String) : List Char :=
  option.1.toList ++ ' ' :: '=' :: ' ' :: ((renderValue option.2).toList ++ ['\n'])

/-- The text of an option is read as the option without the comment of its value. -/
theorem reads_option {option : String × String} (isOption : IsOption option.1 option.2)
    (fresh : option.1 ∉ options.map (·.1)) (unseen : (name, option.1) ∉ state.seenOptions) :
    ∃ lines, joinLines lines = uncommented option.2 ∧
      Reads (optionText option) (within state name options)
        (within state name (options ++ [(option.1, lines)])) := by
  obtain ⟨first, rest, shape, isFirst, further⟩ := isOption.shape
  refine ⟨_, joinLines_reread shape isOption.ended isFirst.trimmed isFirst.single.1, ?_⟩
  have whole := (reads_first isOption.named isFirst fresh unseen).append (reads_further further)
  have written := toList_renderValue shape isFirst.single.1 fun line member => (further line member).single.1
  rw [optionText, written]
  simpa using whole

variable {options : Dictionary String}

/-- Options are read one after the other. -/
theorem reads_options (areOptions : Options IsOption options)
    (unseen : ∀ option ∈ options, (name, option.1) ∉ state.seenOptions) :
    ∃ raw : Dictionary (List String), raw.map (fun entry => (entry.1, joinLines entry.2)) =
        options.map (fun entry => (entry.1, uncommented entry.2)) ∧
      Reads (options.flatMap optionText) (within state name []) (within state name raw) := by
  -- By the last option: the state after the earlier ones is the one that the next is read in.
  induction options using List.reverseRecOn with
  | nil => exact ⟨[], rfl, Reads.nil _⟩
  | append_singleton options option hypothesis =>
      obtain ⟨distinct, each⟩ := areOptions
      rw [List.map_append, List.nodup_append] at distinct
      rw [List.forall_mem_append, List.forall_mem_singleton] at each unseen
      obtain ⟨raw, same, early⟩ := hypothesis ⟨distinct.1, each.1⟩ unseen.1
      have fresh : option.1 ∉ raw.map (·.1) := by
        rw [Dictionary.keys_of_map_eq same]
        exact fun present => distinct.2.2 _ present _ List.mem_cons_self rfl
      obtain ⟨lines, joined, last⟩ := reads_option each.2 fresh unseen.2
      refine ⟨raw ++ [(option.1, lines)], ?_, ?_⟩
      · rw [List.map_append, List.map_append, same, List.map_singleton, List.map_singleton, joined]
      · rw [List.flatMap_append, List.flatMap_singleton]
        exact early.append last

theorem joinLines_append_empty (lines : List String) : joinLines (lines ++ [""]) = joinLines lines := by
  cases lines with
  | nil => rfl
  | cons first rest =>
      rw [joinLines, joinLines, List.cons_append, toList_intercalate_lines, toList_intercalate_lines,
        List.flatMap_append, ← List.append_assoc]
      congr 1
      exact trimEnd_blank isBlank_newline _

/-- The empty line behind a section changes no value. -/
theorem reads_gap (state : ReadState) (name : String) (raw : Dictionary (List String)) :
    ∃ closed : Dictionary (List String), closed.map (fun entry => (entry.1, joinLines entry.2)) =
        raw.map (fun entry => (entry.1, joinLines entry.2)) ∧
      Reads ['\n'] (within state name raw) (within state name closed) := by
  have line {after : ReadState} (same : (within state name raw).extend "" = after) :
      Reads ['\n'] (within state name raw) after :=
    reads_line List.not_mem_nil fun number => by rw [← same]; exact readLine_empty _ number
  -- Without options the line is skipped, else it becomes the last line of the last value.
  rcases List.eq_nil_or_concat raw with rfl | ⟨early, ⟨key, lines⟩, rfl⟩
  · exact ⟨[], rfl, line rfl⟩
  · rw [List.concat_eq_append] at line ⊢
    refine ⟨early ++ [(key, lines ++ [""])], ?_, line (within_extend ..)⟩
    rw [List.map_append, List.map_append, List.map_singleton, List.map_singleton, joinLines_append_empty]

/-- The text of a section. -/
def sectionText (entry : String × Dictionary String) : List Char :=
  (renderSection entry.1 entry.2).toList

theorem sectionText_eq (name : String) (options : Dictionary String) :
    sectionText (name, options) =
      '[' :: (name.toList ++ [']', '\n']) ++ (options.flatMap optionText ++ ['\n']) := by
  have written (option : String × String) :
      (option.1 ++ " = " ++ renderValue option.2 ++ "\n").toList = optionText option := by
    simp [optionText]
  simp only [sectionText, renderSection, String.toList_append, String.toList_join, List.flatMap_map, written]
  simp

theorem reads_section (isHeader : IsHeaderName name.toList)
    (areOptions : Options IsOption options) (unbegun : name ∉ state.seenSections)
    (unheld : state.document.hasSection defaultSection = false)
    (unseen : ∀ option ∈ options, (name, option.1) ∉ state.seenOptions) :
    ∃ raw : Dictionary (List String), raw.map (fun entry => (entry.1, joinLines entry.2)) =
        options.map (fun entry => (entry.1, uncommented entry.2)) ∧
      Reads (sectionText (name, options)) state (within state name raw) := by
  obtain ⟨raw, same, middle⟩ := reads_options areOptions unseen
  obtain ⟨closed, kept, last⟩ := reads_gap state name raw
  refine ⟨closed, kept.trans same, ?_⟩
  rw [sectionText_eq]
  exact (reads_header isHeader unbegun unheld).append (middle.append last)

/-! ### Reading a document -/

theorem hasSection_modifySection {document : Document α} {other : String}
    (missing : document.hasSection other = false) (apart : name = defaultSection ∨ other ≠ name)
    (change : Dictionary α → Dictionary α) :
    (document.modifySection name change).hasSection other = false := by
  rw [Document.modifySection]
  split
  · exact missing
  · next proper =>
      have different : other ≠ name := apart.resolve_left (by simpa using proper)
      rw [Bool.eq_false_iff, ne_eq, Document.hasSection, Dictionary.has_iff] at missing ⊢
      rw [Dictionary.keys_set]
      split
      · exact missing
      · simpa [different] using missing

/-- A section that is written goes on top of what is there. -/
def overlay (document : Document String) (entry : String × Dictionary String) : Document String :=
  document.modifySection entry.1
    (Dictionary.merge · (entry.2.map fun option => (option.1, uncommented option.2)))

theorem map_within {raw : Dictionary (List String)}
    (same : raw.map (fun entry => (entry.1, joinLines entry.2)) =
      options.map fun entry => (entry.1, uncommented entry.2)) :
    (within state name raw).document.map joinLines =
      overlay (state.document.map joinLines) (name, options) := by
  refine Document.map_modifySection joinLines state.document name fun own => ?_
  rw [Dictionary.map_merge, same]

variable {entries : Dictionary (Dictionary String)}

/-- Sections are read one after the other, each on top of what is there. -/
theorem reads_sections (distinct : (entries.map (·.1)).Nodup)
    (areSections : ∀ entry ∈ entries, IsHeaderName entry.1.toList ∧ Options IsOption entry.2)
    (unheld : state.document.hasSection defaultSection = false)
    (unbegun : ∀ entry ∈ entries, entry.1 ∉ state.seenSections)
    (unseen : ∀ entry ∈ entries, ∀ key, (entry.1, key) ∉ state.seenOptions) :
    ∃ after, Reads (entries.flatMap sectionText) state after ∧ after.malformed = state.malformed ∧
      after.document.map joinLines = entries.foldl overlay (state.document.map joinLines) := by
  induction entries generalizing state with
  | nil => exact ⟨state, Reads.nil _, rfl, rfl⟩
  | cons entry rest hypothesis =>
      obtain ⟨name, options⟩ := entry
      rw [List.map_cons, List.nodup_cons] at distinct
      rw [List.forall_mem_cons] at areSections unbegun unseen
      obtain ⟨raw, same, first⟩ := reads_section areSections.1.1 areSections.1.2 unbegun.1 unheld
        fun option _ => unseen.1 option.1
      have apart : ∀ entry ∈ rest, entry.1 ≠ name := by
        intro entry member same
        exact distinct.1 (List.mem_map.mpr ⟨entry, member, same⟩)
      have unheldAfter : (within state name raw).document.hasSection defaultSection = false := by
        refine hasSection_modifySection unheld ?_ _
        by_cases isDefault : name = defaultSection
        · exact .inl isDefault
        · exact .inr (Ne.symm isDefault)
      have unbegunAfter : ∀ entry ∈ rest, entry.1 ∉ (within state name raw).seenSections := by
        intro entry member
        rw [within]
        dsimp only
        split
        · exact unbegun.2 entry member
        · rw [List.mem_cons, not_or]
          exact ⟨apart entry member, unbegun.2 entry member⟩
      have unseenAfter : ∀ entry ∈ rest, ∀ key, (entry.1, key) ∉ (within state name raw).seenOptions := by
        intro entry member key inside
        rcases List.mem_append.mp inside with here | early
        · obtain ⟨option, -, same⟩ := List.mem_map.mp (List.mem_reverse.mp here)
          exact apart entry member (Prod.mk.inj same).1.symm
        · exact unseen.2 entry member key early
      obtain ⟨after, later, readable, result⟩ :=
        hypothesis distinct.2 areSections.2 unheldAfter unbegunAfter unseenAfter
      refine ⟨after, first.append later, readable, ?_⟩
      rw [result, map_within same]
      rfl

/-- The sections of a document as they are written, the default options first if there are any. -/
def writtenSections (document : Document String) : Dictionary (Dictionary String) :=
  (if document.defaults.isEmpty then [] else [(defaultSection, document.defaults)]) ++ document.sections

theorem toList_render (document : Document String) :
    document.render.toList = (writtenSections document).flatMap sectionText := by
  rw [Document.render, writtenSections, List.flatMap_append, String.toList_append, String.toList_join,
    List.flatMap_map]
  congr 1
  split
  · rfl
  · simp [sectionText]

theorem foldl_overlay (proper : ∀ entry ∈ entries, entry.1 ≠ defaultSection)
    (document : Document String) :
    entries.foldl overlay document =
      { document with
        sections := (entries.map fun entry =>
          (entry.1, entry.2.map fun option => (option.1, uncommented option.2))).foldl
            (fun reached entry => Dictionary.set reached entry.1
              (Dictionary.merge ((Dictionary.get? reached entry.1).getD []) entry.2))
            document.sections } := by
  induction entries generalizing document with
  | nil => rfl
  | cons entry rest hypothesis =>
      rw [List.forall_mem_cons] at proper
      have other : (entry.1 == defaultSection) = false := beq_eq_false_iff_ne.mpr proper.1
      rw [List.foldl_cons, hypothesis proper.2, overlay, Document.modifySection, other]
      rfl

variable {document : Document String}

/-- Sound settings on top of those before any file are what is read back of them. -/
theorem foldl_overlay_initial (sound : IsSound IsOption document) :
    (writtenSections document).foldl overlay Document.initial = document.map uncommented := by
  have proper : ∀ entry ∈ document.sections, entry.1 ≠ defaultSection := by
    intro entry member
    exact (sound.sections.each entry member).named.proper
  have defaults : (if document.defaults.isEmpty then []
        else [(defaultSection, document.defaults)]).foldl overlay Document.initial =
      { Document.initial with
        defaults := document.defaults.map fun option => (option.1, uncommented option.2) } := by
    split
    · next nothing =>
        rw [List.isEmpty_iff.mp nothing]
        rfl
    · have distinct := sound.defaults.distinct
      rw [← Dictionary.keys_map uncommented] at distinct
      rw [List.foldl_cons, List.foldl_nil, overlay, Document.modifySection, if_pos (beq_self_eq_true _)]
      exact congrArg (Document.mk · Document.initial.sections) (Dictionary.merge_nil distinct)
  rw [writtenSections, List.foldl_append, defaults, foldl_overlay proper, Document.map]
  congr 1
  refine @Dictionary.foldl_set_eq _ (fun own options => Dictionary.merge (own.getD []) options) []
    Document.initial.sections _ ?_ ?_ ?_
  · rw [Dictionary.keys_map]
    exact sound.grown
  · rw [List.nil_append, Dictionary.keys_map]
    exact sound.sections.distinct
  · intro entry member
    obtain ⟨old, inside, rfl⟩ := List.mem_map.mp member
    have isSection := sound.sections.each old inside
    have distinct := isSection.options.distinct
    have grown := isSection.grown
    rw [← Dictionary.keys_map uncommented] at distinct grown
    exact Dictionary.merge_eq_of_prefix grown distinct

/-! ### Carriage returns -/

theorem notMem_renderValue (isOption : IsOption name value) :
    '\r' ∉ (renderValue value).toList := by
  obtain ⟨first, rest, shape, isFirst, further⟩ := isOption.shape
  intro inside
  rw [renderValue, String.toList_ofList, List.mem_flatMap] at inside
  obtain ⟨c, member, written⟩ := inside
  have plain : '\r' ∉ value.toList := by
    rw [shape, List.mem_append, List.mem_flatMap, not_or]
    refine ⟨isFirst.single.2, ?_⟩
    rintro ⟨line, isLine, inLine⟩
    exact (further line isLine).single.2 (by simpa using inLine)
  split at written
  · simp at written
  · rw [List.mem_singleton] at written
    exact plain (written ▸ member)

/-- A carriage return never stands in the file of sound settings. -/
theorem notMem_sectionText (isHeader : IsHeaderName name.toList)
    (areOptions : Options IsOption options) :
    '\r' ∉ sectionText (name, options) := by
  have plain : '\r' ∉ options.flatMap optionText := by
    rw [List.mem_flatMap]
    rintro ⟨option, member, inside⟩
    have isOption := areOptions.each option member
    rw [optionText] at inside
    simp [isOption.named.single.2, notMem_renderValue isOption] at inside
  rw [sectionText_eq]
  simp [isHeader.single.2, plain]

/-! ### Writing and reading again -/

theorem isHeaderName_defaultSection : IsHeaderName defaultSection.toList := by decide

theorem writtenSections_areSections (sound : IsSound IsOption document) :
    ((writtenSections document).map (·.1)).Nodup ∧
      ∀ entry ∈ writtenSections document, IsHeaderName entry.1.toList ∧ Options IsOption entry.2 := by
  have areSections : ∀ entry ∈ document.sections, IsHeaderName entry.1.toList ∧ Options IsOption entry.2 := by
    intro entry member
    have isSection := sound.sections.each entry member
    exact ⟨isSection.named.header, isSection.options⟩
  rw [writtenSections]
  split
  · exact ⟨sound.sections.distinct, areSections⟩
  · refine ⟨List.nodup_cons.mpr ⟨?_, sound.sections.distinct⟩, List.forall_mem_cons.mpr ⟨⟨?_, sound.defaults⟩,
      areSections⟩⟩
    · intro present
      obtain ⟨entry, member, isDefault⟩ := List.mem_map.mp present
      exact (sound.sections.each entry member).named.proper isDefault
    · exact isHeaderName_defaultSection

/-- Sound settings that are written can be read, and all that is lost is what follows a comment mark in
the first line of a value. -/
theorem readDocument_render (sound : IsSound IsOption document) :
    readDocument Document.initial (encodeBytes document.render) = .ok (document.map uncommented) := by
  obtain ⟨distinct, areSections⟩ := writtenSections_areSections sound
  have plain : '\r' ∉ document.render.toList := by
    rw [toList_render, List.mem_flatMap]
    rintro ⟨entry, member, inside⟩
    exact notMem_sectionText (areSections entry member).1 (areSections entry member).2 inside
  let start : ReadState := { document := Document.initial.map fun value => [value] }
  have unheld : start.document.hasSection defaultSection = false := by decide
  have view : start.document.map joinLines = Document.initial := rfl
  obtain ⟨after, reads, readable, result⟩ :=
    reads_sections distinct areSections unheld (by simp [start]) (by simp [start])
  rw [view, foldl_overlay_initial sound] at result
  have steps : readLines { document := Document.initial.map fun value => [value] } 1
      (linesWithEnds document.render.toList) = .ok after := by
    rw [toList_render]
    exact reads.all 1
  rw [readDocument, decodeBytes_encodeBytes]
  simp only [unifyLineEnds_eq_self plain, steps, ReadState.finish]
  rw [readable, result]
  rfl

end InputScript.Settings
