/-
Module: InputScript.Proofs.SettingsUpkeep
Purpose: What holds of all settings that are read from a file, whatever it contains, and stays true when
  options are set: names and values can be written, no name comes twice, and the first sections and
  options are those before any file.
Main exports: Options, IsSound, IsOption, Manager.set_isSound
-/
import InputScript.Proofs.Dictionaries
import InputScript.Proofs.SettingsLines
import InputScript.Settings.Manager

namespace InputScript.Settings

open Text

variable {α β : Type} {good : String → α → Prop}

/-! ### Sound documents -/

/-- Options with distinct names that all meet a condition. -/
structure Options (good : String → α → Prop) (options : Dictionary α) : Prop where
  distinct : (options.map (·.1)).Nodup
  each : ∀ entry ∈ options, good entry.1 entry.2

theorem Options.nil : Options good [] := ⟨List.nodup_nil, List.forall_mem_nil _⟩

variable {name : String}

theorem Options.set {options : Dictionary α} (holds : Options good options) {value : α}
    (fits : good name value) : Options good (Dictionary.set options name value) where
  distinct := by
    rw [Dictionary.keys_set]
    split
    · exact holds.distinct
    · next missing =>
        refine List.nodup_append.mpr ⟨holds.distinct, List.pairwise_singleton _ _, ?_⟩
        rintro other present _ last rfl
        exact missing (List.mem_singleton.mp last ▸ present)
  each := by
    intro entry member
    rcases Dictionary.mem_set member with rfl | old
    · exact fits
    · exact holds.each entry old

/-- The name of a section that is not the one of default options. -/
structure IsSectionName (name : String) : Prop where
  header : IsHeaderName name.toList
  proper : name ≠ defaultSection

/-- The names of the options of a section before any file is read. -/
def startingNames (name : String) : List String :=
  ((Dictionary.get? Document.initial.sections name).getD []).map (·.1)

/-- A section whose options meet a condition and begin with those before any file is read. -/
structure IsSection (good : String → α → Prop) (name : String) (own : Dictionary α) : Prop where
  named : IsSectionName name
  options : Options good own
  grown : startingNames name <+: own.map (·.1)

/-- A document whose options meet a condition, with the sections before any file first. -/
structure IsSound (good : String → α → Prop) (document : Document α) : Prop where
  defaults : Options good document.defaults
  sections : Options (IsSection good) document.sections
  grown : Document.initial.sections.map (·.1) <+: document.sections.map (·.1)

/-- The options that stand in a section itself. -/
def Document.own (document : Document α) (name : String) : Dictionary α :=
  if name == defaultSection then document.defaults
  else (Dictionary.get? document.sections name).getD []

theorem Document.own_modifySection (document : Document α) (name : String)
    (change : Dictionary α → Dictionary α) :
    (document.modifySection name change).own name = change (document.own name) := by
  unfold own modifySection
  split
  · rfl
  · rw [Dictionary.get?_set, if_pos rfl]
    rfl

variable {document : Document α}

theorem Document.not_mem_names (missing : document.hasSection name = false) :
    name ∉ document.sections.map (·.1) := by
  rw [← Dictionary.has_iff]
  simpa [hasSection] using missing

theorem Document.addSection_eq (missing : document.hasSection name = false)
    (proper : name ≠ defaultSection) :
    document.addSection name = document.modifySection name id := by
  have other : (name == defaultSection) = false := beq_eq_false_iff_ne.mpr proper
  rw [modifySection, other, Dictionary.get?_eq_none (not_mem_names missing)]
  rfl

theorem IsSound.own (sound : IsSound good document) (name : String) :
    Options good (document.own name) := by
  rw [Document.own]
  split
  · exact sound.defaults
  · cases found : Dictionary.get? document.sections name with
    | none => exact Options.nil
    | some own => exact (sound.sections.each _ (Dictionary.mem_of_get? found)).options

/-- Changing the options of a section for good ones, where none goes away, keeps a document sound. -/
theorem IsSound.modifySection (sound : IsSound good document) (named : IsHeaderName name.toList)
    {change : Dictionary α → Dictionary α} (kept : Options good (change (document.own name)))
    (grows : (document.own name).map (·.1) <+: (change (document.own name)).map (·.1)) :
    IsSound good (document.modifySection name change) := by
  rw [Document.own] at kept grows
  rw [Document.modifySection]
  split
  · next isDefault =>
      rw [if_pos isDefault] at kept
      exact ⟨kept, sound.sections, sound.grown⟩
  · next proper =>
      rw [if_neg proper] at kept grows
      refine ⟨sound.defaults, sound.sections.set ⟨⟨named, by simpa using proper⟩, kept, ?_⟩,
        sound.grown.trans (Dictionary.keys_prefix_set _ _ _)⟩
      refine List.IsPrefix.trans ?_ grows
      cases found : Dictionary.get? document.sections name with
      | some own => exact (sound.sections.each _ (Dictionary.mem_of_get? found)).grown
      | none =>
          -- A section that is not there is none of those before any file.
          have fresh : name ∉ Document.initial.sections.map (·.1) := by
            intro known
            obtain ⟨own, present⟩ := Dictionary.exists_get?_of_mem_keys (sound.grown.subset known)
            rw [found] at present
            cases present
          rw [startingNames, Dictionary.get?_eq_none fresh]
          exact List.nil_prefix

theorem IsSound.setOption (sound : IsSound good document) {option : String}
    (named : IsHeaderName name.toList) (value : Dictionary α → α)
    (fits : good option (value (document.own name))) :
    IsSound good (document.modifySection name fun options => Dictionary.set options option (value options)) :=
  sound.modifySection named ((sound.own name).set fits) (Dictionary.keys_prefix_set _ _ _)

theorem IsSound.addSection (sound : IsSound good document) (named : IsSectionName name)
    (missing : document.hasSection name = false) :
    IsSound good (document.addSection name) := by
  rw [Document.addSection_eq missing named.proper]
  exact sound.modifySection named.header (sound.own name) List.prefix_rfl

theorem Options.map {good' : String → β → Prop} {options : Dictionary α} (holds : Options good options)
    {change : α → β} (carries : ∀ name value, good name value → good' name (change value)) :
    Options good' (options.map fun entry => (entry.1, change entry.2)) where
  distinct := by
    rw [Dictionary.keys_map]
    exact holds.distinct
  each := by
    intro entry member
    obtain ⟨old, inside, rfl⟩ := List.mem_map.mp member
    exact carries _ _ (holds.each old inside)

/-- Changing every value for a good one keeps a document sound. -/
theorem IsSound.map {good' : String → β → Prop} (sound : IsSound good document) {change : α → β}
    (carries : ∀ name value, good name value → good' name (change value)) :
    IsSound good' (document.map change) where
  defaults := sound.defaults.map carries
  sections := by
    refine sound.sections.map ?_
    intro name own isSection
    refine ⟨isSection.named, isSection.options.map carries, ?_⟩
    rw [Dictionary.keys_map]
    exact isSection.grown
  grown := by
    rw [Document.map, Dictionary.keys_map]
    exact sound.grown

/-! ### Options -/

/-- The lines of the value of an option while a file is read. -/
structure IsRaw (name : String) (lines : List String) : Prop where
  named : IsOptionName name.toList
  shape : ∃ first rest, lines = first :: rest ∧ IsFirst name.toList first.toList ∧
    ∀ line ∈ rest, IsFurther line.toList

/-- An option whose value can be written, a value of one line or of several ones. -/
structure IsOption (name value : String) : Prop where
  named : IsOptionName name.toList
  shape : ∃ (first : List Char) (rest : List (List Char)),
    value.toList = first ++ rest.flatMap ('\n' :: ·) ∧ IsFirst name.toList first ∧
      ∀ line ∈ rest, IsFurther line
  ended : trimEnd value.toList = value.toList

theorem IsRaw.append {lines : List String} (raw : IsRaw name lines) {text : List Char}
    (isFurther : IsFurther text) : IsRaw name (lines ++ [String.ofList text]) := by
  obtain ⟨first, rest, rfl, isFirst, others⟩ := raw.shape
  refine ⟨raw.named, first, rest ++ [String.ofList text], rfl, isFirst, ?_⟩
  intro line member
  rcases List.mem_append.mp member with old | last
  · exact others line old
  · rw [List.mem_singleton.mp last, String.toList_ofList]
    exact isFurther

theorem toList_intercalate_lines (first : String) (rest : List String) :
    (String.intercalate "\n" (first :: rest)).toList =
      first.toList ++ rest.flatMap ('\n' :: ·.toList) := by
  induction rest generalizing first with
  | nil => simp
  | cons second rest hypothesis =>
      rw [String.intercalate_cons_cons, String.toList_append, String.toList_append, hypothesis]
      simp

/-- Blank lines at the end of a value go away, and the other lines stay as they are. -/
theorem trimEnd_lines {first : List Char} (trimmed : trim first = first) (rest : List (List Char))
    (further : ∀ line ∈ rest, trim line = line) :
    ∃ kept, kept <+: rest ∧
      trimEnd (first ++ rest.flatMap ('\n' :: ·)) = first ++ kept.flatMap ('\n' :: ·) := by
  -- From the last line backwards: an empty one is dropped with its line end, and any other one ends the
  -- text with a character that is no blank.
  induction rest using List.reverseRecOn with
  | nil => exact ⟨[], List.prefix_rfl, by simp [trimEnd_of_trim trimmed]⟩
  | append_singleton rest line hypothesis =>
      rw [List.forall_mem_append, List.forall_mem_singleton] at further
      rw [List.flatMap_append, List.flatMap_singleton, ← List.append_assoc]
      cases line with
      | nil =>
          obtain ⟨kept, early, ends⟩ := hypothesis further.1
          exact ⟨kept, early.trans (List.prefix_append _ _), by rw [trimEnd_blank isBlank_newline, ends]⟩
      | cons c line =>
          refine ⟨rest ++ [c :: line], List.prefix_rfl, ?_⟩
          have split : first ++ rest.flatMap ('\n' :: ·) ++ '\n' :: c :: line =
              (first ++ rest.flatMap ('\n' :: ·) ++ ['\n']) ++ c :: line := by simp
          have ends : trimEnd line = line := by
            have whole := trim_solid_cons (solid_of_trim further.2) line
            rw [further.2] at whole
            exact (List.cons.inj whole).2.symm
          rw [split, trimEnd_solid (solid_of_trim further.2), ends]
          simp

/-- The lines of an option become a value that can be written. -/
theorem IsRaw.joinLines {lines : List String} (raw : IsRaw name lines) :
    IsOption name (joinLines lines) := by
  obtain ⟨first, rest, rfl, isFirst, others⟩ := raw.shape
  have further : ∀ line ∈ rest.map String.toList, IsFurther line := by
    intro line member
    obtain ⟨text, inside, rfl⟩ := List.mem_map.mp member
    exact others text inside
  obtain ⟨kept, early, ends⟩ :=
    trimEnd_lines isFirst.trimmed (rest.map String.toList) fun line member => (further line member).trimmed
  have spelled : (Settings.joinLines (first :: rest)).toList =
      first.toList ++ kept.flatMap ('\n' :: ·) := by
    rw [Settings.joinLines, String.toList_ofList, toList_intercalate_lines, ← ends, List.flatMap_map]
  refine ⟨raw.named, ⟨first.toList, kept, spelled, isFirst, ?_⟩, ?_⟩
  · exact fun line member => further line (early.subset member)
  · rw [Settings.joinLines, String.toList_ofList, trimEnd_trimEnd]

/-! ### Plain options -/

/-- A key within one line, without blanks around it and without characters that mean something in a
settings file. -/
structure IsPlainKey (key : String) : Prop where
  nonempty : key ≠ ""
  trimmed : trim key.toList = key.toList
  single : IsSingle key.toList
  plain : ∀ c ∈ key.toList, c ∉ ['=', ':', '#', ';', '[']

/-- A value within one line, without blanks around it. -/
structure IsPlainValue (value : String) : Prop where
  trimmed : trim value.toList = value.toList
  single : IsSingle value.toList

variable {key : String}

theorem IsPlainKey.isOptionName (isKey : IsPlainKey key) : IsOptionName key.toList where
  nonempty := mt String.toList_eq_nil_iff.mp isKey.nonempty
  trimmed := isKey.trimmed
  single := isKey.single
  undivided := by
    intro c member
    have plain := isKey.plain c member
    simp only [List.mem_cons, not_or] at plain
    simp [isDelimiter, plain]
  unmarked := by
    rintro ⟨before, after, spelled, -⟩
    exact isKey.plain '#' (by simp [spelled]) (by simp)
  noComment := by
    intro begins
    exact isKey.plain ';' (List.mem_of_head? begins) (by simp)

variable {value : String}

theorem IsPlainKey.isFirst (isKey : IsPlainKey key) (isValue : IsPlainValue value) :
    IsFirst key.toList value.toList where
  trimmed := isValue.trimmed
  single := isValue.single
  noHeader := by
    intro begins
    exact absurd (by simp) (isKey.plain '[' (List.mem_of_head? begins))

theorem IsPlainKey.isRaw (isKey : IsPlainKey key) (isValue : IsPlainValue value) :
    IsRaw key [value] :=
  ⟨isKey.isOptionName, value, [], rfl, isKey.isFirst isValue, List.forall_mem_nil _⟩

theorem IsPlainKey.isOption (isKey : IsPlainKey key) (isValue : IsPlainValue value) :
    IsOption key value where
  named := isKey.isOptionName
  shape := ⟨value.toList, [], by simp, isKey.isFirst isValue, List.forall_mem_nil _⟩
  ended := trimEnd_of_trim isValue.trimmed

/-! ### Checks -/

/-- Decides `IsSingle`. -/
def isSingle (text : List Char) : Bool := !text.contains '\n' && !text.contains '\r'

theorem isSingle_iff (text : List Char) : isSingle text = true ↔ IsSingle text := by
  simp [isSingle, IsSingle]

instance (key : String) : Decidable (IsPlainKey key) :=
  decidable_of_iff ((key != "" && trim key.toList == key.toList && isSingle key.toList &&
      key.toList.all fun c => !(['=', ':', '#', ';', '['].contains c)) = true) <| by
    simp only [Bool.and_eq_true, bne_iff_ne, beq_iff_eq, isSingle_iff, List.all_eq_true,
      Bool.not_eq_true', List.contains_eq_mem, decide_eq_false_iff_not]
    constructor
    · rintro ⟨⟨⟨nonempty, trimmed⟩, single⟩, plain⟩
      exact ⟨nonempty, trimmed, single, plain⟩
    · rintro ⟨nonempty, trimmed, single, plain⟩
      exact ⟨⟨⟨nonempty, trimmed⟩, single⟩, plain⟩

instance (value : String) : Decidable (IsPlainValue value) :=
  decidable_of_iff ((trim value.toList == value.toList && isSingle value.toList) = true) <| by
    simp only [Bool.and_eq_true, beq_iff_eq, isSingle_iff]
    constructor
    · rintro ⟨trimmed, single⟩
      exact ⟨trimmed, single⟩
    · rintro ⟨trimmed, single⟩
      exact ⟨trimmed, single⟩

instance (name : List Char) : Decidable (IsHeaderName name) :=
  decidable_of_iff ((!name.isEmpty && isSingle name &&
      (beforeInlineComment true ('[' :: name)).isNone) = true) <| by
    simp only [Bool.and_eq_true, Bool.not_eq_true', List.isEmpty_eq_false_iff, isSingle_iff,
      Option.isNone_iff_eq_none, ← not_hasMark_iff]
    constructor
    · rintro ⟨⟨nonempty, single⟩, unmarked⟩
      exact ⟨nonempty, single, unmarked⟩
    · rintro ⟨nonempty, single, unmarked⟩
      exact ⟨⟨nonempty, single⟩, unmarked⟩

instance (name : String) : Decidable (IsSectionName name) :=
  decidable_of_iff ((decide (IsHeaderName name.toList) && name != defaultSection) = true) <| by
    simp only [Bool.and_eq_true, decide_eq_true_eq, bne_iff_ne]
    constructor
    · rintro ⟨header, proper⟩
      exact ⟨header, proper⟩
    · rintro ⟨header, proper⟩
      exact ⟨header, proper⟩

/-- The settings before any file are plain. -/
theorem isSound_initial :
    IsSound (fun key value => IsPlainKey key ∧ IsPlainValue value) Document.initial where
  defaults := Options.nil
  sections := by
    have named : ∀ entry ∈ Document.initial.sections, IsSectionName entry.1 := by decide
    have distinct : ∀ entry ∈ Document.initial.sections, (entry.2.map (·.1)).Nodup := by decide
    have plain : ∀ entry ∈ Document.initial.sections, ∀ option ∈ entry.2,
        IsPlainKey option.1 ∧ IsPlainValue option.2 := by decide
    have grown : ∀ entry ∈ Document.initial.sections,
        startingNames entry.1 <+: entry.2.map (·.1) := by decide
    refine ⟨by decide, ?_⟩
    intro entry member
    exact ⟨named entry member, ⟨distinct entry member, plain entry member⟩, grown entry member⟩
  grown := List.prefix_rfl

theorem isSound_initial_values : IsSound IsOption Document.initial :=
  isSound_initial.map fun _ _ plain => plain.1.isOption plain.2

theorem isSound_initial_lines : IsSound IsRaw (Document.initial.map fun value => [value]) :=
  isSound_initial.map fun _ _ plain => plain.1.isRaw plain.2

/-! ### Reading -/

namespace ReadState

/-- What holds while a file is read in which all lines can be read. -/
structure IsSound (state : ReadState) : Prop where
  document : Settings.IsSound IsRaw state.document
  named : ∀ name, state.current = some name → IsHeaderName name.toList
  opened : ∀ option, state.option = some option →
    ∃ name, state.current = some name ∧ option ∈ (state.document.own name).map (·.1)

variable {state : ReadState}

theorem IsSound.extend (sound : state.IsSound) {text : List Char} (isFurther : IsFurther text) :
    (state.extend (String.ofList text)).IsSound := by
  rw [ReadState.extend]
  split
  · next name option inSection isOpen =>
      have isHeader := sound.named name inSection
      obtain ⟨_, current, present⟩ := sound.opened option isOpen
      obtain rfl := Option.some.inj (inSection.symm.trans current)
      -- The open option has lines already, so that the new one cannot become the first.
      obtain ⟨lines, found⟩ := Dictionary.exists_get?_of_mem_keys present
      have raw : IsRaw option lines := (sound.document.own name).each _ (Dictionary.mem_of_get? found)
      refine ⟨sound.document.setOption isHeader (fun options =>
        (Dictionary.get? options option).getD [] ++ [String.ofList text]) ?_, sound.named, ?_⟩
      · rw [found]
        exact raw.append isFurther
      · intro other otherOpen
        refine ⟨name, inSection, ?_⟩
        obtain rfl := Option.some.inj (isOpen.symm.trans otherOpen)
        rw [Document.own_modifySection]
        exact Dictionary.mem_keys_set _ _ _
  · exact sound

@[simp] theorem malformed_extend (state : ReadState) (text : String) :
    (state.extend text).malformed = state.malformed := by
  rw [ReadState.extend]
  split <;> rfl

variable {after : ReadState} {number : Nat}

theorem malformed_beginSection {name : String}
    (begins : state.beginSection number name = .ok after) : after.malformed = state.malformed := by
  rw [ReadState.beginSection] at begins
  split at begins
  · split at begins
    · cases begins
    · rw [← Except.ok.inj begins]
  · split at begins
    · rw [← Except.ok.inj begins]
    · rw [← Except.ok.inj begins]

/-- Beginning a section closes the open option. -/
theorem IsSound.beginSection (sound : state.IsSound) {name : String}
    (isHeader : IsHeaderName name.toList) (begins : state.beginSection number name = .ok after) :
    after.IsSound := by
  have named : ∀ other, some name = some other → IsHeaderName other.toList := by
    rintro other ⟨⟩
    exact isHeader
  rw [ReadState.beginSection] at begins
  split at begins
  · split at begins
    · cases begins
    · rw [← Except.ok.inj begins]
      exact ⟨sound.document, named, by simp⟩
  · next missing =>
      split at begins
      · rw [← Except.ok.inj begins]
        exact ⟨sound.document, named, by simp⟩
      · next proper =>
          have isName : IsSectionName name := ⟨isHeader, by simpa using proper⟩
          rw [← Except.ok.inj begins]
          exact ⟨sound.document.addSection isName (by simpa using missing), named, by simp⟩

/-- Only an option with a name leaves no line that cannot be read. -/
theorem malformed_setOption {line name first : List Char} {sectionName : String}
    (sets : state.setOption number line sectionName name first = .ok after)
    (readable : after.malformed = []) : name ≠ [] ∧ state.malformed = [] := by
  cases name with
  | nil =>
      simp only [ReadState.setOption, List.isEmpty_nil, if_true] at sets
      split at sets
      · cases sets
      · rw [← Except.ok.inj sets] at readable
        cases readable
  | cons c rest =>
      simp only [ReadState.setOption, List.isEmpty_cons, Bool.false_eq_true, if_false] at sets
      split at sets
      · cases sets
      · rw [← Except.ok.inj sets] at readable
        exact ⟨List.cons_ne_nil c rest, readable⟩

theorem IsSound.setOption (sound : state.IsSound) {line name first : List Char}
    {sectionName : String} (inSection : state.current = some sectionName)
    (isName : IsOptionName name) (isFirst : IsFirst name first)
    (sets : state.setOption number line sectionName name first = .ok after) : after.IsSound := by
  have something : name.isEmpty = false := by simpa using isName.nonempty
  have raw : IsRaw (String.ofList name) [String.ofList first] := by
    refine ⟨?_, String.ofList first, [], rfl, ?_, List.forall_mem_nil _⟩
    · rw [String.toList_ofList]
      exact isName
    · rw [String.toList_ofList, String.toList_ofList]
      exact isFirst
  simp only [ReadState.setOption, something, Bool.false_eq_true, if_false] at sets
  split at sets
  · cases sets
  · rw [← Except.ok.inj sets]
    refine ⟨sound.document.setOption (sound.named _ inSection) (fun _ => [String.ofList first]) raw,
      sound.named, ?_⟩
    rintro option ⟨⟩
    refine ⟨sectionName, inSection, ?_⟩
    rw [Document.own_modifySection]
    exact Dictionary.mem_keys_set _ _ _

end ReadState

/-- A line keeps what holds while all lines can be read. -/
theorem readLine_keeps {state after : ReadState} {number : Nat} {line : List Char} (isLine : IsLine line)
    (plain : '\r' ∉ line) (reads : readLine state number line = .ok after)
    (keeps : state.malformed = [] → state.IsSound) (readable : after.malformed = []) :
    after.IsSound := by
  -- The level of a line does not matter to what holds, so the state may be given another one.
  obtain rfl | ⟨text, isFurther, rfl⟩ | ⟨indentation, ⟨name, isHeader, begins⟩ |
    ⟨sectionName, name, first, inSection, isOption, sets⟩ | rfl⟩ := readLine_cases isLine plain reads
  · exact keeps readable
  · rw [ReadState.malformed_extend] at readable
    exact (keeps readable).extend isFurther
  · rw [ReadState.malformed_beginSection begins] at readable
    obtain ⟨document, named, opened⟩ := keeps readable
    have level : ReadState.IsSound { state with indentation } := ⟨document, named, opened⟩
    exact level.beginSection (by rwa [String.toList_ofList]) begins
  · obtain ⟨nonempty, early⟩ := ReadState.malformed_setOption sets readable
    obtain ⟨document, named, opened⟩ := keeps early
    have level : ReadState.IsSound { state with indentation } := ⟨document, named, opened⟩
    exact level.setOption inSection (isOption nonempty).1 (isOption nonempty).2 sets
  · cases readable

theorem readLines_keeps {lines : List (List Char)} (areLines : ∀ line ∈ lines, IsLine line ∧ '\r' ∉ line)
    {state after : ReadState} {number : Nat} (reads : readLines state number lines = .ok after)
    (keeps : state.malformed = [] → state.IsSound) (readable : after.malformed = []) :
    after.IsSound := by
  induction lines generalizing state number with
  | nil =>
      obtain rfl := Except.ok.inj reads
      exact keeps readable
  | cons line rest hypothesis =>
      rw [List.forall_mem_cons] at areLines
      rw [readLines] at reads
      split at reads
      · cases reads
      · next next step =>
          exact hypothesis areLines.2 reads (readLine_keeps areLines.1.1 areLines.1.2 step keeps)

/-- The settings of any file that can be read are sound. -/
theorem readDocument_isSound {bytes : List UInt8} {document : Document String}
    (reads : readDocument Document.initial bytes = .ok document) : IsSound IsOption document := by
  rw [readDocument] at reads
  split at reads
  · cases reads
  · split at reads
    · cases reads
    · next state steps =>
        rw [ReadState.finish] at reads
        split at reads
        · next readable =>
            have areLines : ∀ line ∈ linesWithEnds (unifyLineEnds (decodeBytes bytes).text),
                IsLine line ∧ '\r' ∉ line := by
              intro line member
              obtain ⟨isLine, inside⟩ := isLine_of_mem_linesWithEnds member
              exact ⟨isLine, fun found => not_mem_unifyLineEnds _ (inside _ found)⟩
            have sound := readLines_keeps areLines steps
              (fun _ => ⟨isSound_initial_lines, by simp, by simp⟩) (List.isEmpty_iff.mp readable)
            rw [← Except.ok.inj reads]
            exact sound.document.map fun _ _ raw => raw.joinLines
        · cases reads
  · split at reads <;> cases reads

/-! ### Setting -/

namespace Manager

theorem eq_text_of_acceptValue {value : Value} {text : String} (accepts : acceptValue value = .ok text) :
    value = .text text := by
  unfold acceptValue at accepts
  split at accepts
  · next given =>
      split at accepts
      · cases checked : checkValue given with
        | error fault =>
            rw [checked] at accepts
            cases accepts
        | ok _ =>
            rw [checked] at accepts
            rw [show given = text from Except.ok.inj accepts]
      · rw [show given = text from Except.ok.inj accepts]
  · cases accepts

/-- The settings with a section that a value is to be stored in. -/
def withSection (manager : Manager) (sectionName : String) : Document String :=
  if manager.document.hasSection sectionName then manager.document
  else manager.document.addSection sectionName

/-- Setting an option stores a text, or refuses a value and at most adds the section. -/
theorem set_cases (manager : Manager) {sectionName : String} (named : IsSectionName sectionName)
    (key : String) (value : Value) :
    (∃ fault, acceptValue value = .error fault ∧ manager.set sectionName key value =
      (.error fault, { manager with document := manager.withSection sectionName })) ∨
    ∃ text, acceptValue value = .ok text ∧ manager.set sectionName key value =
      (.ok (), { manager with
        document := (manager.withSection sectionName).modifySection sectionName fun options =>
          Dictionary.set options key text }) := by
  have other : (sectionName == defaultSection) = false := beq_eq_false_iff_ne.mpr named.proper
  have nonempty : sectionName.isEmpty = false := by
    rw [String.isEmpty_eq_false_iff, ne_eq, ← String.toList_eq_nil_iff]
    exact named.header.nonempty
  unfold Manager.set
  rw [other, Bool.and_false, if_neg Bool.false_ne_true]
  cases accepts : acceptValue value with
  | error fault => exact .inl ⟨fault, rfl, rfl⟩
  | ok text =>
      refine .inr ⟨text, rfl, ?_⟩
      simp only [store, nonempty, Bool.false_eq_true, if_false]
      rfl

/-- Setting a plain option keeps the settings sound, also where the value is refused. -/
theorem set_isSound {manager : Manager} (sound : IsSound IsOption manager.document)
    {sectionName key : String} {value : Value} (named : IsSectionName sectionName) (isKey : IsPlainKey key)
    (isValue : ∀ text, value = .text text → IsPlainValue text) :
    IsSound IsOption (manager.set sectionName key value).2.document := by
  have inSection : IsSound IsOption (manager.withSection sectionName) := by
    rw [withSection]
    split
    · exact sound
    · next missing => exact sound.addSection named (by simpa using missing)
  obtain ⟨fault, -, refused⟩ | ⟨text, accepts, stored⟩ := set_cases manager named key value
  · rw [refused]
    exact inSection
  · rw [stored]
    have isText := eq_text_of_acceptValue accepts
    exact inSection.setOption named.header (fun _ => text) (isKey.isOption (isValue text isText))

end Manager

end InputScript.Settings
