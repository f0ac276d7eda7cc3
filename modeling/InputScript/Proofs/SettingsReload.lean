/-
Module: InputScript.Proofs.SettingsReload
Purpose: Settings survive being saved and read again, whatever file they come from and however often they
  are changed, except for what follows a comment mark in the first line of a value.
Main exports: Unmarked, Stored.Kept, Stored.set_survives_reload
-/
import InputScript.Proofs.References
import InputScript.Proofs.SettingsText

namespace InputScript.Settings

variable {α β : Type}

/-! ### Values without comment marks -/

/-- No value of the options has a comment mark in its first line. -/
def AllUnmarked (options : Dictionary String) : Prop :=
  ∀ option ∈ options, ¬HasMark (firstLine option.2)

/-- No value of a document has a comment mark in its first line. -/
structure Unmarked (document : Document String) : Prop where
  defaults : AllUnmarked document.defaults
  sections : ∀ entry ∈ document.sections, AllUnmarked entry.2

theorem map_uncommented_options_iff (options : Dictionary String) :
    options.map (fun entry => (entry.1, uncommented entry.2)) = options ↔ AllUnmarked options := by
  rw [Dictionary.map_eq_self_iff]
  simp only [uncommented_eq_self_iff]
  rfl

/-- Reading back changes nothing exactly if there are no comment marks. -/
theorem map_uncommented_iff (document : Document String) :
    document.map uncommented = document ↔ Unmarked document := by
  obtain ⟨defaults, sections⟩ := document
  have inside := Dictionary.map_eq_self_iff
    (fun own => own.map fun option => (option.1, uncommented option.2)) sections
  simp only [Document.map, Document.mk.injEq, inside, map_uncommented_options_iff]
  constructor
  · rintro ⟨inDefaults, inSections⟩
    exact ⟨inDefaults, inSections⟩
  · rintro ⟨inDefaults, inSections⟩
    exact ⟨inDefaults, inSections⟩

theorem options?_map (change : α → β) (document : Document α) (name : String) :
    (document.map change).options? name =
      (document.options? name).map fun options => options.map fun entry => (entry.1, change entry.2) := by
  have found := Dictionary.get?_map (fun own => own.map fun option => (option.1, change option.2))
    document.sections name
  simp only [Document.options?, Document.map, found]
  cases Dictionary.get? document.sections name with
  | some own =>
      simp only [Option.map_some, Dictionary.map_merge]
  | none =>
      simp only [Option.map_none]
      split <;> rfl

theorem options?_map_uncommented {document : Document String} {name : String}
    (unmarked : ∀ options ∈ document.options? name, AllUnmarked options) :
    (document.map uncommented).options? name = document.options? name := by
  rw [options?_map]
  cases found : document.options? name with
  | none => rfl
  | some options =>
      rw [Option.map_some, (map_uncommented_options_iff options).mpr (unmarked options found)]

/-- What is read of a section depends on the options that hold in it only. -/
theorem Manager.get?_congr {first second : Manager} {name : String}
    (same : first.document.options? name = second.document.options? name) (option : String) :
    first.get? name option = second.get? name option := by
  rw [get?, get?, same]

/-! ### Values without references -/

theorem withoutDoubled_plain {text : List Char} (plain : '%' ∉ text) : withoutDoubled text = text := by
  fun_induction withoutDoubled text with
  | case1 => rfl
  | case2 rest => exact absurd List.mem_cons_self plain
  | case3 c rest _ hypothesis =>
      rw [hypothesis (mt (List.mem_cons_of_mem c) plain)]

theorem withoutReferences_plain {text : List Char} (plain : '%' ∉ text) :
    withoutReferences text = text := by
  fun_induction withoutReferences text with
  | case1 => rfl
  | case2 => exact absurd List.mem_cons_self plain
  | case3 => exact absurd List.mem_cons_self plain
  | case4 c rest _ hypothesis =>
      rw [hypothesis (mt (List.mem_cons_of_mem c) plain)]

/-- A value without a percent sign is accepted. -/
theorem checkValue_plain {value : String} (plain : '%' ∉ value.toList) : checkValue value = .ok () := by
  rw [checkValue, withoutDoubled_plain plain, withoutReferences_plain plain,
    List.idxOf?_eq_none_iff.mpr plain]

/-- A value without a percent sign is stored. -/
theorem Manager.set_plain (manager : Manager) {sectionName : String} (named : IsSectionName sectionName)
    (key : String) {text : String} (plain : '%' ∉ text.toList) :
    manager.set sectionName key (.text text) =
      (.ok (), { manager with
        document := (manager.withSection sectionName).modifySection sectionName fun options =>
          Dictionary.set options key text }) := by
  have accepts : acceptValue (.text text) = .ok text := by
    rw [acceptValue, checkValue_plain plain]
    cases text.isEmpty <;> rfl
  obtain ⟨fault, refused, -⟩ | ⟨_, stored, stores⟩ := set_cases manager named key (.text text)
  · rw [accepts] at refused
    cases refused
  · obtain rfl := Except.ok.inj (accepts.symm.trans stored)
    exact stores

theorem Manager.get?_plain {manager : Manager} {name option value : String}
    (found : manager.document.lookup? name option = some value) (plain : '%' ∉ value.toList) :
    manager.get? name option = .ok (some value) := by
  obtain ⟨options, held, isValue⟩ := Option.bind_eq_some_iff.mp found
  have made : expand ⟨name, option, value⟩ (Dictionary.get? options) = .ok value := expand_plain plain _
  simp only [get?, held, isValue, made]
  rfl

@[simp] theorem Manager.hasFile_set (manager : Manager) (sectionName key : String) (value : Value) :
    (manager.set sectionName key value).2.hasFile = manager.hasFile := by
  unfold Manager.set
  split
  · rfl
  · dsimp only
    split <;> rfl

/-! ### Settings with their file -/

namespace Stored

/-- Settings that were read from a file, or are those without one, and have since been changed by setting
plain options and by reading the file again. -/
inductive Kept : Stored → Prop where
  | fresh {file : Option (List UInt8)} {stored : Stored} (reads : Stored.fresh true file = .ok stored) :
    Kept stored
  | set {stored : Stored} (kept : Kept stored) {sectionName key : String} {value : Value}
    (named : IsSectionName sectionName) (isKey : IsPlainKey key)
    (isValue : ∀ text, value = .text text → IsPlainValue text) : Kept (stored.set sectionName key value).2
  | reload {stored : Stored} (kept : Kept stored) : Kept stored.reload.2

theorem fresh_some (bytes : List UInt8) :
    Stored.fresh true (some bytes) =
      (readDocument Document.initial bytes).map fun document => ⟨⟨document, true⟩, some bytes⟩ := by
  rw [Stored.fresh, if_pos rfl, Manager.load]
  cases readDocument Document.initial bytes <;> rfl

theorem fresh_isSound {file : Option (List UInt8)} {stored : Stored}
    (reads : Stored.fresh true file = .ok stored) :
    IsSound IsOption stored.manager.document ∧ stored.manager.hasFile = true := by
  cases file with
  | none =>
      obtain rfl := Except.ok.inj reads
      exact ⟨isSound_initial_values, rfl⟩
  | some bytes =>
      rw [fresh_some] at reads
      cases result : readDocument Document.initial bytes with
      | error error =>
          rw [result] at reads
          cases reads
      | ok document =>
          rw [result] at reads
          obtain rfl := Except.ok.inj reads
          exact ⟨readDocument_isSound result, rfl⟩

theorem set_agrees (stored : Stored) (sectionName key : String) (value : Value) :
    (stored.set sectionName key value).1 = (stored.manager.set sectionName key value).1 ∧
      (stored.set sectionName key value).2.manager = (stored.manager.set sectionName key value).2 := by
  rw [Stored.set]
  obtain ⟨result, manager⟩ := stored.manager.set sectionName key value
  cases result <;> exact ⟨rfl, rfl⟩

/-- Settings that have just been saved. -/
def saved (document : Document String) : Stored :=
  ⟨⟨document, true⟩, some (Text.encodeBytes document.render)⟩

/-- Settings are saved when a value is accepted. -/
theorem eq_saved_of_accepted {stored after : Stored} {sectionName key : String} {value : Value}
    (accepted : stored.set sectionName key value = (.ok (), after)) (hasFile : after.manager.hasFile = true) :
    after = saved after.manager.document := by
  rw [Stored.set] at accepted
  generalize stored.manager.set sectionName key value = outcome at accepted
  obtain ⟨result, manager⟩ := outcome
  cases result with
  | error fault => cases accepted
  | ok _ =>
      obtain rfl := (Prod.mk.inj accepted).2
      obtain ⟨document, _⟩ := manager
      obtain rfl : _ = true := hasFile
      rfl

theorem set_plain (stored : Stored) (hasFile : stored.manager.hasFile = true) {sectionName : String}
    (named : IsSectionName sectionName) (key : String) {text : String} (plain : '%' ∉ text.toList) :
    stored.set sectionName key (.text text) =
      (.ok (), saved ((stored.manager.withSection sectionName).modifySection sectionName fun options =>
        Dictionary.set options key text)) := by
  rw [Stored.set, Manager.set_plain stored.manager named key plain, hasFile]
  rfl

/-- Saved settings are read again without what follows a comment mark in the first line of a value. -/
theorem fresh_saved {document : Document String} (sound : IsSound IsOption document) :
    Stored.fresh true (saved document).file =
      .ok ⟨⟨document.map uncommented, true⟩, (saved document).file⟩ := by
  rw [saved, fresh_some, readDocument_render sound]
  rfl

/-- A value that is accepted is the one of its option. -/
theorem lookup?_of_accepted {stored after : Stored} {sectionName key text : String}
    (named : IsSectionName sectionName)
    (accepted : stored.set sectionName key (.text text) = (.ok (), after))
    (sound : IsSound IsOption after.manager.document) :
    after.manager.document.lookup? sectionName key = some text := by
  obtain ⟨result, manager⟩ := set_agrees stored sectionName key (.text text)
  rw [accepted] at result manager
  have other : (sectionName == defaultSection) = false := beq_eq_false_iff_ne.mpr named.proper
  obtain ⟨fault, -, refused⟩ | ⟨value, accepts, stores⟩ :=
    Manager.set_cases stored.manager named key (.text text)
  · rw [refused] at result
    cases result
  · obtain rfl : text = value := Value.text.inj (Manager.eq_text_of_acceptValue accepts)
    rw [stores] at manager
    have found : Dictionary.get? after.manager.document.sections sectionName =
        some (Dictionary.set ((stored.manager.withSection sectionName).own sectionName) key text) := by
      rw [manager]
      simp only [Document.modifySection, Document.own, other, Bool.false_eq_true, if_false,
        Dictionary.get?_set, if_true]
    have distinct := (sound.sections.each _ (Dictionary.mem_of_get? found)).options.distinct
    rw [Document.lookup?, Document.options?, found, Option.bind_some, Dictionary.get?_merge,
      Dictionary.get?_reverse distinct, Dictionary.get?_set, if_pos rfl, Option.some_or]

theorem Kept.isSound {stored : Stored} (kept : Kept stored) :
    IsSound IsOption stored.manager.document ∧ stored.manager.hasFile = true := by
  induction kept with
  | fresh reads => exact fresh_isSound reads
  | set _ named isKey isValue hypothesis =>
      rw [(set_agrees _ _ _ _).2, Manager.hasFile_set]
      exact ⟨Manager.set_isSound hypothesis.1 named isKey isValue, hypothesis.2⟩
  | @reload stored _ hypothesis =>
      rw [Stored.reload]
      split
      · next read reads =>
          rw [hypothesis.2] at reads
          exact fresh_isSound reads
      · exact hypothesis

/-- Settings that are saved when a plain option is set are read again without what follows a comment
mark in the first line of a value.  So they are all the same exactly if no value has such a mark, and those
of a section are the same if no value that holds in it has one. -/
theorem set_survives_reload {stored : Stored} (kept : Kept stored) {sectionName key text : String}
    (named : IsSectionName sectionName) (isKey : IsPlainKey key) (isValue : IsPlainValue text)
    {after : Stored} (accepted : stored.set sectionName key (.text text) = (.ok (), after)) :
    after.manager.document.lookup? sectionName key = some text ∧
    ∃ reloaded, Stored.fresh true after.file = .ok reloaded ∧
      reloaded.manager.document = after.manager.document.map uncommented ∧
      (∀ name, (∀ options ∈ after.manager.document.options? name, AllUnmarked options) →
        ∀ option, reloaded.manager.get? name option = after.manager.get? name option) ∧
      (reloaded = after ↔ Unmarked after.manager.document) := by
  have isText : ∀ other, Value.text text = .text other → IsPlainValue other := by
    rintro other ⟨⟩
    exact isValue
  have reached : (stored.set sectionName key (.text text)).2 = after := congrArg Prod.snd accepted
  obtain ⟨sound, hasFile⟩ := (Kept.set kept named isKey isText).isSound
  rw [reached] at sound hasFile
  refine ⟨lookup?_of_accepted named accepted sound, ?_⟩
  rw [eq_saved_of_accepted accepted hasFile]
  refine ⟨_, fresh_saved sound, rfl, ?_, ?_⟩
  · intro name unmarked option
    exact Manager.get?_congr (options?_map_uncommented unmarked) option
  · rw [← map_uncommented_iff, saved]
    simp

/-- A file with default options, an option whose name begins with a bracket, a value of two lines, and a
value that begins with a number sign. -/
def sampleFile : String :=
  "[DEFAULT]\nroot = a\n[COMMANDS]\n[go = Print\n  hi ] there\n; note\nTag=#x\n"

/-- The settings of the sample file. -/
def sample : Stored where
  manager := {
    document := {
      defaults := [("root", "a")]
      sections := [
        ("INPUT", [("rest_time", "10"), ("scroll_step", "1")]),
        ("RUNNER", [("stop_timeout", "3.0")]),
        ("COMMANDS", [("[go", "Print\nhi ] there"), ("Tag", "#x")])] }
    hasFile := true }
  file := some (Text.encodeBytes sampleFile)

theorem fresh_sample : Stored.fresh true (some (Text.encodeBytes sampleFile)) = .ok sample := by
  rw [fresh_some, readDocument, Text.decodeBytes_encodeBytes]
  rfl

/-- Saving the sample settings for another reason keeps a section without comment marks and empties the
value that begins with one. -/
theorem set_survives_reload_sample :
    IsSectionName "INPUT" ∧ IsPlainKey "rest_time" ∧ IsPlainValue "25" ∧ Kept sample ∧
    ∃ after reloaded, sample.set "INPUT" "rest_time" (.text "25") = (.ok (), after) ∧
      Stored.fresh true after.file = .ok reloaded ∧
      (∀ option, reloaded.manager.get? "INPUT" option = after.manager.get? "INPUT" option) ∧
      after.manager.document.lookup? "COMMANDS" "Tag" = some "#x" ∧
      reloaded.manager.document.lookup? "COMMANDS" "Tag" = some "" := by
  have named : IsSectionName "INPUT" := by decide
  have isKey : IsPlainKey "rest_time" := by decide
  have isValue : IsPlainValue "25" := by decide
  have kept : Kept sample := .fresh fresh_sample
  have accepted := set_plain sample rfl named "rest_time" (show '%' ∉ "25".toList by decide)
  obtain ⟨-, reloaded, reads, shape, same, -⟩ := set_survives_reload kept named isKey isValue accepted
  refine ⟨named, isKey, isValue, kept, _, reloaded, accepted, reads, same "INPUT" ?_, rfl, ?_⟩
  · rintro options ⟨⟩
    unfold AllUnmarked
    decide
  · rw [shape]
    rfl

/-- What follows a comment mark in a value that has just been set is lost. -/
theorem set_cuts_value :
    IsSectionName "COMMANDS" ∧ IsPlainKey "Note" ∧ IsPlainValue "Print #1" ∧
    ∃ stored after reloaded, Stored.fresh true none = .ok stored ∧
      stored.set "COMMANDS" "Note" (.text "Print #1") = (.ok (), after) ∧
      Stored.fresh true after.file = .ok reloaded ∧
      after.manager.get? "COMMANDS" "Note" = .ok (some "Print #1") ∧
      reloaded.manager.get? "COMMANDS" "Note" = .ok (some "Print") := by
  have named : IsSectionName "COMMANDS" := by decide
  have isKey : IsPlainKey "Note" := by decide
  have isValue : IsPlainValue "Print #1" := by decide
  have isText : ∀ other, Value.text "Print #1" = .text other → IsPlainValue other := by
    rintro other ⟨⟩
    exact isValue
  let stored : Stored := ⟨⟨Document.initial, true⟩, none⟩
  have starts : Stored.fresh true none = .ok stored := rfl
  have accepted := set_plain stored rfl named "Note" (show '%' ∉ "Print #1".toList by decide)
  have sound := (Kept.set (.fresh starts) named isKey isText).isSound.1
  rw [accepted] at sound
  refine ⟨named, isKey, isValue, stored, _, _, starts, accepted, fresh_saved sound, ?_, ?_⟩
  · exact Manager.get?_plain rfl (by decide)
  · exact Manager.get?_plain rfl (by decide)

end Stored

end InputScript.Settings
