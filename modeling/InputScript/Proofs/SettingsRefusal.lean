/-
Module: InputScript.Proofs.SettingsRefusal
Purpose: What a write that is refused leaves behind.  The file is never touched, and the settings are the
  same if the section is there or is the one of default options.  A missing section stays as an empty one,
  in which the default options now hold; the other sections are read as before.
Main exports: Stored.Refused, Stored.set_refused_keeps
-/
import InputScript.Proofs.SettingsReads

namespace InputScript.Settings

/-! ### Empty sections -/

namespace Document

variable {α : Type} {document : Document α} {name : String}

/-- A document with one more section, which has no options of its own. -/
def withEmpty (document : Document α) (name : String) : Document α :=
  { document with sections := document.sections ++ [(name, [])] }

theorem addSection_missing (missing : document.hasSection name = false) :
    document.addSection name = document.withEmpty name := by
  have added := Dictionary.set_append (not_mem_names missing) [] []
  rw [List.append_nil] at added
  rw [addSection, added]
  rfl

theorem withEmpty_ne (document : Document α) (name : String) : document.withEmpty name ≠ document := by
  intro same
  have longer := congrArg (fun other => other.sections.length) same
  simp [withEmpty] at longer

theorem options?_missing (missing : document.hasSection name = false) (proper : name ≠ defaultSection) :
    document.options? name = none := by
  rw [options?, Dictionary.get?_eq_none (not_mem_names missing)]
  exact if_neg (by simpa using proper)

/-- In an empty section the default options hold. -/
theorem options?_withEmpty (missing : document.hasSection name = false) :
    (document.withEmpty name).options? name = some document.defaults := by
  rw [options?, withEmpty, Dictionary.get?_append, Dictionary.get?_eq_none (not_mem_names missing),
    Dictionary.get?_cons, if_pos rfl]
  rfl

theorem options?_withEmpty_other (document : Document α) {other : String} (differs : other ≠ name) :
    (document.withEmpty name).options? other = document.options? other := by
  rw [options?, withEmpty, Dictionary.get?_append, Dictionary.get?_cons, if_neg differs.symm,
    Dictionary.get?_nil, Option.or_none, options?]

end Document

/-! ### Refused writes -/

namespace Stored

variable {stored after : Stored} {sectionName key : String} {value : Value} {fault : Fault}

/-- Settings with one more section, which has no options of its own. -/
def withEmpty (stored : Stored) (sectionName : String) : Stored :=
  { stored with manager.document := stored.manager.document.withEmpty sectionName }

/-- The fault of a write that is refused, and the settings after it. -/
inductive Refused (stored : Stored) (sectionName : String) (value : Value) : Fault → Stored → Prop where
  /-- The section of default options cannot be added. -/
  | name (missing : stored.manager.document.hasSection sectionName = false)
      (isDefault : sectionName = defaultSection) :
      Refused stored sectionName value (.ofValue "Invalid section name: 'DEFAULT'") stored
  /-- The value does not fit, and the section is there. -/
  | early {fault : Fault} (held : stored.manager.document.hasSection sectionName = true)
      (unfit : Manager.acceptValue value = .error fault) : Refused stored sectionName value fault stored
  /-- The value does not fit, and the section has been added by then. -/
  | late {fault : Fault} (missing : stored.manager.document.hasSection sectionName = false)
      (proper : sectionName ≠ defaultSection) (unfit : Manager.acceptValue value = .error fault) :
      Refused stored sectionName value fault (stored.withEmpty sectionName)

theorem set_named_default (missing : stored.manager.document.hasSection defaultSection = false) :
    stored.set defaultSection key value =
      (.error (.ofValue "Invalid section name: 'DEFAULT'"), stored) := by
  have worded : s!"Invalid section name: {Text.quoted defaultSection}" =
      "Invalid section name: 'DEFAULT'" := by
    decide +kernel
  have refused : stored.manager.set defaultSection key value =
      (.error (.ofValue "Invalid section name: 'DEFAULT'"), stored.manager) := by
    rw [Manager.set, missing, ← worded]
    rfl
  rw [Stored.set, refused]

/-- The check of the section is passed. -/
def AdmitsName (stored : Stored) (sectionName : String) : Prop :=
  stored.manager.document.hasSection sectionName = true ∨ sectionName ≠ defaultSection

theorem AdmitsName.check (admits : stored.AdmitsName sectionName) :
    (!stored.manager.document.hasSection sectionName && sectionName == defaultSection) = false := by
  rcases admits with held | proper
  · rw [held]
    rfl
  · rw [beq_eq_false_iff_ne.mpr proper, Bool.and_false]

/-- Then a value that does not fit is refused when the section is there. -/
theorem AdmitsName.set_unfit (admits : stored.AdmitsName sectionName)
    (unfit : Manager.acceptValue value = .error fault) :
    stored.set sectionName key value =
      (.error fault, { stored with manager.document := stored.manager.withSection sectionName }) := by
  have refused : stored.manager.set sectionName key value =
      (.error fault, { stored.manager with document := stored.manager.withSection sectionName }) := by
    rw [Manager.set, admits.check, if_neg Bool.false_ne_true, unfit]
    rfl
  rw [Stored.set, refused]

theorem AdmitsName.set_fit (admits : stored.AdmitsName sectionName) {text : String}
    (fits : Manager.acceptValue value = .ok text) : (stored.set sectionName key value).1 = .ok () := by
  rw [(set_agrees stored sectionName key value).1, Manager.set, admits.check, if_neg Bool.false_ne_true,
    fits]

/-- Just these writes are refused. -/
theorem set_refused_iff :
    stored.set sectionName key value = (.error fault, after) ↔
      Refused stored sectionName value fault after := by
  constructor
  · intro refused
    by_cases admits : stored.AdmitsName sectionName
    · cases accepts : Manager.acceptValue value with
      | ok text =>
          have fits : (stored.set sectionName key value).1 = .ok () := admits.set_fit accepts
          rw [refused] at fits
          cases fits
      | error fault =>
          -- The section is there by now, also if it was not before.
          rw [admits.set_unfit accepts] at refused
          cases refused
          rw [Manager.withSection]
          split
          · next held => exact .early held accepts
          · next missing =>
              rw [Bool.not_eq_true] at missing
              rw [Document.addSection_missing missing]
              exact .late missing (admits.resolve_left (by simp [missing])) accepts
    · obtain ⟨missing, isDefault⟩ := not_or.mp admits
      rw [Bool.not_eq_true] at missing
      rw [not_not] at isDefault
      subst isDefault
      rw [set_named_default missing] at refused
      cases refused
      exact .name missing rfl
  · intro refused
    cases refused with
    | name missing isDefault =>
        subst isDefault
        exact set_named_default missing
    | early held unfit => rw [AdmitsName.set_unfit (.inl held) unfit, Manager.withSection, if_pos held]
    | late missing proper unfit =>
        rw [AdmitsName.set_unfit (.inr proper) unfit, Manager.withSection, if_neg (by simp [missing]),
          Document.addSection_missing missing]
        rfl

/-- A refused write keeps the file and what is read of the other sections.  It keeps all the settings just if
the section is there already or is the one of default options; else the section stays, and the default
options can be read in it, where nothing could be read before. -/
theorem set_refused_keeps (refused : stored.set sectionName key value = (.error fault, after)) :
    after.file = stored.file ∧ after.manager.hasFile = stored.manager.hasFile ∧
      (after = stored ↔
        stored.manager.document.hasSection sectionName = true ∨ sectionName = defaultSection) ∧
      (after ≠ stored →
        after = stored.withEmpty sectionName ∧
          stored.manager.document.options? sectionName = none ∧
          after.manager.document.options? sectionName = some stored.manager.document.defaults) ∧
      ∀ name, name ≠ sectionName →
        after.manager.document.options? name = stored.manager.document.options? name ∧
          ∀ reading option fallback,
            after.manager.read reading name option fallback =
              stored.manager.read reading name option fallback := by
  cases set_refused_iff.mp refused with
  | name missing isDefault =>
      exact ⟨rfl, rfl, iff_of_true rfl (.inr isDefault), fun changed => absurd rfl changed,
        fun name _ => ⟨rfl, fun _ _ _ => rfl⟩⟩
  | early held unfit =>
      exact ⟨rfl, rfl, iff_of_true rfl (.inl held), fun changed => absurd rfl changed,
        fun name _ => ⟨rfl, fun _ _ _ => rfl⟩⟩
  | late missing proper unfit =>
      refine ⟨rfl, rfl, iff_of_false ?_ ?_, fun _ => ⟨rfl, Document.options?_missing missing proper,
        Document.options?_withEmpty missing⟩, fun name differs => ?_⟩
      · intro same
        exact Document.withEmpty_ne _ _ (congrArg (·.manager.document) same)
      · rintro (held | isDefault)
        · rw [missing] at held
          cases held
        · exact proper isDefault
      · have same : (stored.withEmpty sectionName).manager.document.options? name =
            stored.manager.document.options? name := Document.options?_withEmpty_other _ differs
        refine ⟨same, fun reading option fallback => ?_⟩
        rw [Manager.read_eq, Manager.read_eq, Manager.get?_congr same]

/-- The settings of a file with one default option. -/
def defaulted : Stored where
  manager := {
    document := { Document.initial with defaults := [("base", "7")] }
    hasFile := true }
  file := some (Text.encodeBytes "[DEFAULT]\nbase = 7\n")

theorem fresh_defaulted : Stored.fresh true defaulted.file = .ok defaulted := by
  rw [defaulted, fresh_some, readDocument, Text.decodeBytes_encodeBytes]
  rfl

/-- A percent sign at the end of a value begins nothing. -/
theorem set_percent_refused :
    defaulted.set "NEW" "k" (.text "50%") =
      (.error (.ofValue "invalid interpolation syntax in '50%' at position 2"),
        defaulted.withEmpty "NEW") := by
  have unfit : Manager.acceptValue (.text "50%") =
      .error (.ofValue "invalid interpolation syntax in '50%' at position 2") := by decide +kernel
  exact set_refused_iff.mpr (.late rfl (by decide) unfit)

/-- A value that is refused for a new section keeps what is read of the sections that are there. -/
theorem set_refused_keeps_defaulted :
    ∃ fault after, defaulted.set "NEW" "k" (.text "50%") = (.error fault, after) ∧
      after.file = defaulted.file ∧ after ≠ defaulted ∧
      ∀ reading option fallback,
        after.manager.read reading "INPUT" option fallback =
          defaulted.manager.read reading "INPUT" option fallback := by
  obtain ⟨file, -, same, -, reads⟩ := set_refused_keeps set_percent_refused
  refine ⟨_, _, set_percent_refused, file, ?_, (reads "INPUT" (by decide)).2⟩
  rw [ne_eq, same]
  decide

/-- A refused value leaves a new section behind: a default option can be read in it, and the next write that
is accepted saves it. -/
theorem set_refused_leaves_section :
    Stored.fresh true (some (Text.encodeBytes "[DEFAULT]\nbase = 7\n")) = .ok defaulted ∧
      ∃ after later,
        defaulted.set "NEW" "k" (.text "50%") =
          (.error (.ofValue "invalid interpolation syntax in '50%' at position 2"), after) ∧
        defaulted.manager.read .int "NEW" "base" none = .ok (.integer 0) ∧
        after.manager.read .int "NEW" "base" none = .ok (.integer 7) ∧
        after.set "INPUT" "rest_time" (.text "5") = (.ok (), later) ∧
        later.file = some (Text.encodeBytes <|
          "[DEFAULT]\nbase = 7\n\n[INPUT]\nrest_time = 5\nscroll_step = 1\n\n" ++
            "[RUNNER]\nstop_timeout = 3.0\n\n[COMMANDS]\n\n[NEW]\n\n") := by
  have before : defaulted.manager.read .int "NEW" "base" none = .ok (.integer 0) := by
    have missing : defaulted.manager.document.lookup? "NEW" "base" = none := rfl
    rw [Manager.read_eq, Manager.get?_missing missing]
    rfl
  have held : (defaulted.withEmpty "NEW").manager.get? "NEW" "base" = .ok (some "7") :=
    Manager.get?_plain rfl (by decide)
  have seven : Manager.Reading.int.value? "7" = some (.integer 7) := by cbv
  have afterwards : (defaulted.withEmpty "NEW").manager.read .int "NEW" "base" none = .ok (.integer 7) := by
    rw [Manager.read_eq, held, Except.map, Option.bind_some, seven]
    rfl
  have accepted := set_plain (defaulted.withEmpty "NEW") rfl (show IsSectionName "INPUT" by decide)
    "rest_time" (show '%' ∉ "5".toList by decide)
  refine ⟨fresh_defaulted, _, _, set_percent_refused, before, afterwards, accepted, ?_⟩
  rw [saved]
  exact congrArg (fun text => some (Text.encodeBytes text)) (by decide +kernel)

end Stored

end InputScript.Settings
