/-
Module: InputScript.Proofs.SettingsReads
Purpose: Typed reads of settings.  A read gives the value that the stored text tells once its references are
  replaced, and the fallback where the option is missing or the text tells no such value.  It fails just if
  the references cannot be replaced, and then with a fault of references.
Main exports: Tells, Manager.Ends, Manager.reads_settle
-/
import InputScript.Proofs.Grouping
import InputScript.Proofs.References
import InputScript.Proofs.SettingsReload

namespace InputScript.Settings

open Text Number

/-! ### What a text tells -/

/-- What a text without the blanks around it tells where a value of some kind is wanted. -/
inductive Tells (text : List Char) : Manager.Reading → Value → Prop where
  | int {number : Int} (spelled : SpellsInteger (trim text) number) : Tells text .int (.integer number)
  | float {number : Float} (spelled : SpellsFloat (trim text) number) : Tells text .float (.float number)
  | yes (isWord : String.ofList (fold (trim text)) ∈ ["1", "yes", "true", "on"]) :
      Tells text .bool (.boolean true)
  | no (isWord : String.ofList (fold (trim text)) ∈ ["0", "no", "false", "off"]) :
      Tells text .bool (.boolean false)

theorem lookup_truthWords {word : String} {flag : Bool} :
    Manager.truthWords.lookup word = some flag ↔
      word ∈ if flag then ["1", "yes", "true", "on"] else ["0", "no", "false", "off"] := by
  constructor
  · intro found
    obtain ⟨before, after, split, -⟩ := List.lookup_eq_some_iff.mp found
    have listed : (word, flag) ∈ Manager.truthWords := by
      rw [split]
      exact List.mem_append_right before List.mem_cons_self
    cases flag <;> simpa [Manager.truthWords] using listed
  · intro listed
    cases flag <;>
    · simp only [Bool.false_eq_true, if_true, if_false, List.mem_cons, List.not_mem_nil, or_false] at listed
      rcases listed with rfl | rfl | rfl | rfl <;> rfl

namespace Manager

variable {manager : Manager} {sectionName option : String}

/-! ### The text of an option -/

theorem get?_missing (absent : manager.document.lookup? sectionName option = none) :
    manager.get? sectionName option = .ok none := by
  rw [get?]
  cases held : manager.document.options? sectionName with
  | none => rfl
  | some options =>
      rw [Document.lookup?, held, Option.bind_some] at absent
      simp only [absent]

/-- A stored value is read with its references replaced by values of the same section. -/
theorem get?_stored {raw : String} (stored : manager.document.lookup? sectionName option = some raw) :
    manager.get? sectionName option =
      (expand ⟨sectionName, option, raw⟩ (manager.document.lookup? sectionName)).map some := by
  obtain ⟨options, held, found⟩ := Option.bind_eq_some_iff.mp stored
  have sameLookup : manager.document.lookup? sectionName = Dictionary.get? options := by
    funext name
    rw [Document.lookup?, held, Option.bind_some]
  rw [sameLookup]
  simp only [get?, held, found]

/-- How a read ends. -/
inductive Ends (manager : Manager) (sectionName option : String) (reading : Reading) (fallback : Value) :
    Except Fault Value → Prop where
  /-- There is no such option. -/
  | missing (absent : manager.document.lookup? sectionName option = none) :
      Ends manager sectionName option reading fallback (.ok fallback)
  /-- The text of the option tells a value. -/
  | said {raw : String} {text : List Char} {value : Value}
      (stored : manager.document.lookup? sectionName option = some raw)
      (expands : Expands (manager.document.lookup? sectionName) furtherDepth raw.toList text)
      (tells : Tells text reading value) : Ends manager sectionName option reading fallback (.ok value)
  /-- The text of the option tells no value of the kind. -/
  | unsaid {raw : String} {text : List Char}
      (stored : manager.document.lookup? sectionName option = some raw)
      (expands : Expands (manager.document.lookup? sectionName) furtherDepth raw.toList text)
      (silent : ∀ value, ¬ Tells text reading value) :
      Ends manager sectionName option reading fallback (.ok fallback)
  /-- The value of the option breaks. -/
  | broken {raw : String} {fault : Fault}
      (stored : manager.document.lookup? sectionName option = some raw)
      (breaks : Breaks (manager.document.lookup? sectionName) ⟨sectionName, option, raw⟩ furtherDepth
        raw.toList fault) : Ends manager sectionName option reading fallback (.error fault)

/-- The value of an option, if it is there, makes a text. -/
def IsSteady (manager : Manager) (sectionName option : String) : Prop :=
  ∀ raw, manager.document.lookup? sectionName option = some raw →
    ∃ text, Expands (manager.document.lookup? sectionName) furtherDepth raw.toList text

/-! ### Reads -/

/-- The value of some kind that is made of a text, if any. -/
def Reading.value? (text : String) : Reading → Option Value
  | .int => (readInteger (trimmed text)).toOption.map .integer
  | .float => (readFloat? (trimmed text)).map .float
  | .bool => (truthWords.lookup (folded (trimmed text))).map .boolean

/-- All reads are alike: where no value can be made of the text of the option there is the fallback. -/
theorem read_eq (manager : Manager) (reading : Reading) (sectionName option : String)
    (fallback : Option Value) :
    manager.read reading sectionName option fallback =
      (manager.get? sectionName option).map fun text? =>
        (text?.bind fun text => reading.value? text).getD (fallback.getD reading.fallback) := by
  cases reading with
  | int =>
      rw [read, readInt]
      cases manager.get? sectionName option with
      | error fault => rfl
      | ok text? =>
          cases text? with
          | none => rfl
          | some text =>
              simp only [bind, Except.bind, pure, Except.pure, Except.map, Reading.value?, Option.bind]
              cases readInteger (trimmed text) with
              | ok number => rfl
              | error _ => rfl
  | float =>
      rw [read, readFloat]
      cases manager.get? sectionName option with
      | error fault => rfl
      | ok text? =>
          cases text? with
          | none => rfl
          | some text =>
              simp only [bind, Except.bind, pure, Except.pure, Except.map, Reading.value?, Option.bind]
              cases readFloat? (trimmed text) with
              | some number => rfl
              | none => rfl
  | bool =>
      rw [read, readBool]
      cases manager.get? sectionName option with
      | error fault => rfl
      | ok text? =>
          cases text? with
          | none => rfl
          | some text =>
              simp only [bind, Except.bind, pure, Except.pure, Except.map, Reading.value?, Option.bind,
                Option.getD_some]
              cases truthWords.lookup (folded (trimmed text)) with
              | some flag => rfl
              | none => rfl

theorem trim_trimmed (text : List Char) : trim (trimmed (String.ofList text)).toList = trim text := by
  rw [trimmed, String.toList_ofList, String.toList_ofList, trim_trim]

theorem folded_trimmed (text : List Char) :
    folded (trimmed (String.ofList text)) = String.ofList (fold (trim text)) := by
  rw [folded, trimmed, String.toList_ofList, String.toList_ofList]

/-- A value that is made of a text is one that the text tells. -/
theorem tells_of_value? {text : List Char} {reading : Reading} {value : Value}
    (made : reading.value? (String.ofList text) = some value) : Tells text reading value := by
  cases reading with
  | int =>
      rw [Reading.value?, Option.map_eq_some_iff] at made
      obtain ⟨number, found, rfl⟩ := made
      cases read : readInteger (trimmed (String.ofList text)) with
      | error refusal =>
          rw [read] at found
          cases found
      | ok other =>
          rw [read] at found
          cases found
          rw [readInteger_eq_ok, trim_trimmed] at read
          exact .int read
  | float =>
      rw [Reading.value?, Option.map_eq_some_iff] at made
      obtain ⟨number, found, rfl⟩ := made
      have spelled := readFloat?_spells found
      rw [trim_trimmed] at spelled
      exact .float spelled
  | bool =>
      rw [Reading.value?, Option.map_eq_some_iff] at made
      obtain ⟨flag, found, rfl⟩ := made
      rw [lookup_truthWords, folded_trimmed] at found
      cases flag with
      | true => exact .yes found
      | false => exact .no found

/-- Of a text that tells a value some value is made. -/
theorem exists_value?_of_tells {text : List Char} {reading : Reading} {value : Value}
    (tells : Tells text reading value) : ∃ other, reading.value? (String.ofList text) = some other := by
  cases tells with
  | int spelled =>
      rw [← trim_trimmed, ← readInteger_eq_ok] at spelled
      exact ⟨_, by rw [Reading.value?, spelled]; rfl⟩
  | float spelled =>
      rw [← trim_trimmed] at spelled
      obtain ⟨other, read⟩ := exists_readFloat? spelled
      exact ⟨.float other, by rw [Reading.value?, read]; rfl⟩
  | yes isWord =>
      have found : truthWords.lookup _ = some true := lookup_truthWords.mpr isWord
      rw [← folded_trimmed] at found
      exact ⟨.boolean true, by rw [Reading.value?, found]; rfl⟩
  | no isWord =>
      have found : truthWords.lookup _ = some false := lookup_truthWords.mpr isWord
      rw [← folded_trimmed] at found
      exact ⟨.boolean false, by rw [Reading.value?, found]; rfl⟩

/-- A read gives what the stored text tells once its references are replaced, or the fallback, or the fault
of a reference that cannot be replaced. -/
theorem read_ends (manager : Manager) (reading : Reading) (sectionName option : String)
    (fallback : Option Value) :
    Ends manager sectionName option reading (fallback.getD reading.fallback)
      (manager.read reading sectionName option fallback) := by
  rw [read_eq]
  cases held : manager.document.lookup? sectionName option with
  | none =>
      rw [get?_missing held]
      exact .missing held
  | some raw =>
      rw [get?_stored held]
      rcases expands_or_breaks ⟨sectionName, option, raw⟩ (manager.document.lookup? sectionName) furtherDepth
        raw.toList with ⟨text, expands⟩ | ⟨fault, breaks⟩
      · have expanded : expand ⟨sectionName, option, raw⟩ (manager.document.lookup? sectionName) =
            .ok (String.ofList text) := expands.expand_eq
        rw [expanded]
        cases made : reading.value? (String.ofList text) with
        | some value =>
            simp only [Except.map, Option.bind_some, made, Option.getD_some]
            exact .said held expands (tells_of_value? made)
        | none =>
            simp only [Except.map, Option.bind_some, made, Option.getD_none]
            refine .unsaid held expands fun value tells => ?_
            obtain ⟨other, found⟩ := exists_value?_of_tells tells
            rw [made] at found
            cases found
      · rw [expand_eq_error.mpr breaks]
        exact .broken held breaks

variable {reading : Reading} {fallback : Value}

/-- A value that makes a text does not break. -/
theorem not_breaks_of_steady (steady : manager.IsSteady sectionName option) {raw : String}
    (stored : manager.document.lookup? sectionName option = some raw) (fault : Fault) :
    ¬ Breaks (manager.document.lookup? sectionName) ⟨sectionName, option, raw⟩ furtherDepth raw.toList
      fault := by
  intro breaks
  obtain ⟨text, expands⟩ := steady raw stored
  have expanded : expand ⟨sectionName, option, raw⟩ (manager.document.lookup? sectionName) =
      .ok (String.ofList text) := expands.expand_eq
  rw [expand_eq_error.mpr breaks] at expanded
  cases expanded

/-- A read gives a value just if the value of the option makes a text or there is none. -/
theorem Ends.isOk_iff {outcome : Except Fault Value}
    (ends : Ends manager sectionName option reading fallback outcome) :
    (∃ value, outcome = .ok value) ↔ manager.IsSteady sectionName option := by
  constructor
  · rintro ⟨value, rfl⟩ raw stored
    cases ends with
    | missing absent =>
        rw [absent] at stored
        cases stored
    | said held expands | unsaid held expands =>
        rw [held] at stored
        cases stored
        exact ⟨_, expands⟩
  · intro steady
    cases ends with
    | missing | said | unsaid => exact ⟨_, rfl⟩
    | broken stored breaks => exact absurd breaks (not_breaks_of_steady steady stored _)

theorem Ends.isInterpolation {fault : Fault}
    (ends : Ends manager sectionName option reading fallback (.error fault)) : IsInterpolation fault := by
  cases ends with
  | broken stored breaks => exact breaks.isInterpolation

/-- Where the fallback and all values that can be told are of one kind, a value of this kind is read. -/
theorem Ends.exists_wrapped {α : Type} {inner : α} {outcome : Except Fault Value} (wrap : α → Value)
    (wrapped : ∀ text value, Tells text reading value → ∃ other, value = wrap other)
    (ends : Ends manager sectionName option reading (wrap inner) outcome) :
    ∃ result : Except Fault α, outcome = result.map wrap := by
  cases ends with
  | missing | unsaid => exact ⟨.ok inner, rfl⟩
  | said stored expands tells =>
      obtain ⟨other, rfl⟩ := wrapped _ _ tells
      exact ⟨.ok other, rfl⟩
  | broken => exact ⟨.error _, rfl⟩

theorem readInt_ends (manager : Manager) (sectionName option : String) (whole : Int) :
    ∃ result : Except Fault Int,
      manager.readInt sectionName option (.integer whole) = result.map .integer ∧
        Ends manager sectionName option .int (.integer whole) (result.map .integer) := by
  have ends : Ends manager sectionName option .int (.integer whole)
      (manager.readInt sectionName option (.integer whole)) :=
    manager.read_ends .int sectionName option (some (.integer whole))
  obtain ⟨result, read⟩ := ends.exists_wrapped .integer (by rintro text value ⟨⟩; exact ⟨_, rfl⟩)
  exact ⟨result, read, read ▸ ends⟩

theorem readFloat_ends (manager : Manager) (sectionName option : String) (number : Float) :
    ∃ result : Except Fault Float,
      manager.readFloat sectionName option (.float number) = result.map .float ∧
        Ends manager sectionName option .float (.float number) (result.map .float) := by
  have ends : Ends manager sectionName option .float (.float number)
      (manager.readFloat sectionName option (.float number)) :=
    manager.read_ends .float sectionName option (some (.float number))
  obtain ⟨result, read⟩ := ends.exists_wrapped .float (by rintro text value ⟨⟩; exact ⟨_, rfl⟩)
  exact ⟨result, read, read ▸ ends⟩

/-- The typed reads of all options, and the settings that the program reads: the value that is told or the
fallback, unless the references of the stored value cannot be replaced.  Just then a read fails, with a fault
of references.  The rest time that is told is not used below zero. -/
theorem reads_settle (manager : Manager) :
    (∀ (reading : Reading) (sectionName option : String) (fallback : Option Value),
      Ends manager sectionName option reading (fallback.getD reading.fallback)
          (manager.read reading sectionName option fallback) ∧
        ((∃ value, manager.read reading sectionName option fallback = .ok value) ↔
          manager.IsSteady sectionName option) ∧
        ∀ fault, manager.read reading sectionName option fallback = .error fault → IsInterpolation fault) ∧
      (∃ time : Except Fault Int,
        Ends manager "INPUT" "rest_time" .int (.integer defaultRestTime) (time.map .integer) ∧
          manager.restTime = time.map (max 0)) ∧
      Ends manager "INPUT" "scroll_step" .int (.integer defaultScrollStep)
        (manager.scrollStep.map .integer) ∧
      Ends manager "RUNNER" "stop_timeout" .float (.float defaultStopTimeout)
        (manager.stopTimeout.map .float) := by
  refine ⟨fun reading sectionName option fallback => ?_, ?_, ?_, ?_⟩
  · have ends := manager.read_ends reading sectionName option fallback
    refine ⟨ends, ends.isOk_iff, fun fault failed => ?_⟩
    rw [failed] at ends
    exact ends.isInterpolation
  · obtain ⟨time, read, ends⟩ := manager.readInt_ends "INPUT" "rest_time" defaultRestTime
    refine ⟨time, ends, ?_⟩
    rw [restTime, read]
    cases time <;> rfl
  · obtain ⟨step, read, ends⟩ := manager.readInt_ends "INPUT" "scroll_step" defaultScrollStep
    have shown : manager.scrollStep = step := by
      rw [scrollStep, read]
      cases step <;> rfl
    rwa [shown]
  · obtain ⟨time, read, ends⟩ := manager.readFloat_ends "RUNNER" "stop_timeout" defaultStopTimeout
    have shown : manager.stopTimeout = time := by
      rw [stopTimeout, read]
      cases time <;> rfl
    rwa [shown]

end Manager

namespace Stored

/-- A percent sign that begins nothing makes the reads of its option fail, whatever the fallback. -/
theorem reads_break_at_mark :
    ∃ stored fault,
      Stored.fresh true (some (Text.encodeBytes "[INPUT]\nrest_time = %x\n")) = .ok stored ∧
      fault = .raised .interpolationSyntax (some "'%' must be followed by '%' or '(', found: '%x'") ∧
      stored.manager.restTime = .error fault ∧
      ∀ reading fallback, stored.manager.read reading "INPUT" "rest_time" fallback = .error fault := by
  let document : Document String := {
    sections := [
      ("INPUT", [("rest_time", "%x"), ("scroll_step", "1")]), ("RUNNER", [("stop_timeout", "3.0")]),
      ("COMMANDS", [])] }
  let stored : Stored := ⟨⟨document, true⟩, some (Text.encodeBytes "[INPUT]\nrest_time = %x\n")⟩
  have starts : Stored.fresh true (some (Text.encodeBytes "[INPUT]\nrest_time = %x\n")) = .ok stored := by
    rw [fresh_some, readDocument, Text.decodeBytes_encodeBytes]
    rfl
  have worded : strayFault ['%', 'x'] =
      .raised .interpolationSyntax (some "'%' must be followed by '%' or '(', found: '%x'") := by
    decide +kernel
  have got : stored.manager.get? "INPUT" "rest_time" = .error (strayFault ['%', 'x']) := by
    have held : stored.manager.document.lookup? "INPUT" "rest_time" = some "%x" := rfl
    have breaks : Breaks (stored.manager.document.lookup? "INPUT") ⟨"INPUT", "rest_time", "%x"⟩ furtherDepth
        ['%', 'x'] (strayFault ['%', 'x']) := .stray (by rintro c ⟨⟩; decide)
    rw [Manager.get?_stored held, expand_eq_error.mpr breaks]
    rfl
  have reads (reading : Manager.Reading) (fallback : Option Value) :
      stored.manager.read reading "INPUT" "rest_time" fallback = .error (strayFault ['%', 'x']) := by
    rw [Manager.read_eq, got]
    rfl
  refine ⟨stored, strayFault ['%', 'x'], starts, worded, ?_, reads⟩
  have read : stored.manager.readInt "INPUT" "rest_time" (.integer defaultRestTime) =
      .error (strayFault ['%', 'x']) := reads .int (some (.integer defaultRestTime))
  rw [Manager.restTime, read]
  rfl

end Stored

end InputScript.Settings
