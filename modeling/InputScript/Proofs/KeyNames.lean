/-
Module: InputScript.Proofs.KeyNames
Purpose: The names of keys in any letter case.  Folded, they are distinct and made of letters and digits,
  so a token that is the name of a key has no blanks, is no number and stands for that key alone.
Main exports: Names, Names.not_mem, BeginsAsName.coerce_eq
-/
import InputScript.Device.Key
import InputScript.Proofs.Refusals
import InputScript.Proofs.Substitution
import Mathlib.Data.List.Nodup

namespace InputScript.Device

open Text Number

/-- A text is the name of a key, in any letter case. -/
def Names (name : String) (entry : KeyEntry) : Prop :=
  entry ∈ keys ∧ folded name = folded entry.name

/-! ### The table of keys -/

/-- The beginnings, in small letters, of the names of the operations that take no argument. -/
def nullaryStarts : List String := ["mou", "cop", "pas", "sel", "sav", "get", "key"]

/-- What the names in the table have in common.  They begin with a capital letter; folded, they are
letters and digits, the first one is a letter, and they do not begin like operations. -/
def isTableName (name : List Char) : Bool :=
  let small := fold name
  name.head?.any Char.isUpper && small.head?.any Char.isAlpha && small.all Char.isAlphanum &&
    !nullaryStarts.contains (String.ofList (small.take 3))

theorem isTableName_keys : ∀ entry ∈ keys, isTableName entry.name.toList = true := by
  decide +kernel

/-- The code points of a folded name, read as one number. -/
def nameNumber (name : List Char) : Nat := positional 128 ((fold name).map Char.toNat)

theorem nodup_nameNumber : (keys.map fun entry => nameNumber entry.name.toList).Nodup := by
  decide +kernel

theorem eq_of_folded_eq {first second : KeyEntry} (isFirst : first ∈ keys) (isSecond : second ∈ keys)
    (same : folded first.name = folded second.name) : first = second := by
  apply List.inj_on_of_nodup_map nodup_nameNumber isFirst isSecond
  rw [nameNumber, nameNumber, String.ofList_injective same]

/-! ### The characters of a name -/

theorem foldChar_of_isBlank {c : Char} (blank : isBlank c = true) : foldChar c = [c] := by
  have blanks : ∀ code ∈ blankCodes, foldChar (Char.ofNat code) = [Char.ofNat code] := by
    decide +kernel
  have folds := blanks c.toNat (toNat_mem_blankCodes blank)
  rwa [Char.ofNat_toNat] at folds

theorem isAlphanum_of_isBlank {c : Char} (blank : isBlank c = true) : c.isAlphanum = false := by
  have blanks : ∀ code ∈ blankCodes, (Char.ofNat code).isAlphanum = false := by decide +kernel
  have other := blanks c.toNat (toNat_mem_blankCodes blank)
  rwa [Char.ofNat_toNat] at other

/-- A text begins with a character that is a letter, unless it differs in the letter cases. -/
def BeginsAsName (text : List Char) : Prop :=
  ∃ c rest, text = c :: rest ∧ (foldChar c = [c] → c.isAlpha = true)

namespace BeginsAsName

variable {text : List Char}

theorem append (begins : BeginsAsName text) (more : List Char) : BeginsAsName (text ++ more) := by
  obtain ⟨c, rest, rfl, letter⟩ := begins
  exact ⟨c, rest ++ more, rfl, letter⟩

theorem ne_nil (begins : BeginsAsName text) : text ≠ [] := by
  obtain ⟨c, rest, rfl, -⟩ := begins
  exact List.cons_ne_nil c rest

theorem hexValue?_eq (begins : BeginsAsName text) : hexValue? text = none := by
  obtain ⟨c, rest, rfl, letter⟩ := begins
  unfold hexValue?
  split
  · next same =>
      cases same
      cases letter (by decide)
  · rfl

theorem signedDigits?_eq (begins : BeginsAsName text) : signedDigits? text = none := by
  obtain ⟨c, rest, rfl, letter⟩ := begins
  have unsigned : splitSign (c :: rest) = (false, c :: rest) := by
    unfold splitSign
    split
    · next same =>
        cases same
        cases letter (by decide)
    · next same =>
        cases same
        cases letter (by decide)
    · rfl
  have noDigit : isAsciiDigit c = false := by
    cases digit : isAsciiDigit c with
    | false => rfl
    | true =>
        have isLetter : (decide ('A'.val ≤ c.val ∧ c.val ≤ 'Z'.val) ||
            decide ('a'.val ≤ c.val) && decide (c.val ≤ 'z'.val)) = true :=
          letter (Script.foldChar_of_isAsciiDigit digit)
        simp only [isAsciiDigit, Bool.and_eq_true, decide_eq_true_eq] at digit
        simp only [Bool.or_eq_true, Bool.and_eq_true, decide_eq_true_eq, UInt32.le_iff_toNat_le] at isLetter
        have code : c.toNat = c.val.toNat := rfl
        have letters : 'A'.val.toNat = 65 ∧ 'a'.val.toNat = 97 := by decide
        omega
  simp [signedDigits?, unsigned, noDigit]

/-- Such a text without blanks stands for a key only by name. -/
theorem coerce_eq {token : String} (begins : BeginsAsName token.toList)
    (solid : ∀ c ∈ token.toList, isBlank c = false) :
    coerce (some token) (.enumeration keyNames) =
      acceptOr (.notAMember keyNames.name) .member (.ok (keyNames.namedFolded? token)) := by
  rw [coerce_converts (by simp), trim_solid solid]
  split
  · next nothing => exact absurd nothing begins.ne_nil
  · rw [convert, toMember, begins.hexValue?_eq, begins.signedDigits?_eq, String.ofList_toList]

end BeginsAsName

namespace Names

variable {name : String} {entry : KeyEntry}

theorem fold_eq (names : Names name entry) : fold name.toList = fold entry.name.toList :=
  String.ofList_injective names.2

/-- A character that has no letter case and is no letter or digit is not in a name. -/
theorem not_mem (names : Names name entry) {mark : Char} (caseless : foldChar mark = [mark])
    (other : mark.isAlphanum = false) : mark ∉ name.toList := by
  intro inside
  have kept : mark ∈ fold name.toList := by
    refine List.mem_flatMap.mpr ⟨mark, inside, ?_⟩
    rw [caseless]
    exact List.mem_singleton_self mark
  rw [names.fold_eq] at kept
  have table := isTableName_keys entry names.1
  simp only [isTableName, Bool.and_eq_true, List.all_eq_true] at table
  rw [table.1.2 mark kept] at other
  cases other

theorem solid (names : Names name entry) : ∀ c ∈ name.toList, isBlank c = false := by
  intro c inside
  cases blank : isBlank c with
  | false => rfl
  | true => exact absurd inside (names.not_mem (foldChar_of_isBlank blank) (isAlphanum_of_isBlank blank))

theorem beginsAsName (names : Names name entry) : BeginsAsName name.toList := by
  have table := isTableName_keys entry names.1
  simp only [isTableName, Bool.and_eq_true, ← names.fold_eq] at table
  have letter := table.1.1.2
  cases spelled : name.toList with
  | nil =>
      rw [spelled] at letter
      cases letter
  | cons c rest =>
      refine ⟨c, rest, rfl, fun caseless => ?_⟩
      rw [spelled, fold, List.flatMap_cons, caseless] at letter
      exact letter

/-- A name finds its own key. -/
theorem find?_eq (names : Names name entry) :
    keys.find? (fun found => sameFolded found.name name) = some entry := by
  have own : sameFolded entry.name name = true := beq_iff_eq.mpr names.2.symm
  cases first : keys.find? (fun found => sameFolded found.name name) with
  | none => exact absurd own (List.find?_eq_none.mp first entry names.1)
  | some found =>
      have hit := List.find?_some first
      have same : folded found.name = folded name := beq_iff_eq.mp hit
      rw [eq_of_folded_eq (List.mem_of_find?_eq_some first) names.1 (same.trans names.2)]

end Names

/-! ### Members -/

theorem namedFolded?_keyNames (name : String) :
    keyNames.namedFolded? name =
      (keys.find? (fun found => sameFolded found.name name)).bind fun entry =>
        keyNames.memberOf? (.number entry.code) := by
  have entries : keyNames.entries = keys.map fun entry => (entry.name, .number entry.code) := rfl
  rw [Enumeration.namedFolded?, entries, List.find?_map]
  exact Option.bind_map

/-- The member of a code counts as the code. -/
theorem exists_memberOf? {entry : KeyEntry} (isKey : entry ∈ keys) :
    ∃ member, keyNames.memberOf? (.number entry.code) = some member ∧
      wholeNumber (.member member) = .ok entry.code := by
  have numeric : keyNames.isNumeric = true := by
    rw [Enumeration.isNumeric, keyNames, List.all_map, List.all_eq_true]
    exact fun _ _ => rfl
  have listed : (entry.name, MemberValue.number entry.code) ∈ keyNames.entries :=
    List.mem_map_of_mem isKey
  cases first : keyNames.entries.find? (·.2 == MemberValue.number entry.code) with
  | none => exact absurd (beq_self_eq_true _) (List.find?_eq_none.mp first _ listed)
  | some found =>
      have hit := List.find?_some first
      have same : found.2 = .number entry.code := beq_iff_eq.mp hit
      refine ⟨⟨keyNames.name, found.1, found.2, keyNames.isNumeric⟩, ?_, ?_⟩
      · rw [Enumeration.memberOf?, first]
        rfl
      · rw [numeric, same]
        rfl

/-- A member stands for a key: what is pressed for it is the key of its code. -/
def StandsFor (member : Member) (entry : KeyEntry) : Prop :=
  keyNames.memberOf? (.number entry.code) = some member ∧
    wholeNumber (.member member) = .ok entry.code

theorem StandsFor.toKey_eq {member : Member} {entry : KeyEntry} (stands : StandsFor member entry)
    (missing : List String) : toKey missing (.member member) = .ok (keyOfCode missing entry.code) := by
  rw [toKey, stands.2]
  rfl

theorem Names.exists_member {name : String} {entry : KeyEntry} (names : Names name entry) :
    ∃ member, StandsFor member entry ∧ keyNames.namedFolded? name = some member := by
  obtain ⟨member, found, counts⟩ := exists_memberOf? names.1
  refine ⟨member, ⟨found, counts⟩, ?_⟩
  rw [namedFolded?_keyNames, names.find?_eq]
  exact found

/-- A text finds a member only as the name of a key. -/
theorem namedFolded?_eq_none {name : String} (nameless : ∀ entry, ¬Names name entry) :
    keyNames.namedFolded? name = none := by
  have unknown : keys.find? (fun found => sameFolded found.name name) = none := by
    rw [List.find?_eq_none]
    intro entry isKey same
    exact nameless entry ⟨isKey, (beq_iff_eq.mp same).symm⟩
  rw [namedFolded?_keyNames, unknown]
  rfl

end InputScript.Device
