/-
Module: InputScript.Proofs.Chords
Purpose: Chords of keys by name.  A text whose parts all name keys is the chord of those keys, and any
  other text is refused.  The names of keys as separate tokens are taken by the operation on keys, and two
  or more of them joined with plus signs by the operation on written chords.
Main exports: chordParts, chordText_eq_chord, coerce_joined
-/
import InputScript.Action.BuiltIn
import InputScript.Proofs.KeyNames
import InputScript.Proofs.Strokes
import InputScript.Proofs.Tokens
import InputScript.Run.Invoke

namespace InputScript.Strokes

open Catalog Device Run Script Text

/-! ### Chords written with plus signs -/

/-- The segments of a chord that are not blank. -/
def chordParts (text : String) : List (List Char) :=
  (chordSegments text).filter (!isBlankText ·)

theorem keyNamed?_of_isBlankText {segment : List Char} (blank : isBlankText segment = true) :
    keyNamed? segment = none := by
  have nothing : trim segment = [] := by
    rw [trim, trimStart, List.dropWhile_eq_nil_iff.mpr (List.all_eq_true.mp blank)]
    rfl
  rw [keyNamed?, nothing]
  exact namedFolded?_eq_none fun entry names => names.beginsAsName.ne_nil rfl

theorem chordKeys_eq (text : String) : chordKeys text = (chordParts text).filterMap keyNamed? := by
  rw [chordKeys, chordParts]
  induction chordSegments text with
  | nil => rfl
  | cons segment rest hypothesis =>
      cases blank : isBlankText segment with
      | true =>
          rw [List.filterMap_cons_none (keyNamed?_of_isBlankText blank), hypothesis,
            List.filter_cons_of_neg (by simp [blank])]
      | false =>
          rw [List.filter_cons_of_pos (by simp [blank]), List.filterMap_cons, List.filterMap_cons,
            hypothesis]

theorem filterMap_eq_of_found {parts : List (List Char)} {members : List Member}
    (found : List.Forall₂ (fun part member => keyNamed? part = some member) parts members) :
    parts.filterMap keyNamed? = members := by
  induction found with
  | nil => rfl
  | cons named _ hypothesis =>
      rw [List.filterMap_cons_some named, hypothesis]

section Written

variable (context : InputContext) (hasSignal : Bool) {text : Option String}

/-- A text whose parts all name keys is a chord of those keys. -/
theorem chordText_eq_chord {members : List Member} (nonempty : members ≠ [])
    (found : List.Forall₂ (fun part member => keyNamed? part = some member)
      (chordParts (text.getD "")) members) :
    Keyboard.chordText context hasSignal text =
      Keyboard.chord context hasSignal (members.map .member) := by
  have keys : chordKeys (text.getD "") = members := by
    rw [chordKeys_eq, filterMap_eq_of_found found]
  have complete : (members.isEmpty || members.length != (chordParts (text.getD "")).length) =
      false := by
    rw [List.isEmpty_eq_false_iff.mpr nonempty, found.length_eq, bne_self_eq_false]
    rfl
  rw [chordParts] at complete
  unfold Keyboard.chordText
  simp only [keys, complete]
  rfl

/-- The warning that refuses a chord. -/
def chordRefusal (text : Option String) : LogLine :=
  let shown := (text.map quoted).getD "None"
  ⟨.warning, s!"KeyboardCombo: unknown key in {shown}"⟩

/-- A text without parts, or with a part that names no key, is refused. -/
theorem chordText_refused (incomplete : chordParts (text.getD "") = [] ∨
      ∃ part ∈ chordParts (text.getD ""), keyNamed? part = none) :
    Does (Keyboard.chordText context hasSignal text) [] [chordRefusal text] (.ok .none) := by
  have refused : ((chordKeys (text.getD "")).isEmpty ||
      (chordKeys (text.getD "")).length != (chordParts (text.getD "")).length) = true := by
    rw [chordKeys_eq]
    rcases incomplete with nothing | ⟨part, inside, unknown⟩
    · rw [nothing]
      rfl
    · have fewer := List.length_filterMap_lt_length_iff_exists.mpr ⟨part, inside, unknown⟩
      rw [Bool.or_eq_true, bne_iff_ne]
      exact .inr (Nat.ne_of_lt fewer)
  rw [chordParts] at refused
  unfold Keyboard.chordText
  simp only [refused]
  exact (does_warn _).map fun _ => Value.none

end Written

/-! ### The two operations -/

section Operations

variable (context : InputContext)

/-- The operation that takes the keys of a chord one by one. -/
def spreadChord : Overload :=
  BuiltIn.action { name := "KeyboardCombo", variadic := some BuiltIn.keyType, cancellable := true } []
    "KeyboardCombo = LeftCtrl LeftShift S — press all, wait, release in reverse."
    fun call => Keyboard.chord context call.hasSignal call.arguments

/-- The operation that takes a chord written with plus signs. -/
def writtenChord : Overload :=
  BuiltIn.onTextCancellable "KeyboardCombo"
    "KeyboardCombo = LeftCtrl+S — the same chord written with '+'." (Keyboard.chordText context)

/-- The operations that do not belong to one key. -/
def generalActions : List Overload :=
  BuiltIn.timing ++ BuiltIn.mouse context ++ BuiltIn.keyboard context ++ BuiltIn.messages ++
    BuiltIn.windows context ++ BuiltIn.clipboard context

theorem keyActions_name {entry : KeyEntry} {overload : Overload}
    (member : overload ∈ BuiltIn.keyActions context entry) :
    ∃ ending ∈ ["", "Press", "Loosen"],
      overload.name.toList = 'K' :: 'e' :: 'y' :: (entry.name.toList ++ ending.toList) := by
  have spelled (ending : String) : ("Key" ++ entry.name ++ ending).toList =
      'K' :: 'e' :: 'y' :: (entry.name.toList ++ ending.toList) := by
    rw [String.toList_append, String.toList_append, List.append_assoc]
    rfl
  simp only [BuiltIn.keyActions, List.mem_cons, List.not_mem_nil, or_false] at member
  rcases member with rfl | rfl | rfl
  · refine ⟨"", by decide, ?_⟩
    rw [← spelled, String.append_empty]
    rfl
  · exact ⟨"Press", by decide, spelled "Press"⟩
  · exact ⟨"Loosen", by decide, spelled "Loosen"⟩

/-- The overloads of chords. -/
theorem overloads_chord : (BuiltIn.registry context).overloads "KeyboardCombo" =
    [spreadChord context, writtenChord context] := by
  have general : (generalActions context).filter (·.name == "KeyboardCombo") =
      [spreadChord context, writtenChord context] := rfl
  have ofKeys : (keys.flatMap (BuiltIn.keyActions context)).filter (·.name == "KeyboardCombo") =
      [] := by
    rw [List.filter_eq_nil_iff]
    intro overload member named
    obtain ⟨entry, isKey, member⟩ := List.mem_flatMap.mp member
    obtain ⟨ending, -, spelled⟩ := keyActions_name context member
    have table := isTableName_keys entry isKey
    simp only [isTableName, Bool.and_eq_true] at table
    have capital := table.1.1.1
    rw [beq_iff_eq.mp named] at spelled
    cases letters : entry.name.toList with
    | nil =>
        rw [letters] at capital
        cases capital
    | cons c rest =>
        rw [letters] at spelled capital
        have same : 'b' = c := by
          have tails := (List.cons.inj (List.cons.inj (List.cons.inj spelled).2).2).2
          exact (List.cons.inj tails).1
        rw [← same] at capital
        cases capital
  rw [BuiltIn.registry, Registry.overloads_registerAll]
  change [] ++ (generalActions context ++ _).filter _ = _
  rw [List.nil_append, List.filter_append, general, ofKeys, List.append_nil]

/-- The names of the operations without parameters that do not belong to one key. -/
def nullaryNames : List String :=
  ["MouseClickLeft", "MouseClickRight", "MouseClickMiddle", "MouseLeftDown", "MouseLeftUp",
    "MouseRightDown", "MouseRightUp", "MouseMiddleDown", "MouseMiddleUp", "MouseRollerUp",
    "MouseRollerDown", "GetMouseX", "GetMouseY", "Copy", "Paste", "SelectAll", "Save",
    "GetToggleCaseStatus", "GetClipboard"]

theorem nullary_generalActions :
    ((generalActions context).filter (·.isNullary)).map (·.name) = nullaryNames := rfl

/-- What sets the names of the operations without parameters apart from key names and chords. -/
def isNullaryName (name : List Char) : Bool :=
  !name.contains '+' && nullaryStarts.contains (String.ofList ((fold name).take 3))

theorem isNullaryName_of_isNullary {overload : Overload} (isBuiltIn : overload ∈ BuiltIn.all context)
    (nullary : overload.isNullary = true) : isNullaryName overload.name.toList = true := by
  have general : ∀ name ∈ nullaryNames, isNullaryName name.toList = true := by decide +kernel
  rcases List.mem_append.mp isBuiltIn with isGeneral | ofKey
  · apply general
    rw [← nullary_generalActions context]
    exact List.mem_map_of_mem (List.mem_filter.mpr ⟨isGeneral, nullary⟩)
  · obtain ⟨entry, isKey, member⟩ := List.mem_flatMap.mp ofKey
    obtain ⟨ending, isEnding, spelled⟩ := keyActions_name context member
    have names : Names entry.name entry := ⟨isKey, rfl⟩
    have noPlus : '+' ∉ entry.name.toList := names.not_mem (by decide) (by decide)
    have endings : ∀ ending ∈ ["", "Press", "Loosen"], '+' ∉ ending.toList := by decide
    have plain : ('K' :: 'e' :: 'y' :: (entry.name.toList ++ ending.toList)).contains '+' = false := by
      simp [noPlus, endings ending isEnding]
    rw [spelled, isNullaryName, plain]
    rfl

/-- A text that is no such name is not taken for a step without arguments. -/
theorem isZeroArity_eq_false {text : String} (other : isNullaryName text.toList = false) :
    (BuiltIn.registry context).isZeroArity text = false := by
  rw [Registry.isZeroArity, BuiltIn.registry, Registry.overloads_registerAll, List.any_eq_false]
  intro overload member nullary
  obtain ⟨isBuiltIn, named⟩ := List.mem_filter.mp member
  have taken := isNullaryName_of_isNullary context isBuiltIn nullary
  rw [beq_iff_eq.mp named, other] at taken
  cases taken

end Operations

/-! ### Steps of chords -/

section Steps

variable (context : InputContext)

/-- The step of a chord with the names of its keys as separate tokens. -/
def spreadStep (names : List String) : Step := ⟨"KeyboardCombo", names.map .token⟩

/-- The step of a chord with the names of its keys joined with plus signs. -/
def writtenStep (names : List String) : Step :=
  ⟨"KeyboardCombo", [.token ("+".intercalate names)]⟩

theorem tokensOf_tokens {registry : Registry} {texts : List String}
    (plain : ∀ text ∈ texts, registry.isZeroArity text = false) :
    tokensOf registry (texts.map .token) = .finished (.ok texts) := by
  induction texts with
  | nil => rfl
  | cons text rest hypothesis =>
      rw [List.forall_mem_cons] at plain
      rw [List.map_cons, tokensOf, argumentToken, plain.1, hypothesis plain.2]
      rfl

theorem isNullaryName_of_plus {text : List Char} (plus : '+' ∈ text) : isNullaryName text = false := by
  have contained : text.contains '+' = true := List.contains_iff_mem.mpr plus
  rw [isNullaryName, contained]
  rfl

theorem isNullaryName_of_names {name : String} {entry : KeyEntry} (names : Names name entry) :
    isNullaryName name.toList = false := by
  have table := isTableName_keys entry names.1
  simp only [isTableName, Bool.and_eq_true, Bool.not_eq_true', ← names.fold_eq] at table
  rw [isNullaryName, table.2, Bool.and_false]

/-- What the names of the keys of a chord are converted to. -/
def Finds (name : String) (member : Member) : Prop :=
  (∃ entry, Names name entry) ∧ keyNames.namedFolded? name = some member

variable {names : List String} {members : List Member}

theorem coerceAll_eq (found : List.Forall₂ Finds names members) :
    coerceAll BuiltIn.keyType names = .ok (members.map .member) := by
  induction found with
  | nil => rfl
  | @cons name member names members first _ hypothesis =>
      obtain ⟨⟨entry, isName⟩, named⟩ := first
      have converted : coerce (some name) BuiltIn.keyType = .ok (.member member) := by
        rw [BuiltIn.keyType, isName.beginsAsName.coerce_eq isName.solid, named]
        rfl
      rw [coerceAll, List.mapM_cons, converted]
      rw [coerceAll] at hypothesis
      rw [hypothesis]
      rfl

theorem accepts_spread (count : Nat) : (spreadChord context).accepts count = true := by
  have least : (spreadChord context).requiredCount = 0 := rfl
  have variadic : (spreadChord context).isVariadic = true := rfl
  rw [Overload.accepts, least, variadic, Bool.true_or, Bool.and_true, decide_eq_true_eq]
  exact Int.natCast_nonneg count

theorem bindArguments_spread (tokens : List String) :
    bindArguments (spreadChord context) tokens = coerceAll BuiltIn.keyType tokens := by
  change (coerceAll BuiltIn.keyType tokens).bind (fun values => .ok ([] ++ values)) = _
  cases coerceAll BuiltIn.keyType tokens <;> rfl

/-- Separate names are taken by the operation on keys. -/
theorem resolve_spread (found : List.Forall₂ Finds names members) :
    (BuiltIn.registry context).resolve "KeyboardCombo" names =
      .ok ⟨spreadChord context, members.map .member⟩ := by
  have candidates : (BuiltIn.registry context).candidates "KeyboardCombo" names.length =
      spreadChord context :: [writtenChord context].filter (·.accepts names.length) := by
    rw [Registry.candidates, overloads_chord, List.filter_cons, accepts_spread, if_pos rfl]
  have bound := (bindArguments_spread context names).trans (coerceAll_eq found)
  rw [Registry.resolve, candidates]
  simp only [attempts, List.isEmpty_cons, Bool.false_and, Bool.false_eq_true, if_false, chooseFrom,
    bound]
  rfl

/-- A token that is no key and no number is taken by the operation on written chords. -/
theorem resolve_written {text : String}
    (rejected : coerce (some text) BuiltIn.keyType =
      .error (.rejected (.notAMember keyNames.name))) :
    (BuiltIn.registry context).resolve "KeyboardCombo" [text] =
      .ok ⟨writtenChord context, [.text text]⟩ := by
  have candidates : (BuiltIn.registry context).candidates "KeyboardCombo" ([text].length : Nat) =
      [spreadChord context, writtenChord context] := by
    rw [Registry.candidates, overloads_chord]
    rfl
  have refused : bindArguments (spreadChord context) [text] =
      .error (.rejected (.notAMember keyNames.name)) := by
    rw [bindArguments_spread, coerceAll, List.mapM_cons, rejected]
    rfl
  rw [Registry.resolve, candidates]
  simp only [attempts, List.isEmpty_cons, Bool.false_and, Bool.false_eq_true, if_false, chooseFrom,
    refused]
  rfl

end Steps

/-! ### Names joined with plus signs -/

section Joined

variable {names : List String} {members : List Member}

theorem splitWhere_intercalate {mark : Char} {texts : List (List Char)} (nonempty : texts ≠ [])
    (joins : ∀ text ∈ texts, mark ∉ text) :
    splitWhere (· == mark) ([mark].intercalate texts) = texts := by
  induction texts with
  | nil => exact absurd rfl nonempty
  | cons text others hypothesis =>
      rw [List.forall_mem_cons] at joins
      have joinsText : ∀ c ∈ text, (c == mark) = false := by
        intro c inside
        rw [beq_eq_false_iff_ne]
        rintro rfl
        exact joins.1 inside
      cases others with
      | nil =>
          have split := splitWhere_append joinsText []
          rw [List.append_nil] at split
          simpa [splitWhere] using split
      | cons next others =>
          have separator : (mark == mark) = true := beq_self_eq_true mark
          have later := hypothesis (List.cons_ne_nil _ _) joins.2
          rw [List.intercalate_cons_cons, List.append_assoc, List.singleton_append,
            splitWhere_append joinsText, splitWhere, if_pos separator, prepend_cons, List.append_nil,
            later]

theorem toList_joined (names : List String) :
    ("+".intercalate names).toList = ['+'].intercalate (names.map String.toList) :=
  String.toList_intercalate

theorem exists_names_of_mem (found : List.Forall₂ Finds names members) :
    ∀ name ∈ names, ∃ entry, Names name entry := by
  induction found with
  | nil => exact List.forall_mem_nil _
  | cons first _ hypothesis => exact List.forall_mem_cons.mpr ⟨first.1, hypothesis⟩

theorem plus_not_mem {name : String} {entry : KeyEntry} (isName : Names name entry) :
    '+' ∉ name.toList :=
  isName.not_mem (by decide) (by decide)

/-- The parts of joined names are the names. -/
theorem chordParts_joined (named : ∀ name ∈ names, ∃ entry, Names name entry) (nonempty : names ≠ []) :
    chordParts ("+".intercalate names) = names.map String.toList := by
  rw [chordParts, chordSegments, toList_joined, splitWhere_intercalate]
  · rw [List.filter_eq_self, List.forall_mem_map]
    intro name member
    obtain ⟨entry, isName⟩ := named name member
    obtain ⟨c, rest, spelled, -⟩ := isName.beginsAsName
    have solid := isName.solid c (by rw [spelled]; exact List.mem_cons_self)
    rw [spelled, isBlankText, List.all_cons, solid]
    rfl
  · simpa using nonempty
  · rw [List.forall_mem_map]
    intro name member
    obtain ⟨entry, isName⟩ := named name member
    exact plus_not_mem isName

/-- Joined names are the chord of the keys that they find. -/
theorem chordText_joined (context : InputContext) (hasSignal : Bool)
    (found : List.Forall₂ Finds names members) (nonempty : names ≠ []) :
    Keyboard.chordText context hasSignal (some ("+".intercalate names)) =
      Keyboard.chord context hasSignal (members.map .member) := by
  have someMember : members ≠ [] := by
    rintro rfl
    cases found
    exact nonempty rfl
  apply chordText_eq_chord context hasSignal someMember
  rw [Option.getD_some, chordParts_joined (exists_names_of_mem found) nonempty,
    List.forall₂_map_left_iff]
  refine found.imp fun name member finds => ?_
  obtain ⟨⟨entry, isName⟩, named⟩ := finds
  rw [keyNamed?, trim_solid isName.solid, String.ofList_toList, named]

theorem solid_joined (named : ∀ name ∈ names, ∃ entry, Names name entry) :
    ∀ c ∈ ['+'].intercalate (names.map String.toList), isBlank c = false := by
  induction names with
  | nil => exact List.forall_mem_nil _
  | cons name others hypothesis =>
      rw [List.forall_mem_cons] at named
      obtain ⟨⟨entry, isName⟩, namedOthers⟩ := named
      cases others with
      | nil =>
          rw [List.map_singleton, List.intercalate_singleton]
          exact isName.solid
      | cons next others =>
          rw [List.map_cons, List.map_cons, List.intercalate_cons_cons, List.append_assoc,
            List.forall_mem_append, List.forall_mem_append]
          exact ⟨isName.solid, List.forall_mem_singleton.mpr (by decide), hypothesis namedOthers⟩

/-- Two or more joined names are neither a key nor a number. -/
theorem coerce_joined {first second : String} {rest : List String}
    (named : ∀ name ∈ first :: second :: rest, ∃ entry, Names name entry) :
    coerce (some ("+".intercalate (first :: second :: rest))) BuiltIn.keyType =
      .error (.rejected (.notAMember keyNames.name)) := by
  have spelled := toList_joined (first :: second :: rest)
  rw [List.map_cons, List.map_cons, List.intercalate_cons_cons, List.append_assoc] at spelled
  have solid : ∀ c ∈ ("+".intercalate (first :: second :: rest)).toList, isBlank c = false := by
    rw [toList_joined]
    exact solid_joined named
  have begins : BeginsAsName ("+".intercalate (first :: second :: rest)).toList := by
    obtain ⟨entry, isName⟩ := named first List.mem_cons_self
    rw [spelled]
    exact isName.beginsAsName.append _
  have nameless : keyNames.namedFolded? ("+".intercalate (first :: second :: rest)) = none := by
    refine namedFolded?_eq_none fun entry isName => plus_not_mem isName ?_
    rw [spelled]
    exact List.mem_append_right _ (List.mem_append_left _ (List.mem_singleton_self _))
  rw [BuiltIn.keyType, begins.coerce_eq solid, nameless]
  rfl

end Joined

end InputScript.Strokes
