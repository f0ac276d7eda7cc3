/-
Module: InputScript.Dictionary
Purpose: Dictionaries that keep the order in which their keys were first added.
Main exports: Dictionary, get?, set, ofPairs, get?_set, mem_set
-/
namespace InputScript

/-- A dictionary from texts, as the list of its entries in the order of their first addition. -/
abbrev Dictionary (α : Type) := List (String × α)

namespace Dictionary

variable {α : Type}

/-- The value of a key. -/
def get? (dictionary : Dictionary α) (key : String) : Option α :=
  (dictionary.find? (·.1 == key)).map (·.2)

/-- Whether a key has a value. -/
def has (dictionary : Dictionary α) (key : String) : Bool :=
  dictionary.any (·.1 == key)

/-- Give a key a value.  A key that is there already keeps its place. -/
def set (dictionary : Dictionary α) (key : String) (value : α) : Dictionary α :=
  match dictionary with
  | [] => [(key, value)]
  | entry :: rest =>
    if entry.1 == key then (key, value) :: rest else entry :: set rest key value

/-- The entries of one dictionary, with those of a second one set after them. -/
def merge (dictionary later : Dictionary α) : Dictionary α :=
  later.foldl (fun merged entry => set merged entry.1 entry.2) dictionary

/-- The dictionary of a list of pairs: a repeated key keeps its first place and its last value. -/
def ofPairs (pairs : List (String × α)) : Dictionary α :=
  merge [] pairs

/-! ### Look-ups -/

section LookUps

variable (dictionary : Dictionary α) (key : String)

@[simp] theorem get?_nil : get? ([] : Dictionary α) key = none := rfl

theorem get?_cons (entry : String × α) :
    get? (entry :: dictionary) key = if entry.1 = key then some entry.2 else get? dictionary key := by
  by_cases same : entry.1 = key <;> simp [get?, same]

theorem get?_append (later : Dictionary α) :
    get? (dictionary ++ later) key = (get? dictionary key).or (get? later key) := by
  simp only [get?, List.find?_append, Option.map_or]

theorem get?_set (changed : String) (value : α) :
    get? (set dictionary changed value) key =
      if changed = key then some value else get? dictionary key := by
  induction dictionary with
  | nil => rw [set, get?_cons]
  | cons entry rest hypothesis =>
      rw [set]
      by_cases here : entry.1 = changed
      · rw [if_pos (by simpa using here), get?_cons, get?_cons, here]
        split <;> rfl
      · rw [if_neg (by simpa using here), get?_cons, get?_cons, hypothesis]
        by_cases found : entry.1 = key
        · rw [if_pos found, if_pos found, if_neg]
          rintro rfl
          exact here found
        · rw [if_neg found, if_neg found]

/-- Without the entries of one key the other look-ups are the same. -/
theorem get?_filter_ne (removed : String) :
    get? (dictionary.filter (·.1 != removed)) key =
      if removed = key then none else get? dictionary key := by
  induction dictionary with
  | nil => simp
  | cons entry rest hypothesis =>
      by_cases gone : entry.1 = removed
      · rw [List.filter_cons_of_neg (by simp [gone]), hypothesis, get?_cons, gone]
        split <;> rfl
      · rw [List.filter_cons_of_pos (by simp [gone]), get?_cons, get?_cons, hypothesis]
        by_cases found : entry.1 = key
        · rw [if_pos found, if_pos found, if_neg]
          rintro rfl
          exact gone found
        · rw [if_neg found, if_neg found]

/-- Of several values that are set for a key, the last one counts. -/
theorem get?_merge (later : Dictionary α) :
    get? (merge dictionary later) key = (get? later.reverse key).or (get? dictionary key) := by
  induction later generalizing dictionary with
  | nil => rfl
  | cons entry rest hypothesis =>
      have step : merge dictionary (entry :: rest) = merge (set dictionary entry.1 entry.2) rest := rfl
      rw [step, hypothesis, get?_set, List.reverse_cons, get?_append, get?_cons, get?_nil,
        Option.or_assoc]
      split <;> rfl

theorem get?_ofPairs (pairs : List (String × α)) :
    get? (ofPairs pairs) key = get? pairs.reverse key := by
  rw [ofPairs, get?_merge, get?_nil, Option.or_none]

end LookUps

/-! ### Keys -/

theorem has_iff (dictionary : Dictionary α) (key : String) :
    has dictionary key = true ↔ key ∈ dictionary.map (·.1) := by
  simp [has]

/-- A key that is there already keeps its place, and a new one comes last. -/
theorem keys_set (dictionary : Dictionary α) (key : String) (value : α) :
    (set dictionary key value).map (·.1) =
      if key ∈ dictionary.map (·.1) then dictionary.map (·.1)
      else dictionary.map (·.1) ++ [key] := by
  induction dictionary with
  | nil => rfl
  | cons entry rest hypothesis =>
      rw [set]
      by_cases here : entry.1 = key
      · simp [here]
      · rw [if_neg (by simpa using here), List.map_cons, hypothesis]
        have elsewhere : key ∈ (entry :: rest).map (·.1) ↔ key ∈ rest.map (·.1) := by
          simp [Ne.symm here]
        simp only [elsewhere]
        split <;> rfl

theorem mem_of_get? {dictionary : Dictionary α} {key : String} {value : α}
    (found : get? dictionary key = some value) : (key, value) ∈ dictionary := by
  obtain ⟨entry, isFirst, rfl⟩ := Option.map_eq_some_iff.mp found
  have named : entry.1 = key := by simpa using List.find?_some isFirst
  exact named ▸ List.mem_of_find?_eq_some isFirst

/-- In a dictionary with distinct keys every entry is found. -/
theorem get?_eq_some_of_mem {dictionary : Dictionary α} (distinct : (dictionary.map (·.1)).Nodup)
    {entry : String × α} (member : entry ∈ dictionary) :
    get? dictionary entry.1 = some entry.2 := by
  induction dictionary with
  | nil => cases member
  | cons first rest hypothesis =>
      rw [List.map_cons, List.nodup_cons] at distinct
      rw [get?_cons]
      rcases List.mem_cons.mp member with rfl | later
      · rw [if_pos rfl]
      · rw [if_neg, hypothesis distinct.2 later]
        intro same
        exact distinct.1 (same ▸ List.mem_map_of_mem later)

/-- In a dictionary with distinct keys the order of the entries does not matter to a look-up. -/
theorem get?_reverse {dictionary : Dictionary α} (distinct : (dictionary.map (·.1)).Nodup)
    (key : String) : get? dictionary.reverse key = get? dictionary key := by
  induction dictionary with
  | nil => rfl
  | cons entry rest hypothesis =>
      rw [List.map_cons, List.nodup_cons] at distinct
      rw [List.reverse_cons, get?_append, hypothesis distinct.2, get?_cons, get?_cons, get?_nil]
      by_cases here : entry.1 = key
      · have missing : get? rest key = none := by
          cases found : get? rest key with
          | none => rfl
          | some value =>
              have later : key ∈ rest.map (·.1) := List.mem_map_of_mem (mem_of_get? found)
              exact absurd (here ▸ later) distinct.1
        rw [missing, if_pos here]
        rfl
      · rw [if_neg here, if_neg here, Option.or_none]

theorem get?_flatMap {β : Type} (items : List β) (entries : β → Dictionary α) (key : String) :
    get? (items.flatMap entries) key = items.findSome? fun item => get? (entries item) key := by
  induction items with
  | nil => rfl
  | cons item rest hypothesis =>
      rw [List.flatMap_cons, get?_append, hypothesis, List.findSome?_cons]
      cases get? (entries item) key <;> rfl

theorem mem_set {dictionary : Dictionary α} {key : String} {value : α} {entry : String × α}
    (member : entry ∈ set dictionary key value) : entry = (key, value) ∨ entry ∈ dictionary := by
  induction dictionary with
  | nil => exact .inl (List.mem_singleton.mp member)
  | cons first rest hypothesis =>
      rw [set] at member
      split at member
      · rcases List.mem_cons.mp member with rfl | later
        · exact .inl rfl
        · exact .inr (List.mem_cons_of_mem _ later)
      · rcases List.mem_cons.mp member with rfl | later
        · exact .inr List.mem_cons_self
        · exact (hypothesis later).imp_right (List.mem_cons_of_mem _)

theorem fst_of_mem_merge {dictionary later : Dictionary α} {entry : String × α}
    (member : entry ∈ merge dictionary later) :
    entry ∈ dictionary ∨ ∃ pair ∈ later, pair.1 = entry.1 := by
  induction later generalizing dictionary with
  | nil => exact .inl member
  | cons pair rest hypothesis =>
      rcases hypothesis member with early | ⟨other, later, same⟩
      · rcases mem_set early with rfl | old
        · exact .inr ⟨pair, List.mem_cons_self, rfl⟩
        · exact .inl old
      · exact .inr ⟨other, List.mem_cons_of_mem _ later, same⟩

/-- The keys of a dictionary of pairs are those of the pairs. -/
theorem fst_of_mem_ofPairs {pairs : List (String × α)} {entry : String × α}
    (member : entry ∈ ofPairs pairs) : ∃ pair ∈ pairs, pair.1 = entry.1 := by
  rcases fst_of_mem_merge member with impossible | found
  · cases impossible
  · exact found

end Dictionary

end InputScript
