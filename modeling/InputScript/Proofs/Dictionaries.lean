/-
Module: InputScript.Proofs.Dictionaries
Purpose: Dictionaries as they are changed: keys and their order, changes of all values, and entries that
  are set over others.
Main exports: keys_prefix_set, map_merge, merge_eq_of_prefix
-/
import InputScript.Dictionary

namespace InputScript.Dictionary

variable {α β : Type}

/-! ### Setting an entry -/

variable {dictionary : Dictionary α} {key : String}

theorem keys_prefix_set (dictionary : Dictionary α) (key : String) (value : α) :
    dictionary.map (·.1) <+: (set dictionary key value).map (·.1) := by
  rw [keys_set]
  split
  · exact List.prefix_rfl
  · exact List.prefix_append _ _

theorem mem_keys_set (dictionary : Dictionary α) (key : String) (value : α) :
    key ∈ (set dictionary key value).map (·.1) := by
  rw [keys_set]
  split
  · assumption
  · exact List.mem_append_right _ List.mem_cons_self

theorem get?_eq_none (missing : key ∉ dictionary.map (·.1)) :
    get? dictionary key = none := by
  cases found : get? dictionary key with
  | none => rfl
  | some value => exact absurd (List.mem_map_of_mem (mem_of_get? found)) missing

theorem exists_get?_of_mem_keys (present : key ∈ dictionary.map (·.1)) :
    ∃ value, get? dictionary key = some value := by
  cases found : get? dictionary key with
  | some value => exact ⟨value, rfl⟩
  | none =>
      obtain ⟨entry, member, rfl⟩ := List.mem_map.mp present
      rw [get?, Option.map_eq_none_iff, List.find?_eq_none] at found
      exact absurd (beq_self_eq_true entry.1) (found entry member)

theorem set_append {done : Dictionary α} (missing : key ∉ done.map (·.1)) (rest : Dictionary α)
    (value : α) : set (done ++ rest) key value = done ++ set rest key value := by
  induction done with
  | nil => rfl
  | cons entry done hypothesis =>
      rw [List.map_cons, List.mem_cons, not_or] at missing
      rw [List.cons_append, set, if_neg (by simpa using Ne.symm missing.1), hypothesis missing.2,
        List.cons_append]

@[simp] theorem set_set (dictionary : Dictionary α) (key : String) (first second : α) :
    set (set dictionary key first) key second = set dictionary key second := by
  induction dictionary with
  | nil => simp [set]
  | cons entry rest hypothesis =>
      rw [set]
      split
      · next here => rw [set, set, if_pos (beq_self_eq_true key), if_pos here]
      · next elsewhere => rw [set, set, if_neg elsewhere, if_neg elsewhere, hypothesis]

/-- Giving a key the value it has changes nothing. -/
theorem set_of_get? {value : α} (found : get? dictionary key = some value) :
    set dictionary key value = dictionary := by
  induction dictionary with
  | nil => cases found
  | cons entry rest hypothesis =>
      rw [get?_cons] at found
      rw [set]
      split at found
      · next here =>
          rw [if_pos (by simpa using here), ← Option.some.inj found, ← here]
      · next elsewhere => rw [if_neg (by simpa using elsewhere), hypothesis found]

/-! ### Changing all values -/

theorem keys_map (change : α → β) (dictionary : Dictionary α) :
    (dictionary.map fun entry => (entry.1, change entry.2)).map (·.1) = dictionary.map (·.1) := by
  rw [List.map_map]
  rfl

theorem keys_of_map_eq {γ : Type} {first : α → γ} {second : β → γ} {early : Dictionary α}
    {late : Dictionary β} (same : early.map (fun entry => (entry.1, first entry.2)) =
      late.map fun entry => (entry.1, second entry.2)) : early.map (·.1) = late.map (·.1) := by
  rw [← keys_map first early, same, keys_map]

theorem map_eq_self_iff (change : α → α) (dictionary : Dictionary α) :
    dictionary.map (fun entry => (entry.1, change entry.2)) = dictionary ↔
      ∀ entry ∈ dictionary, change entry.2 = entry.2 := by
  induction dictionary with
  | nil => simp
  | cons entry rest hypothesis =>
      rw [List.map_cons, List.cons.injEq, hypothesis, List.forall_mem_cons, Prod.ext_iff]
      simp

theorem map_set (change : α → β) (dictionary : Dictionary α) (key : String) (value : α) :
    (set dictionary key value).map (fun entry => (entry.1, change entry.2)) =
      set (dictionary.map fun entry => (entry.1, change entry.2)) key (change value) := by
  induction dictionary with
  | nil => rfl
  | cons entry rest hypothesis =>
      rw [set, List.map_cons, set]
      split
      · rfl
      · rw [List.map_cons, hypothesis]

theorem map_merge (change : α → β) (dictionary later : Dictionary α) :
    (merge dictionary later).map (fun entry => (entry.1, change entry.2)) =
      merge (dictionary.map fun entry => (entry.1, change entry.2))
        (later.map fun entry => (entry.1, change entry.2)) := by
  induction later generalizing dictionary with
  | nil => rfl
  | cons entry rest hypothesis =>
      exact (hypothesis (set dictionary entry.1 entry.2)).trans (by rw [map_set]; rfl)

theorem get?_map (change : α → β) (dictionary : Dictionary α) (key : String) :
    get? (dictionary.map fun entry => (entry.1, change entry.2)) key = (get? dictionary key).map change := by
  induction dictionary with
  | nil => rfl
  | cons entry rest hypothesis =>
      rw [List.map_cons, get?_cons, get?_cons, hypothesis]
      split <;> rfl

/-! ### Setting entries over others -/

theorem merge_append_singleton (dictionary later : Dictionary α) (key : String) (value : α) :
    merge dictionary (later ++ [(key, value)]) = set (merge dictionary later) key value := by
  rw [merge, List.foldl_append]
  rfl

/-- Entries that are set one after the other over a dictionary with the first of their keys are the
result, if none of them depends on what was there. -/
theorem foldl_set_eq (combine : Option α → α → α) {done pending later : Dictionary α}
    (starts : pending.map (·.1) <+: later.map (·.1)) (distinct : ((done ++ later).map (·.1)).Nodup)
    (settled : ∀ entry ∈ later, combine (get? pending entry.1) entry.2 = entry.2) :
    later.foldl (fun reached entry => set reached entry.1 (combine (get? reached entry.1) entry.2))
      (done ++ pending) = done ++ later := by
  induction later generalizing done pending with
  | nil =>
      obtain rfl : pending = [] := List.map_eq_nil_iff.mp (List.prefix_nil.mp starts)
      rfl
  | cons entry later hypothesis =>
      rw [List.forall_mem_cons] at settled
      have missing : entry.1 ∉ done.map (·.1) := by
        intro early
        rw [List.map_append, List.nodup_append] at distinct
        exact distinct.2.2 _ early _ List.mem_cons_self rfl
      have found : get? (done ++ pending) entry.1 = get? pending entry.1 := by
        rw [get?_append, get?_eq_none missing, Option.none_or]
      have regrouped : ((done ++ [entry] ++ later).map (·.1)).Nodup := by
        rw [List.append_assoc]
        exact distinct
      rw [List.foldl_cons, found, settled.1, set_append missing]
      -- Either all of the earlier keys are passed, or this one is the next of them.
      cases pending with
      | nil =>
          have nothing : ([] : Dictionary α).map (·.1) <+: later.map (·.1) := List.nil_prefix
          have step := hypothesis nothing regrouped settled.2
          rw [List.append_nil] at step
          rw [set, step, List.append_assoc]
          rfl
      | cons next pending =>
          rw [List.map_cons, List.map_cons, List.cons_prefix_cons] at starts
          have passed : ∀ other ∈ later, get? pending other.1 = get? (next :: pending) other.1 := by
            intro other member
            rw [get?_cons, if_neg]
            rw [starts.1]
            intro same
            rw [List.map_append, List.nodup_append, List.map_cons, List.nodup_cons] at distinct
            exact distinct.2.1.1 (same ▸ List.mem_map_of_mem member)
          have settledLater : ∀ other ∈ later, combine (get? pending other.1) other.2 = other.2 := by
            intro other member
            rw [passed other member]
            exact settled.2 other member
          rw [set, if_pos (by simpa using starts.1)]
          have step := hypothesis starts.2 regrouped settledLater
          rw [List.append_assoc, List.append_assoc] at step
          exact step

theorem merge_eq_of_prefix {early later : Dictionary α} (starts : early.map (·.1) <+: later.map (·.1))
    (distinct : (later.map (·.1)).Nodup) : merge early later = later :=
  @foldl_set_eq α (fun _ value => value) [] early later starts distinct fun _ _ => rfl

theorem merge_nil {later : Dictionary α} (distinct : (later.map (·.1)).Nodup) : merge [] later = later := by
  have starts : ([] : Dictionary α).map (·.1) <+: later.map (·.1) := List.nil_prefix
  exact merge_eq_of_prefix starts distinct

end InputScript.Dictionary
