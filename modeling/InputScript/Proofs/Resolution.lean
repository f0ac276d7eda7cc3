/-
Module: InputScript.Proofs.Resolution
Purpose: The choice of an overload.  The overloads for the number of tokens are tried in the order of
  registration or, where there is none, those for one argument with the tokens joined into one; the
  first that takes the tokens is called.  Only a decimal integer with too many digits, where an
  integer or a member is wanted, ends the search with a fault of its own.
Main exports: Tries, Settles, Decides, resolve_settles
-/
import InputScript.Proofs.Binding
import InputScript.Proofs.Lookups
import InputScript.Proofs.Trimming

namespace InputScript.Catalog

open Text Number

/-! ### How a search ends -/

/-- The overloads that are tried for a name and tokens, and the tokens that they are tried with. -/
inductive Tries (registered : List Overload) (name : String) (tokens : List String) :
    List String → List Overload → Prop where
  | direct (found : accepting registered name tokens.length ≠ [] ∨ tokens.length ≤ 1) :
      Tries registered name tokens tokens (accepting registered name tokens.length)
  | joined {sorted : List Overload} (none : accepting registered name tokens.length = [])
      (several : 1 < tokens.length)
      (isSorted : IsSortedByArity (accepting registered name 1) sorted) :
      Tries registered name tokens [String.intercalate " " tokens] sorted

/-- How a search ends, by what the tried overloads do with the tokens. -/
structure Settles (used : List String) (tried : List Overload) (name : String) (count : Nat)
    (result : Except Fault Resolution) : Prop where
  /-- There is no overload to call exactly if all reject the tokens. -/
  unresolved_iff : result = .error (.unresolved name count) ↔
    ∀ overload ∈ tried, overload.Rejects used
  /-- The first that does not reject the tokens is called if it takes them. -/
  called : ∀ earlier chosen later, tried = earlier ++ chosen :: later →
    (∀ overload ∈ earlier, overload.Rejects used) → chosen.Binds used →
    ∃ arguments, bindArguments chosen used = .ok arguments ∧ result = .ok ⟨chosen, arguments⟩
  /-- The first that does not reject the tokens ends the search with a fault if it stumbles. -/
  stumbled : ∀ earlier chosen later, tried = earlier ++ chosen :: later →
    (∀ overload ∈ earlier, overload.Rejects used) → ∀ refusal, chosen.Stumbles used refusal →
    result = .error (.ofTooManyDigits refusal)

/-- How a search ends where no overload stumbles over a token. -/
structure Decides (used : List String) (tried : List Overload) (name : String) (count : Nat)
    (result : Except Fault Resolution) : Prop where
  /-- There is a call or no overload to call. -/
  ends : (∃ resolution, result = .ok resolution) ∨ result = .error (.unresolved name count)
  /-- There is no overload to call exactly if none takes the tokens. -/
  unresolved_iff : result = .error (.unresolved name count) ↔
    ∀ overload ∈ tried, ¬ overload.Binds used
  /-- The first that takes the tokens is called. -/
  called : ∀ earlier chosen later, tried = earlier ++ chosen :: later →
    (∀ overload ∈ earlier, ¬ overload.Binds used) → chosen.Binds used →
    ∃ arguments, bindArguments chosen used = .ok arguments ∧ result = .ok ⟨chosen, arguments⟩

/-! ### The search -/

section Search

variable {used : List String} {tried : List Overload}

/-- Either all overloads reject the tokens, or there is a first one that does not. -/
theorem rejects_or_first (used : List String) (tried : List Overload) :
    (∀ overload ∈ tried, overload.Rejects used) ∨
      ∃ earlier chosen later, tried = earlier ++ chosen :: later ∧
        (∀ overload ∈ earlier, overload.Rejects used) ∧ ¬ chosen.Rejects used := by
  induction tried with
  | nil => exact .inl nofun
  | cons overload rest hypothesis =>
      by_cases rejects : overload.Rejects used
      · rcases hypothesis with all | ⟨earlier, chosen, later, rfl, before, accepts⟩
        · exact .inl (List.forall_mem_cons.mpr ⟨rejects, all⟩)
        · exact .inr ⟨overload :: earlier, chosen, later, rfl,
            List.forall_mem_cons.mpr ⟨rejects, before⟩, accepts⟩
      · exact .inr ⟨[], overload, rest, rfl, nofun, rejects⟩

/-- A search passes over the overloads that reject the tokens. -/
theorem chooseFrom_append {earlier : List Overload}
    (fitted : ∀ overload ∈ earlier, overload.IsFitted)
    (rejects : ∀ overload ∈ earlier, overload.Rejects used) (later : List Overload) :
    chooseFrom used (earlier ++ later) = chooseFrom used later := by
  induction earlier with
  | nil => rfl
  | cons overload rest hypothesis =>
      rw [List.forall_mem_cons] at fitted rejects
      obtain ⟨rejection, rejected⟩ := (Overload.rejects_iff fitted.1).mp rejects.1
      rw [List.cons_append, chooseFrom, rejected]
      exact hypothesis fitted.2 rejects.2

section First

variable {earlier later : List Overload} {chosen : Overload}
  (fitted : ∀ overload ∈ earlier ++ chosen :: later, overload.IsFitted)
  (rejects : ∀ overload ∈ earlier, overload.Rejects used)

include fitted rejects

theorem chooseFrom_first :
    chosen.IsFitted ∧
      chooseFrom used (earlier ++ chosen :: later) = chooseFrom used (chosen :: later) := by
  rw [List.forall_mem_append, List.forall_mem_cons] at fitted
  exact ⟨fitted.2.1, chooseFrom_append fitted.1 rejects _⟩

theorem chooseFrom_binds (binds : chosen.Binds used) :
    ∃ arguments, bindArguments chosen used = .ok arguments ∧
      chooseFrom used (earlier ++ chosen :: later) = .ok (some ⟨chosen, arguments⟩) := by
  obtain ⟨chosenFitted, reached⟩ := chooseFrom_first fitted rejects
  obtain ⟨arguments, bound⟩ := (Overload.binds_iff chosenFitted).mp binds
  refine ⟨arguments, bound, ?_⟩
  rw [reached, chooseFrom, bound]

theorem chooseFrom_stumbles {refusal : TooManyDigits} (stumbles : chosen.Stumbles used refusal) :
    chooseFrom used (earlier ++ chosen :: later) = .error refusal := by
  obtain ⟨chosenFitted, reached⟩ := chooseFrom_first fitted rejects
  rw [reached, chooseFrom, (Overload.stumbles_iff chosenFitted).mp stumbles]

end First

theorem chooseFrom_eq_none_iff (fitted : ∀ overload ∈ tried, overload.IsFitted) :
    chooseFrom used tried = .ok none ↔ ∀ overload ∈ tried, overload.Rejects used := by
  constructor
  · intro nothing
    rcases rejects_or_first used tried with all | ⟨earlier, chosen, later, rfl, rejects, accepts⟩
    · exact all
    · rw [Overload.Rejects, not_and_or, not_not, not_forall_not] at accepts
      rcases accepts with binds | ⟨refusal, stumbles⟩
      · obtain ⟨arguments, _, found⟩ := chooseFrom_binds fitted rejects binds
        rw [found] at nothing
        cases nothing
      · rw [chooseFrom_stumbles fitted rejects stumbles] at nothing
        cases nothing
  · intro rejects
    have passed := chooseFrom_append fitted rejects []
    rw [List.append_nil] at passed
    rw [passed, chooseFrom]

theorem settle_eq_unresolved_iff {name : String} {count : Nat}
    {found : Except TooManyDigits (Option Resolution)} :
    settle name count found = .error (.unresolved name count) ↔ found = .ok none := by
  match found with
  | .ok (some resolution) => simp [settle]
  | .ok none => simp [settle]
  | .error refusal => simp [settle, Fault.ofTooManyDigits, Fault.ofValue]

theorem settles_chooseFrom (fitted : ∀ overload ∈ tried, overload.IsFitted) (used : List String)
    (name : String) (count : Nat) :
    Settles used tried name count (settle name count (chooseFrom used tried)) := by
  refine ⟨settle_eq_unresolved_iff.trans (chooseFrom_eq_none_iff fitted), ?_, ?_⟩
  · rintro earlier chosen later rfl rejects binds
    obtain ⟨arguments, bound, found⟩ := chooseFrom_binds fitted rejects binds
    refine ⟨arguments, bound, ?_⟩
    rw [found, settle]
  · rintro earlier chosen later rfl rejects refusal stumbles
    rw [chooseFrom_stumbles fitted rejects stumbles, settle]

/-- Where no overload stumbles, the ones that do not take the tokens reject them. -/
theorem Settles.decides {name : String} {count : Nat} {result : Except Fault Resolution}
    (settles : Settles used tried name count result)
    (steady : ∀ overload ∈ tried, ∀ refusal, ¬ overload.Stumbles used refusal) :
    Decides used tried name count result := by
  have rejects_iff_not_binds : ∀ overload ∈ tried, overload.Rejects used ↔ ¬ overload.Binds used :=
    fun overload member => and_iff_left (steady overload member)
  refine ⟨?_, settles.unresolved_iff.trans (forall₂_congr rejects_iff_not_binds), ?_⟩
  · rcases rejects_or_first used tried with all | ⟨earlier, chosen, later, rfl, rejects, accepts⟩
    · exact .inr (settles.unresolved_iff.mpr all)
    · rw [rejects_iff_not_binds chosen (by simp), not_not] at accepts
      obtain ⟨arguments, _, resolved⟩ := settles.called earlier chosen later rfl rejects accepts
      exact .inl ⟨_, resolved⟩
  · rintro earlier chosen later rfl notBinds binds
    refine settles.called earlier chosen later rfl ?_ binds
    intro overload member
    exact (rejects_iff_not_binds overload (List.mem_append_left _ member)).mpr
      (notBinds overload member)

end Search

/-! ### Tokens with too many digits -/

variable {tokens : List String}

theorem isOversized_of_joined {refusal : TooManyDigits}
    (oversized : IsOversized (String.intercalate " " tokens) refusal) :
    ∃ token ∈ tokens, IsOversized token refusal := by
  obtain ⟨negative, digits, written, long⟩ := oversized
  have joined : (String.intercalate " " tokens).toList =
      [' '].intercalate (tokens.map String.toList) := String.toList_intercalate
  obtain ⟨text, member, left⟩ := trim_joined (by decide) (congrArg trim joined).symm
    written.ne_nil written.isBlank_eq_false
  obtain ⟨token, tokenMember, rfl⟩ := List.mem_map.mp member
  exact ⟨token, tokenMember, negative, digits, left ▸ written, long⟩

variable {overload : Overload}

theorem Overload.mem_of_pairs {type : ParameterType} {token : String}
    (member : (type, token) ∈ overload.pairs tokens) : token ∈ tokens := by
  rw [pairs, List.mem_append] at member
  rcases member with declared | further
  · exact (List.of_mem_zip declared).2
  · split at further
    · cases further
    · obtain ⟨_, dropped, same⟩ := List.mem_map.mp further
      cases same
      exact List.mem_of_mem_drop dropped

variable {registered : List Overload} {name : String}

/-- An overload stumbles over a token that has too many digits, or is joined from one that has. -/
theorem Tries.isOversized_of_stumbles {tried : List Overload} {used : List String}
    (tries : Tries registered name tokens used tried) {refusal : TooManyDigits}
    (stumbles : overload.Stumbles used refusal) :
    ∃ token ∈ tokens, IsOversized token refusal := by
  obtain ⟨earlier, type, token, later, split, _, _, oversized⟩ := stumbles
  have member : token ∈ used := by
    apply Overload.mem_of_pairs
    rw [split]
    exact List.mem_append_right _ List.mem_cons_self
  cases tries with
  | direct found => exact ⟨token, member, oversized⟩
  | joined none several isSorted =>
      rw [List.mem_singleton] at member
      subst member
      exact isOversized_of_joined oversized

/-! ### The choice of an overload -/

theorem tries_attempts {collapsed : List Overload}
    (isSorted : IsSortedByArity (accepting registered name 1) collapsed) (tokens : List String) :
    Tries registered name tokens
      (attempts (accepting registered name tokens.length) collapsed tokens).1
      (attempts (accepting registered name tokens.length) collapsed tokens).2 := by
  rw [attempts]
  split
  · next joins =>
      rw [Bool.and_eq_true, List.isEmpty_iff, decide_eq_true_eq] at joins
      exact .joined joins.1 joins.2 isSorted
  · next direct =>
      rw [Bool.and_eq_true, List.isEmpty_iff, decide_eq_true_eq, not_and_or, Nat.not_lt] at direct
      exact .direct direct

theorem IsSortedByArity.subset {overloads sorted : List Overload}
    (isSorted : IsSortedByArity overloads sorted) : sorted ⊆ overloads := by
  intro overload member
  have same : overload ∈ overloads.filter (·.arity == overload.arity) := by
    rw [← isSorted.stable]
    exact List.mem_filter.mpr ⟨member, beq_self_eq_true _⟩
  exact List.mem_of_mem_filter same

theorem Tries.subset {tried : List Overload} {used : List String}
    (tries : Tries registered name tokens used tried) : tried ⊆ registered := by
  intro overload member
  cases tries with
  | direct found => exact List.mem_of_mem_filter member
  | joined none several isSorted => exact List.mem_of_mem_filter (isSorted.subset member)

theorem isFitted_of_mem_registeredBy {history : List Operation}
    (member : overload ∈ registeredBy history) : overload.IsFitted := by
  obtain ⟨operation, _, registers⟩ := List.mem_filterMap.mp member
  cases operation with
  | register declaration defaults implementation =>
      cases registers
      exact Overload.isFitted_make declaration defaults implementation
  | candidates name count => cases registers
  | collapse name => cases registers
  | resolve name tokens => cases registers

/-- After any sequence of operations, a choice tries the overloads in their order and ends as they say.
Where no token is a decimal integer with too many digits, it calls the first overload that takes
the tokens, and fails only if there is none. -/
theorem resolve_settles (history : List Operation) (name : String) (tokens : List String) :
    ∃ used tried, Tries (registeredBy history) name tokens used tried ∧
      Settles used tried name tokens.length ((Memo.start.after history).resolve name tokens).1 ∧
      ((∀ token ∈ tokens, ∀ refusal, ¬ IsOversized token refusal) →
        Decides used tried name tokens.length
          ((Memo.start.after history).resolve name tokens).1) := by
  obtain ⟨sound, table⟩ := Memo.sound_after_start history
  rw [sound.resolve_fst, table, Registry.resolve, Registry.collapseCandidates,
    candidates_registerAll, candidates_registerAll]
  have tries := tries_attempts (sortByArity_isSorted (accepting (registeredBy history) name 1)) tokens
  generalize attempts _ _ tokens = attempted at tries ⊢
  obtain ⟨used, tried⟩ := attempted
  have fitted : ∀ overload ∈ tried, overload.IsFitted := by
    intro overload member
    exact isFitted_of_mem_registeredBy (tries.subset member)
  have settles := settles_chooseFrom fitted used name tokens.length
  refine ⟨used, tried, tries, settles, ?_⟩
  intro sized
  apply settles.decides
  intro overload _ refusal stumbles
  obtain ⟨token, member, oversized⟩ := tries.isOversized_of_stumbles stumbles
  exact sized token member refusal oversized

/-! ### An overload that is not reached -/

/-- An operation with one parameter that does nothing. -/
def sayOperation (type : ParameterType) : Operation :=
  .register { name := "Say", parameterTypes := [type] } none
    { label := "Say", parameters := none, body := fun _ => pure .none }

/-- Two operations of one name, the first for an integer and the second for a text. -/
def sayHistory : List Operation :=
  [sayOperation (.integer .int32), sayOperation .text]

/-- A short word is no number of too many digits, so the choice is decided by what the overloads take. -/
theorem resolve_settles_word :
    (∀ token ∈ ["yes"], ∀ refusal, ¬ IsOversized token refusal) ∧
      ∃ used tried, Tries (registeredBy sayHistory) "Say" ["yes"] used tried ∧
        Decides used tried "Say" 1 ((Memo.start.after sayHistory).resolve "Say" ["yes"]).1 := by
  have sized : ∀ token ∈ ["yes"], ∀ refusal, ¬ IsOversized token refusal := by
    intro token member refusal oversized
    obtain rfl := List.mem_singleton.mp member
    obtain ⟨negative, digits, decimal, long, -⟩ := oversized
    have short : (trim "yes".toList).length ≤ digitLimit := by decide
    generalize trim "yes".toList = text at decimal short
    cases decimal <;> grind
  obtain ⟨used, tried, tries, -, decides⟩ := resolve_settles sayHistory "Say" ["yes"]
  exact ⟨sized, used, tried, tries, decides sized⟩

/-- A decimal integer with one digit more than is converted. -/
def longNumber : String := String.ofList (List.replicate (digitLimit + 1) '1')

theorem isOversized_ofList {digits : List Char} (row : IsDigitRow digits)
    (long : digitLimit < digits.length) : IsOversized (String.ofList digits) ⟨digits.length⟩ := by
  have decimal := IsDecimal.bare row
  refine ⟨false, digits, ?_, long, rfl⟩
  rw [String.toList_ofList, trim_solid decimal.isBlank_eq_false]
  exact decimal

theorem isOversized_longNumber : IsOversized longNumber ⟨digitLimit + 1⟩ := by
  have oversized := isOversized_ofList (isDigitRow_replicate digitLimit)
  rw [List.length_replicate] at oversized
  exact oversized (Nat.lt_succ_self _)

/-- The second overload takes the number as a text, and both are tried with it; the search ends at the
first. -/
theorem resolve_longNumber : ∃ earlier chosen,
    accepting (registeredBy sayHistory) "Say" 1 = [earlier, chosen] ∧
      earlier.Stumbles [longNumber] ⟨digitLimit + 1⟩ ∧ chosen.Binds [longNumber] ∧
      ((Memo.start.after sayHistory).resolve "Say" [longNumber]).1 =
        .error (.ofTooManyDigits ⟨digitLimit + 1⟩) := by
  have oversized := isOversized_longNumber
  -- The digits are of no further concern.
  generalize longNumber = number at oversized ⊢
  have fitted : ∀ overload ∈ registeredBy sayHistory, overload.IsFitted :=
    fun _ => isFitted_of_mem_registeredBy
  have settles := settles_chooseFrom fitted [number] "Say" 1
  obtain ⟨earlier, chosen, both⟩ :
      ∃ earlier chosen, registeredBy sayHistory = [earlier, chosen] := ⟨_, _, rfl⟩
  have stumbles : earlier.Stumbles [number] ⟨digitLimit + 1⟩ := by
    cases both
    exact ⟨[], .integer .int32, number, [], rfl, nofun, rfl, oversized⟩
  refine ⟨earlier, chosen, both, stumbles, ?_, ?_⟩
  · cases both
    intro pair member
    cases List.mem_singleton.mp member
    exact ⟨.text number, rfl⟩
  · exact settles.stumbled [] earlier [chosen] both nofun _ stumbles

end InputScript.Catalog
