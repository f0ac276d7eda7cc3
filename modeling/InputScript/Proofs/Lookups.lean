/-
Module: InputScript.Proofs.Lookups
Purpose: What a table of operations remembers never shows.  After any sequence of registrations and
  look-ups, every look-up gives what the operations registered so far say, in the order of their
  registration or sorted by their number of parameters.
Main exports: Operation, Memo.perform, Memo.after, answers_after
-/
import InputScript.Catalog.Memo

namespace InputScript.Catalog

/-! ### Operations on a table -/

/-- What can be asked of a table of operations. -/
inductive Operation where
  | register (declaration : Declaration) (defaults : Option (List (Option Value)))
      (implementation : Implementation)
  | candidates (name : String) (count : Int)
  | collapse (name : String)
  | resolve (name : String) (tokens : List String)

/-- What a table answers. -/
inductive Answer where
  | registered (overload : Overload)
  | overloads (found : List Overload)
  | resolution (result : Except Fault Resolution)

/-- The answer to an operation, and the table after it. -/
def Memo.perform (memo : Memo) : Operation → Answer × Memo
  | .register declaration defaults implementation =>
    let overload := Overload.make declaration defaults implementation
    (.registered overload, memo.register overload)
  | .candidates name count =>
    let (found, after) := memo.candidates name count
    (.overloads found, after)
  | .collapse name =>
    let (found, after) := memo.collapseCandidates name
    (.overloads found, after)
  | .resolve name tokens =>
    let (result, after) := memo.resolve name tokens
    (.resolution result, after)

/-- The table after some operations. -/
def Memo.after (memo : Memo) (history : List Operation) : Memo :=
  history.foldl (fun memo operation => (memo.perform operation).2) memo

/-- The table before the first operation. -/
def Memo.start : Memo := .ofRegistry .empty

/-- The overload that an operation registers. -/
def Operation.registered? : Operation → Option Overload
  | .register declaration defaults implementation =>
    some (.make declaration defaults implementation)
  | _ => none

/-- The overloads that operations register, in the order of registration. -/
def registeredBy (history : List Operation) : List Overload :=
  history.filterMap Operation.registered?

/-! ### Answers by what is registered -/

/-- The overloads of a name that take a number of arguments, in the order of registration. -/
def accepting (registered : List Overload) (name : String) (count : Int) : List Overload :=
  registered.filter fun overload => overload.name == name && overload.accepts count

/-- Overloads sorted by their number of parameters; those with equally many keep their order. -/
structure IsSortedByArity (overloads sorted : List Overload) : Prop where
  ascending : sorted.Pairwise fun first second => first.arity ≤ second.arity
  stable : ∀ arity : Nat, sorted.filter (·.arity == arity) = overloads.filter (·.arity == arity)

/-- The right answers to operations on a table with the given overloads. -/
inductive Answers (registered : List Overload) : Operation → Answer → Prop where
  | register (declaration : Declaration) (defaults : Option (List (Option Value)))
      (implementation : Implementation) :
      Answers registered (.register declaration defaults implementation)
        (.registered (.make declaration defaults implementation))
  | candidates (name : String) (count : Int) :
      Answers registered (.candidates name count) (.overloads (accepting registered name count))
  | collapse {name : String} {found : List Overload}
      (sorted : IsSortedByArity (accepting registered name 1) found) :
      Answers registered (.collapse name) (.overloads found)
  | resolve (name : String) (tokens : List String) :
      Answers registered (.resolve name tokens)
        (.resolution ((Registry.empty.registerAll registered).resolve name tokens))

theorem candidates_registerAll (registered : List Overload) (name : String) (count : Int) :
    (Registry.empty.registerAll registered).candidates name count =
      accepting registered name count := by
  have none : Registry.empty.overloads name = [] := rfl
  rw [Registry.candidates, Registry.overloads_registerAll, none, List.nil_append, List.filter_filter,
    accepting]
  apply List.filter_congr
  intro overload _
  exact Bool.and_comm _ _

/-- The sort is stable, so the overloads of one number of parameters are a part of its result. -/
theorem sortByArity_isSorted (overloads : List Overload) :
    IsSortedByArity overloads (Registry.sortByArity overloads) := by
  have transitive : ∀ first second third : Overload, decide (first.arity ≤ second.arity) = true →
      decide (second.arity ≤ third.arity) = true → decide (first.arity ≤ third.arity) = true := by
    simp only [decide_eq_true_eq]
    omega
  have total : ∀ first second : Overload,
      (decide (first.arity ≤ second.arity) || decide (second.arity ≤ first.arity)) = true := by
    simp only [Bool.or_eq_true, decide_eq_true_eq]
    omega
  constructor
  · have ascending := List.pairwise_mergeSort transitive total overloads
    simpa [Registry.sortByArity] using ascending
  · intro arity
    have alike : (overloads.filter (·.arity == arity)).Pairwise fun first second =>
        decide (first.arity ≤ second.arity) = true := by
      rw [List.pairwise_filter]
      apply List.pairwise_of_forall
      intro first second firstArity secondArity
      simp only [beq_iff_eq] at firstArity secondArity
      simp [firstArity, secondArity]
    have kept : (overloads.filter (·.arity == arity)).Sublist (Registry.sortByArity overloads) :=
      List.sublist_mergeSort transitive total alike List.filter_sublist
    have within := kept.filter (·.arity == arity)
    rw [List.filter_filter, funext fun overload => Bool.and_self (Overload.arity overload == arity)]
      at within
    have rearranged : (Registry.sortByArity overloads).Perm overloads :=
      List.mergeSort_perm overloads _
    have size := (rearranged.filter (·.arity == arity)).length_eq
    exact (within.eq_of_length size.symm).symm

/-! ### What is remembered -/

namespace Memo

/-- What a table remembers is what a look-up gives. -/
def Sound (memo : Memo) : Prop :=
  ∀ name count found, memo.remembered? name count = some found →
    found = memo.registry.candidates name count

variable {memo : Memo}

theorem remembered?_remember (name : String) (count : Int) (found : List Overload)
    (asked : String) (given : Int) :
    (memo.remember name count found).remembered? asked given =
      if name = asked then
        (memo.remembered? asked given).or (if given = count then some found else none)
      else memo.remembered? asked given := by
  simp only [remembered?, remember, Dictionary.get?_set]
  split
  · next same =>
      subst same
      rw [Option.getD_some, List.lookup_append, List.lookup_cons]
      by_cases equal : given = count
      · rw [if_pos equal, beq_iff_eq.mpr equal]
      · rw [if_neg equal, beq_eq_false_iff_ne.mpr equal]
        rfl
  · rfl

theorem remembered?_register (overload : Overload) (asked : String) (given : Int) :
    (memo.register overload).remembered? asked given =
      if overload.name = asked then none else memo.remembered? asked given := by
  simp only [remembered?, register, Dictionary.get?_filter_ne]
  split <;> rfl

theorem Sound.remember (sound : memo.Sound) (name : String) (count : Int) :
    (memo.remember name count (memo.registry.candidates name count)).Sound := by
  intro asked given found remembered
  rw [remembered?_remember] at remembered
  split at remembered
  · next same =>
      subst same
      rcases Option.or_eq_some_iff.mp remembered with old | ⟨_, new⟩
      · exact sound _ _ _ old
      · split at new
        · next equal =>
            cases new
            rw [equal]
            rfl
        · cases new
  · exact sound _ _ _ remembered

/-- Registration forgets the look-ups of its name and leaves the others as they were. -/
theorem Sound.register (sound : memo.Sound) (overload : Overload) :
    (memo.register overload).Sound := by
  intro asked given found remembered
  rw [remembered?_register] at remembered
  split at remembered
  · cases remembered
  · next other =>
      rw [sound _ _ _ remembered]
      have untouched : [overload].filter (·.name == asked) = [] := by simpa using other
      simp only [Memo.register, Registry.candidates, Registry.overloads_register, untouched,
        List.append_nil]

section LookUps

variable (name : String)

theorem Sound.candidates_fst (sound : memo.Sound) (count : Int) :
    (memo.candidates name count).1 = memo.registry.candidates name count := by
  rw [candidates]
  split
  · next found remembered => exact sound _ _ _ remembered
  · rfl

theorem Sound.candidates_snd (sound : memo.Sound) (count : Int) :
    (memo.candidates name count).2.Sound ∧
      (memo.candidates name count).2.registry = memo.registry := by
  rw [candidates]
  split
  · exact ⟨sound, rfl⟩
  · exact ⟨sound.remember name count, rfl⟩

theorem Sound.collapseCandidates_fst (sound : memo.Sound) :
    (memo.collapseCandidates name).1 = memo.registry.collapseCandidates name :=
  congrArg Registry.sortByArity (sound.candidates_fst name 1)

/-- A choice asks for other overloads only where none takes the number of tokens. -/
theorem Sound.resolve_fst (sound : memo.Sound) (tokens : List String) :
    (memo.resolve name tokens).1 = memo.registry.resolve name tokens := by
  obtain ⟨stillSound, sameRegistry⟩ := sound.candidates_snd name tokens.length
  simp only [resolve, Registry.resolve, sound.candidates_fst]
  by_cases joins : ((memo.registry.candidates name tokens.length).isEmpty &&
      decide (tokens.length > 1)) = true
  · rw [if_pos joins, stillSound.collapseCandidates_fst, sameRegistry]
  · simp only [attempts, if_neg joins]

theorem Sound.resolve_snd (sound : memo.Sound) (tokens : List String) :
    (memo.resolve name tokens).2.Sound ∧
      (memo.resolve name tokens).2.registry = memo.registry := by
  obtain ⟨stillSound, sameRegistry⟩ := sound.candidates_snd name tokens.length
  simp only [resolve]
  split
  · obtain ⟨finallySound, finallySame⟩ := stillSound.candidates_snd name 1
    exact ⟨finallySound, finallySame.trans sameRegistry⟩
  · exact ⟨stillSound, sameRegistry⟩

end LookUps

/-! ### Sequences of operations -/

/-- One operation keeps what is remembered right, and registers its overload. -/
theorem Sound.perform (sound : memo.Sound) (operation : Operation) :
    (memo.perform operation).2.Sound ∧
      (memo.perform operation).2.registry =
        memo.registry.registerAll operation.registered?.toList := by
  cases operation with
  | register declaration defaults implementation => exact ⟨sound.register _, rfl⟩
  | candidates name count => exact sound.candidates_snd name count
  | collapse name => exact sound.candidates_snd name 1
  | resolve name tokens => exact sound.resolve_snd name tokens

/-- Any number of operations do so. -/
theorem Sound.after (sound : memo.Sound) (history : List Operation) :
    (memo.after history).Sound ∧
      (memo.after history).registry = memo.registry.registerAll (registeredBy history) := by
  induction history generalizing memo with
  | nil => exact ⟨sound, rfl⟩
  | cons operation rest hypothesis =>
      obtain ⟨stillSound, registers⟩ := sound.perform operation
      obtain ⟨finallySound, registersAll⟩ := hypothesis stillSound
      refine ⟨finallySound, ?_⟩
      have split : registeredBy (operation :: rest) =
          operation.registered?.toList ++ registeredBy rest := by
        rw [registeredBy, List.filterMap_cons]
        cases operation.registered? <;> rfl
      rw [split, Registry.registerAll_append, ← registers]
      exact registersAll

theorem sound_start : start.Sound := nofun

theorem sound_after_start (history : List Operation) :
    (start.after history).Sound ∧
      (start.after history).registry = Registry.empty.registerAll (registeredBy history) :=
  sound_start.after history

end Memo

/-- After any sequence of operations the next one is answered by what was registered before, whatever
was looked up in between. -/
theorem answers_after (history : List Operation) (operation : Operation) :
    Answers (registeredBy history) operation ((Memo.start.after history).perform operation).1 := by
  obtain ⟨sound, table⟩ := Memo.sound_after_start history
  cases operation with
  | register declaration defaults implementation => exact .register _ _ _
  | candidates name count =>
      have found := sound.candidates_fst name count
      rw [table, candidates_registerAll] at found
      simp only [Memo.perform, found]
      exact .candidates name count
  | collapse name =>
      have found := sound.collapseCandidates_fst name
      rw [table, Registry.collapseCandidates, candidates_registerAll] at found
      simp only [Memo.perform, found]
      exact .collapse (sortByArity_isSorted _)
  | resolve name tokens =>
      have found := sound.resolve_fst name tokens
      rw [table] at found
      simp only [Memo.perform, found]
      exact .resolve name tokens

end InputScript.Catalog
