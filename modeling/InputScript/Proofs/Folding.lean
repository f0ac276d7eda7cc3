/-
Module: InputScript.Proofs.Folding
Purpose: Case folding is final: a folded text folds to itself.  No letter that the table leads to is
  a letter that it starts from, which is checked on both sets of letters as numbers in binary.
Main exports: foldSources, foldTargets, foldChar_final, folded_folded
-/
import InputScript.Text.Folding
import Mathlib.Data.List.Basic
import Mathlib.Data.Nat.Bitwise

namespace InputScript.Text

/-! ### The letters of the table -/

/-- The letters of a run. -/
def FoldRun.letters (run : FoldRun) : List Nat :=
  List.range' run.first ((run.last - run.first) / run.stride + 1) run.stride

theorem FoldRun.mem_letters {run : FoldRun} {code : Nat} (covered : run.covers code = true) :
    code ∈ run.letters := by
  simp only [covers, Bool.and_eq_true, decide_eq_true_eq, beq_iff_eq] at covered
  obtain ⟨⟨above, below⟩, onStride⟩ := covered
  have place := Nat.div_add_mod (code - run.first) run.stride
  have inside : (code - run.first) / run.stride ≤ (run.last - run.first) / run.stride :=
    Nat.div_le_div_right (by omega)
  rw [letters, List.mem_range']
  exact ⟨(code - run.first) / run.stride, by omega, by omega⟩

/-- The letters that fold to others. -/
def foldSources : List Nat :=
  foldRuns.flatMap FoldRun.letters ++ foldExpansions.map (·.1)

/-- The letters that others fold to. -/
def foldTargets : List Nat :=
  (foldRuns.flatMap fun run => run.letters.map fun (code : Nat) => (code + run.offset).toNat) ++
    foldExpansions.flatMap (·.2)

/-! ### Sets of numbers as numbers -/

/-- The number whose binary places are the given ones. -/
def placesSet (places : List Nat) : Nat :=
  places.foldr (fun place number => 2 ^ place ||| number) 0

theorem testBit_placesSet {places : List Nat} {place : Nat} (member : place ∈ places) :
    (placesSet places).testBit place = true := by
  induction places with
  | nil => cases member
  | cons first rest hypothesis =>
      rw [placesSet, List.foldr_cons, Nat.testBit_or, Bool.or_eq_true]
      rcases List.mem_cons.mp member with rfl | later
      · exact .inl Nat.testBit_two_pow_self
      · exact .inr (hypothesis later)

theorem not_mem_of_placesSet {first second : List Nat}
    (apart : placesSet first &&& placesSet second = 0) {place : Nat} (member : place ∈ second) :
    place ∉ first := by
  intro common
  have both : (placesSet first &&& placesSet second).testBit place = true := by
    rw [Nat.testBit_and, testBit_placesSet common, testBit_placesSet member, Bool.and_self]
  rw [apart, Nat.zero_testBit] at both
  cases both

/-! ### Letters that fold no further -/

theorem foldTargets_apart : placesSet foldSources &&& placesSet foldTargets = 0 := by
  decide +kernel

theorem foldTargets_valid : ∀ code ∈ foldTargets, code.isValidChar := by
  decide +kernel

/-- What is not in the table folds to itself. -/
theorem foldChar_of_not_mem {c : Char} (outside : c.toNat ∉ foldSources) : foldChar c = [c] := by
  rw [foldSources, List.mem_append, not_or, List.mem_flatMap] at outside
  obtain ⟨noRun, noExpansion⟩ := outside
  have uncovered : ∀ run ∈ foldRuns, run.covers c.toNat = false := by
    intro run member
    rw [Bool.eq_false_iff]
    intro covered
    exact noRun ⟨run, member, run.mem_letters covered⟩
  have notUpper : (0x41 ≤ c.toNat && c.toNat ≤ 0x5A) = false := by
    have first := uncovered ⟨0x41, 0x5A, 1, 32⟩ List.mem_cons_self
    simpa [FoldRun.covers, Nat.mod_one] using first
  have noneFound : foldRuns.find? (·.covers c.toNat) = none := by simpa using uncovered
  have noneExpanded : foldExpansions.find? (·.1 == c.toNat) = none := by
    rw [List.find?_eq_none]
    intro expansion member same
    exact noExpansion (List.mem_map.mpr ⟨expansion, member, beq_iff_eq.mp same⟩)
  simp [foldChar, notUpper, noneFound, noneExpanded]

theorem foldChar_target {code : Nat} (member : code ∈ foldTargets) :
    foldChar (Char.ofNat code) = [Char.ofNat code] := by
  have codeEq : (Char.ofNat code).toNat = code := by
    rw [Char.ofNat, dif_pos (foldTargets_valid code member)]
    rfl
  apply foldChar_of_not_mem
  rw [codeEq]
  exact not_mem_of_placesSet foldTargets_apart member

theorem run_mem_foldTargets {run : FoldRun} (member : run ∈ foldRuns) {code : Nat}
    (covered : run.covers code = true) : (code + run.offset).toNat ∈ foldTargets := by
  apply List.mem_append_left
  exact List.mem_flatMap.mpr ⟨run, member, List.mem_map.mpr ⟨code, run.mem_letters covered, rfl⟩⟩

/-- The letters that a character folds to fold to themselves. -/
theorem foldChar_final {c letter : Char} (member : letter ∈ foldChar c) :
    foldChar letter = [letter] := by
  -- The cases are the branches of the folding of one character.
  rw [foldChar] at member
  split at member
  · next small =>
      split at member
      · next upper =>
          obtain rfl := List.mem_singleton.mp member
          have covered : (FoldRun.mk 0x41 0x5A 1 32).covers c.toNat = true := by
            simpa [FoldRun.covers, Nat.mod_one] using upper
          exact foldChar_target (run_mem_foldTargets List.mem_cons_self covered)
      · next other =>
          obtain rfl := List.mem_singleton.mp member
          rw [foldChar, if_pos small, if_neg other]
  · next large =>
      split at member
      · next run found =>
          obtain rfl := List.mem_singleton.mp member
          have covered : run.covers c.toNat = true := by simpa using List.find?_some found
          exact foldChar_target (run_mem_foldTargets (List.mem_of_find?_eq_some found) covered)
      · next noRun =>
          split at member
          · next expansion found =>
              obtain ⟨code, inside, rfl⟩ := List.mem_map.mp member
              apply foldChar_target
              apply List.mem_append_right
              exact List.mem_flatMap.mpr ⟨expansion, List.mem_of_find?_eq_some found, inside⟩
          · next noExpansion =>
              obtain rfl := List.mem_singleton.mp member
              simp only [foldChar, if_neg large, noRun, noExpansion]

/-! ### Texts -/

theorem fold_of_final {text : List Char} (final : ∀ c ∈ text, foldChar c = [c]) :
    fold text = text := by
  rw [fold, List.flatMap_congr final, List.flatMap_singleton']

/-- Folding a folded text changes nothing. -/
theorem fold_fold (text : List Char) : fold (fold text) = fold text := by
  apply fold_of_final
  intro letter member
  obtain ⟨c, _, inside⟩ := List.mem_flatMap.mp member
  exact foldChar_final inside

@[simp] theorem folded_folded (text : String) : folded (folded text) = folded text := by
  rw [folded, folded, String.toList_ofList, fold_fold]

end InputScript.Text
