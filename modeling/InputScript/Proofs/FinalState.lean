/-
Module: InputScript.Proofs.FinalState
Purpose: The state in which a run ends.  It is decided by what the walk has found, so nothing that
  happens in a loop bears on it.  If a loop was started, all loops have ended by the end of the run,
  and the signal is set.
Main exports: Steps.loops_ended, Steps.loops_ne_nil, final_state
-/
import InputScript.Proofs.Cancellation
import InputScript.Proofs.Findings

namespace InputScript.Interleaving

open Run Rehearsal Script Stopping

/-! ### The loops at the end of a run -/

section Scene

variable {ρ : Type} {registry : Catalog.Registry} {loops : List (Standing LoopStep)}
  {exchanges : List RunExchange}

/-- A task that has ended does not move. -/
theorem Moves.not_ended {α : Type} {conclude : Except Interruption α → Standing α}
    {before after : Bool} {result : Except Interruption α} {later : Standing α}
    (moves : Moves conclude loops before (.ended result) exchanges after later) : False := by
  cases moves

/-- Only a wait for the loops ends with the answer that they have ended. -/
theorem Moves.joined (registry : Catalog.Registry) {conclude : Except Interruption ρ → Standing ρ}
    {before after : Bool} {standing later : Standing ρ}
    (moves : Moves conclude loops before standing exchanges after later)
    (last : exchanges.getLast? = some ⟨.join false, .ok ()⟩) :
    JoinEnds false loops (.ok ()) ∧ exchanges.flatMap (startedBy registry) = [] := by
  cases moves with
  | answer answers =>
      cases last
      exact answers.elim
  | resume resumes =>
      cases last
      exact ⟨resumes, rfl⟩
  | _ => cases last

variable {scene : Scene ρ}

/-- When the walk has last been told that the loops have ended, all loops have ended without a
fault: loops that have ended stay so, and the walk starts no other ones meanwhile. -/
theorem Steps.loops_ended {signal : Bool} {start : RunActivity ρ}
    (steps : Steps registry (Scene.start signal start) scene)
    (last : (scene.exchangesOf .walk).getLast? = some ⟨.join false, .ok ()⟩) :
    ∀ loop ∈ scene.loops, ∃ step, loop = .ended (.ok step) := by
  induction steps with
  | refl => cases last
  | @tail middle final earlier step hypothesis =>
      cases step with
      | stop idle => exact hypothesis last
      | @walk exchanges after later alone moves =>
          rw [Scene.exchangesOf_append rfl, if_pos rfl, List.getLast?_append] at last
          cases told : exchanges.getLast? with
          | none =>
              obtain rfl := List.getLast?_eq_none_iff.mp told
              rw [told] at last
              simpa using hypothesis last
          | some exchange =>
              rw [told] at last
              cases last
              obtain ⟨ended, quiet⟩ := moves.joined registry told
              rw [quiet, List.append_nil]
              intro loop member
              obtain ⟨result, rfl, impossible | ⟨step, rfl⟩⟩ := ended loop member
              · cases impossible
              · exact ⟨step, rfl⟩
      | @loop number standing later exchanges after found alone moves =>
          rw [Scene.exchangesOf_append rfl, if_neg nofun, List.append_nil] at last
          obtain ⟨step, rfl⟩ := hypothesis last standing (List.mem_of_getElem? found)
          exact moves.not_ended.elim

/-- A walk that has started a loop is not alone. -/
theorem Steps.loops_ne_nil {signal : Bool} {start : RunActivity ρ}
    (steps : Steps registry (Scene.start signal start) scene)
    (started : ∃ exchange ∈ scene.exchangesOf .walk, startedBy registry exchange ≠ []) :
    scene.loops ≠ [] := by
  induction steps with
  | refl =>
      obtain ⟨_, impossible, -⟩ := started
      cases impossible
  | @tail middle final earlier step hypothesis =>
      cases step with
      | stop idle => exact hypothesis started
      | @walk exchanges after later alone moves =>
          obtain ⟨exchange, member, starts⟩ := started
          rw [Scene.exchangesOf_append rfl, if_pos rfl, List.mem_append] at member
          rcases member with old | new
          · exact List.append_ne_nil_of_left_ne_nil (hypothesis ⟨exchange, old, starts⟩) _
          · apply List.append_ne_nil_of_right_ne_nil
            intro none
            exact starts (List.flatMap_eq_nil_iff.mp none exchange new)
      | @loop number standing later exchanges after found alone moves =>
          rw [Scene.exchangesOf_append rfl, if_neg nofun, List.append_nil] at started
          apply List.append_ne_nil_of_left_ne_nil
          simpa using hypothesis started

/-- A loop that has ended without a fault has ended by itself, with the signal set. -/
theorem Scene.Sound.of_ended (sound : scene.Sound) {step : LoopStep}
    (ended : .ended (.ok step) ∈ scene.loops) : step = .ended ∧ scene.signal = true := by
  obtain ⟨known, -, holds, isOver⟩ := sound.loops _ ended
  obtain ⟨isEnded, rfl⟩ := isOver step rfl
  exact ⟨isEnded, holds⟩

/-! ### The final state -/

variable {findings : List Finding}

theorem any_isFailure_iff :
    findings.any Finding.isFailure = true ↔
      ∃ index step message, .returned index step (.failed message false) ∈ findings := by
  rw [List.any_eq_true]
  constructor
  · rintro ⟨finding, member, failure⟩
    unfold Finding.isFailure at failure
    split at failure
    · exact ⟨_, _, _, member⟩
    · cases failure
  · rintro ⟨index, step, message, member⟩
    exact ⟨_, member, rfl⟩

theorem any_isStop_iff :
    findings.any Finding.isStop = true ↔
      .looked true ∈ findings ∨ ∃ index step, .returned index step .cancelled ∈ findings := by
  rw [List.any_eq_true]
  constructor
  · rintro ⟨finding, member, stops⟩
    unfold Finding.isStop at stops
    split at stops
    · subst stops
      exact .inl member
    · exact .inr ⟨_, _, member⟩
    · cases stops
  · rintro (member | ⟨index, step, member⟩)
    · exact ⟨_, member, rfl⟩
    · exact ⟨_, member, rfl⟩

theorem any_isStart_iff :
    findings.any Finding.isStart = true ↔ ∃ index, .started index ∈ findings := by
  rw [List.any_eq_true]
  constructor
  · rintro ⟨finding, member, starts⟩
    unfold Finding.isStart at starts
    split at starts
    · exact ⟨_, member⟩
    · cases starts
  · rintro ⟨index, member⟩
    exact ⟨_, member, rfl⟩

theorem conclusion_eq_faulted_iff :
    conclusion findings = .faulted ↔
      ∃ index step message, .returned index step (.failed message false) ∈ findings := by
  rw [← any_isFailure_iff]
  unfold conclusion
  split
  · simp_all
  · split <;> simp_all

theorem conclusion_eq_cancelled_iff :
    conclusion findings = .cancelled ↔ conclusion findings ≠ .faulted ∧
      ((∃ index, .started index ∈ findings) ∨ .looked true ∈ findings ∨
        ∃ index step, .returned index step .cancelled ∈ findings) := by
  rw [← any_isStop_iff, ← any_isStart_iff, or_comm, ← Bool.or_eq_true]
  unfold conclusion
  split
  · simp
  · split <;> simp_all

theorem conclusion_eq_completed_iff :
    conclusion findings = .completed ↔
      conclusion findings ≠ .faulted ∧ conclusion findings ≠ .cancelled := by
  unfold conclusion
  split
  · simp
  · split <;> simp

/-- The state of a run that returns, whatever the program and the actions and in every order of the
turns.  What the walk has found alone decides it: the run is faulted if a step of a bounded block has
failed although it could be resolved; else it is cancelled if a loop was started, the walk saw the
signal set or a step of a bounded block was cancelled; else it is completed.  If a loop was started,
the signal is set and all loops have ended by themselves. -/
theorem final_state (program : Program) {signal : Bool} {scene : Scene RunState} {state : RunState}
    (reached : Steps registry (Scene.start signal (execute registry program)) scene)
    (returned : scene.walk = .ended (.ok state)) :
    ∃ findings, (noteExecute registry program).Runs (scene.exchangesOf .walk) (.ok ⟨state, findings⟩) ∧
      (∀ finding ∈ findings, finding.Concerns program.blocks) ∧
      (state = .faulted ↔
        ∃ index step message, .returned index step (.failed message false) ∈ findings) ∧
      (state = .cancelled ↔ state ≠ .faulted ∧
        ((∃ index, .started index ∈ findings) ∨ .looked true ∈ findings ∨
          ∃ index step, .returned index step .cancelled ∈ findings)) ∧
      (state = .completed ↔ state ≠ .faulted ∧ state ≠ .cancelled) ∧
      ((∃ index, .started index ∈ findings) →
        scene.signal = true ∧ scene.loops ≠ [] ∧
          ∀ loop ∈ scene.loops, loop = .ended (.ok .ended)) := by
  have ran : (execute registry program).Runs (scene.exchangesOf .walk) (.ok state) := by
    have follows := reached.follows
    rw [returned] at follows
    rcases follows with ran | impossible
    · exact ran
    · cases impossible
  rw [← noteExecute_erase] at ran
  obtain ⟨first, second, ⟨value, findings⟩, split, noted, ends⟩ := Activity.runs_bind_ok.mp ran
  obtain ⟨rfl, same⟩ := Activity.runs_finished.mp ends
  cases same
  rw [List.append_nil] at split
  rw [← split] at noted
  obtain ⟨settled, concerns, spawns, joins⟩ := noteExecute_settles noted
  obtain rfl : value = conclusion findings := settled
  refine ⟨findings, noted, concerns, conclusion_eq_faulted_iff, conclusion_eq_cancelled_iff,
    conclusion_eq_completed_iff, ?_⟩
  intro started
  have loud := any_isStart_iff.mpr started
  have sound := reached.sound (Scene.sound_start (execute_careful registry program) signal)
  have ended := reached.loops_ended (joins loud)
  have nonempty := reached.loops_ne_nil (spawns loud)
  refine ⟨?_, nonempty, fun loop member => ?_⟩
  · obtain ⟨loop, member⟩ := List.exists_mem_of_ne_nil _ nonempty
    obtain ⟨step, rfl⟩ := ended loop member
    exact (sound.of_ended member).2
  · obtain ⟨step, rfl⟩ := ended loop member
    rw [(sound.of_ended member).1]

/-- A run that has started a loop and is stopped in a bounded block ends cancelled. -/
theorem final_state_halt : ∃ scene,
    Steps haltRegistry (Scene.start false (execute haltRegistry haltProgram)) scene ∧
      scene.walk = .ended (.ok .cancelled) ∧
      ∃ findings,
        (noteExecute haltRegistry haltProgram).Runs (scene.exchangesOf .walk)
          (.ok ⟨.cancelled, findings⟩) ∧
        (¬ ∃ index step message, .returned index step (.failed message false) ∈ findings) ∧
        ((∃ index, .started index ∈ findings) ∨ .looked true ∈ findings ∨
          ∃ index step, .returned index step .cancelled ∈ findings) := by
  obtain ⟨scene, later, reached, -, -, steps, ended⟩ := halt_run
  obtain ⟨findings, noted, -, faulted, cancelled, -, -⟩ :=
    final_state haltProgram (reached.trans steps) ended
  refine ⟨later, reached.trans steps, ended, findings, noted, ?_, (cancelled.mp rfl).2⟩
  intro failed
  cases faulted.mpr failed

end Scene

end InputScript.Interleaving
