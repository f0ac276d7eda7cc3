/-
Module: InputScript.Proofs.Score
Purpose: The record that a player leaves.  Its statuses take turns, and within each stretch of playing
  every step is followed by its number.  Whatever a run does keeps a record in that form.
Main exports: Scored, Scored.statuses_eq, Machine.turn_keepsScore
-/
import InputScript.Proofs.Rehearsals
import Mathlib.Tactic.Common

namespace InputScript.Rehearsal

open Catalog Run

/-! ### Records -/

/-- The status that is shown. -/
def Entry.status? : Entry → Option Bool
  | .status playing => some playing
  | _ => none

/-- The statuses among some entries. -/
def statuses (entries : List Entry) : List Bool :=
  entries.filterMap (·.status?)

/-- What the player shows of a step: that it ended, and then how many have ended. -/
inductive Beat where
  | step
  | progress (steps : Nat)
  deriving DecidableEq, Repr

/-- The beat that an entry is. -/
def Entry.beat? : Entry → Option Beat
  | .step _ _ => some .step
  | .progress steps => some (.progress steps)
  | _ => none

/-- The beats among some entries. -/
def beats (entries : List Entry) : List Beat :=
  entries.filterMap (·.beat?)

/-- Whether an entry is neither a status nor a beat. -/
def Entry.IsPlain (entry : Entry) : Prop :=
  entry.status? = none ∧ entry.beat? = none

/-- `Scored record playing count`: a record, the latest entry first, at the end of which the player
plays or not, and has counted so many steps since it began to play for the last time. -/
inductive Scored : List Entry → Bool → Nat → Prop where
  | silent : Scored [] false 0
  | plain {record : List Entry} {playing : Bool} {count : Nat} {entry : Entry}
      (isPlain : entry.IsPlain) (before : Scored record playing count) :
      Scored (entry :: record) playing count
  | step {record : List Entry} {playing : Bool} {count : Nat} (event : StepEvent) (signalSet : Bool)
      (before : Scored record playing count) :
      Scored (.progress (count + 1) :: .step event signalSet :: record) playing (count + 1)
  | play {record : List Entry} {count : Nat} (before : Scored record false count) :
      Scored (.status true :: record) true 0
  | stop {record : List Entry} {count : Nat} (before : Scored record true count) :
      Scored (.status false :: record) false count

section Records

variable {record : List Entry} {playing : Bool} {count : Nat}

theorem statuses_reverse_cons (entry : Entry) (record : List Entry) :
    statuses (entry :: record).reverse = statuses record.reverse ++ entry.status?.toList := by
  rw [List.reverse_cons, statuses, List.filterMap_append]
  cases entry <;> rfl

end Records

/-! ### What a run enters -/

/-- `world.KeepsScore later`: what was entered in between are plain entries and counted steps. -/
structure World.KeepsScore (world later : World) : Prop where
  scored : ∀ playing, Scored world.record playing world.progress →
    Scored later.record playing later.progress
  statuses : statuses later.record.reverse = statuses world.record.reverse

section Entries

variable {rules : Rules} {world middle later : World}

theorem World.KeepsScore.refl (world : World) : world.KeepsScore world :=
  ⟨fun _ => id, rfl⟩

theorem World.KeepsScore.trans (first : world.KeepsScore middle) (second : middle.KeepsScore later) :
    world.KeepsScore later :=
  ⟨fun playing => second.scored playing ∘ first.scored playing,
    second.statuses.trans first.statuses⟩

/-- Only the record and the count matter. -/
theorem World.KeepsScore.of_eq (record : later.record = world.record)
    (progress : later.progress = world.progress) : world.KeepsScore later where
  scored playing before := by
    rw [record, progress]
    exact before
  statuses := by rw [record]

theorem World.keepsScore_enter {entry : Entry} (isPlain : entry.IsPlain)
    (record : later.record = entry :: world.record) (progress : later.progress = world.progress) :
    world.KeepsScore later where
  scored playing before := by
    rw [record, progress]
    exact .plain isPlain before
  statuses := by rw [record, statuses_reverse_cons, isPlain.1, Option.toList_none, List.append_nil]

theorem World.stopIf_frame (world : World) (condition : Bool) :
    (world.stopIf condition).record = world.record ∧
      (world.stopIf condition).progress = world.progress := by
  cases condition <;> exact ⟨rfl, rfl⟩

/-- A log line is entered, whether or not the log function fails. -/
theorem World.logged_frame (rules : Rules) (world : World) (line : LogLine) :
    (world.logged rules line).2.record = .log line :: world.record ∧
      (world.logged rules line).2.progress = world.progress := by
  unfold World.logged
  dsimp only
  split
  · split <;> exact World.stopIf_frame _ _
  · exact World.stopIf_frame _ _

/-- The report of a step is counted at once. -/
theorem World.reported_keepsScore (shows : rules.showsProgress = true) (world : World)
    (event : StepEvent) : world.KeepsScore (world.reported rules event).2 := by
  have counts (condition : Bool) : world.KeepsScore
      ({ (world.enter (.step event world.signal)).advance with
        steps := world.steps + 1 }.stopIf condition) := by
    refine ⟨fun playing scored => ?_, ?_⟩
    · rw [(World.stopIf_frame _ _).1, (World.stopIf_frame _ _).2]
      exact .step event world.signal scored
    · rw [(World.stopIf_frame _ _).1]
      refine (statuses_reverse_cons _ _).trans ((List.append_nil _).trans ?_)
      exact (statuses_reverse_cons _ _).trans (List.append_nil _)
  unfold World.reported
  simp only [shows, if_true]
  split <;> exact counts _

/-- Whatever a run asks for, the world enters what is due. -/
theorem react_keepsScore (shows : rules.showsProgress = true) (world : World) (request : RunRequest) :
    match react rules world request with
    | .answered _ after => world.KeepsScore after
    | .suspended _ after _ => world.KeepsScore after
    | .napping .. => True := by
  match request with
  | .log line =>
      exact World.keepsScore_enter ⟨rfl, rfl⟩ (World.logged_frame rules world line).1
        (World.logged_frame rules world line).2
  | .report event => exact World.reported_keepsScore shows world event
  | .call label arguments =>
      unfold react World.called
      cases rules.recordsCalls with
      | true => exact World.keepsScore_enter ⟨rfl, rfl⟩ rfl rfl
      | false => exact .of_eq rfl rfl
  | .handover => exact .refl _
  | .spawn index block => exact .of_eq rfl rfl
  | .join tolerant =>
      unfold react
      cases world.loops == 0 <;> exact .refl _
  | .revokeLoops => exact .of_eq rfl rfl
  | .action (.log line) => exact World.keepsScore_enter ⟨rfl, rfl⟩ rfl rfl
  | .action (.wait seconds) =>
      exact World.keepsScore_enter ⟨rfl, rfl⟩ (World.stopIf_frame _ _).1 (World.stopIf_frame _ _).2
  | .action (.rest seconds) => exact World.keepsScore_enter ⟨rfl, rfl⟩ rfl rfl
  | .action (.device event) => exact World.keepsScore_enter ⟨rfl, rfl⟩ rfl rfl
  | .action (.isVisible handle) => exact .of_eq (World.stopIf_frame _ _).1 (World.stopIf_frame _ _).2
  | .action (.nap chunk seconds) =>
      rcases stepped : napStep world.signal chunk 0 seconds with signalSet | ⟨time, elapsed⟩
      · simp only [react, stepped]
        exact .refl _
      · simp only [react, stepped]
  | .action .stop => exact .of_eq rfl rfl
  | .action .block => exact .of_eq rfl rfl
  | .action .isStopping | .action .pointer | .action (.keyState _) | .action .windows
  | .action (.title _) | .action .clipboard | .action .clock | .action .pass
  | .action (.sleep _) => exact .refl _

variable {α : Type}

/-- Between two waits an activity enters what is due. -/
theorem stretch_keepsScore (shows : rules.showsProgress = true) (world : World)
    (activity : RunActivity α) : world.KeepsScore (stretch rules world activity).2 := by
  induction activity generalizing world with
  | finished result => exact .refl world
  | perform request next hypothesis =>
      have reacts := react_keepsScore shows world request
      rw [stretch]
      split
      · next answer after answered =>
          rw [answered] at reacts
          exact reacts.trans (hypothesis answer after)
      · next wait after deliver suspended =>
          rw [suspended] at reacts
          exact reacts
      · exact .refl world

theorem resume_keepsScore (shows : rules.showsProgress = true) (world : World)
    (resumption : Resumption α) (result : Except Interruption Unit) :
    world.KeepsScore (resumption.resume rules world result).2 := by
  cases resumption with
  | answer next => exact stretch_keepsScore shows world (next result)
  | nap chunk elapsed seconds next =>
      simp only [Resumption.resume]
      split
      · exact stretch_keepsScore shows world _
      · split
        · exact stretch_keepsScore shows world _
        · exact .refl world

end Entries

/-! ### Machines -/

namespace Machine

open Interleaving

variable {ρ : Type} {rules : Rules}

theorem obey_keepsScore (registry : Registry) (machine : Machine ρ) :
    machine.world.KeepsScore (machine.obey registry).world := by
  rw [obey, carryOut_world]
  exact .of_eq rfl rfl

/-- A task that goes on enters what is due, and so do the orders that it leaves. -/
theorem obey_after_keepsScore {α : Type} (registry : Registry)
    (shows : rules.showsProgress = true) (machine : Machine ρ) (resumption : Resumption α)
    (result : Except Interruption Unit) :
    machine.world.KeepsScore
      (obey registry { machine with world := (resumption.resume rules machine.world result).2 }).world := by
  have resumed := resume_keepsScore shows machine.world resumption result
  have obeyed := obey_keepsScore registry
    { machine with world := (resumption.resume rules machine.world result).2 }
  exact resumed.trans obeyed

theorem resumeWalk_keepsScore (registry : Registry) (shows : rules.showsProgress = true)
    (machine : Machine ρ) : machine.world.KeepsScore (machine.resumeWalk registry rules).world := by
  unfold resumeWalk
  split
  · next resumption result revoked queued =>
      have obeyed := obey_after_keepsScore registry shows machine resumption
        (resumeResult result revoked)
      dsimp only
      split
      · exact obeyed
      · exact (suspend_world ..).symm ▸ obeyed
  · exact .refl _

theorem resumeLoop_keepsScore (registry : Registry) (shows : rules.showsProgress = true)
    (machine : Machine ρ) (number : Nat) :
    machine.world.KeepsScore (machine.resumeLoop registry rules number).world := by
  unfold resumeLoop
  split
  · next resumption result revoked watchers queued =>
      have obeyed := obey_after_keepsScore registry shows machine resumption
        (resumeResult result revoked)
      dsimp only
      split
      · rw [endLoop_world]
        exact obeyed
      · exact (suspend_world ..).symm ▸ obeyed
  · exact .refl _

theorem attend_keepsScore (registry : Registry) (shows : rules.showsProgress = true)
    (machine : Machine ρ) (notice : Notice) :
    machine.world.KeepsScore (machine.attend registry rules notice).world := by
  unfold attend
  split
  · exact .refl _
  · split
    · exact resumeWalk_keepsScore registry shows machine
    · exact resumeLoop_keepsScore registry shows machine _
    · rw [deliver_world]
      exact .refl _
    · rw [hearLoop_world]
      exact .refl _
    · exact .of_eq rfl rfl
    · rw [revoke_world]
      exact .refl _
    · exact .refl _

/-- A turn enters what is due. -/
theorem turn_keepsScore (registry : Registry) (shows : rules.showsProgress = true)
    (machine : Machine ρ) : machine.world.KeepsScore (machine.turn registry rules).world := by
  have attended (notices : List Notice) (current : Machine ρ) :
      current.world.KeepsScore (notices.foldl (attend registry rules) current).world := by
    induction notices generalizing current with
    | nil => exact .refl _
    | cons notice rest hypothesis =>
        exact (attend_keepsScore registry shows current notice).trans (hypothesis _)
  have moved : machine.world.KeepsScore machine.moveClock.world := by
    unfold moveClock
    split
    · exact .of_eq rfl rfl
    · exact .refl _
  have heard := attended machine.moveClock.expire.ready { machine.moveClock.expire with ready := [] }
  exact moved.trans heard

end Machine

end InputScript.Rehearsal
