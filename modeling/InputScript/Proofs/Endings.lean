/-
Module: InputScript.Proofs.Endings
Purpose: What a run may return.  An activity that can only return certain values, however it is
  answered, returns one of them in every rehearsal, whatever happens to the other tasks meanwhile.
Main exports: Activity.Returns, stretch_returns
-/
import InputScript.Proofs.Findings
import InputScript.Proofs.Mirror
import InputScript.Session.Runner

namespace InputScript

/-! ### Activities -/

section Activities

variable {Request : Type} {Answer : Request → Type} {α : Type} {good : α → Prop}

/-- Whether all values that an activity can return are good ones. -/
def Activity.Returns (good : α → Prop) (activity : Activity Answer α) : Prop :=
  ∀ exchanges value, activity.Runs exchanges (.ok value) → good value

theorem Activity.returns_finished {result : Except Interruption α} :
    (Activity.finished result : Activity Answer α).Returns good ↔
      ∀ value, result = .ok value → good value := by
  simp only [Activity.Returns, Activity.runs_finished]
  constructor
  · rintro returns value rfl
    exact returns [] value ⟨rfl, rfl⟩
  · rintro returns exchanges value ⟨-, same⟩
    exact returns value same.symm

theorem Activity.returns_perform {request : Request} {resume : Answer request → Activity Answer α} :
    (Activity.perform request resume).Returns good ↔ ∀ answer, (resume answer).Returns good := by
  simp only [Activity.Returns, Activity.runs_perform]
  constructor
  · intro returns answer exchanges value ran
    exact returns _ value ⟨answer, exchanges, rfl, ran⟩
  · rintro returns _ value ⟨answer, later, rfl, ran⟩
    exact returns answer later value ran

end Activities

namespace Rehearsal

open Catalog Run

variable {α ρ : Type} {good : α → Prop}

/-! ### Tasks -/

/-- Whether an activity that goes on in this way can only return good values. -/
def Resumption.Returns (good : α → Prop) : Resumption α → Prop
  | .answer next => ∀ result, (next result).Returns good
  | .nap _ _ _ next => ∀ result, (next result).Returns good

/-- Whether an activity that has stopped here can only return good values. -/
def Stop.Returns (good : α → Prop) : Stop α → Prop
  | .finished result => ∀ value, result = .ok value → good value
  | .suspended _ resumption => resumption.Returns good

/-- Whether a task can only return good values. -/
def Task.Returns (good : α → Prop) : Task α → Prop
  | .queued resumption _ _ => resumption.Returns good
  | .waiting _ _ resumption _ => resumption.Returns good
  | .ended result => ∀ value, result = .ok value → good value

theorem Task.begin_returns {activity : RunActivity α} (returns : activity.Returns good) :
    (Task.begin activity).Returns good := by
  intro result
  cases result with
  | ok value => exact returns
  | error interruption => exact Activity.returns_finished.mpr nofun

/-- Between two waits an activity goes on as it can. -/
theorem stretch_returns (rules : Rules) (world : World) {activity : RunActivity α}
    (returns : activity.Returns good) : (stretch rules world activity).1.Returns good := by
  induction activity generalizing world with
  | finished result => exact Activity.returns_finished.mp returns
  | perform request next hypothesis =>
      rw [Activity.returns_perform] at returns
      rw [stretch]
      split
      · exact hypothesis _ _ (returns _)
      · exact fun result => returns _
      · exact fun result => returns _

theorem resume_returns (rules : Rules) (world : World) {resumption : Resumption α}
    (returns : resumption.Returns good) (result : Except Interruption Unit) :
    (resumption.resume rules world result).1.Returns good := by
  cases resumption with
  | answer next => exact stretch_returns rules world (returns result)
  | nap chunk elapsed seconds next =>
      simp only [Resumption.resume]
      split
      · exact stretch_returns rules world (returns _)
      · split
        · exact stretch_returns rules world (returns _)
        · exact returns

/-! ### Machines -/

namespace Machine

variable {good : ρ → Prop} {machine : Machine ρ}

/-- Whether the walk of a machine can only return good values. -/
def Returns (good : ρ → Prop) (machine : Machine ρ) : Prop :=
  machine.walk.Returns good

theorem walk_obey (registry : Registry) (machine : Machine ρ) :
    (machine.obey registry).walk = machine.walk := by
  rw [obey]
  generalize machine.world.commands.reverse = orders
  suffices fold : ∀ current : Machine ρ,
      (orders.foldl (carryOut registry) current).walk = current.walk from fold _
  induction orders with
  | nil => exact fun current => rfl
  | cons order rest hypothesis =>
      intro current
      rw [List.foldl_cons, hypothesis]
      cases order with
      | spawn index block => rfl
      | revokeLoops => exact (Interleaving.revokeAll_frame current).1

theorem walk_suspend (machine : Machine ρ) (id : TaskId) (wait : Wait) (resumption : Resumption α) :
    (machine.suspend id wait resumption).2.walk = machine.walk := by
  cases wait with
  | timer seconds =>
      simp only [suspend, addTimer]
      split <;> rfl
  | _ => rfl

theorem suspend_returns (machine : Machine ρ) (id : TaskId) (wait : Wait)
    {resumption : Resumption ρ} (returns : resumption.Returns good) :
    (machine.suspend id wait resumption).1.Returns good := by
  cases wait <;> exact returns

theorem resumeWalk_returns (registry : Registry) (rules : Rules)
    (returns : machine.Returns good) : (machine.resumeWalk registry rules).Returns good := by
  unfold resumeWalk
  split
  · next resumption result revoked queued =>
      have continues : resumption.Returns good := by
        rw [Returns, queued] at returns
        exact returns
      have stopped := resume_returns rules machine.world continues (resumeResult result revoked)
      revert stopped
      generalize resumption.resume rules machine.world (resumeResult result revoked) = turn
      obtain ⟨stop, world⟩ := turn
      intro stopped
      cases stop with
      | finished outcome => exact stopped
      | suspended wait next => exact suspend_returns _ _ _ stopped
  · exact returns

/-- A turn of a loop does not move the walk. -/
theorem walk_resumeLoop (registry : Registry) (rules : Rules) (machine : Machine ρ)
    (number : Nat) : (machine.resumeLoop registry rules number).walk = machine.walk := by
  unfold resumeLoop
  split
  · dsimp only
    split
    · rw [endLoop]
      split
      · exact walk_obey _ _
      · exact walk_obey _ _
    · exact (walk_suspend _ _ _ _).trans (walk_obey _ _)
  · rfl

theorem deliver_returns (returns : machine.Returns good) (id : TaskId) (ticket : Nat)
    (result : Except Interruption Unit) : (machine.deliver id ticket result).Returns good := by
  unfold deliver
  split
  · split
    · next walk delivered =>
        obtain ⟨join, resumption, revoked, waits, rfl⟩ := Interleaving.deliverTo_eq_some delivered
        rw [Returns, waits] at returns
        exact returns
    · exact returns
  · split <;> exact returns

theorem settleJoin_returns (returns : machine.Returns good) (join : Nat)
    (result : Except Interruption Unit) : (machine.settleJoin join result).Returns good := by
  unfold settleJoin
  dsimp only
  split
  · split
    · exact deliver_returns (by exact returns) _ _ _
    · exact returns
  · exact returns

theorem hearLoop_returns (returns : machine.Returns good) (number join : Nat) :
    (machine.hearLoop number join).Returns good := by
  unfold hearLoop
  split
  · exact returns
  · dsimp only
    split
    · exact returns
    · split
      · exact settleJoin_returns (by exact returns) _ _
      · split
        · exact settleJoin_returns (by exact returns) _ _
        · exact returns

theorem revoke_returns (returns : machine.Returns good) : machine.revoke.Returns good := by
  unfold revoke
  unfold Returns at returns
  split
  · exact returns
  · next queued =>
      rw [queued] at returns
      exact returns
  · next waits =>
      rw [waits] at returns
      exact returns
  · next waits =>
      dsimp only
      split
      · exact (Interleaving.revokeAll_frame machine).1 ▸ returns
      · rw [waits] at returns
        exact returns

theorem attend_returns (registry : Registry) (rules : Rules) (returns : machine.Returns good)
    (notice : Notice) : (machine.attend registry rules notice).Returns good := by
  unfold attend
  split
  · exact returns
  · split
    · exact resumeWalk_returns registry rules returns
    · rw [Returns, walk_resumeLoop]
      exact returns
    · exact deliver_returns returns _ _ _
    · exact hearLoop_returns returns _ _
    · exact returns
    · exact revoke_returns returns
    · exact returns

/-- However many turns a machine takes, its walk can only return what it could before. -/
theorem turn_returns (registry : Registry) (rules : Rules) (returns : machine.Returns good) :
    (machine.turn registry rules).Returns good := by
  have attended (notices : List Notice) (current : Machine ρ) (returns : current.Returns good) :
      (notices.foldl (attend registry rules) current).Returns good := by
    induction notices generalizing current with
    | nil => exact returns
    | cons notice rest hypothesis =>
        exact hypothesis _ (attend_returns registry rules returns notice)
  apply attended
  unfold moveClock
  split <;> exact returns

end Machine

end Rehearsal

namespace Session

open Catalog Rehearsal Run

/-! ### Runs -/

theorem turnWhile_returns (registry : Registry) (rules : Rules)
    (goesOn : Machine RunState → Bool) (turns : Nat) {good : RunState → Prop}
    {machine : Machine RunState} (returns : machine.Returns good) :
    (Runner.turnWhile registry rules goesOn turns machine).Returns good := by
  induction turns generalizing machine with
  | zero => exact returns
  | succ turns hypothesis =>
      rw [Runner.turnWhile]
      split
      · exact returns
      · exact hypothesis (Machine.turn_returns registry rules returns)

theorem isFinished_conclusion (findings : List Interleaving.Finding) :
    (Interleaving.conclusion findings).isFinished = true := by
  unfold Interleaving.conclusion
  split
  · rfl
  · split <;> rfl

/-- A program that is run to its end returns a state of an end. -/
theorem execute_returns (registry : Registry) (program : Script.Program) :
    (execute registry program).Returns (·.isFinished = true) := by
  intro exchanges state ran
  rw [← Interleaving.noteExecute_erase] at ran
  obtain ⟨first, second, ⟨value, findings⟩, -, noted, ends⟩ := Activity.runs_bind_ok.mp ran
  cases (Activity.runs_finished.mp ends).2
  obtain rfl : value = Interleaving.conclusion findings := (Interleaving.noteExecute_settles noted).1
  exact isFinished_conclusion findings

theorem runActivity_returns (registry : Registry) (program : Script.Program) :
    (runActivity registry program).Returns (·.isFinished = true) := by
  intro exchanges state ran
  obtain ⟨first, second, ended, -, attempted, ran⟩ := Activity.runs_bind_ok.mp ran
  obtain ⟨_, same, executed⟩ := Activity.runs_attempt.mp attempted
  cases same
  match ended, executed, ran with
  | .ok value, executed, ran =>
      obtain ⟨_, _, _, -, -, ran⟩ := Activity.runs_bind_ok.mp ran
      cases (Activity.runs_finished.mp ran).2
      exact execute_returns registry program _ _ executed
  | .error .revoked, executed, ran =>
      obtain ⟨_, _, _, -, -, ran⟩ := Activity.runs_bind_ok.mp ran
      cases (Activity.runs_finished.mp ran).2
  | .error (.fault fault), executed, ran =>
      obtain ⟨_, _, _, -, -, ran⟩ := Activity.runs_bind_ok.mp ran
      cases (Activity.runs_finished.mp ran).2

end Session

end InputScript
