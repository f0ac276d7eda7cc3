/-
Module: InputScript.Proofs.Circumstances
Purpose: Runs under given circumstances.  The circumstances say how each call of an action ends, given
  its arguments and the number of earlier calls of its name, and how the observers take what they are
  told.  As long as the signal is unset they leave a walk no choice: whatever else the actions ask
  for, its calls and reports and the outcomes of its steps are the same in every run.
Main exports: Circumstances, callsOf, Obeys, noteWalk_determined
-/
import InputScript.Proofs.Habit
import InputScript.Proofs.Reports
import InputScript.Proofs.Solo

namespace InputScript.Interleaving

open Catalog Run Rehearsal Script Reporting

/-! ### Circumstances -/

/-- What runs may have in common: how an operation ends that is called with its arguments after a
number of calls of its name, and how the observers take what they are told. -/
structure Circumstances where
  ending : Resolution → Nat → Except Interruption Value
  log : LogLine → Except Fault Unit
  report : StepEvent → Except Fault Unit

/-- Whether the observers take an exchange as the circumstances say. -/
def Circumstances.Tells (circumstances : Circumstances) : RunExchange → Prop
  | ⟨.log line, (answer : Except Fault Unit)⟩ => answer = circumstances.log line
  | ⟨.report event, (answer : Except Fault Unit)⟩ => answer = circumstances.report event
  | _ => True

/-- Whether a deed is a call of a name. -/
def isCallOf (registry : Registry) (name : String) : Deed → Bool
  | .called call => (registry.overloads name).any (·.implementation.label == call.label)
  | .reported _ => false

/-- The number of calls of a name. -/
def callsOf (registry : Registry) (name : String) (deeds : List Deed) : Nat :=
  deeds.countP (isCallOf registry name)

/-- Whether exchanges that come after some deeds are undisturbed and as the circumstances say: each
part of them that is a call of an operation ends as it has to. -/
structure Obeys (registry : Registry) (circumstances : Circumstances) (before : List Deed)
    (exchanges : List RunExchange) : Prop where
  undisturbed : ∀ exchange ∈ exchanges, Undisturbed exchange
  tells : ∀ exchange ∈ exchanges, circumstances.Tells exchange
  ends : ∀ earlier segment later name tokens resolution result,
    exchanges = earlier ++ (segment ++ later) → registry.resolve name tokens = .ok resolution →
    (callResolved resolution).Runs segment result →
    result = circumstances.ending resolution
      (callsOf registry name (before ++ deedsOf earlier))

section Obeys

variable {registry : Registry} {circumstances : Circumstances} {before : List Deed}
  {first second : List RunExchange}

theorem Obeys.of_append_left (obeys : Obeys registry circumstances before (first ++ second)) :
    Obeys registry circumstances before first where
  undisturbed exchange member := obeys.undisturbed exchange (List.mem_append_left _ member)
  tells exchange member := obeys.tells exchange (List.mem_append_left _ member)
  ends := by
    rintro earlier segment later name tokens resolution result rfl
    exact obeys.ends earlier segment (later ++ second) name tokens resolution result (by simp)

theorem Obeys.of_append_right (obeys : Obeys registry circumstances before (first ++ second)) :
    Obeys registry circumstances (before ++ deedsOf first) second where
  undisturbed exchange member := obeys.undisturbed exchange (List.mem_append_right _ member)
  tells exchange member := obeys.tells exchange (List.mem_append_right _ member)
  ends := by
    rintro earlier segment later name tokens resolution result rfl resolved ran
    rw [List.append_assoc, ← deedsOf_append]
    exact obeys.ends (first ++ earlier) segment later name tokens resolution result (by simp)
      resolved ran

end Obeys

/-! ### Determined activities -/

section Determined

variable {α β : Type}

/-- Whether the circumstances leave an activity no choice: all its runs do the same and end in the
same way. -/
def Determined (registry : Registry) (circumstances : Circumstances) (activity : RunActivity α) :
    Prop :=
  ∀ before first second result ended,
    activity.Runs first result → activity.Runs second ended →
    Obeys registry circumstances before first → Obeys registry circumstances before second →
    deedsOf first = deedsOf second ∧ result = ended

variable {registry : Registry} {circumstances : Circumstances}

theorem determined_finished (result : Except Interruption α) :
    Determined registry circumstances (.finished result) := by
  intro before first second _ _ ran otherRan _ _
  obtain ⟨rfl, rfl⟩ := Activity.runs_finished.mp ran
  obtain ⟨rfl, rfl⟩ := Activity.runs_finished.mp otherRan
  exact ⟨rfl, rfl⟩

/-- After the same deeds the second parts begin under the same circumstances. -/
theorem determined_bind {activity : RunActivity α} {next : α → RunActivity β}
    (starts : Determined registry circumstances activity)
    (goesOn : ∀ value, Determined registry circumstances (next value)) :
    Determined registry circumstances (activity.bind next) := by
  intro before first second result ended ran otherRan obeys otherObeys
  rcases Activity.runs_bind.mp ran with ⟨early, late, value, rfl, begun, continued⟩ |
    ⟨interruption, rfl, begun⟩
  · rcases Activity.runs_bind.mp otherRan with ⟨otherEarly, otherLate, otherValue, rfl, otherBegun,
      otherContinued⟩ | ⟨interruption, rfl, otherBegun⟩
    · obtain ⟨same, sameValue⟩ := starts before early otherEarly _ _ begun otherBegun
        obeys.of_append_left otherObeys.of_append_left
      cases sameValue
      have later := otherObeys.of_append_right
      rw [← same] at later
      obtain ⟨sameLater, ends⟩ := goesOn value _ late otherLate _ _ continued otherContinued
        obeys.of_append_right later
      rw [deedsOf_append, deedsOf_append, same, sameLater]
      exact ⟨rfl, ends⟩
    · cases (starts before early second _ _ begun otherBegun obeys.of_append_left otherObeys).2
  · rcases Activity.runs_bind.mp otherRan with ⟨otherEarly, otherLate, otherValue, rfl, otherBegun,
      otherContinued⟩ | ⟨otherInterruption, rfl, otherBegun⟩
    · cases (starts before first otherEarly _ _ begun otherBegun obeys otherObeys.of_append_left).2
    · obtain ⟨same, sameError⟩ := starts before first second _ _ begun otherBegun obeys otherObeys
      cases sameError
      exact ⟨same, rfl⟩

theorem determined_attempt {activity : RunActivity α}
    (determined : Determined registry circumstances activity) :
    Determined registry circumstances activity.attempt := by
  intro before first second result ended ran otherRan obeys otherObeys
  obtain ⟨inner, rfl, innerRan⟩ := Activity.runs_attempt.mp ran
  obtain ⟨otherInner, rfl, otherInnerRan⟩ := Activity.runs_attempt.mp otherRan
  obtain ⟨same, rfl⟩ := determined before first second _ _ innerRan otherInnerRan obeys otherObeys
  exact ⟨same, rfl⟩

/-- A request to which the circumstances leave one answer. -/
theorem determined_perform {request : RunRequest} {next : request.Answer → RunActivity α}
    (unique : ∀ answer other,
      Undisturbed ⟨request, answer⟩ ∧ circumstances.Tells ⟨request, answer⟩ →
      Undisturbed ⟨request, other⟩ ∧ circumstances.Tells ⟨request, other⟩ → answer = other)
    (goesOn : ∀ answer, Determined registry circumstances (next answer)) :
    Determined registry circumstances (.perform request next) := by
  intro before first second result ended ran otherRan obeys otherObeys
  obtain ⟨answer, later, rfl, continued⟩ := Activity.runs_perform.mp ran
  obtain ⟨other, otherLater, rfl, otherContinued⟩ := Activity.runs_perform.mp otherRan
  obtain rfl : answer = other := unique answer other
    ⟨obeys.undisturbed _ List.mem_cons_self, obeys.tells _ List.mem_cons_self⟩
    ⟨otherObeys.undisturbed _ List.mem_cons_self, otherObeys.tells _ List.mem_cons_self⟩
  rw [← List.singleton_append] at obeys otherObeys
  obtain ⟨same, ends⟩ := goesOn answer _ later otherLater _ _ continued otherContinued
    obeys.of_append_right otherObeys.of_append_right
  rw [← List.singleton_append, deedsOf_append, same, ← deedsOf_append]
  exact ⟨rfl, ends⟩

end Determined

/-! ### The walk -/

section Walk

variable {registry : Registry} {circumstances : Circumstances}

theorem log_determined (level : Level) (message : String) :
    Determined registry circumstances (log level message) :=
  determined_perform (fun _ _ told otherTold => told.2.trans otherTold.2.symm)
    fun _ => determined_finished _

theorem report_determined (event : StepEvent) :
    Determined registry circumstances (report event) :=
  determined_perform (fun _ _ told otherTold => told.2.trans otherTold.2.symm)
    fun _ => determined_finished _

/-- A look at an unset signal finds it unset. -/
theorem look_determined {α : Type} {next : Bool → RunActivity α}
    (goesOn : ∀ stopping, Determined registry circumstances (next stopping)) :
    Determined registry circumstances (.perform (.action .isStopping) next) :=
  determined_perform (fun _ _ unset otherUnset => unset.1.trans otherUnset.1.symm) goesOn

/-- Calls of the same operation with the same arguments after the same deeds end in the same way. -/
theorem callResolved_determined {name : String} {tokens : List String} {resolution : Resolution}
    (resolved : registry.resolve name tokens = .ok resolution) :
    Determined registry circumstances (callResolved resolution) := by
  intro before first second result ended ran otherRan obeys otherObeys
  have ends := obeys.ends [] first [] name tokens resolution result (by simp) resolved ran
  have otherEnds := otherObeys.ends [] second [] name tokens resolution ended (by simp) resolved
    otherRan
  exact ⟨(callResolved_runs ran).trans (callResolved_runs otherRan).symm,
    ends.trans otherEnds.symm⟩

/-- To be left no choice is a habit. -/
def determination (registry : Registry) (circumstances : Circumstances) : Habit where
  Holds activity := Determined registry circumstances activity
  finished := determined_finished
  bind := determined_bind
  attempt := determined_attempt
  look := look_determined
  log := log_determined
  report := report_determined

/-- The circumstances leave the walk through a program no choice. -/
theorem noteWalk_determined (index loops : Nat) (blocks : List Block) :
    Determined registry circumstances (noteWalk registry index loops blocks) := by
  have starts : ∀ index, ∀ block ∈ blocks, block.repetition.isUnbounded = true →
      (determination registry circumstances).Holds (spawn index block) :=
    fun _ _ _ _ => determined_perform (fun _ _ _ _ => rfl) fun _ => determined_finished _
  have calls : ∀ block ∈ blocks, block.repetition.isUnbounded = false →
      ∀ name ∈ namesOf registry block.steps,
        (determination registry circumstances).HasCalls registry name :=
    fun _ _ _ _ _ _ _ resolved => callResolved_determined resolved
  exact Habit.noteWalk_holds index loops starts calls

end Walk

end InputScript.Interleaving
