/-
Module: InputScript.Proofs.Habit
Purpose: Habits of activities.  A habit is a property that composed activities take over from their
  parts and that all has which a run does for itself.  If the calls of the names that a step can reach
  have a habit, so has the step with all its nested steps, and so has a walk through such steps.
Main exports: namesOf, Habit, Habit.invoke_holds, Habit.loopSteps_holds
-/
import InputScript.Proofs.Findings
import InputScript.Proofs.Visit

namespace InputScript.Interleaving

open Catalog Run Rehearsal Script Reporting

/-! ### Names of steps -/

/-- The names that steps can call: their own, those of their nested steps, and those of bare arguments
that name an operation without parameters. -/
def namesOf (registry : Registry) (steps : List Script.Step) : List String :=
  steps.flatMap fun step => (StepTree.ofStep registry step).postorder

theorem postorderAll_append (first second : List StepTree) :
    StepTree.postorderAll (first ++ second) =
      StepTree.postorderAll first ++ StepTree.postorderAll second := by
  induction first with
  | nil => rfl
  | cons tree rest hypothesis =>
      rw [List.cons_append, StepTree.postorderAll, StepTree.postorderAll, hypothesis,
        List.append_assoc]

/-! ### Habits -/

/-- A property of activities that composed activities take over from their parts.  Looks at the signal
and exchanges with the observers of a run have it. -/
structure Habit where
  Holds : {α : Type} → RunActivity α → Prop
  finished : ∀ {α : Type} (result : Except Interruption α), Holds (.finished result)
  bind : ∀ {α β : Type} {activity : RunActivity α} {next : α → RunActivity β},
    Holds activity → (∀ value, Holds (next value)) → Holds (activity.bind next)
  attempt : ∀ {α : Type} {activity : RunActivity α}, Holds activity → Holds activity.attempt
  look : ∀ {α : Type} {next : Bool → RunActivity α},
    (∀ stopping, Holds (next stopping)) → Holds (.perform (.action .isStopping) next)
  log : ∀ level message, Holds (Run.log level message)
  report : ∀ event, Holds (Run.report event)

namespace Habit

variable {habit : Habit} {registry : Registry}

/-- Whether the calls of a name have a habit. -/
def HasCalls (habit : Habit) (registry : Registry) (name : String) : Prop :=
  ∀ tokens resolution, registry.resolve name tokens = .ok resolution →
    habit.Holds (callResolved resolution)

theorem isStopping_holds : habit.Holds isStopping :=
  habit.look fun _ => habit.finished _

theorem failIfStopping_holds : habit.Holds failIfStopping := by
  refine habit.look fun stopping => ?_
  cases stopping <;> exact habit.finished _

/-! ### Steps -/

theorem perform_holds {name : String} (calls : habit.HasCalls registry name)
    {tokens : RunActivity (List String)} (holds : habit.Holds tokens) :
    habit.Holds (perform registry name tokens) := by
  refine habit.bind failIfStopping_holds fun _ => ?_
  refine habit.bind holds fun found => ?_
  refine habit.bind failIfStopping_holds fun _ => ?_
  cases resolved : registry.resolve name found with
  | ok resolution => exact calls found resolution resolved
  | error fault => exact habit.finished _

variable {step : RunActivity Value}

theorem reported_holds (name : String) (holds : habit.Holds step) :
    habit.Holds (reported name step) := by
  refine habit.bind (habit.attempt holds) fun result => ?_
  refine habit.bind ?_ fun _ => habit.finished _
  refine habit.bind isStopping_holds fun signalSet => ?_
  refine habit.bind (habit.finished _) fun line => ?_
  exact habit.bind (habit.log _ _) fun _ => habit.report _

theorem tokenOf_holds (holds : habit.Holds step) :
    habit.Holds (tokenOf step) := by
  refine habit.bind holds fun _ => ?_
  exact habit.bind isStopping_holds fun _ => habit.finished _

mutual

theorem argumentToken_holds : (argument : Argument) →
    (∀ name ∈ StepTree.postorderAll (StepTree.ofArgument registry argument),
      habit.HasCalls registry name) →
    habit.Holds (argumentToken registry argument)
  | .token text, calls => by
      rw [argumentToken]
      split
      next isNullary =>
        have callsText : habit.HasCalls registry text := by
          apply calls
          simp [StepTree.ofArgument, isNullary, StepTree.postorderAll, StepTree.postorder]
        exact tokenOf_holds (reported_holds _ (perform_holds callsText (habit.finished _)))
      · exact habit.finished _
  | .step name arguments, calls => by
      have names : StepTree.postorderAll (StepTree.ofArgument registry (.step name arguments)) =
          StepTree.postorderAll (StepTree.ofArguments registry arguments) ++ [name] := by
        simp [StepTree.ofArgument, StepTree.postorderAll, StepTree.postorder]
      rw [names] at calls
      rw [argumentToken]
      refine tokenOf_holds (reported_holds _
        (perform_holds (calls name (by simp)) (tokensOf_holds arguments ?_)))
      exact fun inner member => calls inner (List.mem_append_left _ member)

theorem tokensOf_holds : (arguments : List Argument) →
    (∀ name ∈ StepTree.postorderAll (StepTree.ofArguments registry arguments),
      habit.HasCalls registry name) →
    habit.Holds (tokensOf registry arguments)
  | [], _ => habit.finished _
  | argument :: rest, calls => by
      rw [StepTree.ofArguments, postorderAll_append] at calls
      rw [tokensOf]
      refine habit.bind (argumentToken_holds argument fun name member => ?_) fun _ => ?_
      · exact calls name (List.mem_append_left _ member)
      refine habit.bind (tokensOf_holds rest fun name member => ?_) fun _ => habit.finished _
      exact calls name (List.mem_append_right _ member)

end

/-- A step has the habits of the calls within its reach. -/
theorem invoke_holds (step : Script.Step)
    (calls : ∀ name ∈ (StepTree.ofStep registry step).postorder, habit.HasCalls registry name) :
    habit.Holds (invoke registry step) := by
  rw [StepTree.ofStep, StepTree.postorder] at calls
  have tokens : habit.Holds (tokensOf registry step.arguments) :=
    tokensOf_holds _ fun name member => calls name (List.mem_append_left _ member)
  refine habit.bind (habit.attempt (reported_holds _
    (perform_holds (calls step.name (by simp)) tokens))) fun result => ?_
  rcases result with (fault | _) | value <;> exact habit.finished _

/-! ### Blocks and programs -/

variable {steps : List Script.Step}

theorem noteSteps_holds (index : Nat)
    (calls : ∀ name ∈ namesOf registry steps, habit.HasCalls registry name) :
    habit.Holds (noteSteps registry index steps) := by
  induction steps with
  | nil => exact habit.finished _
  | cons step rest hypothesis =>
      rw [namesOf, List.flatMap_cons] at calls
      have goesOn := hypothesis fun name member =>
        calls name (List.mem_append_right _ member)
      rw [noteSteps]
      refine habit.bind isStopping_holds fun stopping => ?_
      cases stopping with
      | true => exact habit.finished _
      | false =>
          refine habit.bind (invoke_holds step fun name member =>
            calls name (List.mem_append_left _ member)) fun outcome => ?_
          cases outcome with
          | cancelled => exact habit.finished _
          | success value => exact habit.bind goesOn fun _ => habit.finished _
          | failed message continued =>
              cases continued with
              | false => exact habit.bind (habit.log _ _) fun _ => habit.finished _
              | true => exact habit.bind goesOn fun _ => habit.finished _

theorem notePasses_holds (index : Nat) (passes : Nat)
    (calls : ∀ name ∈ namesOf registry steps, habit.HasCalls registry name) :
    habit.Holds (notePasses registry index steps passes) := by
  induction passes with
  | zero => exact habit.finished _
  | succ passes hypothesis =>
      refine habit.bind (noteSteps_holds index calls) fun pass => ?_
      obtain ⟨state, findings⟩ := pass
      cases state with
      | completed => exact habit.bind hypothesis fun _ => habit.finished _
      | _ => exact habit.finished _

/-- A bounded block has the habits of the calls within its reach. -/
theorem noteBounded_holds (index : Nat) {block : Block}
    (calls : ∀ name ∈ namesOf registry block.steps, habit.HasCalls registry name) :
    habit.Holds (noteBounded registry index block) := by
  refine habit.bind (habit.log _ _) fun _ => ?_
  split
  · exact habit.finished _
  · exact notePasses_holds index _ calls

/-- A walk has the habits of the calls of its bounded blocks and of the starts of its loops. -/
theorem noteWalk_holds (index loops : Nat) {blocks : List Block}
    (starts : ∀ index, ∀ block ∈ blocks, block.repetition.isUnbounded = true →
      habit.Holds (spawn index block))
    (calls : ∀ block ∈ blocks, block.repetition.isUnbounded = false →
      ∀ name ∈ namesOf registry block.steps, habit.HasCalls registry name) :
    habit.Holds (noteWalk registry index loops blocks) := by
  induction blocks generalizing index loops with
  | nil => exact habit.finished _
  | cons block rest hypothesis =>
      have goesOn := fun index loops => hypothesis index loops
        (fun index later member => starts index later (List.mem_cons_of_mem _ member))
        (fun later member => calls later (List.mem_cons_of_mem _ member))
      rw [noteWalk]
      refine habit.bind isStopping_holds fun stopping => ?_
      cases stopping with
      | true => exact habit.finished _
      | false =>
          cases repetition : block.repetition with
          | forever =>
              have started := starts index block List.mem_cons_self (by rw [repetition]; rfl)
              refine habit.bind (habit.log _ _) fun _ => habit.bind started fun _ => ?_
              exact habit.bind (goesOn _ _) fun _ => habit.finished _
          | times count =>
              have named := calls block List.mem_cons_self (by rw [repetition]; rfl)
              refine habit.bind (noteBounded_holds index named) fun bounded => ?_
              obtain ⟨state, findings⟩ := bounded
              cases state with
              | completed => exact habit.bind (goesOn _ _) fun _ => habit.finished _
              | _ => exact habit.finished _

/-- A pass of a loop has the habits of the calls within its reach. -/
theorem loopSteps_holds (state : LoopState) (resolved : Bool)
    (calls : ∀ name ∈ namesOf registry steps, habit.HasCalls registry name) :
    habit.Holds (loopSteps registry state resolved steps) := by
  induction steps generalizing resolved with
  | nil => exact habit.finished _
  | cons step rest hypothesis =>
      rw [namesOf, List.flatMap_cons] at calls
      have goesOn := fun resolved => hypothesis resolved fun name member =>
        calls name (List.mem_append_right _ member)
      rw [loopSteps]
      refine habit.bind isStopping_holds fun stopping => ?_
      cases stopping with
      | true => exact habit.finished _
      | false =>
          refine habit.bind (invoke_holds step fun name member =>
            calls name (List.mem_append_left _ member)) fun outcome => ?_
          match outcome with
          | .cancelled => exact habit.finished _
          | .failed message false => exact habit.bind (habit.log _ _) fun _ => habit.finished _
          | .failed message true => exact goesOn _
          | .success value => exact goesOn _

end Habit

end InputScript.Interleaving
