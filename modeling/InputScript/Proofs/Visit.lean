/-
Module: InputScript.Proofs.Visit
Purpose: Trees of steps, and the visits that a step and its children get when the step is invoked.
  A visit says which children were entered, whether the operation was called, how the step ended and
  how its report went; its deeds are the calls and reports in the order in which they are made.
Main exports: ofStep, postorder, Emission, Visited.last_entered
-/
import InputScript.Proofs.Exchange
import InputScript.Proofs.Written
import InputScript.Run.Invoke
import Mathlib.Data.List.Forall2

namespace InputScript.Reporting

open Catalog Script Run

/-! ### Trees -/

/-- A step with its children: its nested steps, and its bare arguments that name an operation without
parameters. -/
inductive StepTree where
  | node (name : String) (children : List StepTree)

namespace StepTree

mutual

/-- The child that an argument makes, if it makes one. -/
def ofArgument (registry : Registry) : Argument → List StepTree
  | .token text => if registry.isZeroArity text then [.node text []] else []
  | .step name arguments => [.node name (ofArguments registry arguments)]

/-- The children that arguments make. -/
def ofArguments (registry : Registry) : List Argument → List StepTree
  | [] => []
  | argument :: rest => ofArgument registry argument ++ ofArguments registry rest

end

/-- The tree of a step. -/
def ofStep (registry : Registry) (step : Step) : StepTree :=
  .node step.name (ofArguments registry step.arguments)

mutual

/-- The names of a tree, those of the children first. -/
def postorder : StepTree → List String
  | .node name children => postorderAll children ++ [name]

/-- The names of several trees. -/
def postorderAll : List StepTree → List String
  | [] => []
  | tree :: rest => postorder tree ++ postorderAll rest

end

end StepTree

/-! ### Visits -/

/-- A call of an action. -/
structure CallRecord where
  label : String
  arguments : List Value

/-- What others see of an invocation. -/
inductive Deed where
  | called (call : CallRecord)
  | reported (event : StepEvent)

namespace Deed

/-- The call, if it is one. -/
def call? : Deed → Option CallRecord
  | .called call => some call
  | .reported _ => none

/-- The event, if it is a report. -/
def event? : Deed → Option StepEvent
  | .called _ => none
  | .reported event => some event

end Deed

/-- How the report of an outcome goes. -/
inductive Emission where
  | done
  /-- The outcome has no written form, and nothing goes out. -/
  | unwritten
  /-- The log line cannot be written, and the event does not go out. -/
  | unlogged (fault : Fault)
  /-- The event goes out, and its observer fails. -/
  | refused (fault : Fault)

namespace Emission

/-- What the report of an outcome ends with. -/
def ending : Emission → Except Interruption Unit
  | .done => .ok ()
  | .unwritten => .error (.fault (.ofValue Number.unwrittenMessage))
  | .unlogged fault | .refused fault => .error (.fault fault)

/-- Whether the event goes out. -/
def isReported : Emission → Bool
  | .done | .refused _ => true
  | .unwritten | .unlogged _ => false

end Emission

/-- Whether an outcome has a log line. -/
def HasLine : Outcome → Prop
  | .success value => value.IsWritable
  | _ => True

/-- What happened to a step that was entered: the visits of the children that were entered, from left
to right, the call if there was one, how the step ended, and how its report went. -/
inductive Visit where
  | step (name : String) (entered : List Visit) (call : Option CallRecord)
      (result : Except Interruption Value) (emission : Emission)

namespace Visit

/-- The visits of the children that were entered. -/
def entered : Visit → List Visit
  | .step _ entered _ _ _ => entered

/-- The call of the action, if there was one. -/
def call : Visit → Option CallRecord
  | .step _ _ call _ _ => call

/-- How the report of the outcome went. -/
def emission : Visit → Emission
  | .step _ _ _ _ emission => emission

/-- The event of the step. -/
def event : Visit → StepEvent
  | .step name _ _ result _ => ⟨name, outcomeOf result⟩

/-- The outcome of the step. -/
def outcome (visit : Visit) : Outcome := visit.event.outcome

/-- How a step ends for the step around it: a report that fails takes the place of the result. -/
def ending : Visit → Except Interruption Value
  | .step _ _ _ result emission =>
    match emission.ending with
    | .ok _ => result
    | .error interruption => .error interruption

mutual

/-- The steps that were entered, those inside a step before it. -/
def steps : Visit → List Visit
  | .step name entered call result emission =>
    stepsOfAll entered ++ [.step name entered call result emission]

/-- The steps of several visits. -/
def stepsOfAll : List Visit → List Visit
  | [] => []
  | visit :: rest => steps visit ++ stepsOfAll rest

end

/-- The report of a step, if it goes out. -/
def ownReport (visit : Visit) : List Deed :=
  if visit.emission.isReported then [.reported visit.event] else []

mutual

/-- The calls and reports of a visit: those of the children, then the call, then the report. -/
def deeds : Visit → List Deed
  | .step name entered call result emission =>
    deedsOfAll entered ++ call.toList.map .called ++
      ownReport (.step name entered call result emission)

/-- The calls and reports of several visits. -/
def deedsOfAll : List Visit → List Deed
  | [] => []
  | visit :: rest => deeds visit ++ deedsOfAll rest

end

/-- All reports went through. -/
def IsSmooth (visit : Visit) : Prop :=
  ∀ inner ∈ visit.steps, inner.emission = .done

/-- All outcomes have log lines. -/
def IsWritten (visit : Visit) : Prop :=
  ∀ inner ∈ visit.steps, HasLine inner.outcome

end Visit

/-- `Calls registry name call result`: the call is one of an overload that the registry chooses for
the name and some tokens, and the operation can end with the result. -/
def Calls (registry : Registry) (name : String) (call : CallRecord)
    (result : Except Interruption Value) : Prop :=
  ∃ tokens resolution exchanges, registry.resolve name tokens = .ok resolution ∧
    call = ⟨resolution.overload.implementation.label, resolution.arguments⟩ ∧
    (callResolved resolution).Runs exchanges result

/-- `Declines registry name fault`: the run is to be stopped, or the registry has no overload for the
name and some tokens. -/
def Declines (registry : Registry) (name : String) (fault : Fault) : Prop :=
  fault = .stop ∨ ∃ tokens, registry.resolve name tokens = .error fault

/-- The report goes wrong for want of a log line exactly if there is none. -/
def Emission.Fits (emission : Emission) (result : Except Interruption Value) : Prop :=
  emission = .unwritten ↔ ¬ HasLine (outcomeOf result)

mutual

/-- `Visited registry tree visit`: the visit is one that the step at the root of the tree can get. -/
inductive Visited (registry : Registry) : StepTree → Visit → Prop where
  /-- The run is to be stopped already. -/
  | refused {name : String} {children : List StepTree} {emission : Emission}
      (fits : emission.Fits (.error (.fault .stop))) :
      Visited registry (.node name children) (.step name [] none (.error (.fault .stop)) emission)
  /-- A child is interrupted, and the step ends as the child does. -/
  | halted {name : String} {children : List StepTree} {entered : List Visit}
      {interruption : Interruption} {emission : Emission}
      (inside : Entered registry children entered (some interruption))
      (fits : emission.Fits (.error interruption)) :
      Visited registry (.node name children)
        (.step name entered none (.error interruption) emission)
  /-- All children have values, but there is no call. -/
  | uncalled {name : String} {children : List StepTree} {entered : List Visit} {fault : Fault}
      {emission : Emission} (inside : Entered registry children entered none)
      (declines : Declines registry name fault) (fits : emission.Fits (.error (.fault fault))) :
      Visited registry (.node name children)
        (.step name entered none (.error (.fault fault)) emission)
  | called {name : String} {children : List StepTree} {entered : List Visit} {call : CallRecord}
      {result : Except Interruption Value} {emission : Emission}
      (inside : Entered registry children entered none) (calls : Calls registry name call result)
      (fits : emission.Fits result) :
      Visited registry (.node name children) (.step name entered (some call) result emission)

/-- `Entered registry children entered interrupted`: the children are entered one after another, up
to the first one that is interrupted. -/
inductive Entered (registry : Registry) :
    List StepTree → List Visit → Option Interruption → Prop where
  | all : Entered registry [] [] none
  | last {child : StepTree} {skipped : List StepTree} {visit : Visit} {interruption : Interruption}
      (first : Visited registry child visit) (ends : visit.ending = .error interruption) :
      Entered registry (child :: skipped) [visit] (some interruption)
  | next {child : StepTree} {children : List StepTree} {visit : Visit} {entered : List Visit}
      {interrupted : Option Interruption} {value : Value}
      (first : Visited registry child visit) (ends : visit.ending = .ok value)
      (rest : Entered registry children entered interrupted) :
      Entered registry (child :: children) (visit :: entered) interrupted

end

/-! ### The steps of a visit -/

namespace Visit

theorem stepsOfAll_eq_flatMap (visits : List Visit) : stepsOfAll visits = visits.flatMap steps := by
  induction visits with
  | nil => rfl
  | cons visit rest hypothesis =>
      rw [stepsOfAll, hypothesis, List.flatMap_cons]

theorem deedsOfAll_eq_flatMap (visits : List Visit) : deedsOfAll visits = visits.flatMap deeds := by
  induction visits with
  | nil => rfl
  | cons visit rest hypothesis =>
      rw [deedsOfAll, hypothesis, List.flatMap_cons]

theorem mem_stepsOfAll {inner : Visit} {visits : List Visit} :
    inner ∈ stepsOfAll visits ↔ ∃ visit ∈ visits, inner ∈ visit.steps := by
  rw [stepsOfAll_eq_flatMap, List.mem_flatMap]

variable {visit : Visit}

theorem mem_steps {inner : Visit} :
    inner ∈ visit.steps ↔ inner ∈ stepsOfAll visit.entered ∨ inner = visit := by
  cases visit with
  | step name entered call result emission => simp [steps, Visit.entered]

theorem self_mem_steps (visit : Visit) : visit ∈ visit.steps := mem_steps.mpr (.inr rfl)

theorem IsSmooth.emission_eq (smooth : visit.IsSmooth) : visit.emission = .done :=
  smooth visit visit.self_mem_steps

mutual

theorem steps_trans {inner deep : Visit} : (visit : Visit) → inner ∈ visit.steps →
    deep ∈ inner.steps → deep ∈ visit.steps
  | .step name entered call result emission => by
      intro inside deeper
      rcases mem_steps.mp inside with below | rfl
      · exact mem_steps.mpr (.inl (stepsOfAll_trans entered below deeper))
      · exact deeper

theorem stepsOfAll_trans {inner deep : Visit} : (visits : List Visit) → inner ∈ stepsOfAll visits →
    deep ∈ inner.steps → deep ∈ stepsOfAll visits
  | [] => by
      intro inside
      cases inside
  | visit :: rest => by
      intro inside deeper
      rw [stepsOfAll, List.mem_append] at inside ⊢
      rcases inside with early | late
      · exact .inl (steps_trans visit early deeper)
      · exact .inr (stepsOfAll_trans rest late deeper)

end

theorem IsSmooth.inner {inner : Visit} (smooth : visit.IsSmooth) (inside : inner ∈ visit.steps) :
    inner.IsSmooth := by
  intro deep deeper
  exact smooth deep (steps_trans visit inside deeper)

theorem IsSmooth.child {child : Visit} (smooth : visit.IsSmooth) (member : child ∈ visit.entered) :
    child.IsSmooth := by
  apply smooth.inner
  apply mem_steps.mpr
  exact .inl (mem_stepsOfAll.mpr ⟨child, member, child.self_mem_steps⟩)

mutual

/-- The events that go out are those of the entered steps that are reported, in their order. -/
theorem events_deeds : (visit : Visit) →
    visit.deeds.filterMap Deed.event? =
      (visit.steps.filter (·.emission.isReported)).map event
  | .step name entered call result emission => by
      have inside := events_deedsOfAll entered
      have noCall : (call.toList.map Deed.called).filterMap Deed.event? = [] := by
        cases call <;> rfl
      rw [deeds, steps, List.filterMap_append, List.filterMap_append, inside, noCall,
        List.filter_append, List.map_append, List.append_nil]
      cases emission <;> rfl

theorem events_deedsOfAll : (visits : List Visit) →
    (deedsOfAll visits).filterMap Deed.event? =
      ((stepsOfAll visits).filter (·.emission.isReported)).map event
  | [] => rfl
  | visit :: rest => by
      rw [deedsOfAll, stepsOfAll, List.filterMap_append, events_deeds visit,
        events_deedsOfAll rest, List.filter_append, List.map_append]

end

/-- As many events go out as steps are entered exactly if every step is reported. -/
theorem length_events_deeds (visit : Visit) :
    (visit.deeds.filterMap Deed.event?).length = visit.steps.length ↔
      ∀ inner ∈ visit.steps, inner.emission.isReported = true := by
  rw [events_deeds, List.length_map, List.length_filter_eq_length_iff]

theorem IsSmooth.events_eq (smooth : visit.IsSmooth) :
    visit.deeds.filterMap Deed.event? = visit.steps.map event := by
  have reported : ∀ inner ∈ visit.steps, inner.emission.isReported = true := by
    intro inner inside
    rw [smooth inner inside]
    rfl
  rw [events_deeds, List.filter_eq_self.mpr reported]

theorem getLast?_steps (visit : Visit) : visit.steps.getLast? = some visit := by
  cases visit with
  | step name entered call result emission => simp [steps]

end Visit

/-! ### What is passed on -/

/-- Whether an outcome is a success. -/
def Succeeds : Outcome → Prop
  | .success _ => True
  | _ => False

section Visited

variable {registry : Registry} {visit : Visit}

theorem Visit.IsSmooth.outcome_eq (smooth : visit.IsSmooth) :
    visit.outcome = outcomeOf visit.ending := by
  cases visit with
  | step name entered call result emission =>
      obtain rfl : emission = .done := smooth.emission_eq
      rfl

theorem not_succeeds_error (interruption : Interruption) :
    ¬ Succeeds (outcomeOf (.error interruption)) := by
  cases interruption with
  | fault fault => cases fault <;> exact id
  | revoked => exact id

mutual

/-- Every step that is entered gets a visit that some step can get. -/
theorem Visited.inner {tree : StepTree} {visit : Visit} (visited : Visited registry tree visit) :
    ∀ inner ∈ visit.steps, ∃ subtree, Visited registry subtree inner := by
  intro inner inside
  rcases Visit.mem_steps.mp inside with below | rfl
  · cases visited with
    | refused fits => cases below
    | halted entered | uncalled entered | called entered => exact entered.inner inner below
  · exact ⟨tree, visited⟩

theorem Entered.inner {children : List StepTree} {visits : List Visit}
    {interrupted : Option Interruption} (entered : Entered registry children visits interrupted) :
    ∀ inner ∈ Visit.stepsOfAll visits, ∃ subtree, Visited registry subtree inner := by
  intro inner inside
  cases entered with
  | all => cases inside
  | last first ends =>
      rw [Visit.stepsOfAll, Visit.stepsOfAll, List.append_nil] at inside
      exact first.inner inner inside
  | next first ends rest =>
      rw [Visit.stepsOfAll, List.mem_append] at inside
      rcases inside with early | late
      · exact first.inner inner early
      · exact rest.inner inner late

end

mutual

/-- A step inside of which something does not succeed is not called, and its outcome is the same. -/
theorem Visited.passes_on {tree : StepTree} {visit : Visit} (visited : Visited registry tree visit)
    (smooth : visit.IsSmooth) {inner : Visit} (inside : inner ∈ Visit.stepsOfAll visit.entered)
    (fails : ¬ Succeeds inner.outcome) : visit.call = none ∧ visit.outcome = inner.outcome := by
  cases visited with
  | refused fits => cases inside
  | halted entered fits =>
      obtain ⟨_, same, outcome⟩ := entered.passes_on (fun _ member => smooth.child member) inside fails
      cases same
      exact ⟨rfl, outcome.symm⟩
  | uncalled entered | called entered =>
      obtain ⟨_, impossible, _⟩ := entered.passes_on (fun _ member => smooth.child member) inside fails
      cases impossible

theorem Entered.passes_on {children : List StepTree} {visits : List Visit}
    {interrupted : Option Interruption} (entered : Entered registry children visits interrupted)
    (smooth : ∀ visit ∈ visits, visit.IsSmooth) {inner : Visit}
    (inside : inner ∈ Visit.stepsOfAll visits) (fails : ¬ Succeeds inner.outcome) :
    ∃ interruption, interrupted = some interruption ∧
      inner.outcome = outcomeOf (.error interruption) := by
  cases entered with
  | all => cases inside
  | @last _ _ visit interruption first ends =>
      have smoothFirst := smooth visit List.mem_cons_self
      have outcome : visit.outcome = outcomeOf (.error interruption) := by
        rw [smoothFirst.outcome_eq, ends]
      rw [Visit.stepsOfAll, Visit.stepsOfAll, List.append_nil, Visit.mem_steps] at inside
      rcases inside with below | rfl
      · exact ⟨_, rfl, (first.passes_on smoothFirst below fails).2 ▸ outcome⟩
      · exact ⟨_, rfl, outcome⟩
  | @next _ _ visit _ _ value first ends rest =>
      have smoothFirst := smooth visit List.mem_cons_self
      have outcome : visit.outcome = .success value := by
        rw [smoothFirst.outcome_eq, ends]
        rfl
      rw [Visit.stepsOfAll, List.mem_append, Visit.mem_steps] at inside
      rcases inside with (below | rfl) | late
      · rw [← (first.passes_on smoothFirst below fails).2, outcome] at fails
        exact absurd trivial fails
      · rw [outcome] at fails
        exact absurd trivial fails
      · exact rest.passes_on (fun other member => smooth other (List.mem_cons_of_mem _ member))
          late fails

end

variable {children : List StepTree} {visits : List Visit}

/-- Nothing is entered to the right of a child that does not succeed. -/
theorem Entered.last_entered {interrupted : Option Interruption}
    (entered : Entered registry children visits interrupted)
    (smooth : ∀ visit ∈ visits, visit.IsSmooth) {earlier later : List Visit} {inner : Visit}
    (split : visits = earlier ++ inner :: later) (fails : ¬ Succeeds inner.outcome) :
    later = [] := by
  induction earlier generalizing children visits with
  | nil =>
      cases entered with
      | all => cases split
      | last first ends =>
          cases split
          rfl
      | next first ends rest =>
          cases split
          rw [(smooth inner List.mem_cons_self).outcome_eq, ends] at fails
          exact absurd trivial fails
  | cons visit earlier hypothesis =>
      cases entered with
      | all => cases split
      | last first ends => simp at split
      | next first ends rest =>
          rw [List.cons_append, List.cons.injEq] at split
          exact hypothesis rest
            (fun other member => smooth other (List.mem_cons_of_mem _ member)) split.2

variable {tree : StepTree}

theorem Visited.last_entered (visited : Visited registry tree visit) (smooth : visit.IsSmooth)
    {earlier later : List Visit} {inner : Visit}
    (split : visit.entered = earlier ++ inner :: later) (fails : ¬ Succeeds inner.outcome) :
    later = [] := by
  have children : ∀ child ∈ visit.entered, child.IsSmooth := fun _ member => smooth.child member
  cases visited with
  | refused fits => simp [Visit.entered] at split
  | halted entered | uncalled entered | called entered =>
      exact entered.last_entered children split fails

theorem Entered.extend {interruption : Interruption}
    (entered : Entered registry children visits (some interruption)) (more : List StepTree) :
    Entered registry (children ++ more) visits (some interruption) := by
  generalize interruptedEq : some interruption = interrupted at entered
  induction visits generalizing children with
  | nil =>
      cases entered with
      | all => cases interruptedEq
  | cons visit visits hypothesis =>
      cases entered with
      | last first ends =>
          exact .last first ends
      | next first ends rest => exact .next first ends (hypothesis rest)

theorem Entered.append {more : List StepTree} {later : List Visit}
    {interrupted : Option Interruption} (entered : Entered registry children visits none)
    (after : Entered registry more later interrupted) :
    Entered registry (children ++ more) (visits ++ later) interrupted := by
  generalize interruptedEq : (none : Option Interruption) = before at entered
  induction visits generalizing children with
  | nil =>
      cases entered with
      | all => exact after
  | cons visit visits hypothesis =>
      cases entered with
      | last first ends => cases interruptedEq
      | next first ends rest => exact .next first ends (hypothesis rest)

/-! ### Whole trees -/

/-- `Complete registry names deeds`: the names in turn are called and report the values that the
calls have, and nothing else is called or reported. -/
structure Complete (registry : Registry) (names : List String) (deeds : List Deed) : Prop where
  events : (deeds.filterMap Deed.event?).map (·.name) = names
  calls : List.Forall₂
    (fun event call =>
      ∃ value, event.outcome = .success value ∧ Calls registry event.name call (.ok value))
    (deeds.filterMap Deed.event?) (deeds.filterMap Deed.call?)

namespace Complete

variable {first second : List String} {deeds later : List Deed}

theorem nil : Complete registry [] [] where
  events := rfl
  calls := .nil

theorem append (before : Complete registry first deeds) (after : Complete registry second later) :
    Complete registry (first ++ second) (deeds ++ later) where
  events := by simp [before.events, after.events]
  calls := by
    rw [List.filterMap_append, List.filterMap_append]
    exact List.rel_append before.calls after.calls

theorem single {name : String} {call : CallRecord} {value : Value}
    (calls : Calls registry name call (.ok value)) :
    Complete registry [name] [.called call, .reported ⟨name, .success value⟩] where
  events := rfl
  calls := .cons ⟨value, rfl, calls⟩ .nil

end Complete

mutual

/-- A step that succeeds has been called after all its children, which have been called and have
succeeded too. -/
theorem Visited.complete {tree : StepTree} {visit : Visit} (visited : Visited registry tree visit)
    (smooth : visit.IsSmooth) (succeeds : Succeeds visit.outcome) :
    Complete registry tree.postorder visit.deeds := by
  cases visited with
  | refused fits => exact absurd succeeds (not_succeeds_error (.fault .stop))
  | halted entered fits => exact absurd succeeds (not_succeeds_error _)
  | @uncalled _ _ _ fault _ entered declines fits =>
      exact absurd succeeds (not_succeeds_error (.fault fault))
  | @called name children visits call result emission entered calls fits =>
      obtain rfl : emission = .done := smooth.emission_eq
      cases result with
      | error interruption => exact absurd succeeds (not_succeeds_error interruption)
      | ok value =>
          rw [StepTree.postorder, Visit.deeds, List.append_assoc]
          exact (entered.complete (fun _ member => smooth.child member) rfl).append (.single calls)

theorem Entered.complete {children : List StepTree} {visits : List Visit}
    {interrupted : Option Interruption} (entered : Entered registry children visits interrupted)
    (smooth : ∀ visit ∈ visits, visit.IsSmooth) (all : interrupted = none) :
    Complete registry (StepTree.postorderAll children) (Visit.deedsOfAll visits) := by
  cases entered with
  | all => exact .nil
  | last first ends => cases all
  | @next _ _ visit _ _ value first ends rest =>
      have smoothFirst := smooth visit List.mem_cons_self
      have succeeds : Succeeds visit.outcome := by
        rw [smoothFirst.outcome_eq, ends]
        trivial
      rw [StepTree.postorderAll, Visit.deedsOfAll]
      exact (first.complete smoothFirst succeeds).append
        (rest.complete (fun other member => smooth other (List.mem_cons_of_mem _ member)) all)

end

/-! ### Being called off -/

/-- Whether the operation of a step was called and was called off. -/
def Visit.WasRevoked (visit : Visit) : Prop :=
  visit.call ≠ none ∧ visit.ending = .error .revoked

mutual

/-- A step is called off only if an operation inside of it is. -/
theorem Visited.revoked {tree : StepTree} {visit : Visit} (visited : Visited registry tree visit)
    (revoked : visit.ending = .error .revoked) : ∃ inner ∈ visit.steps, inner.WasRevoked := by
  cases visited with
  | @refused _ _ emission fits => cases emission <;> cases revoked
  | @halted name children visits interruption emission entered fits =>
      cases emission with
      | done =>
          cases revoked
          obtain ⟨inner, inside, wasRevoked⟩ := entered.revoked rfl
          exact ⟨inner, Visit.mem_steps.mpr (.inl inside), wasRevoked⟩
      | _ => cases revoked
  | @uncalled _ _ _ fault emission entered declines fits => cases emission <;> cases revoked
  | called entered calls fits => exact ⟨_, Visit.self_mem_steps _, nofun, revoked⟩

theorem Entered.revoked {children : List StepTree} {visits : List Visit}
    {interrupted : Option Interruption} (entered : Entered registry children visits interrupted)
    (revoked : interrupted = some .revoked) :
    ∃ inner ∈ Visit.stepsOfAll visits, inner.WasRevoked := by
  cases entered with
  | all => cases revoked
  | last first ends =>
      cases revoked
      rw [Visit.stepsOfAll, Visit.stepsOfAll, List.append_nil]
      exact first.revoked ends
  | next first ends rest =>
      obtain ⟨inner, inside, wasRevoked⟩ := rest.revoked revoked
      exact ⟨inner, List.mem_append_right _ inside, wasRevoked⟩

end

/-! ### Reports that go through -/

theorem Visited.fits (visited : Visited registry tree visit) :
    visit.emission = .unwritten ↔ ¬ HasLine visit.outcome := by
  cases visited <;> assumption

/-- A step that has a value for the step around it has reported it. -/
theorem Visited.isWritable (visited : Visited registry tree visit) {value : Value}
    (ends : visit.ending = .ok value) : value.IsWritable := by
  have fits := visited.fits
  cases visit with
  | step name entered call result emission =>
      cases emission with
      | done =>
          obtain rfl : result = .ok value := ends
          by_contra unwritable
          cases fits.mpr unwritable
      | _ => cases ends

theorem Visit.isSmooth_step {name : String} {entered : List Visit} {call : Option CallRecord}
    {result : Except Interruption Value}
    (smooth : ∀ inner ∈ Visit.stepsOfAll entered, inner.emission = .done) :
    (Visit.step name entered call result .done).IsSmooth := by
  intro inner inside
  rcases Visit.mem_steps.mp inside with below | rfl
  · exact smooth inner below
  · rfl

mutual

/-- In a step that has a value for the step around it all reports have gone through. -/
theorem Visited.isSmooth {tree : StepTree} {visit : Visit} (visited : Visited registry tree visit)
    {value : Value} (ends : visit.ending = .ok value) : visit.IsSmooth := by
  cases visited with
  | @refused _ _ emission fits => cases emission <;> cases ends
  | @halted _ _ _ _ emission entered fits => cases emission <;> cases ends
  | @uncalled _ _ _ _ emission entered declines fits => cases emission <;> cases ends
  | @called _ _ _ _ _ emission entered calls fits =>
      cases emission with
      | done => exact Visit.isSmooth_step (entered.isSmooth rfl)
      | _ => cases ends

theorem Entered.isSmooth {children : List StepTree} {visits : List Visit}
    {interrupted : Option Interruption} (entered : Entered registry children visits interrupted)
    (all : interrupted = none) : ∀ inner ∈ Visit.stepsOfAll visits, inner.emission = .done := by
  intro inner inside
  cases entered with
  | all => cases inside
  | last first ends => cases all
  | next first ends rest =>
      rw [Visit.stepsOfAll, List.mem_append] at inside
      rcases inside with early | late
      · exact first.isSmooth ends inner early
      · exact rest.isSmooth all inner late

end

/-- Where no observer fails, all reports go through exactly if all outcomes have log lines. -/
theorem Visited.isSmooth_iff (visited : Visited registry tree visit)
    (heard : ∀ inner ∈ visit.steps, inner.emission = .done ∨ inner.emission = .unwritten) :
    visit.IsSmooth ↔ visit.IsWritten := by
  constructor
  · intro smooth inner inside
    obtain ⟨subtree, below⟩ := visited.inner inner inside
    by_contra noLine
    have unwritten := below.fits.mpr noLine
    rw [smooth inner inside] at unwritten
    cases unwritten
  · intro written inner inside
    obtain ⟨subtree, below⟩ := visited.inner inner inside
    rcases heard inner inside with done | unwritten
    · exact done
    · exact absurd (written inner inside) (below.fits.mp unwritten)

end Visited

end InputScript.Reporting
