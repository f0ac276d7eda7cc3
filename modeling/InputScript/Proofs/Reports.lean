/-
Module: InputScript.Proofs.Reports
Purpose: The events of one invocation.  Every run of an invocation is a visit of the tree of its step:
  the calls and reports of the run are the deeds of the visit.  If all reports go through, each step
  that is entered reports once, after its children, and what does not succeed is passed on unchanged.
Main exports: deedsOf, IsHeard, invoke_visits, invoke_reports
-/
import InputScript.Action.Scripted
import InputScript.Proofs.Visit

namespace InputScript.Reporting

open Catalog Script Run
open Activity (Leads runs_finished runs_perform runs_bind runs_attempt)

/-! ### Deeds of a run -/

/-- What others see of an exchange. -/
def deed? : Activity.Exchange RunRequest.Answer → Option Deed
  | ⟨.call label arguments, _⟩ => some (.called ⟨label, arguments⟩)
  | ⟨.report event, _⟩ => some (.reported event)
  | _ => none

/-- The calls and reports among the exchanges of a run. -/
def deedsOf (exchanges : List (Activity.Exchange RunRequest.Answer)) : List Deed :=
  exchanges.filterMap deed?

/-- Whether an exchange with an observer of the run went well. -/
def IsHeard : Activity.Exchange RunRequest.Answer → Prop
  | ⟨.log _, (answer : Except Fault Unit)⟩ => answer = .ok ()
  | ⟨.report _, (answer : Except Fault Unit)⟩ => answer = .ok ()
  | _ => True

/-- `Accounts exchanges visits deeds`: the exchanges do the deeds, and if all observers hear what they
are told, no report inside the visits fails on their side. -/
structure Accounts (exchanges : List (Activity.Exchange RunRequest.Answer)) (visits : List Visit)
    (deeds : List Deed) : Prop where
  deeds : deedsOf exchanges = deeds
  heard : (∀ exchange ∈ exchanges, IsHeard exchange) →
    ∀ inner ∈ Visit.stepsOfAll visits, inner.emission = .done ∨ inner.emission = .unwritten

section Accounts

variable {first second exchanges : List (Activity.Exchange RunRequest.Answer)}
  {visits more : List Visit} {deeds later : List Deed}

theorem accounts_nil (same : deedsOf exchanges = deeds) : Accounts exchanges [] deeds where
  deeds := same
  heard := by
    intro _ inner inside
    cases inside

theorem Accounts.append (before : Accounts first visits deeds) (after : Accounts second more later) :
    Accounts (first ++ second) (visits ++ more) (deeds ++ later) where
  deeds := by rw [deedsOf, List.filterMap_append, ← before.deeds, ← after.deeds]; rfl
  heard := by
    intro heard inner inside
    rw [Visit.stepsOfAll_eq_flatMap, List.flatMap_append, ← Visit.stepsOfAll_eq_flatMap,
      ← Visit.stepsOfAll_eq_flatMap, List.mem_append] at inside
    rcases inside with early | late
    · exact before.heard (fun exchange member => heard exchange (List.mem_append_left _ member))
        inner early
    · exact after.heard (fun exchange member => heard exchange (List.mem_append_right _ member))
        inner late

/-- Exchanges without deeds in front change nothing. -/
theorem Accounts.after_quiet (quiet : deedsOf first = []) (after : Accounts second visits deeds) :
    Accounts (first ++ second) visits deeds :=
  (accounts_nil quiet).append after

/-- The conclusion of a step completes its visit. -/
theorem Accounts.conclude {name : String} {call : Option CallRecord}
    {result : Except Interruption Value} {emission : Emission}
    (before : Accounts first visits (Visit.deedsOfAll visits ++ call.toList.map Deed.called))
    (deeds : deedsOf second =
      if emission.isReported then [.reported ⟨name, outcomeOf result⟩] else [])
    (heard : (∀ exchange ∈ second, IsHeard exchange) → emission = .done ∨ emission = .unwritten) :
    Accounts (first ++ second) [.step name visits call result emission]
      (Visit.deeds (.step name visits call result emission)) where
  deeds := by
    rw [deedsOf, List.filterMap_append]
    exact congrArg₂ (· ++ ·) before.deeds deeds
  heard := by
    intro all inner inside
    rw [Visit.stepsOfAll, Visit.stepsOfAll, List.append_nil, Visit.mem_steps] at inside
    rcases inside with below | rfl
    · exact before.heard (fun exchange member => all exchange (List.mem_append_left _ member))
        inner below
    · exact heard fun exchange member => all exchange (List.mem_append_right _ member)

end Accounts

/-! ### Runs of the parts of a step -/

section Parts

variable {exchanges : List (Activity.Exchange RunRequest.Answer)} {α : Type}
  {result : Except Interruption α} {activity : ActionActivity α}

theorem ofAction_quiet (ran : (ofAction activity).Runs exchanges result) :
    deedsOf exchanges = [] := by
  induction activity generalizing exchanges with
  | finished ended =>
      obtain ⟨rfl, _⟩ := runs_finished.mp ran
      rfl
  | perform request next hypothesis =>
      obtain ⟨answer, later, rfl, goesOn⟩ := runs_perform.mp ran
      have quiet := hypothesis answer goesOn
      exact quiet

theorem handover_quiet {result : Except Interruption Unit} (ran : handover.Runs exchanges result) :
    deedsOf exchanges = [] := by
  obtain ⟨answer, later, rfl, goesOn⟩ := runs_perform.mp ran
  obtain ⟨rfl, _⟩ := runs_finished.mp goesOn
  rfl

theorem deedsOf_append (first second : List (Activity.Exchange RunRequest.Answer)) :
    deedsOf (first ++ second) = deedsOf first ++ deedsOf second :=
  List.filterMap_append

theorem handedOver_quiet (ran : (handedOver activity).Runs exchanges result) :
    deedsOf exchanges = [] := by
  have after {rest : RunActivity α}
      (quiet : ∀ {exchanges}, rest.Runs exchanges result → deedsOf exchanges = [])
      {exchanges : List (Activity.Exchange RunRequest.Answer)}
      (ran : (handover.bind fun _ => rest).Runs exchanges result) : deedsOf exchanges = [] := by
    rcases runs_bind.mp ran with ⟨first, second, _, rfl, taken, goesOn⟩ | ⟨_, _, taken⟩
    · rw [deedsOf_append, handover_quiet taken, quiet goesOn]
      rfl
    · exact handover_quiet taken
  induction activity generalizing exchanges with
  | finished ended =>
      refine after ?_ ran
      intro exchanges goesOn
      obtain ⟨rfl, _⟩ := runs_finished.mp goesOn
      rfl
  | perform request next hypothesis =>
      rw [handedOver] at ran
      split at ran
      · exact after ofAction_quiet ran
      · obtain ⟨answer, later, rfl, goesOn⟩ := runs_perform.mp ran
        have quiet := hypothesis answer goesOn
        exact quiet

/-- A check of the signal does no deed; it passes or ends the step. -/
theorem failIfStopping_bind_runs {next : Unit → RunActivity α}
    (ran : (failIfStopping.bind next).Runs exchanges result) :
    (∃ first second, exchanges = first ++ second ∧ deedsOf first = [] ∧
      (next ()).Runs second result) ∨
    (deedsOf exchanges = [] ∧ result = .error (.fault .stop)) := by
  obtain ⟨answer, later, rfl, goesOn⟩ := runs_perform.mp ran
  cases answer with
  | false => exact .inl ⟨[_], later, rfl, rfl, goesOn⟩
  | true =>
      obtain ⟨rfl, rfl⟩ := runs_finished.mp goesOn
      exact .inr ⟨rfl, rfl⟩

theorem callResolved_runs {resolution : Resolution} {result : Except Interruption Value}
    (ran : (callResolved resolution).Runs exchanges result) :
    deedsOf exchanges =
      [.called ⟨resolution.overload.implementation.label, resolution.arguments⟩] := by
  obtain ⟨ordinal, later, rfl, goesOn⟩ := runs_perform.mp ran
  suffices quiet : deedsOf later = [] by
    show Deed.called _ :: deedsOf later = _
    rw [quiet]
  change Activity.Runs (if _ then ofAction _ else handedOver _) later result at goesOn
  split at goesOn
  · exact ofAction_quiet goesOn
  · exact handedOver_quiet goesOn

variable {outcome : Outcome}

theorem outcomeLine_of_hasLine (hasLine : HasLine outcome) (signalSet : Bool) (name : String) :
    ∃ line, outcomeLine signalSet name outcome = .ok line := by
  cases outcome with
  | success value =>
      have shown := (Value.isSome_shown? signalSet value).mpr hasLine
      obtain ⟨text, textEq⟩ := Option.isSome_iff_exists.mp shown
      cases value <;> simp [outcomeLine, textEq, Fault.orUnwritten, Except.map]
  | cancelled => exact ⟨_, rfl⟩
  | failed message unresolved => cases unresolved <;> exact ⟨_, rfl⟩

theorem outcomeLine_of_not_hasLine (noLine : ¬ HasLine outcome) (signalSet : Bool) (name : String) :
    outcomeLine signalSet name outcome = .error (.ofValue Number.unwrittenMessage) := by
  cases outcome with
  | success value =>
      have unshown : value.shown? signalSet = none := by
        rw [← Option.not_isSome_iff_eq_none, Value.isSome_shown?]
        exact noLine
      cases value with
      | none => exact absurd .none noLine
      | _ => simp [outcomeLine, unshown, Fault.orUnwritten, Except.map]
  | cancelled => exact absurd trivial noLine
  | failed message unresolved => exact absurd trivial noLine

/-- The conclusion of a step goes one of four ways. -/
theorem conclude_runs {name : String} {ended : Except Interruption Unit}
    (ran : (conclude name outcome).Runs exchanges ended) :
    ∃ emission : Emission, (emission = .unwritten ↔ ¬ HasLine outcome) ∧
      ended = emission.ending ∧
      deedsOf exchanges = (if emission.isReported then [.reported ⟨name, outcome⟩] else []) ∧
      ((∀ exchange ∈ exchanges, IsHeard exchange) → emission = .done ∨ emission = .unwritten) := by
  obtain ⟨signalSet, later, rfl, goesOn⟩ := runs_perform.mp ran
  change Activity.Runs ((Activity.ofExcept (outcomeLine signalSet name outcome)).bind fun line =>
    (log line.level line.message).bind fun _ => report ⟨name, outcome⟩) later ended at goesOn
  by_cases hasLine : HasLine outcome
  · obtain ⟨line, lineEq⟩ := outcomeLine_of_hasLine hasLine signalSet name
    rw [lineEq] at goesOn
    obtain ⟨logged, rest, rfl, afterLog⟩ := runs_perform.mp goesOn
    cases logged with
    | error fault =>
        obtain ⟨rfl, rfl⟩ := runs_finished.mp afterLog
        refine ⟨.unlogged fault, by simp [hasLine], rfl, rfl, ?_⟩
        intro heard
        cases heard _ (List.mem_cons_of_mem _ List.mem_cons_self)
    | ok _ =>
        obtain ⟨noticed, last, rfl, afterReport⟩ := runs_perform.mp afterLog
        obtain ⟨rfl, rfl⟩ := runs_finished.mp afterReport
        cases noticed with
        | error fault =>
            refine ⟨.refused fault, by simp [hasLine], rfl, rfl, ?_⟩
            intro heard
            cases heard _ (List.mem_cons_of_mem _ (List.mem_cons_of_mem _ List.mem_cons_self))
        | ok _ => exact ⟨.done, by simp [hasLine], rfl, rfl, fun _ => .inl rfl⟩
  · have lineEq := outcomeLine_of_not_hasLine hasLine signalSet name
    rw [lineEq] at goesOn
    obtain ⟨rfl, rfl⟩ := runs_finished.mp goesOn
    exact ⟨.unwritten, by simp [hasLine], rfl, rfl, fun _ => .inr rfl⟩

end Parts

/-! ### Runs of steps -/

/-- The interruption that ended something. -/
def interruptedBy {α : Type} : Except Interruption α → Option Interruption
  | .ok _ => none
  | .error interruption => some interruption

/-- Every run of an activity enters the children. -/
def Enters {α : Type} (registry : Registry) (children : List StepTree) (tokens : RunActivity α) :
    Prop :=
  ∀ exchanges result, tokens.Runs exchanges result →
    ∃ visits, Entered registry children visits (interruptedBy result) ∧
      Accounts exchanges visits (Visit.deedsOfAll visits)

/-- Every run of an activity visits the tree. -/
def Visits (registry : Registry) (tree : StepTree) (step : RunActivity Value) : Prop :=
  ∀ exchanges result, step.Runs exchanges result →
    ∃ visit, Visited registry tree visit ∧ visit.ending = result ∧
      Accounts exchanges [visit] visit.deeds

section Steps

variable {registry : Registry} {exchanges : List (Activity.Exchange RunRequest.Answer)}

theorem enters_pure {α : Type} (value : α) : Enters registry [] (Activity.finished (.ok value)) := by
  intro exchanges result ran
  obtain ⟨rfl, rfl⟩ := runs_finished.mp ran
  exact ⟨[], .all, accounts_nil rfl⟩

variable {children : List StepTree} {tokens : RunActivity (List String)}

/-- A step up to its conclusion. -/
theorem perform_runs {name : String} (enters : Enters registry children tokens)
    {result : Except Interruption Value}
    (ran : (perform registry name tokens).Runs exchanges result) :
    ∃ visits call, Accounts exchanges visits
        (Visit.deedsOfAll visits ++ call.toList.map Deed.called) ∧
      ∀ emission : Emission, emission.Fits result →
        Visited registry (.node name children) (.step name visits call result emission) := by
  rcases failIfStopping_bind_runs ran with ⟨first, later, rfl, quiet, goesOn⟩ | ⟨quiet, rfl⟩
  · rcases runs_bind.mp goesOn with
      ⟨second, last, found, rfl, tokensRan, afterTokens⟩ | ⟨interruption, rfl, tokensRan⟩
    · obtain ⟨visits, entered, accounts⟩ := enters _ _ tokensRan
      have before := accounts.after_quiet quiet
      rw [← List.append_assoc]
      have inside {call : Option CallRecord}
          (same : deedsOf last = call.toList.map Deed.called) :
          Accounts ((first ++ second) ++ last) visits
            (Visit.deedsOfAll visits ++ call.toList.map Deed.called) := by
        simpa using before.append (accounts_nil same)
      rcases failIfStopping_bind_runs afterTokens with
        ⟨third, rest, rfl, quietAgain, resolved⟩ | ⟨quietAgain, rfl⟩
      · cases resolvedEq : registry.resolve name found with
        | error fault =>
            rw [resolvedEq] at resolved
            obtain ⟨rfl, rfl⟩ := runs_finished.mp resolved
            have same : deedsOf (third ++ []) = [] := by rw [List.append_nil, quietAgain]
            exact ⟨visits, none, inside same, fun emission fits =>
              .uncalled entered (.inr ⟨found, resolvedEq⟩) fits⟩
        | ok resolution =>
            rw [resolvedEq] at resolved
            have called := callResolved_runs resolved
            have same := (deedsOf_append third rest).trans (by rw [quietAgain, called])
            exact ⟨visits, some _, inside same, fun emission fits =>
              .called entered ⟨found, resolution, rest, resolvedEq, rfl, resolved⟩ fits⟩
      · exact ⟨visits, none, inside quietAgain, fun emission fits =>
          .uncalled entered (.inl rfl) fits⟩
    · obtain ⟨visits, entered, accounts⟩ := enters _ _ tokensRan
      refine ⟨visits, none, ?_, fun emission fits => .halted entered fits⟩
      simpa using accounts.after_quiet quiet
  · exact ⟨[], none, accounts_nil quiet, fun emission fits => .refused fits⟩

/-- A step with its conclusion. -/
theorem reported_visits {name : String} (enters : Enters registry children tokens) :
    Visits registry (.node name children) (reported name (perform registry name tokens)) := by
  intro exchanges ended ran
  rcases runs_bind.mp ran with ⟨first, second, result, rfl, attempted, goesOn⟩ | impossible
  · obtain ⟨_, same, performed⟩ := runs_attempt.mp attempted
    cases same
    obtain ⟨visits, call, accounts, visited⟩ := perform_runs enters performed
    rcases runs_bind.mp goesOn with
      ⟨concluded, rest, _, rfl, concludes, ends⟩ | ⟨interruption, rfl, concludes⟩
    · obtain ⟨rfl, rfl⟩ := runs_finished.mp ends
      obtain ⟨emission, fits, endingEq, deeds, heard⟩ := conclude_runs concludes
      refine ⟨_, visited emission fits, ?_, ?_⟩
      · rw [Visit.ending, ← endingEq]
      · rw [List.append_nil]
        exact accounts.conclude deeds heard
    · obtain ⟨emission, fits, endingEq, deeds, heard⟩ := conclude_runs concludes
      refine ⟨_, visited emission fits, ?_, accounts.conclude deeds heard⟩
      rw [Visit.ending, ← endingEq]
  · obtain ⟨interruption, rfl, attempted⟩ := impossible
    obtain ⟨_, same, _⟩ := runs_attempt.mp attempted
    cases same

theorem tokenOf_enters {tree : StepTree} {step : RunActivity Value}
    (visits : Visits registry tree step) : Enters registry [tree] (tokenOf step) := by
  intro exchanges result ran
  rcases runs_bind.mp ran with
    ⟨first, second, value, rfl, stepRan, goesOn⟩ | ⟨interruption, rfl, stepRan⟩
  · obtain ⟨visit, visited, ends, accounts⟩ := visits _ _ stepRan
    obtain ⟨signalSet, later, rfl, converts⟩ := runs_perform.mp goesOn
    have converted := (visited.isWritable ends).isSome_token? signalSet
    obtain ⟨token, tokenEq⟩ := Option.isSome_iff_exists.mp converted
    change (Activity.ofExcept (Fault.orUnwritten (value.token? signalSet))).Runs later result
      at converts
    rw [tokenEq] at converts
    obtain ⟨rfl, rfl⟩ := runs_finished.mp converts
    refine ⟨[visit], .next visited ends .all, ?_⟩
    exact accounts.append (accounts_nil rfl)
  · obtain ⟨visit, visited, ends, accounts⟩ := visits _ _ stepRan
    refine ⟨[visit], .last visited ends, ?_⟩
    simpa [Visit.deedsOfAll] using accounts

theorem enters_bind {α β : Type} {more : List StepTree} {first : RunActivity α}
    {next : α → RunActivity β} (enters : Enters registry children first)
    (goesOn : ∀ value, Enters registry more (next value)) :
    Enters registry (children ++ more) (first.bind next) := by
  intro exchanges result ran
  rcases runs_bind.mp ran with
    ⟨early, late, value, rfl, firstRan, nextRan⟩ | ⟨interruption, rfl, firstRan⟩
  · obtain ⟨visits, entered, accounts⟩ := enters _ _ firstRan
    obtain ⟨later, enteredLater, accountsLater⟩ := goesOn value _ _ nextRan
    refine ⟨visits ++ later, entered.append enteredLater, ?_⟩
    rw [Visit.deedsOfAll_eq_flatMap, List.flatMap_append, ← Visit.deedsOfAll_eq_flatMap,
      ← Visit.deedsOfAll_eq_flatMap]
    exact accounts.append accountsLater
  · obtain ⟨visits, entered, accounts⟩ := enters _ _ firstRan
    exact ⟨visits, entered.extend more, accounts⟩

mutual

theorem argumentToken_enters : (argument : Argument) →
    Enters registry (StepTree.ofArgument registry argument) (argumentToken registry argument)
  | .token text => by
      rw [argumentToken, StepTree.ofArgument]
      split
      · exact tokenOf_enters (reported_visits (enters_pure []))
      · exact enters_pure text
  | .step name arguments => by
      rw [argumentToken, StepTree.ofArgument]
      exact tokenOf_enters (reported_visits (tokensOf_enters arguments))

theorem tokensOf_enters : (arguments : List Argument) →
    Enters registry (StepTree.ofArguments registry arguments) (tokensOf registry arguments)
  | [] => enters_pure []
  | argument :: rest => by
      rw [tokensOf, StepTree.ofArguments]
      apply enters_bind (argumentToken_enters argument)
      intro token
      rw [← List.append_nil (StepTree.ofArguments registry rest)]
      apply enters_bind (tokensOf_enters rest)
      intro tokens
      exact enters_pure (token :: tokens)

end

/-! ### Runs of an invocation -/

/-- What an invocation makes of the end of its step. -/
def returned : Except Interruption Value → Except Interruption Outcome
  | .error .revoked => .error .revoked
  | ended => .ok (outcomeOf ended)

theorem invoke_visits (step : Step) {result : Except Interruption Outcome}
    (ran : (invoke registry step).Runs exchanges result) :
    ∃ visit, Visited registry (StepTree.ofStep registry step) visit ∧
      result = returned visit.ending ∧ Accounts exchanges [visit] visit.deeds := by
  rcases runs_bind.mp ran with ⟨first, second, ended, rfl, attempted, goesOn⟩ | impossible
  · obtain ⟨_, same, stepRan⟩ := runs_attempt.mp attempted
    cases same
    obtain ⟨visit, visited, ends, accounts⟩ :=
      reported_visits (tokensOf_enters step.arguments) _ _ stepRan
    have last : second = [] ∧ result = returned ended := by
      rcases ended with (fault | _) | value
      · exact runs_finished.mp goesOn
      · exact runs_finished.mp goesOn
      · exact runs_finished.mp goesOn
    obtain ⟨rfl, rfl⟩ := last
    rw [← ends, List.append_nil]
    exact ⟨visit, visited, rfl, accounts⟩
  · obtain ⟨interruption, rfl, attempted⟩ := impossible
    obtain ⟨_, same, _⟩ := runs_attempt.mp attempted
    cases same

end Steps

/-- The reports among the exchanges of a run. -/
def eventsOf (exchanges : List (Activity.Exchange RunRequest.Answer)) : List StepEvent :=
  (deedsOf exchanges).filterMap Deed.event?

/-- The discipline of events: each step that is entered reports once, after what is inside of it; what
does not succeed is the last child that is entered; and all steps around it are not called and have
the same outcome. -/
structure IsOrderly (visit : Visit) (events : List StepEvent) : Prop where
  once : events = visit.steps.map Visit.event
  lastEntered : ∀ parent ∈ visit.steps, ∀ earlier inner later,
    parent.entered = earlier ++ inner :: later → ¬ Succeeds inner.outcome → later = []
  passedOn : ∀ ancestor ∈ visit.steps, ∀ inner ∈ Visit.stepsOfAll ancestor.entered,
    ¬ Succeeds inner.outcome → ancestor.call = none ∧ ancestor.outcome = inner.outcome

variable {visit : Visit}

theorem Visited.isOrderly {registry : Registry} {tree : StepTree}
    (visited : Visited registry tree visit) (smooth : visit.IsSmooth) :
    IsOrderly visit (visit.deeds.filterMap Deed.event?) where
  once := smooth.events_eq
  lastEntered := by
    intro parent inside earlier inner later split fails
    obtain ⟨subtree, below⟩ := visited.inner parent inside
    exact below.last_entered (smooth.inner inside) split fails
  passedOn := by
    intro ancestor inside inner deeper fails
    obtain ⟨subtree, below⟩ := visited.inner ancestor inside
    exact below.passes_on (smooth.inner inside) deeper fails

/-- Under a smooth run the invocation returns the outcome that its step reports, unless an operation
was called off. -/
theorem returned_of_smooth (smooth : visit.IsSmooth) :
    returned visit.ending = .ok visit.outcome ∨
      returned visit.ending = .error .revoked ∧ visit.ending = .error .revoked := by
  rw [smooth.outcome_eq]
  rcases visit.ending with (fault | _) | value
  · exact .inl rfl
  · exact .inr ⟨rfl, rfl⟩
  · exact .inl rfl

/-- Where no observer fails, the events are in order exactly if all values can be written out. -/
theorem Visited.isOrderly_iff {registry : Registry} {tree : StepTree}
    (visited : Visited registry tree visit)
    (heard : ∀ inner ∈ visit.steps, inner.emission = .done ∨ inner.emission = .unwritten) :
    IsOrderly visit (visit.deeds.filterMap Deed.event?) ↔ visit.IsWritten := by
  rw [← visited.isSmooth_iff heard]
  constructor
  · intro orderly inner inside
    have sameLength := congrArg List.length orderly.once
    rw [List.length_map, visit.length_events_deeds] at sameLength
    have reported := sameLength inner inside
    rcases heard inner inside with done | unwritten
    · exact done
    · rw [unwritten] at reported
      cases reported
  · exact visited.isOrderly

theorem ending_of_returned {ended : Except Interruption Value} {value : Value}
    (returns : returned ended = .ok (.success value)) : ended = .ok value := by
  rcases ended with (fault | _) | other
  · cases fault <;> cases returns
  · cases returns
  · cases returns
    rfl

/-- The events of an invocation.  Every run is a visit of the tree of the step.  If all its reports go
through, its events are in order, and the last one is that of the step itself and has the outcome that
is returned.  They do go through where a value is returned, and then the whole tree is called and
reported in post-order.  Where no observer fails, the events are in order exactly if all values that
steps return can be written out. -/
theorem invoke_reports (registry : Registry) (step : Step)
    {exchanges : List (Activity.Exchange RunRequest.Answer)}
    {result : Except Interruption Outcome} (ran : (invoke registry step).Runs exchanges result) :
    ∃ visit, Visited registry (StepTree.ofStep registry step) visit ∧
      deedsOf exchanges = visit.deeds ∧ result = returned visit.ending ∧
      (visit.IsSmooth →
        IsOrderly visit (eventsOf exchanges) ∧
        (eventsOf exchanges).getLast? = some ⟨step.name, visit.outcome⟩ ∧
        (result = .ok visit.outcome ∨
          result = .error .revoked ∧ ∃ inner ∈ visit.steps, inner.WasRevoked)) ∧
      (∀ value, result = .ok (.success value) →
        visit.IsSmooth ∧
        Complete registry (StepTree.ofStep registry step).postorder (deedsOf exchanges)) ∧
      ((∀ exchange ∈ exchanges, IsHeard exchange) →
        (visit.IsSmooth ↔ visit.IsWritten) ∧
        (IsOrderly visit (eventsOf exchanges) ↔ visit.IsWritten)) := by
  obtain ⟨visit, visited, returns, accounts⟩ := invoke_visits step ran
  rw [eventsOf, accounts.deeds, returns]
  refine ⟨visit, visited, rfl, rfl, ?_, ?_, ?_⟩
  · intro smooth
    refine ⟨visited.isOrderly smooth, ?_, ?_⟩
    · rw [smooth.events_eq, List.getLast?_map, Visit.getLast?_steps]
      cases visited <;> rfl
    · rcases returned_of_smooth smooth with same | ⟨same, revoked⟩
      · exact .inl same
      · exact .inr ⟨same, visited.revoked revoked⟩
  · intro value success
    have ends := ending_of_returned success
    have smooth := visited.isSmooth ends
    have succeeds : Succeeds visit.outcome := by
      rw [smooth.outcome_eq, ends]
      trivial
    exact ⟨smooth, visited.complete smooth succeeds⟩
  · intro heard
    have onlyUnwritten : ∀ inner ∈ visit.steps,
        inner.emission = .done ∨ inner.emission = .unwritten := by
      intro inner inside
      apply accounts.heard heard inner
      exact Visit.mem_stepsOfAll.mpr ⟨visit, List.mem_cons_self, inside⟩
    exact ⟨visited.isSmooth_iff onlyUnwritten, visited.isOrderly_iff onlyUnwritten⟩

/-! ### A run with a nested step -/

/-- A table with an operation that has a value, and one that takes a text. -/
def speechRegistry : Registry :=
  Registry.empty.registerAll
    [.make { name := "Ask" } none
      { label := "Ask", parameters := none, isAsync := true, body := fun _ => pure (.text "seven") },
    .make { name := "Say", parameterTypes := [.text] } none
      { label := "Say", parameters := none, body := fun _ => pure .none }]

/-- Say what is asked for, by the bare name of the other operation. -/
def speechStep : Step := ⟨"Say", [.token "Ask"]⟩

theorem speech_run : ∃ exchanges,
    (invoke speechRegistry speechStep).Runs exchanges (.ok (.success .none)) ∧
      deedsOf exchanges =
        [.called ⟨"Ask", []⟩, .reported ⟨"Ask", .success (.text "seven")⟩,
          .called ⟨"Say", [.text "seven"]⟩, .reported ⟨"Say", .success .none⟩] ∧
      ∀ exchange ∈ exchanges, IsHeard exchange := by
  apply Exists.intro
  constructor
  · change Leads _ _ _
    iterate 3 apply Leads.answered (RunRequest.action .isStopping) false
    apply Leads.answered (RunRequest.call "Ask" []) (1 : Nat)
    apply Leads.answered (RunRequest.action .isStopping) false
    apply Leads.answered (RunRequest.log _) (.ok ())
    apply Leads.answered (RunRequest.report _) (.ok ())
    iterate 2 apply Leads.answered (RunRequest.action .isStopping) false
    apply Leads.answered (RunRequest.call "Say" [.text "seven"]) (1 : Nat)
    apply Leads.answered RunRequest.handover (.ok ())
    apply Leads.answered (RunRequest.action .isStopping) false
    apply Leads.answered (RunRequest.log _) (.ok ())
    apply Leads.answered (RunRequest.report _) (.ok ())
    exact .rest _
  · constructor
    · rfl
    · simp [IsHeard]

/-- In that run the nested step and then the step around it are called and reported, in order. -/
theorem invoke_reports_speech : ∃ exchanges visit,
    (invoke speechRegistry speechStep).Runs exchanges (.ok (.success .none)) ∧
      Visited speechRegistry (StepTree.ofStep speechRegistry speechStep) visit ∧
      IsOrderly visit (eventsOf exchanges) ∧ (eventsOf exchanges).length = 2 ∧
      Complete speechRegistry ["Ask", "Say"] (deedsOf exchanges) := by
  obtain ⟨exchanges, ran, deeds, heard⟩ := speech_run
  obtain ⟨visit, visited, _, _, orderly, complete, _⟩ := invoke_reports speechRegistry speechStep ran
  obtain ⟨smooth, whole⟩ := complete .none rfl
  refine ⟨exchanges, visit, ran, visited, (orderly smooth).1, ?_, whole⟩
  rw [eventsOf, deeds]
  rfl

/-! ### A value that cannot be written out -/

/-- A table with an operation that adds its two arguments, with default values for both. -/
def totalRegistry (first second : Int) : Registry :=
  Registry.empty.register
    (.make { name := "Total", parameterTypes := [.integer .int32, .integer .int32] }
      (some [some (.integer first), some (.integer second)])
      { label := "Total", parameters := none, body := Scripted.body [.sum] })

theorem conclude_unwritten {outcome : Outcome} (noLine : ¬ HasLine outcome) (name : String) :
    (conclude name outcome).Runs [⟨.action .isStopping, false⟩]
      (.error (.fault (.ofValue Number.unwrittenMessage))) := by
  refine runs_perform.mpr ⟨false, [], rfl, ?_⟩
  change Activity.Runs ((Activity.ofExcept (outcomeLine false name outcome)).bind _) _ _
  rw [outcomeLine_of_not_hasLine noLine]
  exact .rest _

/-- A step with such a value fails, and is not reported. -/
theorem reported_unwritten {step : RunActivity Value} {value : Value}
    {exchanges : List (Activity.Exchange RunRequest.Answer)} (name : String)
    (ran : step.Runs exchanges (.ok value)) (long : ¬ value.IsWritable) :
    (reported name step).Runs (exchanges ++ [⟨.action .isStopping, false⟩])
      (.error (.fault (.ofValue Number.unwrittenMessage))) := by
  have noLine : ¬ HasLine (outcomeOf (.ok value)) := long
  have concluded := conclude_unwritten noLine name
  apply runs_bind.mpr
  refine .inl ⟨exchanges, _, .ok value, rfl, runs_attempt.mpr ⟨_, rfl, ran⟩, ?_⟩
  exact runs_bind.mpr (.inr ⟨_, rfl, concluded⟩)

theorem unwritten_outcome :
    (Fault.ofValue Number.unwrittenMessage).outcome = .failed Number.unwrittenMessage false := by
  have written : Number.unwrittenMessage.isEmpty = false := by
    unfold Number.unwrittenMessage
    simp
  change Outcome.failed (if Number.unwrittenMessage.isEmpty then _ else _) false = _
  rw [written]
  rfl

/-- If the sum cannot be written out, the step is entered and its operation is called, but it is
never reported, although no observer fails. -/
theorem total_unreported {first second : Int}
    (long : ¬ (Value.integer (0 + first + second)).IsWritable) : ∃ exchanges,
    (invoke (totalRegistry first second) ⟨"Total", []⟩).Runs exchanges
        (.ok (.failed Number.unwrittenMessage false)) ∧
      (∀ exchange ∈ exchanges, IsHeard exchange) ∧
      deedsOf exchanges = [.called ⟨"Total", [.integer first, .integer second]⟩] := by
  have total : (perform (totalRegistry first second) "Total" (pure [])).Runs
      [⟨.action .isStopping, false⟩, ⟨.action .isStopping, false⟩,
        ⟨.call "Total" [.integer first, .integer second], (1 : Nat)⟩, ⟨.handover, .ok ()⟩]
      (.ok (.integer (0 + first + second))) :=
    .exchange (.exchange (.exchange (.exchange (.rest _))))
  have reported := reported_unwritten "Total" total long
  have attempted := runs_attempt.mpr ⟨_, rfl, reported⟩
  rw [← unwritten_outcome]
  refine ⟨_, runs_bind.mpr (.inl ⟨_, [], _, rfl, attempted, .rest _⟩), ?_, rfl⟩
  simp [IsHeard]

/-- Two numbers that can be written out have a sum of one digit more, which cannot: the step is called
and there is no event at all. -/
theorem invoke_total_unreported :
    (Number.tenTo Number.digitLimit - 1 : Int).natAbs < Number.tenTo Number.digitLimit ∧
    ∃ exchanges,
      (invoke (totalRegistry (Number.tenTo Number.digitLimit - 1) 1) ⟨"Total", []⟩).Runs exchanges
          (.ok (.failed Number.unwrittenMessage false)) ∧
        (∀ exchange ∈ exchanges, IsHeard exchange) ∧
        deedsOf exchanges =
          [.called ⟨"Total", [.integer (Number.tenTo Number.digitLimit - 1), .integer 1]⟩] ∧
        eventsOf exchanges = [] := by
  have positive (limit : Nat) : 0 < Number.tenTo limit := Nat.pow_pos (by decide)
  have above := positive Number.digitLimit
  have long : ¬ (Value.integer (0 + (Number.tenTo Number.digitLimit - 1) + 1)).IsWritable := by
    rw [Value.isWritable_integer]
    -- From here on the power is any positive number, so that nothing computes it.
    generalize Number.tenTo Number.digitLimit = power at above
    omega
  obtain ⟨exchanges, ran, heard, deeds⟩ := total_unreported long
  refine ⟨?_, exchanges, ran, heard, deeds, ?_⟩
  · generalize Number.tenTo Number.digitLimit = power at above
    omega
  · rw [eventsOf, deeds]
    rfl

end InputScript.Reporting
