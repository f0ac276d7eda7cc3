/-
Module: InputScript.Proofs.Unwinding
Purpose: How a task unwinds.  A task that is told that it is called off enters no further step.  It
  leaves the steps that are in progress one after another, the innermost first, reports each of them
  as cancelled, and ends as called off, provided that the actions pass it on when they are called off
  and that the observers of the run hear what they are told.
Main exports: tells, PassesOn, AllPassOn, Depth.unwinds
-/
import InputScript.Proofs.Itinerary
import InputScript.Proofs.Regime

namespace InputScript.Interleaving

open Catalog Run Rehearsal Script Reporting
open Activity (runs_finished runs_perform keeps_bind keeps_attempt)

/-! ### Being called off -/

/-- Whether the answer to a request of an action tells it that it is called off. -/
def tellsAction : (request : ActionRequest) → request.Answer → Bool
  | .pass, .error .revoked | .sleep _, .error .revoked | .block, .error .revoked => true
  | .nap _ _, .error .revoked => true
  | _, _ => false

/-- Whether the answer to a request tells a task that it is called off. -/
def tells : (request : RunRequest) → request.Answer → Bool
  | .action request, answer => tellsAction request answer
  | .handover, .error .revoked | .join _, .error .revoked => true
  | _, _ => false

/-- Whether one of the exchanges tells a task that it is called off. -/
def Told (exchanges : List RunExchange) : Prop :=
  ∃ exchange ∈ exchanges, tells exchange.request exchange.answer = true

theorem told_cons {exchange : RunExchange} {rest : List RunExchange} :
    Told (exchange :: rest) ↔ tells exchange.request exchange.answer = true ∨ Told rest := by
  simp only [Told, List.mem_cons, or_and_right, exists_or, exists_eq_left]

theorem told_append {first second : List RunExchange} :
    Told (first ++ second) ↔ Told first ∨ Told second := by
  simp only [Told, List.mem_append, or_and_right, exists_or]

section PassesOn

variable {α β : Type}

/-- Whether an activity that is told that it is called off always ends so. -/
def PassesOn (activity : RunActivity α) : Prop :=
  ∀ exchanges result, activity.Runs exchanges result → Told exchanges → result = .error .revoked

theorem passesOn_finished (result : Except Interruption α) :
    PassesOn (.finished result : RunActivity α) := by
  intro exchanges ended ran told
  obtain ⟨rfl, -⟩ := runs_finished.mp ran
  obtain ⟨_, impossible, -⟩ := told
  cases impossible

variable {request : RunRequest} {next : request.Answer → RunActivity α}

/-- What never tells anything may be asked for. -/
theorem passesOn_perform (never : ∀ answer, tells request answer = false)
    (rest : ∀ answer, PassesOn (next answer)) :
    PassesOn (.perform request next) := by
  intro exchanges result ran told
  obtain ⟨answer, later, rfl, goesOn⟩ := runs_perform.mp ran
  refine rest answer later result goesOn ((told_cons.mp told).resolve_left ?_)
  simp [never answer]

theorem PassesOn.bind {activity : RunActivity α} {next : α → RunActivity β}
    (first : PassesOn activity) (second : ∀ value, PassesOn (next value)) :
    PassesOn (activity.bind next) := by
  intro exchanges result ran told
  rcases Activity.runs_bind.mp ran with ⟨earlier, later, value, rfl, ended, goesOn⟩ |
    ⟨interruption, rfl, ended⟩
  · rcases told_append.mp told with told | told
    · cases first earlier _ ended told
    · exact second value later result goesOn told
  · cases first exchanges _ ended told
    rfl

theorem PassesOn.of_perform (passesOn : PassesOn (.perform request next))
    (answer : request.Answer) :
    PassesOn (next answer) := by
  intro exchanges result ran told
  exact passesOn _ result (.exchange ran) (told_cons.mpr (.inr told))

/-- What is waited for at the end may tell it. -/
theorem passesOn_wait {next : request.Answer → Except Interruption α}
    (passed : ∀ answer, tells request answer = true → next answer = .error .revoked) :
    PassesOn (.perform request fun answer => .finished (next answer)) := by
  intro exchanges result ran told
  obtain ⟨answer, later, rfl, ended⟩ := runs_perform.mp ran
  obtain ⟨rfl, rfl⟩ := runs_finished.mp ended
  obtain ⟨_, member, told⟩ := told
  obtain rfl := List.mem_singleton.mp member
  exact passed answer told

theorem handover_passesOn : PassesOn handover := by
  refine passesOn_wait fun answer told => ?_
  rcases answer with (_ | _) | _
  · cases told
  · rfl
  · cases told

theorem join_passesOn (tolerant : Bool) : PassesOn (join tolerant) := by
  refine passesOn_wait fun answer told => ?_
  rcases answer with (_ | _) | _
  · cases told
  · rfl
  · cases told

theorem nap_passesOn (seconds : Float) : PassesOn (nap seconds) := by
  refine passesOn_wait fun answer told => ?_
  rcases answer with (_ | _) | _
  · cases told
  · rfl
  · cases told

/-- A request for which nothing is waited never tells anything. -/
theorem tells_eq_false {request : ActionRequest} (quick : suspends request = false)
    (answer : RunRequest.Answer (.action request)) : tells (.action request) answer = false := by
  cases request <;> first | rfl | cases quick

/-- An action that passes it on when it is called off does so on a worker too. -/
theorem handedOver_passesOn {activity : ActionActivity α} (passesOn : PassesOn (ofAction activity)) :
    PassesOn (handedOver activity) := by
  induction activity with
  | finished result => exact handover_passesOn.bind fun _ => passesOn_finished result
  | perform request next hypothesis =>
      rw [handedOver]
      split
      · exact handover_passesOn.bind fun _ => passesOn
      · next quick =>
          refine passesOn_perform (tells_eq_false (by simpa using quick)) fun answer => ?_
          exact hypothesis answer (passesOn.of_perform answer)

/-- Whether every action of a registry passes it on when it is called off. -/
def AllPassOn (registry : Registry) : Prop :=
  ∀ name, ∀ overload ∈ registry.overloads name, ∀ call,
    PassesOn (ofAction (overload.implementation.body call))

theorem callResolved_passesOn {registry : Registry} (allPassOn : AllPassOn registry) {name : String}
    {tokens : List String} {resolution : Resolution}
    (resolves : registry.resolve name tokens = .ok resolution) : PassesOn (callResolved resolution) := by
  refine passesOn_perform (fun _ => rfl) fun ordinal => ?_
  have passesOn := allPassOn name resolution.overload (resolve_mem resolves)
    ⟨resolution.arguments, resolution.overload.declaration.cancellable, ordinal⟩
  dsimp only
  split
  · exact passesOn
  · exact handedOver_passesOn passesOn

theorem isStopping_passesOn : PassesOn isStopping :=
  passesOn_perform (fun _ => rfl) fun _ => passesOn_finished _

theorem failIfStopping_passesOn : PassesOn failIfStopping := by
  refine passesOn_perform (fun _ => rfl) fun stopping => ?_
  cases stopping <;> exact passesOn_finished _

theorem log_passesOn (level : Level) (message : String) : PassesOn (log level message) := by
  refine passesOn_perform (fun _ => rfl) fun answer => ?_
  cases answer <;> exact passesOn_finished _

theorem spawn_passesOn (index : Nat) (block : Block) : PassesOn (spawn index block) :=
  passesOn_perform (fun _ => rfl) fun _ => passesOn_finished _

theorem endLoop_passesOn (index passes : Nat) : PassesOn (endLoop index passes) :=
  (log_passesOn _ _).bind fun _ => passesOn_finished _

theorem throttle_passesOn (state : LoopState) : PassesOn (throttle state) := by
  have last : PassesOn (isStopping.bind fun stopping =>
      if stopping then endLoop state.index state.passes
      else .finished (.ok (.again .nap { state with warned := true }))) := by
    refine isStopping_passesOn.bind fun stopping => ?_
    cases stopping
    · exact passesOn_finished _
    · exact endLoop_passesOn _ _
  unfold throttle
  split
  · exact (log_passesOn _ _).bind fun _ => last
  · exact last

end PassesOn

/-! ### Steps in progress -/

theorem eventsOf_append (first second : List RunExchange) :
    eventsOf (first ++ second) = eventsOf first ++ eventsOf second := by
  rw [eventsOf, deedsOf_append, List.filterMap_append]
  rfl

/-- The events of steps that are reported as cancelled. -/
def cancelledEvents (names : List String) : List StepEvent :=
  names.map (⟨·, .cancelled⟩)

/-- The steps in progress after a mark. -/
def enter (levels : List String) : Mark → List String
  | .entered name => name :: levels
  | .left _ => levels.tail
  | _ => levels

/-- The steps that are in progress after marks, the innermost first. -/
def inProgress (marks : List Mark) : List String :=
  marks.foldl enter []

/-- How deep a task is in its steps. -/
structure Depth where
  /-- The steps in progress, the innermost first. -/
  levels : List String := []
  /-- The step that was left last, while its end is still to be reported. -/
  due : Option String := none
  /-- Whether the task was told that it is called off. -/
  isCalledOff : Bool := false

namespace Depth

/-- A task that is called off enters no step and reports the steps that it leaves as cancelled. -/
def admits (depth : Depth) : Marked RunRequest Mark → Prop
  | .mark (.entered _) => depth.isCalledOff = false
  | .mark (.left name) =>
    depth.levels.head? = some name ∧ (depth.isCalledOff = true → depth.due = none)
  | .mark _ => True
  | .request (.report event) =>
    depth.due = some event.name ∧ (depth.isCalledOff = true → event.outcome = .cancelled)
  | .request (.log _) | .request (.action .isStopping) => True
  | .request _ => depth.isCalledOff = true → depth.due = none

/-- The depth after a request or a mark. -/
def after (depth : Depth) :
    (marked : Marked RunRequest Mark) → Marked.Answer Mark RunRequest.Answer marked → Depth
  | .mark (.entered name), _ => { depth with levels := name :: depth.levels, due := none }
  | .mark (.left name), _ => { depth with levels := depth.levels.tail, due := some name }
  | .mark _, _ => depth
  | .request (.report _), _ => { depth with due := none }
  | .request (.log _), _ | .request (.action .isStopping), _ => depth
  | .request request, answer =>
    { depth with due := none, isCalledOff := depth.isCalledOff || tells request answer }

/-- The observers hear what they are told, and a tolerant wait does not fail. -/
def expects : (marked : Marked RunRequest Mark) →
    Marked.Answer Mark RunRequest.Answer marked → Prop
  | .request request, answer => IsHeard ⟨request, answer⟩ ∧ IsTolerated ⟨request, answer⟩
  | .mark _, _ => True

/-- How a task is in its steps. -/
def discipline : Discipline (Marked.Answer Mark RunRequest.Answer) Depth where
  admits := admits
  expects _ := expects
  after := after

/-- Whether a part of a task that was called off in it has left its steps and ends so. -/
def EndsAt {α : Type} (levels : List String) (depth : Depth) (result : Except Interruption α) : Prop :=
  depth.levels = levels ∧
    (depth.isCalledOff = true → depth.due = none ∧ result = .error .revoked)

theorem EndsAt.not_isCalledOff {α : Type} {levels : List String} {depth : Depth} {value : α}
    (ends : depth.EndsAt levels (.ok value)) : depth.isCalledOff = false := by
  cases calledOff : depth.isCalledOff with
  | false => rfl
  | true => cases (ends.2 calledOff).2

end Depth

/-- Whether a part of a task leaves the steps that it enters, and ends as called off if it is called
off in them. -/
def KeepsDepth {α : Type} (levels : List String) (activity : MarkedActivity α) : Prop :=
  ∀ depth : Depth, depth.levels = levels → depth.isCalledOff = false →
    activity.Keeps Depth.discipline (Depth.EndsAt levels) depth

section KeepsDepth

variable {α β : Type} {levels : List String}

theorem keepsDepth_finished (result : Except Interruption α) :
    KeepsDepth levels (.finished result : MarkedActivity α) := by
  intro depth sameLevels notCalledOff
  refine ⟨sameLevels, fun calledOff => ?_⟩
  rw [notCalledOff] at calledOff
  cases calledOff

theorem keepsDepth_ofExcept (result : Except Fault α) :
    KeepsDepth levels (Activity.ofExcept result : MarkedActivity α) := by
  cases result <;> exact keepsDepth_finished _

theorem KeepsDepth.bind {activity : MarkedActivity α} {next : α → MarkedActivity β}
    (first : KeepsDepth levels activity) (second : ∀ value, KeepsDepth levels (next value)) :
    KeepsDepth levels (activity.bind next) := by
  intro depth sameLevels notCalledOff
  rw [keeps_bind]
  refine (first depth sameLevels notCalledOff).mono fun later result ends => ?_
  cases result with
  | ok value => exact second value later ends.1 ends.not_isCalledOff
  | error interruption =>
      refine ⟨ends.1, fun calledOff => ?_⟩
      obtain ⟨none, same⟩ := ends.2 calledOff
      cases same
      exact ⟨none, rfl⟩

/-- The requests other than reports. -/
def IsNoReport : RunRequest → Prop
  | .report _ => False
  | _ => True

variable {activity : RunActivity α}

/-- Without reports an activity may make any requests, also where it is called off already. -/
theorem plain_keeps_of_asks (asks : activity.Asks IsNoReport) {depth : Depth}
    (sameLevels : depth.levels = levels) (clear : depth.isCalledOff = true → depth.due = none)
    (passesOn : ∀ exchanges result, activity.Runs exchanges result →
      depth.isCalledOff = true ∨ Told exchanges → result = .error .revoked) :
    (plain activity).Keeps Depth.discipline (Depth.EndsAt levels) depth := by
  induction activity generalizing depth with
  | finished result =>
      refine ⟨sameLevels, fun calledOff => ⟨clear calledOff, ?_⟩⟩
      exact passesOn [] result (.rest _) (.inl calledOff)
  | perform request next hypothesis =>
      have unmoved : ∀ answer,
          (plain (next answer)).Keeps Depth.discipline (Depth.EndsAt levels) depth := by
        intro answer
        refine hypothesis answer (asks.2 answer) sameLevels clear
          fun exchanges result ran why => ?_
        exact passesOn _ result (.exchange ran) (why.imp_right fun told => told_cons.mpr (.inr told))
      have moved : ∀ answer,
          (plain (next answer)).Keeps Depth.discipline (Depth.EndsAt levels)
            { depth with due := none, isCalledOff := depth.isCalledOff || tells request answer } := by
        intro answer
        refine hypothesis answer (asks.2 answer) sameLevels (fun _ => rfl)
          fun exchanges result ran why => ?_
        refine passesOn _ result (.exchange ran) ?_
        rw [told_cons]
        simpa [or_assoc] using why
      cases request with
      | report event => exact asks.1.elim
      | log line => exact ⟨trivial, fun answer _ => unmoved answer⟩
      | action request =>
          cases request with
          | isStopping => exact ⟨trivial, fun answer _ => unmoved answer⟩
          | _ => exact ⟨clear, fun answer _ => moved answer⟩
      | _ => exact ⟨clear, fun answer _ => moved answer⟩

theorem PassesOn.keepsDepth (passesOn : PassesOn activity) (asks : activity.Asks IsNoReport) :
    KeepsDepth levels (plain activity) := by
  intro depth sameLevels notCalledOff
  refine plain_keeps_of_asks asks sameLevels ?_ fun exchanges result ran why => ?_
  · rw [notCalledOff]
    exact nofun
  · rw [notCalledOff] at why
    exact passesOn exchanges result ran (why.resolve_left nofun)

/-- A mark that does not enter or leave a step changes nothing. -/
theorem leave_keepsDepth (mark : Mark) (admitted : ∀ depth : Depth, depth.admits (.mark mark))
    (unmoved : ∀ depth : Depth, depth.after (.mark mark) () = depth) :
    KeepsDepth levels (leave mark) := by
  intro depth sameLevels notCalledOff
  refine ⟨admitted depth, fun _ _ => ?_⟩
  change Activity.Keeps _ _ _ (depth.after (.mark mark) ())
  rw [unmoved]
  exact keepsDepth_finished _ depth sameLevels notCalledOff

theorem isStopping_keepsDepth : KeepsDepth levels (plain isStopping) :=
  isStopping_passesOn.keepsDepth ⟨trivial, fun _ => trivial⟩

theorem failIfStopping_keepsDepth : KeepsDepth levels (plain failIfStopping) := by
  refine failIfStopping_passesOn.keepsDepth ⟨trivial, fun stopping => ?_⟩
  cases stopping <;> trivial

theorem log_asks_noReport (level : Level) (message : String) :
    (log level message).Asks IsNoReport := by
  refine ⟨trivial, fun answer => ?_⟩
  cases answer <;> trivial

theorem log_keepsDepth (level : Level) (message : String) :
    KeepsDepth levels (plain (log level message)) :=
  (log_passesOn level message).keepsDepth (log_asks_noReport level message)

theorem lookAt_keepsDepth (station : Station) : KeepsDepth levels (lookAt station) := by
  refine isStopping_keepsDepth.bind fun stopping => ?_
  refine (leave_keepsDepth (.looked station stopping) ?_ ?_).bind fun _ => keepsDepth_finished _
  · exact fun _ => trivial
  · exact fun _ => rfl

/-- The end of a step is reported, as cancelled where the task is called off. -/
theorem conclude_keeps {name : String} {outcome : Outcome} {depth : Depth}
    {post : Depth → Except Interruption Unit → Prop} (isDue : depth.due = some name)
    (cancelled : depth.isCalledOff = true → outcome = .cancelled)
    (unwritten : ∀ fault, depth.isCalledOff = false → post depth (.error (.fault fault)))
    (reported : post { depth with due := none } (.ok ())) :
    (plain (Run.conclude name outcome)).Keeps Depth.discipline post depth := by
  refine ⟨trivial, fun signalSet _ => ?_⟩
  change Activity.Keeps _ _ (plain (Activity.bind (Activity.ofExcept _) _)) depth
  cases written : outcomeLine signalSet name outcome with
  | error fault =>
      refine unwritten fault ?_
      cases calledOff : depth.isCalledOff with
      | false => rfl
      | true =>
          rw [cancelled calledOff] at written
          cases written
  | ok line =>
      refine ⟨trivial, fun answer heard => ?_⟩
      obtain rfl : answer = .ok () := heard.1
      refine ⟨⟨isDue, cancelled⟩, fun answer heard => ?_⟩
      obtain rfl : answer = .ok () := heard.1
      exact reported

variable {step : MarkedActivity Value}

/-- A step is left after what is inside of it. -/
theorem markReported_keepsDepth (name : String) (inner : KeepsDepth (name :: levels) step) :
    KeepsDepth levels (markReported name step) := by
  rintro depth rfl notCalledOff
  refine ⟨notCalledOff, fun _ _ => ?_⟩
  change Activity.Keeps _ _ (Activity.bind step.attempt _) _
  refine keeps_bind.mpr (keeps_attempt.mpr ?_)
  refine (inner (depth.after (.mark (.entered name)) ()) rfl notCalledOff).mono
    fun later result ends => ?_
  obtain ⟨sameLevels, calledOff⟩ := ends
  refine ⟨⟨by rw [sameLevels]; rfl, fun isCalledOff => (calledOff isCalledOff).1⟩, fun _ _ => ?_⟩
  have outer : (later.after (.mark (.left name)) ()).levels = depth.levels := by
    change later.levels.tail = depth.levels
    rw [sameLevels, List.tail_cons]
  change Activity.Keeps _ _ (Activity.bind (plain (Run.conclude name (outcomeOf result))) _) _
  refine keeps_bind.mpr (conclude_keeps rfl ?_ ?_ ?_)
  · intro isCalledOff
    rw [(calledOff isCalledOff).2]
    rfl
  · intro fault notCalledOff
    refine ⟨outer, fun isCalledOff => ?_⟩
    rw [notCalledOff] at isCalledOff
    cases isCalledOff
  · exact ⟨outer, fun isCalledOff => ⟨rfl, (calledOff isCalledOff).2⟩⟩

theorem markTokenOf_keepsDepth (keeps : KeepsDepth levels step) :
    KeepsDepth levels (markTokenOf step) :=
  keeps.bind fun _ => isStopping_keepsDepth.bind fun _ => keepsDepth_ofExcept _

end KeepsDepth

section Registry

variable {registry : Registry} {levels : List String}

theorem markPerform_keepsDepth (allPassOn : AllPassOn registry) (name : String)
    {tokens : MarkedActivity (List String)}
    (keeps : KeepsDepth levels tokens) : KeepsDepth levels (markPerform registry name tokens) := by
  refine failIfStopping_keepsDepth.bind fun _ => keeps.bind fun found => ?_
  refine failIfStopping_keepsDepth.bind fun _ => ?_
  change KeepsDepth levels ((Activity.ofExcept (registry.resolve name found)).bind _)
  cases resolves : registry.resolve name found with
  | error fault => exact keepsDepth_finished _
  | ok resolution =>
      refine (callResolved_passesOn allPassOn resolves).keepsDepth ⟨trivial, fun ordinal => ?_⟩
      have own : ∀ request, IsOwn request → IsNoReport request := by
        intro request isOwn
        cases request with
        | report event => exact isOwn.elim
        | _ => trivial
      dsimp only
      split
      · exact (ofAction_asks _).mono own
      · exact (handedOver_asks _).mono own

mutual

theorem markArgumentToken_keepsDepth (allPassOn : AllPassOn registry) (levels : List String) :
    (argument : Argument) →
    KeepsDepth levels (markArgumentToken registry argument)
  | .token text => by
      rw [markArgumentToken]
      split
      · exact markTokenOf_keepsDepth (markReported_keepsDepth _
          (markPerform_keepsDepth allPassOn _ (keepsDepth_finished _)))
      · exact keepsDepth_finished _
  | .step name arguments => by
      rw [markArgumentToken]
      exact markTokenOf_keepsDepth (markReported_keepsDepth _
        (markPerform_keepsDepth allPassOn _ (markTokensOf_keepsDepth allPassOn _ arguments)))

theorem markTokensOf_keepsDepth (allPassOn : AllPassOn registry) (levels : List String) :
    (arguments : List Argument) →
    KeepsDepth levels (markTokensOf registry arguments)
  | [] => by
      rw [markTokensOf]
      exact keepsDepth_finished _
  | argument :: rest => by
      rw [markTokensOf]
      refine (markArgumentToken_keepsDepth allPassOn levels argument).bind fun _ => ?_
      exact (markTokensOf_keepsDepth allPassOn levels rest).bind fun _ => keepsDepth_finished _

end

/-- A step that is called off ends so. -/
theorem markInvoke_keepsDepth (allPassOn : AllPassOn registry) (step : Script.Step) :
    KeepsDepth levels (markInvoke registry step) := by
  intro depth sameLevels notCalledOff
  refine keeps_bind.mpr (keeps_attempt.mpr ?_)
  have keeps := markReported_keepsDepth step.name (markPerform_keepsDepth allPassOn step.name
    (markTokensOf_keepsDepth allPassOn (step.name :: levels) step.arguments))
  refine (keeps depth sameLevels notCalledOff).mono fun later result ends => ?_
  rcases result with (fault | _) | value
  · refine ⟨ends.1, fun calledOff => ?_⟩
    cases (ends.2 calledOff).2
  · exact ⟨ends.1, fun calledOff => ⟨(ends.2 calledOff).1, rfl⟩⟩
  · refine ⟨ends.1, fun calledOff => ?_⟩
    cases (ends.2 calledOff).2

theorem returned_keepsDepth (index : Nat) (step : Script.Step) (outcome : Outcome) :
    KeepsDepth levels (leave (.returned index step outcome)) :=
  leave_keepsDepth (.returned index step outcome) (fun _ => trivial) fun _ => rfl

/-! ### The walk -/

theorem markSteps_keepsDepth (allPassOn : AllPassOn registry) (index : Nat)
    (steps : List Script.Step) : KeepsDepth levels (markSteps registry index steps) := by
  induction steps with
  | nil => exact keepsDepth_finished _
  | cons step rest hypothesis =>
      refine (lookAt_keepsDepth _).bind fun stopping => ?_
      cases stopping with
      | true => exact keepsDepth_finished _
      | false =>
          refine (markInvoke_keepsDepth allPassOn step).bind fun outcome => ?_
          refine (returned_keepsDepth index step outcome).bind fun _ => ?_
          match outcome with
          | .cancelled => exact keepsDepth_finished _
          | .failed _ false => exact (log_keepsDepth _ _).bind fun _ => keepsDepth_finished _
          | .failed _ true => exact hypothesis
          | .success _ => exact hypothesis

theorem markPasses_keepsDepth (allPassOn : AllPassOn registry) (index : Nat)
    (steps : List Script.Step) (passes : Nat) :
    KeepsDepth levels (markPasses registry index steps passes) := by
  induction passes with
  | zero => exact keepsDepth_finished _
  | succ passes hypothesis =>
      refine (markSteps_keepsDepth allPassOn index steps).bind fun state => ?_
      cases state with
      | completed => exact hypothesis
      | _ => exact keepsDepth_finished _

theorem markBounded_keepsDepth (allPassOn : AllPassOn registry) (index : Nat) (block : Block) :
    KeepsDepth levels (markBounded registry index block) := by
  refine (log_keepsDepth _ _).bind fun _ => ?_
  split
  · exact keepsDepth_finished _
  · exact markPasses_keepsDepth allPassOn index block.steps _

theorem markWalk_keepsDepth (allPassOn : AllPassOn registry) (index loops : Nat)
    (blocks : List Block) : KeepsDepth levels (markWalk registry index loops blocks) := by
  induction blocks generalizing index loops with
  | nil => exact keepsDepth_finished _
  | cons block rest hypothesis =>
      refine (lookAt_keepsDepth _).bind fun stopping => ?_
      cases stopping with
      | true => exact keepsDepth_finished _
      | false =>
          simp only [Bool.false_eq_true, if_false]
          cases block.repetition with
          | forever =>
              refine (log_keepsDepth _ _).bind fun _ => ?_
              refine KeepsDepth.bind ?_ fun _ => hypothesis _ _
              exact (spawn_passesOn index block).keepsDepth ⟨trivial, fun _ => trivial⟩
          | times count =>
              refine (markBounded_keepsDepth allPassOn index block).bind fun state => ?_
              cases state with
              | completed => exact hypothesis _ _
              | _ => exact keepsDepth_finished _

theorem join_keepsDepth (tolerant : Bool) : KeepsDepth levels (plain (join tolerant)) :=
  (join_passesOn tolerant).keepsDepth ⟨trivial, fun _ => trivial⟩

theorem markWalkAndJoin_keepsDepth (allPassOn : AllPassOn registry) (blocks : List Block) :
    KeepsDepth levels (markWalkAndJoin registry blocks) := by
  refine (markWalk_keepsDepth allPassOn 0 0 blocks).bind fun ended => ?_
  refine (leave_keepsDepth (.walked ended.state) (fun _ => trivial) fun _ => rfl).bind fun _ => ?_
  split
  · exact keepsDepth_finished _
  · refine (join_keepsDepth false).bind fun _ => ?_
    split <;> exact keepsDepth_finished _

/-- A run that is called off leaves its steps and ends so. -/
theorem markExecute_keepsDepth (allPassOn : AllPassOn registry) (program : Program) :
    (markExecute registry program).Keeps Depth.discipline (Depth.EndsAt []) {} := by
  refine keeps_bind.mpr (keeps_attempt.mpr ?_)
  refine (markWalkAndJoin_keepsDepth allPassOn program.blocks {} rfl rfl).mono
    fun depth result ends => ?_
  rcases result with (fault | _) | state
  · refine ⟨ends.1, fun calledOff => ?_⟩
    cases (ends.2 calledOff).2
  · have clear : depth.isCalledOff = true → depth.due = none := fun calledOff => (ends.2 calledOff).1
    refine ⟨clear, fun _ _ => ⟨fun _ => rfl, fun _ _ => ⟨fun _ => rfl, fun answer expected => ?_⟩⟩⟩
    rcases answer with (fault | _) | _
    · exact (expected.2 fault rfl).elim
    · exact ⟨ends.1, fun _ => ⟨rfl, rfl⟩⟩
    · exact ⟨ends.1, fun _ => ⟨rfl, rfl⟩⟩
  · refine ⟨ends.1, fun calledOff => ?_⟩
    cases (ends.2 calledOff).2

/-! ### Loops -/

theorem markLoopSteps_keepsDepth (allPassOn : AllPassOn registry) (state : LoopState)
    (resolved : Bool) (steps : List Script.Step) :
    KeepsDepth levels (markLoopSteps registry state resolved steps) := by
  induction steps generalizing resolved with
  | nil => exact keepsDepth_finished _
  | cons step rest hypothesis =>
      refine (lookAt_keepsDepth _).bind fun stopping => ?_
      cases stopping with
      | true => exact keepsDepth_finished _
      | false =>
          refine (markInvoke_keepsDepth allPassOn step).bind fun outcome => ?_
          refine (returned_keepsDepth state.index step outcome).bind fun _ => ?_
          match outcome with
          | .cancelled => exact keepsDepth_finished _
          | .failed _ false => exact (log_keepsDepth _ _).bind fun _ => keepsDepth_finished _
          | .failed _ true => exact hypothesis resolved
          | .success _ => exact hypothesis true

theorem endLoop_asks_noReport (index passes : Nat) : (endLoop index passes).Asks IsNoReport :=
  (log_asks_noReport _ _).bind fun _ => trivial

theorem throttle_keepsDepth (state : LoopState) : KeepsDepth levels (plain (throttle state)) := by
  refine (throttle_passesOn state).keepsDepth ?_
  have last : (isStopping.bind fun stopping =>
      if stopping then endLoop state.index state.passes
      else .finished (.ok (.again .nap { state with warned := true }))).Asks IsNoReport := by
    refine ⟨trivial, fun stopping => ?_⟩
    cases stopping
    · trivial
    · exact endLoop_asks_noReport _ _
  unfold throttle
  split
  · exact (log_asks_noReport _ _).bind fun _ => last
  · exact last

theorem markTurn_keepsDepth (allPassOn : AllPassOn registry) (state : LoopState) :
    KeepsDepth levels (markTurn registry state) := by
  refine (lookAt_keepsDepth _).bind fun stopping => ?_
  cases stopping with
  | true => exact (endLoop_passesOn _ _).keepsDepth (endLoop_asks_noReport _ _)
  | false =>
      refine (markLoopSteps_keepsDepth allPassOn state false state.steps).bind fun resolved => ?_
      cases resolved with
      | true => exact keepsDepth_finished _
      | false => exact throttle_keepsDepth _

/-- A loop that is called off leaves its steps and ends so. -/
theorem markBeginLoop_keepsDepth (allPassOn : AllPassOn registry) (index : Nat) (block : Block) :
    KeepsDepth levels (markBeginLoop registry index block) := by
  unfold markBeginLoop
  split
  · next empty =>
      rw [beginLoop, if_pos empty]
      refine ((nap_passesOn _).bind fun _ => passesOn_finished _).keepsDepth ?_
      exact ⟨trivial, fun answer => by cases answer <;> trivial⟩
  · exact markTurn_keepsDepth allPassOn _

end Registry

/-! ### Along a trace -/

namespace Depth

/-- The steps that a task has to report when it is called off. -/
def owed (depth : Depth) : List String :=
  depth.due.toList ++ depth.levels

theorem advance_levels (depth : Depth) (trace : TaskTrace) :
    (discipline.advance depth trace).levels = trace.marks.foldl enter depth.levels := by
  induction trace generalizing depth with
  | nil => rfl
  | cons exchange rest hypothesis =>
      refine (hypothesis _).trans ?_
      obtain ⟨request | mark, answer⟩ := exchange
      · cases request with
        | action request => cases request <;> rfl
        | _ => rfl
      · cases mark <;> rfl

/-- What a task that is called off does next, it owes. -/
theorem owed_after {depth : Depth} (calledOff : depth.isCalledOff = true)
    {marked : Marked RunRequest Mark} (answer : Marked.Answer Mark RunRequest.Answer marked)
    (admitted : depth.admits marked) :
    (depth.after marked answer).isCalledOff = true ∧
      eventsOf (Activity.Trace.exchanges [⟨marked, answer⟩]) ++
        cancelledEvents (depth.after marked answer).owed = cancelledEvents depth.owed := by
  have moved : (depth.isCalledOff = true → depth.due = none) → ∀ told : Bool,
      (depth.isCalledOff || told) = true ∧
        cancelledEvents depth.levels = cancelledEvents depth.owed := by
    intro clear told
    simp [owed, clear calledOff, calledOff]
  cases marked with
  | request request =>
      cases request with
      | report event =>
          obtain ⟨isDue, cancelled⟩ := admitted
          refine ⟨calledOff, ?_⟩
          obtain ⟨name, outcome⟩ := event
          cases cancelled calledOff
          rw [owed, owed, isDue]
          rfl
      | log line => exact ⟨calledOff, rfl⟩
      | action request =>
          cases request with
          | isStopping => exact ⟨calledOff, rfl⟩
          | _ => exact moved admitted _
      | _ => exact moved admitted _
  | mark mark =>
      cases mark with
      | entered name =>
          cases calledOff.symm.trans admitted
      | left name =>
          obtain ⟨isHead, clear⟩ := admitted
          refine ⟨calledOff, ?_⟩
          obtain ⟨tail, levels⟩ := List.head?_eq_some_iff.mp isHead
          rw [owed, owed, clear calledOff, levels]
          change cancelledEvents (name :: depth.levels.tail) = _
          rw [levels]
          rfl
      | _ => exact ⟨calledOff, rfl⟩

/-- A task that is called off reports the steps that it owes one after another, as cancelled. -/
theorem unwinds {depth : Depth} {trace : TaskTrace} (inOrder : discipline.InOrder depth trace)
    (calledOff : depth.isCalledOff = true) :
    (discipline.advance depth trace).isCalledOff = true ∧
      eventsOf trace.exchanges ++ cancelledEvents (discipline.advance depth trace).owed =
        cancelledEvents depth.owed := by
  induction trace generalizing depth with
  | nil => exact ⟨calledOff, rfl⟩
  | cons exchange rest hypothesis =>
      obtain ⟨admitted, inOrderRest⟩ := inOrder
      obtain ⟨still, now⟩ := owed_after calledOff exchange.answer admitted
      obtain ⟨last, later⟩ := hypothesis inOrderRest still
      refine ⟨last, ?_⟩
      calc eventsOf (Activity.Trace.exchanges (exchange :: rest)) ++ _
          = eventsOf (Activity.Trace.exchanges [exchange]) ++
              (eventsOf (Activity.Trace.exchanges rest) ++ _) := by
            rw [← List.append_assoc, ← eventsOf_append, ← Activity.Trace.exchanges_append]
            rfl
        _ = eventsOf (Activity.Trace.exchanges [exchange]) ++ _ := congrArg (_ ++ ·) later
        _ = cancelledEvents depth.owed := now

/-- Whether a task can stand here at a depth: where it is about to begin and where it has ended, no
step is in progress. -/
def Fits {α : Type} (depth : Depth) : Standing α → Prop
  | .ready _ => depth.levels = [] ∧ depth.isCalledOff = false
  | .ended result => depth.EndsAt [] result
  | _ => True

end Depth

/-- Wherever a task stands, its trace keeps the discipline and has led it to a depth that fits. -/
theorem Standing.Stands.keepsDepth {α : Type} {renew : α → Option (MarkedActivity α)}
    {start : MarkedActivity α} {trace : TaskTrace} {standing : Standing α}
    (stands : standing.Stands renew start trace)
    (keeps : start.Keeps Depth.discipline (Depth.EndsAt []) {})
    (renewed : ∀ value next, renew value = some next → KeepsDepth [] next)
    (heard : ∀ exchange ∈ trace.exchanges, IsHeard exchange ∧ IsTolerated exchange) :
    Depth.discipline.InOrder {} trace ∧ (Depth.discipline.advance {} trace).Fits standing := by
  have expected : Depth.discipline.Expected {} trace :=
    Discipline.expected_of_exchanges (fun _ _ _ => id) (fun _ _ => trivial) _ heard
  have along {rest : MarkedActivity α} (unrolls : Unrolls renew start trace rest) :=
    unrolls.keeps keeps (fun depth value next ends renews =>
      renewed value next renews depth ends.1 ends.not_isCalledOff) expected
  have rested {next : MarkedActivity α} (fresh : Fresh renew start trace next) :
      (Depth.discipline.advance {} trace).levels = [] ∧
        (Depth.discipline.advance {} trace).isCalledOff = false := by
    cases fresh with
    | start => exact ⟨rfl, rfl⟩
    | again earlier renews => exact ⟨(along earlier).2.1, (along earlier).2.not_isCalledOff⟩
  obtain ⟨_, unrolls⟩ := stands.unrolls
  refine ⟨(along unrolls).1, ?_⟩
  match standing, stands with
  | .ready _, ⟨_, fresh, _⟩ => exact rested fresh
  | .ended _, .inl unrolls => exact (along unrolls).2
  | .ended _, .inr ⟨_, _, fresh⟩ =>
      obtain ⟨none, notCalledOff⟩ := rested fresh
      refine ⟨none, fun calledOff => ?_⟩
      rw [notCalledOff] at calledOff
      cases calledOff
  | .active _, _ => trivial
  | .waiting _ _, _ => trivial
  | .napping _ _ _ _, _ => trivial

end InputScript.Interleaving
