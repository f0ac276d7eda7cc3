/-
Module: InputScript.Proofs.Stopping
Purpose: What the activities of a run know of the signal.  An activity that has looked at the signal
  knows its state until its next request; that the signal is set it knows for good.  The activities
  of a run call an action only while they know that the signal is unset, and a loop ends without a
  fault only when it knows that the signal is set.
Main exports: Knowledge, discipline, Careful, beginLoop_careful
-/
import InputScript.Proofs.Exchange
import InputScript.Proofs.Nap
import InputScript.Run.Walk

namespace InputScript.Stopping

open Run Rehearsal Script

/-! ### Knowledge -/

/-- What is known of the signal. -/
inductive Knowledge where
  | unknown
  /-- It was unset at the last request. -/
  | unset
  | set

namespace Knowledge

/-- Whether the knowledge is true of a signal. -/
def Holds : Knowledge → Bool → Prop
  | .unknown, _ => True
  | .unset, signal => signal = false
  | .set, signal => signal = true

/-- What a look at the signal tells. -/
def ofLook (stopping : Bool) : Knowledge :=
  if stopping then .set else .unset

/-- What is left of the knowledge when something else has happened. -/
def later : Knowledge → Knowledge
  | .set => .set
  | _ => .unknown

theorem ofLook_holds (signal : Bool) : (ofLook signal).Holds signal := by
  cases signal <;> rfl

theorem later_ne_unset (known : Knowledge) : known.later ≠ .unset := by
  cases known <;> exact nofun

/-- Knowledge that something has happened to outlives a rise of the signal. -/
theorem Holds.later {known : Knowledge} {before after : Bool} (holds : known.Holds before)
    (rises : before = true → after = true) : known.later.Holds after := by
  cases known with
  | set => exact rises holds
  | unknown => trivial
  | unset => trivial

/-- Knowledge that does not say that the signal is unset outlives a rise of the signal. -/
theorem Holds.rise {known : Knowledge} {before after : Bool} (holds : known.Holds before)
    (certain : known ≠ .unset) (rises : before = true → after = true) : known.Holds after := by
  cases known with
  | set => exact rises holds
  | unknown => trivial
  | unset => exact absurd rfl certain

end Knowledge

/-! ### The discipline -/

/-- The discipline of a run's activities: an action is called only while the signal is known to be
unset, and loops are started only by a task that may do so. -/
def discipline (mayStart : Bool) : Discipline RunRequest.Answer Knowledge where
  admits
    | known, .call _ _ => known = .unset
    | _, .spawn _ _ => mayStart = true
    | _, _ => True
  expects
    | known, .action .isStopping, answer => known.Holds answer
    | _, .action (.nap chunk seconds), answer =>
      answer = .ok false → NapElapses chunk seconds 0
    | _, _, _ => True
  after
    | _, .action .isStopping, answer => .ofLook answer
    | _, .action .stop, _ => .set
    | _, .action (.nap _ _), .ok stopping => .ofLook stopping
    | known, _, _ => known.later

/-- An activity keeps the discipline whatever is known at its beginning. -/
def Careful {α : Type} (mayStart : Bool) (post : Knowledge → Except Interruption α → Prop)
    (activity : RunActivity α) : Prop :=
  ∀ known, activity.Keeps (discipline mayStart) post known

/-- Nothing is asked of the end of an activity. -/
def AnyEnd {α : Type} : Knowledge → Except Interruption α → Prop :=
  fun _ _ => True

/-- An activity that was interrupted ends as it should. -/
def Forgives {α : Type} (post : Knowledge → Except Interruption α → Prop) : Prop :=
  ∀ known interruption, post known (.error interruption)

section Rules

variable {α β : Type} {mayStart : Bool} {post : Knowledge → Except Interruption β → Prop}

theorem anyEnd_forgives : Forgives (AnyEnd : Knowledge → Except Interruption α → Prop) :=
  fun _ _ => trivial

theorem careful_finished {result : Except Interruption β} (ends : ∀ known, post known result) :
    Careful mayStart post (.finished result) :=
  ends

theorem careful_bind {activity : RunActivity α} {next : α → RunActivity β}
    (first : Careful mayStart AnyEnd activity) (second : ∀ value, Careful mayStart post (next value))
    (forgives : Forgives post) : Careful mayStart post (activity.bind next) := by
  intro known
  refine Activity.keeps_bind.mpr ((first known).mono ?_)
  rintro later (interruption | value) -
  · exact forgives later interruption
  · exact second value later

theorem careful_attempt {activity : RunActivity α} (careful : Careful mayStart AnyEnd activity) :
    Careful mayStart AnyEnd activity.attempt :=
  fun known => Activity.keeps_attempt.mpr (careful known)

/-- After a look at the signal its state is known. -/
theorem isStopping_bind_careful {next : Bool → RunActivity β}
    (set : (next true).Keeps (discipline mayStart) post .set)
    (unset : (next false).Keeps (discipline mayStart) post .unset) :
    Careful mayStart post (isStopping.bind next) := by
  refine fun known => ⟨trivial, ?_⟩
  rintro (_ | _) -
  · exact unset
  · exact set

theorem isStopping_careful : Careful mayStart AnyEnd isStopping :=
  fun _ => ⟨trivial, fun _ _ => trivial⟩

/-- An activity behind the check of the signal begins with the signal known to be unset. -/
theorem failIfStopping_bind_careful {next : Unit → RunActivity β}
    (unset : (next ()).Keeps (discipline mayStart) post .unset) (forgives : Forgives post) :
    Careful mayStart post (failIfStopping.bind next) := by
  refine fun known => ⟨trivial, ?_⟩
  rintro (_ | _) -
  · exact unset
  · exact forgives .set _

/-- An action calls no other action. -/
theorem ofAction_careful (activity : ActionActivity α) :
    Careful mayStart AnyEnd (ofAction activity) := by
  induction activity with
  | finished result => exact careful_finished fun _ => trivial
  | perform request next hypothesis =>
      exact fun known => ⟨trivial, fun answer _ => hypothesis answer _⟩

theorem handover_bind_careful (activity : RunActivity α)
    (careful : Careful mayStart AnyEnd activity) :
    Careful mayStart AnyEnd (handover.bind fun _ => activity) := by
  refine fun known => ⟨trivial, ?_⟩
  rintro (_ | _) -
  · trivial
  · exact careful _

theorem handedOver_careful (activity : ActionActivity α) :
    Careful mayStart AnyEnd (handedOver activity) := by
  induction activity with
  | finished result =>
      exact handover_bind_careful _ (careful_finished fun _ => trivial)
  | perform request next hypothesis =>
      rw [handedOver]
      split
      · exact handover_bind_careful _ (ofAction_careful _)
      · exact fun known => ⟨trivial, fun answer _ => hypothesis answer _⟩

theorem log_careful (level : Level) (message : String) : Careful mayStart AnyEnd (log level message) :=
  fun _ => ⟨trivial, fun _ _ => trivial⟩

theorem report_careful (event : StepEvent) : Careful mayStart AnyEnd (report event) :=
  fun _ => ⟨trivial, fun _ _ => trivial⟩

end Rules

/-! ### Steps -/

section Steps

variable {mayStart : Bool} (registry : Catalog.Registry)

/-- The call itself is in order while the signal is known to be unset. -/
theorem callResolved_keeps (resolution : Catalog.Resolution) :
    (callResolved resolution).Keeps (discipline mayStart) AnyEnd .unset := by
  refine ⟨rfl, fun ordinal _ => ?_⟩
  dsimp only
  split
  · exact ofAction_careful _ _
  · exact handedOver_careful _ _

/-- Between the check and the call there is only the choice of the overload, which asks for
nothing. -/
theorem perform_careful (name : String) {tokens : RunActivity (List String)}
    (careful : Careful mayStart AnyEnd tokens) :
    Careful mayStart AnyEnd (perform registry name tokens) := by
  refine failIfStopping_bind_careful ?_ anyEnd_forgives
  refine careful_bind careful (fun found => ?_) anyEnd_forgives _
  refine failIfStopping_bind_careful ?_ anyEnd_forgives
  cases registry.resolve name found with
  | ok resolution => exact callResolved_keeps resolution
  | error fault => trivial

theorem conclude_careful (name : String) (outcome : Outcome) :
    Careful mayStart AnyEnd (conclude name outcome) :=
  careful_bind isStopping_careful
    (fun _ => careful_bind (careful_finished fun _ => trivial)
      (fun _ => careful_bind (log_careful _ _) (fun _ => report_careful _) anyEnd_forgives)
      anyEnd_forgives)
    anyEnd_forgives

theorem reported_careful (name : String) {step : RunActivity Value}
    (careful : Careful mayStart AnyEnd step) : Careful mayStart AnyEnd (reported name step) :=
  careful_bind (careful_attempt careful)
    (fun _ => careful_bind (conclude_careful _ _)
      (fun _ => careful_finished fun _ => trivial) anyEnd_forgives)
    anyEnd_forgives

theorem tokenOf_careful {step : RunActivity Value} (careful : Careful mayStart AnyEnd step) :
    Careful mayStart AnyEnd (tokenOf step) :=
  careful_bind careful
    (fun _ => careful_bind isStopping_careful
      (fun _ => careful_finished fun _ => trivial) anyEnd_forgives)
    anyEnd_forgives

mutual

theorem argumentToken_careful :
    (argument : Argument) → Careful mayStart AnyEnd (argumentToken registry argument)
  | .token text => by
      rw [argumentToken]
      split
      · exact tokenOf_careful (reported_careful _
          (perform_careful registry text (careful_finished fun _ => trivial)))
      · exact careful_finished fun _ => trivial
  | .step name arguments => by
      rw [argumentToken]
      exact tokenOf_careful (reported_careful _
        (perform_careful registry name (tokensOf_careful arguments)))

theorem tokensOf_careful :
    (arguments : List Argument) → Careful mayStart AnyEnd (tokensOf registry arguments)
  | [] => careful_finished fun _ => trivial
  | argument :: rest => by
      rw [tokensOf]
      exact careful_bind (argumentToken_careful argument)
        (fun _ => careful_bind (tokensOf_careful rest)
          (fun _ => careful_finished fun _ => trivial) anyEnd_forgives)
        anyEnd_forgives

end

theorem invoke_careful (step : Step) : Careful mayStart AnyEnd (invoke registry step) := by
  refine careful_bind (careful_attempt (reported_careful _
    (perform_careful registry _ (tokensOf_careful registry _)))) ?_ anyEnd_forgives
  rintro ((fault | _) | value) <;> exact careful_finished fun _ => trivial

end Steps

/-! ### The walk -/

section Walk

variable (registry : Catalog.Registry)

theorem runSteps_careful (index : Nat) (steps : List Step) :
    Careful true AnyEnd (runSteps registry index steps) := by
  induction steps with
  | nil => exact careful_finished fun _ => trivial
  | cons step rest hypothesis =>
      rw [runSteps]
      refine careful_bind isStopping_careful ?_ anyEnd_forgives
      rintro (_ | _)
      · refine careful_bind (invoke_careful registry step) ?_ anyEnd_forgives
        rintro (_ | _ | ⟨_, _ | _⟩)
        · exact hypothesis
        · exact careful_finished fun _ => trivial
        · exact careful_bind (log_careful _ _) (fun _ => careful_finished fun _ => trivial)
            anyEnd_forgives
        · exact hypothesis
      · exact careful_finished fun _ => trivial

theorem runPasses_careful (index : Nat) (steps : List Step) (passes : Nat) :
    Careful true AnyEnd (runPasses registry index steps passes) := by
  induction passes with
  | zero => exact careful_finished fun _ => trivial
  | succ passes hypothesis =>
      refine careful_bind (runSteps_careful registry index steps) ?_ anyEnd_forgives
      rintro (_ | _ | _ | _ | _)
      case completed => exact hypothesis
      all_goals exact careful_finished fun _ => trivial

theorem runBounded_careful (index : Nat) (block : Block) :
    Careful true AnyEnd (runBounded registry index block) := by
  refine careful_bind (log_careful _ _) (fun _ => ?_) anyEnd_forgives
  split
  · exact careful_finished fun _ => trivial
  · exact runPasses_careful registry index _ _

theorem spawn_bind_careful {α : Type} (index : Nat) (block : Block) {next : Unit → RunActivity α}
    (careful : Careful true AnyEnd (next ())) :
    Careful true AnyEnd ((spawn index block).bind next) :=
  fun _ => ⟨rfl, fun _ _ => careful _⟩

theorem walk_careful (index loops : Nat) (blocks : List Block) :
    Careful true AnyEnd (walk registry index loops blocks) := by
  induction blocks generalizing index loops with
  | nil => exact careful_finished fun _ => trivial
  | cons block rest hypothesis =>
      rw [walk]
      refine careful_bind isStopping_careful ?_ anyEnd_forgives
      rintro (_ | _)
      · cases block.repetition with
        | forever =>
            exact careful_bind (log_careful _ _)
              (fun _ => spawn_bind_careful index block (hypothesis _ _)) anyEnd_forgives
        | times count =>
            refine careful_bind (runBounded_careful registry index block) ?_ anyEnd_forgives
            rintro (_ | _ | _ | _ | _)
            case completed => exact hypothesis _ _
            all_goals exact careful_finished fun _ => trivial
      · exact careful_finished fun _ => trivial

theorem join_careful (tolerant : Bool) : Careful true AnyEnd (join tolerant) :=
  fun _ => ⟨trivial, fun _ _ => trivial⟩

theorem walkAndJoin_careful (blocks : List Block) :
    Careful true AnyEnd (walkAndJoin registry blocks) := by
  refine careful_bind (walk_careful registry 0 0 blocks) (fun ended => ?_) anyEnd_forgives
  split
  · exact careful_finished fun _ => trivial
  · refine careful_bind (join_careful false) (fun _ => ?_) anyEnd_forgives
    split <;> exact careful_finished fun _ => trivial

/-- A run calls an action only while it knows that the signal is unset. -/
theorem execute_careful (program : Program) : Careful true AnyEnd (execute registry program) := by
  refine careful_bind (careful_attempt (walkAndJoin_careful registry program.blocks)) ?_
    anyEnd_forgives
  rintro ((fault | _) | state)
  · exact careful_finished fun _ => trivial
  · refine careful_bind (ofAction_careful _) (fun _ => ?_) anyEnd_forgives
    refine careful_bind (fun _ => ⟨trivial, fun _ _ => trivial⟩) (fun _ => ?_) anyEnd_forgives
    exact careful_bind (join_careful true) (fun _ => careful_finished fun _ => trivial)
      anyEnd_forgives
  · exact careful_finished fun _ => trivial

end Walk

/-! ### Loops -/

section Loops

variable (registry : Catalog.Registry)

/-- A loop ends by itself only when it knows that the signal is set. -/
def LoopEnd (known : Knowledge) (result : Except Interruption LoopStep) : Prop :=
  result = .ok .ended → known = .set

theorem loopEnd_forgives : Forgives LoopEnd := fun _ _ impossible => nomatch impossible

theorem loopEnd_again (rest : LoopRest) (next : LoopState) (known : Knowledge) :
    LoopEnd known (.ok (.again rest next)) := fun impossible => nomatch impossible

theorem loopSteps_careful (state : LoopState) (resolved : Bool) (steps : List Step) :
    Careful false AnyEnd (loopSteps registry state resolved steps) := by
  induction steps generalizing resolved with
  | nil => exact careful_finished fun _ => trivial
  | cons step rest hypothesis =>
      rw [loopSteps]
      refine careful_bind isStopping_careful ?_ anyEnd_forgives
      rintro (_ | _)
      · refine careful_bind (invoke_careful registry step) ?_ anyEnd_forgives
        rintro (_ | _ | ⟨_, _ | _⟩)
        · exact hypothesis _
        · exact careful_finished fun _ => trivial
        · exact careful_bind (log_careful _ _) (fun _ => careful_finished fun _ => trivial)
            anyEnd_forgives
        · exact hypothesis _
      · exact careful_finished fun _ => trivial

theorem endLoop_keeps (index passes : Nat) :
    (endLoop index passes).Keeps (discipline false) LoopEnd .set := by
  refine ⟨trivial, ?_⟩
  rintro (fault | _) -
  · exact loopEnd_forgives _ _
  · exact fun _ => rfl

theorem throttle_careful (state : LoopState) : Careful false LoopEnd (throttle state) := by
  have look : Careful false LoopEnd (isStopping.bind fun stopping =>
      if stopping = true then endLoop state.index state.passes
      else .finished (.ok (.again .nap { state with warned := true }))) :=
    isStopping_bind_careful (endLoop_keeps _ _) (loopEnd_again _ _ _)
  unfold throttle
  dsimp only
  split
  · exact careful_bind (log_careful _ _) (fun _ => look) loopEnd_forgives
  · exact look

/-- One turn of a loop ends it only if the signal is set. -/
theorem turn_careful (state : LoopState) : Careful false LoopEnd (turn registry state) := by
  refine isStopping_bind_careful (endLoop_keeps _ _) ?_
  refine careful_bind (loopSteps_careful registry state false state.steps) (fun resolved => ?_)
    loopEnd_forgives _
  dsimp only
  split
  · exact careful_finished (loopEnd_again _ _)
  · exact throttle_careful _

/-- The first turn of a loop ends it only if the signal is set, also without steps: a nap without end
is over only then. -/
theorem beginLoop_careful (index : Nat) (block : Block) :
    Careful false LoopEnd (beginLoop registry index block) := by
  unfold beginLoop
  split
  · refine fun known => ⟨trivial, ?_⟩
    rintro (interruption | _ | _) elapses
    · exact loopEnd_forgives _ _
    · exact absurd (elapses rfl) not_napElapses_infinity
    · exact fun _ => rfl
  · exact turn_careful registry _

end Loops

end InputScript.Stopping
