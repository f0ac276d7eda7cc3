/-
Module: InputScript.Proofs.Marks
Purpose: Activities that leave marks.  The requests of a run do not tell which step they belong to, so
  the walk of a run and its loops are followed by activities that also mark where they are.  Marks
  are not answered and change nothing: without them the activities are the ones that run.
Main exports: Marked, unmark, exists_due, Interleaving.markBeginLoop
-/
import InputScript.Proofs.Echo

namespace InputScript

/-! ### Marked requests -/

/-- A request, or a mark that an activity leaves behind. -/
inductive Marked (Request Mark : Type) where
  | request (request : Request)
  | mark (mark : Mark)

/-- The answer to a request; a mark has none. -/
def Marked.Answer {Request : Type} (Mark : Type) (Answer : Request → Type) :
    Marked Request Mark → Type
  | .request asked => Answer asked
  | .mark _ => Unit

namespace Activity

variable {Request : Type} {Answer : Request → Type} {Mark α β : Type}

/-- An activity without its marks. -/
def unmark : Activity (Marked.Answer Mark Answer) α → Activity Answer α
  | .finished result => .finished result
  | .perform (.request request) next => .perform request fun answer => unmark (next answer)
  | .perform (.mark _) next => unmark (next ())

/-- An activity that leaves no marks. -/
def plain (Mark : Type) (activity : Activity Answer α) : Activity (Marked.Answer Mark Answer) α :=
  activity.lift .request fun _ answer => answer

/-- Leave a mark. -/
def leave (mark : Mark) : Activity (Marked.Answer Mark Answer) Unit :=
  .perform (.mark mark) fun _ => .finished (.ok ())

@[simp] theorem unmark_finished (result : Except Interruption α) :
    (Activity.finished result : Activity (Marked.Answer Mark Answer) α).unmark =
      .finished result := rfl

@[simp] theorem unmark_plain (activity : Activity Answer α) :
    (activity.plain Mark).unmark = activity := by
  induction activity with
  | finished result => rfl
  | perform request next hypothesis =>
      exact congrArg (Activity.perform request) (funext hypothesis)

@[simp] theorem unmark_ofExcept (result : Except Fault α) :
    (ofExcept result : Activity (Marked.Answer Mark Answer) α).unmark = ofExcept result := rfl

@[simp] theorem unmark_bind (activity : Activity (Marked.Answer Mark Answer) α)
    (next : α → Activity (Marked.Answer Mark Answer) β) :
    (activity.bind next).unmark = activity.unmark.bind fun value => (next value).unmark := by
  induction activity with
  | finished result => cases result <;> rfl
  | perform request resume hypothesis =>
      cases request with
      | request request => exact congrArg (Activity.perform request) (funext hypothesis)
      | mark mark => exact hypothesis ()

@[simp] theorem unmark_attempt (activity : Activity (Marked.Answer Mark Answer) α) :
    activity.attempt.unmark = activity.unmark.attempt := by
  induction activity with
  | finished result => rfl
  | perform request resume hypothesis =>
      cases request with
      | request request => exact congrArg (Activity.perform request) (funext hypothesis)
      | mark mark => exact hypothesis ()

/-! ### Traces -/

/-- The exchanges of an activity that leaves marks. -/
abbrev Trace (Mark : Type) (Answer : Request → Type) := List (Exchange (Marked.Answer Mark Answer))

/-- The exchanges of a trace, without its marks. -/
def Trace.exchanges : Trace Mark Answer → List (Exchange Answer)
  | [] => []
  | ⟨.request request, answer⟩ :: rest => ⟨request, answer⟩ :: exchanges rest
  | ⟨.mark _, _⟩ :: rest => exchanges rest

/-- The marks of a trace. -/
def Trace.marks : Trace Mark Answer → List Mark
  | [] => []
  | ⟨.request _, _⟩ :: rest => marks rest
  | ⟨.mark mark, _⟩ :: rest => mark :: marks rest

@[simp] theorem Trace.exchanges_append (first second : Trace Mark Answer) :
    (first ++ second).exchanges = first.exchanges ++ second.exchanges := by
  induction first with
  | nil => rfl
  | cons exchange rest hypothesis =>
      obtain ⟨request | mark, answer⟩ := exchange <;> simp [exchanges, hypothesis]

@[simp] theorem Trace.marks_append (first second : Trace Mark Answer) :
    (first ++ second).marks = first.marks ++ second.marks := by
  induction first with
  | nil => rfl
  | cons exchange rest hypothesis =>
      obtain ⟨request | mark, answer⟩ := exchange <;> simp [marks, hypothesis]

/-- Whether an activity has left all marks that are due before its next request. -/
def IsDue : Activity (Marked.Answer Mark Answer) α → Prop
  | .perform (.mark _) _ => False
  | _ => True

/-- An activity leaves the marks that are due. -/
theorem exists_due (activity : Activity (Marked.Answer Mark Answer) α) :
    ∃ (trace : Trace Mark Answer) (rest : Activity (Marked.Answer Mark Answer) α),
      activity.Leads trace rest ∧ rest.IsDue ∧ rest.unmark = activity.unmark ∧
        trace.exchanges = [] := by
  induction activity with
  | finished result => exact ⟨[], _, .rest _, trivial, rfl, rfl⟩
  | perform request next hypothesis =>
      cases request with
      | request request => exact ⟨[], _, .rest _, trivial, rfl, rfl⟩
      | mark mark =>
          obtain ⟨trace, rest, leads, due, same, silent⟩ := hypothesis ()
          exact ⟨⟨.mark mark, ()⟩ :: trace, rest, .exchange leads, due, same, silent⟩

variable {activity : Activity (Marked.Answer Mark Answer) α}

/-- An activity that has no marks due and stands before a request without its marks stands before
that request. -/
theorem IsDue.perform_of_unmark (due : activity.IsDue) {request : Request}
    {next : Answer request → Activity Answer α} (same : activity.unmark = .perform request next) :
    ∃ resume : Answer request → Activity (Marked.Answer Mark Answer) α,
      activity = .perform (.request request) resume ∧ ∀ answer, (resume answer).unmark = next answer := by
  cases activity with
  | finished result => cases same
  | perform marked resume =>
      cases marked with
      | request request =>
          cases same
          exact ⟨resume, rfl, fun _ => rfl⟩
      | mark mark => exact due.elim

theorem IsDue.finished_of_unmark (due : activity.IsDue) {result : Except Interruption α}
    (same : activity.unmark = .finished result) : activity = .finished result := by
  cases activity with
  | finished ended =>
      cases same
      rfl
  | perform marked resume =>
      cases marked with
      | request request => cases same
      | mark mark => exact due.elim

/-- Where a marked activity is led to, without its marks. -/
theorem Leads.unmark {rest : Activity (Marked.Answer Mark Answer) α} {trace : Trace Mark Answer}
    (leads : activity.Leads trace rest) : activity.unmark.Leads trace.exchanges rest.unmark := by
  induction leads with
  | rest activity => exact .rest _
  | @exchange request answer resume trace last leads hypothesis =>
      cases request with
      | request request => exact .exchange hypothesis
      | mark mark => exact hypothesis

end Activity

/-! ### Disciplines along a trace -/

section Discipline

variable {Request : Type} {Answer : Request → Type} {σ α : Type} (discipline : Discipline Answer σ)

/-- The state that exchanges lead to. -/
def Discipline.advance (state : σ) (exchanges : List (Activity.Exchange Answer)) : σ :=
  exchanges.foldl (fun state exchange => discipline.after state exchange.request exchange.answer)
    state

/-- Whether each request is in order where it is made. -/
def Discipline.InOrder : σ → List (Activity.Exchange Answer) → Prop
  | _, [] => True
  | state, exchange :: rest =>
    discipline.admits state exchange.request ∧
      InOrder (discipline.after state exchange.request exchange.answer) rest

/-- Whether each answer can come where it comes. -/
def Discipline.Expected : σ → List (Activity.Exchange Answer) → Prop
  | _, [] => True
  | state, exchange :: rest =>
    discipline.expects state exchange.request exchange.answer ∧
      Expected (discipline.after state exchange.request exchange.answer) rest

variable {discipline}

theorem Discipline.advance_append (state : σ) (first second : List (Activity.Exchange Answer)) :
    discipline.advance state (first ++ second) =
      discipline.advance (discipline.advance state first) second :=
  List.foldl_append

variable {state : σ} {first second : List (Activity.Exchange Answer)}

theorem Discipline.inOrder_append :
    discipline.InOrder state (first ++ second) ↔
      discipline.InOrder state first ∧
        discipline.InOrder (discipline.advance state first) second := by
  induction first generalizing state with
  | nil => simp [InOrder, advance]
  | cons exchange rest hypothesis =>
      simp [InOrder, advance, hypothesis, and_assoc]

theorem Discipline.expected_append :
    discipline.Expected state (first ++ second) ↔
      discipline.Expected state first ∧
        discipline.Expected (discipline.advance state first) second := by
  induction first generalizing state with
  | nil => simp [Expected, advance]
  | cons exchange rest hypothesis =>
      simp [Expected, advance, hypothesis, and_assoc]

/-- An activity whose requests are all in order in a state and do not change it keeps a
discipline. -/
theorem Activity.Asks.keeps {post : σ → Except Interruption α → Prop} {allowed : Request → Prop}
    {activity : Activity Answer α} (asks : activity.Asks allowed)
    (inOrder : ∀ request, allowed request → discipline.admits state request)
    (unmoved : ∀ request answer, allowed request → discipline.after state request answer = state)
    (ends : ∀ exchanges result, activity.Runs exchanges result → post state result) :
    activity.Keeps discipline post state := by
  induction activity with
  | finished result => exact ends [] result (.rest _)
  | perform request next hypothesis =>
      refine ⟨inOrder request asks.1, fun answer _ => ?_⟩
      rw [unmoved request answer asks.1]
      refine hypothesis answer (asks.2 answer) fun exchanges result ran => ?_
      exact ends _ result (.exchange ran)

/-- Where the exchanges of a trace can come, the trace can. -/
theorem Discipline.expected_of_exchanges {Mark : Type}
    {discipline : Discipline (Marked.Answer Mark Answer) σ}
    {possible : Activity.Exchange Answer → Prop}
    (expects : ∀ state request answer, possible ⟨request, answer⟩ →
      discipline.expects state (.request request) answer)
    (silent : ∀ state mark, discipline.expects state (.mark mark) ()) (state : σ)
    {trace : Activity.Trace Mark Answer} (allPossible : ∀ exchange ∈ trace.exchanges, possible exchange) :
    discipline.Expected state trace := by
  induction trace generalizing state with
  | nil => trivial
  | cons exchange rest hypothesis =>
      obtain ⟨request | mark, answer⟩ := exchange
      · obtain ⟨now, later⟩ := List.forall_mem_cons.mp allPossible
        exact ⟨expects state request answer now, hypothesis _ later⟩
      · exact ⟨silent state mark, hypothesis _ allPossible⟩

end Discipline

namespace Interleaving

open Catalog Run Rehearsal Script
open Activity (runs_finished unmark_bind asks_ofExcept unmark_attempt bind_eq)

/-! ### The marks of a run -/

/-- A place where a task of a run looks at the signal before it goes on. -/
inductive Station where
  /-- Before a block of the program, given with its place. -/
  | block (index : Nat) (block : Block)
  /-- Before a step of the block at a place. -/
  | step (index : Nat) (step : Script.Step)
  /-- Before the next pass of the loop of a block, and after so many passes. -/
  | pass (index passes : Nat)

/-- What the walk of a run and its loops mark. -/
inductive Mark where
  /-- It has looked at the signal.  Unless the run is to be stopped, the step is invoked next, or the
  block or the pass is begun. -/
  | looked (station : Station) (stopping : Bool)
  /-- A step of the block at a place has returned. -/
  | returned (index : Nat) (step : Script.Step) (outcome : Outcome)
  /-- The walk is through with the blocks. -/
  | walked (state : RunState)
  /-- It has entered a step, a nested one included. -/
  | entered (name : String)
  /-- The step that was entered last has ended, and its end is to be reported. -/
  | left (name : String)

/-- An activity of a run that leaves marks. -/
abbrev MarkedActivity := Activity (Marked.Answer Mark RunRequest.Answer)

/-- The exchanges and marks of a task. -/
abbrev TaskTrace := Activity.Trace Mark RunRequest.Answer

/-- Leave a mark of a run. -/
def leave (mark : Mark) : MarkedActivity Unit := Activity.leave mark

/-- An activity of a run that leaves no marks. -/
def plain {α : Type} (activity : RunActivity α) : MarkedActivity α := activity.plain Mark

@[simp] theorem unmark_leave (mark : Mark) : (leave mark).unmark = .finished (.ok ()) := rfl

variable {α : Type}

@[simp] theorem unmark_plain (activity : RunActivity α) :
    (plain activity).unmark = activity :=
  Activity.unmark_plain activity

theorem plain_bind {β : Type} (activity : RunActivity α) (next : α → RunActivity β) :
    plain (activity.bind next) = (plain activity).bind fun value => plain (next value) := by
  induction activity with
  | finished result => cases result <;> rfl
  | perform request resume hypothesis =>
      exact congrArg (Activity.perform (Marked.request request)) (funext hypothesis)

/-- Look at the signal at a station. -/
def lookAt (station : Station) : MarkedActivity Bool := do
  let stopping ← plain isStopping
  leave (.looked station stopping)
  return stopping

@[simp] theorem unmark_lookAt (station : Station) : (lookAt station).unmark = isStopping := by
  simp only [lookAt, bind_eq, unmark_bind, unmark_plain, unmark_leave,
    Activity.bind_ok]
  rfl

section Steps

variable (registry : Registry)

/-- Carry out a step and conclude it, between two marks. -/
def markReported (name : String) (step : MarkedActivity Value) : MarkedActivity Value := do
  leave (.entered name)
  let result ← step.attempt
  leave (.left name)
  plain (conclude name (outcomeOf result))
  .finished result

/-- Call the operation of a name with the tokens that an activity gives, leaving its marks. -/
def markPerform (name : String) (tokens : MarkedActivity (List String)) : MarkedActivity Value := do
  plain failIfStopping
  let found ← tokens
  plain failIfStopping
  let resolution ← Activity.ofExcept (registry.resolve name found)
  plain (callResolved resolution)

/-- The token that stands for the result of a step that leaves marks. -/
def markTokenOf (step : MarkedActivity Value) : MarkedActivity String := do
  let value ← step
  Activity.ofExcept (Fault.orUnwritten (value.token? (← plain isStopping)))

mutual

/-- The token of an argument, with the marks of its nested steps. -/
def markArgumentToken : Argument → MarkedActivity String
  | .token text =>
    if registry.isZeroArity text then
      markTokenOf (markReported text (markPerform registry text (pure [])))
    else pure text
  | .step name arguments =>
    markTokenOf (markReported name (markPerform registry name (markTokensOf arguments)))

/-- The tokens of arguments from left to right, with the marks of their nested steps. -/
def markTokensOf : List Argument → MarkedActivity (List String)
  | [] => pure []
  | argument :: rest => do
    let token ← markArgumentToken argument
    let tokens ← markTokensOf rest
    return token :: tokens

end

/-- Carry out a step with all its nested steps, leaving their marks. -/
def markInvoke (step : Script.Step) : MarkedActivity Outcome := do
  let activity :=
    markReported step.name (markPerform registry step.name (markTokensOf registry step.arguments))
  match ← activity.attempt with
  | .ok value => return .success value
  | .error (.fault fault) => return fault.outcome
  | .error .revoked => Activity.interrupt .revoked

/-! ### The marks of a walk -/

/-- Carry out the steps of a block once, leaving marks. -/
def markSteps (index : Nat) : List Script.Step → MarkedActivity RunState
  | [] => pure .completed
  | step :: rest => do
    if ← lookAt (.step index step) then return .cancelled
    let outcome ← markInvoke registry step
    leave (.returned index step outcome)
    match outcome with
    | .cancelled => return .cancelled
    | .failed _ false =>
      plain (log .error s!"Block {index + 1}: aborted at {step.name}")
      return .faulted
    | _ => markSteps index rest

/-- Carry out the steps of a block a number of times, leaving marks. -/
def markPasses (index : Nat) (steps : List Script.Step) : Nat → MarkedActivity RunState
  | 0 => pure .completed
  | passes + 1 => do
    match ← markSteps registry index steps with
    | .completed => markPasses index steps passes
    | state => return state

/-- Carry out a bounded block, leaving marks. -/
def markBounded (index : Nat) (block : Block) : MarkedActivity RunState := do
  plain (log .debug s!"Block {index + 1}: {block.repetition.passes} iteration(s)")
  if block.steps.isEmpty then return .completed
  markPasses registry index block.steps block.repetition.passes

/-- Walk through the blocks from the given place on, leaving marks. -/
def markWalk (index loops : Nat) : List Block → MarkedActivity WalkEnd
  | [] => pure ⟨.completed, loops⟩
  | block :: rest => do
    if ← lookAt (.block index block) then return ⟨.cancelled, loops⟩
    match block.repetition with
    | .forever =>
      plain (log .info s!"Block {index + 1}: looping until stopped")
      plain (spawn index block)
      markWalk (index + 1) (loops + 1) rest
    | .times _ =>
      match ← markBounded registry index block with
      | .completed => markWalk (index + 1) loops rest
      | state => return ⟨state, loops⟩

/-- Walk through the blocks and wait for the loops, leaving marks. -/
def markWalkAndJoin (blocks : List Block) : MarkedActivity RunState := do
  let ended ← markWalk registry 0 0 blocks
  leave (.walked ended.state)
  if ended.loops == 0 then return ended.state
  plain (join false)
  if ended.state == .completed then return .cancelled
  return ended.state

/-- Run a program, leaving marks. -/
def markExecute (program : Program) : MarkedActivity RunState := do
  match ← (markWalkAndJoin registry program.blocks).attempt with
  | .ok state => return state
  | .error (.fault fault) => Activity.fail fault
  | .error .revoked =>
    plain stop
    plain revokeLoops
    plain (join true)
    Activity.interrupt .revoked

/-! ### The marks of a loop -/

/-- One pass through the steps of a loop, leaving marks. -/
def markLoopSteps (state : LoopState) (resolved : Bool) : List Script.Step → MarkedActivity Bool
  | [] => pure resolved
  | step :: rest => do
    if ← lookAt (.step state.index step) then return resolved
    let outcome ← markInvoke registry step
    leave (.returned state.index step outcome)
    match outcome with
    | .cancelled => return resolved
    | .failed _ true => markLoopSteps state resolved rest
    | .failed _ false =>
      plain (log .warning
        s!"Block {state.index + 1}: iteration {state.passes + 1} abandoned at {step.name}")
      return true
    | .success _ => markLoopSteps state true rest

/-- One turn of a loop, leaving marks. -/
def markTurn (state : LoopState) : MarkedActivity LoopStep := do
  if ← lookAt (.pass state.index state.passes) then plain (endLoop state.index state.passes)
  else
    let resolved ← markLoopSteps registry state false state.steps
    let after := { state with passes := state.passes + 1 }
    if resolved then return .again .pass after else plain (throttle after)

/-- The beginning of the loop of a block, leaving marks. -/
def markBeginLoop (index : Nat) (block : Block) : MarkedActivity LoopStep :=
  if block.steps.isEmpty then plain (beginLoop registry index block)
  else markTurn registry { index := index, steps := block.steps }

/-! ### Without their marks the activities are the ones that run -/

@[simp] theorem markReported_unmark (name : String) (step : MarkedActivity Value) :
    (markReported name step).unmark = reported name step.unmark := by
  simp [markReported, reported]

@[simp] theorem markPerform_unmark (name : String) (tokens : MarkedActivity (List String)) :
    (markPerform registry name tokens).unmark = perform registry name tokens.unmark := by
  simp [markPerform, perform]

@[simp] theorem markTokenOf_unmark (step : MarkedActivity Value) :
    (markTokenOf step).unmark = tokenOf step.unmark := by
  simp [markTokenOf, tokenOf]

mutual

theorem markArgumentToken_unmark : (argument : Argument) →
    (markArgumentToken registry argument).unmark = argumentToken registry argument
  | .token text => by
      rw [markArgumentToken, argumentToken]
      split <;> simp
  | .step name arguments => by
      rw [markArgumentToken, argumentToken, markTokenOf_unmark, markReported_unmark,
        markPerform_unmark, markTokensOf_unmark arguments]

theorem markTokensOf_unmark : (arguments : List Argument) →
    (markTokensOf registry arguments).unmark = tokensOf registry arguments
  | [] => by simp [markTokensOf, tokensOf]
  | argument :: rest => by
      simp [markTokensOf, tokensOf, markArgumentToken_unmark argument, markTokensOf_unmark rest]

end

@[simp] theorem markInvoke_unmark (step : Script.Step) :
    (markInvoke registry step).unmark = invoke registry step := by
  simp only [markInvoke, invoke, bind_eq, unmark_bind, unmark_attempt,
    markReported_unmark, markPerform_unmark, markTokensOf_unmark]
  congr 1
  funext result
  rcases result with (fault | _) | value <;> rfl

@[simp] theorem markSteps_unmark (index : Nat) (steps : List Script.Step) :
    (markSteps registry index steps).unmark = runSteps registry index steps := by
  induction steps with
  | nil => rfl
  | cons step rest hypothesis =>
      simp only [markSteps, runSteps, bind_eq, unmark_bind, unmark_lookAt]
      congr 1
      funext stopping
      cases stopping with
      | true => rfl
      | false =>
          simp only [Bool.false_eq_true, if_false, unmark_bind, markInvoke_unmark,
            unmark_leave, Activity.bind_ok]
          congr 1
          funext outcome
          cases outcome with
          | cancelled => rfl
          | success value => exact hypothesis
          | failed message unresolved =>
              cases unresolved with
              | false => simp
              | true => exact hypothesis

@[simp] theorem markPasses_unmark (index : Nat) (steps : List Script.Step) (passes : Nat) :
    (markPasses registry index steps passes).unmark = runPasses registry index steps passes := by
  induction passes with
  | zero => rfl
  | succ passes hypothesis =>
      simp only [markPasses, runPasses, bind_eq, unmark_bind, markSteps_unmark]
      congr 1
      funext state
      cases state with
      | completed => exact hypothesis
      | _ => rfl

@[simp] theorem markBounded_unmark (index : Nat) (block : Block) :
    (markBounded registry index block).unmark = runBounded registry index block := by
  simp only [markBounded, runBounded, bind_eq, unmark_bind, unmark_plain]
  congr 1
  funext _
  split <;> simp

@[simp] theorem markWalk_unmark (index loops : Nat) (blocks : List Block) :
    (markWalk registry index loops blocks).unmark = walk registry index loops blocks := by
  induction blocks generalizing index loops with
  | nil => rfl
  | cons block rest hypothesis =>
      simp only [markWalk, walk, bind_eq, unmark_bind, unmark_lookAt]
      congr 1
      funext stopping
      cases stopping with
      | true => rfl
      | false =>
          simp only [Bool.false_eq_true, if_false]
          cases block.repetition with
          | forever => simp [hypothesis]
          | times count =>
              simp only [unmark_bind, markBounded_unmark]
              congr 1
              funext state
              cases state with
              | completed => exact hypothesis _ _
              | _ => rfl

/-- To leave marks changes nothing in the walk of a run. -/
theorem markExecute_unmark (program : Program) :
    (markExecute registry program).unmark = execute registry program := by
  have walked : (markWalkAndJoin registry program.blocks).unmark =
      walkAndJoin registry program.blocks := by
    simp only [markWalkAndJoin, walkAndJoin, bind_eq, unmark_bind,
      markWalk_unmark, unmark_leave, Activity.bind_ok]
    congr 1
    funext ended
    split
    · rfl
    · simp only [unmark_bind, unmark_plain]
      congr 1
      funext _
      split <;> rfl
  simp only [markExecute, execute, bind_eq, unmark_bind, unmark_attempt,
    walked]
  congr 1
  funext result
  rcases result with (fault | _) | state
  · rfl
  · simp only [unmark_bind, unmark_plain]
    rfl
  · rfl

@[simp] theorem markLoopSteps_unmark (state : LoopState) (resolved : Bool)
    (steps : List Script.Step) :
    (markLoopSteps registry state resolved steps).unmark = loopSteps registry state resolved steps := by
  induction steps generalizing resolved with
  | nil => rfl
  | cons step rest hypothesis =>
      simp only [markLoopSteps, loopSteps, bind_eq, unmark_bind, unmark_lookAt]
      congr 1
      funext stopping
      cases stopping with
      | true => rfl
      | false =>
          simp only [Bool.false_eq_true, if_false, unmark_bind, markInvoke_unmark,
            unmark_leave, Activity.bind_ok]
          congr 1
          funext outcome
          cases outcome with
          | cancelled => rfl
          | success value => exact hypothesis _
          | failed message unresolved =>
              cases unresolved with
              | false => simp
              | true => exact hypothesis _

theorem markTurn_unmark (state : LoopState) :
    (markTurn registry state).unmark = turn registry state := by
  simp only [markTurn, turn, bind_eq, unmark_bind, unmark_lookAt]
  congr 1
  funext stopping
  cases stopping with
  | true => simp
  | false =>
      simp only [Bool.false_eq_true, if_false, unmark_bind, markLoopSteps_unmark]
      congr 1
      funext resolved
      cases resolved <;> simp

/-- To leave marks changes nothing in a loop. -/
theorem markBeginLoop_unmark (index : Nat) (block : Block) :
    (markBeginLoop registry index block).unmark = beginLoop registry index block := by
  unfold markBeginLoop
  split
  · simp
  · next nonempty =>
      rw [markTurn_unmark, beginLoop, if_neg nonempty]

end Steps

/-! ### What a step asks for -/

/-- The requests and marks of a step that is being carried out. -/
def IsOfStep : Marked RunRequest Mark → Prop
  | .request (.log line) =>
    ∃ signalSet name result, outcomeLine signalSet name (outcomeOf result) = .ok line
  | .request (.spawn _ _) | .request (.join _) | .request .revokeLoops => False
  | .request _ => True
  | .mark (.entered _) | .mark (.left _) => True
  | .mark _ => False

variable {allowed : Marked RunRequest Mark → Prop}

theorem plain_asks {activity : RunActivity α}
    (asks : activity.Asks fun request => allowed (.request request)) :
    (plain activity).Asks allowed := by
  induction activity with
  | finished result => trivial
  | perform request next hypothesis =>
      exact ⟨asks.1, fun answer => hypothesis answer (asks.2 answer)⟩

theorem leave_asks {mark : Mark} (allows : allowed (.mark mark)) : (leave mark).Asks allowed :=
  ⟨allows, fun _ => trivial⟩

theorem isStopping_asks : (plain isStopping).Asks IsOfStep :=
  ⟨trivial, fun _ => trivial⟩

theorem failIfStopping_asks : (plain failIfStopping).Asks IsOfStep := by
  refine ⟨trivial, fun stopping => ?_⟩
  cases stopping <;> trivial

theorem conclude_asks (name : String) (result : Except Interruption Value) :
    (plain (conclude name (outcomeOf result))).Asks IsOfStep := by
  refine plain_asks ⟨trivial, fun signalSet => ?_⟩
  change Activity.Asks _ (Activity.bind (Activity.ofExcept _) _)
  cases written : outcomeLine signalSet name (outcomeOf result) with
  | error fault => trivial
  | ok line =>
      refine ⟨⟨signalSet, name, result, written⟩, fun answer => ?_⟩
      cases answer with
      | error fault => trivial
      | ok heard => exact ⟨trivial, fun _ => trivial⟩

theorem callResolved_asks_step (resolution : Resolution) :
    (plain (callResolved resolution)).Asks IsOfStep := by
  have own : ∀ request, IsOwn request → IsOfStep (.request request) := by
    intro request isOwn
    cases request with
    | action request => trivial
    | handover => trivial
    | _ => exact isOwn.elim
  refine plain_asks ⟨trivial, fun ordinal => ?_⟩
  dsimp only
  split
  · exact (ofAction_asks _).mono own
  · exact (handedOver_asks _).mono own

section Asks

variable (registry : Registry)

theorem markPerform_asks (name : String) {tokens : MarkedActivity (List String)}
    (asks : tokens.Asks IsOfStep) : (markPerform registry name tokens).Asks IsOfStep := by
  refine failIfStopping_asks.bind fun _ => asks.bind fun found => ?_
  refine failIfStopping_asks.bind fun _ => (asks_ofExcept _).bind fun resolution => ?_
  exact callResolved_asks_step resolution

variable {step : MarkedActivity Value}

theorem markReported_asks (name : String) (asks : step.Asks IsOfStep) :
    (markReported name step).Asks IsOfStep := by
  refine (leave_asks trivial).bind fun _ => asks.attempt.bind fun result => ?_
  refine (leave_asks trivial).bind fun _ => (conclude_asks name result).bind fun _ => ?_
  trivial

theorem markTokenOf_asks (asks : step.Asks IsOfStep) :
    (markTokenOf step).Asks IsOfStep :=
  asks.bind fun _ => isStopping_asks.bind fun _ => asks_ofExcept _

mutual

theorem markArgumentToken_asks : (argument : Argument) →
    (markArgumentToken registry argument).Asks IsOfStep
  | .token text => by
      rw [markArgumentToken]
      split
      · exact markTokenOf_asks (markReported_asks _ (markPerform_asks registry _ trivial))
      · trivial
  | .step name arguments => by
      rw [markArgumentToken]
      exact markTokenOf_asks (markReported_asks _
        (markPerform_asks registry _ (markTokensOf_asks arguments)))

theorem markTokensOf_asks : (arguments : List Argument) →
    (markTokensOf registry arguments).Asks IsOfStep
  | [] => by
      rw [markTokensOf]
      trivial
  | argument :: rest => by
      rw [markTokensOf]
      refine (markArgumentToken_asks argument).bind fun _ => ?_
      exact (markTokensOf_asks rest).bind fun _ => trivial

end

/-- A step makes no requests but its own. -/
theorem markInvoke_asks (step : Script.Step) : (markInvoke registry step).Asks IsOfStep := by
  have reported := markReported_asks step.name
    (markPerform_asks registry step.name (markTokensOf_asks registry step.arguments))
  refine reported.attempt.bind fun result => ?_
  rcases result with (fault | _) | value <;> trivial

/-- A step returns an outcome unless it is called off. -/
theorem markInvoke_runs {step : Script.Step} {trace : TaskTrace}
    {result : Except Interruption Outcome} (ran : (markInvoke registry step).Runs trace result) :
    (∃ outcome, result = .ok outcome) ∨ result = .error .revoked := by
  rcases Activity.runs_bind.mp ran with ⟨first, second, ended, -, -, goesOn⟩ | ⟨_, -, attempted⟩
  · rcases ended with (fault | _) | value
    · exact .inl ⟨_, (runs_finished.mp goesOn).2⟩
    · exact .inr (runs_finished.mp goesOn).2
    · exact .inl ⟨_, (runs_finished.mp goesOn).2⟩
  · obtain ⟨_, impossible, -⟩ := Activity.runs_attempt.mp attempted
    cases impossible

end Asks

end Interleaving

end InputScript
