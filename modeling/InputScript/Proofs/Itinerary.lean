/-
Module: InputScript.Proofs.Itinerary
Purpose: The order and the extent of a walk.  The itinerary of a program lists the stations of its walk:
  each block, and the steps of each bounded block as often as it is repeated.  The walk visits them
  in order, without leaving one out, and goes on to the next one unless a step fails or is cancelled,
  the signal is found set, or an interruption ends it.
Main exports: plan, itinerary, Course, walk_keeps_to_plan
-/
import InputScript.Proofs.Cancellation
import InputScript.Proofs.Traces

namespace InputScript.Interleaving

open Catalog Run Rehearsal Script

/-! ### Itineraries -/

/-- The steps of bounded blocks in the order in which they are to be invoked. -/
def plan (blocks : List Block) : List Script.Step :=
  (blocks.filter (!·.repetition.isUnbounded)).flatMap fun block =>
    (List.replicate block.repetition.passes block.steps).flatten

/-- The stations of a number of passes through the steps of a block. -/
def passStations (index : Nat) (steps : List Script.Step) (passes : Nat) : List Station :=
  (List.replicate passes (steps.map (Station.step index))).flatten

/-- The stations of the walk through the blocks from the given place on. -/
def itinerary (index : Nat) : List Block → List Station
  | [] => []
  | block :: rest =>
    .block index block ::
      ((if block.repetition.isUnbounded then []
        else passStations index block.steps block.repetition.passes) ++ itinerary (index + 1) rest)

/-- The step that a station stands before. -/
def Station.step? : Station → Option Script.Step
  | .step _ planned => some planned
  | _ => none

theorem filterMap_passStations (index : Nat) (steps : List Script.Step) (passes : Nat) :
    (passStations index steps passes).filterMap Station.step? =
      (List.replicate passes steps).flatten := by
  have pass : (steps.map (Station.step index)).filterMap Station.step? = steps := by
    rw [List.filterMap_map]
    exact List.filterMap_some
  unfold passStations
  rw [List.filterMap_flatten, List.map_replicate, pass]

/-- The steps of an itinerary are the plan. -/
theorem filterMap_itinerary (index : Nat) (blocks : List Block) :
    (itinerary index blocks).filterMap Station.step? = plan blocks := by
  induction blocks generalizing index with
  | nil => rfl
  | cons block rest hypothesis =>
      rw [itinerary, List.filterMap_cons_none rfl, List.filterMap_append, hypothesis, plan,
        plan]
      cases unbounded : block.repetition.isUnbounded with
      | true => simp [unbounded]
      | false => simp [unbounded, filterMap_passStations]

/-! ### What the marks of a walk tell -/

/-- The stations at which a task has looked at the signal. -/
def visited (marks : List Mark) : List Station :=
  marks.filterMap fun
    | .looked station _ => some station
    | _ => none

/-- The steps of blocks that a task has invoked. -/
def invoked (marks : List Mark) : List Script.Step :=
  marks.filterMap fun
    | .looked (.step _ step) false => some step
    | _ => none

/-- The unbounded blocks that a task has reached with the signal unset, with their places. -/
def reached (marks : List Mark) : List (Nat × Block) :=
  marks.filterMap fun
    | .looked (.block index block) false =>
      if block.repetition.isUnbounded then some (index, block) else none
    | _ => none

/-- Whether a step of a bounded block with this outcome ends the walk.  An unresolved step does
not. -/
def endsWalk : Outcome → Bool
  | .success _ => false
  | .cancelled => true
  | .failed _ unresolved => !unresolved

/-- Whether a walk goes no further after this mark. -/
def Mark.Ends : Mark → Prop
  | .looked _ stopping => stopping = true
  | .returned _ _ outcome => endsWalk outcome = true
  | .walked _ => True
  | .entered _ | .left _ => False

/-- Whether a walk has come upon nothing that ends it. -/
def IsClear (marks : List Mark) : Prop :=
  ∀ mark ∈ marks, ¬ mark.Ends

/-- `StopsShort stations marks`: a walk through the stations has gone no further.  At the next station the
signal was found set, or the step that was invoked last has been cancelled or has failed. -/
inductive StopsShort (stations : List Station) : List Mark → Prop where
  | signal {earlier : List Mark} {station : Station} {later : List Station}
      (clear : IsClear earlier) (next : stations = visited earlier ++ station :: later) :
      StopsShort stations (earlier ++ [.looked station true])
  | step {earlier : List Mark} {index : Nat} {step : Script.Step} {outcome : Outcome}
      {before : List Script.Step} (clear : IsClear earlier)
      (last : invoked earlier = before ++ [step]) (ends : endsWalk outcome = true) :
      StopsShort stations (earlier ++ [.returned index step outcome])

@[simp] theorem visited_append (first second : List Mark) :
    visited (first ++ second) = visited first ++ visited second :=
  List.filterMap_append

@[simp] theorem invoked_append (first second : List Mark) :
    invoked (first ++ second) = invoked first ++ invoked second :=
  List.filterMap_append

@[simp] theorem reached_append (first second : List Mark) :
    reached (first ++ second) = reached first ++ reached second :=
  List.filterMap_append

theorem IsClear.snoc {marks : List Mark} (clear : IsClear marks) {mark : Mark}
    (goesOn : ¬ mark.Ends) : IsClear (marks ++ [mark]) := by
  intro other member
  rcases List.mem_append.mp member with old | new
  · exact clear other old
  · rwa [List.mem_singleton.mp new]

/-- While no look has found the signal set, the steps that were invoked are those that were visited. -/
theorem IsClear.invoked_eq {marks : List Mark} (clear : IsClear marks) :
    invoked marks = (visited marks).filterMap Station.step? := by
  induction marks with
  | nil => rfl
  | cons mark rest hypothesis =>
      have later := hypothesis fun other member => clear other (List.mem_cons_of_mem _ member)
      match mark with
      | .looked (.step index step) false => exact congrArg (step :: ·) later
      | .looked (.block index block) false => exact later
      | .looked (.pass index passes) false => exact later
      | .looked station true => exact absurd rfl (clear _ List.mem_cons_self)
      | .returned index step outcome => exact later
      | .walked state => exact absurd trivial (clear _ List.mem_cons_self)
      | .entered name => exact later
      | .left name => exact later

/-! ### The course of a walk -/

/-- Whether an exchange is no fault of a tolerant wait for the loops. -/
def IsTolerated : RunExchange → Prop
  | ⟨.join true, (answer : Except Interruption Unit)⟩ => ∀ fault, answer ≠ .error (.fault fault)
  | _ => True

theorem Moves.isTolerated {α : Type} {conclude : Except Interruption α → Standing α}
    {loops : List (Standing LoopStep)} {before after : Bool} {standing later : Standing α}
    {exchanges : List RunExchange}
    (moves : Moves conclude loops before standing exchanges after later) :
    ∀ exchange ∈ exchanges, IsTolerated exchange := by
  intro exchange member
  cases moves with
  | @answer _ request _ _ answers =>
      obtain rfl := List.mem_singleton.mp member
      cases request with
      | join tolerant => exact answers.elim
      | _ => trivial
  | @resume request _ answer resumes =>
      obtain rfl := List.mem_singleton.mp member
      cases request with
      | join tolerant =>
          cases tolerant with
          | false => trivial
          | true =>
              rintro fault rfl
              rcases resumes with impossible | ⟨impossible, -⟩ <;> cases impossible
      | _ => trivial
  | wake | startle =>
      obtain rfl := List.mem_singleton.mp member
      trivial
  | _ => cases member

theorem Steps.isTolerated {ρ : Type} {registry : Registry} {signal : Bool} {start : RunActivity ρ}
    {scene : Scene ρ} (steps : Steps registry (Scene.start signal start) scene) (task : TaskId) :
    ∀ exchange ∈ scene.exchangesOf task, IsTolerated exchange := by
  induction steps with
  | refl => exact List.forall_mem_nil _
  | tail earlier step hypothesis =>
      cases step with
      | stop idle => exact hypothesis
      | walk _ moves | loop _ _ moves =>
          rw [Scene.exchangesOf_append rfl]
          refine List.forall_mem_append.mpr ⟨hypothesis, ?_⟩
          split
          · exact moves.isTolerated
          · exact List.forall_mem_nil _

/-- Where a walk is. -/
inductive Phase where
  /-- It goes on to the next station. -/
  | between
  /-- It carries out a step of a bounded block. -/
  | inside (index : Nat) (step : Script.Step)
  /-- It starts the loop of an unbounded block. -/
  | starting (index : Nat) (block : Block)
  /-- It goes no further. -/
  | halted
  /-- It is through with the blocks. -/
  | through

/-- Where a walk is after a station at which the signal was unset. -/
def Phase.ofStation : Station → Phase
  | .step index step => .inside index step
  | .block index block => if block.repetition.isUnbounded then .starting index block else .between
  | .pass _ _ => .between

/-- Whether a walk carries out a step. -/
def Phase.IsInside : Phase → Prop
  | .inside _ _ => True
  | _ => False

/-- The course of a walk: the stations that are left, where it is, and the fault that has ended it if
one of its own lines was refused. -/
structure Course where
  rest : List Station
  phase : Phase := .between
  refused : Option Fault := none

namespace Course

/-- Whether a request or a mark is in order. -/
def Allows (course : Course) : Marked RunRequest Mark → Prop
  | .mark (.looked station _) => course.phase = .between ∧ ∃ later, course.rest = station :: later
  | .mark (.returned index step _) => course.phase = .inside index step
  | .mark (.walked _) => course.phase = .halted ∨ (course.phase = .between ∧ course.rest = [])
  | .mark (.entered _) | .mark (.left _) => course.phase.IsInside
  | .request (.spawn index block) => course.phase = .starting index block
  | .request (.log line) => course.phase.IsInside ∨ IsBlockLine line
  | .request _ => True

/-- The course after a request or a mark. -/
def after (course : Course) : (request : Marked RunRequest Mark) →
    request.Answer Mark RunRequest.Answer → Course
  | .mark (.looked station stopping), _ =>
    { course with
      rest := course.rest.tail
      phase := if stopping then .halted else .ofStation station }
  | .mark (.returned _ _ outcome), _ =>
    { course with phase := if endsWalk outcome then .halted else .between }
  | .mark (.walked _), _ => { course with phase := .through }
  | .mark (.entered _), _ | .mark (.left _), _ => course
  | .request (.spawn _ _), _ => { course with phase := .between }
  | .request (.log _), answer =>
    match course.phase, answer with
    | .inside _ _, _ => course
    | _, .ok () => course
    | _, .error fault => { course with refused := some fault }
  | .request _, _ => course

/-- A walk makes its requests and marks in order, and none after a line of its own was refused.  A
tolerant wait for the loops does not fail. -/
def discipline : Discipline (Marked.Answer Mark RunRequest.Answer) Course where
  admits course request := course.refused = none ∧ course.Allows request
  expects
    | _, .request request, answer => IsTolerated ⟨request, answer⟩
    | _, .mark _, _ => True
  after := after

/-- How the walk through some stations ends, when others are to follow. -/
def EndsBefore (later : List Station) (course : Course) : Except Interruption RunState → Prop
  | .ok .completed => course = { rest := later }
  | .ok _ => course.phase = .halted ∧ course.refused = none
  | .error .revoked => course.phase.IsInside ∧ course.refused = none
  | .error (.fault fault) => course.refused = some fault

end Course

/-! ### The walk keeps to its course -/

section Walk

variable {α : Type} {registry : Registry} {later : List Station}
  {post : Course → Except Interruption α → Prop}

/-- A look at a station is in order when it is the next one. -/
theorem lookAt_bind_keeps {station : Station} {next : Bool → MarkedActivity α}
    (stops : (next true).Keeps Course.discipline post { rest := later, phase := .halted })
    (goesOn : (next false).Keeps Course.discipline post
      { rest := later, phase := .ofStation station }) :
    ((lookAt station).bind next).Keeps Course.discipline post { rest := station :: later } := by
  refine ⟨⟨rfl, trivial⟩, fun stopping _ => ?_⟩
  refine ⟨⟨rfl, rfl, later, rfl⟩, fun _ _ => ?_⟩
  cases stopping with
  | true => exact stops
  | false => exact goesOn

/-- A line about a block can be logged between steps; if it is refused, the walk ends. -/
theorem log_bind_keeps {level : Level} {message : String} {next : Unit → MarkedActivity α}
    {course : Course} (isLine : IsBlockLine ⟨level, message⟩) (outside : ¬ course.phase.IsInside)
    (unrefused : course.refused = none)
    (goesOn : (next ()).Keeps Course.discipline post course)
    (ends : ∀ fault, post { course with refused := some fault } (.error (.fault fault))) :
    ((plain (log level message)).bind next).Keeps Course.discipline post course := by
  refine ⟨⟨unrefused, .inr isLine⟩, fun answer _ => ?_⟩
  obtain ⟨rest, phase, refused⟩ := course
  cases phase with
  | inside index step => exact absurd trivial outside
  | _ =>
      cases answer with
      | ok heard => exact goesOn
      | error fault => exact ends fault

/-- A step is carried out inside, and ends with an outcome unless it is called off. -/
theorem markInvoke_bind_keeps {index : Nat} {step : Script.Step}
    {next : Outcome → MarkedActivity α}
    (goesOn : ∀ outcome, (next outcome).Keeps Course.discipline post
      { rest := later, phase := .inside index step })
    (revoked : post { rest := later, phase := .inside index step } (.error .revoked)) :
    ((markInvoke registry step).bind next).Keeps Course.discipline post
      { rest := later, phase := .inside index step } := by
  rw [Activity.keeps_bind]
  refine (markInvoke_asks registry step).keeps ?_ ?_ ?_
  · intro request isOfStep
    refine ⟨rfl, ?_⟩
    match request with
    | .request (.log _) => exact .inl trivial
    | .mark (.entered _) | .mark (.left _) | .request (.action _) | .request (.report _)
    | .request (.call _ _) | .request .handover => trivial
  · intro request answer isOfStep
    match request with
    | .mark (.entered _) | .mark (.left _) | .request (.log _) | .request (.action _)
    | .request (.report _) | .request (.call _ _) | .request .handover => rfl
  · intro trace result ran
    rcases markInvoke_runs registry ran with ⟨outcome, rfl⟩ | rfl
    · exact goesOn outcome
    · exact revoked

theorem markSteps_keepsCourse (index : Nat) (steps : List Script.Step) :
    (markSteps registry index steps).Keeps Course.discipline (Course.EndsBefore later)
      { rest := steps.map (Station.step index) ++ later } := by
  induction steps with
  | nil => rfl
  | cons step rest hypothesis =>
      refine lookAt_bind_keeps ⟨rfl, rfl⟩ ?_
      refine markInvoke_bind_keeps (fun outcome => ?_) ⟨trivial, rfl⟩
      refine ⟨⟨rfl, rfl⟩, fun _ _ => ?_⟩
      match outcome with
      | .cancelled => exact ⟨rfl, rfl⟩
      | .failed message true => exact hypothesis
      | .success value => exact hypothesis
      | .failed message false =>
          exact log_bind_keeps (.aborted index step.name) id rfl ⟨rfl, rfl⟩ fun _ => rfl

theorem markPasses_keepsCourse (index : Nat) (steps : List Script.Step) (passes : Nat) :
    (markPasses registry index steps passes).Keeps Course.discipline (Course.EndsBefore later)
      { rest := passStations index steps passes ++ later } := by
  induction passes with
  | zero => rfl
  | succ passes hypothesis =>
      have stations : passStations index steps (passes + 1) ++ later =
          steps.map (Station.step index) ++ (passStations index steps passes ++ later) := by
        simp [passStations, List.replicate_succ]
      rw [stations, markPasses, Activity.bind_eq, Activity.keeps_bind]
      refine (markSteps_keepsCourse index steps).mono fun course result ends => ?_
      cases result with
      | error interruption => cases interruption <;> exact ends
      | ok state =>
          cases state with
          | completed =>
              obtain rfl : course = _ := ends
              exact hypothesis
          | _ => exact ends

theorem markBounded_keepsCourse (index : Nat) (block : Block) :
    (markBounded registry index block).Keeps Course.discipline (Course.EndsBefore later)
      { rest := passStations index block.steps block.repetition.passes ++ later } := by
  refine log_bind_keeps (.passes index _) id rfl ?_ fun _ => rfl
  split
  · next empty =>
      rw [List.isEmpty_iff.mp empty]
      simp [passStations, Activity.Keeps, Course.EndsBefore]
  · exact markPasses_keepsCourse index block.steps _

theorem markWalk_keepsCourse (index loops : Nat) (blocks : List Block) :
    (markWalk registry index loops blocks).Keeps Course.discipline
      (fun course result => course.EndsBefore [] (result.map WalkEnd.state))
      { rest := itinerary index blocks } := by
  induction blocks generalizing index loops with
  | nil => rfl
  | cons block rest hypothesis =>
      refine lookAt_bind_keeps ⟨rfl, rfl⟩ ?_
      rw [if_neg Bool.false_ne_true, Phase.ofStation]
      cases repetition : block.repetition with
      | forever =>
          refine log_bind_keeps (.looping index) id rfl ?_ fun _ => rfl
          exact ⟨⟨rfl, rfl⟩, fun _ _ => hypothesis _ _⟩
      | times count =>
          have bounded : (markBounded registry index block).Keeps Course.discipline
              (Course.EndsBefore (itinerary (index + 1) rest)) _ :=
            markBounded_keepsCourse index block
          rw [repetition] at bounded
          refine Activity.keeps_bind.mpr (bounded.mono fun course result ends => ?_)
          match result with
          | .ok .completed =>
              obtain rfl : course = _ := ends
              exact hypothesis _ _
          | .ok .idle | .ok .running | .ok .cancelled | .ok .faulted | .error .revoked
          | .error (.fault _) => exact ends

/-- How a run ends: its walk is through, unless it was called off or a line of the walk was refused. -/
def Course.EndsRun (course : Course) : Except Interruption RunState → Prop
  | .ok _ => course.phase = .through ∧ course.refused = none
  | .error .revoked => course.refused = none
  | .error (.fault fault) => course.refused = some fault ∨ course.phase = .through

theorem join_bind_keeps {tolerant : Bool} {next : Unit → MarkedActivity α} {course : Course}
    (unrefused : course.refused = none)
    (goesOn : (next ()).Keeps Course.discipline post course)
    (revoked : post course (.error .revoked))
    (fails : tolerant = false → ∀ fault, post course (.error (.fault fault))) :
    ((plain (join tolerant)).bind next).Keeps Course.discipline post course := by
  refine ⟨⟨unrefused, trivial⟩, fun answer tolerated => ?_⟩
  match answer with
  | .ok () => exact goesOn
  | .error .revoked => exact revoked
  | .error (.fault fault) =>
      cases tolerant with
      | false => exact fails rfl fault
      | true => exact absurd rfl (tolerated fault)

theorem markWalkAndJoin_keepsCourse (blocks : List Block) :
    (markWalkAndJoin registry blocks).Keeps Course.discipline Course.EndsRun
      { rest := itinerary 0 blocks } := by
  -- From here on the walk is through, and only the wait for the loops can be interrupted.
  have joins : ∀ (ended : WalkEnd) (course : Course), course.phase = .through →
      course.refused = none →
      Activity.Keeps Course.discipline Course.EndsRun
        (if (ended.loops == 0) = true then .finished (.ok ended.state)
        else (plain (join false)).bind fun _ =>
          if (ended.state == .completed) = true then .finished (.ok .cancelled)
          else .finished (.ok ended.state)) course := by
    intro ended course isThrough unrefused
    split
    · exact ⟨isThrough, unrefused⟩
    · refine join_bind_keeps unrefused ?_ unrefused fun _ _ => .inr isThrough
      split <;> exact ⟨isThrough, unrefused⟩
  refine Activity.keeps_bind.mpr ((markWalk_keepsCourse 0 0 blocks).mono fun course result ends => ?_)
  match result with
  | .ok ⟨.completed, loops⟩ =>
      obtain rfl : course = _ := ends
      exact ⟨⟨rfl, .inr ⟨rfl, rfl⟩⟩, fun _ _ => joins _ _ rfl rfl⟩
  | .ok ⟨.idle, loops⟩ => exact ⟨⟨ends.2, .inl ends.1⟩, fun _ _ => joins _ _ rfl ends.2⟩
  | .ok ⟨.running, loops⟩ => exact ⟨⟨ends.2, .inl ends.1⟩, fun _ _ => joins _ _ rfl ends.2⟩
  | .ok ⟨.cancelled, loops⟩ => exact ⟨⟨ends.2, .inl ends.1⟩, fun _ _ => joins _ _ rfl ends.2⟩
  | .ok ⟨.faulted, loops⟩ => exact ⟨⟨ends.2, .inl ends.1⟩, fun _ _ => joins _ _ rfl ends.2⟩
  | .error .revoked => exact ends.2
  | .error (.fault fault) => exact .inl ends

/-- The walk of a run keeps to the itinerary of its program. -/
theorem markExecute_keepsCourse (program : Program) :
    (markExecute registry program).Keeps Course.discipline Course.EndsRun
      { rest := itinerary 0 program.blocks } := by
  refine Activity.keeps_bind.mpr (Activity.keeps_attempt.mpr
    ((markWalkAndJoin_keepsCourse program.blocks).mono fun course result ends => ?_))
  match result with
  | .ok state => exact ends
  | .error (.fault fault) => exact ends
  | .error .revoked =>
      have unrefused : course.refused = none := ends
      refine ⟨⟨unrefused, trivial⟩, fun _ _ => ⟨⟨unrefused, trivial⟩, fun _ _ => ?_⟩⟩
      exact join_bind_keeps unrefused unrefused unrefused nofun

end Walk

/-! ### What a course tells of a trace -/

/-- The loop that is being started. -/
def Phase.pending : Phase → List (Nat × Block)
  | .starting index block => [(index, block)]
  | _ => []

/-- Whether a walk through the stations with these marks, and with the rest of them to come, is where
the phase says. -/
def Phase.Tells (stations rest : List Station) (marks : List Mark) : Phase → Prop
  | .between | .starting _ _ => IsClear marks
  | .inside _ step => IsClear marks ∧ ∃ before, invoked marks = before ++ [step]
  | .halted => StopsShort stations marks
  | .through =>
    ∃ earlier state, marks = earlier ++ [.walked state] ∧
      (IsClear earlier ∧ rest = [] ∨ StopsShort stations earlier)

namespace Course

/-- Whether a course tells of a trace of a walk through the stations. -/
structure Fits (stations : List Station) (trace : TaskTrace) (course : Course) : Prop where
  visited : visited trace.marks ++ course.rest = stations
  phase : course.phase.Tells stations course.rest trace.marks
  spawns : trace.exchanges.filterMap spawnOf ++ course.phase.pending = reached trace.marks
  refused : ∀ fault, course.refused = some fault →
    ∃ line, IsBlockLine line ∧ trace.exchanges.getLast? = some ⟨.log line, .error fault⟩

theorem fits_start (stations : List Station) : Fits stations [] { rest := stations } :=
  ⟨rfl, List.forall_mem_nil _, rfl, nofun⟩

section Snoc

variable {stations : List Station} {trace : TaskTrace} {course : Course}

/-- A request that starts no loop leaves the course as it is. -/
theorem Fits.ask (fits : Fits stations trace course) (unrefused : course.refused = none)
    (request : RunRequest) (answer : request.Answer) (idle : spawnOf ⟨request, answer⟩ = none) :
    Fits stations (trace ++ [⟨.request request, answer⟩]) course := by
  constructor
  · simpa [Activity.Trace.marks] using fits.visited
  · simpa [Activity.Trace.marks] using fits.phase
  · simpa [Activity.Trace.marks, Activity.Trace.exchanges, idle] using fits.spawns
  · intro fault refuses
    rw [unrefused] at refuses
    cases refuses

/-- A line that is refused between steps ends the walk. -/
theorem Fits.log (fits : Fits stations trace course) (unrefused : course.refused = none)
    {line : LogLine} (allowed : course.Allows (.request (.log line))) (answer : Except Fault Unit) :
    Fits stations (trace ++ [⟨.request (.log line), answer⟩])
      (course.after (.request (.log line)) answer) := by
  obtain ⟨rest, phase, refused⟩ := course
  have asked := fits.ask unrefused (.log line) answer rfl
  cases phase with
  | inside index step => exact asked
  | _ =>
      cases answer with
      | ok heard => exact asked
      | error fault =>
          refine ⟨asked.visited, asked.phase, asked.spawns, fun other same => ?_⟩
          obtain rfl : fault = other := Option.some.inj same
          exact ⟨line, allowed.resolve_left id, by simp [Activity.Trace.exchanges]⟩

/-- A loop is started where the walk has reached its block. -/
theorem Fits.spawn (fits : Fits stations trace course) (unrefused : course.refused = none)
    {index : Nat} {block : Block} (starting : course.phase = .starting index block) :
    Fits stations (trace ++ [⟨.request (.spawn index block), ()⟩]) { course with phase := .between } := by
  obtain ⟨visited, phase, spawns, -⟩ := fits
  rw [starting] at phase spawns
  constructor
  · simpa [Activity.Trace.marks] using visited
  · simpa [Activity.Trace.marks, Phase.Tells] using phase
  · simpa [Activity.Trace.marks, Activity.Trace.exchanges, spawnOf, Phase.pending] using spawns
  · intro fault refuses
    rw [unrefused] at refuses
    cases refuses

/-- What a mark adds to a trace. -/
theorem Fits.mark (fits : Fits stations trace course) (mark : Mark) {marked : Course}
    (unrefused : marked.refused = none)
    (stationed : course.rest = Interleaving.visited [mark] ++ marked.rest)
    (phase : marked.phase.Tells stations marked.rest (trace.marks ++ [mark]))
    (spawns : marked.phase.pending = course.phase.pending ++ reached [mark]) :
    Fits stations (trace ++ [⟨.mark mark, ()⟩]) marked := by
  constructor
  · rw [Activity.Trace.marks_append, visited_append, List.append_assoc]
    exact (congrArg _ stationed.symm).trans fits.visited
  · rwa [Activity.Trace.marks_append]
  · rw [Activity.Trace.marks_append, reached_append, Activity.Trace.exchanges_append, spawns,
      ← List.append_assoc]
    exact congrArg (· ++ _) ((List.append_nil _).symm ▸ fits.spawns)
  · rw [unrefused]
    nofun

/-- The next station is visited. -/
theorem Fits.look (fits : Fits stations trace course) (unrefused : course.refused = none)
    {station : Station} {stopping : Bool} (allowed : course.Allows (.mark (.looked station stopping))) :
    Fits stations (trace ++ [⟨.mark (.looked station stopping), ()⟩])
      (course.after (.mark (.looked station stopping)) ()) := by
  obtain ⟨rest, phase, refused⟩ := course
  obtain ⟨rfl, later, rfl⟩ := allowed
  have clear : IsClear trace.marks := fits.phase
  cases stopping with
  | true =>
      refine fits.mark _ unrefused rfl (.signal clear fits.visited.symm) ?_
      cases station <;> rfl
  | false =>
      have clearLater : IsClear (trace.marks ++ [.looked station false]) :=
        clear.snoc Bool.false_ne_true
      cases station with
      | step index step =>
          refine fits.mark _ unrefused rfl ⟨clearLater, ?_⟩ rfl
          exact ⟨invoked trace.marks, invoked_append _ _⟩
      | pass index passes => exact fits.mark _ unrefused rfl clearLater rfl
      | block index block =>
          cases unbounded : block.repetition.isUnbounded with
          | true =>
              refine fits.mark _ unrefused rfl ?_ ?_
              · simpa [Course.after, Phase.ofStation, unbounded, Phase.Tells] using clearLater
              · simp [Course.after, Phase.ofStation, unbounded, Phase.pending, reached]
          | false =>
              refine fits.mark _ unrefused rfl ?_ ?_
              · simpa [Course.after, Phase.ofStation, unbounded, Phase.Tells] using clearLater
              · simp [Course.after, Phase.ofStation, unbounded, Phase.pending, reached]

/-- A step that has returned ends the walk or lets it go on. -/
theorem Fits.ret (fits : Fits stations trace course) (unrefused : course.refused = none)
    {index : Nat} {step : Script.Step} (outcome : Outcome) (inside : course.phase = .inside index step) :
    Fits stations (trace ++ [⟨.mark (.returned index step outcome), ()⟩])
      (course.after (.mark (.returned index step outcome)) ()) := by
  obtain ⟨rest, phase, refused⟩ := course
  obtain rfl : phase = .inside index step := inside
  obtain ⟨clear, before, last⟩ := fits.phase
  cases ends : endsWalk outcome with
  | true =>
      refine fits.mark _ unrefused rfl ?_ ?_
      · simpa [Course.after, ends, Phase.Tells] using StopsShort.step clear last ends
      · simp [Course.after, ends, Phase.pending, reached]
  | false =>
      refine fits.mark _ unrefused rfl ?_ ?_
      · simpa [Course.after, ends, Phase.Tells] using clear.snoc (by simp [Mark.Ends, ends])
      · simp [Course.after, ends, Phase.pending, reached]

theorem Fits.walk (fits : Fits stations trace course) (unrefused : course.refused = none)
    {state : RunState} (allowed : course.Allows (.mark (.walked state))) :
    Fits stations (trace ++ [⟨.mark (.walked state), ()⟩]) { course with phase := .through } := by
  obtain ⟨rest, phase, refused⟩ := course
  rcases allowed with isHalted | ⟨isBetween, isLast⟩
  · obtain rfl : phase = .halted := isHalted
    exact fits.mark _ unrefused rfl ⟨trace.marks, state, rfl, .inr fits.phase⟩ rfl
  · obtain rfl : phase = .between := isBetween
    exact fits.mark _ unrefused rfl ⟨trace.marks, state, rfl, .inl ⟨fits.phase, isLast⟩⟩ rfl

/-- The marks of nested steps leave the course as it is. -/
theorem Fits.inner (fits : Fits stations trace course) (unrefused : course.refused = none)
    {mark : Mark} (isInner : IsOfStep (.mark mark)) (inside : course.phase.IsInside) :
    Fits stations (trace ++ [⟨.mark mark, ()⟩]) course := by
  obtain ⟨rest, phase, refused⟩ := course
  cases phase with
  | inside index step =>
      obtain ⟨clear, before, last⟩ := fits.phase
      cases mark with
      | entered name | left name =>
          refine fits.mark _ unrefused rfl ⟨clear.snoc id, before, ?_⟩ rfl
          simpa [invoked] using last
      | _ => exact isInner.elim
  | _ => exact inside.elim

/-- What is in order keeps a course fitting. -/
theorem Fits.snoc (fits : Fits stations trace course) {request : Marked RunRequest Mark}
    (answer : request.Answer Mark RunRequest.Answer)
    (admitted : discipline.admits course request) :
    Fits stations (trace ++ [⟨request, answer⟩]) (course.after request answer) := by
  obtain ⟨unrefused, allowed⟩ := admitted
  match request, answer with
  | .mark (.looked station stopping), () => exact fits.look unrefused allowed
  | .mark (.returned index step outcome), () => exact fits.ret unrefused outcome allowed
  | .mark (.walked state), () => exact fits.walk unrefused allowed
  | .mark (.entered name), () => exact fits.inner unrefused trivial allowed
  | .mark (.left name), () => exact fits.inner unrefused trivial allowed
  | .request (.spawn index block), () => exact fits.spawn unrefused allowed
  | .request (.log line), answer => exact fits.log unrefused allowed answer
  | .request (.action request), answer => exact fits.ask unrefused (.action request) answer rfl
  | .request (.report event), answer => exact fits.ask unrefused (.report event) answer rfl
  | .request (.call label arguments), answer => exact fits.ask unrefused (.call label arguments) answer rfl
  | .request .handover, answer => exact fits.ask unrefused .handover answer rfl
  | .request (.join tolerant), answer => exact fits.ask unrefused (.join tolerant) answer rfl
  | .request .revokeLoops, answer => exact fits.ask unrefused .revokeLoops answer rfl

/-- A trace that is in order has a course that fits it. -/
theorem fits_of_inOrder {start : Course} (fits : Fits stations [] start)
    (inOrder : discipline.InOrder start trace) :
    Fits stations trace (discipline.advance start trace) := by
  induction trace using List.reverseRecOn with
  | nil => exact fits
  | append_singleton earlier exchange hypothesis =>
      obtain ⟨inOrderEarlier, admitted, -⟩ := Discipline.inOrder_append.mp inOrder
      rw [Discipline.advance_append]
      exact (hypothesis inOrderEarlier).snoc exchange.answer admitted

end Snoc

end Course

/-! ### Order and extent -/

section Extent

variable {stations rest : List Station} {marks : List Mark} {phase : Phase}

theorem IsClear.of_append {first second : List Mark} (clear : IsClear (first ++ second)) :
    IsClear first :=
  fun mark member => clear mark (List.mem_append_left _ member)

/-- What a walk stops at comes last. -/
theorem StopsShort.snoc (stops : StopsShort stations marks) :
    ∃ earlier mark, marks = earlier ++ [mark] ∧ IsClear earlier ∧ invoked marks = invoked earlier ∧
      ∀ state, mark ≠ .walked state := by
  cases stops with
  | @signal earlier station later clear next =>
      refine ⟨earlier, _, rfl, clear, ?_, nofun⟩
      cases station <;> simp [invoked]
  | step clear last ends => exact ⟨_, _, rfl, clear, by simp [invoked], nofun⟩

/-- What comes before a mark comes before the last one. -/
theorem IsClear.before {first second earlier : List Mark} {mark last : Mark}
    (clear : IsClear earlier) (same : first ++ mark :: second = earlier ++ [last]) :
    IsClear first := by
  have length : first.length ≤ earlier.length := by
    have total := congrArg List.length same
    simp only [List.length_append, List.length_cons, List.length_nil] at total
    omega
  obtain ⟨more, rfl⟩ := List.prefix_of_prefix_length_le ⟨_, same⟩ (List.prefix_append _ _) length
  exact clear.of_append

/-- The steps that a walk has invoked are steps of its stations in order. -/
theorem Phase.Tells.invoked_prefix (tells : phase.Tells stations rest marks)
    (visits : visited marks <+: stations) : invoked marks <+: stations.filterMap Station.step? := by
  have ofClear : ∀ {earlier : List Mark}, IsClear earlier → visited earlier <+: stations →
      invoked earlier <+: stations.filterMap Station.step? := by
    intro earlier clear visits
    rw [clear.invoked_eq]
    exact visits.filterMap _
  have ofStop : ∀ {earlier : List Mark}, StopsShort stations earlier → visited earlier <+: stations →
      invoked earlier <+: stations.filterMap Station.step? := by
    intro earlier stops visits
    obtain ⟨before, mark, rfl, clear, same, -⟩ := stops.snoc
    rw [same]
    rw [visited_append] at visits
    exact ofClear clear ((List.prefix_append _ _).trans visits)
  cases phase with
  | between => exact ofClear tells visits
  | starting index block => exact ofClear tells visits
  | inside index step => exact ofClear tells.1 visits
  | halted => exact ofStop tells visits
  | through =>
      obtain ⟨earlier, state, rfl, ends⟩ := tells
      rw [visited_append] at visits
      rw [invoked_append]
      have before : visited earlier <+: stations := (List.prefix_append _ _).trans visits
      rw [show invoked [.walked state] = [] from rfl, List.append_nil]
      rcases ends with ⟨clear, -⟩ | stops
      · exact ofClear clear before
      · exact ofStop stops before

/-- Before a mark that does not end a walk there is none that does. -/
theorem Phase.Tells.clear_before (tells : phase.Tells stations rest marks) {earlier later : List Mark}
    {mark : Mark} (same : marks = earlier ++ mark :: later) (goesOn : ¬ mark.Ends) :
    IsClear earlier := by
  subst same
  cases phase with
  | between => exact IsClear.of_append tells
  | starting index block => exact IsClear.of_append tells
  | inside index step => exact tells.1.of_append
  | halted =>
      obtain ⟨_, _, same, clear, -⟩ := tells.snoc
      exact clear.before same
  | through =>
      obtain ⟨_, state, same, ⟨clear, -⟩ | stops⟩ := tells
      · exact clear.before same
      · obtain ⟨before, last, rfl, clear, -⟩ := stops.snoc
        rcases List.eq_nil_or_concat later with rfl | ⟨others, final, rfl⟩
        · obtain ⟨-, isWalked⟩ := List.append_inj' same rfl
          cases isWalked
          exact absurd trivial goesOn
        · rw [List.concat_eq_append, ← List.cons_append, ← List.append_assoc] at same
          exact clear.before (List.append_inj' same rfl).1

/-- A walk that has marked that it is through is through. -/
theorem Phase.Tells.of_walked (tells : phase.Tells stations rest marks) {state : RunState}
    (isWalked : .walked state ∈ marks) :
    phase = .through ∧ ∃ earlier, marks = earlier ++ [.walked state] ∧
      (IsClear earlier ∧ rest = [] ∨ StopsShort stations earlier) := by
  have notClear : ∀ {earlier : List Mark}, IsClear earlier → .walked state ∉ earlier :=
    fun clear member => clear _ member trivial
  have notHalted : ∀ {earlier : List Mark}, StopsShort stations earlier → .walked state ∉ earlier := by
    intro earlier stops member
    obtain ⟨before, mark, rfl, clear, -, other⟩ := stops.snoc
    rcases List.mem_append.mp member with old | new
    · exact notClear clear old
    · exact other state (List.mem_singleton.mp new).symm
  cases phase with
  | between => exact absurd isWalked (notClear tells)
  | starting index block => exact absurd isWalked (notClear tells)
  | inside index step => exact absurd isWalked (notClear tells.1)
  | halted => exact absurd isWalked (notHalted tells)
  | through =>
      obtain ⟨earlier, last, rfl, ends⟩ := tells
      have isLast : Mark.walked state = .walked last := by
        rcases List.mem_append.mp isWalked with old | new
        · rcases ends with ⟨clear, -⟩ | stops
          · exact absurd old (notClear clear)
          · exact absurd old (notHalted stops)
        · exact List.mem_singleton.mp new
      cases isLast
      exact ⟨rfl, earlier, rfl, ends⟩

/-- An unbounded block is reached where the walk has found the signal unset before it, and has come
upon nothing before that would have ended it. -/
def IsReached (marks : List Mark) (index : Nat) (block : Block) : Prop :=
  block.repetition.isUnbounded = true ∧
    ∃ earlier later, marks = earlier ++ .looked (.block index block) false :: later ∧ IsClear earlier

theorem Phase.Tells.mem_reached (tells : phase.Tells stations rest marks) {index : Nat}
    {block : Block} : (index, block) ∈ reached marks ↔ IsReached marks index block := by
  unfold reached
  rw [List.mem_filterMap]
  constructor
  · rintro ⟨mark, member, found⟩
    split at found
    · split at found
      · next unbounded =>
          cases found
          obtain ⟨earlier, later, same⟩ := List.append_of_mem member
          exact ⟨unbounded, earlier, later, same, tells.clear_before same Bool.false_ne_true⟩
      · cases found
    · cases found
  · rintro ⟨unbounded, earlier, later, rfl, -⟩
    exact ⟨.looked (.block index block) false, by simp, by simp [unbounded]⟩

end Extent

/-! ### Runs -/

section Runs

variable {registry : Registry} {program : Program} {signal : Bool} {scene : Scene RunState}

/-- The trace of a walk has a course that fits it. -/
theorem Scene.Leaves.exists_course
    (steps : Steps registry (Scene.start signal (execute registry program)) scene) {trace : TaskTrace}
    (leaves : scene.Leaves registry program .walk trace) :
    ∃ course : Course, course.Fits (itinerary 0 program.blocks) trace ∧
      ∀ result, scene.walk = .ended result → course.EndsRun result ∨ result = .error .revoked := by
  obtain ⟨stands, same⟩ := leaves
  have expected : Course.discipline.Expected { rest := itinerary 0 program.blocks } trace := by
    have tolerated : ∀ exchange ∈ trace.exchanges, IsTolerated exchange := by
      rw [same]
      exact Steps.isTolerated steps .walk
    exact Discipline.expected_of_exchanges (fun _ _ _ => id) (fun _ _ => trivial) _ tolerated
  have keeps {rest : MarkedActivity RunState}
      (unrolls : Unrolls (fun _ => none) (markExecute registry program) trace rest) :=
    unrolls.keeps (markExecute_keepsCourse program) (fun _ _ _ _ impossible => nomatch impossible)
      expected
  obtain ⟨rest, unrolls⟩ := stands.unrolls
  refine ⟨_, Course.fits_of_inOrder (Course.fits_start _) (keeps unrolls).1, fun result isEnded => ?_⟩
  rw [isEnded] at stands
  rcases stands with finished | ⟨revoked, -⟩
  · exact .inl (keeps finished).2
  · exact .inr revoked

/-- A loop is asked for where its block is named as one to be started. -/
theorem mem_spawned_iff {exchanges : List RunExchange} {index : Nat} {block : Block} :
    (index, block) ∈ exchanges.filterMap spawnOf ↔
      ∃ exchange ∈ exchanges, exchange.request = .spawn index block := by
  rw [List.mem_filterMap]
  refine exists_congr fun exchange => and_congr_right fun _ => ?_
  unfold spawnOf
  split
  · next same => rw [same]; simp
  · next other =>
      constructor
      · nofun
      · exact fun same => absurd same (other index block)

/-- Order and extent of a walk.  In every run and at every point of it, the walk has visited stations
of the itinerary of its program in order and without leaving one out, so the steps that it has invoked
are a prefix of the plan.  When it is through, it has visited the whole itinerary and invoked the whole
plan, unless the signal was found set at the next station, or its last step has been cancelled or has
failed otherwise than by being unresolved; and then it has started the loops of just those unbounded
blocks that it has reached.  A run ends with its walk not through only if it was called off, or because
a line of the walk itself was refused. -/
theorem walk_keeps_to_plan
    (steps : Steps registry (Scene.start signal (execute registry program)) scene) :
    (∃ trace, scene.Leaves registry program .walk trace) ∧
    ∀ trace, scene.Leaves registry program .walk trace →
      visited trace.marks <+: itinerary 0 program.blocks ∧
      invoked trace.marks <+: plan program.blocks ∧
      (∀ state, .walked state ∈ trace.marks →
        (∃ earlier, trace.marks = earlier ++ [.walked state] ∧
          (IsClear earlier ∧ visited earlier = itinerary 0 program.blocks ∧
              invoked earlier = plan program.blocks ∨
            StopsShort (itinerary 0 program.blocks) earlier)) ∧
        ∀ index block, (∃ exchange ∈ scene.exchangesOf .walk, exchange.request = .spawn index block) ↔
          IsReached trace.marks index block) ∧
      ∀ result, scene.walk = .ended result →
        (∃ state, .walked state ∈ trace.marks) ∨ result = .error .revoked ∨
          ∃ fault line, result = .error (.fault fault) ∧ IsBlockLine line ∧
            (scene.exchangesOf .walk).getLast? = some ⟨.log line, .error fault⟩ := by
  refine ⟨Steps.exists_walk_trace steps, fun trace leaves => ?_⟩
  obtain ⟨course, fits, ends⟩ := leaves.exists_course steps
  obtain ⟨-, same⟩ := leaves
  have visits : visited trace.marks <+: itinerary 0 program.blocks := ⟨_, fits.visited⟩
  refine ⟨visits, ?_, fun state isWalked => ?_, fun result isEnded => ?_⟩
  · rw [← filterMap_itinerary 0]
    exact fits.phase.invoked_prefix visits
  · obtain ⟨isThrough, earlier, marks, extent⟩ := fits.phase.of_walked isWalked
    refine ⟨⟨earlier, marks, ?_⟩, fun index block => ?_⟩
    · rcases extent with ⟨clear, isLast⟩ | stops
      · have all := fits.visited
        rw [marks, isLast, List.append_nil, visited_append] at all
        have whole : visited earlier = itinerary 0 program.blocks := by simpa [visited] using all
        exact .inl ⟨clear, whole, by rw [clear.invoked_eq, whole, filterMap_itinerary]⟩
      · exact .inr stops
    · have spawns := fits.spawns
      rw [isThrough, show Phase.pending .through = [] from rfl, List.append_nil, same] at spawns
      rw [← mem_spawned_iff, spawns]
      exact fits.phase.mem_reached
  · have walked : course.phase = .through → ∃ state, .walked state ∈ trace.marks := by
      intro isThrough
      have tells := fits.phase
      rw [isThrough] at tells
      obtain ⟨earlier, state, marks, -⟩ := tells
      exact ⟨state, by simp [marks]⟩
    match result, ends result isEnded with
    | _, .inr revoked => exact .inr (.inl revoked)
    | .ok state, .inl ended => exact .inl (walked ended.1)
    | .error .revoked, _ => exact .inr (.inl rfl)
    | .error (.fault fault), .inl (.inr isThrough) => exact .inl (walked isThrough)
    | .error (.fault fault), .inl (.inl refused) =>
        obtain ⟨line, isLine, last⟩ := fits.refused fault refused
        exact .inr (.inr ⟨fault, line, rfl, isLine, same ▸ last⟩)

/-- A walk beside a loop that has the run stopped keeps to its plan. -/
theorem walk_keeps_to_plan_halt : ∃ scene trace state,
    Steps haltRegistry (Scene.start false (execute haltRegistry haltProgram)) scene ∧
      scene.walk = .ended (.ok .cancelled) ∧ scene.Leaves haltRegistry haltProgram .walk trace ∧
      .walked state ∈ trace.marks ∧ invoked trace.marks <+: plan haltProgram.blocks ∧
      ∃ earlier, trace.marks = earlier ++ [.walked state] ∧
        (IsClear earlier ∧ visited earlier = itinerary 0 haltProgram.blocks ∧
            invoked earlier = plan haltProgram.blocks ∨
          StopsShort (itinerary 0 haltProgram.blocks) earlier) := by
  obtain ⟨scene, later, reached, -, -, steps, ended⟩ := halt_run
  obtain ⟨⟨trace, leaves⟩, keeps⟩ := walk_keeps_to_plan (reached.trans steps)
  obtain ⟨-, inPlan, extent, ends⟩ := keeps trace leaves
  obtain ⟨state, isWalked⟩ | impossible | ⟨_, _, impossible, -⟩ := ends _ ended
  · exact ⟨later, trace, state, reached.trans steps, ended, leaves, isWalked, inPlan,
      (extent state isWalked).1⟩
  · cases impossible
  · cases impossible

/-- One block with one step. -/
def loneProgram : Program :=
  ⟨[⟨.once, [⟨"note", []⟩]⟩], []⟩

/-- A walk whose first line is refused ends before its first step, although no step has failed and the
signal was never found set. -/
theorem walk_cut_short : ∃ scene trace fault,
    Steps ⟨[]⟩ (Scene.start false (execute ⟨[]⟩ loneProgram)) scene ∧
      scene.walk = .ended (.error (.fault fault)) ∧ scene.Leaves ⟨[]⟩ loneProgram .walk trace ∧
      IsClear trace.marks ∧ invoked trace.marks = [] ∧ plan loneProgram.blocks = [⟨"note", []⟩] := by
  have start : Steps ⟨[]⟩ (Scene.start false (execute ⟨[]⟩ loneProgram)) _ := .refl
  have run := start.walked (.begin false _) nofun
  have run := run.walked .look nofun
  have run := run.walked (.respond (.log _) (.error .stop) false nofun) nofun
  have run := run.walked (.conclude false (.error (.fault .stop))) nofun
  have leads : (markExecute ⟨[]⟩ loneProgram).Leads
      [⟨.request (.action .isStopping), false⟩, ⟨.mark (.looked (.block 0 _) false), ()⟩,
        ⟨.request (.log _), .error .stop⟩] (.finished (.error (.fault .stop))) :=
    .answered _ _ (.answered _ _ (.answered _ _ (.rest _)))
  refine ⟨_, _, .stop, run, rfl, ⟨.inl (Unrolls.start.leads leads), rfl⟩, ?_, rfl, rfl⟩
  intro mark member
  obtain rfl := List.mem_singleton.mp member
  exact Bool.false_ne_true

end Runs

end InputScript.Interleaving
