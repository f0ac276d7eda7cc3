/-
Module: InputScript.Proofs.Cancellation
Purpose: A run that is stopped stays stopped.  In every order of turns, whatever actions, observers
  and devices answer, each task acts on true knowledge of the signal: a task that is not at work
  counts on nothing that the others can change.  So once the signal is set no task calls an action,
  and a loop that has ended by itself has seen the signal set.
Main exports: Standing.Sound, Moves.sound, Scene.Sound, calls_final
-/
import InputScript.Proofs.Interleaving
import InputScript.Proofs.Stopping

namespace InputScript.Interleaving

open Run Rehearsal Stopping

/-! ### One task -/

section Task

variable {α : Type} {mayStart : Bool} {post final : Knowledge → Except Interruption α → Prop}

/-- Whether what a task knows of the signal is true, and enough for what it still has to do: `post`
is what has to hold when its activity ends, `final` when the task has ended. -/
def Standing.Sound (mayStart : Bool) (post final : Knowledge → Except Interruption α → Prop)
    (signal : Bool) : Standing α → Prop
  | .ready activity => activity.Keeps (discipline mayStart) post .unknown
  | .active activity =>
    ∃ known : Knowledge, known.Holds signal ∧ activity.Keeps (discipline mayStart) post known
  | .waiting _ next =>
    ∃ known : Knowledge, known ≠ .unset ∧ known.Holds signal ∧
      ∀ answer, (next answer).Keeps (discipline mayStart) post known
  | .napping chunk elapsed seconds next =>
    ∃ known : Knowledge, known ≠ .unset ∧ known.Holds signal ∧
      (∀ interruption, (next (.error interruption)).Keeps (discipline mayStart) post known) ∧
      (next (.ok true)).Keeps (discipline mayStart) post .set ∧
      (NapElapses chunk seconds elapsed →
        (next (.ok false)).Keeps (discipline mayStart) post .unset)
  | .ended result =>
    ∃ known : Knowledge, known ≠ .unset ∧ known.Holds signal ∧ final known result

variable {standing : Standing α} {before after : Bool}

/-- A task that is not at work stays sound when the signal rises. -/
theorem Standing.Sound.rise (sound : standing.Sound mayStart post final before)
    (rests : ¬ standing.IsActive) (rises : before = true → after = true) :
    standing.Sound mayStart post final after := by
  cases standing with
  | ready activity => exact sound
  | active activity => exact absurd trivial rests
  | waiting request next =>
      obtain ⟨known, certain, holds, goesOn⟩ := sound
      exact ⟨known, certain, Knowledge.Holds.rise holds certain rises, goesOn⟩
  | napping chunk elapsed seconds next =>
      obtain ⟨known, certain, holds, goesOn⟩ := sound
      exact ⟨known, certain, Knowledge.Holds.rise holds certain rises, goesOn⟩
  | ended result =>
      obtain ⟨known, certain, holds, ends⟩ := sound
      exact ⟨known, certain, Knowledge.Holds.rise holds certain rises, ends⟩

variable {known : Knowledge}

/-- A task that is answered without a wait knows of the signal what it is to know. -/
theorem Answers.holds {request : RunRequest} {answer : request.Answer}
    (answers : Answers before request answer after) (holds : known.Holds before) :
    (discipline mayStart).expects known request answer ∧
      ((discipline mayStart).after known request answer).Holds after := by
  have later := Knowledge.Holds.later holds answers.signal_mono
  cases request with
  | action request =>
      cases request with
      | isStopping =>
          obtain ⟨rfl, rfl⟩ := answers
          exact ⟨holds, Knowledge.ofLook_holds _⟩
      | stop => exact ⟨trivial, answers⟩
      | nap chunk seconds =>
          obtain ⟨stopping, isOver, rfl, rfl⟩ := answers
          obtain rfl := napStep_over isOver
          refine ⟨?_, Knowledge.ofLook_holds _⟩
          rintro ⟨⟩
          exact .ended isOver
      | _ => exact ⟨trivial, later⟩
  | _ => exact ⟨trivial, later⟩

/-- A task whose request takes a turn of the others has no knowledge that they can change. -/
theorem Suspends.goesOn {request : RunRequest} (suspends : Suspends request)
    {next : request.Answer → RunActivity α}
    (keeps : (Activity.perform request next).Keeps (discipline mayStart) post known)
    (answer : request.Answer) : (next answer).Keeps (discipline mayStart) post known.later := by
  obtain ⟨-, goesOn⟩ := keeps
  cases request with
  | action request =>
      cases request with
      | pass | sleep | block => exact goesOn answer trivial
      | _ => exact suspends.elim
  | handover => exact goesOn answer trivial
  | join tolerant => exact goesOn answer trivial
  | _ => exact suspends.elim

/-- What a task that falls asleep counts on. -/
theorem nap_goesOn {chunk seconds : Float} {next : Except Interruption Bool → RunActivity α}
    (keeps : (Activity.perform (.action (.nap chunk seconds)) next :
      RunActivity α).Keeps (discipline mayStart) post known) :
    (∀ interruption, (next (.error interruption)).Keeps (discipline mayStart) post known.later) ∧
      (next (.ok true)).Keeps (discipline mayStart) post .set ∧
      (NapElapses chunk seconds 0 → (next (.ok false)).Keeps (discipline mayStart) post .unset) := by
  obtain ⟨-, goesOn⟩ := keeps
  refine ⟨fun interruption => ?_, ?_, fun elapses => ?_⟩
  · exact goesOn (.error interruption) nofun
  · exact goesOn (.ok true) nofun
  · exact goesOn (.ok false) fun _ => elapses

/-- A nap that goes on leaves what the task counts on. -/
theorem napElapses_of_part {chunk elapsed seconds time later : Float}
    (sleeps : napStep before chunk elapsed seconds = .part time later)
    (elapses : NapElapses chunk seconds later) : NapElapses chunk seconds elapsed := by
  cases before with
  | false => exact .part sleeps elapses
  | true =>
      unfold napStep at sleeps
      split at sleeps <;> cases sleeps

variable {conclude : Except Interruption α → Standing α} {loops : List (Standing LoopStep)}
  {exchanges : List RunExchange}

/-- A move of a sound task leaves it sound. -/
theorem Moves.sound {later : Standing α}
    (moves : Moves conclude loops before standing exchanges after later)
    (sound : standing.Sound mayStart post final before) (forgives : Forgives final)
    (concludes : ∀ known signal result, known.Holds signal → post known result →
      (conclude result).Sound mayStart post final signal) :
    later.Sound mayStart post final after := by
  cases moves with
  | begin activity => exact ⟨.unknown, trivial, sound⟩
  | revoke activity => exact ⟨.unknown, nofun, trivial, forgives _ _⟩
  | answer answers =>
      obtain ⟨known, holds, -, goesOn⟩ := sound
      obtain ⟨expected, holdsAfter⟩ := answers.holds holds
      exact ⟨_, holdsAfter, goesOn _ expected⟩
  | suspend suspends =>
      obtain ⟨known, holds, keeps⟩ := sound
      exact ⟨known.later, known.later_ne_unset, Knowledge.Holds.later holds id,
        suspends.goesOn keeps⟩
  | resume resumes =>
      obtain ⟨known, -, holds, goesOn⟩ := sound
      exact ⟨known, holds, goesOn _⟩
  | fallAsleep sleeps =>
      obtain ⟨known, holds, keeps⟩ := sound
      obtain ⟨startles, wakes, elapses⟩ := nap_goesOn keeps
      exact ⟨known.later, known.later_ne_unset, Knowledge.Holds.later holds id, startles, wakes,
        fun elapsed => elapses (napElapses_of_part sleeps elapsed)⟩
  | sleepOn sleeps =>
      obtain ⟨known, certain, holds, startles, wakes, elapses⟩ := sound
      exact ⟨known, certain, holds, startles, wakes,
        fun elapsed => elapses (napElapses_of_part sleeps elapsed)⟩
  | @wake stopping _ _ _ _ isOver =>
      obtain ⟨known, certain, holds, startles, wakes, elapses⟩ := sound
      obtain rfl := napStep_over isOver
      cases stopping with
      | false => exact ⟨.unset, rfl, elapses (.ended isOver)⟩
      | true => exact ⟨.set, rfl, wakes⟩
  | startle =>
      obtain ⟨known, -, holds, startles, -, -⟩ := sound
      exact ⟨known, holds, startles _⟩
  | conclude result =>
      obtain ⟨known, holds, ends⟩ := sound
      exact concludes known _ _ holds ends

/-- The requests of a sound task are in order for what is true of the signal. -/
theorem Moves.admits {later : Standing α}
    (moves : Moves conclude loops before standing exchanges after later)
    (sound : standing.Sound mayStart post final before) (exchange : RunExchange)
    (member : exchange ∈ exchanges) :
    ∃ known : Knowledge, known.Holds before ∧
      (discipline mayStart).admits known exchange.request := by
  cases moves with
  | answer answers =>
      obtain ⟨known, holds, admits, -⟩ := sound
      obtain rfl := List.mem_singleton.mp member
      exact ⟨known, holds, admits⟩
  | @resume request _ _ resumes =>
      -- The requests that are answered after a wait are always in order.
      obtain rfl := List.mem_singleton.mp member
      refine ⟨.unknown, trivial, ?_⟩
      cases request with
      | call label arguments => exact resumes.elim
      | spawn index block => exact resumes.elim
      | _ => trivial
  | wake | startle =>
      obtain rfl := List.mem_singleton.mp member
      exact ⟨.unknown, trivial, trivial⟩
  | _ => cases member

end Task

/-! ### All tasks -/

section Scene

variable {ρ : Type} {registry : Catalog.Registry}

/-- A loop that has ended without a fault has ended by itself, and knows that the signal is set. -/
def LoopOver (known : Knowledge) (result : Except Interruption LoopStep) : Prop :=
  ∀ step, result = .ok step → step = .ended ∧ known = .set

theorem loopOver_forgives : Forgives LoopOver :=
  fun _ _ _ impossible => nomatch impossible

/-- Whether all tasks of a run are sound.  Only the walk may start loops, and a loop ends by itself
only when the signal is set. -/
structure Scene.Sound (scene : Scene ρ) : Prop where
  walk : scene.walk.Sound true AnyEnd AnyEnd scene.signal
  loops : ∀ loop ∈ scene.loops, loop.Sound false LoopEnd LoopOver scene.signal

/-- A run that has not begun is sound if its walk is careful. -/
theorem Scene.sound_start {walk : RunActivity ρ} (careful : Careful true AnyEnd walk)
    (signal : Bool) : (Scene.start signal walk).Sound where
  walk := careful .unknown
  loops := nofun

/-- A walk that has ended is sound however it has ended. -/
theorem ended_sound (known : Knowledge) (signal : Bool) (result : Except Interruption ρ)
    (_ : known.Holds signal) (_ : AnyEnd known result) :
    (Standing.ended result).Sound true AnyEnd AnyEnd signal :=
  ⟨.unknown, nofun, trivial, trivial⟩

/-- A loop is sound between two passes and after the last one. -/
theorem ofLoop_sound (known : Knowledge) (signal : Bool) (result : Except Interruption LoopStep)
    (holds : known.Holds signal) (ends : LoopEnd known result) :
    (Standing.ofLoop registry result).Sound false LoopEnd LoopOver signal := by
  unfold Standing.ofLoop
  split
  · exact turn_careful registry _ .unknown
  · obtain rfl := ends rfl
    refine ⟨.set, nofun, holds, ?_⟩
    rintro step ⟨⟩
    exact ⟨rfl, rfl⟩
  · exact ⟨.unknown, nofun, trivial, loopOver_forgives _ _⟩

theorem startedBy_sound {exchange : RunExchange} {loop : Standing LoopStep}
    (started : loop ∈ startedBy registry exchange) (signal : Bool) :
    loop.Sound false LoopEnd LoopOver signal := by
  unfold startedBy at started
  split at started
  · obtain rfl := List.mem_singleton.mp started
    exact beginLoop_careful registry _ _ .unknown
  · cases started

variable {scene later : Scene ρ}

/-- Every step of a run leaves all its tasks sound. -/
theorem Step.sound (step : Step registry scene later) (sound : scene.Sound) : later.Sound := by
  cases step with
  | stop idle =>
      exact ⟨sound.walk.rise idle.1 fun _ => rfl,
        fun loop member => (sound.loops loop member).rise (idle.2 loop member) fun _ => rfl⟩
  | walk alone moves =>
      refine ⟨moves.sound sound.walk anyEnd_forgives ended_sound, fun loop member => ?_⟩
      obtain old | new := List.mem_append.mp member
      · exact (sound.loops loop old).rise (alone loop old) moves.signal_mono
      · obtain ⟨exchange, -, started⟩ := List.mem_flatMap.mp new
        exact startedBy_sound started _
  | @loop number standing later exchanges after found alone moves =>
      obtain ⟨walkRests, othersRest⟩ := alone
      refine ⟨sound.walk.rise walkRests moves.signal_mono, fun loop member => ?_⟩
      obtain old | new := List.mem_append.mp member
      · obtain ⟨other, stands⟩ := List.mem_iff_getElem?.mp old
        by_cases same : number = other
        · have moved : loop = later := by
            rw [← same, List.getElem?_set_self (List.getElem?_eq_some_iff.mp found).1] at stands
            exact (Option.some.inj stands).symm
          rw [moved]
          exact moves.sound (sound.loops _ (List.mem_of_getElem? found)) loopOver_forgives ofLoop_sound
        · rw [List.getElem?_set_ne same] at stands
          exact (sound.loops loop (List.mem_of_getElem? stands)).rise
            (othersRest other loop (Ne.symm same) stands) moves.signal_mono
      · obtain ⟨exchange, -, started⟩ := List.mem_flatMap.mp new
        exact startedBy_sound started _

/-- At every point of a run all its tasks are sound. -/
theorem Steps.sound (steps : Steps registry scene later) (sound : scene.Sound) : later.Sound := by
  induction steps with
  | refl => exact sound
  | tail _ step hypothesis => exact step.sound hypothesis

/-! ### Calls -/

/-- Whether a request calls an action. -/
def isCall : RunRequest → Bool
  | .call _ _ => true
  | _ => false

/-- The calls of actions so far, each with the task that made it. -/
def Scene.calls (scene : Scene ρ) : List (TaskId × RunExchange) :=
  scene.history.filter (isCall ·.2.request)

variable {exchanges : List RunExchange}

/-- A sound task calls no action once the signal is set. -/
theorem Moves.not_isCall {α : Type} {mayStart : Bool}
    {post final : Knowledge → Except Interruption α → Prop}
    {conclude : Except Interruption α → Standing α} {loops : List (Standing LoopStep)}
    {after : Bool} {standing later : Standing α}
    (moves : Moves conclude loops true standing exchanges after later)
    (sound : standing.Sound mayStart post final true) (exchange : RunExchange)
    (member : exchange ∈ exchanges) : isCall exchange.request = false := by
  obtain ⟨known, holds, admits⟩ := moves.admits sound exchange member
  obtain ⟨request, answer⟩ := exchange
  cases request with
  | call label arguments =>
      obtain rfl : known = .unset := admits
      cases holds
  | _ => rfl

theorem calls_append {task : TaskId}
    (appended : later.history = scene.history ++ exchanges.map (task, ·))
    (quiet : ∀ exchange ∈ exchanges, isCall exchange.request = false) :
    later.calls = scene.calls := by
  have none : (exchanges.map (task, ·)).filter (isCall ·.2.request) = [] := by
    simpa [List.filter_eq_nil_iff] using quiet
  rw [Scene.calls, appended, List.filter_append, none, List.append_nil, Scene.calls]

/-- A step of a sound run calls no action once the signal is set. -/
theorem Step.calls_eq (step : Step registry scene later) (sound : scene.Sound)
    (stopped : scene.signal = true) : later.calls = scene.calls := by
  cases step with
  | stop idle => rfl
  | walk alone moves =>
      rw [stopped] at moves
      exact calls_append rfl (moves.not_isCall (stopped ▸ sound.walk))
  | loop found alone moves =>
      rw [stopped] at moves
      exact calls_append rfl
        (moves.not_isCall (stopped ▸ sound.loops _ (List.mem_of_getElem? found)))

/-- A run that is stopped stays stopped: whatever the program, the registry and the actions, and in
every order of the turns, no task calls an action once the signal is set. -/
theorem calls_final (program : Script.Program) {signal : Bool} {scene later : Scene RunState}
    (reached : Steps registry (Scene.start signal (execute registry program)) scene)
    (stopped : scene.signal = true) (steps : Steps registry scene later) :
    later.calls = scene.calls := by
  have start := Scene.sound_start (execute_careful registry program) signal
  suffices kept : later.Sound ∧ later.signal = true ∧ later.calls = scene.calls from kept.2.2
  induction steps with
  | refl => exact ⟨reached.sound start, stopped, rfl⟩
  | tail _ step hypothesis =>
      obtain ⟨sound, set, same⟩ := hypothesis
      exact ⟨step.sound sound, step.signal_mono set, (step.calls_eq sound set).trans same⟩

end Scene

/-! ### A run that is stopped -/

section Runs

variable {ρ α : Type} {registry : Catalog.Registry} {first scene : Scene ρ}
  {conclude : Except Interruption α → Standing α} {loops : List (Standing LoopStep)} {before : Bool}

/-- An answer without a wait, with all that it leaves open. -/
theorem Moves.respond (request : RunRequest) {next : request.Answer → RunActivity α}
    (answer : request.Answer) (after : Bool) (answers : Answers before request answer after) :
    Moves conclude loops before (.active (.perform request next)) [⟨request, answer⟩] after
      (.active (next answer)) :=
  .answer answers

/-- A look at the signal. -/
theorem Moves.look {next : Bool → RunActivity α} :
    Moves conclude loops before (.active (.perform (.action .isStopping) next))
      [⟨.action .isStopping, before⟩] before (.active (next before)) :=
  .answer ⟨rfl, rfl⟩

/-- An answer after a wait, with all that it leaves open. -/
theorem Moves.regain (request : RunRequest) {next : request.Answer → RunActivity α}
    (answer : request.Answer) (resumes : Resumes loops request answer) :
    Moves conclude loops before (.waiting request next) [⟨request, answer⟩] before
      (.active (next answer)) :=
  .resume resumes

variable {loop : Standing LoopStep}

/-- The walk may move if the only loop is not at work. -/
theorem rests_of_only (rests : ¬ loop.IsActive) :
    ∀ other ∈ [loop], ¬ other.IsActive := by
  intro other member
  obtain rfl := List.mem_singleton.mp member
  exact rests

/-- There is no loop but the only one. -/
theorem alone_of_only :
    ∀ other task, other ≠ 0 → [loop][other]? = some task → ¬ task.IsActive := by
  intro other task different found
  cases other with
  | zero => exact absurd rfl different
  | succ other => cases found

variable {exchanges : List RunExchange}

/-- The walk moves. -/
theorem Steps.walked (steps : Steps registry first scene) {after : Bool} {later : Standing ρ}
    (moves : Moves .ended scene.loops scene.signal scene.walk exchanges after later)
    (alone : ∀ loop ∈ scene.loops, ¬ loop.IsActive) :
    Steps registry first
      ⟨after, scene.history ++ exchanges.map (.walk, ·), later,
        scene.loops ++ exchanges.flatMap (startedBy registry)⟩ :=
  steps.tail (.walk alone moves)

/-- The only loop moves. -/
theorem Steps.looped (steps : Steps registry first scene) {later : Standing LoopStep}
    {after : Bool}
    (moves : Moves (Standing.ofLoop registry) scene.loops scene.signal loop exchanges after later)
    (only : scene.loops = [loop]) (rests : ¬ scene.walk.IsActive) :
    Steps registry first
      ⟨after, scene.history ++ exchanges.map fun exchange => (.loop 0, exchange), scene.walk,
        later :: exchanges.flatMap (startedBy registry)⟩ := by
  have found : scene.loops[0]? = some loop := by rw [only]; rfl
  simpa [only] using steps.tail (.loop found ⟨rests, only ▸ alone_of_only⟩ moves)

/-- A run that pauses can go on from where it stands. -/
theorem Steps.pause (steps : Steps registry first scene) :
    Steps registry first scene ∧ Steps registry scene scene :=
  ⟨steps, .refl⟩

end Runs

/-- A table with one operation, which has the run stopped. -/
def haltRegistry : Catalog.Registry :=
  ⟨[("halt", [⟨{ name := "halt" }, [],
    { label := "halt", parameters := none, isAsync := true,
      body := fun _ => Action.stop.bind fun _ => pure .none }⟩])]⟩

/-- A loop beside a block whose first step has the run stopped. -/
def haltProgram : Script.Program :=
  ⟨[⟨.forever, [⟨"halt", []⟩]⟩, ⟨.once, [⟨"halt", []⟩, ⟨"halt", []⟩]⟩], []⟩

/-- The loop of that program. -/
abbrev haltLoop : Standing LoopStep :=
  .ready (beginLoop haltRegistry 0 ⟨.forever, [⟨"halt", []⟩]⟩)

theorem haltLoop_rests : ∀ loop ∈ [haltLoop], ¬ loop.IsActive :=
  rests_of_only id

/-- A run of that program up to the call that has it stopped, and from there to its end. -/
theorem halt_run : ∃ scene later,
    Steps haltRegistry (Scene.start false (execute haltRegistry haltProgram)) scene ∧
      scene.signal = true ∧ scene.calls.length = 1 ∧ Steps haltRegistry scene later ∧
      later.walk = .ended (.ok .cancelled) := by
  have start : Steps haltRegistry (Scene.start false (execute haltRegistry haltProgram)) _ := .refl
  -- The walk starts the loop and calls the first step of the second block.
  have run := start.walked (.begin false _) nofun
  have run := run.walked .look nofun
  have run := run.walked (.respond (.log _) (.ok ()) false nofun) nofun
  have run := run.walked (.respond (.spawn _ _) () false rfl) nofun
  have run := run.walked .look haltLoop_rests
  have run := run.walked (.respond (.log _) (.ok ()) false nofun) haltLoop_rests
  iterate 3 have run := run.walked .look haltLoop_rests
  have run := run.walked (.respond (.call "halt" []) (1 : Nat) false rfl) haltLoop_rests
  have run := run.walked (.respond (.action .stop) () true rfl) haltLoop_rests
  -- The second step is not called any more; the walk waits for the loop, which ends at once.
  obtain ⟨reached, run⟩ := run.pause
  have run := run.walked .look haltLoop_rests
  have run := run.walked (.respond (.log _) (.ok ()) true fun _ => rfl) haltLoop_rests
  have run := run.walked (.respond (.report _) (.ok ()) true fun _ => rfl) haltLoop_rests
  have run := run.walked .look haltLoop_rests
  have run := run.walked (.suspend trivial) haltLoop_rests
  have run := run.looped (.begin true _) rfl id
  have run := run.looped .look rfl id
  have run := run.looped (.respond (.log _) (.ok ()) true fun _ => rfl) rfl id
  have run := run.looped (.conclude true (.ok .ended)) rfl id
  have ended : ∀ loop ∈ [Standing.ended (.ok LoopStep.ended)], ¬ loop.IsActive := rests_of_only id
  have joined : JoinEnds false [.ended (.ok .ended)] (.ok ()) := by
    intro loop member
    obtain rfl := List.mem_singleton.mp member
    exact ⟨_, rfl, .inr ⟨_, rfl⟩⟩
  have run := run.walked (.regain (.join false) (.ok ()) joined) ended
  have run := run.walked (.conclude true (.ok RunState.cancelled)) ended
  exact ⟨_, _, reached, rfl, rfl, run, rfl⟩

/-- The run of that program calls an action before it is stopped, and none afterwards. -/
theorem calls_final_halt : ∃ scene later,
    Steps haltRegistry (Scene.start false (execute haltRegistry haltProgram)) scene ∧
      scene.signal = true ∧ scene.calls.length = 1 ∧ Steps haltRegistry scene later ∧
      later.walk = .ended (.ok .cancelled) ∧ later.calls = scene.calls := by
  obtain ⟨scene, later, reached, stopped, once, steps, ended⟩ := halt_run
  exact ⟨scene, later, reached, stopped, once, steps, ended,
    calls_final haltProgram reached stopped steps⟩

end InputScript.Interleaving
