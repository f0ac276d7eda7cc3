/-
Module: InputScript.Proofs.Holding
Purpose: No key stays held.  A run whose actions tap or press nothing has released what it has pressed
  whenever no task is at work and the workers have finished, so also at its end, however it ends; if its
  other actions release nothing either, presses and releases match.
Main exports: heldAfter, presses, releases, regime, nothing_stays_held
-/
import InputScript.Proofs.Cancellation
import InputScript.Proofs.Touches
import InputScript.Proofs.Workers

namespace InputScript.Holding

open Catalog Device Run Rehearsal Script Interleaving Reporting

/-! ### Touches of a run -/

/-- The touch that an exchange of a run amounts to. -/
def touchIn? : RunExchange → Option Touch
  | ⟨.action request, answer⟩ => touchOf? ⟨request, answer⟩
  | _ => none

/-- Whether an exchange of a run is no release that fails. -/
def Reliable : RunExchange → Prop
  | ⟨.action request, answer⟩ => IsReliable ⟨request, answer⟩
  | _ => True

/-- How often a key or button was pressed. -/
def presses (target : Target) (history : List (TaskId × RunExchange)) : Nat :=
  (history.filterMap fun entry => touchIn? entry.2).count (.press target)

/-- How often a key or button was released. -/
def releases (target : Target) (history : List (TaskId × RunExchange)) : Nat :=
  (history.filterMap fun entry => touchIn? entry.2).count (.release target)

/-- What is held after an exchange, the latest first. -/
def handle (held : List Target) (exchange : RunExchange) : List Target :=
  match touchIn? exchange with
  | some touch => touch.apply held
  | none => held

/-- What is held after all touches so far. -/
def heldAfter (history : List (TaskId × RunExchange)) : List Target :=
  history.foldl (fun held entry => handle held entry.2) []

/-! ### The regime of holding -/

/-- The regime of holding: the actions of a run keep the discipline of holding, and no task gives way
to the others, or takes over from its worker, while it holds something itself. -/
def regime (strict : Bool) (program : Program) : Regime (List Target) where
  calm := []
  admits _ held
    | .action request => (grip strict).admits held request
    | .handover | .join _ => held = []
    | .spawn index block => block ∈ blocksOf program (.loop index)
    | _ => True
  expects _ request answer := Reliable ⟨request, answer⟩
  after held request answer := handle held ⟨request, answer⟩

section Actions

variable {strict : Bool} {program : Program} {task : TaskId} {α : Type} {held : List Target}

theorem ofAction_keeps {post : List Target → Except Interruption α → Prop}
    {activity : ActionActivity α} (keeps : activity.Keeps (grip strict) post held) :
    (ofAction activity).Keeps ((regime strict program).discipline task) post held := by
  induction activity generalizing held with
  | finished result => exact keeps
  | perform request resume hypothesis =>
      obtain ⟨admitted, goesOn⟩ := keeps
      exact ⟨admitted, fun answer expected =>
        hypothesis answer (goesOn answer expected)⟩

/-- A worker that holds nothing is taken over. -/
theorem handover_bind_keeps {activity : RunActivity α}
    (keeps : activity.Keeps ((regime strict program).discipline task) (fun later _ => later = []) []) :
    (handover.bind fun _ => activity).Keeps ((regime strict program).discipline task)
      (fun later _ => later = []) [] := by
  refine ⟨rfl, ?_⟩
  rintro (interruption | _) -
  · exact rfl
  · exact keeps

theorem handedOver_keeps {activity : ActionActivity α}
    (keeps : activity.Keeps (grip strict) (fun later _ => later = []) held) :
    (handedOver activity).Keeps ((regime strict program).discipline task)
      (fun later _ => later = []) held := by
  induction activity generalizing held with
  | finished result =>
      obtain rfl : held = [] := keeps
      exact handover_bind_keeps rfl
  | perform request resume hypothesis =>
      obtain ⟨admitted, goesOn⟩ := keeps
      rw [handedOver]
      split
      next suspended =>
        obtain rfl : held = [] := by
          cases request with
          | device event => cases suspended
          | _ => exact admitted suspended
        exact handover_bind_keeps (ofAction_keeps ⟨admitted, goesOn⟩)
      · exact ⟨admitted, fun answer expected =>
          hypothesis answer (goesOn answer expected)⟩

theorem callResolved_calm {resolution : Resolution}
    (gentle : ∀ call, Gentle strict (resolution.overload.implementation.body call)) :
    (regime strict program).Calm task (callResolved resolution) := by
  refine ⟨trivial, fun ordinal _ => ?_⟩
  dsimp only
  split
  · exact ofAction_keeps (gentle _).keeps
  · exact handedOver_keeps (gentle _).keeps

/-- The regime of holding suits a program whose actions end with nothing held. -/
theorem regime_suits {registry : Registry}
    (gentle : ∀ task name, WithinReach registry program task name →
      ∀ overload ∈ registry.overloads name, ∀ call,
        Gentle strict (overload.implementation.body call)) :
    (regime strict program).Suits registry program where
  routine := by
    intro task request routine
    cases request with
    | action request =>
        cases request with
        | device event => exact routine.elim
        | _ => exact fun _ => rfl
    | handover => rfl
    | join tolerant => rfl
    | spawn index block => exact routine.elim
    | _ => trivial
  unmoved := by
    intro request answer routine
    cases request with
    | action request =>
        cases request with
        | device event => exact routine.elim
        | _ => rfl
    | _ => rfl
  yields := by
    intro task held request gives admitted
    cases request with
    | action request =>
        cases request with
        | pass | sleep | nap | block => exact admitted rfl
        | _ => exact gives.elim
    | handover => exact admitted
    | join tolerant => exact admitted
    | _ => exact gives.elim
  starts index block member := ⟨member, fun _ => rfl⟩
  started _ _ _ _ admitted := admitted
  calls task name within _ _ resolved :=
    callResolved_calm (gentle task name within _ (resolve_mem resolved))
  answered _ request := by cases request <;> simp [regime, Reliable, IsReliable, usualAnswer]
  left := ⟨trivial, rfl⟩

end Actions

/-! ### Balance -/

section Balance

variable {strict : Bool} {program : Program} {target : Target}
  {history : List (TaskId × RunExchange)} {entry : TaskId × RunExchange}

theorem presses_snoc : presses target (history ++ [entry]) =
    presses target history + if touchIn? entry.2 = some (.press target) then 1 else 0 := by
  cases touched : touchIn? entry.2 <;> simp [presses, touched, List.count_singleton]

theorem releases_snoc : releases target (history ++ [entry]) =
    releases target history + if touchIn? entry.2 = some (.release target) then 1 else 0 := by
  cases touched : touchIn? entry.2 <;> simp [releases, touched, List.count_singleton]

theorem heldAfter_snoc {task : TaskId} {exchange : RunExchange} :
    heldAfter (history ++ [(task, exchange)]) = handle (heldAfter history) exchange := by
  simp [heldAfter]

/-- One exchange: a press adds one hold, a release takes one away if there is one. -/
theorem count_handle (held : List Target) (exchange : RunExchange) :
    (handle held exchange).count target =
      held.count target + (if touchIn? exchange = some (.press target) then 1 else 0) -
        if touchIn? exchange = some (.release target) then 1 else 0 := by
  cases touched : touchIn? exchange with
  | none => simp [handle, touched]
  | some touch =>
      cases touch with
      | press other => simp [handle, touched, Touch.apply, List.count_cons]
      | release other => simp [handle, touched, Touch.apply, List.count_erase]

/-- How often a task or worker holds a key or button after its exchanges. -/
def holds (strict : Bool) (program : Program) (target : Target) (strand : List RunExchange) : Nat :=
  ((regime strict program).own strand).count target

theorem holds_snoc (strand : List RunExchange) (exchange : RunExchange) :
    holds strict program target (strand ++ [exchange]) =
      holds strict program target strand +
        (if touchIn? exchange = some (.press target) then 1 else 0) -
        if touchIn? exchange = some (.release target) then 1 else 0 := by
  rw [holds, Regime.own_append]
  exact count_handle _ _

theorem holds_of_calm {strand : List RunExchange}
    (calm : (regime strict program).own strand = (regime strict program).calm) :
    holds strict program target strand = 0 := by
  rw [holds, calm]
  exact List.count_nil

/-- Under the strict rules, a task or worker releases only what it holds itself. -/
theorem isHeld_of_release {task : TaskId} {strand : List RunExchange} {exchange : RunExchange}
    (admitted : (regime true program).admits task ((regime true program).own strand) exchange.request)
    (released : touchIn? exchange = some (.release target)) :
    0 < holds true program target strand := by
  obtain ⟨request, answer⟩ := exchange
  cases request with
  | action request =>
      obtain ⟨event, rfl, asked⟩ := touch?_of_touchOf? released
      exact List.count_pos_iff.mpr (admitted target asked rfl)
  | _ => cases released

/-- Whether all together hold a key or button at most so often. -/
def HeldWithin (target : Target) (history : List (TaskId × RunExchange)) (sum : Nat) : Prop :=
  (heldAfter history).count target ≤ sum

theorem HeldWithin.exchange {task : TaskId} {exchange : RunExchange} {strand : List RunExchange}
    {others : Nat} (within : HeldWithin target history (others + holds strict program target strand)) :
    HeldWithin target (history ++ [(task, exchange)])
      (others + holds strict program target (strand ++ [exchange])) := by
  unfold HeldWithin at within ⊢
  rw [heldAfter_snoc, count_handle, holds_snoc]
  omega

/-- Whether a key or button has been pressed so much more often than it was released, and was never
released more often than it was pressed. -/
def Balances (target : Target) (history : List (TaskId × RunExchange)) (sum : Nat) : Prop :=
  presses target history = releases target history + sum ∧
    ∀ earlier, earlier <+: history → releases target earlier ≤ presses target earlier

theorem Balances.exchange {task : TaskId} {exchange : RunExchange} {strand : List RunExchange}
    {others : Nat} (balance : Balances target history (others + holds true program target strand))
    (admitted : (regime true program).admits task ((regime true program).own strand) exchange.request) :
    Balances target (history ++ [(task, exchange)])
      (others + holds true program target (strand ++ [exchange])) := by
  have now : presses target (history ++ [(task, exchange)]) =
      releases target (history ++ [(task, exchange)]) +
        (others + holds true program target (strand ++ [exchange])) := by
    rw [presses_snoc, releases_snoc, holds_snoc, balance.1]
    by_cases released : touchIn? exchange = some (.release target)
    · have isHeld := isHeld_of_release admitted released
      simp only [released, reduceCtorEq, Option.some.injEq, if_true, if_false]
      omega
    · simp only [released, if_false]
      omega
  refine ⟨now, fun earlier isPrefix => ?_⟩
  rcases List.prefix_concat_iff.mp isPrefix with rfl | before
  · omega
  · exact balance.2 earlier before

end Balance

/-! ### Runs -/

section Runs

variable {registry : Registry} {program : Program} {signal : Bool}

/-- Whether all operations that a program can reach are of a kind. -/
def CallsOnly (registry : Registry) (program : Program) (kind : Overload → Prop) : Prop :=
  ∀ task name, WithinReach registry program task name →
    ∀ overload ∈ registry.overloads name, kind overload

variable {stage : Stage RunState}
  (reached : Stage.Steps registry (Stage.start signal (execute registry program)) stage)
  (reliable : ∀ entry ∈ stage.history, Reliable entry.2)
include reached reliable

/-- All together hold no more than each of them holds, so nothing when all have come to rest. -/
theorem heldAfter_of_quiet (suits : (regime false program).Suits registry program)
    (quiet : stage.IsQuiet) : heldAfter stage.history = [] := by
  refine List.eq_nil_iff_forall_not_mem.mpr fun target isHeld => ?_
  have nothing : holds false program target [] = 0 := rfl
  have start : HeldWithin target [] 0 := Nat.le_refl 0
  obtain ⟨keeps, within⟩ := reached.tallies suits (fun entry member _ => reliable entry member)
    nothing start fun _ _ _ _ _ _ within => within.exchange
  rw [keeps.total_eq_zero quiet fun _ => holds_of_calm] at within
  exact Nat.not_lt.mpr within (List.count_pos_iff.mpr isHeld)

/-- Under the strict rules, what has been pressed and not released is what each of them holds. -/
theorem balanced (suits : (regime true program).Suits registry program) (target : Target) :
    (stage.IsQuiet → releases target stage.history = presses target stage.history) ∧
      ∀ earlier, earlier <+: stage.history → releases target earlier ≤ presses target earlier := by
  have start : Balances target [] 0 := by
    refine ⟨rfl, fun earlier isPrefix => ?_⟩
    rw [List.prefix_nil.mp isPrefix]
    exact Nat.le_refl 0
  obtain ⟨keeps, balance, never⟩ := reached.tallies suits
    (fun entry member _ => reliable entry member) rfl start
    fun _ _ _ _ _ admitted balance => balance.exchange admitted
  refine ⟨fun quiet => ?_, never⟩
  rw [keeps.total_eq_zero quiet fun _ => holds_of_calm] at balance
  exact balance.symm

end Runs

/-! ### Runs of one step -/

/-- A table with one operation. -/
def singleRegistry (overload : Overload) : Registry :=
  ⟨[(overload.name, [overload])]⟩

/-- A program that calls one name once. -/
def singleProgram (name : String) : Program :=
  ⟨[⟨.once, [⟨name, []⟩]⟩], []⟩

theorem callsOnly_single {overload : Overload} {kind : Overload → Prop} (isKind : kind overload) :
    CallsOnly (singleRegistry overload) (singleProgram overload.name) kind := by
  rintro task name ⟨block, inProgram, named⟩ other member
  have only : block ∈ (singleProgram overload.name).blocks := by
    cases task <;> exact (List.mem_filter.mp inProgram).1
  obtain rfl := List.mem_singleton.mp only
  have same : name = overload.name := by
    simpa [namesOf, StepTree.ofStep, StepTree.ofArguments, StepTree.postorder,
      StepTree.postorderAll] using named
  have found : (singleRegistry overload).overloads overload.name = [overload] := by
    simp [singleRegistry, Registry.overloads, Dictionary.get?]
  rw [same, found, List.mem_singleton] at member
  exact member ▸ isKind

/-- The input action that releases a button. -/
def mouseUp : Overload := BuiltIn.onButton "MouseUp" "" false fun _ => Mouse.release

theorem mouseUp_pressesNothing : PressesNothing mouseUp := by
  intro call
  refine Activity.Asks.bind (Activity.asks_ofExcept _) fun button => ?_
  exact ⟨nofun, fun answer => by cases answer <;> trivial⟩

/-- The input action that clicks the left button, where the time to rest cannot be read. -/
def click : Overload :=
  BuiltIn.nullaryCancellable "MouseClickLeft" ""
    (Mouse.click { preferences := { restTime := .error (.ofValue "no time to rest") } } ·
      (BuiltIn.buttonValue "Left"))

theorem click_isTap : IsTap click := by
  refine ⟨{ preferences := { restTime := .error (.ofValue "no time to rest") } }, .inl ⟨?_, ?_⟩⟩
  · simp [click, BuiltIn.mouse]
  · simp [click, BuiltIn.nullaryCancellable, tapNames]

/-- A click can be called off when the button is pressed: the run ends before its worker, which is left
behind, releases the button. -/
theorem click_run : ∃ stage later, Stage.Steps (singleRegistry click)
      (Stage.start false (execute (singleRegistry click) (singleProgram "MouseClickLeft"))) stage ∧
    stage.walk.standing = .ended (.error .revoked) ∧ heldAfter stage.history = [.button .left] ∧
    Stage.Steps (singleRegistry click) stage later ∧ later.walk = stage.walk ∧ later.IsQuiet ∧
    (∀ entry ∈ later.history, Reliable entry.2) ∧ presses (.button .left) later.history = 1 := by
  have start : Stage.Steps (singleRegistry click)
      (Stage.start false (execute (singleRegistry click) (singleProgram "MouseClickLeft"))) _ := .refl
  have run := start.walked (.moves (.begin false _)) rfl
  have run := run.walked (.moves .look) rfl
  have run := run.walked (.moves (.respond (.log _) (.ok ()) false nofun)) rfl
  iterate 3 have run := run.walked (.moves .look) rfl
  have run := run.walked (.moves (.respond (.call "MouseClickLeft" []) (1 : Nat) false rfl)) rfl
  have run := run.walked (.moves (.respond (.action (.device (.press .left))) (.ok ()) false nofun)) rfl
  have run := run.walked (.leaves (by
    repeat first | apply OnWorker.bind | apply OnWorker.attempt
    exact handedOver_onWorker _)) rfl
  have run := run.walked (.moves .look) rfl
  have run := run.walked (.moves (.respond (.log _) (.ok ()) false nofun)) rfl
  have run := run.walked (.moves (.respond (.report _) (.ok ()) false nofun)) rfl
  have run := run.walked (.moves (.respond (.action .stop) () true rfl)) rfl
  have run := run.walked (.moves (.respond .revokeLoops () true rfl)) rfl
  have run := run.walked (.moves (.suspend trivial)) rfl
  have run := run.walked (.moves (.regain (.join true) (.ok ()) nofun)) rfl
  have ended := run.walked (.moves (.conclude true (.error .revoked))) rfl
  apply Exists.intro
  apply Exists.intro
  refine ⟨ended, rfl, rfl, ?_, ?_⟩
  · exact .tail (.single (.only rfl (.respond (.action (.device (.release .left))) (.ok ()) true
      fun _ => rfl))) (.only rfl (.conclude true (.ok ())))
  · refine ⟨rfl, ⟨id, List.forall_mem_nil _, List.forall_mem_singleton.mpr id⟩, ?_, rfl⟩
    simp [Reliable, IsReliable]

/-- The input action that plays a chord of keys. -/
def combo : Overload :=
  BuiltIn.action { name := "KeyboardCombo", variadic := some BuiltIn.keyType, cancellable := true } []
    "KeyboardCombo = LeftCtrl LeftShift S — press all, wait, release in reverse."
    (fun call => Keyboard.chord {} call.hasSignal call.arguments)

theorem combo_isCombo : IsCombo combo := by
  refine ⟨{}, ?_, ?_⟩
  · simp [combo, BuiltIn.keyboard]
  · simp [combo]

/-- A run of that action that fails at its second key. -/
theorem combo_runs : ∃ exchanges,
    (combo.implementation.body
      ⟨[Keyboard.keyValue "LeftCtrl", Keyboard.keyValue "C"], true, 1⟩).Runs exchanges
      (.error (.fault (.ofValue "stuck"))) ∧
    (∀ exchange ∈ exchanges, IsReliable exchange) ∧
    touchesOf exchanges =
      [.press (.key (.special "ctrl_l")), .release (.key (.special "ctrl_l"))] := by
  apply Exists.intro
  constructor
  · change Activity.Leads _ _ _
    apply Activity.Leads.answered (ActionRequest.device (.keyPress (.special "ctrl_l"))) (.ok ())
    apply Activity.Leads.answered (ActionRequest.device (.keyPress (.character "c")))
      (.error (.ofValue "stuck"))
    apply Activity.Leads.answered (ActionRequest.device (.keyRelease (.special "ctrl_l"))) (.ok ())
    exact .rest _
  · refine ⟨?_, rfl⟩
    simp [IsReliable, touch?]

/-! ### Nothing stays held -/

section Held

variable {registry : Registry} {program : Program} {signal : Bool} {stage : Stage RunState}

/-- Nothing stays held: whatever the arguments, the times to rest, the answers, the order in which tasks
and workers go on and the moment at which the run is stopped or called off, nothing is held when no task
is at work and the workers have finished, and so at the end of the run once they have.  If the other
actions release nothing either, what was pressed has been released exactly as often by then, and never
more often before.  A chord releases in reverse what it has pressed, at whichever key it fails. -/
theorem nothing_stays_held
    (calls : CallsOnly registry program fun overload => IsTap overload ∨ PressesNothing overload)
    (reached : Stage.Steps registry (Stage.start signal (execute registry program)) stage)
    (reliable : ∀ entry ∈ stage.history, Reliable entry.2) :
    (stage.IsQuiet → heldAfter stage.history = []) ∧
    (CallsOnly registry program (fun overload => IsTap overload ∨ TouchesNothing overload) →
      ∀ target, (stage.IsQuiet → releases target stage.history = presses target stage.history) ∧
        ∀ earlier, earlier <+: stage.history → releases target earlier ≤ presses target earlier) ∧
    ∀ overload, IsCombo overload → ∀ call exchanges result,
      (overload.implementation.body call).Runs exchanges result →
      (∀ exchange ∈ exchanges, IsReliable exchange) → Mirrored (touchesOf exchanges) := by
  refine ⟨heldAfter_of_quiet reached reliable (regime_suits ?_),
    fun strictly => balanced reached reliable (regime_suits ?_),
    fun overload combo call exchanges result ran => combo.mirrored ran⟩
  · exact fun task name within overload member call =>
      (calls task name within overload member).elim (·.gentle call) (·.gentle call)
  · exact fun task name within overload member call =>
      (strictly task name within overload member).elim (·.gentle call) (·.gentle call)

end Held

/-- A click that is called off when the button is pressed ends the run with the button held; once its
worker has finished, the button is released.  A chord that fails at its second key has released the
first one. -/
theorem nothing_stays_held_left :
    (∃ stage later, Stage.Steps (singleRegistry click)
        (Stage.start false (execute (singleRegistry click) (singleProgram "MouseClickLeft"))) stage ∧
      stage.walk.standing = .ended (.error .revoked) ∧ heldAfter stage.history = [.button .left] ∧
      Stage.Steps (singleRegistry click) stage later ∧ later.walk = stage.walk ∧
      heldAfter later.history = [] ∧ presses (.button .left) later.history = 1 ∧
      releases (.button .left) later.history = 1) ∧
    ∃ exchanges, (combo.implementation.body
        ⟨[Keyboard.keyValue "LeftCtrl", Keyboard.keyValue "C"], true, 1⟩).Runs exchanges
        (.error (.fault (.ofValue "stuck"))) ∧
      (touchesOf exchanges).length = 2 ∧ Mirrored (touchesOf exchanges) := by
  obtain ⟨stage, later, reached, ended, isHeld, goesOn, walk, quiet, reliable, pressed⟩ := click_run
  have calls {kind : Overload → Prop} : CallsOnly (singleRegistry click)
      (singleProgram "MouseClickLeft") fun overload => IsTap overload ∨ kind overload :=
    callsOnly_single (.inl click_isTap)
  obtain ⟨nothingHeld, balanced, mirrored⟩ :=
    nothing_stays_held calls (reached.trans goesOn) reliable
  obtain ⟨exchanges, ran, comboReliable, touches⟩ := combo_runs
  refine ⟨⟨stage, later, reached, ended, isHeld, goesOn, walk, nothingHeld quiet, pressed,
      ((balanced calls _).1 quiet).trans pressed⟩,
    exchanges, ran, ?_, mirrored combo combo_isCombo _ exchanges _ ran comboReliable⟩
  rw [touches]
  rfl

/-- Among the input actions that press nothing is one that releases more often than was pressed. -/
theorem mouseUp_unbalanced :
    mouseUp ∈ BuiltIn.mouse {} ∧ PressesNothing mouseUp ∧
    CallsOnly (singleRegistry mouseUp) (singleProgram "MouseUp")
      (fun overload => IsTap overload ∨ PressesNothing overload) ∧
    ∃ stage, Stage.Steps (singleRegistry mouseUp)
        (Stage.start false (execute (singleRegistry mouseUp) (singleProgram "MouseUp"))) stage ∧
      (∀ entry ∈ stage.history, Reliable entry.2) ∧ stage.IsQuiet ∧
      stage.walk.standing = .ended (.ok .completed) ∧
      presses (.button .left) stage.history = 0 ∧ releases (.button .left) stage.history = 1 := by
  have start : Stage.Steps (singleRegistry mouseUp)
      (Stage.start false (execute (singleRegistry mouseUp) (singleProgram "MouseUp"))) _ := .refl
  have run := start.walked (.moves (.begin false _)) rfl
  have run := run.walked (.moves .look) rfl
  have run := run.walked (.moves (.respond (.log _) (.ok ()) false nofun)) rfl
  iterate 3 have run := run.walked (.moves .look) rfl
  have run := run.walked (.moves (.respond (.call "MouseUp" _) (1 : Nat) false rfl)) rfl
  have run := run.walked (.moves (.respond (.action (.device (.release .left))) (.ok ()) false nofun)) rfl
  have run := run.walked (.moves (.suspend trivial)) rfl
  have run := run.walked (.moves (.regain .handover (.ok ()) (.inl rfl))) rfl
  have run := run.walked (.moves .look) rfl
  have run := run.walked (.moves (.respond (.log _) (.ok ()) false nofun)) rfl
  have run := run.walked (.moves (.respond (.report _) (.ok ()) false nofun)) rfl
  have run := run.walked (.moves (.conclude false (.ok RunState.completed))) rfl
  refine ⟨by simp [mouseUp, BuiltIn.mouse], mouseUp_pressesNothing,
    callsOnly_single (.inr mouseUp_pressesNothing), _, run, ?_,
    ⟨id, List.forall_mem_nil _, List.forall_mem_nil _⟩, rfl, rfl, rfl⟩
  simp [Reliable, IsReliable]

end InputScript.Holding
