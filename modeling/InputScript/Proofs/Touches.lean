/-
Module: InputScript.Proofs.Touches
Purpose: What single actions do to keys and buttons.  A tap leaves held what was held before, however
  it ends and whatever fails on the way; a chord releases in reverse what it has pressed.
Main exports: Target, Touch, touchesOf, grip, Mirrored, IsCombo.mirrored
-/
import InputScript.Action.BuiltIn
import InputScript.Proofs.Exchange
import InputScript.Run.Request

namespace InputScript

namespace Holding

open Device Catalog
open Activity (runs_finished runs_perform runs_bind keeps_bind keeps_attempt bind_eq)

/-! ### Touches -/

/-- What can be held down. -/
inductive Target where
  | key (key : Key)
  | button (button : Button)
  deriving DecidableEq

/-- What can be done to a key or button. -/
inductive Touch where
  | press (target : Target)
  | release (target : Target)
  deriving DecidableEq

/-- What is held after a touch, the latest first. -/
def Touch.apply : Touch → List Target → List Target
  | .press target, held => target :: held
  | .release target, held => held.erase target

/-- The touch that an event asks for. -/
def touch? : Event → Option Touch
  | .press button => some (.press (.button button))
  | .release button => some (.release (.button button))
  | .keyPress key => some (.press (.key key))
  | .keyRelease key => some (.release (.key key))
  | _ => none

/-- The touch that an exchange amounts to.  What fails touches nothing. -/
def touchOf? : Activity.Exchange ActionRequest.Answer → Option Touch
  | ⟨.device event, (answer : Except Fault Unit)⟩ =>
    match answer with
    | .ok () => touch? event
    | .error _ => none
  | _ => none

theorem touch?_of_touchOf? {request : ActionRequest} {answer : request.Answer} {touch : Touch}
    (touched : touchOf? ⟨request, answer⟩ = some touch) :
    ∃ event, request = .device event ∧ touch? event = some touch := by
  cases request with
  | device event =>
      cases answer with
      | ok _ => exact ⟨event, rfl, touched⟩
      | error fault => cases touched
  | _ => cases touched

/-- The touches among exchanges. -/
def touchesOf (exchanges : List (Activity.Exchange ActionRequest.Answer)) : List Touch :=
  exchanges.filterMap touchOf?

/-- Whether an exchange is no release that fails. -/
def IsReliable : Activity.Exchange ActionRequest.Answer → Prop
  | ⟨.device event, (answer : Except Fault Unit)⟩ =>
    ∀ target, touch? event = some (.release target) → answer = .ok ()
  | _ => True

/-! ### The discipline -/

/-- The discipline of holding, with the state of what is held: an action suspends only while nothing is
held, and a strict one releases only what is held. -/
def grip (strict : Bool) : Discipline ActionRequest.Answer (List Target) where
  admits held
    | .device event =>
      ∀ target, touch? event = some (.release target) → strict = true → target ∈ held
    | request => Run.suspends request = true → held = []
  expects _ request answer := IsReliable ⟨request, answer⟩
  after held request answer :=
    match touchOf? ⟨request, answer⟩ with
    | some touch => touch.apply held
    | none => held

section Rules

variable {strict : Bool} {α β : Type} {held : List Target} {target : Target} {event : Event}
  {post : List Target → Except Interruption β → Prop}

/-- An activity leaves held what was held before. -/
structure Neutral (strict : Bool) (activity : ActionActivity α) : Prop where
  keeps : ∀ held, activity.Keeps (grip strict) (fun later _ => later = held) held

/-- An activity that begins with nothing held ends so. -/
structure Gentle (strict : Bool) (activity : ActionActivity α) : Prop where
  keeps : activity.Keeps (grip strict) (fun later _ => later = []) []

variable {activity : ActionActivity α}

theorem Neutral.gentle (neutral : Neutral strict activity) :
    Gentle strict activity :=
  ⟨neutral.keeps []⟩

theorem neutral_finished (result : Except Interruption α) :
    Neutral strict (.finished result : ActionActivity α) :=
  ⟨fun _ => rfl⟩

theorem neutral_ofExcept (result : Except Fault α) :
    Neutral strict (Activity.ofExcept result : ActionActivity α) :=
  neutral_finished _

theorem Neutral.bind_keeps {next : α → ActionActivity β} (neutral : Neutral strict activity)
    (goesOn : ∀ value, (next value).Keeps (grip strict) post held)
    (forgives : ∀ interruption, post held (.error interruption)) :
    (activity.bind next).Keeps (grip strict) post held := by
  refine keeps_bind.mpr ((neutral.keeps held).mono ?_)
  rintro later (interruption | value) rfl
  · exact forgives interruption
  · exact goesOn value

theorem neutral_bind {next : α → ActionActivity β} (first : Neutral strict activity)
    (second : ∀ value, Neutral strict (next value)) :
    Neutral strict (activity.bind next) :=
  ⟨fun held => first.bind_keeps (fun value => (second value).keeps held) fun _ => rfl⟩

/-- A request that neither touches nor suspends. -/
def IsIdle : ActionRequest → Prop
  | .device event => touch? event = none
  | request => Run.suspends request = false

theorem touchOf?_of_isIdle {request : ActionRequest} (idle : IsIdle request)
    (answer : request.Answer) : touchOf? ⟨request, answer⟩ = none := by
  cases request with
  | device event =>
      have none : touch? event = none := idle
      cases answer <;> simp [touchOf?, none]
  | _ => rfl

theorem neutral_of_asks (asks : activity.Asks IsIdle) :
    Neutral strict activity := by
  refine ⟨fun held => ?_⟩
  induction activity with
  | finished result => rfl
  | perform request resume hypothesis =>
      obtain ⟨idle, goesOn⟩ := asks
      refine ⟨?_, fun answer _ => ?_⟩
      · cases request with
        | device event =>
            intro target releases
            have none : touch? event = none := idle
            rw [none] at releases
            cases releases
        | _ => simp_all [grip, IsIdle, Run.suspends]
      · simp only [grip, touchOf?_of_isIdle idle answer]
        exact hypothesis answer (goesOn answer)

/-- After a press the target is held; a press that fails changes nothing. -/
theorem press_bind_keeps (presses : touch? event = some (.press target))
    {next : Unit → ActionActivity β} (goesOn : (next ()).Keeps (grip strict) post (target :: held))
    (forgives : ∀ interruption, post held (.error interruption)) :
    ((Action.device event).bind next).Keeps (grip strict) post held := by
  refine ⟨?_, ?_⟩
  · intro other releases
    rw [presses] at releases
    cases releases
  · rintro (fault | _) -
    · exact forgives (.fault fault)
    · simp only [grip, touchOf?, presses, Touch.apply]
      exact goesOn

/-- A release does not fail, and takes away one hold of the target. -/
theorem release_bind_keeps (releases : touch? event = some (.release target))
    (isHeld : strict = true → target ∈ held) {next : Unit → ActionActivity β}
    (goesOn : (next ()).Keeps (grip strict) post (held.erase target)) :
    ((Action.device event).bind next).Keeps (grip strict) post held := by
  refine ⟨?_, ?_⟩
  · intro other same strictly
    rw [releases] at same
    cases same
    exact isHeld strictly
  · rintro answer reliable
    obtain rfl : answer = .ok () := reliable target releases
    simp only [grip, touchOf?, releases, Touch.apply]
    exact goesOn

/-- A press with a release in any case leaves held what was held before. -/
theorem tap_neutral (target : Target) {press release : Event} {between : ActionActivity α}
    (presses : touch? press = some (.press target))
    (releases : touch? release = some (.release target)) (neutral : Neutral strict between) :
    Neutral strict
      ((Action.device press).bind fun _ => between.ensuring (Action.device release)) := by
  refine ⟨fun held => ?_⟩
  refine press_bind_keeps presses ?_ fun _ => rfl
  refine keeps_bind.mpr (keeps_attempt.mpr ((neutral.keeps (target :: held)).mono ?_))
  rintro later result rfl
  refine release_bind_keeps releases (fun _ => List.mem_cons_self) ?_
  exact List.erase_cons_head target held

end Rules

/-! ### Taps -/

section Taps

variable {strict : Bool} (context : InputContext) (hasSignal : Bool)

theorem pause_asks (factor : Int) : (context.pause hasSignal factor).Asks IsIdle := by
  refine Activity.Asks.bind (Activity.asks_ofExcept _) fun seconds => ?_
  by_cases brief : seconds ≤ 0
  · simp [brief, Activity.Asks]
  · cases hasSignal
    · simp [brief, Action.rest, Activity.Asks, IsIdle, Run.suspends]
    · simp only [brief, if_false, if_true]
      exact ⟨rfl, fun _ => trivial⟩

theorem pause_neutral (factor : Int) : Neutral strict (context.pause hasSignal factor) :=
  neutral_of_asks (pause_asks context hasSignal factor)

theorem click_neutral (button : Value) : Neutral strict (Mouse.click context hasSignal button) := by
  refine neutral_bind (neutral_ofExcept _) fun button => ?_
  simp only [bind_eq, ← Activity.bind_assoc]
  refine neutral_bind ?_ fun _ => neutral_finished _
  exact tap_neutral (.button button) rfl rfl (pause_neutral context hasSignal 1)

theorem tapKey_neutral (key : Key) : Neutral strict (Keyboard.tapKey context hasSignal key) :=
  tap_neutral (.key key) rfl rfl (pause_neutral context hasSignal 1)

theorem tapValue_neutral (key : Value) : Neutral strict (Keyboard.tap context hasSignal key) := by
  refine neutral_bind (neutral_ofExcept _) fun key => ?_
  exact neutral_bind (tapKey_neutral context hasSignal key) fun _ => neutral_finished _

theorem warn_neutral (message : String) : Neutral strict (Action.warn message) :=
  neutral_of_asks ⟨rfl, fun _ => trivial⟩

theorem tapEach_neutral (characters : List Char) :
    Neutral strict (Keyboard.tapEach context hasSignal characters) := by
  have look : Neutral strict Action.failIfStopping := by
    refine neutral_of_asks ⟨rfl, fun answer => ?_⟩
    cases answer <;> trivial
  induction characters with
  | nil => exact neutral_finished _
  | cons c rest hypothesis =>
      have tapped : Neutral strict (do
          Keyboard.tapKey context hasSignal (.text (String.singleton c))
          Keyboard.tapEach context hasSignal rest) :=
        neutral_bind (tapKey_neutral context hasSignal _) fun _ => hypothesis
      cases hasSignal with
      | false => exact tapped
      | true => exact neutral_bind look fun _ => tapped

theorem tapFunctionKey_neutral (text : Option String) :
    Neutral strict (Keyboard.tapFunctionKey context hasSignal text) := by
  unfold Keyboard.tapFunctionKey
  refine neutral_bind (neutral_ofExcept _) ?_
  rintro (_ | _)
  · exact neutral_bind (warn_neutral _) fun _ => neutral_finished _
  · simp only [if_true]
    split
    · exact tapValue_neutral context hasSignal _
    · exact neutral_finished _

theorem lockState_neutral (key : Value) : Neutral strict (Keyboard.lockState context key) := by
  unfold Keyboard.lockState
  split
  · exact neutral_bind (warn_neutral _) fun _ => neutral_finished _
  · refine neutral_bind (neutral_ofExcept _) fun code => ?_
    exact neutral_of_asks ⟨rfl, fun _ => trivial⟩

theorem toggleCase_neutral (state : Value) :
    Neutral strict (Keyboard.toggleCase context hasSignal state) := by
  have either : ∀ isRight : Bool, Neutral strict
      (if isRight then pure .none else Keyboard.tap context hasSignal Keyboard.capsLock) := by
    rintro (_ | _)
    · exact tapValue_neutral context hasSignal _
    · exact neutral_finished _
  exact neutral_bind (lockState_neutral context _) fun _ => either _

/-! ### Chords -/

/-- What is held after presses one after another is what they say they have pressed. -/
theorem pressAll_keeps (missing : List String) (values : List Value) (pressed : List Key) :
    (Keyboard.pressAll missing pressed values).Keeps (grip strict)
      (fun held result => ∃ keys ended, result = .ok (keys, ended) ∧ held = keys.map .key)
      (pressed.map .key) := by
  induction values generalizing pressed with
  | nil => exact ⟨pressed, .ok (), rfl, rfl⟩
  | cons value rest hypothesis =>
      rw [Keyboard.pressAll]
      split
      next fault _ => exact ⟨pressed, .error (.fault fault), rfl, rfl⟩
      next key _ =>
        refine ⟨fun _ releases => (by cases releases), ?_⟩
        rintro (fault | _) -
        · exact ⟨pressed, .error (.fault fault), rfl, rfl⟩
        · exact hypothesis (key :: pressed)

theorem releaseAll_keeps (keys : List Key) :
    (Keyboard.releaseAll keys).Keeps (grip strict)
      (fun held result => held = [] ∧ result = .ok ()) (keys.map .key) := by
  induction keys with
  | nil => exact ⟨rfl, rfl⟩
  | cons key rest hypothesis =>
      refine release_bind_keeps rfl (fun _ => List.mem_cons_self) ?_
      rw [List.erase_cons_head]
      exact hypothesis

theorem chord_gentle (values : List Value) :
    Gentle strict (Keyboard.chord context hasSignal values) := by
  refine ⟨?_⟩
  refine keeps_bind.mpr ((pressAll_keeps _ values []).mono ?_)
  rintro held _ ⟨keys, ended, rfl, rfl⟩
  have released : ∀ ended : Except Interruption Unit,
      ((Keyboard.releaseAll keys).bind fun _ => .finished (ended.map fun _ => .none) :
        ActionActivity Value).Keeps (grip strict) (fun later _ => later = []) (keys.map .key) := by
    intro ended
    refine keeps_bind.mpr ((releaseAll_keeps keys).mono ?_)
    rintro later result ⟨rfl, rfl⟩
    exact rfl
  cases ended with
  | error interruption => exact released (.error interruption)
  | ok _ =>
      refine keeps_bind.mpr (keeps_attempt.mpr
        (((pause_neutral context hasSignal 1).keeps _).mono ?_))
      rintro later result rfl
      exact released result

theorem chordText_gentle (text : Option String) :
    Gentle strict (Keyboard.chordText context hasSignal text) := by
  unfold Keyboard.chordText
  dsimp only
  split
  · exact (neutral_bind (warn_neutral _) fun _ => neutral_finished _).gentle
  · exact chord_gentle context hasSignal _

end Taps

/-! ### The order of a chord -/

section Order

variable {exchanges : List (Activity.Exchange ActionRequest.Answer)}

/-- Touches that press, and then release in reverse what they have pressed. -/
def Mirrored (touches : List Touch) : Prop :=
  ∃ targets : List Target, touches = targets.map .press ++ targets.reverse.map .release

theorem touchesOf_append (first second : List (Activity.Exchange ActionRequest.Answer)) :
    touchesOf (first ++ second) = touchesOf first ++ touchesOf second :=
  List.filterMap_append

theorem touchesOf_of_asks {α : Type} {activity : ActionActivity α} (asks : activity.Asks IsIdle)
    {result : Except Interruption α} (ran : activity.Runs exchanges result) :
    touchesOf exchanges = [] := by
  induction activity generalizing exchanges with
  | finished ended => simp [(runs_finished.mp ran).1, touchesOf]
  | perform request resume hypothesis =>
      obtain ⟨answer, later, rfl, goesOn⟩ := runs_perform.mp ran
      rw [touchesOf, List.filterMap_cons_none (touchOf?_of_isIdle asks.1 answer)]
      exact hypothesis answer (asks.2 answer) goesOn

/-- The presses of a chord, up to the first that fails. -/
theorem pressAll_runs {missing : List String} {values : List Value} {pressed : List Key}
    {result : Except Interruption (List Key × Except Interruption Unit)}
    (ran : (Keyboard.pressAll missing pressed values).Runs exchanges result) :
    ∃ (keys : List Key) (ended : Except Interruption Unit),
      result = .ok (keys.reverse ++ pressed, ended) ∧
      touchesOf exchanges = (keys.map Target.key).map .press := by
  induction values generalizing pressed exchanges with
  | nil =>
      obtain ⟨rfl, rfl⟩ := runs_finished.mp ran
      exact ⟨[], .ok (), rfl, rfl⟩
  | cons value rest hypothesis =>
      rw [Keyboard.pressAll] at ran
      split at ran
      · obtain ⟨rfl, rfl⟩ := runs_finished.mp ran
        exact ⟨[], _, rfl, rfl⟩
      next key _ =>
        obtain ⟨answer, later, rfl, goesOn⟩ := runs_perform.mp ran
        cases answer with
        | error fault =>
            obtain ⟨rfl, rfl⟩ := runs_finished.mp goesOn
            exact ⟨[], _, rfl, rfl⟩
        | ok _ =>
            obtain ⟨keys, ended, rfl, touches⟩ := hypothesis goesOn
            refine ⟨key :: keys, ended, by simp, ?_⟩
            rw [List.map_cons, List.map_cons, ← touches]
            exact List.filterMap_cons_some rfl

theorem releaseAll_runs {keys : List Key} {result : Except Interruption Unit}
    (ran : (Keyboard.releaseAll keys).Runs exchanges result)
    (reliable : ∀ exchange ∈ exchanges, IsReliable exchange) :
    touchesOf exchanges = (keys.map Target.key).map .release := by
  induction keys generalizing exchanges with
  | nil => simp [(runs_finished.mp ran).1, touchesOf]
  | cons key rest hypothesis =>
      obtain ⟨answer, later, rfl, goesOn⟩ := runs_perform.mp ran
      obtain ⟨works, laterReliable⟩ := List.forall_mem_cons.mp reliable
      obtain rfl : answer = .ok () := works (.key key) rfl
      rw [List.map_cons, List.map_cons, ← hypothesis goesOn laterReliable]
      exact List.filterMap_cons_some rfl

variable {result : Except Interruption Value}

/-- The end of a chord. -/
theorem release_runs {keys : List Key} {final : Except Interruption Value}
    (ran : ((Keyboard.releaseAll keys).bind fun _ => .finished final).Runs exchanges result)
    (reliable : ∀ exchange ∈ exchanges, IsReliable exchange) :
    touchesOf exchanges = (keys.map Target.key).map .release := by
  rcases runs_bind.mp ran with ⟨all, none, _, rfl, releasing, isOver⟩ |
    ⟨interruption, _, releasing⟩
  · obtain ⟨rfl, -⟩ := runs_finished.mp isOver
    rw [List.append_nil] at reliable ⊢
    exact releaseAll_runs releasing reliable
  · exact releaseAll_runs releasing reliable

/-- However a chord ends, it has released in reverse what it has pressed. -/
theorem chord_mirrored {context : InputContext} {hasSignal : Bool} {values : List Value}
    (ran : (Keyboard.chord context hasSignal values).Runs exchanges result)
    (reliable : ∀ exchange ∈ exchanges, IsReliable exchange) : Mirrored (touchesOf exchanges) := by
  rcases runs_bind.mp ran with ⟨presses, rest, _, rfl, pressing, goesOn⟩ |
    ⟨interruption, _, pressing⟩
  · obtain ⟨keys, ended, same, pressed⟩ := pressAll_runs pressing
    cases same
    suffices released : touchesOf rest = ((keys.reverse ++ []).map Target.key).map .release by
      refine ⟨keys.map .key, ?_⟩
      rw [touchesOf_append, pressed, released]
      simp
    have restReliable : ∀ exchange ∈ rest, IsReliable exchange :=
      fun exchange member => reliable exchange (List.mem_append_right _ member)
    cases ended with
    | error interruption => exact release_runs goesOn restReliable
    | ok _ =>
        rcases runs_bind.mp goesOn with ⟨pauses, releases, final, rfl, pausing, releasing⟩ |
          ⟨interruption, _, pausing⟩
        · have still : touchesOf pauses = [] :=
            touchesOf_of_asks (pause_asks context hasSignal 1).attempt pausing
          rw [touchesOf_append, still, List.nil_append]
          exact release_runs releasing fun exchange member =>
            restReliable exchange (List.mem_append_right _ member)
        · obtain ⟨_, impossible, _⟩ := Activity.runs_attempt.mp pausing
          cases impossible
  · obtain ⟨_, _, impossible, _⟩ := pressAll_runs pressing
    cases impossible

theorem chordText_mirrored {context : InputContext} {hasSignal : Bool} {text : Option String}
    (ran : (Keyboard.chordText context hasSignal text).Runs exchanges result)
    (reliable : ∀ exchange ∈ exchanges, IsReliable exchange) : Mirrored (touchesOf exchanges) := by
  unfold Keyboard.chordText at ran
  dsimp only at ran
  split at ran
  · obtain ⟨_, _, rfl, isOver⟩ := runs_perform.mp ran
    obtain ⟨rfl, -⟩ := runs_finished.mp isOver
    exact ⟨[], rfl⟩
  · exact chord_mirrored ran reliable

end Order

/-! ### The catalog -/

/-- The names of the actions on mouse and keyboard that tap. -/
def tapNames : List String :=
  ["MouseClick", "MouseClickLeft", "MouseClickRight", "MouseClickMiddle", "KeyboardPress",
    "KeyboardCombo", "KeyboardPressCommonKey", "KeyboardPressF1_F12", "Copy", "Paste", "SelectAll",
    "Save", "ToggleCase"]

/-- Whether an operation is one of the input actions that tap: those of these names, and the one that
is called like a key. -/
def IsTap (overload : Overload) : Prop :=
  ∃ context,
    (overload ∈ BuiltIn.mouse context ++ BuiltIn.keyboard context ∧ overload.name ∈ tapNames) ∨
    ∃ entry ∈ keys, overload ∈ BuiltIn.keyActions context entry ∧
      overload.name = s!"Key{entry.name}"

/-- Whether an operation is the input action that plays a chord. -/
def IsCombo (overload : Overload) : Prop :=
  ∃ context, overload ∈ BuiltIn.keyboard context ∧ overload.name = "KeyboardCombo"

section Catalog

variable {strict : Bool} {context : InputContext}

@[simp] theorem name_action (declaration : Declaration) (defaults : List (Option Value))
    (documentation : String) (body : Action.Body) :
    (BuiltIn.action declaration defaults documentation body).name = declaration.name := rfl

@[simp] theorem body_action (declaration : Declaration) (defaults : List (Option Value))
    (documentation : String) (body : Action.Body) :
    (BuiltIn.action declaration defaults documentation body).implementation.body = body := rfl

theorem mouse_gentle : ∀ overload ∈ BuiltIn.mouse context, overload.name ∈ tapNames →
    ∀ call, Gentle strict (overload.implementation.body call) := by
  have clicks (hasSignal : Bool) (button : Value) :
      Gentle strict (Mouse.click context hasSignal button) :=
    (click_neutral context hasSignal button).gentle
  simp [BuiltIn.mouse, BuiltIn.onButton, BuiltIn.nullary, BuiltIn.nullaryCancellable,
    BuiltIn.onFirst, tapNames, clicks]

theorem keyboard_gentle : ∀ overload ∈ BuiltIn.keyboard context, overload.name ∈ tapNames →
    ∀ call, Gentle strict (overload.implementation.body call) := by
  have taps (hasSignal : Bool) (key : Value) : Gentle strict (Keyboard.tap context hasSignal key) :=
    (tapValue_neutral context hasSignal key).gentle
  have characters (hasSignal : Bool) (text : Option String) :
      Gentle strict (Keyboard.tapCharacters context hasSignal text) :=
    (tapEach_neutral context hasSignal _).gentle
  have functionKeys (hasSignal : Bool) (text : Option String) :
      Gentle strict (Keyboard.tapFunctionKey context hasSignal text) :=
    (tapFunctionKey_neutral context hasSignal text).gentle
  have toggles (hasSignal : Bool) (state : Value) :
      Gentle strict (Keyboard.toggleCase context hasSignal state) :=
    (toggleCase_neutral context hasSignal state).gentle
  simp [BuiltIn.keyboard, BuiltIn.onKey, BuiltIn.onTextCancellable, BuiltIn.onOptionalText,
    BuiltIn.controlChord, BuiltIn.nullary, BuiltIn.nullaryCancellable, BuiltIn.onText,
    BuiltIn.onFirst, tapNames, taps, chord_gentle, chordText_gentle, characters, functionKeys,
    toggles]

/-- Whatever a tap is called with, and however it ends, nothing stays held. -/
theorem IsTap.gentle {overload : Overload} (tap : IsTap overload) (call : Call) :
    Gentle strict (overload.implementation.body call) := by
  obtain ⟨context, ⟨member, named⟩ | ⟨entry, -, member, named⟩⟩ := tap
  · rcases List.mem_append.mp member with mouse | keyboard
    · exact mouse_gentle overload mouse named call
    · exact keyboard_gentle overload keyboard named call
  · -- The other two actions of a key have longer names.
    have length_eq := congrArg String.length named
    simp only [BuiltIn.keyActions, List.mem_cons, List.not_mem_nil, or_false] at member
    rcases member with rfl | rfl | rfl
    · exact (tapValue_neutral context call.hasSignal _).gentle
    · simp [BuiltIn.nullary] at length_eq
      exact absurd length_eq (by decide)
    · simp [BuiltIn.nullary] at length_eq
      exact absurd length_eq (by decide)

/-- However a chord that is called ends, it has released in reverse what it has pressed. -/
theorem IsCombo.mirrored {overload : Overload} (combo : IsCombo overload) {call : Call}
    {exchanges : List (Activity.Exchange ActionRequest.Answer)} {result : Except Interruption Value}
    (ran : (overload.implementation.body call).Runs exchanges result)
    (reliable : ∀ exchange ∈ exchanges, IsReliable exchange) : Mirrored (touchesOf exchanges) := by
  obtain ⟨context, member, named⟩ := combo
  have bodies : ∀ overload ∈ BuiltIn.keyboard context, overload.name = "KeyboardCombo" →
      (∀ call, overload.implementation.body call =
        Keyboard.chord context call.hasSignal call.arguments) ∨
      (∀ call, overload.implementation.body call = Keyboard.chordText context call.hasSignal
        (BuiltIn.textOf? (call.arguments.head?.getD .none))) := by
    simp [BuiltIn.keyboard, BuiltIn.onKey, BuiltIn.onTextCancellable, BuiltIn.onOptionalText,
      BuiltIn.controlChord, BuiltIn.nullary, BuiltIn.nullaryCancellable, BuiltIn.onText,
      BuiltIn.onFirst]
  rcases bodies overload member named with byKeys | byText
  · rw [byKeys call] at ran
    exact chord_mirrored ran reliable
  · rw [byText call] at ran
    exact chordText_mirrored ran reliable

end Catalog

/-! ### Other actions -/

/-- Whether an operation presses nothing, whatever it is called with and however it is answered. -/
def PressesNothing (overload : Overload) : Prop :=
  ∀ call, (overload.implementation.body call).Asks fun
    | .device event => ∀ target, touch? event ≠ some (.press target)
    | _ => True

/-- Whether an operation neither presses nor releases anything. -/
def TouchesNothing (overload : Overload) : Prop :=
  ∀ call, (overload.implementation.body call).Asks fun
    | .device event => touch? event = none
    | _ => True

/-- An activity that presses nothing ends with nothing held; a strict one releases nothing either. -/
theorem gentle_of_asks {strict : Bool} {α : Type} {allowed : ActionRequest → Prop}
    (spares : ∀ event target, allowed (.device event) → touch? event ≠ some (.press target) ∧
      (strict = true → touch? event ≠ some (.release target)))
    {activity : ActionActivity α} (asks : activity.Asks allowed) : Gentle strict activity := by
  refine ⟨?_⟩
  induction activity with
  | finished result => rfl
  | perform request resume hypothesis =>
      obtain ⟨isAllowed, goesOn⟩ := asks
      have empty (answer : request.Answer) : (grip strict).after [] request answer = [] := by
        cases touched : touchOf? ⟨request, answer⟩ with
        | none => simp [grip, touched]
        | some touch =>
            obtain ⟨event, rfl, asked⟩ := touch?_of_touchOf? touched
            cases touch with
            | press target => exact absurd asked (spares event target isAllowed).1
            | release target => simp [grip, touched, Touch.apply]
      refine ⟨?_, fun answer _ => ?_⟩
      · cases request with
        | device event =>
            intro target releases strictly
            exact absurd releases ((spares event target isAllowed).2 strictly)
        | _ => exact fun _ => rfl
      · rw [empty]
        exact hypothesis answer (goesOn answer)

theorem PressesNothing.gentle {overload : Overload} (presses : PressesNothing overload)
    (call : Call) : Gentle false (overload.implementation.body call) := by
  apply gentle_of_asks _ (presses call)
  intro event target spared
  exact ⟨spared target, nofun⟩

theorem TouchesNothing.gentle {strict : Bool} {overload : Overload}
    (touches : TouchesNothing overload) (call : Call) :
    Gentle strict (overload.implementation.body call) := by
  apply gentle_of_asks _ (touches call)
  intro event target spared
  simp [show touch? event = none from spared]

end Holding

end InputScript
