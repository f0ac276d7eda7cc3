/-
Module: InputScript.Proofs.Unison
Purpose: Chords in both notations.  A step with the names of keys as separate tokens and the step with
  the one token that joins them with plus signs have the same dialogues and the same ends, apart from the
  arguments that their calls are recorded with; and they send the same events.
Main exports: SameDialogues, withoutArguments, chord_notations_agree
-/
import InputScript.Proofs.Chords

namespace InputScript.Strokes

open Catalog Device Run Script Text
open Activity (runs_finished runs_perform runs_bind runs_attempt asks_ofExcept bind_eq)

/-! ### Dialogues without arguments -/

/-- A request of a run with its answer. -/
abbrev StepExchange := Activity.Exchange RunRequest.Answer

/-- An exchange without the arguments that a call is recorded with. -/
def bare : StepExchange → StepExchange
  | ⟨.call label _, ordinal⟩ => ⟨.call label [], ordinal⟩
  | exchange => exchange

section Bare

variable {α β : Type}

/-- Two activities have the same dialogues with the same ends, apart from the arguments that calls are
recorded with. -/
def SameDialogues (first second : RunActivity α) : Prop :=
  ∀ dialogue ended,
    (∃ exchanges, first.Runs exchanges ended ∧ exchanges.map bare = dialogue) ↔
      ∃ exchanges, second.Runs exchanges ended ∧ exchanges.map bare = dialogue

/-- The activity whose calls are recorded without arguments. -/
def withoutArguments : RunActivity α → RunActivity α
  | .finished result => .finished result
  | .perform (.call label _) resume =>
    .perform (.call label []) fun ordinal => withoutArguments (resume ordinal)
  | .perform request resume => .perform request fun answer => withoutArguments (resume answer)

theorem withoutArguments_bind (activity : RunActivity α) (next : α → RunActivity β) :
    withoutArguments (activity.bind next) =
      (withoutArguments activity).bind fun value => withoutArguments (next value) := by
  induction activity with
  | finished result => cases result <;> rfl
  | perform request resume hypothesis =>
      cases request
      all_goals
        simp only [Activity.bind_perform, withoutArguments]
        congr 1
        funext answer
        exact hypothesis answer

theorem withoutArguments_attempt (activity : RunActivity α) :
    withoutArguments activity.attempt = (withoutArguments activity).attempt := by
  induction activity with
  | finished result => rfl
  | perform request resume hypothesis =>
      cases request
      all_goals
        simp only [Activity.attempt, withoutArguments]
        congr 1
        funext answer
        exact hypothesis answer

theorem runs_withoutArguments {activity : RunActivity α} {dialogue : List StepExchange}
    {ended : Except Interruption α} :
    (withoutArguments activity).Runs dialogue ended ↔
      ∃ exchanges, activity.Runs exchanges ended ∧ exchanges.map bare = dialogue := by
  induction activity generalizing dialogue with
  | finished result =>
      rw [withoutArguments, runs_finished]
      constructor
      · rintro ⟨rfl, rfl⟩
        exact ⟨[], runs_finished.mpr ⟨rfl, rfl⟩, rfl⟩
      · rintro ⟨exchanges, ran, rfl⟩
        obtain ⟨rfl, rfl⟩ := runs_finished.mp ran
        exact ⟨rfl, rfl⟩
  | perform request resume hypothesis =>
      constructor
      · intro ran
        cases request
        all_goals
          obtain ⟨answer, later, rfl, goesOn⟩ := runs_perform.mp ran
          obtain ⟨exchanges, continued, rfl⟩ := (hypothesis answer).mp goesOn
          exact ⟨_, .exchange continued, rfl⟩
      · rintro ⟨exchanges, ran, rfl⟩
        obtain ⟨answer, later, rfl, goesOn⟩ := runs_perform.mp ran
        have continued := (hypothesis answer).mpr ⟨later, goesOn, rfl⟩
        cases request
        all_goals exact .exchange continued

theorem sameDialogues_of_withoutArguments {first second : RunActivity α}
    (same : withoutArguments first = withoutArguments second) : SameDialogues first second := by
  intro dialogue ended
  rw [← runs_withoutArguments, ← runs_withoutArguments, same]

end Bare

/-! ### A chord as a step -/

section Playing

variable (context : InputContext)

/-- The call of a chord with the arguments that it is recorded with. -/
def playing (members : List Member) (arguments : List Value) : RunActivity Value := do
  failIfStopping
  failIfStopping
  let _ ← call "KeyboardCombo" arguments
  handedOver (Keyboard.chord context true (members.map .member))

/-- The step of a chord with its report and its outcome. -/
def played (members : List Member) (arguments : List Value) : RunActivity Outcome := do
  match ← (reported "KeyboardCombo" (playing context members arguments)).attempt with
  | .ok value => return .success value
  | .error (.fault fault) => return fault.outcome
  | .error .revoked => Activity.interrupt .revoked

theorem withoutArguments_played (members : List Member) (arguments : List Value) :
    withoutArguments (played context members arguments) =
      withoutArguments (played context members []) := by
  have recorded : withoutArguments (call "KeyboardCombo" arguments) =
      withoutArguments (call "KeyboardCombo" []) := rfl
  simp only [played, playing, reported, bind_eq, withoutArguments_bind,
    withoutArguments_attempt, recorded]

variable {names : List String} {members : List Member}

theorem invoke_spread (found : List.Forall₂ Finds names members) :
    invoke (BuiltIn.registry context) (spreadStep names) =
      played context members (members.map .member) := by
  have plain : ∀ name ∈ names, (BuiltIn.registry context).isZeroArity name = false := by
    intro name member
    obtain ⟨entry, isName⟩ := exists_names_of_mem found name member
    exact isZeroArity_eq_false context (isNullaryName_of_names isName)
  have performed : perform (BuiltIn.registry context) "KeyboardCombo"
      (tokensOf (BuiltIn.registry context) (names.map .token)) =
        playing context members (members.map .member) := by
    rw [perform, tokensOf_tokens plain]
    simp only [bind_eq, Activity.bind_ok, resolve_spread context found]
    rfl
  simp only [invoke, spreadStep, performed]
  rfl

theorem callResolved_written (text : String) :
    callResolved ⟨writtenChord context, [.text text]⟩ =
      (call "KeyboardCombo" [.text text]).bind fun _ =>
        handedOver (Keyboard.chordText context true (some text)) := by
  have label : (writtenChord context).implementation.label = "KeyboardCombo" := rfl
  have worker : (writtenChord context).implementation.isAsync = false := rfl
  have signal : (writtenChord context).declaration.cancellable = true := rfl
  have body (call : Call) : (writtenChord context).implementation.body call =
      Keyboard.chordText context call.hasSignal (BuiltIn.textOf? (call.arguments.headD .none)) := rfl
  simp only [callResolved, label, worker, signal, body]
  rfl

theorem perform_written {first second : String} {rest : List String}
    (found : List.Forall₂ Finds (first :: second :: rest) members) {joined : String}
    (joinedEq : "+".intercalate (first :: second :: rest) = joined) :
    perform (BuiltIn.registry context) "KeyboardCombo"
        (tokensOf (BuiltIn.registry context) [.token joined]) =
      playing context members [.text joined] := by
  have plus : '+' ∈ joined.toList := by
    rw [← joinedEq, toList_joined, List.map_cons, List.map_cons, List.intercalate_cons_cons]
    exact List.mem_append_left _ (List.mem_append_right _ (List.mem_singleton_self _))
  have plain := isZeroArity_eq_false context (isNullaryName_of_plus plus)
  have tokens := tokensOf_tokens (List.forall_mem_singleton.mpr plain)
  have resolved := resolve_written context (coerce_joined (exists_names_of_mem found))
  have chord := chordText_joined context true found (List.cons_ne_nil _ _)
  rw [joinedEq] at resolved chord
  rw [List.map_singleton] at tokens
  rw [perform, tokens]
  change (failIfStopping.bind fun _ => failIfStopping.bind fun _ =>
    (Activity.ofExcept ((BuiltIn.registry context).resolve "KeyboardCombo" [joined])).bind
      callResolved) = _
  rw [resolved]
  change (failIfStopping.bind fun _ => failIfStopping.bind fun _ =>
    callResolved ⟨writtenChord context, [.text joined]⟩) = _
  rw [callResolved_written, chord]
  rfl

theorem invoke_written (found : List.Forall₂ Finds names members) (nonempty : names ≠ []) :
    ∃ arguments, invoke (BuiltIn.registry context) (writtenStep names) =
      played context members arguments := by
  cases names with
  | nil => exact absurd rfl nonempty
  | cons first others =>
      cases others with
      | nil =>
          have same : writtenStep [first] = spreadStep [first] := rfl
          rw [same]
          exact ⟨members.map .member, invoke_spread context found⟩
      | cons second rest =>
          have performed := perform_written context found rfl
          refine ⟨[.text ("+".intercalate (first :: second :: rest))], ?_⟩
          simp only [invoke, writtenStep, performed]
          rfl

end Playing

/-! ### The events of a step -/

/-- The exchange of the action that is called. -/
def action? : StepExchange → Option ActionExchange
  | ⟨.action request, answer⟩ => some ⟨request, answer⟩
  | _ => none

/-- The exchanges of actions in the course of a step. -/
def actionsOf (exchanges : List StepExchange) : List ActionExchange :=
  exchanges.filterMap action?

/-- The events that a step sends to the devices. -/
def sentIn (exchanges : List StepExchange) : List Event :=
  eventsOf (actionsOf exchanges)

/-- The signal is found set. -/
def FindsStop : StepExchange → Prop
  | ⟨.action .isStopping, (answer : Bool)⟩ => answer = true
  | _ => False

/-- Requests that are no events. -/
def IsQuiet : RunRequest → Prop
  | .action (.device _) => False
  | _ => True

section Events

variable {α : Type} {exchanges : List StepExchange}

theorem sentIn_append (first second : List StepExchange) :
    sentIn (first ++ second) = sentIn first ++ sentIn second := by
  rw [sentIn, actionsOf, List.filterMap_append, eventsOf, List.filterMap_append]
  rfl

theorem sentIn_of_isQuiet (quiet : ∀ exchange ∈ exchanges, IsQuiet exchange.request) :
    sentIn exchanges = [] := by
  induction exchanges with
  | nil => rfl
  | cons exchange rest hypothesis =>
      rw [List.forall_mem_cons] at quiet
      have alone : sentIn [exchange] = [] := by
        obtain ⟨request, answer⟩ := exchange
        cases request with
        | action request =>
            cases request with
            | device event => exact quiet.1.elim
            | _ => rfl
        | _ => rfl
      rw [← List.singleton_append, sentIn_append, alone, hypothesis quiet.2]
      rfl

variable {ended : Except Interruption α}

/-- An action that does not suspend is carried out to its end before it is taken over. -/
theorem handedOver_runs {activity : ActionActivity α}
    (steady : activity.Asks fun request => suspends request = false)
    (ran : (handedOver activity).Runs exchanges ended) :
    ∃ result, activity.Runs (actionsOf exchanges) result := by
  induction activity generalizing exchanges with
  | finished result =>
      refine ⟨result, runs_finished.mpr ⟨?_, rfl⟩⟩
      obtain ⟨answer, later, rfl, goesOn⟩ := runs_perform.mp ran
      cases answer with
      | ok =>
          obtain ⟨rfl, -⟩ := runs_finished.mp goesOn
          rfl
      | error interruption =>
          obtain ⟨rfl, -⟩ := runs_finished.mp goesOn
          rfl
  | perform request resume hypothesis =>
      obtain ⟨stays, later⟩ := steady
      rw [handedOver, stays, if_neg Bool.false_ne_true] at ran
      obtain ⟨answer, rest, rfl, goesOn⟩ := runs_perform.mp ran
      obtain ⟨result, continued⟩ := hypothesis answer (later answer) goesOn
      exact ⟨result, .exchange continued⟩

/-- A look at the signal ends a step or lets it go on. -/
theorem failIfStopping_runs {next : Unit → RunActivity α}
    (ran : (failIfStopping.bind next).Runs exchanges ended) :
    sentIn exchanges = [] ∧ (∃ exchange ∈ exchanges, FindsStop exchange) ∨
      ∃ look later, exchanges = look :: later ∧ sentIn [look] = [] ∧ (next ()).Runs later ended := by
  obtain ⟨answer, later, rfl, goesOn⟩ := runs_perform.mp ran
  cases answer with
  | false => exact .inr ⟨_, later, rfl, rfl, goesOn⟩
  | true =>
      obtain ⟨rfl, -⟩ := runs_finished.mp goesOn
      exact .inl ⟨rfl, _, List.mem_singleton_self _, rfl⟩

end Events

section Chord

variable (context : InputContext) (hasSignal : Bool)

theorem pause_steady (factor : Int) :
    (context.pause hasSignal factor).Asks fun request => suspends request = false := by
  refine (asks_ofExcept _).bind fun seconds => ?_
  split
  · trivial
  · split
    · exact ⟨rfl, fun _ => trivial⟩
    · exact ⟨rfl, fun _ => trivial⟩

theorem device_steady (event : Event) :
    (Action.device event).Asks fun request => suspends request = false :=
  ⟨rfl, fun _ => trivial⟩

theorem pressAll_steady (missing : List String) (values : List Value) (pressed : List Key) :
    (Keyboard.pressAll missing pressed values).Asks fun request => suspends request = false := by
  induction values generalizing pressed with
  | nil => trivial
  | cons value rest hypothesis =>
      rw [Keyboard.pressAll]
      split
      · trivial
      · refine (device_steady _).attempt.bind fun result => ?_
        split
        · exact hypothesis _
        · trivial

theorem releaseAll_steady (keys : List Key) :
    (Keyboard.releaseAll keys).Asks fun request => suspends request = false := by
  induction keys with
  | nil => trivial
  | cons key rest hypothesis => exact (device_steady _).bind fun _ => hypothesis

theorem chord_steady (values : List Value) :
    (Keyboard.chord context hasSignal values).Asks fun request => suspends request = false := by
  refine (pressAll_steady _ values []).bind fun pressing => ?_
  obtain ⟨pressed, result⟩ := pressing
  cases result with
  | ok =>
      refine (pause_steady context hasSignal 1).attempt.bind fun ended => ?_
      exact (releaseAll_steady pressed).bind fun _ => trivial
  | error interruption => exact (releaseAll_steady pressed).bind fun _ => trivial

end Chord

section Sending

variable (context : InputContext) {members : List Member} {keys : List Key}
  {exchanges : List StepExchange} {ended : Except Interruption Value}

/-- What the call of a chord sends to devices that take every event: the chord, or nothing if the signal
is found set before. -/
theorem playing_sends
    (areKeys : List.Forall₂ (fun value key => toKey context.platform.missingKeys value = .ok key)
      (members.map .member) keys) {arguments : List Value}
    (ran : (playing context members arguments).Runs exchanges ended)
    (taken : ∀ exchange ∈ actionsOf exchanges, IsTaken exchange) :
    sentIn exchanges = chordEvents keys ∨
      sentIn exchanges = [] ∧ ∃ exchange ∈ exchanges, FindsStop exchange := by
  rcases failIfStopping_runs ran with stopped | ⟨first, later, rfl, firstQuiet, goesOn⟩
  · exact .inr stopped
  rcases failIfStopping_runs goesOn with ⟨nothing, found, inside, stops⟩ |
    ⟨second, called, rfl, secondQuiet, calls⟩
  · refine .inr ⟨?_, found, List.mem_cons_of_mem _ inside, stops⟩
    rw [← List.singleton_append, sentIn_append, firstQuiet, nothing]
    rfl
  · obtain ⟨ordinal, played, rfl, plays⟩ := runs_perform.mp calls
    obtain ⟨result, chordRan⟩ := handedOver_runs (chord_steady context true _) plays
    refine .inl ?_
    have sent := ((chord_does context true areKeys).always _ _ chordRan ?_).1
    · rw [← List.singleton_append, sentIn_append, firstQuiet, ← List.singleton_append, sentIn_append,
        secondQuiet]
      exact sent
    · intro exchange inside
      obtain ⟨original, member, same⟩ := List.mem_filterMap.mp inside
      refine taken exchange (List.mem_filterMap.mpr ⟨original, ?_, same⟩)
      exact List.mem_cons_of_mem _ (List.mem_cons_of_mem _ (List.mem_cons_of_mem _ member))

theorem conclude_isQuiet (name : String) (outcome : Outcome) :
    (conclude name outcome).Asks IsQuiet := by
  have looks : isStopping.Asks IsQuiet := ⟨trivial, fun _ => trivial⟩
  refine looks.bind fun signalSet => ?_
  refine (asks_ofExcept _).bind fun line => ?_
  have logs : (log line.level line.message).Asks IsQuiet := ⟨trivial, fun _ => trivial⟩
  exact logs.bind fun _ => ⟨trivial, fun _ => trivial⟩

/-- The report of a step sends nothing. -/
theorem reported_runs {name : String} {step : RunActivity Value}
    (ran : (reported name step).Runs exchanges ended) :
    ∃ own report result, exchanges = own ++ report ∧ step.Runs own result ∧ sentIn report = [] := by
  rcases runs_bind.mp ran with ⟨own, report, result, rfl, tried, concludes⟩ |
    ⟨interruption, -, tried⟩
  · obtain ⟨_, same, stepRan⟩ := runs_attempt.mp tried
    cases same
    have quiet : ((conclude name (outcomeOf result)).bind fun _ => .finished result).Asks IsQuiet :=
      (conclude_isQuiet name _).bind fun _ => trivial
    exact ⟨own, report, result, rfl, stepRan, sentIn_of_isQuiet (quiet.runs concludes)⟩
  · obtain ⟨result, impossible, -⟩ := runs_attempt.mp tried
    cases impossible

theorem played_sends
    (areKeys : List.Forall₂ (fun value key => toKey context.platform.missingKeys value = .ok key)
      (members.map .member) keys)
    {arguments : List Value} {ended : Except Interruption Outcome}
    (ran : (played context members arguments).Runs exchanges ended)
    (taken : ∀ exchange ∈ actionsOf exchanges, IsTaken exchange) :
    sentIn exchanges = chordEvents keys ∨
      sentIn exchanges = [] ∧ ∃ exchange ∈ exchanges, FindsStop exchange := by
  have whole : ∃ result, (reported "KeyboardCombo" (playing context members arguments)).Runs exchanges
      result := by
    rcases runs_bind.mp ran with ⟨first, second, result, rfl, tried, ends⟩ |
      ⟨interruption, -, tried⟩
    · obtain ⟨_, same, reportedRan⟩ := runs_attempt.mp tried
      cases same
      have nothing : second = [] := by
        split at ends
        · exact (runs_finished.mp ends).1
        · exact (runs_finished.mp ends).1
        · exact (runs_finished.mp ends).1
      rw [nothing, List.append_nil]
      exact ⟨result, reportedRan⟩
    · obtain ⟨result, impossible, -⟩ := runs_attempt.mp tried
      cases impossible
  obtain ⟨result, reportedRan⟩ := whole
  obtain ⟨own, report, inner, rfl, playingRan, reportQuiet⟩ := reported_runs reportedRan
  rw [actionsOf, List.filterMap_append, List.forall_mem_append] at taken
  rw [sentIn_append, reportQuiet, List.append_nil]
  rcases playing_sends context areKeys playingRan taken.1 with sent | ⟨nothing, found, inside, stops⟩
  · exact .inl sent
  · exact .inr ⟨nothing, found, List.mem_append_left _ inside, stops⟩

end Sending

theorem exists_calm_answer (request : RunRequest) :
    ∃ answer : request.Answer, (∀ exchange ∈ actionsOf [⟨request, answer⟩], IsTaken exchange) ∧
      ¬FindsStop ⟨request, answer⟩ := by
  cases request with
  | action request =>
      obtain ⟨answer, taken⟩ := exists_taken request
      cases request with
      | isStopping => exact ⟨false, List.forall_mem_singleton.mpr trivial, Bool.false_ne_true⟩
      | _ => exact ⟨answer, List.forall_mem_singleton.mpr taken, id⟩
  | log line => exact ⟨.ok (), List.forall_mem_nil _, id⟩
  | report event => exact ⟨.ok (), List.forall_mem_nil _, id⟩
  | call label arguments => exact ⟨(1 : Nat), List.forall_mem_nil _, id⟩
  | handover => exact ⟨.ok (), List.forall_mem_nil _, id⟩
  | spawn index block => exact ⟨(), List.forall_mem_nil _, id⟩
  | join tolerant => exact ⟨.ok (), List.forall_mem_nil _, id⟩
  | revokeLoops => exact ⟨(), List.forall_mem_nil _, id⟩

/-- Every activity of a run can come to an end on devices that take every event, with the signal never
set. -/
theorem exists_calm_run {α : Type} (activity : RunActivity α) :
    ∃ exchanges ended, activity.Runs exchanges ended ∧
      (∀ exchange ∈ actionsOf exchanges, IsTaken exchange) ∧
      ∀ exchange ∈ exchanges, ¬FindsStop exchange := by
  induction activity with
  | finished result =>
      exact ⟨[], result, .rest _, List.forall_mem_nil _, List.forall_mem_nil _⟩
  | perform request resume hypothesis =>
      obtain ⟨answer, taken, goesOn⟩ := exists_calm_answer request
      obtain ⟨exchanges, ended, ran, takenLater, goesOnLater⟩ := hypothesis answer
      refine ⟨⟨request, answer⟩ :: exchanges, ended, .exchange ran, ?_,
        List.forall_mem_cons.mpr ⟨goesOn, goesOnLater⟩⟩
      rw [← List.singleton_append, actionsOf, List.filterMap_append, List.forall_mem_append]
      exact ⟨taken, takenLater⟩

/-- The step of a chord sends the chord, or nothing if the signal is found set before the call, and it can
send the chord. -/
theorem played_settles (context : InputContext) {members : List Member} {keys : List Key}
    (areKeys : List.Forall₂ (fun value key => toKey context.platform.missingKeys value = .ok key)
      (members.map .member) keys) (arguments : List Value) :
    (∀ exchanges ended, (played context members arguments).Runs exchanges ended →
      (∀ exchange ∈ actionsOf exchanges, IsTaken exchange) →
        sentIn exchanges = chordEvents keys ∨
          sentIn exchanges = [] ∧ ∃ exchange ∈ exchanges, FindsStop exchange) ∧
    ∃ exchanges ended, (played context members arguments).Runs exchanges ended ∧
      sentIn exchanges = chordEvents keys := by
  refine ⟨fun exchanges ended => played_sends context areKeys, ?_⟩
  obtain ⟨exchanges, ended, ran, taken, goesOn⟩ := exists_calm_run (played context members arguments)
  refine ⟨exchanges, ended, ran, ?_⟩
  rcases played_sends context areKeys ran taken with sent | ⟨-, found, inside, stops⟩
  · exact sent
  · exact absurd stops (goesOn found inside)

/-! ### Both notations -/

section Agreement

variable {names : List String} {entries : List KeyEntry}

/-- What is pressed for keys. -/
def keysOf (context : InputContext) (entries : List KeyEntry) : List Key :=
  entries.map fun entry => keyOfCode context.platform.missingKeys entry.code

/-- The names of keys find members that stand for them. -/
theorem exists_members (named : List.Forall₂ Names names entries) :
    ∃ members, List.Forall₂ Finds names members ∧ List.Forall₂ StandsFor members entries := by
  induction named with
  | nil => exact ⟨[], .nil, .nil⟩
  | cons isName _ hypothesis =>
      obtain ⟨member, stands, found⟩ := isName.exists_member
      obtain ⟨members, finds, standing⟩ := hypothesis
      exact ⟨member :: members, .cons ⟨⟨_, isName⟩, found⟩ finds, .cons stands standing⟩

theorem toKey_members (context : InputContext) {members : List Member}
    (standing : List.Forall₂ StandsFor members entries) :
    List.Forall₂ (fun value key => toKey context.platform.missingKeys value = .ok key)
      (members.map .member) (keysOf context entries) := by
  rw [keysOf, List.forall₂_map_left_iff, List.forall₂_map_right_iff]
  exact standing.imp fun member entry stands => stands.toKey_eq _

end Agreement

/-- A chord is the same in both notations: with the names of its keys in any letter case as separate
tokens, and joined with plus signs.  The two steps have the same dialogues and ends, whatever the devices
and the signal do; on devices that take every event each of them sends the presses in order and the
releases in reverse, unless the signal is found set before the call.  And a text whose parts all name keys
is that chord, while any other text is refused with one warning and touches no key. -/
theorem chord_notations_agree (context : InputContext) :
    (∀ names entries, names ≠ [] → List.Forall₂ Names names entries →
      SameDialogues (invoke (BuiltIn.registry context) (spreadStep names))
        (invoke (BuiltIn.registry context) (writtenStep names)) ∧
      ∀ step ∈ [spreadStep names, writtenStep names],
        (∀ exchanges ended, (invoke (BuiltIn.registry context) step).Runs exchanges ended →
          (∀ exchange ∈ actionsOf exchanges, IsTaken exchange) →
            sentIn exchanges = chordEvents (keysOf context entries) ∨
              sentIn exchanges = [] ∧ ∃ exchange ∈ exchanges, FindsStop exchange) ∧
        ∃ exchanges ended, (invoke (BuiltIn.registry context) step).Runs exchanges ended ∧
          sentIn exchanges = chordEvents (keysOf context entries)) ∧
    ∀ hasSignal text,
      let chord := Keyboard.chordText context hasSignal text
      let parts := chordParts (text.getD "")
      (∀ entries, entries ≠ [] →
        List.Forall₂ (fun part entry => Names (String.ofList (trim part)) entry) parts entries →
          Does chord (chordEvents (keysOf context entries)) []
            ((pauseEnd context 1).map fun _ => .none)) ∧
      ((parts = [] ∨ ∃ part ∈ parts, ∀ entry, ¬Names (String.ofList (trim part)) entry) →
        Does chord [] [chordRefusal text] (.ok .none)) := by
  refine ⟨fun names entries nonempty named => ?_, fun hasSignal text => ⟨?_, ?_⟩⟩
  · obtain ⟨members, finds, standing⟩ := exists_members named
    have settles := played_settles context (toKey_members context standing)
    have spread := invoke_spread context finds
    obtain ⟨arguments, written⟩ := invoke_written context finds nonempty
    refine ⟨?_, List.forall_mem_cons.mpr ⟨?_, List.forall_mem_singleton.mpr ?_⟩⟩
    · apply sameDialogues_of_withoutArguments
      rw [spread, written, withoutArguments_played, withoutArguments_played context members arguments]
    · rw [spread]
      exact settles _
    · rw [written]
      exact settles arguments
  · intro entries nonempty named
    obtain ⟨members, finds, standing⟩ := exists_members (List.forall₂_map_left_iff.mpr named)
    have someMember : members ≠ [] := by
      rintro rfl
      cases standing
      exact nonempty rfl
    have found := (List.forall₂_map_left_iff.mp finds).imp fun part member finds => finds.2
    rw [chordText_eq_chord context hasSignal someMember found]
    exact chord_does context hasSignal (toKey_members context standing)
  · intro incomplete
    apply chordText_refused
    rcases incomplete with nothing | ⟨part, inside, nameless⟩
    · exact .inl nothing
    · exact .inr ⟨part, inside, namedFolded?_eq_none nameless⟩

/-- The keys of a chord with the control key. -/
def controlKeys : List KeyEntry :=
  [⟨"LeftCtrl", 0xA2, .special "ctrl_l"⟩, ⟨"S", 0x53, .character "s"⟩]

/-- The names `leftCTRL` and `s` agree in both notations, `LeftCtrl + + S` is the same chord, and
`LeftCtrl+Any` is none. -/
theorem chord_notations_agree_control :
    (SameDialogues (invoke (BuiltIn.registry {}) (spreadStep ["leftCTRL", "s"]))
        (invoke (BuiltIn.registry {}) (writtenStep ["leftCTRL", "s"])) ∧
      ∃ exchanges ended,
        (invoke (BuiltIn.registry {}) (writtenStep ["leftCTRL", "s"])).Runs exchanges ended ∧
          sentIn exchanges = chordEvents [.special "ctrl_l", .character "s"]) ∧
    Does (Keyboard.chordText {} true (some "LeftCtrl + + S"))
      (chordEvents [.special "ctrl_l", .character "s"]) [] (.ok .none) ∧
    Does (Keyboard.chordText {} true (some "LeftCtrl+Any")) [] [chordRefusal (some "LeftCtrl+Any")]
      (.ok .none) := by
  have pressed : keysOf {} controlKeys = [.special "ctrl_l", .character "s"] := by decide +kernel
  have areKeys : ∀ entry ∈ controlKeys, entry ∈ keys := by decide +kernel
  obtain ⟨control, letter, -⟩ := List.forall_mem_cons.mp areKeys |>.imp_right List.forall_mem_cons.mp
  rw [← pressed]
  refine ⟨?_, ?_, ?_⟩
  · have both := (chord_notations_agree {}).1 ["leftCTRL", "s"] controlKeys (List.cons_ne_nil _ _)
      (.cons ⟨control, by decide +kernel⟩ (.cons ⟨letter, by decide +kernel⟩ .nil))
    exact ⟨both.1, (both.2 _ (List.mem_cons_of_mem _ (List.mem_singleton_self _))).2⟩
  · have parts : chordParts ((some "LeftCtrl + + S").getD "") = ["LeftCtrl ".toList, " S".toList] := by
      decide +kernel
    have rests : pauseEnd {} 1 = .ok () := by decide +kernel
    have plays := ((chord_notations_agree {}).2 true (some "LeftCtrl + + S")).1 controlKeys
      (List.cons_ne_nil _ _)
    rw [parts, rests] at plays
    exact plays (.cons ⟨control, by decide +kernel⟩ (.cons ⟨letter, by decide +kernel⟩ .nil))
  · have nameless : ∀ entry ∈ keys, folded (String.ofList (trim "Any".toList)) ≠ folded entry.name := by
      decide +kernel
    refine ((chord_notations_agree {}).2 true (some "LeftCtrl+Any")).2
      (.inr ⟨"Any".toList, by decide +kernel, ?_⟩)
    rintro entry ⟨isKey, same⟩
    exact nameless entry isKey same

end InputScript.Strokes
