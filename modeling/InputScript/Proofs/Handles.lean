/-
Module: InputScript.Proofs.Handles
Purpose: The handles of runs.  A handle only ever becomes one that is to be stopped or one that has
  ended, and a ledger is in order if all runs but the latest one are both.
Main exports: Handle.Becomes, Ledger.Becomes, Ledger.Orderly.add
-/
import InputScript.Session.Ledger

namespace InputScript.Session

/-! ### What becomes of a handle -/

/-- `handle.Becomes later`: a signal that is set stays set, and an end stays the same. -/
structure Handle.Becomes (handle later : Handle) : Prop where
  signal : handle.signal = true → later.signal = true
  ended : ∀ state, handle.ended = some state → later.ended = some state

namespace Handle.Becomes

variable {handle middle later : Handle}

theorem refl (handle : Handle) : handle.Becomes handle :=
  ⟨id, fun _ => id⟩

theorem trans (first : handle.Becomes middle) (second : middle.Becomes later) :
    handle.Becomes later :=
  ⟨second.signal ∘ first.signal, fun state ended => second.ended state (first.ended state ended)⟩

theorem requestCancel (handle : Handle) : handle.Becomes handle.requestCancel :=
  ⟨fun _ => rfl, fun _ => id⟩

theorem settle (handle : Handle) (state : RunState) : handle.Becomes (handle.settle state) where
  signal := id
  ended := by
    intro earlier ended
    simp [Handle.settle, ended]

end Handle.Becomes

namespace Ledger

variable {ledger later : Ledger} {number : Nat} {change : Handle → Handle}

theorem handle?_modify (ledger : Ledger) (number other : Nat) (change : Handle → Handle) :
    (ledger.modify number change).handle? other =
      (if number = other then change else id) <$> ledger.handle? other := by
  simp only [handle?, modify, List.getElem?_modify]
  split <;> simp

theorem handle?_modify_self (ledger : Ledger) (number : Nat) (change : Handle → Handle) :
    (ledger.modify number change).handle? number = (ledger.handle? number).map change := by
  rw [handle?_modify, if_pos rfl]
  rfl

theorem length_modify (ledger : Ledger) (number : Nat) (change : Handle → Handle) :
    (ledger.modify number change).handles.length = ledger.handles.length :=
  List.length_modify ..

/-- Every handle of a ledger is found in the later one, as it has become. -/
def Becomes (ledger later : Ledger) : Prop :=
  ∀ number handle, ledger.handle? number = some handle →
    ∃ after, later.handle? number = some after ∧ handle.Becomes after

theorem Becomes.refl (ledger : Ledger) : ledger.Becomes ledger :=
  fun _ handle found => ⟨handle, found, .refl handle⟩

theorem Becomes.trans {middle : Ledger} (first : ledger.Becomes middle)
    (second : middle.Becomes later) : ledger.Becomes later := by
  intro number handle found
  obtain ⟨between, foundBetween, early⟩ := first number handle found
  obtain ⟨after, foundAfter, late⟩ := second number between foundBetween
  exact ⟨after, foundAfter, early.trans late⟩

theorem becomes_modify (ledger : Ledger) (number : Nat)
    (grows : ∀ handle, Handle.Becomes handle (change handle)) :
    ledger.Becomes (ledger.modify number change) := by
  intro other handle found
  rw [handle?_modify, found]
  by_cases same : number = other
  · simp only [same, if_true]
    exact ⟨change handle, rfl, grows handle⟩
  · simp only [same, if_false]
    exact ⟨handle, rfl, .refl handle⟩

theorem becomes_requestCancel (ledger : Ledger) (number : Nat) :
    ledger.Becomes (ledger.requestCancel number) :=
  becomes_modify ledger number .requestCancel

theorem becomes_settle (ledger : Ledger) (number : Nat) (state : RunState) :
    ledger.Becomes (ledger.settle number state) :=
  becomes_modify ledger number (.settle · state)

theorem becomes_add (ledger : Ledger) : ledger.Becomes ledger.add := by
  intro number handle found
  have bound := (List.getElem?_eq_some_iff.mp found).1
  exact ⟨handle, (List.getElem?_append_left bound).trans found, .refl handle⟩

theorem isDone_eq_true :
    ledger.isDone number = true ↔
      ∃ handle state, ledger.handle? number = some handle ∧ handle.ended = some state := by
  simp [isDone, Option.any_eq_true, Handle.isDone, Option.isSome_iff_exists]

theorem stateOf_eq {handle : Handle} {state : RunState} (found : ledger.handle? number = some handle)
    (ended : handle.ended = some state) : ledger.stateOf number = state := by
  simp [stateOf, found, Handle.state, ended]

/-- A run that has ended stays so, in the same state. -/
theorem Becomes.isDone (becomes : ledger.Becomes later) (done : ledger.isDone number = true) :
    later.isDone number = true ∧ later.stateOf number = ledger.stateOf number := by
  obtain ⟨handle, state, found, ended⟩ := isDone_eq_true.mp done
  obtain ⟨after, foundAfter, grown⟩ := becomes number handle found
  have stays := grown.ended state ended
  refine ⟨isDone_eq_true.mpr ⟨after, state, foundAfter, stays⟩, ?_⟩
  rw [stateOf_eq foundAfter stays, stateOf_eq found ended]

/-- Whether a run is to be stopped. -/
def isSignalled (ledger : Ledger) (number : Nat) : Bool :=
  (ledger.handle? number).any (·.signal)

theorem Becomes.isSignalled (becomes : ledger.Becomes later)
    (signalled : ledger.isSignalled number = true) : later.isSignalled number = true := by
  obtain ⟨handle, found, set⟩ := (Option.any_eq_true _ _).mp signalled
  obtain ⟨after, foundAfter, grown⟩ := becomes number handle found
  exact (Option.any_eq_true _ _).mpr ⟨after, foundAfter, grown.signal set⟩

/-- Whether a run was started and has not ended. -/
def IsLive (ledger : Ledger) (number : Nat) : Prop :=
  number < ledger.handles.length ∧ ledger.isDone number = false

theorem stateOf_of_isLive (live : ledger.IsLive number) : ledger.stateOf number = .running := by
  obtain ⟨known, running⟩ := live
  have found : ledger.handle? number = some ledger.handles[number] := List.getElem?_eq_getElem known
  have unended : ledger.handles[number].ended = none := by
    simpa [Ledger.isDone, found, Handle.isDone] using running
  simp [stateOf, found, Handle.state, unended]

/-- No run is live again. -/
theorem Becomes.isLive (becomes : ledger.Becomes later)
    (size : later.handles.length = ledger.handles.length) (live : later.IsLive number) :
    ledger.IsLive number := by
  obtain ⟨known, running⟩ := live
  refine ⟨size ▸ known, ?_⟩
  cases done : ledger.isDone number with
  | false => rfl
  | true =>
      rw [(becomes.isDone done).1] at running
      cases running

/-! ### Stopping and ending -/

theorem handle?_known (known : number < ledger.handles.length) :
    ∃ handle, ledger.handle? number = some handle :=
  ⟨_, List.getElem?_eq_getElem known⟩

theorem isSignalled_requestCancel (known : number < ledger.handles.length) :
    (ledger.requestCancel number).isSignalled number = true := by
  obtain ⟨handle, found⟩ := handle?_known known
  simp [Ledger.isSignalled, requestCancel, handle?_modify_self, found, Handle.requestCancel]

theorem isDone_requestCancel (ledger : Ledger) (number other : Nat) :
    (ledger.requestCancel number).isDone other = ledger.isDone other := by
  rw [Ledger.isDone, Ledger.isDone, requestCancel, handle?_modify]
  split
  · cases ledger.handle? other <;> rfl
  · rw [id_map]

theorem isDone_settle (known : number < ledger.handles.length) (state : RunState) :
    (ledger.settle number state).isDone number = true := by
  obtain ⟨handle, found⟩ := handle?_known known
  simp [Ledger.isDone, settle, handle?_modify_self, found, Handle.settle, Handle.isDone]

/-- A run that has not ended before ends in the state that is given. -/
theorem settle_ends {other : Nat} {state : RunState} (running : ledger.isDone other = false)
    (done : (ledger.settle number state).isDone other = true) :
    (ledger.settle number state).stateOf other = state := by
  obtain ⟨after, ending, found, ended⟩ := isDone_eq_true.mp done
  rw [stateOf_eq found ended]
  rw [settle, handle?_modify] at found
  obtain ⟨before, foundBefore, rfl⟩ := Option.map_eq_some_iff.mp found
  have unended : before.ended = none := by
    simpa [Ledger.isDone, foundBefore, Handle.isDone] using running
  split at ended
  · simpa [Handle.settle, unended] using ended.symm
  · rw [id, unended] at ended
    cases ended

/-- A run that has ended does not end again. -/
theorem settle_of_isDone (done : ledger.isDone number = true) (state : RunState) :
    ledger.settle number state = ledger := by
  obtain ⟨handle, earlier, found, ended⟩ := isDone_eq_true.mp done
  have same : handle.settle state = handle := by
    obtain ⟨isEnded, signal⟩ := handle
    cases ended
    rfl
  have handles : (ledger.settle number state).handles = ledger.handles := by
    apply List.ext_getElem?
    intro other
    have looked := handle?_modify ledger number other (·.settle state)
    by_cases here : number = other
    · subst here
      rw [if_pos rfl, found] at looked
      exact looked.trans ((congrArg some same).trans found.symm)
    · rw [if_neg here, id_map] at looked
      exact looked
  exact congrArg (Ledger.mk · ledger.current) handles

/-! ### Ledgers in order -/

/-- The current run is the latest one, all runs before it have ended and were to be stopped, and the
states that runs have ended in are those of an end. -/
structure Orderly (ledger : Ledger) : Prop where
  current : ∀ number, ledger.current = some number ↔ number + 1 = ledger.handles.length
  earlier : ∀ number, number + 1 < ledger.handles.length →
    ledger.isDone number = true ∧ ledger.isSignalled number = true
  finished : ∀ number, ledger.isDone number = true → (ledger.stateOf number).isFinished = true

theorem orderly_empty : Orderly {} where
  current := by simp
  earlier := nofun
  finished := nofun

namespace Orderly

theorem current_eq_none (orderly : ledger.Orderly) :
    ledger.current = none ↔ ledger.handles = [] := by
  rw [Option.eq_none_iff_forall_ne_some, ← List.length_eq_zero_iff]
  constructor
  · intro none
    cases size : ledger.handles.length with
    | zero => rfl
    | succ number => exact absurd ((orderly.current number).mpr size.symm) (none number)
  · intro empty number some
    have size := (orderly.current number).mp some
    omega

theorem stateOf_ne_running (orderly : ledger.Orderly) (done : ledger.isDone number = true) :
    ledger.stateOf number ≠ .running := by
  intro running
  have finished := orderly.finished number done
  rw [running] at finished
  cases finished

/-- Only the latest run can be live. -/
theorem of_isLive (orderly : ledger.Orderly) (live : ledger.IsLive number) :
    number + 1 = ledger.handles.length := by
  obtain ⟨known, running⟩ := live
  rcases Nat.lt_or_ge (number + 1) ledger.handles.length with early | late
  · rw [(orderly.earlier number early).1] at running
    cases running
  · omega

/-- A ledger stays in order as long as its handles become what they can and runs end as they should. -/
theorem becomes (orderly : ledger.Orderly) (becomes : ledger.Becomes later)
    (size : later.handles.length = ledger.handles.length) (current : later.current = ledger.current)
    (ends : ∀ number, ledger.isDone number = false → later.isDone number = true →
      (later.stateOf number).isFinished = true) : later.Orderly where
  current := by
    rw [size, current]
    exact orderly.current
  earlier := by
    intro number early
    obtain ⟨done, signalled⟩ := orderly.earlier number (size ▸ early)
    exact ⟨(becomes.isDone done).1, becomes.isSignalled signalled⟩
  finished := by
    intro number done
    cases before : ledger.isDone number with
    | false => exact ends number before done
    | true =>
        rw [(becomes.isDone before).2]
        exact orderly.finished number before

theorem requestCancel (orderly : ledger.Orderly) (number : Nat) :
    (ledger.requestCancel number).Orderly := by
  apply orderly.becomes (becomes_requestCancel ledger number) (length_modify _ _ _) rfl
  intro other running done
  rw [isDone_requestCancel, running] at done
  cases done

theorem settle (orderly : ledger.Orderly) (number : Nat) {state : RunState}
    (finished : state.isFinished = true) : (ledger.settle number state).Orderly := by
  apply orderly.becomes (becomes_settle ledger number state) (length_modify _ _ _) rfl
  intro other running done
  rw [settle_ends running done]
  exact finished

theorem isDone_add_length (ledger : Ledger) : ledger.add.isDone ledger.handles.length = false := by
  simp [Ledger.isDone, handle?, Ledger.add, Handle.isDone]

/-- A run is added once all others have ended. -/
theorem add (orderly : ledger.Orderly)
    (ended : ∀ number < ledger.handles.length,
      ledger.isDone number = true ∧ ledger.isSignalled number = true) : ledger.add.Orderly where
  current := by
    intro number
    simp only [Ledger.add, List.length_append, List.length_singleton, Option.some.injEq]
    omega
  earlier := by
    intro number early
    simp only [Ledger.add, List.length_append, List.length_singleton] at early
    obtain ⟨done, signalled⟩ := ended number (by omega)
    exact ⟨(ledger.becomes_add.isDone done).1, ledger.becomes_add.isSignalled signalled⟩
  finished := by
    intro number done
    rcases Nat.lt_trichotomy number ledger.handles.length with old | rfl | unknown
    · have before := (ended number old).1
      rw [(ledger.becomes_add.isDone before).2]
      exact orderly.finished number before
    · rw [isDone_add_length] at done
      cases done
    · obtain ⟨handle, -, found, -⟩ := isDone_eq_true.mp done
      have bound := (List.getElem?_eq_some_iff.mp found).1
      simp only [Ledger.add, List.length_append, List.length_singleton] at bound
      omega

end Orderly

end Ledger

end InputScript.Session
