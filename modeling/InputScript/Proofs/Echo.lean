/-
Module: InputScript.Proofs.Echo
Purpose: The walk through a program without its loops.  Whatever a walk does while the signal is unset,
  the walk through the bounded blocks alone can do as well: it leaves out the looks, lines and starts
  that concern the loops, and numbers the blocks anew.
Main exports: IsBlockLine, Circumstances.IsPatient, noteWalk_echoes
-/
import InputScript.Proofs.Circumstances
import Mathlib.Data.List.Forall2

namespace InputScript.Interleaving

open Catalog Run Rehearsal Script Reporting
open Activity (runs_finished runs_perform runs_bind runs_map)

/-! ### Lines about blocks -/

/-- The lines that a walk logs about its blocks.  They tell the place of the block. -/
inductive IsBlockLine : LogLine → Prop where
  | passes (index passes : Nat) :
      IsBlockLine ⟨.debug, s!"Block {index + 1}: {passes} iteration(s)"⟩
  | aborted (index : Nat) (name : String) :
      IsBlockLine ⟨.error, s!"Block {index + 1}: aborted at {name}"⟩
  | looping (index : Nat) : IsBlockLine ⟨.info, s!"Block {index + 1}: looping until stopped"⟩

/-- Whether every line about a block can be logged. -/
def Circumstances.IsPatient (circumstances : Circumstances) : Prop :=
  ∀ line, IsBlockLine line → circumstances.log line = .ok ()

/-! ### Echoes -/

/-- Whether exchanges differ in the number of a block at most. -/
inductive Renumbered : RunExchange → RunExchange → Prop where
  | same (exchange : RunExchange) : Renumbered exchange exchange
  | line {line other : LogLine} (isLine : IsBlockLine line) (otherIsLine : IsBlockLine other) :
      Renumbered ⟨.log line, .ok ()⟩ ⟨.log other, .ok ()⟩

/-- `Echoes exchanges others`: the others are what remains of exchanges when some are left out that do
no deed, before a line of the log or at the end, and the blocks are numbered anew. -/
inductive Echoes : List RunExchange → List RunExchange → Prop where
  | silent {exchanges : List RunExchange} (quiet : deedsOf exchanges = []) : Echoes exchanges []
  | cons {exchange other : RunExchange} {exchanges others : List RunExchange}
      (renumbered : Renumbered exchange other) (later : Echoes exchanges others) :
      Echoes (exchange :: exchanges) (other :: others)
  | skip {extra exchanges others : List RunExchange} {line : LogLine} {answer : Except Fault Unit}
      (quiet : deedsOf extra = []) (later : Echoes exchanges (⟨.log line, answer⟩ :: others)) :
      Echoes (extra ++ exchanges) (⟨.log line, answer⟩ :: others)

/-- The requests of an action that is being called. -/
def IsOwn : RunRequest → Prop
  | .action _ | .handover => True
  | _ => False

section Own

variable {α : Type}

theorem ofAction_asks (activity : ActionActivity α) : (ofAction activity).Asks IsOwn := by
  induction activity with
  | finished result => trivial
  | perform request next hypothesis => exact ⟨trivial, hypothesis⟩

theorem handover_asks : handover.Asks IsOwn :=
  ⟨trivial, fun _ => trivial⟩

theorem handedOver_asks (activity : ActionActivity α) : (handedOver activity).Asks IsOwn := by
  induction activity with
  | finished result => exact handover_asks.bind fun _ => trivial
  | perform request next hypothesis =>
      rw [handedOver]
      split
      · exact handover_asks.bind fun _ => ofAction_asks _
      · exact ⟨trivial, hypothesis⟩

/-- A call is followed by the requests of its action. -/
theorem callResolved_runs_call {resolution : Resolution} {exchanges : List RunExchange}
    {result : Except Interruption Value} (ran : (callResolved resolution).Runs exchanges result) :
    ∃ ordinal own, exchanges =
        ⟨.call resolution.overload.implementation.label resolution.arguments, ordinal⟩ :: own ∧
      ∀ exchange ∈ own, IsOwn exchange.request := by
  obtain ⟨ordinal, own, rfl, goesOn⟩ := runs_perform.mp ran
  refine ⟨ordinal, own, rfl, ?_⟩
  change Activity.Runs (if _ then ofAction _ else handedOver _) own result at goesOn
  split at goesOn
  · exact (ofAction_asks _).runs goesOn
  · exact (handedOver_asks _).runs goesOn

end Own

section Echoes

variable {exchanges others : List RunExchange}

theorem Renumbered.deed?_eq {exchange other : RunExchange} (renumbered : Renumbered exchange other) :
    deed? exchange = deed? other := by
  cases renumbered <;> rfl

/-- An echo does the same deeds. -/
theorem Echoes.deedsOf_eq (echoes : Echoes exchanges others) : deedsOf exchanges = deedsOf others := by
  induction echoes with
  | silent quiet => exact quiet
  | cons renumbered later hypothesis =>
      simp only [deedsOf, List.filterMap_cons, renumbered.deed?_eq]
      split <;> simp_all [deedsOf]
  | skip quiet later hypothesis => rw [deedsOf_append, quiet, hypothesis]; rfl

theorem Echoes.append {first second : List RunExchange}
    (renumbered : List.Forall₂ Renumbered first second) (echoes : Echoes exchanges others) :
    Echoes (first ++ exchanges) (second ++ others) := by
  induction renumbered with
  | nil => exact echoes
  | cons here later hypothesis => exact .cons here hypothesis

theorem Echoes.mem (echoes : Echoes exchanges others) {exchange : RunExchange}
    (member : exchange ∈ others) :
    exchange ∈ exchanges ∨ ∃ line, IsBlockLine line ∧ exchange = ⟨.log line, .ok ()⟩ := by
  induction echoes with
  | silent quiet => cases member
  | cons renumbered later hypothesis =>
      rcases List.mem_cons.mp member with rfl | after
      · cases renumbered with
        | same => exact .inl List.mem_cons_self
        | line isLine otherIsLine => exact .inr ⟨_, otherIsLine, rfl⟩
      · exact (hypothesis after).imp_left (List.mem_cons_of_mem _)
  | skip quiet later hypothesis =>
      exact (hypothesis member).imp_left (List.mem_append_right _)

/-- What an echo begins with, up to the first line of the log, is what the exchanges begin with. -/
theorem Echoes.begins (echoes : Echoes exchanges others) {own later : List RunExchange}
    (split : others = own ++ later) (isOwn : ∀ exchange ∈ own, IsOwn exchange.request) :
    ∃ rest, exchanges = own ++ rest := by
  induction echoes generalizing own with
  | silent quiet =>
      obtain ⟨rfl, -⟩ := List.append_eq_nil_iff.mp split.symm
      exact ⟨_, rfl⟩
  | cons renumbered echoes hypothesis =>
      cases own with
      | nil => exact ⟨_, rfl⟩
      | cons first own =>
          obtain ⟨here, further⟩ := List.forall_mem_cons.mp isOwn
          cases split
          obtain ⟨rest, rfl⟩ := hypothesis rfl further
          cases renumbered with
          | same => exact ⟨rest, rfl⟩
          | line isLine otherIsLine => exact here.elim
  | skip quiet echoes hypothesis =>
      cases own with
      | nil => exact ⟨_, rfl⟩
      | cons first own =>
          obtain ⟨here, -⟩ := List.forall_mem_cons.mp isOwn
          cases split
          exact here.elim

/-- The calls of an echo, with all that their actions ask for, are calls of the exchanges after the
same deeds. -/
theorem Echoes.call (echoes : Echoes exchanges others) {label : String} {arguments : List Value}
    {ordinal : Nat} {earlier own later : List RunExchange}
    (split : others = earlier ++ (⟨.call label arguments, ordinal⟩ :: own ++ later))
    (isOwn : ∀ exchange ∈ own, IsOwn exchange.request) :
    ∃ before after, exchanges = before ++ (⟨.call label arguments, ordinal⟩ :: own ++ after) ∧
      deedsOf before = deedsOf earlier := by
  induction echoes generalizing earlier with
  | silent quiet => cases earlier <;> cases split
  | cons renumbered echoes hypothesis =>
      cases earlier with
      | nil =>
          cases split
          obtain ⟨rest, rfl⟩ := echoes.begins rfl isOwn
          cases renumbered
          exact ⟨[], rest, rfl, rfl⟩
      | cons first earlier =>
          cases split
          obtain ⟨before, after, rfl, same⟩ := hypothesis rfl
          refine ⟨_ :: before, after, rfl, ?_⟩
          simp only [deedsOf, List.filterMap_cons, renumbered.deed?_eq]
          split <;> simp_all [deedsOf]
  | @skip extra exchanges others line answer quiet echoes hypothesis =>
      obtain ⟨before, after, rfl, same⟩ := hypothesis split
      refine ⟨extra ++ before, after, (List.append_assoc _ _ _).symm, ?_⟩
      rw [deedsOf_append, quiet, same]
      rfl

/-- An echo is as the circumstances say if the exchanges are. -/
theorem Echoes.obeys {registry : Registry} {circumstances : Circumstances} {before : List Deed}
    (echoes : Echoes exchanges others) (patient : circumstances.IsPatient)
    (obeys : Obeys registry circumstances before exchanges) :
    Obeys registry circumstances before others where
  undisturbed exchange member := by
    rcases echoes.mem member with old | ⟨line, isLine, rfl⟩
    · exact obeys.undisturbed exchange old
    · trivial
  tells exchange member := by
    rcases echoes.mem member with old | ⟨line, isLine, rfl⟩
    · exact obeys.tells exchange old
    · exact (patient line isLine).symm
  ends := by
    intro earlier segment later name tokens resolution result split resolved ran
    obtain ⟨ordinal, own, rfl, isOwn⟩ := callResolved_runs_call ran
    obtain ⟨first, after, same, deeds⟩ := echoes.call split isOwn
    rw [← deeds]
    exact obeys.ends first _ after name tokens resolution result same resolved ran

end Echoes

/-! ### Bounded blocks -/

section Repeats

variable {α β γ δ : Type} {circumstances : Circumstances} {related : α → β → Prop}
  {beyond : γ → δ → Prop}

/-- Whether results are alike: values that are related, or the same interruption. -/
inductive Alike (related : α → β → Prop) : Except Interruption α → Except Interruption β → Prop where
  | ok {value : α} {other : β} (relates : related value other) : Alike related (.ok value) (.ok other)
  | error (interruption : Interruption) : Alike related (.error interruption) (.error interruption)

/-- Whether an activity can do what another one does, up to the numbers of the blocks. -/
def Repeats (circumstances : Circumstances) (related : α → β → Prop) (activity : RunActivity α)
    (other : RunActivity β) : Prop :=
  ∀ exchanges result, activity.Runs exchanges result →
    (∀ exchange ∈ exchanges, circumstances.Tells exchange) →
    ∃ others ended, other.Runs others ended ∧ List.Forall₂ Renumbered exchanges others ∧
      Alike related result ended

theorem repeats_finished {result : Except Interruption α} {ended : Except Interruption β}
    (alike : Alike related result ended) :
    Repeats circumstances related (.finished result) (.finished ended) := by
  intro exchanges _ ran _
  obtain ⟨rfl, rfl⟩ := runs_finished.mp ran
  exact ⟨[], ended, .rest _, .nil, alike⟩

theorem repeats_refl (activity : RunActivity α) :
    Repeats circumstances (· = ·) activity activity := by
  intro exchanges result ran _
  refine ⟨exchanges, result, ran, List.forall₂_same.mpr fun exchange _ => .same exchange, ?_⟩
  cases result with
  | ok value => exact .ok rfl
  | error interruption => exact .error interruption

theorem repeats_bind {activity : RunActivity α} {other : RunActivity β} {next : α → RunActivity γ}
    {otherNext : β → RunActivity δ} (starts : Repeats circumstances related activity other)
    (goesOn : ∀ value otherValue, related value otherValue →
      Repeats circumstances beyond (next value) (otherNext otherValue)) :
    Repeats circumstances beyond (activity.bind next) (other.bind otherNext) := by
  intro exchanges result ran tells
  rcases runs_bind.mp ran with ⟨first, second, value, rfl, begun, continued⟩ |
    ⟨interruption, rfl, begun⟩
  · obtain ⟨tellsFirst, tellsSecond⟩ := List.forall_mem_append.mp tells
    obtain ⟨others, _, otherBegun, renumbered, alike⟩ := starts first _ begun tellsFirst
    cases alike with
    | ok relates =>
        obtain ⟨further, ended, otherContinued, renumberedLater, alike⟩ :=
          goesOn _ _ relates second result continued tellsSecond
        exact ⟨others ++ further, ended,
          runs_bind.mpr (.inl ⟨_, _, _, rfl, otherBegun, otherContinued⟩),
          List.rel_append renumbered renumberedLater, alike⟩
  · obtain ⟨others, _, otherBegun, renumbered, alike⟩ := starts exchanges _ begun tells
    cases alike with
    | error interruption =>
        exact ⟨others, _, runs_bind.mpr (.inr ⟨_, rfl, otherBegun⟩), renumbered, .error _⟩

/-- A line about a block can stand for another one. -/
theorem repeats_line (patient : circumstances.IsPatient) {level otherLevel : Level}
    {message otherMessage : String} (isLine : IsBlockLine ⟨level, message⟩)
    (otherIsLine : IsBlockLine ⟨otherLevel, otherMessage⟩) :
    Repeats circumstances (· = ·) (log level message) (log otherLevel otherMessage) := by
  intro exchanges result ran tells
  obtain ⟨answer, later, rfl, isOver⟩ := runs_perform.mp ran
  obtain ⟨rfl, rfl⟩ := runs_finished.mp isOver
  obtain rfl : answer = .ok () := (tells _ List.mem_cons_self).trans (patient _ isLine)
  exact ⟨[⟨.log ⟨otherLevel, otherMessage⟩, .ok ()⟩], .ok (), .exchange (.rest _),
    .cons (.line isLine otherIsLine) .nil, .ok rfl⟩

end Repeats

/-- The steps among findings that have returned, with their outcomes. -/
def outcomesOf (findings : List Finding) : List (Script.Step × Outcome) :=
  findings.filterMap fun
    | .returned _ step outcome => some (step, outcome)
    | _ => none

/-- Whether parts of walks come to the same state by steps with the same outcomes. -/
def SamePart (noted other : Noted RunState) : Prop :=
  noted.value = other.value ∧ outcomesOf noted.findings = outcomesOf other.findings

/-- Whether walks come to the same state by steps with the same outcomes. -/
def SameWalk (noted other : Noted WalkEnd) : Prop :=
  noted.value.state = other.value.state ∧ outcomesOf noted.findings = outcomesOf other.findings

theorem outcomesOf_append (first second : List Finding) :
    outcomesOf (first ++ second) = outcomesOf first ++ outcomesOf second :=
  List.filterMap_append

section Bounded

variable {registry : Registry} {circumstances : Circumstances}
  (patient : circumstances.IsPatient)
include patient

theorem noteSteps_repeats (index other : Nat) (steps : List Script.Step) :
    Repeats circumstances SamePart (noteSteps registry index steps)
      (noteSteps registry other steps) := by
  induction steps with
  | nil => exact repeats_finished (.ok ⟨rfl, rfl⟩)
  | cons step rest hypothesis =>
      have goesOn (outcome : Outcome) : Repeats circumstances SamePart
          ((noteSteps registry index rest).bind fun later => .finished (.ok
            ⟨later.value, .looked false :: .returned index step outcome :: later.findings⟩))
          ((noteSteps registry other rest).bind fun later => .finished (.ok
            ⟨later.value, .looked false :: .returned other step outcome :: later.findings⟩)) := by
        refine repeats_bind hypothesis fun noted otherNoted same => ?_
        exact repeats_finished (.ok ⟨same.1, congrArg ((step, outcome) :: ·) same.2⟩)
      rw [noteSteps, noteSteps]
      refine repeats_bind (repeats_refl isStopping) ?_
      rintro (_ | _) _ rfl
      · refine repeats_bind (repeats_refl (invoke registry step)) ?_
        rintro (value | _ | ⟨message, _ | _⟩) _ rfl
        · exact goesOn _
        · exact repeats_finished (.ok ⟨rfl, rfl⟩)
        · refine repeats_bind (repeats_line patient (.aborted _ _) (.aborted _ _)) fun _ _ _ => ?_
          exact repeats_finished (.ok ⟨rfl, rfl⟩)
        · exact goesOn _
      · exact repeats_finished (.ok ⟨rfl, rfl⟩)

theorem notePasses_repeats (index other : Nat) (steps : List Script.Step) (passes : Nat) :
    Repeats circumstances SamePart (notePasses registry index steps passes)
      (notePasses registry other steps passes) := by
  induction passes with
  | zero => exact repeats_finished (.ok ⟨rfl, rfl⟩)
  | succ passes hypothesis =>
      refine repeats_bind (noteSteps_repeats patient index other steps) ?_
      rintro ⟨state, findings⟩ ⟨_, otherFindings⟩ ⟨rfl, same⟩
      cases state with
      | completed =>
          refine repeats_bind hypothesis fun later otherLater sameLater => ?_
          refine repeats_finished (.ok ⟨sameLater.1, ?_⟩)
          rw [outcomesOf_append, outcomesOf_append, sameLater.2]
          exact congrArg (· ++ _) same
      | _ => exact repeats_finished (.ok ⟨rfl, same⟩)

theorem noteBounded_repeats (index other : Nat) (block : Block) :
    Repeats circumstances SamePart (noteBounded registry index block)
      (noteBounded registry other block) := by
  refine repeats_bind (repeats_line patient (.passes _ _) (.passes _ _)) fun _ _ _ => ?_
  split
  · exact repeats_finished (.ok ⟨rfl, rfl⟩)
  · exact notePasses_repeats patient index other _ _

end Bounded

/-! ### The walk without the loops -/

/-- A look at the signal that finds it unset. -/
abbrev unsetLook : RunExchange := ⟨.action .isStopping, false⟩

/-- How a walk and the walk without its loops begin: nothing remains, or both begin with a look at the
signal, and in what remains a line about a block follows. -/
inductive WalkEchoes : List RunExchange → List RunExchange → Prop where
  | silent {exchanges : List RunExchange} (quiet : deedsOf exchanges = []) : WalkEchoes exchanges []
  | looked {exchanges others : List RunExchange} {line : LogLine} {answer : Except Fault Unit}
      (later : Echoes exchanges (⟨.log line, answer⟩ :: others)) :
      WalkEchoes (unsetLook :: exchanges) (unsetLook :: ⟨.log line, answer⟩ :: others)

theorem WalkEchoes.echoes {exchanges others : List RunExchange}
    (begins : WalkEchoes exchanges others) : Echoes exchanges others := by
  cases begins with
  | silent quiet => exact .silent quiet
  | looked later => exact .cons (.same _) later

/-- The start of a loop is left out.  The look before it stands for the one after it. -/
theorem WalkEchoes.start {exchanges others : List RunExchange}
    (begins : WalkEchoes exchanges others) (line : LogLine) (index : Nat) (block : Block) :
    WalkEchoes (unsetLook :: ⟨.log line, .ok ()⟩ :: ⟨.spawn index block, ()⟩ :: exchanges)
      others := by
  cases begins with
  | silent quiet => exact .silent quiet
  | looked later =>
      have quiet : deedsOf [⟨.log line, .ok ()⟩, ⟨.spawn index block, ()⟩, unsetLook] = [] := rfl
      exact .looked (.skip quiet later)

/-- The blocks that have an end. -/
abbrev boundedBlocks (blocks : List Block) : List Block :=
  blocks.filter fun block => !block.repetition.isUnbounded

section Walk

variable {registry : Registry} {circumstances : Circumstances} {index loops : Nat} {block : Block}
  {rest : List Block} {exchanges : List RunExchange} {result : Except Interruption (Noted WalkEnd)}

/-- What a walk does at an unbounded block while the signal is unset. -/
theorem noteWalk_forever_runs (patient : circumstances.IsPatient)
    (unbounded : block.repetition = .forever)
    (ran : (noteWalk registry index loops (block :: rest)).Runs exchanges result)
    (undisturbed : ∀ exchange ∈ exchanges, Undisturbed exchange)
    (tells : ∀ exchange ∈ exchanges, circumstances.Tells exchange) :
    ∃ line later ended,
      exchanges = unsetLook :: ⟨.log line, .ok ()⟩ :: ⟨.spawn index block, ()⟩ :: later ∧
      (noteWalk registry (index + 1) (loops + 1) rest).Runs later ended ∧
      result = ended.map fun noted =>
        ⟨noted.value, .looked false :: .started index :: noted.findings⟩ := by
  rw [noteWalk, unbounded] at ran
  obtain ⟨stopping, _, rfl, looked⟩ := runs_perform.mp ran
  obtain rfl : stopping = false := undisturbed _ List.mem_cons_self
  obtain ⟨answer, _, rfl, logged⟩ := runs_perform.mp looked
  have told : answer = circumstances.log _ := tells _ (List.mem_cons_of_mem _ List.mem_cons_self)
  obtain rfl : answer = .ok () := told.trans (patient _ (.looping index))
  obtain ⟨_, later, rfl, spawned⟩ := runs_perform.mp logged
  obtain ⟨ended, same, goesOn⟩ := runs_map.mp spawned
  exact ⟨_, later, ended, rfl, goesOn, same⟩

/-- What a walk does after a bounded block. -/
def noteRest (registry : Registry) (index loops : Nat) (rest : List Block)
    (bounded : Noted RunState) : RunActivity (Noted WalkEnd) :=
  match bounded.value with
  | .completed => (noteWalk registry (index + 1) loops rest).bind fun later => .finished (.ok
      ⟨later.value, .looked false :: (bounded.findings ++ later.findings)⟩)
  | state => .finished (.ok ⟨⟨state, loops⟩, .looked false :: bounded.findings⟩)

/-- What a walk does at a bounded block while the signal is unset. -/
theorem noteWalk_times_runs {count : Int} (bounded : block.repetition = .times count) :
    (noteWalk registry index loops (block :: rest)).Runs (unsetLook :: exchanges) result ↔
      ((noteBounded registry index block).bind (noteRest registry index loops rest)).Runs exchanges
        result := by
  rw [noteWalk, bounded]
  constructor
  · intro ran
    cases ran with
    | exchange goesOn => exact goesOn
  · intro ran
    exact .exchange ran

/-- A bounded block begins with a line of the log. -/
theorem noteBounded_begins {ended : Except Interruption (Noted RunState)}
    (ran : (noteBounded registry index block).Runs exchanges ended) :
    ∃ line answer later, exchanges = ⟨.log line, answer⟩ :: later := by
  obtain ⟨answer, later, rfl, -⟩ := runs_perform.mp ran
  exact ⟨_, answer, later, rfl⟩

/-- Whether the walk through the bounded ones among blocks can do what the walk through all of them
does. -/
def CanEcho (registry : Registry) (circumstances : Circumstances) (blocks : List Block) : Prop :=
  ∀ index loops other exchanges result,
    (noteWalk registry index loops blocks).Runs exchanges result →
    (∀ exchange ∈ exchanges, Undisturbed exchange) →
    (∀ exchange ∈ exchanges, circumstances.Tells exchange) →
    ∃ others ended, (noteWalk registry other 0 (boundedBlocks blocks)).Runs others ended ∧
      WalkEchoes exchanges others ∧ Alike SameWalk result ended

theorem noteRest_echoes (goesOn : CanEcho registry circumstances rest) (other : Nat)
    {bounded otherBounded : Noted RunState} (same : SamePart bounded otherBounded)
    (ran : (noteRest registry index loops rest bounded).Runs exchanges result)
    (undisturbed : ∀ exchange ∈ exchanges, Undisturbed exchange)
    (tells : ∀ exchange ∈ exchanges, circumstances.Tells exchange) :
    ∃ others ended,
      (noteRest registry other 0 (boundedBlocks rest) otherBounded).Runs others ended ∧
      Echoes exchanges others ∧ Alike SameWalk result ended := by
  obtain ⟨state, findings⟩ := bounded
  obtain ⟨_, otherFindings⟩ := otherBounded
  obtain ⟨rfl, sameOutcomes⟩ := same
  cases state with
  | completed =>
      obtain ⟨ended, rfl, onward⟩ := runs_map.mp ran
      obtain ⟨others, otherEnded, otherOnward, begins, alike⟩ :=
        goesOn _ _ (other + 1) exchanges ended onward undisturbed tells
      refine ⟨others, _, runs_map.mpr ⟨otherEnded, rfl, otherOnward⟩, begins.echoes, ?_⟩
      cases alike with
      | error => exact .error _
      | ok sameLater =>
          refine .ok ⟨sameLater.1, ?_⟩
          calc
            _ = outcomesOf findings ++ outcomesOf _ := outcomesOf_append findings _
            _ = outcomesOf otherFindings ++ outcomesOf _ := congrArg₂ (· ++ ·) sameOutcomes sameLater.2
            _ = _ := (outcomesOf_append otherFindings _).symm
  | _ =>
      obtain ⟨rfl, rfl⟩ := runs_finished.mp ran
      exact ⟨[], _, .rest _, .silent rfl, .ok ⟨rfl, sameOutcomes⟩⟩

/-- A bounded block is carried out in the same way, and then the walk goes on. -/
theorem noteBlock_echoes (patient : circumstances.IsPatient)
    (goesOn : CanEcho registry circumstances rest) (other : Nat)
    (ran : ((noteBounded registry index block).bind (noteRest registry index loops rest)).Runs
      exchanges result)
    (undisturbed : ∀ exchange ∈ exchanges, Undisturbed exchange)
    (tells : ∀ exchange ∈ exchanges, circumstances.Tells exchange) :
    ∃ line answer others ended,
      ((noteBounded registry other block).bind (noteRest registry other 0 (boundedBlocks rest))).Runs
        (⟨.log line, answer⟩ :: others) ended ∧
      Echoes exchanges (⟨.log line, answer⟩ :: others) ∧ Alike SameWalk result ended := by
  rcases runs_bind.mp ran with
    ⟨first, second, bounded, rfl, carried, walked⟩ | ⟨interruption, rfl, carried⟩
  · obtain ⟨-, undisturbedLater⟩ := List.forall_mem_append.mp undisturbed
    obtain ⟨tellsFirst, tellsLater⟩ := List.forall_mem_append.mp tells
    obtain ⟨others, _, otherCarried, renumbered, alike⟩ :=
      noteBounded_repeats patient index other block first _ carried tellsFirst
    obtain ⟨line, answer, more, rfl⟩ := noteBounded_begins otherCarried
    cases alike with
    | ok same =>
        obtain ⟨further, ended, otherWalked, echoes, alike⟩ :=
          noteRest_echoes goesOn other same walked undisturbedLater tellsLater
        exact ⟨line, answer, more ++ further, ended,
          runs_bind.mpr (.inl ⟨_, _, _, rfl, otherCarried, otherWalked⟩),
          echoes.append renumbered, alike⟩
  · obtain ⟨others, _, otherCarried, renumbered, alike⟩ :=
      noteBounded_repeats patient index other block exchanges _ carried tells
    obtain ⟨line, answer, more, rfl⟩ := noteBounded_begins otherCarried
    have nothing : Echoes [] [] := .silent rfl
    have echoes := nothing.append renumbered
    rw [List.append_nil, List.append_nil] at echoes
    cases alike with
    | error =>
        exact ⟨line, answer, more, _, runs_bind.mpr (.inr ⟨_, rfl, otherCarried⟩), echoes,
          .error _⟩

/-- What a walk does while the signal is unset, the walk through the bounded blocks alone can do as
well, and it ends in the same way. -/
theorem noteWalk_echoes (patient : circumstances.IsPatient) (blocks : List Block) :
    CanEcho registry circumstances blocks := by
  induction blocks with
  | nil =>
      intro index loops other exchanges result ran _ _
      obtain ⟨rfl, rfl⟩ := runs_finished.mp ran
      exact ⟨[], _, .rest _, .silent rfl, .ok ⟨rfl, rfl⟩⟩
  | cons block rest hypothesis =>
      intro index loops other exchanges result ran undisturbed tells
      cases repetition : block.repetition with
      | forever =>
          obtain ⟨line, later, ended, rfl, goesOn, rfl⟩ :=
            noteWalk_forever_runs patient repetition ran undisturbed tells
          simp only [List.forall_mem_cons] at undisturbed tells
          obtain ⟨others, otherEnded, otherRan, begins, alike⟩ :=
            hypothesis _ _ other later ended goesOn undisturbed.2.2.2 tells.2.2.2
          rw [boundedBlocks, List.filter_cons_of_neg (by simp [repetition, Repetition.isUnbounded])]
          refine ⟨others, otherEnded, otherRan, begins.start line index block, ?_⟩
          cases alike with
          | ok same => exact .ok same
          | error => exact .error _
      | times count =>
          obtain ⟨stopping, later, rfl, -⟩ := runs_perform.mp ran
          obtain rfl : stopping = false := undisturbed _ List.mem_cons_self
          rw [noteWalk_times_runs repetition] at ran
          obtain ⟨line, answer, others, ended, otherRan, echoes, alike⟩ :=
            noteBlock_echoes patient hypothesis other ran
              (List.forall_mem_cons.mp undisturbed).2 (List.forall_mem_cons.mp tells).2
          rw [boundedBlocks, List.filter_cons_of_pos (by simp [repetition, Repetition.isUnbounded])]
          exact ⟨_, ended, (noteWalk_times_runs repetition).mpr otherRan, .looked echoes, alike⟩

end Walk

/-! ### Requests of a walk without loops -/

section Private

variable {registry : Registry}

theorem callResolved_asks (resolution : Resolution) :
    (callResolved resolution).Asks IsPrivate := by
  have own : ∀ request, IsOwn request → IsPrivate request := by
    intro request isOwn
    cases request with
    | spawn index block => exact isOwn
    | join tolerant => exact isOwn
    | _ => trivial
  refine ⟨trivial, fun ordinal => ?_⟩
  dsimp only
  split
  · exact (ofAction_asks _).mono own
  · exact (handedOver_asks _).mono own

/-- To make no request that concerns the loops is a habit. -/
def privacy : Habit where
  Holds activity := activity.Asks IsPrivate
  finished _ := trivial
  bind first second := first.bind second
  attempt asks := asks.attempt
  look goesOn := ⟨trivial, goesOn⟩
  log _ _ := ⟨trivial, fun _ => trivial⟩
  report _ := ⟨trivial, fun _ => trivial⟩

/-- A walk through bounded blocks makes no request that concerns the loops. -/
theorem noteWalk_asks (index loops : Nat) {blocks : List Block}
    (bounded : ∀ block ∈ blocks, block.repetition.isUnbounded = false) :
    (noteWalk registry index loops blocks).Asks IsPrivate := by
  have starts : ∀ index, ∀ block ∈ blocks, block.repetition.isUnbounded = true →
      privacy.Holds (spawn index block) := by
    intro index block member unbounded
    rw [bounded block member] at unbounded
    cases unbounded
  have calls : ∀ block ∈ blocks, block.repetition.isUnbounded = false →
      ∀ name ∈ namesOf registry block.steps, privacy.HasCalls registry name :=
    fun _ _ _ _ _ _ resolution _ => callResolved_asks resolution
  exact Habit.noteWalk_holds index loops starts calls

end Private

end InputScript.Interleaving
