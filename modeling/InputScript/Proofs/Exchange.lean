/-
Module: InputScript.Proofs.Exchange
Purpose: What activities do under given answers.  A run of an activity is the list of its requests
  with the answers that they got, and a run of a composed activity is composed of runs of its parts.
  A discipline says which requests are in order when; an activity that keeps it is judged once, by
  recursion on its requests, and the judgement holds along every run.
Main exports: Exchange, Leads, Runs, keeps_bind, keeps_attempt
-/
import InputScript.Activity

namespace InputScript

namespace Activity

variable {Request : Type} {Answer : Request → Type} {α β : Type}

/-! ### The laws of composition -/

@[simp] theorem pure_eq (value : α) :
    (pure value : Activity Answer α) = .finished (.ok value) := rfl

@[simp] theorem bind_eq (activity : Activity Answer α) (next : α → Activity Answer β) :
    activity >>= next = activity.bind next := rfl

@[simp] theorem bind_ok (value : α) (next : α → Activity Answer β) :
    (Activity.finished (.ok value)).bind next = next value := rfl

@[simp] theorem bind_error (interruption : Interruption) (next : α → Activity Answer β) :
    (Activity.finished (.error interruption) : Activity Answer α).bind next =
      .finished (.error interruption) := rfl

@[simp] theorem bind_perform (request : Request) (resume : Answer request → Activity Answer α)
    (next : α → Activity Answer β) :
    (Activity.perform request resume).bind next =
      .perform request fun answer => (resume answer).bind next := rfl

theorem bind_assoc {γ : Type} (activity : Activity Answer α) (first : α → Activity Answer β)
    (second : β → Activity Answer γ) :
    (activity.bind first).bind second = activity.bind fun value => (first value).bind second := by
  induction activity with
  | finished result => cases result <;> rfl
  | perform request resume hypothesis =>
      simp only [bind_perform, hypothesis]

/-! ### Runs -/

/-- A request with the answer that it got. -/
structure Exchange {Request : Type} (Answer : Request → Type) where
  request : Request
  answer : Answer request

/-- `activity.Leads exchanges rest`: under the answers of the exchanges, an activity makes the
requests of the exchanges, and `rest` is what it still has to do. -/
inductive Leads : Activity Answer α → List (Exchange Answer) → Activity Answer α → Prop where
  | rest (activity : Activity Answer α) : Leads activity [] activity
  | exchange {request : Request} {resume : Answer request → Activity Answer α}
      {answer : Answer request} {exchanges : List (Exchange Answer)} {rest : Activity Answer α}
      (later : Leads (resume answer) exchanges rest) :
      Leads (.perform request resume) (⟨request, answer⟩ :: exchanges) rest

/-- `activity.Runs exchanges result`: under the answers of the exchanges, an activity makes exactly
the requests of the exchanges and ends with the result. -/
def Runs (activity : Activity Answer α) (exchanges : List (Exchange Answer))
    (result : Except Interruption α) : Prop :=
  activity.Leads exchanges (.finished result)

namespace Leads

variable {exchanges : List (Exchange Answer)} {rest : Activity Answer α}

/-- A first exchange, with the request and the answer said. -/
theorem answered (request : Request) {resume : Answer request → Activity Answer α}
    (answer : Answer request) (later : (resume answer).Leads exchanges rest) :
    (Activity.perform request resume).Leads (⟨request, answer⟩ :: exchanges) rest :=
  .exchange later

variable {activity : Activity Answer α}

/-- One more exchange at the end. -/
theorem snoc {request : Request} {resume : Answer request → Activity Answer α}
    (leads : activity.Leads exchanges (.perform request resume)) (answer : Answer request) :
    activity.Leads (exchanges ++ [⟨request, answer⟩]) (resume answer) := by
  generalize restEq : Activity.perform request resume = rest at leads
  induction leads with
  | rest activity =>
      subst restEq
      exact .exchange (.rest _)
  | exchange later hypothesis => exact .exchange (hypothesis restEq)

/-- A composed activity begins like its first part. -/
theorem bind (leads : activity.Leads exchanges rest) (next : α → Activity Answer β) :
    (activity.bind next).Leads exchanges (rest.bind next) := by
  induction leads with
  | rest activity => exact .rest _
  | exchange later hypothesis => exact .exchange hypothesis

theorem attempt (leads : activity.Leads exchanges rest) :
    activity.attempt.Leads exchanges rest.attempt := by
  induction leads with
  | rest activity => exact .rest _
  | exchange later hypothesis => exact .exchange hypothesis

/-- Exchanges leave one way to go on. -/
theorem goesOn {final : Activity Answer α} {more : List (Exchange Answer)}
    (leads : activity.Leads exchanges rest) (onward : activity.Leads (exchanges ++ more) final) :
    rest.Leads more final := by
  induction leads with
  | rest activity => exact onward
  | exchange later hypothesis =>
      cases onward with
      | exchange onward => exact hypothesis onward

end Leads

variable {exchanges : List (Exchange Answer)}

@[simp] theorem runs_finished {result ended : Except Interruption α} :
    (Activity.finished result).Runs exchanges ended ↔ exchanges = [] ∧ ended = result := by
  constructor
  · rintro ⟨⟩
    exact ⟨rfl, rfl⟩
  · rintro ⟨rfl, rfl⟩
    exact .rest _

theorem runs_perform {request : Request} {resume : Answer request → Activity Answer α}
    {result : Except Interruption α} :
    (Activity.perform request resume).Runs exchanges result ↔
      ∃ answer later, exchanges = ⟨request, answer⟩ :: later ∧ (resume answer).Runs later result := by
  constructor
  · intro ran
    cases ran with
    | exchange leads => exact ⟨_, _, rfl, leads⟩
  · rintro ⟨answer, later, rfl, leads⟩
    exact .exchange leads

variable {activity : Activity Answer α}

/-- A run of a composed activity is a run of its first part and then one of its second part, unless
the first part is interrupted. -/
theorem runs_bind {next : α → Activity Answer β} {result : Except Interruption β} :
    (activity.bind next).Runs exchanges result ↔
      (∃ first second value, exchanges = first ++ second ∧ activity.Runs first (.ok value) ∧
        (next value).Runs second result) ∨
      (∃ interruption, result = .error interruption ∧
        activity.Runs exchanges (.error interruption)) := by
  induction activity generalizing exchanges with
  | finished ended =>
      cases ended with
      | ok value =>
          constructor
          · intro ran
            exact .inl ⟨[], exchanges, value, rfl, .rest _, ran⟩
          · rintro (⟨first, second, _, rfl, ended, ran⟩ | ⟨interruption, _, ended⟩)
            · obtain ⟨rfl, sameValue⟩ := runs_finished.mp ended
              cases sameValue
              exact ran
            · cases (runs_finished.mp ended).2
      | error interruption =>
          simp only [bind_error, runs_finished]
          constructor
          · rintro ⟨rfl, rfl⟩
            exact .inr ⟨interruption, rfl, rfl, rfl⟩
          · rintro (⟨first, second, value, _, ⟨_, impossible⟩, _⟩ | ⟨_, rfl, rfl, same⟩)
            · cases impossible
            · cases same
              exact ⟨rfl, rfl⟩
  | perform request resume hypothesis =>
      simp only [bind_perform, runs_perform, hypothesis]
      constructor
      · rintro ⟨answer, later, rfl, ⟨first, second, value, rfl, ran, continued⟩ |
          ⟨interruption, rfl, ran⟩⟩
        · exact .inl ⟨⟨request, answer⟩ :: first, second, value, rfl, ⟨answer, first, rfl, ran⟩,
            continued⟩
        · exact .inr ⟨interruption, rfl, answer, later, rfl, ran⟩
      · rintro (⟨_, second, value, rfl, ⟨answer, first, rfl, ran⟩, continued⟩ |
          ⟨interruption, rfl, answer, later, rfl, ran⟩)
        · exact ⟨answer, first ++ second, rfl, .inl ⟨first, second, value, rfl, ran, continued⟩⟩
        · exact ⟨answer, later, rfl, .inr ⟨interruption, rfl, ran⟩⟩

/-- A composed activity that has a result is a run of its first part to a value and then one of its
second part. -/
theorem runs_bind_ok {next : α → Activity Answer β} {value : β} :
    (activity.bind next).Runs exchanges (.ok value) ↔
      ∃ first second middle, exchanges = first ++ second ∧ activity.Runs first (.ok middle) ∧
        (next middle).Runs second (.ok value) := by
  rw [runs_bind]
  constructor
  · rintro (composed | ⟨interruption, impossible, -⟩)
    · exact composed
    · cases impossible
  · exact .inl

/-- A run of an activity whose value is only converted. -/
theorem runs_map {convert : α → β} {result : Except Interruption β} :
    (activity.bind fun value => .finished (.ok (convert value))).Runs exchanges result ↔
      ∃ ended, result = ended.map convert ∧ activity.Runs exchanges ended := by
  rw [runs_bind]
  constructor
  · rintro (⟨first, second, value, rfl, ran, ends⟩ | ⟨interruption, rfl, ran⟩)
    · obtain ⟨rfl, rfl⟩ := runs_finished.mp ends
      rw [List.append_nil]
      exact ⟨.ok value, rfl, ran⟩
    · exact ⟨.error interruption, rfl, ran⟩
  · rintro ⟨interruption | value, rfl, ran⟩
    · exact .inr ⟨interruption, rfl, ran⟩
    · exact .inl ⟨exchanges, [], value, (List.append_nil _).symm, ran, .rest _⟩

/-- An attempt runs like the activity and always has a result. -/
theorem runs_attempt {result : Except Interruption (Except Interruption α)} :
    activity.attempt.Runs exchanges result ↔
      ∃ ended, result = .ok ended ∧ activity.Runs exchanges ended := by
  induction activity generalizing exchanges with
  | finished ended =>
      simp only [attempt, runs_finished]
      constructor
      · rintro ⟨rfl, rfl⟩
        exact ⟨ended, rfl, rfl, rfl⟩
      · rintro ⟨_, rfl, rfl, rfl⟩
        exact ⟨rfl, rfl⟩
  | perform request resume hypothesis =>
      simp only [attempt, runs_perform, hypothesis]
      constructor
      · rintro ⟨answer, later, rfl, ended, rfl, ran⟩
        exact ⟨ended, rfl, answer, later, rfl, ran⟩
      · rintro ⟨ended, rfl, answer, later, rfl, ran⟩
        exact ⟨answer, later, rfl, ended, rfl, ran⟩

end Activity

/-! ### What an activity asks for -/

namespace Activity

variable {Request : Type} {Answer : Request → Type} {α β : Type} {allowed : Request → Prop}

/-- Whether an activity makes only requests of a kind, however it is answered. -/
def Asks (allowed : Request → Prop) : Activity Answer α → Prop
  | .finished _ => True
  | .perform request resume => allowed request ∧ ∀ answer, (resume answer).Asks allowed

theorem asks_ofExcept (result : Except Fault α) :
    (ofExcept result : Activity Answer α).Asks allowed :=
  trivial

variable {activity : Activity Answer α}

theorem Asks.bind {next : α → Activity Answer β} (first : activity.Asks allowed)
    (second : ∀ value, (next value).Asks allowed) :
    (activity.bind next).Asks allowed := by
  induction activity with
  | finished result =>
      cases result with
      | ok value => exact second value
      | error interruption => trivial
  | perform request resume hypothesis =>
      exact ⟨first.1, fun answer => hypothesis answer (first.2 answer)⟩

theorem Asks.attempt (asks : activity.Asks allowed) :
    activity.attempt.Asks allowed := by
  induction activity with
  | finished result => trivial
  | perform request resume hypothesis =>
      exact ⟨asks.1, fun answer => hypothesis answer (asks.2 answer)⟩

theorem Asks.mono {wider : Request → Prop} (asks : activity.Asks allowed)
    (implies : ∀ request, allowed request → wider request) :
    activity.Asks wider := by
  induction activity with
  | finished result => trivial
  | perform request resume hypothesis =>
      exact ⟨implies request asks.1, fun answer => hypothesis answer (asks.2 answer)⟩

theorem Asks.runs (asks : activity.Asks allowed) {exchanges : List (Exchange Answer)}
    {result : Except Interruption α} (ran : activity.Runs exchanges result) :
    ∀ exchange ∈ exchanges, allowed exchange.request := by
  induction activity generalizing exchanges with
  | finished ended =>
      obtain ⟨rfl, -⟩ := runs_finished.mp ran
      exact List.forall_mem_nil _
  | perform request resume hypothesis =>
      obtain ⟨answer, later, rfl, goesOn⟩ := runs_perform.mp ran
      exact List.forall_mem_cons.mpr ⟨asks.1, hypothesis answer (asks.2 answer) goesOn⟩

end Activity

/-! ### Disciplines -/

/-- A discipline for activities, with states of what has happened so far: the requests that are in
order in a state, the answers that can come there, and the state after an exchange. -/
structure Discipline {Request : Type} (Answer : Request → Type) (σ : Type) where
  admits : σ → Request → Prop
  expects : σ → (request : Request) → Answer request → Prop
  after : σ → (request : Request) → Answer request → σ

namespace Activity

variable {Request : Type} {Answer : Request → Type} {α β σ : Type}
  {discipline : Discipline Answer σ}

/-- Whether an activity keeps a discipline from a state on, however it is answered, and ends in a
state and with a result as they should be. -/
def Keeps (discipline : Discipline Answer σ) (post : σ → Except Interruption α → Prop) :
    Activity Answer α → σ → Prop
  | .finished result, state => post state result
  | .perform request resume, state =>
    discipline.admits state request ∧
      ∀ answer, discipline.expects state request answer →
        (resume answer).Keeps discipline post (discipline.after state request answer)

/-- What has to hold at the end of the first part of a composed activity. -/
def Continues (discipline : Discipline Answer σ) (post : σ → Except Interruption β → Prop)
    (next : α → Activity Answer β) : σ → Except Interruption α → Prop
  | state, .ok value => (next value).Keeps discipline post state
  | state, .error interruption => post state (.error interruption)

variable {activity : Activity Answer α}

theorem keeps_bind {post : σ → Except Interruption β → Prop} {next : α → Activity Answer β}
    {state : σ} :
    (activity.bind next).Keeps discipline post state ↔
      activity.Keeps discipline (Continues discipline post next) state := by
  induction activity generalizing state with
  | finished result => cases result <;> rfl
  | perform request resume hypothesis =>
      simp only [bind_perform, Keeps, hypothesis]

theorem keeps_attempt {post : σ → Except Interruption (Except Interruption α) → Prop} {state : σ} :
    activity.attempt.Keeps discipline post state ↔
      activity.Keeps discipline (fun state result => post state (.ok result)) state := by
  induction activity generalizing state with
  | finished result => rfl
  | perform request resume hypothesis =>
      simp only [attempt, Keeps, hypothesis]

/-- A weaker condition at the end is kept too. -/
theorem Keeps.mono {post weaker : σ → Except Interruption α → Prop} {state : σ}
    (keeps : activity.Keeps discipline post state)
    (implies : ∀ state result, post state result → weaker state result) :
    activity.Keeps discipline weaker state := by
  induction activity generalizing state with
  | finished result => exact implies state result keeps
  | perform request resume hypothesis =>
      exact ⟨keeps.1, fun answer expected => hypothesis answer (keeps.2 answer expected)⟩

end Activity

end InputScript
