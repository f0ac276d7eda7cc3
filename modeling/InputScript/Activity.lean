/-
Module: InputScript.Activity
Purpose: Activities: finite programs that make requests to their surroundings and go on with the
  answers.  They say what is asked for and in which order, and leave open who answers and how the
  requests of several activities are interleaved.
Main exports: Interruption, Activity, bind, attempt, ensuring
-/
import InputScript.Outcome

namespace InputScript

/-- Why an activity ends without a result. -/
inductive Interruption where
  /-- It failed. -/
  | fault (fault : Fault)
  /-- It was called off from outside while it waited. -/
  | revoked
  deriving DecidableEq, Repr

/-- A program that makes requests.  `Answer` gives the type of the answer to each request. -/
inductive Activity {Request : Type} (Answer : Request → Type) (α : Type) where
  /-- The activity has ended. -/
  | finished (result : Except Interruption α)
  /-- The activity makes a request and goes on with the answer. -/
  | perform (request : Request) (next : Answer request → Activity Answer α)

namespace Activity

variable {Request : Type} {Answer : Request → Type} {α β : Type}

/-- Go on with the result of an activity; an interruption is passed on. -/
def bind (activity : Activity Answer α) (next : α → Activity Answer β) : Activity Answer β :=
  match activity with
  | .finished (.ok value) => next value
  | .finished (.error interruption) => .finished (.error interruption)
  | .perform request resume => .perform request fun answer => bind (resume answer) next

instance : Monad (Activity Answer) where
  pure value := .finished (.ok value)
  bind := bind

/-- Make one request. -/
def ask (request : Request) : Activity Answer (Answer request) :=
  .perform request fun answer => .finished (.ok answer)

/-- End with an interruption. -/
def interrupt (interruption : Interruption) : Activity Answer α :=
  .finished (.error interruption)

/-- End with a fault. -/
def fail (fault : Fault) : Activity Answer α :=
  interrupt (.fault fault)

/-- The result of an evaluation, as an activity that asks for nothing. -/
def ofExcept (result : Except Fault α) : Activity Answer α :=
  .finished (result.mapError .fault)

/-- An activity that hands over its interruption as a value. -/
def attempt (activity : Activity Answer α) : Activity Answer (Except Interruption α) :=
  match activity with
  | .finished result => .finished (.ok result)
  | .perform request resume => .perform request fun answer => attempt (resume answer)

/-- An activity followed by a second one however the first one ends.  If the second one is
interrupted, that interruption counts. -/
def ensuring (activity : Activity Answer α) (afterwards : Activity Answer Unit) :
    Activity Answer α :=
  bind activity.attempt fun result => bind afterwards fun _ => .finished result

/-- The same activity over a larger set of requests. -/
def lift {Wider : Type} {WiderAnswer : Wider → Type} (embed : Request → Wider)
    (adapt : (request : Request) → WiderAnswer (embed request) → Answer request) :
    Activity Answer α → Activity WiderAnswer α
  | .finished result => .finished result
  | .perform request resume =>
    .perform (embed request) fun answer =>
      lift embed adapt (resume (adapt request answer))

end Activity

end InputScript
