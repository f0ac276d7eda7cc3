/-
Module: InputScript.Rehearsal.Stretch
Purpose: What an activity does between two suspensions: its requests are answered by the world until
  it ends or has to wait.
Main exports: Wait, Resumption, Stop, stretch, Resumption.resume
-/
import InputScript.Rehearsal.World

namespace InputScript.Rehearsal

open Run

/-- What a suspended activity waits for. -/
inductive Wait where
  /-- Its next turn. -/
  | pass
  /-- The passing of time, in seconds. -/
  | timer (seconds : Float)
  /-- The result of a worker. -/
  | handover
  /-- Nothing that ever comes. -/
  | never
  /-- The loops. -/
  | loops (tolerant : Bool)

/-- How a suspended activity goes on. -/
inductive Resumption (α : Type) where
  /-- With the answer to its request. -/
  | answer (next : Except Interruption Unit → RunActivity α)
  /-- With a sleep that looks at the signal now and then. -/
  | nap (chunk elapsed seconds : Float) (next : Except Interruption Bool → RunActivity α)

/-- Where a stretch of an activity stops. -/
inductive Stop (α : Type) where
  | finished (result : Except Interruption α)
  | suspended (wait : Wait) (resumption : Resumption α)

/-! ### Naps -/

/-- What a nap does next. -/
inductive NapStep where
  /-- It is over; the answer says whether the signal is set. -/
  | over (signalSet : Bool)
  /-- It sleeps for a part of the time, after which so much has elapsed. -/
  | part (time elapsed : Float)

/-- The next part of a nap: at most a chunk of what is left, unless the signal is set. -/
def napStep (signalSet : Bool) (chunk elapsed seconds : Float) : NapStep :=
  if elapsed < seconds then
    if signalSet then .over true
    else
      let left := seconds - elapsed
      let time := if left < chunk then left else chunk
      .part time (elapsed + time)
  else .over signalSet

/-! ### Requests -/

/-- How the world reacts to a request. -/
inductive Reaction (request : RunRequest) where
  /-- It answers at once. -/
  | answered (answer : request.Answer) (world : World)
  /-- The activity has to wait. -/
  | suspended (wait : Wait) (world : World) (deliver : Except Interruption Unit → request.Answer)
  /-- The activity has to wait in parts, first for the given time. -/
  | napping (time chunk elapsed seconds : Float)
      (deliver : Except Interruption Bool → request.Answer)

/-- The reaction to an answer and the world after it. -/
def Reaction.ofPair {request : RunRequest} (pair : request.Answer × World) : Reaction request :=
  .answered pair.1 pair.2

/-- The reaction of the world to a request. -/
def react (rules : Rules) (world : World) : (request : RunRequest) → Reaction request
  | .action (.log line) => .answered () (world.enter (.log line))
  | .action .isStopping => .answered world.signal world
  | .action .stop => .answered () world.stop
  | .action (.wait seconds) => .ofPair (world.waited rules seconds)
  | .action (.rest seconds) => .answered () (world.enter (.rest (microseconds seconds)))
  | .action (.device event) => .ofPair (world.performed event)
  | .action .pointer => .answered world.desk.position world
  | .action (.keyState code) => .answered (world.desk.keyState code) world
  | .action .windows => .answered (world.desk.windows.map (·.handle)) world
  | .action (.isVisible handle) => .ofPair (world.looked handle)
  | .action (.title handle) =>
    .answered (((world.desk.window? handle).map (·.title)).getD "") world
  | .action .clipboard => .answered world.desk.clipboard world
  | .action .clock => .answered world.clock world
  | .action .pass => .suspended .pass world id
  | .action (.sleep seconds) => .suspended (if seconds ≤ 0 then .pass else .timer seconds) world id
  | .action (.nap chunk seconds) =>
    match napStep world.signal chunk 0 seconds with
    | .over signalSet => .answered (.ok signalSet) world
    | .part time elapsed => .napping time chunk elapsed seconds id
  | .action .block => .suspended .never { world with blocked := true } id
  | .log line => .ofPair (world.logged rules line)
  | .report event => .ofPair (world.reported rules event)
  | .call label arguments => .ofPair (world.called rules label arguments)
  | .handover => .suspended .handover world id
  | .spawn index block =>
    .answered () ({ world with loops := world.loops + 1 }.order (.spawn index block))
  | .join tolerant =>
    if world.loops == 0 then .answered (.ok ()) world
    else .suspended (.loops tolerant) world id
  | .revokeLoops => .answered () (world.order .revokeLoops)

/-- Run an activity until it ends or has to wait. -/
def stretch {α : Type} (rules : Rules) (world : World) : RunActivity α → Stop α × World
  | .finished result => (.finished result, world)
  | .perform request next =>
    match react rules world request with
    | .answered answer after => stretch rules after (next answer)
    | .suspended wait after deliver =>
      (.suspended wait (.answer fun result => next (deliver result)), after)
    | .napping time chunk elapsed seconds deliver =>
      (.suspended (.timer time) (.nap chunk elapsed seconds fun result => next (deliver result)),
        world)

/-- Let a suspended activity go on. -/
def Resumption.resume {α : Type} (rules : Rules) (world : World) (resumption : Resumption α)
    (result : Except Interruption Unit) : Stop α × World :=
  match resumption with
  | .answer next => stretch rules world (next result)
  | .nap chunk elapsed seconds next =>
    match result with
    | .error interruption => stretch rules world (next (.error interruption))
    | .ok () =>
      match napStep world.signal chunk elapsed seconds with
      | .over signalSet => stretch rules world (next (.ok signalSet))
      | .part time after => (.suspended (.timer time) (.nap chunk after seconds next), world)

/-- An activity that has not begun.  If it is called off before, it never does anything. -/
def Resumption.begin {α : Type} (activity : RunActivity α) : Resumption α :=
  .answer fun
    | .ok () => activity
    | .error interruption => .finished (.error interruption)

end InputScript.Rehearsal
