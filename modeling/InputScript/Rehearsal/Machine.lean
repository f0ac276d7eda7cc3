/-
Module: InputScript.Rehearsal.Machine
Purpose: The machine that interleaves the activities of a run on a virtual clock.  Notices wait in a
  queue; the clock moves only when the queue is empty, and then to the earliest timer.
Main exports: Notice, Task, Machine, Machine.turn, Machine.run
-/
import InputScript.Rehearsal.Stretch

namespace InputScript.Rehearsal

open Run Number

/-! ### Tasks -/

/-- A task of a run: the walk through the program, or one of its loops by number. -/
inductive TaskId where
  | walk
  | loop (number : Nat)
  deriving DecidableEq, Repr

/-- Something that the machine has to attend to. -/
inductive Notice where
  /-- Let a task go on. -/
  | resume (task : TaskId)
  /-- A wait of a task is over; the ticket tells its waits apart. -/
  | deliver (task : TaskId) (ticket : Nat)
  /-- A wait for the loops hears that one of them has ended. -/
  | loopEnded (number join : Nat)
  /-- Have the run stopped. -/
  | stop
  /-- Call off the walk. -/
  | revoke
  /-- The walk has ended. -/
  | finish
  deriving DecidableEq, Repr

/-- Where a task stands. -/
inductive Task (α : Type) where
  /-- It goes on when its notice comes up; a task that is called off by then learns of that. -/
  | queued (resumption : Resumption α) (result : Except Interruption Unit) (revoked : Bool)
  /-- It waits.  A task that was called off in vain learns of it after the wait. -/
  | waiting (ticket : Nat) (join : Option Nat) (resumption : Resumption α) (revoked : Bool)
  | ended (result : Except Interruption α)

namespace Task

variable {α : Type}

/-- A task that has not begun. -/
def begin (activity : RunActivity α) : Task α :=
  .queued (.begin activity) (.ok ()) false

/-- The result of a task that has ended. -/
def result? : Task α → Option (Except Interruption α)
  | .ended result => some result
  | _ => none

/-- Whether a task has ended. -/
def isEnded (task : Task α) : Bool :=
  task.result?.isSome

end Task

/-- A loop, and the waits for loops that want to hear of its end. -/
structure LoopTask where
  task : Task LoopStep
  watchers : List Nat := []

/-- A loop whose end a wait wants to hear of, unless it has ended. -/
def LoopTask.watchedBy (loop : LoopTask) (join : Nat) : LoopTask :=
  if loop.task.isEnded then loop else { loop with watchers := loop.watchers ++ [join] }

/-- A wait for the loops. -/
structure JoinState where
  tolerant : Bool
  /-- The number of loops that have not been heard of. -/
  missing : Nat
  /-- Whether the wait was called off while loops were running. -/
  revoked : Bool := false
  settled : Bool := false

/-- A notice at a time. -/
structure Timer where
  due : Nat
  notice : Notice

/-! ### The machine -/

/-- The state of a run with result type `ρ`. -/
structure Machine (ρ : Type) where
  world : World := {}
  /-- The notices that wait, the next one first. -/
  ready : List Notice := []
  /-- The timers in the order in which they were made. -/
  timers : List Timer := []
  /-- The number of tickets given out. -/
  tickets : Nat := 0
  walk : Task ρ
  loops : List LoopTask := []
  joins : List JoinState := []
  /-- Whether the end of the walk was noticed. -/
  isOver : Bool := false

namespace Machine

variable {ρ : Type}

/-- Put a notice at the end of the queue. -/
def push (machine : Machine ρ) (notice : Notice) : Machine ρ :=
  { machine with ready := machine.ready ++ [notice] }

/-- The time at which a timer of so many seconds is due. -/
def dueTime (clock : Nat) (seconds : Float) : Option Nat :=
  let now := ofInteger clock / 1000000.0
  ((roundToInteger ((now + seconds) * 1000000.0)).toOption).map Int.toNat

/-- Make a timer. -/
def addTimer (machine : Machine ρ) (seconds : Float) (notice : Notice) : Machine ρ :=
  match dueTime machine.world.clock seconds with
  | some due => { machine with timers := machine.timers ++ [⟨due, notice⟩] }
  | none => machine

/-- A machine before the first turn of the walk. -/
def start (world : World) (walk : RunActivity ρ) : Machine ρ :=
  { world := world, ready := [.resume .walk], walk := .begin walk }

/-! ### Single tasks -/

/-- Change one loop. -/
def modifyLoop (machine : Machine ρ) (number : Nat) (change : LoopTask → LoopTask) : Machine ρ :=
  { machine with loops := machine.loops.modify number change }

/-- Put a loop task in a state. -/
def setLoop (machine : Machine ρ) (number : Nat) (task : Task LoopStep) : Machine ρ :=
  machine.modifyLoop number fun loop => { loop with task := task }

/-- Remove the timers of a wait. -/
def dropWait (machine : Machine ρ) (task : TaskId) (ticket : Nat) : Machine ρ :=
  { machine with timers := machine.timers.filter (·.notice != .deliver task ticket) }

/-- Call off a loop.  The result says whether it was still running. -/
def revokeLoop (machine : Machine ρ) (number : Nat) : Bool × Machine ρ :=
  match machine.loops[number]? with
  | some ⟨.queued resumption result _, _⟩ =>
    (true, machine.setLoop number (.queued resumption result true))
  | some ⟨.waiting ticket _ resumption _, _⟩ =>
    (true, ((machine.dropWait (.loop number) ticket).setLoop number
      (.queued resumption (.error .revoked) false)).push (.resume (.loop number)))
  | _ => (false, machine)

/-- Call off all loops in order.  The result says whether some of them were still running. -/
def revokeAll (machine : Machine ρ) : Bool × Machine ρ :=
  (List.range machine.loops.length).foldl
    (fun (running, current) number =>
      let (revoked, after) := current.revokeLoop number
      (running || revoked, after))
    (false, machine)

/-- Call off the walk.  A walk that waits for its loops has them called off, and is resumed when it
hears of their end. -/
def revoke (machine : Machine ρ) : Machine ρ :=
  match machine.walk with
  | .ended _ => machine
  | .queued resumption result _ => { machine with walk := .queued resumption result true }
  | .waiting ticket none resumption _ =>
    ({ machine.dropWait .walk ticket with
      walk := .queued resumption (.error .revoked) false }).push (.resume .walk)
  | .waiting ticket (some join) resumption _ =>
    let (running, after) := machine.revokeAll
    if running then
      { after with joins := after.joins.modify join fun state => { state with revoked := true } }
    else { after with walk := .waiting ticket (some join) resumption true }

/-! ### Waits -/

/-- The numbers of the loops that have ended. -/
def endedLoops (machine : Machine ρ) : List Nat :=
  (List.range machine.loops.length).filter fun number =>
    machine.loops[number]?.any (·.task.isEnded)

/-- The state of a task that begins to wait, and what the machine notes for it. -/
def suspend {α : Type} (machine : Machine ρ) (task : TaskId) (wait : Wait)
    (resumption : Resumption α) : Task α × Machine ρ :=
  let ticket := machine.tickets
  let counted := { machine with tickets := ticket + 1 }
  match wait with
  | .pass => (.queued resumption (.ok ()) false, counted.push (.resume task))
  | .timer seconds =>
    (.waiting ticket none resumption false, counted.addTimer seconds (.deliver task ticket))
  | .handover => (.waiting ticket none resumption false, counted.push (.deliver task ticket))
  | .never => (.waiting ticket none resumption false, counted)
  | .loops tolerant =>
    let join := counted.joins.length
    (.waiting ticket (some join) resumption false,
      { counted with
        joins := counted.joins ++ [{ tolerant := tolerant, missing := counted.loops.length }]
        loops := counted.loops.map (·.watchedBy join)
        ready := counted.ready ++ counted.endedLoops.map (.loopEnded · join) })

/-- A task whose wait with the given ticket is over. -/
def deliverTo {α : Type} (task : Task α) (ticket : Nat) (result : Except Interruption Unit) :
    Option (Task α) :=
  match task with
  | .waiting current _ resumption revoked =>
    if current == ticket then some (.queued resumption result revoked) else none
  | _ => none

/-- The wait of a task is over. -/
def deliver (machine : Machine ρ) (task : TaskId) (ticket : Nat)
    (result : Except Interruption Unit) : Machine ρ :=
  match task with
  | .walk =>
    match deliverTo machine.walk ticket result with
    | some walk => ({ machine with walk := walk }).push (.resume .walk)
    | none => machine
  | .loop number =>
    match machine.loops[number]?.bind fun loop => deliverTo loop.task ticket result with
    | some queued => (machine.setLoop number queued).push (.resume (.loop number))
    | none => machine

/-- Settle a wait for the loops. -/
def settleJoin (machine : Machine ρ) (join : Nat) (result : Except Interruption Unit) :
    Machine ρ :=
  let settled :=
    { machine with joins := machine.joins.modify join fun state => { state with settled := true } }
  match settled.walk with
  | .waiting ticket (some current) _ _ =>
    if current == join then settled.deliver .walk ticket result else settled
  | _ => settled

/-- A wait for the loops hears that one of them has ended. -/
def hearLoop (machine : Machine ρ) (number join : Nat) : Machine ρ :=
  match machine.joins[join]? with
  | none => machine
  | some state =>
    let missing := state.missing - 1
    let heard := { machine with joins := machine.joins.set join { state with missing := missing } }
    if state.settled then heard
    else
      match machine.loops[number]?.bind (·.task.result?), state.tolerant with
      | some (.error interruption), false => heard.settleJoin join (.error interruption)
      | _, _ =>
        if missing == 0 then
          heard.settleJoin join (if state.revoked then .error .revoked else .ok ())
        else heard

/-! ### Running -/

/-- Carry out an order. -/
def carryOut (registry : Catalog.Registry) (machine : Machine ρ) : Command → Machine ρ
  | .spawn index block =>
    ({ machine with
      loops := machine.loops ++ [LoopTask.mk (.begin (beginLoop registry index block)) []] }).push
        (.resume (.loop machine.loops.length))
  | .revokeLoops => machine.revokeAll.2

/-- Carry out the orders of a stretch. -/
def obey (registry : Catalog.Registry) (machine : Machine ρ) : Machine ρ :=
  machine.world.commands.reverse.foldl (carryOut registry)
    { machine with world := { machine.world with commands := [] } }

/-- The result that a queued task goes on with. -/
def resumeResult (result : Except Interruption Unit) (revoked : Bool) : Except Interruption Unit :=
  if revoked then .error .revoked else result

/-- Where a stretch of a loop stops: the end of a pass is a wait for the next one. -/
def loopStop (registry : Catalog.Registry) : Stop LoopStep → Stop LoopStep
  | .finished (.ok (.again .pass next)) => .suspended .pass (.begin (turn registry next))
  | .finished (.ok (.again .nap next)) =>
    .suspended (.timer Action.napChunk) (.nap Action.napChunk Action.napChunk Action.napChunk fun
      | .ok _ => turn registry next
      | .error interruption => .finished (.error interruption))
  | stop => stop

/-- Let the walk go on. -/
def resumeWalk (registry : Catalog.Registry) (rules : Rules) (machine : Machine ρ) : Machine ρ :=
  match machine.walk with
  | .queued resumption result revoked =>
    let (stop, world) := resumption.resume rules machine.world (resumeResult result revoked)
    let after := obey registry { machine with world := world }
    match stop with
    | .finished outcome => ({ after with walk := .ended outcome }).push .finish
    | .suspended wait next =>
      let (walk, waiting) := after.suspend .walk wait next
      { waiting with walk := walk }
  | _ => machine

/-- A loop has ended; the waits that want to hear of it are told. -/
def endLoop (machine : Machine ρ) (number : Nat) (outcome : Except Interruption LoopStep) :
    Machine ρ :=
  match machine.loops[number]? with
  | some loop =>
    { machine.setLoop number (.ended outcome) with
      ready := machine.ready ++ loop.watchers.map (.loopEnded number ·) }
  | none => machine

/-- Let a loop go on. -/
def resumeLoop (registry : Catalog.Registry) (rules : Rules) (machine : Machine ρ) (number : Nat) :
    Machine ρ :=
  match machine.loops[number]? with
  | some ⟨.queued resumption result revoked, _⟩ =>
    let (stop, world) := resumption.resume rules machine.world (resumeResult result revoked)
    let after := obey registry { machine with world := world }
    match loopStop registry stop with
    | .finished outcome => after.endLoop number outcome
    | .suspended wait next =>
      let (task, waiting) := after.suspend (.loop number) wait next
      waiting.setLoop number task
  | _ => machine

/-- Attend to a notice.  Nothing happens after the end of the walk was noticed. -/
def attend (registry : Catalog.Registry) (rules : Rules) (machine : Machine ρ) (notice : Notice) :
    Machine ρ :=
  if machine.isOver then machine
  else
    match notice with
    | .resume .walk => machine.resumeWalk registry rules
    | .resume (.loop number) => machine.resumeLoop registry rules number
    | .deliver task ticket => machine.deliver task ticket (.ok ())
    | .loopEnded number join => machine.hearLoop number join
    | .stop => { machine with world := machine.world.stop }
    | .revoke => machine.revoke
    | .finish => { machine with isOver := true }

/-- The time of the earliest timer. -/
def earliest? (machine : Machine ρ) : Option Nat :=
  (machine.timers.map (·.due)).min?

/-- Move the clock to the earliest timer if nothing else is to be done. -/
def moveClock (machine : Machine ρ) : Machine ρ :=
  match machine.ready, machine.earliest? with
  | [], some due =>
    { machine with world := { machine.world with clock := max machine.world.clock due } }
  | _, _ => machine

/-- Put the notices of all timers that are due at the end of the queue, the earliest first. -/
def expire (machine : Machine ρ) : Machine ρ :=
  let due := machine.timers.filter (·.due ≤ machine.world.clock)
  let inOrder := due.mergeSort fun first second => first.due ≤ second.due
  { machine with
    ready := machine.ready ++ inOrder.map (·.notice)
    timers := machine.timers.filter fun timer => !(timer.due ≤ machine.world.clock) }

/-- One turn: the notices that wait now are attended to; those that they lead to wait for the next
turn. -/
def turn (registry : Catalog.Registry) (rules : Rules) (machine : Machine ρ) : Machine ρ :=
  let prepared := machine.moveClock.expire
  prepared.ready.foldl (attend registry rules) { prepared with ready := [] }

/-- Whether no further turn can change anything. -/
def isIdle (machine : Machine ρ) : Bool :=
  machine.isOver || (machine.ready.isEmpty && machine.timers.isEmpty)

/-- Take turns until the end of the walk was noticed, at most so many. -/
def run (registry : Catalog.Registry) (rules : Rules) : Nat → Machine ρ → Machine ρ
  | 0, machine => machine
  | turns + 1, machine =>
    if machine.isIdle then machine else run registry rules turns (machine.turn registry rules)

end Machine

end InputScript.Rehearsal
