import NamedContent.World.Serving
import NamedContent.World.Tasks

/-!
# First in, first out

The scheduler lets woken tasks go on in the order of their waking until none
is left, and then moves the clock to the next deadline. What the server has
deferred is woken when no other task is left, or after so many turns of
others. Each turn either ends a stage of some piece of work or leaves
everything as it was, and wakes each task once at most; so the number of turns
is bounded by the work in hand.
-/

set_option autoImplicit false

namespace NamedContent.World

def resume (w : World) : Runner → World
  | .task n => w.resumeTask n
  | .server => w.resumeServer

/-- How many stages a task has left at most. -/
def stages : Task → Nat
  | .writing _ _ _ rest => rest.blocks.length + 2
  | .expressing .. => 8
  | _ => 2

def work (w : World) : Nat :=
  (w.tasks.foldl (fun n t => n + stages t.2) 0) + 5 * w.network.interests.items.length +
    4 * w.inFlight

/-- A bound on the turns, and the wakings of what is deferred, until nothing is woken any more. -/
def turns (w : World) : Nat := 2 * (w.ready.length + (w.work + 1) * (w.tasks.length + 4))

/-- The turns after which deferred serves are woken, whatever else is. -/
def patience : Nat := 61

def isBehind (w : World) : Bool := (w.server.map (·.stepsBack)).getD false

def settleWithin : Nat → Nat → World → World
  | 0, _, w => w
  | turns+1, 0, w => settleWithin turns patience w.wakeDeferred
  | turns+1, due+1, w =>
    match w.ready with
    | [] => if w.isBehind then settleWithin turns patience w.wakeDeferred else w
    | r :: rest => settleWithin turns due ({ w with ready := rest }.resume r)

def settle (w : World) : World := settleWithin w.turns patience w

def fetchDeadline? : Task → Option Nat
  | .fetching _ _ deadline => some deadline
  | _ => none

def deadlines (w : World) : List Nat :=
  w.traffic.calls.map (·.2.deadline) ++ w.tasks.filterMap fun t => fetchDeadline? t.2

def wakeDue (w : World) : World :=
  let callers := (w.traffic.calls.filter fun c => c.2.deadline ≤ w.now).map (·.1)
  let fetches := w.tasks.filterMap fun t =>
    (fetchDeadline? t.2).bind fun d => if d ≤ w.now then some (Caller.task t.1) else none
  w.wakeAll (callers ++ fetches)

def tickTo (w : World) (time : Nat) : World := w.moved (.tick (time - w.now))

/-- Moves the clock to a time with a stop at each deadline on the way. Each
stop ends a stage of some piece of work. -/
def advanceWithin : Nat → Nat → World → World
  | 0, time, w => w.tickTo time
  | stops+1, time, w =>
    match w.deadlines.min? with
    | none => w.tickTo time
    | some deadline =>
      if deadline ≤ time then advanceWithin stops time ((w.tickTo deadline).wakeDue.settle)
      else w.tickTo time

def advance (w : World) (ms : Nat) : World :=
  let w := w.settle
  advanceWithin (w.work + 1) (w.now + ms) w

end NamedContent.World
