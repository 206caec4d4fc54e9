import NamedContent.Segmenter.Plan
import NamedContent.Traffic.Step
import NamedContent.Transport.Server

/-!
# A world of tasks

One buffer, one key ring, one network, at most one server, and any number of
segmenters, subscriptions, consumer ends and tasks. A task that uses a
segmenter or a consumer end holds it until the task ends, and it is put back
once nothing goes on any more. Whatever happens wakes tasks; the woken ones are
listed in the order of their waking, and a scheduler decides which of them goes
on.
-/

set_option autoImplicit false

namespace NamedContent

inductive Caller where
  | task (n : Nat)
  | serve (n : Nat)
  deriving DecidableEq, Repr

/-- What can go on: a task by itself, or the server with all its serves. -/
inductive Runner where
  | task (n : Nat)
  | server
  deriving DecidableEq, Repr

inductive Fault where
  | publish (error : PublishError)
  | transport (error : TransportError)
  | noSuchSubscription
  | noSuchSegmenter
  | noSuchFace
  | noInbound
  deriving DecidableEq, Repr

def Fault.message : Fault → String
  | .publish error => error.message
  | .transport error => error.message
  | _ => ""

/-- What a task takes from its place and holds until it ends. -/
inductive Loan where
  | segmenter (id : String) (state : Segmenter)
  | face (id : String) (channel : Nat)
  deriving DecidableEq, Repr

inductive Task where
  | calling
  | writing (segmenter : String) (state : Segmenter) (block : Block) (rest : Segmenter.Writing)
  | closing (segmenter : String) (state : Segmenter)
  /-- An interest waits for a place; a fetch waits for a block afterwards. -/
  | expressing (face : String) (channel : Nat) (interest : Interest) (fetch : Option Nat)
  | fetching (face : String) (channel : Nat) (deadline : Nat)
  | sending (channel : Nat) (block : Block)
  deriving DecidableEq, Repr

abbrev Outcome := Except Fault Answer

structure World where
  traffic : Traffic Caller
  keys : KeyRing
  segmenters : Table String Segmenter
  subscriptions : Table String Nat
  network : Network Caller
  faces : Table String Nat
  inbound : Bool
  server : Option Server
  tasks : List (Nat × Task)
  ready : List Runner
  ended : List (Nat × Nat × Outcome)
  /-- What ended tasks held, with their numbers, until it is put back. -/
  returned : List (Nat × Loan)

namespace World

def ofConfig (config : Buffer.Config) (key : Ed25519.SigningKey) : World :=
  { traffic := .ofConfig config, keys := .ofKey key, segmenters := .empty, subscriptions := .empty
    network := .empty, faces := .empty, inbound := false, server := none, tasks := [], ready := []
    ended := [], returned := [] }

def buffer (w : World) : Buffer := w.traffic.buffer

def now (w : World) : Nat := w.traffic.now

def enqueue (w : World) (r : Runner) : World :=
  if r ∈ w.ready then w else { w with ready := w.ready ++ [r] }

/-- A woken serve goes on when the server does. -/
def wake (w : World) : Caller → World
  | .task n => w.enqueue (.task n)
  | .serve n =>
    match w.server with
    | some s => if s.hears n then { w with server := some (s.wake n) }.enqueue .server else w
    | none => w

def wakeAll (w : World) (callers : List Caller) : World := callers.foldl wake w

def move (w : World) (m : Traffic.Move Caller) : World × Option (Except PublishError Answer) :=
  let turn := w.traffic.step m
  ({ w with traffic := turn.traffic }.wakeAll turn.woken, turn.answer)

def moved (w : World) (m : Traffic.Move Caller) : World := (w.move m).1

def task? (w : World) (n : Nat) : Option Task := (w.tasks.find? fun t => t.1 = n).map (·.2)

def setTask (w : World) (n : Nat) (t : Task) : World :=
  { w with tasks := (w.tasks.filter fun t => t.1 ≠ n) ++ [(n, t)] }

def dropTask (w : World) (n : Nat) : World := { w with tasks := w.tasks.filter fun t => t.1 ≠ n }

def finish (w : World) (n : Nat) (outcome : Outcome) : World :=
  { w.dropTask n with ended := w.ended ++ [(n, w.now, outcome)] }

def finishWith (w : World) (n : Nat) (loan : Loan) (outcome : Outcome) : World :=
  { w.finish n outcome with returned := w.returned ++ [(n, loan)] }

def wakeReceiver (w : World) (channel : Nat) : World :=
  w.tasks.foldl (fun w t => match t.2 with
    | .fetching _ c _ => if c = channel then w.enqueue (.task t.1) else w
    | _ => w) w

def setChannel (w : World) (i : Nat) (c : Channel Caller Block) : World :=
  { w with network := w.network.setChannel i c }

def setInterests (w : World) (c : Channel Caller (String × Interest)) : World :=
  { w with network := { w.network with interests := c } }

def publishOutcome (r : Except PublishError Answer) : Outcome := r.mapError .publish

end World

end NamedContent
