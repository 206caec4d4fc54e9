import NamedContent.Buffer.Insertion
import NamedContent.Buffer.Retrieval

/-!
# Calls in progress

A put, a request or a wait for readers that does not end at once becomes a
call: it waits for a notice until its deadline. The deadline is set when the
call begins and never moves. The clock counts milliseconds.
-/

set_option autoImplicit false

namespace NamedContent

inductive Slot where
  | empty
  | handed (block : Block)
  | released
  deriving DecidableEq, Repr

inductive Call where
  /-- A put that waits for room; `woken` since there may be some. -/
  | put (block : Block) (deadline : Nat) (woken : Bool)
  | request (id : Nat) (deadline : Nat) (slot : Slot)
  /-- A wait until every block has had a reader, by itself or as a part of closing. -/
  | drain (closing : Bool) (started deadline : Nat) (woken : Bool)
  deriving DecidableEq, Repr

structure DrainReport where
  unclaimed : Nat
  timedOut : Bool
  waited : Nat
  deriving DecidableEq, Repr, Inhabited

def DrainReport.isClean (r : DrainReport) : Bool := r.unclaimed = 0 && !r.timedOut

inductive Answer where
  | done
  | block (block : Block)
  | nothing
  | report (report : DrainReport)
  | flag (value : Bool)
  | count (n : Nat)
  | registered (id : Nat)
  | reading (reading : Buffer.Reading)
  deriving DecidableEq, Repr

namespace Call

def deadline : Call → Nat
  | put _ d _ => d
  | request _ d _ => d
  | drain _ _ d _ => d

def hear? : Call → Notice → Option Call
  | put block d _, .space => some (put block d true)
  | drain closing started d _, .claimed => some (drain closing started d true)
  | request id d .empty, .handed id' block =>
    if id = id' then some (request id d (.handed block)) else none
  | request id d .empty, .released id' => if id = id' then some (request id d .released) else none
  | _, _ => none

end Call

end NamedContent
