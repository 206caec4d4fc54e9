import NamedContent.Session.Perform

/-!
# Sessions

A session carries out commands one after the other. After each of them the
world settles, and what ended tasks held is put back; a sender who is turned
away by that goes on with the next command. The report of a command holds its
own result, the time and the state of the buffer, and the earlier tasks that
ended meanwhile.
-/

set_option autoImplicit false

namespace NamedContent.Session

def statusOf (b : Buffer) : Status :=
  ⟨b.phase, b.size, b.unclaimed, b.pending.length, b.capacity⟩

def endedBefore (w : World) (n : Nat) : List Ended :=
  let earlier := w.ended.filter fun e => e.1 ≠ n
  (earlier.mergeSort fun a b => a.1 ≤ b.1).map fun e => ⟨e.1, e.2.1, e.2.2⟩

def taskResult (w : World) (n : Nat) : Result :=
  match w.ended.find? fun e => e.1 = n with
  | some e => e.2.2.map .answer
  | none => .ok .pending

def step (w : World) (n : Nat) (c : Command) : World × Report :=
  let (w, result) := perform { w with ended := [] } n c
  let w := w.settle.fileReturned
  (w, ⟨result.getD (taskResult w n), w.now, statusOf w.buffer, endedBefore w n⟩)

def steps : Nat → World → List Command → World × List Report
  | _, w, [] => (w, [])
  | n, w, c :: rest =>
    let (w, report) := step w n c
    let (w, reports) := steps (n + 1) w rest
    (w, report :: reports)

def unfinished (w : World) : List Nat := (w.tasks.map (·.1)).mergeSort

end NamedContent.Session
