import Mathlib
import NamedContent.Proofs.Server.Aside
import NamedContent.Session.Run

/-!
# What happens while a server runs

Commands are carried out and tasks go on, the server takes interests from the stream
and looks at those in flight, and time goes by, each in any order and as often as may
be. So what holds after all sequences of such occurrences holds whichever of the waiting
tasks and serves go on first. Every session is such a sequence.
-/

set_option autoImplicit false

namespace NamedContent

def Session.Command.isAdvance : Session.Command → Bool
  | .advance _ => true
  | _ => false

namespace World

inductive Occurrence where
  | command (n : Nat) (c : Session.Command) (instant : c.isAdvance = false)
  | resume (n : Nat)
  | take
  | look (id left : Nat)
  | tick (ms : Nat)
  | putBack
  | arrange (ready : List Runner) (woken deferred : List Nat) (yielded : Bool)

def serve? (w : World) (id : Nat) : Option Serve := w.server.bind (·.serve? id)

def lookAt (w : World) (id left : Nat) : World :=
  match w.serve? id with
  | some v => (w.look ((w.server.map (·.timeout)).getD 0) left v).1
  | none => w

def occur (w : World) : Occurrence → World
  | .command n c _ => (Session.perform { w with ended := [] } n c).1
  | .resume n => w.resumeTask n
  | .take => if w.server.isSome then w.takeInterests 1 else w
  | .look id left => w.lookAt id left
  | .tick ms => w.moved (.tick ms)
  | .putBack => w.fileReturned
  | .arrange ready woken deferred yielded =>
    { w with ready, server := w.server.map fun s => { s with ready := woken, deferred, yielded } }

/-- The world after a sequence of occurrences. -/
def course (w : World) : List Occurrence → World
  | [] => w
  | o :: rest => (w.occur o).course rest

theorem course_append (w : World) (os rest : List Occurrence) :
    w.course (os ++ rest) = (w.course os).course rest := by
  induction os generalizing w with
  | nil => rfl
  | cons o os ih => exact ih (w.occur o)

def Follows (w w' : World) : Prop := ∃ os, w' = w.course os

variable {w w' w'' : World}

theorem Follows.refl (w : World) : Follows w w := ⟨[], rfl⟩

theorem Follows.trans (h : Follows w w') (h' : Follows w' w'') : Follows w w'' := by
  obtain ⟨os, rfl⟩ := h
  obtain ⟨os', rfl⟩ := h'
  exact ⟨os ++ os', (course_append w os os').symm⟩

theorem Follows.of_occur (o : Occurrence) : Follows w (w.occur o) := ⟨[o], rfl⟩

theorem Follows.of_order {server : Option Server} {ready : List Runner}
    (same : server.map Server.unordered = w.server.map Server.unordered) :
    Follows w { w with server, ready } := by
  cases server with
  | none =>
    have none : w.server = none := by
      rw [← Option.map_eq_none_iff, ← same]
      rfl
    refine ⟨[.arrange ready [] [] false], ?_⟩
    show _ = { w with ready, server := w.server.map _ }
    rw [none]
    rfl
  | some s' =>
    obtain ⟨s, running, same⟩ := Option.map_eq_some_iff.mp same.symm
    refine ⟨[.arrange ready s'.ready s'.deferred s'.yielded], ?_⟩
    show _ = { w with ready, server := w.server.map _ }
    rw [running]
    cases s
    cases s'
    cases same
    rfl

theorem follows_wakeAll (w : World) (cs : List Caller) : Follows w (w.wakeAll cs) := by
  have same := ((Aside.refl w).wakeAll cs).server
  obtain ⟨server, ready, eq⟩ := w.wakeAll_eq cs
  rw [eq] at same ⊢
  exact .of_order same

theorem follows_enqueue (w : World) (r : Runner) : Follows w (w.enqueue r) := by
  obtain ⟨ready, eq⟩ := w.enqueue_eq r
  rw [eq]
  exact .of_order rfl

theorem follows_wakeDeferred (w : World) : Follows w w.wakeDeferred := by
  rw [wakeDeferred]
  split
  · exact .refl w
  · rename_i s running
    have woken : Follows w { w with server := some s.wakeDeferred } := by
      refine .of_order ?_
      rw [running]
      exact congrArg some (Server.unordered_wakeDeferred s)
    dsimp only
    split
    · exact woken.trans (follows_enqueue _ _)
    · exact woken

theorem takeInterests_one (w : World) :
    w.network.interests.receive.1 = none ∧ w.takeInterests 1 = w ∨
    ∃ face interest interests woken,
      w.network.interests.receive = (some (face, interest), interests, woken) ∧
      w.takeInterests 1 = ((w.setInterests interests).wakeAll woken.toList).onServer
        (·.accept face interest) := by
  rw [takeInterests]
  rcases w.network.interests.receive with ⟨_ | ⟨face, interest⟩, interests, woken⟩
  · exact .inl ⟨rfl, rfl⟩
  · exact .inr ⟨face, interest, interests, woken, rfl, rfl⟩

theorem takeInterests_succ (w : World) (count : Nat) :
    w.takeInterests (count + 1) = (w.takeInterests 1).takeInterests count := by
  obtain ⟨nothing, same⟩ | ⟨face, interest, interests, woken, found, one⟩ := w.takeInterests_one
  · rw [same]
    generalize received : w.network.interests.receive = r at nothing
    obtain ⟨_ | item, rest⟩ := r
    · cases count with
      | zero => exact same
      | succ count => rw [takeInterests, takeInterests, received]
    · contradiction
  · rw [one, takeInterests, found]

theorem takeInterests_one_running (running : w.server.isSome = true) :
    (w.takeInterests 1).server.isSome = true := by
  obtain ⟨-, same⟩ | ⟨face, interest, interests, woken, -, one⟩ := w.takeInterests_one
  · rw [same]
    exact running
  · have woken :
        Worked 0 Traffic.Move.Foreign w ((w.setInterests interests).wakeAll woken.toList) :=
      (Worked.refl.setInterests interests).wakeAll woken.toList
    have same := woken.aside.server
    rw [one, onServer, Option.isSome_map, ← Option.isSome_map, same, Option.isSome_map]
    exact running

theorem follows_takeInterests (running : w.server.isSome = true) (count : Nat) :
    Follows w (w.takeInterests count) := by
  induction count generalizing w with
  | zero => exact .refl w
  | succ count ih =>
    have first : Follows w (w.takeInterests 1) := by
      have here : w.occur .take = w.takeInterests 1 := if_pos running
      exact here ▸ .of_occur .take
    rw [takeInterests_succ]
    exact first.trans (ih (takeInterests_one_running running))

theorem follows_look {s : Server} (running : w.server = some s) {v : Serve} {s' : Server}
    (next : s.next? = some (v, s')) (left : Nat) :
    Follows w (({ w with server := some s' }).look s'.timeout left v).1 := by
  rw [Server.next?] at next
  split at next
  · contradiction
  · obtain ⟨v', found, same⟩ := Option.map_eq_some_iff.mp next
    cases same
    rename_i id rest _
    have arranged : Follows w { w with server := some { s with ready := rest } } := by
      refine .of_order ?_
      rw [running]
      rfl
    refine arranged.trans ⟨[.look id left], ?_⟩
    show _ = lookAt _ _ _
    rw [lookAt, World.serve?]
    dsimp only [Option.bind_some]
    rw [show Server.serve? { s with ready := rest } id = some v from found]
    rfl

theorem follows_round (looks left : Nat) : Follows w (round looks left w).1 := by
  induction looks generalizing w left with
  | zero => exact follows_enqueue w .server
  | succ looks ih =>
    rw [round]
    split
    · exact .refl w
    · rename_i s running
      split
      · exact .refl w
      · rename_i v s' next
        dsimp only
        split
        · exact (follows_look running next left).trans (ih _)
        · exact follows_look running next left

theorem follows_rounds (count left : Nat) : Follows w (rounds count left w) := by
  induction count generalizing w left with
  | zero => exact .refl w
  | succ count ih =>
    rw [rounds]
    split
    · show Follows w { w with server := w.server.map Server.yield, ready := w.ready }
      refine .of_order ?_
      rw [Option.map_map]
      rfl
    · have first : Follows w (round w.inFlight left w).1 := follows_round _ _
      split
      · rename_i ended
        rw [ended] at first
        exact first.trans (ih _)
      · rename_i ended
        rw [ended] at first
        exact first

theorem follows_resume (w : World) (r : Runner) : Follows w (w.resume r) := by
  cases r with
  | task n => exact .of_occur (.resume n)
  | server =>
    rw [resume, resumeServer]
    split
    · exact .refl w
    · rename_i present
      refine (follows_takeInterests ?_ _).trans (follows_rounds _ _)
      cases running : w.server with
      | none => rw [running] at present; contradiction
      | some s => rfl

theorem follows_settleWithin (turns due : Nat) : Follows w (settleWithin turns due w) := by
  induction turns generalizing w due with
  | zero => exact .refl w
  | succ turns ih =>
    cases due with
    | zero => exact (follows_wakeDeferred w).trans (ih _)
    | succ due =>
      rw [settleWithin]
      split
      · split
        · exact (follows_wakeDeferred w).trans (ih _)
        · exact .refl w
      · rename_i r rest _
        have popped : Follows w { w with ready := rest } := .of_order rfl
        exact popped.trans ((follows_resume _ r).trans (ih _))

theorem follows_settle (w : World) : Follows w w.settle := follows_settleWithin _ _

theorem follows_advanceWithin (stops time : Nat) : Follows w (advanceWithin stops time w) := by
  have ticked (w : World) (time : Nat) : Follows w (w.tickTo time) :=
    .of_occur (.tick (time - w.now))
  induction stops generalizing w with
  | zero => exact ticked w time
  | succ stops ih =>
    rw [advanceWithin]
    split
    · exact ticked w time
    · split
      · refine (ticked w _).trans ((follows_wakeAll _ _).trans ((follows_settle _).trans ih))
      · exact ticked w time

theorem follows_step (w : World) (n : Nat) (c : Session.Command) :
    Follows w (Session.step w n c).1 := by
  have performed : Follows w (Session.perform { w with ended := [] } n c).1 := by
    cases instant : c.isAdvance with
    | false => exact .of_occur (.command n c instant)
    | true =>
      cases c with
      | advance ms =>
        -- the report of ended tasks begins anew with any command
        have begun : Follows w { w with ended := [] } :=
          .of_occur (.command n .namespaces rfl)
        exact begun.trans ((follows_settle _).trans (follows_advanceWithin _ _))
      | _ => contradiction
  exact performed.trans ((follows_settle _).trans (.of_occur .putBack))

/-- Every session is a sequence of occurrences. -/
theorem follows_steps (n : Nat) (w : World) (commands : List Session.Command) :
    Follows w (Session.steps n w commands).1 := by
  induction commands generalizing n w with
  | nil => exact .refl w
  | cons c rest ih => exact (follows_step w n c).trans (ih (n + 1) _)

end World

end NamedContent
