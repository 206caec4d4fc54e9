import Mathlib
import NamedContent.Proofs.Buffer.Calm
import NamedContent.Proofs.Traffic.Calls

/-!
# Keeping account of deliveries

The account of a run numbers the insertions and writes a receipt for every
request that is answered with a block. A receipt names the insertion that the
block comes from: the one that filed the entry, or the one that handed the
block to the request while it waited.
-/

set_option autoImplicit false

namespace NamedContent

namespace Traffic

variable {κ : Type} [DecidableEq κ]

def putBlock? (t : Traffic κ) : Move κ → Option Block
  | .put _ block => some block
  | .resume who =>
    match t.call? who with
    | some (.put block _ _) => some block
    | _ => none
  | _ => none

def requester? (t : Traffic κ) : Move κ → Option κ
  | .request who _ _ => some who
  | .resume who =>
    match t.call? who with
    | some (.request _ _ _) => some who
    | _ => none
  | _ => none

/-- The block that the move puts into the buffer: its put ends well. -/
def inserts? (t : Traffic κ) (m : Move κ) : Option Block :=
  match (t.step m).answer with
  | some (.ok _) => t.putBlock? m
  | _ => none

/-- The caller whose request the move answers with a block, and the block. -/
def returns? (t : Traffic κ) (m : Move κ) : Option (κ × Block) :=
  match (t.step m).answer with
  | some (.ok (.block block)) => (t.requester? m).map fun who => (who, block)
  | _ => none

def slot? (t : Traffic κ) (who : κ) : Option Slot :=
  match t.call? who with
  | some (.request _ _ slot) => some slot
  | _ => none

def handsTo (t : Traffic κ) (m : Move κ) (who : κ) : Bool :=
  match t.slot? who, (t.step m).traffic.slot? who with
  | some .empty, some (.handed _) => true
  | _, _ => false

end Traffic

/-- The answer of a request with a block. -/
structure Receipt where
  interest : Option Interest
  block : Block
  /-- The number of the insertion that the block comes from. -/
  insertion : Option Nat
  /-- How many insertions there had been. -/
  earlier : Nat

structure Account (κ : Type) where
  inserted : List Block
  /-- The last request of each caller. -/
  asked : κ → Option Interest
  /-- The insertion that last handed a block to a waiting request of the caller. -/
  custody : κ → Option Nat
  receipts : List Receipt

namespace Account

variable {κ : Type} [DecidableEq κ]

omit [DecidableEq κ] in
def empty : Account κ := ⟨[], fun _ => none, fun _ => none, []⟩

def askedAfter (a : Account κ) (t : Traffic κ) : Traffic.Move κ → κ → Option Interest
  | .request who interest _ =>
    if (t.call? who).isSome then a.asked else Function.update a.asked who (some interest)
  | _ => a.asked

/-- A resumed request has been handed its block, any other takes it from the buffer. -/
def source? (a : Account κ) (t : Traffic κ) : Traffic.Move κ → Block → Option Nat
  | .resume who, _ => a.custody who
  | _, block => (t.buffer.entries.find? block.name).map (·.order)

def next (a : Account κ) (t : Traffic κ) (m : Traffic.Move κ) : Account κ where
  inserted := a.inserted ++ (t.inserts? m).toList
  asked := a.askedAfter t m
  custody := fun who => if t.handsTo m who then some a.inserted.length else a.custody who
  receipts := a.receipts ++ ((t.returns? m).map fun r =>
    ⟨a.askedAfter t m r.1, r.2, a.source? t m r.2, a.inserted.length⟩).toList

def through (a : Account κ) (t : Traffic κ) : List (Traffic.Move κ) → Account κ
  | [] => a
  | m :: rest => (a.next t m).through (t.step m).traffic rest

end Account

namespace Traffic

variable {κ : Type} [DecidableEq κ] {t : Traffic κ} {m : Move κ} {f : Effect κ}

/-- What a move means for the account: it files a block, it serves a request
from the buffer, it fetches a block that was handed over, or none of these. -/
inductive Trade (t : Traffic κ) (m : Move κ) (f : Effect κ) : Prop where
  | files {who : κ} {block : Block} {deadline : Nat} (puts : t.Puts m who block deadline f.kept)
      (tried : t.buffer.tryInsert block = .filed f.buffer f.notices) (added : f.added = [])
      (inserts : t.inserts? m = some block) (returns : t.returns? m = none)
  | serves {who : κ} {interest : Interest} {timeout : Nat} {block : Block}
      (move : m = .request who interest timeout) (free : t.call? who = none)
      (taken : t.buffer.take? interest = some (block, f.buffer)) (kept : f.kept = t.calls)
      (notices : f.notices = f.buffer.deliveryNotices) (added : f.added = [])
      (inserts : t.inserts? m = none) (returns : t.returns? m = some (who, block))
  | fetches {who : κ} {id deadline : Nat} {block : Block} (move : m = .resume who)
      (waits : t.call? who = some (.request id deadline (.handed block)))
      (kept : f.kept = (t.withoutCall who).calls) (buffer : f.buffer = t.buffer)
      (notices : f.notices = []) (added : f.added = [])
      (inserts : t.inserts? m = none) (returns : t.returns? m = some (who, block))
  | neither (calm : t.buffer.Calm f.buffer f.notices)
      (inserts : t.inserts? m = none) (returns : t.returns? m = none)

theorem inserts?_none (answer : (t.step m).answer = f.answer) (ends : f.answer = none ∨
    (∃ e, f.answer = some (.error e)) ∨ t.putBlock? m = none) : t.inserts? m = none := by
  rw [inserts?, answer]
  obtain none | ⟨e, err⟩ | other := ends
  · rw [none]
  · rw [err]
  · split
    · exact other
    · rfl

theorem returns?_none (answer : (t.step m).answer = f.answer) (ends : f.answer = none ∨
    (∃ e, f.answer = some (.error e)) ∨ f.answer = some (.ok .nothing) ∨ t.requester? m = none) :
    t.returns? m = none := by
  rw [returns?, answer]
  obtain none | ⟨e, err⟩ | nothing | other := ends
  · rw [none]
  · rw [err]
  · rw [nothing]
  · split
    · rw [other]
      rfl
    · rfl

theorem Puts.putBlock? {who : κ} {block : Block} {deadline : Nat} {kept : List (κ × Call)}
    (puts : t.Puts m who block deadline kept) :
    t.putBlock? m = some block ∧ t.requester? m = none := by
  cases puts with
  | begun => exact ⟨rfl, rfl⟩
  | resumed waits => simp [Traffic.putBlock?, requester?, waits]

theorem Drains.putBlock? {who : κ} {closing : Bool} {started deadline : Nat}
    {kept : List (κ × Call)} (drains : t.Drains m who closing started deadline kept) :
    t.putBlock? m = none ∧ t.requester? m = none := by
  cases drains with
  | begun => exact ⟨rfl, rfl⟩
  | resumed waits => simp [Traffic.putBlock?, requester?, waits]

theorem resume_request {who : κ} {id deadline : Nat} {slot : Slot}
    (waits : t.call? who = some (.request id deadline slot)) :
    t.putBlock? (.resume who) = none ∧ t.requester? (.resume who) = some who := by
  simp [putBlock?, requester?, waits]

theorem Outcome.trade (outcome : t.Outcome m f) (answer : (t.step m).answer = f.answer) :
    t.Trade m f := by
  have same := Buffer.Calm.refl t.buffer
  -- a move that begins no put and no request, whatever it answers
  have aside (calm : t.buffer.Calm f.buffer f.notices) (put : t.putBlock? m = none)
      (request : t.requester? m = none) : t.Trade m f :=
    .neither calm (inserts?_none answer (.inr (.inr put)))
      (returns?_none answer (.inr (.inr (.inr request))))
  have silent (calm : t.buffer.Calm f.buffer f.notices) (none : f.answer = none) : t.Trade m f :=
    .neither calm (inserts?_none answer (.inl none)) (returns?_none answer (.inl none))
  have fails (calm : t.buffer.Calm f.buffer f.notices) (e : PublishError)
      (err : f.answer = some (.error e)) : t.Trade m f :=
    .neither calm (inserts?_none answer (.inr (.inl ⟨e, err⟩)))
      (returns?_none answer (.inr (.inl ⟨e, err⟩)))
  cases outcome with
  | idle => exact silent same rfl
  | tick => exact aside same rfl rfl
  | refused => exact fails same _ rfl
  | filed puts tried =>
    obtain ⟨put, request⟩ := puts.putBlock?
    refine .files puts tried rfl ?_ (returns?_none answer (.inr (.inr (.inr request))))
    rw [inserts?, answer]
    exact put
  | overfull puts tried =>
    obtain ⟨rfl, -⟩ := Buffer.tryInsert_full tried
    exact fails (t.buffer.makeRoom_calm _) _ rfl
  | blocked puts tried =>
    obtain ⟨rfl, -⟩ := Buffer.tryInsert_full tried
    exact silent (t.buffer.makeRoom_calm _) rfl
  | expired => exact fails same _ rfl
  | denied => exact fails same _ rfl
  | served free phase taken =>
    refine .serves rfl free taken rfl rfl rfl (inserts?_none answer (.inr (.inr rfl))) ?_
    rw [returns?, answer]
    rfl
  | missed =>
    exact .neither ((t.buffer.enroll_calm _ _).forget _) (inserts?_none answer (.inr (.inr rfl)))
      (returns?_none answer (.inr (.inr (.inl rfl))))
  | parked => exact silent (t.buffer.enroll_calm _ _) rfl
  | fetched waits =>
    obtain ⟨put, request⟩ := resume_request waits
    refine .fetches rfl waits rfl rfl rfl rfl (inserts?_none answer (.inr (.inr put))) ?_
    rw [returns?, answer]
    simp only [request, Option.map_some]
  | released => exact fails same _ rfl
  | gaveUp waits =>
    have put := (resume_request waits).1
    exact .neither (same.forget _) (inserts?_none answer (.inr (.inr put)))
      (returns?_none answer (.inr (.inr (.inl rfl))))
  | cancelledRequest => exact aside (same.forget _) rfl rfl
  | cancelled => exact aside same rfl rfl
  | rested => exact silent same rfl
  | reported drains => exact aside same drains.putBlock?.1 drains.putBlock?.2
  | ended drains =>
    exact aside (t.buffer.shut_calm t.buffer.shutNotices_unhanded t.buffer.shutNotices_space)
      drains.putBlock?.1 drains.putBlock?.2
  | closedAgain => exact aside same rfl rfl
  | closing =>
    exact aside (.of_space (by simp) List.mem_cons_self rfl (fun _ hx => hx) fun _ hw => hw) rfl rfl
  | closed | closedPersistent => exact aside t.buffer.close_calm rfl rfl
  | setCapacity =>
    exact aside (.of_space (by simp) List.mem_cons_self rfl (fun _ hx => hx) fun _ hw => hw) rfl rfl
  | addNamespace => exact aside (.of_same rfl rfl rfl rfl) rfl rfl
  | removeNamespace => exact aside (t.buffer.removeNamespace_calm _) rfl rfl
  | clear => exact aside t.buffer.clear_calm rfl rfl
  | removedNothing => exact aside same rfl rfl
  | removed found => exact aside (Buffer.remove?_calm found) rfl rfl
  | unsubscribable => exact aside same rfl rfl
  | subscribed opened => exact aside (Buffer.subscribe?_calm opened) rfl rfl
  | read => exact aside (t.buffer.readFeed_calm _) rfl rfl
  | unsubscribed => exact aside (t.buffer.dropFeed_calm _) rfl rfl

theorem Trade.of_returns (trade : t.Trade m f) {who : κ} {block : Block}
    (returns : t.returns? m = some (who, block)) :
    (∃ interest timeout, m = .request who interest timeout ∧ t.call? who = none ∧
      t.buffer.take? interest = some (block, f.buffer)) ∨
    ∃ id deadline, m = .resume who ∧ t.call? who = some (.request id deadline (.handed block)) ∧
      f.kept = (t.withoutCall who).calls := by
  cases trade with
  | files _ _ _ _ none =>
    rw [none] at returns
    contradiction
  | serves move free taken _ _ _ _ here =>
    rw [here] at returns
    obtain ⟨rfl, rfl⟩ := Prod.mk.inj (Option.some.inj returns)
    exact .inl ⟨_, _, move, free, taken⟩
  | fetches move waits kept _ _ _ _ here =>
    rw [here] at returns
    obtain ⟨rfl, rfl⟩ := Prod.mk.inj (Option.some.inj returns)
    exact .inr ⟨_, _, move, waits, kept⟩
  | neither _ _ none =>
    rw [none] at returns
    contradiction

end Traffic

end NamedContent
