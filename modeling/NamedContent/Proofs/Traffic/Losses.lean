import Mathlib
import NamedContent.Proofs.Buffer.Copies
import NamedContent.Proofs.Traffic.Handover

/-!
# What leaves the buffer

An entry leaves the buffer, or another block takes its place, for a few reasons
only, and just one of them is to make room: in best-effort mode a put that finds
the buffer full sweeps what has been delivered. Whether a block has been
delivered is told by the moves of the run and not by the counter of its entry.
-/

set_option autoImplicit false

namespace NamedContent

namespace Traffic

variable {κ : Type} [DecidableEq κ] {t start : Traffic κ} {m : Move κ} {f : Effect κ}
  {past : List (Move κ)} {name : Name} {order : Nat} {block : Block}

/-- The move brings the block of this insertion to somebody: as it is put, to a
request that waits or into the feed of a filter, and later to a request that
finds it in the buffer. -/
inductive Delivers (t : Traffic κ) (m : Move κ) (order : Nat) : Prop where
  | hands {id : Nat} {block : Block} (number : order = t.buffer.nextOrder)
      (sent : (id, block) ∈ t.handsOut m)
  | copies {block : Block} (number : order = t.buffer.nextOrder)
      (inserts : t.inserts? m = some block)
      (copied : t.buffer.Copies block (t.step m).traffic.buffer)
  | serves {name : Name} {e : Entry} {who : κ} {interest : Interest} {timeout : Nat}
      (listed : (name, e) ∈ t.buffer.entries.toList) (number : order = e.order)
      (move : m = .request who interest timeout) (returns : t.returns? m = some (who, e.block))

def DeliveredIn (t : Traffic κ) (ms : List (Move κ)) (order : Nat) : Prop :=
  ∃ before m after, ms = before ++ m :: after ∧ (t.run before).Delivers m order

theorem DeliveredIn.append (delivered : t.DeliveredIn past order) (more : List (Move κ)) :
    t.DeliveredIn (past ++ more) order := by
  obtain ⟨before, m, after, rfl, delivers⟩ := delivered
  exact ⟨before, m, after ++ more, by simp, delivers⟩

theorem Trade.delivers (trade : t.Trade m f) (sound : t.Sound)
    (buffer : (t.step m).traffic.buffer = f.buffer) {e : Entry}
    (listed : (name, e) ∈ f.buffer.entries.toList) (read : e.deliveries ≠ 0) :
    (name, e) ∈ t.buffer.entries.toList ∨ t.Delivers m e.order := by
  cases trade with
  | @files _ block _ puts tried _ inserts returns =>
    rw [(filed_of_tryInsert sound tried).entries] at listed
    rcases Table.mem_insert.mp listed with new | ⟨old, -⟩
    · obtain ⟨rfl, rfl⟩ := Prod.mk.inj new
      have number : ((t.buffer.makeRoom block.name).newEntry block).order = t.buffer.nextOrder :=
        Buffer.makeRoom_nextOrder t.buffer _
      have filed := (Buffer.tryInsert_filed tried).2.2.2
      have consistent := Buffer.makeRoom_consistent sound.buffer block.name
      obtain ⟨id, told⟩ | copied := Buffer.file_copies consistent filed read
      · have sent : (id, block) ∈ t.handsOut m :=
          (Trade.files puts tried ‹_› inserts returns).mem_handsOut.mpr told
        exact .inr (.hands number sent)
      · refine .inr (.copies number inserts ?_)
        obtain ⟨entries, eq⟩ := t.buffer.makeRoom_eq block.name
        rw [eq] at copied
        rw [buffer]
        exact copied
    · exact .inl (Buffer.mem_of_makeRoom old)
  | serves move _ taken _ _ _ _ returns =>
    obtain ⟨e', there, -, rfl, eq⟩ := Buffer.take?_eq_some sound.buffer taken
    rw [eq] at listed
    rcases Table.mem_insert.mp listed with new | ⟨old, -⟩
    · obtain ⟨rfl, rfl⟩ := Prod.mk.inj new
      exact .inr (.serves there rfl move returns)
    · exact .inl old
  | fetches _ _ _ same => exact .inl (same ▸ listed)
  | neither calm => exact .inl (calm.entries _ listed)

theorem run_delivered (config : Buffer.Config) (ms : List (Move κ)) {e : Entry}
    (listed : (name, e) ∈ ((ofConfig config).run ms).buffer.entries.toList)
    (read : e.deliveries ≠ 0) : (ofConfig config).DeliveredIn ms e.order := by
  induction ms using List.reverseRecOn with
  | nil => contradiction
  | append_singleton before m ih =>
    obtain ⟨f, outcome, shows⟩ := ((ofConfig config).run before).step_explained m
    have buffer : (((ofConfig config).run before).step m).traffic.buffer = f.buffer :=
      congrArg Traffic.buffer shows.traffic
    have listed : (name, e) ∈ f.buffer.entries.toList := by
      rw [run_append] at listed
      exact buffer ▸ listed
    obtain old | delivers :=
      (outcome.trade shows.answer).delivers (run_sound config before) buffer listed read
    · exact (ih old).append [m]
    · exact ⟨before, m, [], rfl, delivers⟩

/-- Why an insertion is in the buffer no more after this move. -/
inductive Loss (start : Traffic κ) (past : List (Move κ)) (m : Move κ) (name : Name)
    (order : Nat) : Prop where
  | replaced {block : Block} (inserts : (start.run past).inserts? m = some block)
      (same : block.name = name)
  | removed (move : m = .remove name)
  | cleared (move : m = .clear)
  | shut (closing : (start.run past).Closing m)
      (ended : (start.run (past ++ [m])).buffer.phase = .closed)
  | swept {block : Block} (mode : start.buffer.config.mode = .bestEffort)
      (puts : (start.run past).putBlock? m = some block)
      (full : (start.run past).buffer.isFullFor block.name = true)
      (delivered : start.DeliveredIn past order)

def Stored (t : Traffic κ) (name : Name) (order : Nat) (block : Block) : Prop :=
  ∃ e, (name, e) ∈ t.buffer.entries.toList ∧ e.order = order ∧ e.block = block

theorem Stored.step (config : Buffer.Config)
    (stored : ((ofConfig config).run past).Stored name order block) (m : Move κ) :
    ((ofConfig config).run (past ++ [m])).Stored name order block ∨
      (ofConfig config).Loss past m name order := by
  have sound := run_sound config past
  obtain ⟨f, outcome, shows⟩ := ((ofConfig config).run past).step_explained m
  have buffer : ((ofConfig config).run (past ++ [m])).buffer = f.buffer := by
    rw [run_append]
    exact congrArg Traffic.buffer shows.traffic
  obtain ⟨e, listed, rfl, rfl⟩ := stored
  cases outcome.fate shows.answer sound listed with
  | stays there => exact .inl ⟨e, buffer ▸ there, rfl, rfl⟩
  | read _ _ there => exact .inl ⟨e.afterRead, buffer ▸ there, rfl, rfl⟩
  | replaced inserts same => exact .inr (.replaced inserts same)
  | removed move => exact .inr (.removed move)
  | cleared move => exact .inr (.cleared move)
  | shut closing ended => exact .inr (.shut closing (buffer ▸ ended))
  | swept best read puts full =>
    refine .inr (.swept ?_ puts full (run_delivered config past listed read))
    have mode := best
    rw [Buffer.bestEffort, run_config] at mode
    exact beq_iff_eq.mp mode

theorem putBlock?_of_inserts (inserts : t.inserts? m = some block) :
    t.putBlock? m = some block := by
  rw [inserts?] at inserts
  split at inserts
  · exact inserts
  · contradiction

theorem putBlock?_of_closing (closing : t.Closing m) : t.putBlock? m = none := by
  obtain ⟨who, rfl | ⟨rfl, _, _, _, waits⟩⟩ := closing
  · rfl
  · rw [putBlock?, waits]

/-- An insertion stays in the buffer with its block until it is replaced by a put
of the same name, removed, cleared, thrown away by the end of a close, or, in
best-effort mode and only after it has been delivered, swept by a put that finds
no room. So a put takes nothing else out of the buffer: what has not been delivered
stays, and in persistent mode everything does. -/
theorem losses_accounted (config : Buffer.Config) (past : List (Move κ)) (name : Name)
    (order : Nat) (block : Block) :
    let start : Traffic κ := ofConfig config
    (start.run past).Stored name order block →
      (∀ rest, (start.run (past ++ rest)).Stored name order block ∨
        ∃ before m after, rest = before ++ m :: after ∧
          (start.run (past ++ before)).Stored name order block ∧
          start.Loss (past ++ before) m name order) ∧
      ∀ m put, (start.run past).putBlock? m = some put →
        config.mode = .persistent ∨ ¬start.DeliveredIn past order →
          (start.run (past ++ [m])).Stored name order block ∨
            (start.run past).inserts? m = some put ∧ put.name = name := by
  intro start stored
  constructor
  · intro rest
    induction rest generalizing past with
    | nil => exact .inl (by rwa [List.append_nil])
    | cons m rest ih =>
      obtain still | loss := stored.step config m
      · obtain stays | ⟨before, m', after, rfl, there, loss⟩ := ih (past ++ [m]) still
        · exact .inl (by rwa [List.append_assoc] at stays)
        · rw [List.append_assoc] at there loss
          exact .inr ⟨m :: before, m', after, rfl, there, loss⟩
      · refine .inr ⟨[], m, rest, rfl, ?_, ?_⟩
        · rwa [List.append_nil]
        · rwa [List.append_nil]
  · intro m put puts safe
    refine (stored.step config m).imp_right fun loss => ?_
    cases loss with
    | replaced inserts same =>
      obtain rfl := Option.some.inj ((putBlock?_of_inserts inserts).symm.trans puts)
      exact ⟨inserts, same⟩
    | removed move => cases move; contradiction
    | cleared move => cases move; contradiction
    | shut closing => rw [putBlock?_of_closing closing] at puts; contradiction
    | swept mode _ _ delivered =>
      obtain persistent | undelivered := safe
      · cases persistent.symm.trans mode
      · exact absurd delivered undelivered

def takenMoves : List (Move Nat) :=
  [.put 0 (letterBlock 97), .request 1 (.ofName (letterBlock 97).name) 0]

/-- A put that finds no room sweeps the block that has been taken, and in
persistent mode it does not. -/
theorem losses_accounted_taken :
    let start : Traffic Nat := ofConfig { capacity := 1 }
    let persistent : Traffic Nat := ofConfig { capacity := 1, mode := .persistent }
    (start.run takenMoves).Stored (letterBlock 97).name 0 (letterBlock 97) ∧
      start.Loss takenMoves (.put 2 (letterBlock 98)) (letterBlock 97).name 0 ∧
      (persistent.run (takenMoves ++ [.put 2 (letterBlock 98)])).Stored (letterBlock 97).name 0
        (letterBlock 97) := by
  intro start persistent
  have stored : (start.run takenMoves).Stored (letterBlock 97).name 0 (letterBlock 97) :=
    ⟨⟨letterBlock 97, 0, 1⟩, Table.find?_eq_some.mp (by decide +kernel), rfl, rfl⟩
  have kept : (persistent.run takenMoves).Stored (letterBlock 97).name 0 (letterBlock 97) :=
    ⟨⟨letterBlock 97, 0, 1⟩, Table.find?_eq_some.mp (by decide +kernel), rfl, rfl⟩
  have gone : (start.run (takenMoves ++ [.put 2 (letterBlock 98)])).buffer.entries.contains
      (letterBlock 97).name = false := by decide +kernel
  obtain ⟨accounts, -⟩ := losses_accounted { capacity := 1 } takenMoves _ 0 _ stored
  obtain ⟨-, spares⟩ :=
    losses_accounted { capacity := 1, mode := .persistent } takenMoves _ 0 _ kept
  refine ⟨stored, ?_, ?_⟩
  · obtain ⟨e, listed, -⟩ | ⟨before, m, after, split, -, loss⟩ :=
      accounts [.put 2 (letterBlock 98)]
    · have present := Table.contains_iff.mpr ⟨e, listed⟩
      rw [gone] at present
      contradiction
    · cases before with
      | nil =>
        obtain ⟨rfl, -⟩ := List.cons.inj split
        rwa [List.append_nil] at loss
      | cons first rest => simp at split
  · obtain stays | ⟨-, same⟩ := spares (.put 2 (letterBlock 98)) _ rfl (.inl rfl)
    · exact stays
    · exact absurd same (by decide)

end Traffic

end NamedContent
