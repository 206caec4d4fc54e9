import Mathlib
import NamedContent.Proofs.Server.Occurrences

/-!
# What a look comes to

Whoever looks at an interest in flight sees three things from outside: which block the
buffer answers with, which blocks come into the channels of faces, and what the server
counts. The interest goes on waiting, for its block or for a place in a channel, or it
ends; only where it ends as served has its block come into a channel.
-/

set_option autoImplicit false

namespace NamedContent

namespace ServerStats

def of (t : ServerStats) : Ending → Nat
  | .served => t.served
  | .expired => t.expired
  | .failed => t.failed

def since (t t' : ServerStats) : List Ending :=
  [Ending.served, .expired, .failed].flatMap fun e => List.replicate (t'.of e - t.of e) e

@[simp] theorem since_self (t : ServerStats) : t.since t = [] := by
  simp [since]

@[simp] theorem since_count (t : ServerStats) (e : Ending) : t.since (t.count e) = [e] := by
  cases e <;> simp [since, of, count]

theorem of_count (t : ServerStats) (e e' : Ending) :
    (t.count e).of e' = t.of e' + if e = e' then 1 else 0 := by
  cases e <;> cases e' <;> rfl

end ServerStats

namespace World

def lookMove? (w : World) (left : Nat) (v : Serve) : Option (Traffic.Move Caller) :=
  match v.stage with
  | .fresh => some (.request (.serve v.id) v.interest ((w.server.map (·.timeout)).getD 0))
  | .requesting => if left = 0 then none else some (.resume (.serve v.id))
  | .sending _ _ => none

def blockOf? : Option (Except PublishError Answer) → Option Block
  | some (.ok (.block block)) => some block
  | _ => none

theorem blockOf?_eq_some {result : Option (Except PublishError Answer)} {block : Block}
    (found : blockOf? result = some block) : result = some (.ok (.block block)) := by
  rw [blockOf?.eq_def] at found
  split at found
  · cases found
    rfl
  · contradiction

/-- The block with which the buffer answers a look at the interest. -/
def answered? (w : World) (left : Nat) (v : Serve) : Option Block :=
  blockOf? ((w.lookMove? left v).bind fun m => (w.traffic.step m).answer)

def counted (w : World) : ServerStats := (w.server.map (·.stats)).getD default

/-- How it stands after a part of a look: the moves that have been made, the blocks that
have come into channels, and the server, up to its order. -/
structure Looking (w : World) (moves : List (Traffic.Move Caller))
    (queued : List (Nat × Block)) (s : Server) (w' : World) : Prop where
  traffic : w'.traffic = w.traffic.run moves
  network : w.network.Extends w'.network
  queued : w.network.arrivals w'.network = queued
  server : w'.server.map Server.unordered = some s.unordered

/-- The block is to go into this channel: the look before has found that out, or the
buffer has answered with it, and the face has the channel now. -/
def Heads (w : World) (v : Serve) (answer : Option Block) (i : Nat) (block : Block) : Prop :=
  v.stage = .sending i block ∧ answer = none ∨
    answer = some block ∧ w.network.faces.find? v.face = some i

inductive Looked (w : World) (s : Server) (v : Serve) (moves : List (Traffic.Move Caller))
    (answer : Option Block) (w' : World) : Prop where
  | waits (unsent : ∀ i block, v.stage ≠ .sending i block)
      (looking : w.Looking moves [] (s.setStage v.id .requesting) w')
  | holds {i : Nat} {block : Block} (heads : w.Heads v answer i block)
      (looking : w.Looking moves [] (s.setStage v.id (.sending i block)) w')
  | sent {i : Nat} {block : Block} (heads : w.Heads v answer i block)
      (looking : w.Looking moves [(i, block)] (s.finish v.id .served) w')
  | ends {ending : Ending} (unserved : ending ≠ .served)
      (looking : w.Looking moves [] (s.finish v.id ending) w')

variable {w w' : World} {s : Server} {v : Serve} {moves : List (Traffic.Move Caller)} {left : Nat}
  {queued : List (Nat × Block)} {answer : Option Block}

namespace Looking

theorem since (h : w.Looking moves queued s w') : Since (· ∈ moves) w w' :=
  ⟨⟨moves, fun _ mem => mem, h.traffic⟩, h.network⟩

theorem start (running : w.server = some s) : w.Looking [] [] s w :=
  ⟨rfl, .refl _, Network.arrivals_of_items fun _ => rfl, running ▸ rfl⟩

theorem moved (running : w.server = some s) (m : Traffic.Move Caller) :
    w.Looking [m] [] s (w.moved m) := by
  have woken := (Aside.refl { w with traffic := (w.traffic.step m).traffic }).wakeAll
    (w.traffic.step m).woken
  refine ⟨moved_traffic w m, moved_network w m ▸ .refl _, ?_, woken.server.trans (running ▸ rfl)⟩
  rw [moved_network]
  exact Network.arrivals_of_items fun _ => rfl

theorem onServer (h : w.Looking moves queued s w') {f : Server → Server}
    (orderless : ∀ s, (f s).unordered = (f s.unordered).unordered) :
    w.Looking moves queued (f s) (w'.onServer f) := by
  refine ⟨h.traffic, h.network, h.queued, ?_⟩
  obtain ⟨s', running, same⟩ := Option.map_eq_some_iff.mp h.server
  rw [World.onServer, running, Option.map_some, Option.map_some, orderless s', same, ← orderless s]

theorem endServe (h : w.Looking moves queued s w') (id : Nat) (ending : Ending) :
    w.Looking moves queued (s.finish id ending) (w'.endServe id ending) :=
  h.onServer (f := fun s => s.finish id ending) fun _ => rfl

theorem keepServe (h : w.Looking moves queued s w') (left id : Nat) (stage : ServeStage) :
    w.Looking moves queued (s.setStage id stage) (w'.keepServe left id stage) := by
  have kept := h.onServer (f := fun s => if left = 0 then (s.setStage id stage).defer id
    else s.setStage id stage) fun s => by split <;> rfl
  refine ⟨kept.traffic, kept.network, kept.queued, kept.server.trans ?_⟩
  split <;> rfl

theorem setChannel (h : w.Looking moves [] s w') (same : w'.network = w.network) {i : Nat}
    {c : Channel Caller Block} (arrivals : w.network.arrivals (w.network.setChannel i c) = queued) :
    w.Looking moves queued s (w'.setChannel i c) where
  traffic := h.traffic
  network := h.network.trans (w'.network.extends_setChannel i c)
  queued := by
    show w.network.arrivals (w'.network.setChannel i c) = queued
    rw [same, arrivals]
  server := h.server

theorem wakeReceiver (h : w.Looking moves queued s w') (i : Nat) :
    w.Looking moves queued s (w'.wakeReceiver i) := by
  obtain ⟨ready, eq⟩ := w'.wakeReceiver_eq i
  rw [eq]
  exact ⟨h.traffic, h.network, h.queued, h.server⟩

end Looking

theorem deliver_looked (h : w.Looking moves [] s w') (same : w'.network = w.network) {i : Nat}
    {block : Block} (heads : w.Heads v answer i block) (inside : i < w.network.channels.length) :
    w.Looked s v moves answer (w'.deliver left v i block).1 := by
  rw [deliver]
  split
  · exact .holds heads (h.keepServe _ _ _)
  · have gains := (w'.network.channel i).send_sent (.serve v.id) block
    have quiet := (w'.network.channel i).send_unsent (.serve v.id) block
    rw [same] at gains quiet ⊢
    generalize (w.network.channel i).send (.serve v.id) block = sending at gains quiet ⊢
    obtain ⟨c, sending⟩ := sending
    have unsent (other : sending ≠ .sent) : w.Looking moves [] s (w'.setChannel i c) :=
      h.setChannel same (Network.arrivals_quiet (quiet other))
    cases sending with
    | sent =>
      have gained := h.setChannel same (Network.arrivals_gain inside (gains rfl))
      exact .sent heads ((gained.wakeReceiver i).endServe _ _)
    | closed =>
      have failed : Ending.failed ≠ .served := nofun
      exact .ends failed ((unsent nofun).endServe _ _)
    | waits => exact .holds heads ((unsent nofun).keepServe _ _ _)

theorem afterRequest_looked (left : Nat) (h : w.Looking moves [] s w')
    (same : w'.network = w.network) (placed : w.network.Placed) (unsent : ∀ i block, v.stage ≠ .sending i block)
    (result : Option (Except PublishError Answer)) :
    w.Looked s v moves (blockOf? result) (afterRequest left v (w', result)).1 := by
  have failed : Ending.failed ≠ .served := nofun
  have expired : Ending.expired ≠ .served := nofun
  match result with
  | none => exact .waits unsent (h.keepServe _ _ _)
  | some (.error _) => exact .ends failed (h.endServe _ _)
  | some (.ok answer) =>
    cases answer with
    | block block =>
      rw [afterRequest, same]
      split
      · exact .ends failed (h.endServe _ _)
      · rename_i face
        exact deliver_looked h same (.inr ⟨rfl, face⟩) (placed _ _ face)
    | _ => exact .ends expired (h.endServe _ _)

theorem look_looked (running : w.server = some s) (placed : w.network.Placed)
    (inside : ∀ i block, v.stage = .sending i block → i < w.network.channels.length) :
    w.Looked s v (w.lookMove? left v).toList (w.answered? left v)
      (w.look s.timeout left v).1 := by
  rw [look, answered?, lookMove?, running]
  cases stage : v.stage with
  | sending i block =>
    exact deliver_looked (.start running) rfl (.inl ⟨stage, rfl⟩) (inside i block stage)
  | fresh =>
    have unsent (i : Nat) (block : Block) : v.stage ≠ .sending i block := by rw [stage]; nofun
    have after (left : Nat) (result : Option (Except PublishError Answer)) :=
      afterRequest_looked left
        (Looking.moved running (.request (.serve v.id) v.interest s.timeout))
        (w.moved_network _) placed unsent result
    show w.Looked s v [.request (.serve v.id) v.interest s.timeout]
      (blockOf? (w.traffic.step (.request (.serve v.id) v.interest s.timeout)).answer)
      (w.beginRequest s.timeout left v).1
    rw [beginRequest, move_eq]
    generalize (w.traffic.step (.request (.serve v.id) v.interest s.timeout)).answer = result
    split
    · rename_i nothing
      cases nothing
      exact after _ _
    · rename_i other
      cases other
      exact after _ _
  | requesting =>
    have unsent (i : Nat) (block : Block) : v.stage ≠ .sending i block := by rw [stage]; nofun
    by_cases spent : left = 0
    · subst spent
      exact .waits unsent ((Looking.start running).keepServe _ _ _)
    · have after (left : Nat) (result : Option (Except PublishError Answer)) :=
        afterRequest_looked left
          (Looking.moved running (.resume (.serve v.id))) (w.moved_network _) placed unsent result
      dsimp only
      rw [if_neg spent, resumeRequest, if_neg spent, move_eq]
      show w.Looked s v [.resume (.serve v.id)]
        (blockOf? (w.traffic.step (.resume (.serve v.id))).answer) _
      generalize (w.traffic.step (.resume (.serve v.id))).answer = result
      split
      · rename_i waiting
        cases waiting
        exact after _ _
      · rename_i other
        cases other
        exact after _ _

end World

end NamedContent
