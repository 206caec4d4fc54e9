import Mathlib
import NamedContent.Proofs.Traffic.Lasting
import NamedContent.Proofs.Traffic.Streaming

/-!
# Reading what has been published

A reader asks for a root and then for what follows each block it gets, until it
gets none. On a persistent buffer where all segments of a publication are there
and nothing else is under its root, it reads the segments in order, and then the
time of its next request runs out.
-/

set_option autoImplicit false

namespace NamedContent

namespace Traffic

variable {κ : Type}

/-- One request of a reader: what others do before it, how long it waits, and what
others do while it waits. -/
structure Round (κ : Type) where
  before : List (Move κ)
  timeout : Nat
  meanwhile : List (Move κ)

/-- Others leave the root alone, and the time of the request runs out. -/
structure Round.Quiet (root : Name) (reader : κ) (r : Round κ) : Prop where
  before : ∀ m ∈ r.before, m.Spares root ∧ m.caller? ≠ some reader
  meanwhile : ∀ m ∈ r.meanwhile, m.Spares root ∧ m.caller? ≠ some reader
  patient : r.timeout ≤ (r.meanwhile.map Move.duration).sum

variable [DecidableEq κ]

def ask (t : Traffic κ) (who : κ) (interest : Interest) (r : Round κ) :
    Traffic κ × Option (Except PublishError Answer) :=
  let turn := (t.run r.before).step (.request who interest r.timeout)
  match turn.answer with
  | some answer => (turn.traffic, some answer)
  | none =>
    let turn := (turn.traffic.run r.meanwhile).step (.resume who)
    (turn.traffic, turn.answer)

/-- The blocks that a reader gets in these rounds, each time asking for what
follows the last, and the answer that is no block. -/
def readAll (who : κ) :
    List (Round κ) → Traffic κ → Interest → List Block × Option (Except PublishError Answer)
  | [], _, _ => ([], none)
  | r :: rest, t, interest =>
    match t.ask who interest r with
    | (t, some (.ok (.block block))) =>
      let (blocks, last) := readAll who rest t (.nextAfter block.name)
      (block :: blocks, last)
    | (_, answer) => ([], answer)

variable {t : Traffic κ} {m : Move κ} {who : κ} {interest : Interest}

theorem step_now (t : Traffic κ) (m : Move κ) : (t.step m).traffic.now = t.now + m.duration := by
  obtain ⟨f, -, shows⟩ := t.step_explained m
  rw [shows.traffic]
  rfl

theorem run_now (t : Traffic κ) (ms : List (Move κ)) :
    (t.run ms).now = t.now + (ms.map Move.duration).sum := by
  induction ms generalizing t with
  | nil => rfl
  | cons m rest ih => rw [run, ih, step_now, List.map_cons, List.sum_cons, Nat.add_assoc]

section Request

variable (timeout : Nat) (free : t.call? who = none) (going : t.buffer.phase ≠ .closed)
include free going

theorem request_taken {block : Block} {b : Buffer}
    (taken : t.buffer.take? interest = some (block, b)) :
    (t.step (.request who interest timeout)).answer = some (.ok (.block block)) ∧
      (t.step (.request who interest timeout)).traffic.call? who = none := by
  rw [step_request_taken free going timeout taken]
  exact ⟨(t.finish_shows _ _ _).answer, finish_free free _ _ _⟩

theorem request_parked (nothing : t.buffer.take? interest = none) :
    timeout = 0 ∧ (t.step (.request who interest timeout)).answer = some (.ok .nothing) ∨
      (t.step (.request who interest timeout)).answer = none ∧
        (who, .request t.buffer.nextId (t.now + timeout) .empty) ∈
          (t.step (.request who interest timeout)).traffic.calls := by
  rw [step_request_missed free going timeout nothing]
  split
  · rename_i now
    exact .inl ⟨now, (finish_shows _ _ _ _).answer⟩
  · exact .inr ⟨rfl, List.mem_append_right _ (List.mem_singleton.mpr rfl)⟩

end Request

theorem resume_empty {id deadline : Nat}
    (waits : t.call? who = some (.request id deadline .empty)) (late : deadline ≤ t.now) :
    (t.step (.resume who)).answer = some (.ok .nothing) := by
  show (t.resume who).answer = _
  simp only [resume, waits, if_pos late]
  exact (finish_shows _ _ _ _).answer

end Traffic

namespace Publication

variable {κ : Type} [DecidableEq κ] {p : Publication κ} {t : Traffic κ} {m : Traffic.Move κ}

omit [DecidableEq κ] in
theorem allows_of_spares (sent : Nat) (spares : m.Spares p.root) : p.Allows sent m := by
  cases m with
  | put who block => exact .inr spares
  | _ => exact spares

structure Resting (p : Publication κ) (t : Traffic κ) : Prop where
  sound : t.Sound
  unmissed : t.buffer.Unmissed
  persistent : t.buffer.bestEffort = false
  underway : p.Underway t p.count
  buffered : ∀ j < p.count, p.Buffered t.buffer j

theorem Resting.step (h : p.Resting t) (allowed : p.Allows p.count m) :
    p.Resting (t.step m).traffic := by
  obtain ⟨f, outcome, shows⟩ := t.step_explained m
  have trade := outcome.trade shows.answer
  have sends : p.Sends t m p.count p.count := by
    obtain same | ⟨-, more, -⟩ := h.underway.sends allowed trade
    · exact .inl ⟨rfl, same.2⟩
    · exact absurd more (Nat.lt_irrefl _)
  rw [shows.traffic]
  refine ⟨outcome.sound h.sound _, ?_, ?_, ?_, ?_⟩
  · exact (outcome.change h.sound.buffer).unmissed h.sound.buffer h.unmissed
  · exact ((outcome.change h.sound.buffer).bestEffort h.sound.buffer).trans h.persistent
  · exact h.underway.step h.sound allowed outcome trade sends
  · intro j before
    refine h.underway.buffered_stays h.sound allowed outcome sends shows.answer before ?_
      (h.buffered j before)
    intro best
    rw [h.persistent] at best
    contradiction

end Publication

namespace Stream

variable {κ : Type} [DecidableEq κ] {s : Stream κ} {t : Traffic κ} {m : Traffic.Move κ} {k : Nat}

theorem flow_of_resting (h : s.Resting t) (free : t.call? s.reader = none) (le : k ≤ s.count) :
    s.Flow t s.count k := by
  refine .of_free h.underway h.unmissed ?_ le free fun j before _ => h.buffered j before
  intro w _ best
  rw [h.persistent] at best
  contradiction

theorem take?_of_resting (h : s.Resting t) (free : t.call? s.reader = none) (more : k < s.count) :
    ∃ b, t.buffer.take? (s.wish (s.firsts k)) = some (s.segment k, b) := by
  obtain ⟨e, listed, -, there⟩ := available (h.buffered k more) (Nat.le_refl k) more
  cases taken : t.buffer.take? (s.wish (s.firsts k)) with
  | none =>
    rw [(Buffer.take?_eq_none h.sound.buffer).mp taken _ e listed] at there
    contradiction
  | some r =>
    obtain ⟨-, same⟩ := (flow_of_resting h free more.le).served h.sound free taken
    exact ⟨r.2, by rw [← same]⟩

theorem take?_of_all_read (h : s.Resting t) (free : t.call? s.reader = none) :
    t.buffer.take? (s.wish (s.firsts s.count)) = none := by
  cases taken : t.buffer.take? (s.wish (s.firsts s.count)) with
  | none => rfl
  | some r =>
    have more := (flow_of_resting h free (Nat.le_refl _)).served h.sound free taken
    exact absurd more.1 (Nat.lt_irrefl _)

structure Waiting (s : Stream κ) (t : Traffic κ) (deadline : Nat) : Prop where
  resting : s.Resting t
  flow : s.Flow t s.count s.count
  waits : ∃ id, (s.reader, .request id deadline .empty) ∈ t.calls

theorem Flow.step_of_all (h : s.Flow t s.count s.count) (sound : t.Sound)
    (allowed : s.Allows s.count m) (minds : s.Minds t.buffer (s.firsts s.count) m)
    {f : Traffic.Effect κ} (outcome : t.Outcome m f) (answer : (t.step m).answer = f.answer)
    (now : Nat) : s.Flow (f.traffic now) s.count s.count := by
  have trade := outcome.trade answer
  have sends : s.Sends t m s.count s.count := by
    obtain same | ⟨-, more, -⟩ := h.underway.sends allowed trade
    · exact .inl ⟨rfl, same.2⟩
    · exact absurd more (Nat.lt_irrefl _)
  obtain ⟨k', reads | ⟨-, returns⟩, -⟩ := h.reads sound minds trade
  · obtain ⟨rfl, nothing⟩ := reads
    exact h.step sound allowed minds outcome trade sends (.inl ⟨rfl, nothing⟩) answer
  · exact absurd (h.returned sound minds trade returns).1 (Nat.lt_irrefl _)

omit [DecidableEq κ] in
theorem minds_of_other [DecidableEq κ] {b : Buffer} (persistent : b.bestEffort = false)
    (other : m.caller? ≠ some s.reader) (got : List Block) : s.Minds b got m := by
  have spared (interest : Interest) : s.Spared b interest := by
    intro best
    rw [persistent] at best
    contradiction
  cases m with
  | request who interest timeout =>
    have apart : who ≠ s.reader := fun same => other (congrArg some same)
    simpa [Minds, apart] using spared interest
  | subscribe interest limit => exact spared interest
  | cancel who => exact fun same => other (congrArg some same)
  | _ => trivial

theorem Waiting.step {deadline : Nat} (h : s.Waiting t deadline) (spares : m.Spares s.root)
    (other : m.caller? ≠ some s.reader) : s.Waiting (t.step m).traffic deadline := by
  have sound := h.resting.sound
  have allowed := Publication.allows_of_spares (p := s.toPublication) s.count spares
  refine ⟨h.resting.step allowed, ?_, ?_⟩
  · obtain ⟨f, outcome, shows⟩ := t.step_explained m
    rw [shows.traffic]
    exact h.flow.step_of_all sound allowed (minds_of_other h.resting.persistent other _) outcome
      shows.answer _
  · obtain ⟨f, outcome, shows⟩ := t.step_explained m
    obtain ⟨id, listed⟩ := h.waits
    have kept : (s.reader, .request id deadline .empty) ∈ f.kept := by
      obtain kept | rfl | rfl := outcome.kept_cases listed
      · exact kept
      · exact absurd rfl other
      · exact absurd rfl other
    refine ⟨id, ?_⟩
    rw [shows.traffic]
    refine Traffic.mem_effect_calls.mpr (.inl (Traffic.mem_heard.mpr ⟨_, kept, ?_⟩))
    obtain ⟨slot, same, rfl | ⟨-, ⟨block, -, told⟩ | ⟨-, told⟩⟩⟩ :=
      Call.request_heard id deadline .empty f.notices
    · exact same.symm
    · have more := (h.flow.told sound allowed (outcome.trade shows.answer) listed told).2.2.1
      exact absurd more (Nat.lt_irrefl _)
    · exact absurd (outcome.closing_of_released sound told)
        (h.flow.underway.unclosing.not_closing (Publication.not_close allowed))

theorem Waiting.run {deadline : Nat} (h : s.Waiting t deadline) {ms : List (Traffic.Move κ)}
    (quiet : ∀ m ∈ ms, m.Spares s.root ∧ m.caller? ≠ some s.reader) :
    s.Waiting (t.run ms) deadline := by
  induction ms generalizing t with
  | nil => exact h
  | cons m rest ih =>
    obtain ⟨spares, other⟩ := quiet m List.mem_cons_self
    exact ih (h.step spares other) fun m' mem => quiet m' (List.mem_cons_of_mem _ mem)

theorem waiting_of_parked (h : s.Resting t) (free : t.call? s.reader = none) {id timeout : Nat}
    (listed : (s.reader, .request id (t.now + timeout) .empty) ∈
      (t.step (.request s.reader (s.wish (s.firsts s.count)) timeout)).traffic.calls) :
    s.Waiting (t.step (.request s.reader (s.wish (s.firsts s.count)) timeout)).traffic
      (t.now + timeout) := by
  refine ⟨h.step trivial, ?_, id, listed⟩
  have allowed : s.Allows s.count (.request s.reader (s.wish (s.firsts s.count)) timeout) := trivial
  obtain ⟨f, outcome, shows⟩ :=
    t.step_explained (.request s.reader (s.wish (s.firsts s.count)) timeout)
  rw [shows.traffic]
  exact (flow_of_resting h free (Nat.le_refl _)).step_of_all h.sound allowed (by simp [Minds])
    outcome shows.answer _

theorem resting_run (h : s.Resting t) (free : t.call? s.reader = none)
    {ms : List (Traffic.Move κ)} (quiet : ∀ m ∈ ms, m.Spares s.root ∧ m.caller? ≠ some s.reader) :
    s.Resting (t.run ms) ∧ (t.run ms).call? s.reader = none := by
  refine ⟨?_, Traffic.run_free free fun m mem => (quiet m mem).2⟩
  clear free
  induction ms generalizing t with
  | nil => exact h
  | cons m rest ih =>
    have allowed := Publication.allows_of_spares (p := s.toPublication) s.count
      (quiet m List.mem_cons_self).1
    exact ih (h.step allowed) fun m' mem => quiet m' (List.mem_cons_of_mem _ mem)

section Rounds

variable {r : Traffic.Round κ} (h : s.Resting t) (free : t.call? s.reader = none)
  (quiet : r.Quiet s.root s.reader)
include h free quiet

theorem ask_more (more : k < s.count) : ∃ t', s.Resting t' ∧ t'.call? s.reader = none ∧
    t.ask s.reader (s.wish (s.firsts k)) r = (t', some (.ok (.block (s.segment k)))) := by
  obtain ⟨rests, still⟩ := resting_run h free quiet.before
  obtain ⟨b, taken⟩ := take?_of_resting rests still more
  have going : (t.run r.before).buffer.phase ≠ .closed := by
    rw [rests.underway.accepting]
    simp
  obtain ⟨answer, after⟩ := Traffic.request_taken r.timeout still going taken
  refine ⟨_, rests.step (m := .request s.reader _ r.timeout) trivial, after, ?_⟩
  rw [Traffic.ask, answer]

theorem ask_last : (t.ask s.reader (s.wish (s.firsts s.count)) r).2 = some (.ok .nothing) := by
  obtain ⟨rests, still⟩ := resting_run h free quiet.before
  have nothing := take?_of_all_read rests still
  have going : (t.run r.before).buffer.phase ≠ .closed := by
    rw [rests.underway.accepting]
    simp
  rw [Traffic.ask]
  obtain ⟨-, answer⟩ | ⟨answer, listed⟩ :=
    Traffic.request_parked r.timeout still going nothing
  · rw [answer]
  · rw [answer]
    show (((_ : Traffic κ).run r.meanwhile).step (.resume s.reader)).answer = _
    have waiting := (waiting_of_parked rests still listed).run quiet.meanwhile
    obtain ⟨id, waits⟩ := waiting.waits
    refine Traffic.resume_empty (waiting.resting.sound.call?_eq_some.mpr waits) ?_
    rw [Traffic.run_now _ r.meanwhile, Traffic.step_now]
    exact Nat.add_le_add (Nat.le_add_right _ _) quiet.patient

end Rounds

theorem readAll_eq (h : s.Resting t) (free : t.call? s.reader = none)
    {rounds : List (Traffic.Round κ)} (quiet : ∀ r ∈ rounds, r.Quiet s.root s.reader)
    (le : k ≤ s.count) (enough : s.count < k + rounds.length) :
    t.readAll s.reader rounds (s.wish (s.firsts k)) =
      ((s.firsts s.count).drop k, some (.ok .nothing)) := by
  -- each round brings the next segment, and after the last segment there is a round left
  induction rounds generalizing t k with
  | nil => exact absurd enough (Nat.not_lt.mpr le)
  | cons r rest ih =>
    have first := quiet r List.mem_cons_self
    rw [Traffic.readAll]
    by_cases more : k < s.count
    · obtain ⟨t', rests, still, asked⟩ := ask_more h free first more
      have inside : k < (s.firsts s.count).length := by simpa [firsts] using more
      have here : (s.firsts s.count)[k] = s.segment k := by simp [firsts]
      have later := ih rests still (fun r' mem => quiet r' (List.mem_cons_of_mem _ mem))
        (k := k + 1) more (by rw [List.length_cons] at enough; omega)
      rw [wish_firsts_succ] at later
      rw [asked]
      dsimp only
      rw [later, List.drop_eq_getElem_cons inside, here]
    · obtain rfl : k = s.count := by omega
      have last := ask_last h free first
      generalize t.ask s.reader (s.wish (s.firsts s.count)) r = asked at last ⊢
      obtain ⟨t', answer⟩ := asked
      obtain rfl : answer = some (.ok .nothing) := last
      simp [firsts]

end Stream

/-- Blocks with rising numbers as a publication; past its end stands a blank. -/
def Publication.ofBlocks {κ : Type} (root : Name) (blocks : List Block) (blank : Block) (producer : κ)
    (named : ∀ b ∈ blocks, b.name = root.append (.segment b.sequence))
    (rises : blocks.Pairwise fun b c => b.sequence < c.sequence) : Publication κ where
  root
  number k := (blocks.getD k blank).sequence
  segment k := blocks.getD k blank
  count := blocks.length
  rising := by
    intro j k before inside
    rw [List.getD_eq_getElem _ _ (before.trans inside), List.getD_eq_getElem _ _ inside]
    exact List.pairwise_iff_getElem.mp rises j k _ inside before
  named := by
    intro k inside
    rw [List.getD_eq_getElem _ _ inside]
    exact named _ (List.getElem_mem inside)
  producer

namespace Traffic

variable {κ : Type}

/-- Under the root there is nothing but these blocks, and no more are on the way. -/
structure Only (t : Traffic κ) (root : Name) (blocks : List Block) : Prop where
  entries : ∀ name e, (name, e) ∈ t.buffer.entries.toList → root.isPrefixOf name = true →
    e.block ∈ blocks
  puts : ∀ who block deadline woken, (who, .put block deadline woken) ∈ t.calls →
    root.isPrefixOf block.name = false

variable {t : Traffic κ} {root : Name} {blocks : List Block}

theorem resting_of_only (lasting : t.Lasting) (unmissed : t.buffer.Unmissed)
    (there : t.HasAll blocks) (only : t.Only root blocks) (blank : Block) (producer : κ)
    (named : ∀ b ∈ blocks, b.name = root.append (.segment b.sequence))
    (rises : blocks.Pairwise fun b c => b.sequence < c.sequence) :
    (Publication.ofBlocks root blocks blank producer named rises).Resting t := by
  let p := Publication.ofBlocks root blocks blank producer named rises
  have segment {j : Nat} (inside : j < blocks.length) : p.segment j = blocks[j] :=
    List.getD_eq_getElem _ _ inside
  have under {name : Name} {e : Entry} (listed : (name, e) ∈ t.buffer.entries.toList)
      (covered : root.isPrefixOf name = true) : ∃ j < p.count, e.block = p.segment j := by
    obtain ⟨j, inside, same⟩ := List.mem_iff_getElem.mp (only.entries name e listed covered)
    exact ⟨j, inside, same.symm.trans (segment inside).symm⟩
  refine ⟨lasting.sound, unmissed, lasting.persistent, ?_, ?_⟩
  · refine ⟨lasting.accepting, lasting.unclosing, Nat.le_refl _, fun _ _ => under, ?_⟩
    intro who block deadline woken listed covered
    have apart := only.puts who block deadline woken listed
    rw [show root.isPrefixOf block.name = true from covered] at apart
    contradiction
  · intro j inside
    obtain ⟨e, listed⟩ := there (p.segment j) (segment inside ▸ List.getElem_mem inside)
    obtain ⟨k, within, same⟩ := under listed (Publication.covers inside)
    have keyed := lasting.sound.buffer.keyed _ e listed
    rw [same] at keyed
    obtain rfl := Publication.eq_of_name within inside keyed
    refine ⟨e, listed, same, fun best => ?_⟩
    rw [lasting.persistent] at best
    contradiction

variable [DecidableEq κ]

theorem readAll_of_only (lasting : t.Lasting) (unmissed : t.buffer.Unmissed)
    (there : t.HasAll blocks) (only : t.Only root blocks)
    (filled : blocks ≠ []) (named : ∀ b ∈ blocks, b.name = root.append (.segment b.sequence))
    (rises : blocks.Pairwise fun b c => b.sequence < c.sequence) {reader : κ}
    (free : t.call? reader = none) {rounds : List (Round κ)}
    (quiet : ∀ r ∈ rounds, r.Quiet root reader) (enough : blocks.length < rounds.length) :
    t.readAll reader rounds (.ofName root) = (blocks, some (.ok .nothing)) := by
  let s : Stream κ := ⟨.ofBlocks root blocks (blocks.head filled) reader named rises, reader⟩
  have rests : s.Resting t := resting_of_only lasting unmissed there only _ reader named rises
  have all : s.firsts s.count = blocks := by
    apply List.ext_getElem
    · simp [Stream.firsts, s, Publication.ofBlocks]
    · intro i _ inside
      simp [Stream.firsts, s, Publication.ofBlocks, inside]
  have read := Stream.readAll_eq rests free quiet (Nat.zero_le _) (by rwa [Nat.zero_add])
  rwa [all] at read

end Traffic

end NamedContent
