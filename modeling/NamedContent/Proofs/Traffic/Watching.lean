import Mathlib
import NamedContent.Proofs.Buffer.Shadow
import NamedContent.Proofs.Traffic.Room

/-!
# Traffic with filters beside traffic without

Callers put, request and remove on two buffers, and on the second one filters
are opened and read besides. The calls in progress are the same but for the ids
of the requests, and every move comes to the same answer, until a best-effort
buffer is given a block that filters take and no request does. A reader who then
asks for this block finds it on the first buffer and not on the second.
-/

set_option autoImplicit false

namespace NamedContent

namespace Call

def renumber (ρ : Nat → Nat) : Call → Call
  | request id deadline slot => request (ρ id) deadline slot
  | c => c

def isDrain : Call → Bool
  | drain .. => true
  | _ => false

variable {ρ : Nat → Nat}

theorem hear?_renumber (injective : Function.Injective ρ) (c : Call) (n : Notice) :
    (c.renumber ρ).hear? (n.renumber ρ) = (c.hear? n).map (renumber ρ) := by
  have same (i j : Nat) : ρ i = ρ j ↔ i = j := injective.eq_iff
  cases c with
  | put => cases n <;> rfl
  | drain => cases n <;> rfl
  | request id deadline slot =>
    cases slot with
    | handed => rfl
    | released => rfl
    | empty =>
      cases n with
      | space => rfl
      | claimed => rfl
      | handed id' block =>
        by_cases eq : id = id'
        · simp [renumber, Notice.renumber, hear?, eq]
        · simp [renumber, Notice.renumber, hear?, eq, same]
      | released id' =>
        by_cases eq : id = id'
        · simp [renumber, Notice.renumber, hear?, eq]
        · simp [renumber, Notice.renumber, hear?, eq, same]

theorem heard_renumber (injective : Function.Injective ρ) (c : Call) (ns : List Notice) :
    (c.renumber ρ).heard (ns.map (Notice.renumber ρ)) = (c.heard ns).renumber ρ := by
  induction ns generalizing c with
  | nil => rfl
  | cons n rest ih =>
    rw [List.map_cons, heard, heard, hear?_renumber injective, ← ih]
    cases c.hear? n <;> rfl

theorem isDrain_heard (c : Call) (ns : List Notice) : (c.heard ns).isDrain = c.isDrain := by
  cases c with
  | put => rw [put_heard]; rfl
  | drain => rw [drain_heard]; rfl
  | request id deadline slot =>
    obtain ⟨_, same, -⟩ := request_heard id deadline slot ns
    rw [same]
    rfl

theorem heard_unclaimed {c : Call} (undrained : c.isDrain = false) (ns : List Notice) :
    c.heard (ns.filter fun n => n ≠ .claimed) = c.heard ns := by
  induction ns generalizing c with
  | nil => rfl
  | cons n rest ih =>
    have next : ((c.hear? n).getD c).isDrain = false := by
      rw [← undrained]
      exact isDrain_heard c [n]
    by_cases claimed : n = .claimed
    · subst claimed
      have deaf : (c.hear? .claimed).getD c = c := by
        cases c with
        | put => rfl
        | drain => contradiction
        | request id deadline slot => cases slot <;> rfl
      rw [List.filter_cons_of_neg (by simp), heard, deaf, ih undrained]
    · rw [List.filter_cons_of_pos (by simpa using claimed), heard, heard, ih next]

end Call

namespace Traffic

variable {κ : Type} {ρ : Nat → Nat} {t t' : Traffic κ}

/-- The second traffic is the first one with filters on the buffer. -/
structure Shadows (ρ : Nat → Nat) (t t' : Traffic κ) : Prop where
  buffer : t.buffer.Shadows ρ t'.buffer
  now : t'.now = t.now
  calls : t'.calls = t.calls.map fun c => (c.1, c.2.renumber ρ)
  undrained : ∀ c ∈ t.calls, c.2.isDrain = false

structure Turn.Shadows (ρ : Nat → Nat) (turn turn' : Turn κ) : Prop where
  traffic : turn.traffic.Shadows ρ turn'.traffic
  answer : turn'.answer = turn.answer

/-- In best-effort mode the move puts a block that filters take and no waiting request. -/
def CopiedOnly [DecidableEq κ] (t : Traffic κ) (m : Move κ) : Prop :=
  ∃ block, t.inserts? m = some block ∧ t.buffer.CopiedOnly block

theorem attemptPut_files {who : κ} {block : Block} {deadline : Nat} {c : Buffer}
    {ns : List Notice} (tried : t.buffer.tryInsert block = .filed c ns) :
    (t.attemptPut who block deadline).answer = some (.ok (.block block)) := by
  rw [attemptPut, tried]
  rfl

section Puts

variable [DecidableEq κ] {m : Move κ} {who : κ} {block : Block} {deadline : Nat}
  {kept : List (κ × Call)} {c : Buffer} {ns : List Notice}

theorem Puts.step_eq (puts : t.Puts m who block deadline kept) :
    t.step m = ({ t with calls := kept } : Traffic κ).attemptPut who block deadline := by
  cases puts with
  | begun free => rw [step, Traffic.begin, free, if_neg (by simp)]
  | resumed waits =>
    rw [step, resume_put waits, if_pos rfl]
    rfl

theorem Puts.inserts? (puts : t.Puts m who block deadline kept)
    (tried : t.buffer.tryInsert block = .filed c ns) : t.inserts? m = some block := by
  have files : (({ t with calls := kept } : Traffic κ).attemptPut who block deadline).answer =
      some (.ok (.block block)) := attemptPut_files tried
  rw [Traffic.inserts?, puts.step_eq, files, puts.putBlock?.1]

end Puts

namespace Shadows

theorem with_buffer (h : t.Shadows ρ t') {c c' : Buffer} (kept : c.Shadows ρ c') :
    Shadows ρ { t with buffer := c } { t' with buffer := c' } :=
  ⟨kept, h.now, h.calls, h.undrained⟩

theorem idle (h : t.Shadows ρ t') : t.idle.Shadows ρ t'.idle := ⟨h, rfl⟩

theorem heard (h : t.Shadows ρ t') {ns ns' : List Notice} (echoes : Buffer.Echoes ρ ns ns') :
    Traffic.heard ns' t'.calls = (Traffic.heard ns t.calls).map fun c => (c.1, c.2.renumber ρ) := by
  rw [h.calls, Traffic.heard, Traffic.heard, List.map_map, List.map_map]
  apply List.map_congr_left
  intro c listed
  have undrained := h.undrained c listed
  have undrained' : (c.2.renumber ρ).isDrain = false := by
    rw [← undrained]
    cases c.2 <;> rfl
  simp only [Function.comp_apply]
  rw [← Call.heard_unclaimed undrained', echoes,
    Call.heard_renumber h.buffer.ascending.injective, Call.heard_unclaimed undrained]

theorem finish (h : t.Shadows ρ t') {c c' : Buffer} {ns ns' : List Notice} (kept : c.Shadows ρ c')
    (echoes : Buffer.Echoes ρ ns ns') (answer : Except PublishError Answer) :
    (t.finish c ns answer).Shadows ρ (t'.finish c' ns' answer) := by
  have shows := finish_shows t c ns answer
  have shows' := finish_shows t' c' ns' answer
  refine ⟨?_, rfl⟩
  rw [shows.traffic, shows'.traffic]
  refine ⟨kept, h.now, ?_, ?_⟩
  · simp only [Effect.traffic, List.append_nil]
    exact h.heard echoes
  · intro d listed
    simp only [Effect.traffic, List.append_nil] at listed
    obtain ⟨old, found, same⟩ := mem_heard.mp listed
    rw [same, Call.isDrain_heard]
    exact h.undrained _ found

theorem finish_quiet (h : t.Shadows ρ t') {c c' : Buffer} (kept : c.Shadows ρ c')
    (answer : Except PublishError Answer) :
    (t.finish c [] answer).Shadows ρ (t'.finish c' [] answer) :=
  h.finish kept (Buffer.echoes_self ρ (by simp)) answer

theorem wait (h : t.Shadows ρ t') (who : κ) {call : Call} (undrained : call.isDrain = false) :
    (t.wait who call).Shadows ρ (t'.wait who (call.renumber ρ)) where
  traffic := by
    refine ⟨h.buffer, h.now, ?_, ?_⟩
    · show t'.calls ++ _ = (t.calls ++ _).map _
      rw [h.calls, List.map_append]
      rfl
    · intro c listed
      rcases List.mem_append.mp listed with old | new
      · exact h.undrained c old
      · rw [List.mem_singleton.mp new]
        exact undrained
  answer := rfl

variable [DecidableEq κ]

theorem call? (h : t.Shadows ρ t') (who : κ) :
    t'.call? who = (t.call? who).map (Call.renumber ρ) := by
  rw [Traffic.call?, Traffic.call?, h.calls, List.find?_map, Option.map_map, Option.map_map]
  rfl

theorem withoutCall (h : t.Shadows ρ t') (who : κ) :
    (t.withoutCall who).Shadows ρ (t'.withoutCall who) where
  buffer := h.buffer
  now := h.now
  calls := by
    rw [Traffic.withoutCall, Traffic.withoutCall, h.calls, List.filter_map]
    rfl
  undrained := fun c listed => h.undrained c (List.mem_of_mem_filter listed)

theorem begin (h : t.Shadows ρ t') (who : κ) {turn turn' : Turn κ}
    (begun : t'.call? who = none → turn.Shadows ρ turn') :
    (t.begin who turn).Shadows ρ (t'.begin who turn') := by
  have same : (t'.call? who).isSome = (t.call? who).isSome := by rw [h.call?, Option.isSome_map]
  rw [Traffic.begin, Traffic.begin, same]
  split
  · exact h.idle
  · rename_i free
    rw [← same, Bool.not_eq_true, Option.isSome_eq_false_iff, Option.isNone_iff_eq_none] at free
    exact begun free

omit [DecidableEq κ] in
theorem attemptPut (h : t.Shadows ρ t') (orderly : t.buffer.Orderly) (orderly' : t'.buffer.Orderly)
    (who : κ) {block : Block} (deadline : Nat)
    (shared : ∀ c ns, t'.buffer.tryInsert block = .filed c ns → ¬t'.buffer.CopiedOnly block) :
    (t.attemptPut who block deadline).Shadows ρ (t'.attemptPut who block deadline) := by
  obtain ⟨error, tried, tried'⟩ | ⟨c, c', tried, tried', kept⟩ |
    ⟨c, ns, c', ns', tried, tried', same⟩ := h.buffer.tryInsert_cases orderly orderly' block
  · rw [Traffic.attemptPut, Traffic.attemptPut, tried, tried']
    exact h.finish_quiet h.buffer _
  · rw [Traffic.attemptPut, Traffic.attemptPut, tried, tried']
    dsimp only
    rw [kept.config, h.now, capacityExceeded, capacityExceeded, kept.capacity, kept.size]
    split
    · exact h.finish_quiet kept _
    · have undrained : (Call.put block deadline false).isDrain = false := rfl
      have waits := (h.with_buffer kept).wait who undrained
      rwa [h.now] at waits
  · obtain ⟨kept, echoes⟩ := same (shared c' ns' tried')
    rw [Traffic.attemptPut, Traffic.attemptPut, tried, tried']
    exact h.finish kept echoes _

omit [DecidableEq κ] in
theorem beginRequest (h : t.Shadows ρ t') (who : κ) (interest : Interest) (timeout : Nat) :
    (t.beginRequest who interest timeout).Shadows ρ (t'.beginRequest who interest timeout) := by
  rw [Traffic.beginRequest, Traffic.beginRequest, Buffer.request, Buffer.request, h.buffer.phase]
  by_cases phase : t.buffer.phase = .closed
  · rw [if_pos phase, if_pos phase]
    exact h.finish_quiet h.buffer _
  · rw [if_neg phase, if_neg phase]
    obtain ⟨nothing, nothing'⟩ | ⟨block, entries, entries', taken, taken', same⟩ :=
      h.buffer.take?_cases interest
    · rw [nothing, nothing']
      have parked := h.buffer.enroll interest
      have first : ρ t.buffer.nextId = t'.buffer.nextId := h.buffer.next 0
      dsimp only
      rw [← first, h.now]
      split
      · exact h.finish_quiet (parked.forget _) _
      · have undrained :
            (Call.request t.buffer.nextId (t.now + timeout) .empty).isDrain = false := rfl
        have waits := (h.with_buffer parked).wait who undrained
        rwa [h.now] at waits
    · rw [taken, taken']
      have kept := h.buffer.of_entries same
      exact h.finish kept (Buffer.echoes_delivery ρ kept.bestEffort) _

theorem resume (h : t.Shadows ρ t') (orderly : t.buffer.Orderly) (orderly' : t'.buffer.Orderly)
    (who : κ) (shared : ¬t'.CopiedOnly (.resume who)) :
    (t.resume who).Shadows ρ (t'.resume who) := by
  have free := h.withoutCall who
  have same := h.call? who
  rw [Traffic.resume, Traffic.resume]
  cases waits : t.call? who with
  | none =>
    rw [waits, Option.map_none] at same
    rw [same]
    exact h.idle
  | some call =>
    rw [waits, Option.map_some] at same
    rw [same]
    cases call with
    | put block deadline woken =>
      dsimp only [Call.renumber] at same ⊢
      rw [h.now]
      cases woken with
      | true =>
        rw [if_pos rfl, if_pos rfl]
        apply free.attemptPut orderly orderly'
        intro c ns tried copied
        exact shared ⟨block, (Puts.resumed same).inserts? tried, copied⟩
      | false =>
        rw [if_neg Bool.false_ne_true, if_neg Bool.false_ne_true, capacityExceeded,
          capacityExceeded, h.buffer.capacity, h.buffer.size]
        split
        · exact free.finish_quiet h.buffer _
        · exact h.idle
    | request id deadline slot =>
      dsimp only [Call.renumber]
      cases slot with
      | handed block => exact free.finish_quiet h.buffer _
      | released => exact free.finish_quiet h.buffer _
      | empty =>
        dsimp only
        rw [h.now]
        split
        · exact free.finish_quiet (h.buffer.forget id) _
        · exact h.idle
    | drain => cases h.undrained _ (mem_of_call? waits)

theorem cancel (h : t.Shadows ρ t') (who : κ) : (t.cancel who).Shadows ρ (t'.cancel who) := by
  have free := h.withoutCall who
  rw [Traffic.cancel, Traffic.cancel, h.call? who]
  cases t.call? who with
  | none => exact free.finish_quiet h.buffer _
  | some call =>
    cases call with
    | put => exact free.finish_quiet h.buffer _
    | request id => exact free.finish_quiet (h.buffer.forget id) _
    | drain => exact free.finish_quiet h.buffer _

end Shadows

def Move.isTrade : Move κ → Bool
  | .drain .. | .close .. | .unsubscribe .. => false
  | _ => true

def Move.isWatch : Move κ → Bool
  | .subscribe .. | .read .. => true
  | _ => false

variable [DecidableEq κ] {m : Move κ}

theorem Shadows.step (h : t.Shadows ρ t') (orderly : t.buffer.Orderly)
    (orderly' : t'.buffer.Orderly) (trade : m.isTrade = true) (acts : m.isWatch = false)
    (shared : ¬t'.CopiedOnly m) : (t.step m).Shadows ρ (t'.step m) := by
  have room : Buffer.Echoes ρ [.space] [.space] := Buffer.echoes_self ρ (by simp)
  have removal : Buffer.Echoes ρ Buffer.removalNotices Buffer.removalNotices :=
    Buffer.echoes_self ρ (by simp [Buffer.removalNotices])
  cases m with
  | drain | close | unsubscribe => contradiction
  | subscribe | read => contradiction
  | put who block =>
    simp only [Traffic.step]
    rw [h.now, h.buffer.config]
    refine h.begin who fun free => h.attemptPut orderly orderly' who _ ?_
    intro c ns tried copied
    exact shared ⟨block, (Puts.begun free).inserts? tried, copied⟩
  | request who interest timeout => exact h.begin who fun _ => h.beginRequest who interest timeout
  | resume who => exact h.resume orderly orderly' who shared
  | cancel who => exact h.cancel who
  | tick ms => exact ⟨⟨h.buffer, congrArg (· + ms) h.now, h.calls, h.undrained⟩, rfl⟩
  | setCapacity n => exact h.finish (h.buffer.resize n) room _
  | addNamespace name => exact h.finish_quiet (h.buffer.addNamespace name) _
  | removeNamespace name =>
    obtain ⟨kept, same⟩ := h.buffer.removeNamespace name
    simp only [Traffic.step]
    rw [same]
    exact h.finish_quiet kept _
  | clear =>
    simp only [Traffic.step]
    rw [h.buffer.size]
    exact h.finish h.buffer.clear removal _
  | remove name =>
    obtain ⟨absent, absent'⟩ | ⟨block, c, c', found, found', kept⟩ := h.buffer.remove?_cases name
    · simp only [Traffic.step, absent, absent']
      exact h.finish_quiet h.buffer _
    · simp only [Traffic.step, found, found']
      exact h.finish kept removal _

theorem Shadows.watch (h : t.Shadows ρ t') (sound : t.Sound) (watch : m.isWatch = true) :
    ∃ ρ', t.Shadows ρ' (t'.step m).traffic := by
  cases m with
  | subscribe interest limit =>
    simp only [Traffic.step]
    cases opened : t'.buffer.subscribe? interest limit with
    | none => exact ⟨ρ, h⟩
    | some c' =>
      obtain ⟨ρ', before, kept⟩ := h.buffer.subscribe sound.buffer opened
      refine ⟨ρ', kept, h.now, ?_, h.undrained⟩
      show t'.calls = _
      rw [h.calls]
      apply List.map_congr_left
      rintro ⟨who, call⟩ listed
      cases call with
      | request id => rw [Call.renumber, Call.renumber, before id (sound.issued _ _ _ _ listed)]
      | put | drain => rfl
  | read feed => exact ⟨ρ, h.buffer.read feed, h.now, h.calls, h.undrained⟩
  | _ => contradiction

theorem step_orderly (h : t.buffer.Orderly) (m : Move κ) :
    (t.step m).traffic.buffer.Orderly := by
  obtain ⟨f, outcome, shows⟩ := t.step_explained m
  rw [shows.traffic]
  exact (outcome.change h.consistent).orderly h

/-- What the requests of a run come to, each with its caller. A request that
waits comes to nothing yet. -/
def results (t : Traffic κ) : List (Move κ) → List (κ × Option (Except PublishError Answer))
  | [] => []
  | m :: rest =>
    ((t.requester? m).map fun who => (who, (t.step m).answer)).toList ++
      (t.step m).traffic.results rest

theorem results_append (t : Traffic κ) (ms rest : List (Move κ)) :
    t.results (ms ++ rest) = t.results ms ++ (t.run ms).results rest := by
  induction ms generalizing t with
  | nil => rfl
  | cons m ms ih => rw [List.cons_append, results, results, ih, List.append_assoc]; rfl

theorem Shadows.requester? (h : t.Shadows ρ t') (m : Move κ) :
    t'.requester? m = t.requester? m := by
  cases m with
  | resume who =>
    rw [Traffic.requester?, Traffic.requester?, h.call?]
    cases t.call? who with
    | none => rfl
    | some call => cases call <;> rfl
  | _ => rfl

/-- While no block is delivered to filters alone, the requests of a run come to
the same with the filters and without. -/
theorem Shadows.run (h : t.Shadows ρ t') (sound : t.Sound) (orderly : t.buffer.Orderly)
    (orderly' : t'.buffer.Orderly) (ms : List (Move κ)) (trades : ∀ m ∈ ms, m.isTrade = true)
    (shared : ∀ before m after, ms = before ++ m :: after → ¬(t'.run before).CopiedOnly m) :
    t'.results ms = t.results (ms.filter fun m => !m.isWatch) ∧
      ∃ ρ', (t.run (ms.filter fun m => !m.isWatch)).Shadows ρ' (t'.run ms) := by
  induction ms generalizing t t' ρ with
  | nil => exact ⟨rfl, ρ, h⟩
  | cons m rest ih =>
    have trade := trades m List.mem_cons_self
    have others : ∀ m ∈ rest, m.isTrade = true := fun m hm => trades m (List.mem_cons_of_mem _ hm)
    have later : ∀ before m' after, rest = before ++ m' :: after →
        ¬((t'.step m).traffic.run before).CopiedOnly m' := fun before m' after split =>
      shared (m :: before) m' after (by rw [split]; rfl)
    cases watch : m.isWatch with
    | true =>
      obtain ⟨ρ', kept⟩ := h.watch sound watch
      have unasked : t'.requester? m = none := by
        cases m with
        | subscribe | read => rfl
        | _ => contradiction
      rw [List.filter_cons_of_neg (by simp [watch]), results, unasked]
      exact ih kept sound orderly (step_orderly orderly' m) others later
    | false =>
      obtain ⟨kept, answer⟩ := h.step orderly orderly' trade watch (shared [] m rest rfl)
      obtain ⟨same, after⟩ :=
        ih kept (step_sound sound m) (step_orderly orderly m) (step_orderly orderly' m) others later
      rw [List.filter_cons_of_pos (by simp [watch]), results, results, h.requester?, answer, same]
      exact ⟨rfl, after⟩

end Traffic

end NamedContent
