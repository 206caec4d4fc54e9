import Mathlib
import NamedContent.Proofs.Segmenter.Verifying
import NamedContent.Proofs.World.Course
import NamedContent.Proofs.World.Keys

/-!
# What a put hands over

The blocks that a task hands to the buffer are listed act by act. The list is
exact: between the moves of everybody else these are the puts that the task
makes. A segmenter's put hands over the blocks of its plan in their order, up
to where it has come or has failed, and nothing else; if it ends well it has
handed over all of them.
-/

set_option autoImplicit false

namespace NamedContent

/-- The blocks that somebody puts by these moves. -/
def Traffic.putsOf {κ : Type} [DecidableEq κ] (who : κ) (ms : List (Move κ)) : List Block :=
  ms.filterMap fun
    | .put other block => if other = who then some block else none
    | _ => none

namespace Traffic

variable {κ : Type} [DecidableEq κ] {who : κ}

theorem putsOf_append (ms rest : List (Move κ)) :
    putsOf who (ms ++ rest) = putsOf who ms ++ putsOf who rest := List.filterMap_append

def Move.PutsNothing (who : κ) (m : Move κ) : Prop := ∀ block, m ≠ .put who block

theorem putsOf_eq_nil {ms : List (Move κ)} (idle : ∀ m ∈ ms, m.PutsNothing who) :
    putsOf who ms = [] := by
  rw [putsOf, List.filterMap_eq_nil_iff]
  intro m mem
  split
  · rename_i other block
    rw [if_neg]
    rintro rfl
    exact idle _ mem block rfl
  · rfl

end Traffic

namespace World

/-- The blocks that are handed over one after the other, up to the first that
has to wait or is refused. -/
def handing (n : Nat) : List Block → World → List Block
  | [], _ => []
  | block :: rest, w =>
    block :: match w.move (.put (.task n) block) with
      | (w, some (.ok _)) => handing n rest w
      | _ => []

def handedWriting (w : World) (n : Nat) (s : Segmenter) (name : Name) (content : Bytes)
    (options : Segmenter.Options) : List Block :=
  match s.plan w.keys (Int64.ofNat (1000 * w.now)) name content options with
  | .ok ⟨_, holdings, .ok writing⟩ => handing n writing.blocks (w.applyHoldings holdings)
  | _ => []

def handed (w : World) (n k : Nat) : Act → List Block
  | .event (.put block) => if k = n then [block] else []
  | .event (.write id name content options) =>
    if k = n then
      match w.segmenters.find? id with
      | none => []
      | some s => (Session.takeSegmenter w id).handedWriting n s name content options
    else []
  | .event (.resume task) =>
    if task = n then
      match w.task? n, w.move (.resume (.task n)) with
      | some (.writing _ _ _ rest), (w, some (.ok _)) => handing n rest.blocks w
      | _, _ => []
    else []
  | _ => []

/-- The blocks that task `n` hands over in these acts, of which the first has number `k`. -/
def handedThrough (w : World) (n k : Nat) : List Act → List Block
  | [] => []
  | a :: rest => w.handed n k a ++ (w.act k a).handedThrough n (k + 1) rest

/-- The buffer came from one world to the other by moves of which these are the puts of a task. -/
def Puts (n : Nat) (w w' : World) (blocks : List Block) : Prop :=
  ∃ ms, w'.traffic = w.traffic.run ms ∧ Traffic.putsOf (.task n) ms = blocks

variable {w w' w'' : World} {n k limit : Nat} {id : String} {left : Segmenter}
  {whole : Option Segmenter} {blocks blocks' : List Block}

theorem Puts.of_same (traffic : w'.traffic = w.traffic) : Puts n w w' [] := ⟨[], traffic, rfl⟩

theorem Puts.trans (h : Puts n w w' blocks) (h' : Puts n w' w'' blocks') :
    Puts n w w'' (blocks ++ blocks') := by
  obtain ⟨ms, traffic, rfl⟩ := h
  obtain ⟨ms', traffic', rfl⟩ := h'
  exact ⟨ms ++ ms', by rw [traffic', traffic, Traffic.run_append], Traffic.putsOf_append ms ms'⟩

theorem Puts.of_confined {own : Nat}
    (confined : Confined own (Traffic.Move.PutsNothing (.task n)) w w') : Puts n w w' [] := by
  obtain ⟨ms, idle, traffic⟩ := confined.moves
  exact ⟨ms, traffic, Traffic.putsOf_eq_nil idle⟩

theorem puts_moved (w : World) (m : Traffic.Move Caller) :
    Puts n w (w.moved m) (Traffic.putsOf (.task n) [m]) := ⟨[m], moved_traffic w m, rfl⟩

theorem putsOf_put (n : Nat) (block : Block) :
    Traffic.putsOf (Caller.task n) [.put (.task n) block] = [block] := by
  simp [Traffic.putsOf]

theorem holding_putsNothing (h : Segmenter.Holding) :
    h.move.PutsNothing (.task n) := by
  cases h <;> exact fun _ => nofun

theorem resume_putsNothing (who : Caller) : (Traffic.Move.resume who).PutsNothing (.task n) :=
  fun _ => nofun

theorem puts_holdings (w : World) (holdings : List Segmenter.Holding) :
    Puts n w (w.applyHoldings holdings) [] := by
  have start : Worked n (Traffic.Move.PutsNothing (.task n)) w w := .refl
  exact .of_confined (start.holdings holding_putsNothing holdings).confined

theorem puts_putBlocks (id : String) (s : Segmenter) (blocks : List Block) (w : World)
    (writing : Segmenter.Writing) :
    Puts n w (putBlocks n id s blocks w writing) (handing n blocks w) := by
  induction blocks generalizing w writing with
  | nil => exact puts_holdings w _
  | cons block rest ih =>
    have first : Puts n w (w.moved (.put (.task n) block)) [block] :=
      putsOf_put n block ▸ puts_moved w _
    rw [putBlocks, handing, move_eq]
    cases (w.traffic.step (.put (.task n) block)).answer with
    | none => exact first
    | some result =>
      cases result with
      | error e => exact first
      | ok _ => exact first.trans (ih _ _)

theorem puts_beginWriting (w : World) (id : String) (s : Segmenter) (name : Name)
    (content : Bytes) (options : Segmenter.Options) :
    Puts n w (w.beginWriting n id s name content options)
      (w.handedWriting n s name content options) := by
  rw [beginWriting, handedWriting]
  cases s.plan w.keys (Int64.ofNat (1000 * w.now)) name content options with
  | error error => exact .of_same rfl
  | ok plan =>
    obtain ⟨entering, holdings, written⟩ := plan
    have entered := w.puts_holdings (n := n) holdings
    cases written with
    | error error => exact entered
    | ok writing => exact entered.trans (puts_putBlocks id entering writing.blocks _ writing)

theorem puts_write (id : String) (name : Name) (content : Bytes) (options : Segmenter.Options) :
    Puts n w (w.step n (.write id name content options))
      (w.handed n n (.event (.write id name content options))) := by
  rw [handed, if_pos rfl]
  cases filed : w.segmenters.find? id with
  | none =>
    rw [step, Session.withSegmenter, filed]
    exact .of_same rfl
  | some s =>
    rw [step_write filed]
    exact puts_beginWriting (Session.takeSegmenter w id) id s name content options

theorem puts_resume (onBuffer : ∀ x ∈ w.tasks, x.2.OnBuffer) :
    Puts n w (w.step k (.resume n)) (w.handed n k (.event (.resume n))) := by
  have goes : Puts n w (w.moved (.resume (.task n))) [] := puts_moved w _
  show Puts n w (w.resumeTask n) _
  rw [handed, if_pos rfl, resumeTask, move_eq]
  cases found : w.task? n with
  | none => exact .of_same rfl
  | some task =>
    cases task with
    | writing id s block rest =>
      show Puts n w (w.resumeWriting n id s block rest) _
      rw [resumeWriting, move_eq]
      cases (w.traffic.step (.resume (.task n))).answer with
      | none => exact goes
      | some result =>
        cases result with
        | error e => exact goes
        | ok _ => exact goes.trans (puts_putBlocks id s rest.blocks _ _)
    | calling => exact .of_confined (Worked.resumeCall .refl (resume_putsNothing _)).confined
    | closing id s =>
      exact .of_confined (Worked.resumeClosing .refl (resume_putsNothing _) id s).confined
    | expressing | fetching | sending => exact (onBuffer _ (mem_of_task? found)).elim

theorem puts_put (block : Block) :
    Puts n w (w.step n (.put block)) (w.handed n n (.event (.put block))) := by
  have first : Puts n w (w.moved (.put (.task n) block)) [block] :=
    putsOf_put n block ▸ puts_moved w _
  rw [handed, if_pos rfl, step, beginCall, move_eq]
  cases (w.traffic.step (.put (.task n) block)).answer <;> exact first

theorem number_of_put {block block' : Block}
    (same : Traffic.Move.put (Caller.task k) block = .put (.task n) block') : k = n := by
  cases same
  rfl

theorem puts_step (onBuffer : ∀ x ∈ w.tasks, x.2.OnBuffer) (n k : Nat) (e : Event) :
    Puts n w (w.step k e) (w.handed n k (.event e)) := by
  have other (makes : e.Makes (Traffic.Move.PutsNothing (.task n)) k) : Puts n w (w.step k e) [] :=
    .of_confined (step_confined holding_putsNothing makes)
  cases e with
  | put block =>
    by_cases own : k = n
    · subst own
      exact puts_put block
    · rw [handed, if_neg own]
      exact other fun _ same => own (number_of_put same)
  | write id name content options =>
    by_cases own : k = n
    · subst own
      exact puts_write id name content options
    · rw [handed, if_neg own]
      exact other fun _ _ same => own (number_of_put same)
  | resume task =>
    by_cases own : task = n
    · subst own
      exact puts_resume onBuffer
    · rw [handed, if_neg own]
      exact other ⟨resume_putsNothing _,
        fun _ _ same => own (number_of_put same)⟩
  | move m =>
    refine other fun _ same => ?_
    have caller := congrArg Traffic.Move.caller? same
    rw [Traffic.Move.caller?_map] at caller
    cases m.caller? <;> simp [Traffic.Move.caller?] at caller
  | request | drain | close | closeSegmenter | cancel => exact other fun _ => nofun
  | _ => exact other trivial

/-- What an act lets a task hand over is in the list, and nothing else is. -/
theorem puts_act (onBuffer : ∀ x ∈ w.tasks, x.2.OnBuffer) (n k : Nat) (a : Act) :
    Puts n w (w.act k a) (w.handed n k a) := by
  cases a with
  | event e => exact puts_step onBuffer n k e
  | giveUp task =>
    exact .of_confined (Worked.giveUp holding_putsNothing (fun _ => nofun) w).confined

theorem puts_through (ordered : w.Ordered limit) (n : Nat) (acts : List Act) :
    Puts n w (w.throughActs limit acts) (w.handedThrough n limit acts) := by
  induction acts generalizing w limit with
  | nil => exact .of_same rfl
  | cons a rest ih => exact (puts_act ordered.onBuffer n limit a).trans (ih (ordered.act a))

/-- So many of the planned blocks have been handed over. If the task is still at work then
the others are still to come, and if it has ended well then there are no others. -/
structure Along (w : World) (n : Nat) (planned done : List Block) : Prop where
  handed : done <+: planned
  working : ∀ task, (n, task) ∈ w.tasks → ∃ id s block rest,
    task = .writing id s block rest ∧ planned = done ++ rest.blocks
  arrived : ∀ time answer, (n, time, .ok answer) ∈ w.ended → done = planned

variable {planned done : List Block}

theorem Along.of_same (h : w.Along n planned done)
    (tasks : ∀ task, (n, task) ∈ w'.tasks → (n, task) ∈ w.tasks)
    (ended : ∀ x, (n, x) ∈ w'.ended → (n, x) ∈ w.ended) : w'.Along n planned done where
  handed := h.handed
  working := fun task mem => h.working task (tasks task mem)
  arrived := fun time answer mem => h.arrived time answer (ended _ mem)

theorem Unended.along_failed (unended : w.Unended n) (handed : done <+: planned) (loan : Loan)
    (fault : Fault) : (w.finishWith n loan (.error fault)).Along n planned done where
  handed := handed
  working := fun task mem => absurd mem (not_mem_dropTask w n task)
  arrived := fun time answer ended => by
    cases (mem_ended_finishWith ended).resolve_left (unended.ended _)

theorem Unended.putBlocks_along {left : List Block} (unended : w.Unended n)
    (split : planned = done ++ left) (id : String) (s : Segmenter) (writing : Segmenter.Writing) :
    (World.putBlocks n id s left w writing).Along n planned (done ++ handing n left w) := by
  -- every block that is handed over goes over from those left to those done
  induction left generalizing w done writing with
  | nil =>
    exact ⟨split ▸ List.prefix_rfl, fun task mem => absurd mem (not_mem_dropTask _ n task),
      fun _ _ _ => split.symm⟩
  | cons block rest ih =>
    have next := unended.moved (.put (.task n) block)
    have split' : planned = (done ++ [block]) ++ rest := by simpa using split
    have handed : done ++ [block] <+: planned := split' ▸ List.prefix_append _ _
    rw [World.putBlocks, handing, move_eq]
    cases (w.traffic.step (.put (.task n) block)).answer with
    | none =>
      exact ⟨handed, fun task mem => ⟨id, s, block, _, eq_of_mem_setTask mem, split'⟩,
        fun _ _ ended => absurd ended (next.ended _)⟩
    | some result =>
      cases result with
      | error e => exact next.along_failed handed _ _
      | ok _ =>
        have later := ih next split' (writing.arrived block rest)
        rwa [List.append_assoc] at later

theorem Unended.beginWriting_along (unended : w.Unended n) (id : String) (s : Segmenter)
    (name : Name) (content : Bytes) (options : Segmenter.Options) :
    (w.beginWriting n id s name content options).Along n
      (s.plannedBlocks w.keys (Int64.ofNat (1000 * w.now)) name content options)
      (w.handedWriting n s name content options) := by
  rw [World.beginWriting, handedWriting, Segmenter.plannedBlocks]
  cases s.plan w.keys (Int64.ofNat (1000 * w.now)) name content options with
  | error error => exact unended.along_failed List.prefix_rfl _ _
  | ok plan =>
    obtain ⟨entering, holdings, written⟩ := plan
    have entered := unended.holdings holdings
    cases written with
    | error error => exact entered.along_failed List.prefix_rfl _ _
    | ok writing =>
      exact entered.putBlocks_along (List.nil_append writing.blocks).symm id entering writing

section Along

variable (h : w.Along n planned done) (course : w.Course n id left whole)
include h course

theorem Along.resumeTask :
    (w.resumeTask n).Along n planned (done ++ w.handed n k (.event (.resume n))) := by
  rw [World.resumeTask, World.handed, if_pos rfl, move_eq]
  cases found : w.task? n with
  | none =>
    rw [List.append_nil]
    exact h
  | some task =>
    obtain ⟨unended, -⟩ := course.working task (mem_of_task? found)
    obtain ⟨id, s, block, rest, rfl, split⟩ := h.working task (mem_of_task? found)
    have next := unended.moved (.resume (.task n))
    show (w.resumeWriting n id s block rest).Along n planned _
    rw [resumeWriting, move_eq]
    cases (w.traffic.step (.resume (.task n))).answer with
    | none =>
      rw [List.append_nil]
      exact h.of_same (by simp) (by simp)
    | some result =>
      cases result with
      | error e =>
        rw [List.append_nil]
        exact next.along_failed h.handed _ _
      | ok _ => exact next.putBlocks_along split id s _

omit course in
theorem Along.cancelTask : (w.cancelTask n).Along n planned done := by
  cases found : w.task? n with
  | none =>
    rw [World.cancelTask, found]
    exact h
  | some task =>
    obtain ⟨id, s, block, rest, rfl, -⟩ := h.working task (mem_of_task? found)
    rw [World.cancelTask, found]
    apply h.of_same
    · simp [World.dropSegmenter, World.dropTask]
    · simp [World.dropSegmenter, World.dropTask]

omit course in
theorem Along.giveUp : (w.giveUp n).Along n planned done := by
  have given := w.givenUp_giveUp n
  generalize w.giveUp n = w' at given
  cases given with
  | dropped => exact h.cancelTask
  | kept =>
    apply h.of_same
    · simp [World.dropTask]
    · simp [World.dropTask]

omit h course in
theorem handed_eq_nil {a : Act} (other : a.own k ≠ n) : w.handed n k a = [] := by
  cases a with
  | event e =>
    cases e with
    | put | write | resume => exact if_neg other
    | _ => rfl
  | giveUp => rfl

theorem Along.act (begun : n < limit) (a : Act) :
    (w.act limit a).Along n planned (done ++ w.handed n limit a) := by
  obtain rfl | rfl | rfl | other := a.own_cases begun
  · exact h.resumeTask course
  · show (w.cancelTask n).Along n planned (done ++ [])
    rw [List.append_nil]
    exact h.cancelTask
  · show (w.giveUp n).Along n planned (done ++ [])
    rw [List.append_nil]
    exact h.giveUp
  · have confined := w.act_apart limit a
    rw [handed_eq_nil other, List.append_nil]
    apply h.of_same
    · exact fun task mem => (confined.tasks _ mem).resolve_right other.symm
    · exact fun x mem => (confined.ended _ mem).resolve_right other.symm

theorem Along.throughActs (begun : n < limit) (acts : List Act) :
    (w.throughActs limit acts).Along n planned (done ++ w.handedThrough n limit acts) := by
  induction acts generalizing w limit done with
  | nil =>
    rw [handedThrough, List.append_nil]
    exact h
  | cons a rest ih =>
    rw [handedThrough, ← List.append_assoc]
    exact ih (h.act course begun a) (course.act begun a) (by omega)

end Along

section Lived

variable (config : Buffer.Config) (key : Ed25519.SigningKey) {before : List Act} {s : Segmenter}
  (filed : (lived config key before).segmenters.find? id = some s) (name : Name)
  (content : Bytes) (options : Segmenter.Options) (after : List Act)

include filed

theorem lived_along :
    let w := lived config key before
    let acts := Act.event (.write id name content options) :: after
    (lived config key (before ++ acts)).Along before.length
      (s.plannedBlocks w.keys (Int64.ofNat (1000 * w.now)) name content options)
      (w.handedThrough before.length before.length acts) := by
  intro w acts
  have unborn : w.Unborn before.length := lived_unborn config key before
  have unended : (Session.takeSegmenter w id).Unended before.length :=
    ⟨unborn.ended, unborn.returned⟩
  have begun : (w.act before.length (.event (.write id name content options))).Along before.length
      (s.plannedBlocks w.keys (Int64.ofNat (1000 * w.now)) name content options)
      (w.handed before.length before.length (.event (.write id name content options))) := by
    show (w.step before.length (.write id name content options)).Along _ _ _
    rw [step_write filed, World.handed, if_pos rfl, filed]
    exact unended.beginWriting_along id s name content options
  have course := lived_course config key filed name content options []
  dsimp only at course
  rw [lived_append] at course
  rw [lived_append]
  exact begun.throughActs course (Nat.lt_succ_self _) after

/-- A put that has ended well has handed over its whole plan. -/
theorem handedThrough_of_arrived {time : Nat} {answer : Answer}
    (ended : (before.length, time, .ok answer) ∈
      (lived config key (before ++ .event (.write id name content options) :: after)).ended) :
    let w := lived config key before
    w.handedThrough before.length before.length (.event (.write id name content options) :: after) =
      s.plannedBlocks w.keys (Int64.ofNat (1000 * w.now)) name content options :=
  (lived_along config key filed name content options after).arrived time answer ended

end Lived

/-- All that segmenters publish verifies. Over any key ring that there can be,
all blocks of any plan verify under the key of the publisher, and by themselves
if the put left the locator to the ring. What a put hands over to the buffer in
any world, with whatever goes on around it, is exactly what its task puts there;
it is a beginning of the blocks of its plan, and so all of it verifies. -/
theorem handed_blocks_verify :
    (∀ keys : KeyRing, keys.Reachable → ∀ (s : Segmenter) (timestamp : Int64) (name : Name)
      (content : Bytes) (options : Segmenter.Options),
      ∀ b ∈ s.plannedBlocks keys timestamp name content options, b.Passes keys options) ∧
    ∀ (config : Buffer.Config) (key : Ed25519.SigningKey) (before after : List Act)
      (id : String) (s : Segmenter), (lived config key before).segmenters.find? id = some s →
      ∀ (name : Name) (content : Bytes) (options : Segmenter.Options),
        let w := lived config key before
        let acts := Act.event (.write id name content options) :: after
        let handed := w.handedThrough before.length before.length acts
        (∃ ms, (lived config key (before ++ acts)).traffic = w.traffic.run ms ∧
          Traffic.putsOf (.task before.length) ms = handed) ∧
        handed <+: s.plannedBlocks w.keys (Int64.ofNat (1000 * w.now)) name content options ∧
        ∀ b ∈ handed, b.Passes w.keys options := by
  refine ⟨fun keys reachable s timestamp name content options b mem =>
    Segmenter.passes_of_mem_plannedBlocks reachable mem, ?_⟩
  intro config key before after id s filed name content options w acts handed
  have along := lived_along config key filed name content options after
  refine ⟨?_, along.handed, fun b mem => ?_⟩
  · rw [lived_append]
    exact puts_through (lived_ordered config key before) before.length acts
  · exact Segmenter.passes_of_mem_plannedBlocks (lived_keys config key before)
      (along.handed.subset mem)

def onePlace : Buffer.Config := { capacity := 1, mode := .persistent, overflow := .fail }

def byOnes : List Act := [.event (.newSegmenter "s" { blockSize := 1 })]

theorem byOnes_segmenter : (lived onePlace Segmenter.exampleKey byOnes).segmenters.find? "s" =
    some ⟨{ blockSize := 1 }, 0, none, none⟩ := by decide +kernel

/-- Of three blocks the second finds no place, and the third is not handed over. -/
theorem handed_blocks_verify_partly :
    let w := lived onePlace Segmenter.exampleKey byOnes
    let put := Act.event (.write "s" ⟨[⟨[97]⟩]⟩ [1, 2, 3] {})
    let planned := Segmenter.plannedBlocks ⟨{ blockSize := 1 }, 0, none, none⟩ w.keys
      (Int64.ofNat (1000 * w.now)) ⟨[⟨[97]⟩]⟩ [1, 2, 3] {}
    let handed := w.handedThrough 1 1 [put]
    w.keys.Reachable ∧ planned.length = 3 ∧ handed.length = 2 ∧ handed <+: planned ∧
      (∀ time answer, (1, time, .ok answer) ∉
        (lived onePlace Segmenter.exampleKey (byOnes ++ [put])).ended) ∧
      ∀ b ∈ planned, b.Passes w.keys {} := by
  intro w put planned handed
  have reachable : w.keys.Reachable := lived_keys onePlace Segmenter.exampleKey byOnes
  have begins : handed <+: planned :=
    (handed_blocks_verify.2 onePlace Segmenter.exampleKey byOnes [] "s" _
      byOnes_segmenter ⟨[⟨[97]⟩]⟩ [1, 2, 3] {}).2.1
  have two : handed.length = 2 := by decide +kernel
  have nonempty : planned ≠ [] := by
    intro none
    have short := begins.length_le
    rw [two, none] at short
    exact absurd short (by decide)
  have three : planned.length = 3 := by
    obtain ⟨data, sliced, drafts⟩ := Segmenter.plannedBlocks_drafts nonempty
    obtain rfl := Except.ok.inj sliced
    have count := congrArg List.length drafts
    rwa [List.length_map] at count
  refine ⟨reachable, three, two, begins, fun time answer ended => ?_,
    handed_blocks_verify.1 _ reachable _ _ _ _ _⟩
  have whole : handed = planned :=
    handedThrough_of_arrived onePlace Segmenter.exampleKey byOnes_segmenter _ _ _ [] ended
  have same : handed.length = planned.length := congrArg List.length whole
  rw [two, three] at same
  exact absurd same (by decide)

end World

end NamedContent
