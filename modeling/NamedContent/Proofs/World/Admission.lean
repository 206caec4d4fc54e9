import Mathlib
import NamedContent.Proofs.Segmenter.Rising
import NamedContent.Proofs.World.GivingUp

/-!
# Segmenters write under what they hold

A put holds the root of its stream as a namespace, and its blocks are named
under it, unless the root itself ends in a segment number: that is taken for
the number of a block and replaced. Where it does not, no block of the put is
ever found outside the namespaces.
-/

set_option autoImplicit false

namespace NamedContent

theorem Name.segmentName_eq_append_iff {root : Name} {number : UInt64} :
    root.segmentName number = root.append (.segment number) ↔ root.isSegment = false := by
  constructor
  · intro same
    by_contra nested
    have read : root.isSegment = true := by simpa using nested
    have some : root.components ≠ [] := by
      intro none
      simp [isSegment, segmentNumber?, last?, none] at read
    have lengths := congrArg Name.length same
    have positive := List.length_pos_iff.mpr some
    simp [segmentName, segmentRoot, read, append, truncate, length] at lengths
    omega
  · intro apart
    simp [segmentName, segmentRoot, apart]

theorem KeyRing.signingKey_ofKey (key : Ed25519.SigningKey) :
    (KeyRing.ofKey key).signingKey (KeyRing.ofKey key).default = .ok key := by
  have found : (KeyRing.ofKey key).keys.find? (KeyRing.ofKey key).default = some key := by
    rw [ofKey, Table.find?_insert]
    exact if_pos rfl
  rw [signingKey, found]

namespace World

variable {w w' : World} {n limit : Nat}

/-- The task has not ended with a fault in its arguments. -/
def Unrefused (w : World) (n : Nat) : Prop :=
  ∀ time fault, (n, time, .error (.publish (.invalidArgument fault))) ∉ w.ended

/-- The task has not been refused, and as long as it goes on it writes under the
namespace that it holds. -/
structure Within (w : World) (n : Nat) : Prop where
  unrefused : w.Unrefused n
  writing : ∀ task, (n, task) ∈ w.tasks → ∃ id s block rest root,
    task = .writing id s block rest ∧ s.held = some root ∧ root.isSegment = false

theorem Within.of_same (h : w.Within n) (tasks : ∀ task, (n, task) ∈ w'.tasks → (n, task) ∈ w.tasks)
    (ended : ∀ x, (n, x) ∈ w'.ended → (n, x) ∈ w.ended) : w'.Within n :=
  ⟨fun time fault mem => h.unrefused time fault (ended _ mem),
    fun task mem => h.writing task (tasks task mem)⟩

theorem finishWith_within (unrefused : w.Unrefused n) (loan : Loan) {outcome : Outcome}
    (good : ∀ fault, outcome ≠ .error (.publish (.invalidArgument fault))) :
    (w.finishWith n loan outcome).Within n where
  unrefused := by
    intro time fault mem
    obtain old | same := mem_ended_finishWith mem
    · exact unrefused time fault old
    · exact good fault same.symm
  writing := fun task mem => absurd mem (not_mem_dropTask w n task)

theorem Lent.admitted {s : Segmenter} (h : w.Lent n [s]) {root : Name} (held : s.held = some root)
    {block : Block} (name : block.name = root.append (.segment block.sequence))
    {m : Traffic.Move Caller} (puts : w.traffic.PutsOn m (.task n) block) {error : PublishError}
    (failed : (w.traffic.step m).answer = some (.error error)) (fault : ArgumentFault) :
    error ≠ .invalidArgument fault := by
  rintro rfl
  have refused := Traffic.admits_of_invalid puts failed
  rw [name, Buffer.admits_of_holders (h.ledger.holds held)] at refused
  contradiction

theorem endWriting_within (unrefused : w.Unrefused n) (id : String) (s : Segmenter)
    (writing : Segmenter.Writing) : (w.endWriting n id s writing).Within n := by
  have same : (w.applyHoldings (s.complete writing).2).Unrefused n := by
    rw [Unrefused, applyHoldings_ended]
    exact unrefused
  refine finishWith_within same _ fun fault bad => ?_
  cases first : writing.first with
  | none => simp [first] at bad
  | some block => simp [first] at bad

/-- The names of blocks directly under a root. -/
def Under (root : Name) (blocks : List Block) : Prop :=
  ∀ b ∈ blocks, b.name = root.append (.segment b.sequence)

section Writing

variable {s : Segmenter} {root : Name} (held : s.held = some root) (apart : root.isSegment = false)
include held apart

theorem Lent.putBlocks_within (h : w.Lent n [s]) (unrefused : w.Unrefused n) (id : String)
    {blocks : List Block} (under : Under root blocks) (free : w.traffic.call? (.task n) = none)
    (writing : Segmenter.Writing) : (World.putBlocks n id s blocks w writing).Within n := by
  induction blocks generalizing w writing with
  | nil => exact endWriting_within unrefused id s writing
  | cons block rest ih =>
    have puts : w.traffic.PutsOn (.put (.task n) block) (.task n) block := .inl ⟨rfl, free⟩
    have next : (w.moved (.put (.task n) block)).Lent n [s] := h.moved (by simp)
    have still : (w.moved (.put (.task n) block)).Unrefused n := by
      rw [Unrefused, moved_ended]
      exact unrefused
    rw [World.putBlocks, move_eq]
    cases answer : (w.traffic.step (.put (.task n) block)).answer with
    | none =>
      exact ⟨still, fun task mem => ⟨_, _, _, _, root, eq_of_mem_setTask mem, held, apart⟩⟩
    | some result =>
      cases result with
      | error e =>
        have admitted := h.admitted held (under block List.mem_cons_self) puts answer
        exact finishWith_within still _ fun fault bad => admitted fault (by simpa using bad)
      | ok _ =>
        refine ih next still (fun b mem => under b (List.mem_cons_of_mem _ mem)) ?_ _
        obtain ⟨waits, -⟩ | ⟨-, free⟩ := Traffic.step_settles puts
        · rw [answer] at waits
          contradiction
        · rwa [moved_traffic]

end Writing

theorem Under.of_segmentName {root : Name} (apart : root.isSegment = false) {blocks : List Block}
    (names : ∀ b ∈ blocks, b.name = root.segmentName b.sequence) : Under root blocks :=
  fun b mem => (names b mem).trans (Name.segmentName_eq_append_iff.mpr apart)

theorem Lent.beginWriting_within {s : Segmenter} (h : w.Lent n [s]) (unrefused : w.Unrefused n)
    (free : w.traffic.call? (.task n) = none) (id : String) {name : Name}
    (apart : name.segmentRoot.isSegment = false) {content data : Bytes} {options : Segmenter.Options}
    (sliced : Segmenter.slice content options = .ok data) {key : Ed25519.SigningKey}
    (available : w.keys.signingKey (options.publisher.getD w.keys.default) = .ok key) :
    (w.beginWriting n id s name content options).Within n := by
  have entered : (w.applyHoldings (s.enter name.segmentRoot).2).Lent n
      [(s.enter name.segmentRoot).1] := h.enter _
  have still : (w.applyHoldings (s.enter name.segmentRoot).2).Unrefused n := by
    rw [Unrefused, applyHoldings_ended]
    exact unrefused
  rw [World.beginWriting, Segmenter.plan_eq sliced available]
  dsimp only
  split
  · rename_i error failed
    obtain ⟨fault, rfl⟩ := Segmenter.prepare_ofKey_error
      (entered.ledger.positive _ List.mem_cons_self) failed
    exact finishWith_within still _ (by simp)
  · rename_i writing prepared
    apply entered.putBlocks_within rfl apart still
    · exact .of_segmentName apart fun b mem => (Segmenter.prepare_eq_ok prepared).name mem
    · rw [applyHoldings_traffic]
      exact free_of_holdings free _

theorem Kept.resumeWriting_within {id : String} {s : Segmenter} {block : Block}
    {rest : Segmenter.Writing} (h : w.Kept []) (ordered : w.Ordered limit) (within : w.Within n)
    (here : (n, .writing id s block rest) ∈ w.tasks) :
    (w.resumeWriting n id s block rest).Within n := by
  obtain ⟨_, _, _, _, root, same, held, apart⟩ := within.writing _ here
  obtain ⟨-, rfl, -, -⟩ := Task.writing.inj same
  obtain ⟨puts, root', held', names⟩ := ordered.putsOn here
  obtain rfl := Option.some.inj (held.symm.trans held')
  have under : Under root (block :: rest.blocks) := .of_segmentName apart names
  have lent : w.Lent n [s] := h.lend ordered.distinct here
  have next : (w.moved (.resume (.task n))).Lent n [s] := lent.moved (by simp)
  have still : (w.moved (.resume (.task n))).Unrefused n := by
    rw [Unrefused, moved_ended]
    exact within.unrefused
  rw [World.resumeWriting, move_eq]
  cases answer : (w.traffic.step (.resume (.task n))).answer with
  | none => exact within.of_same (by simp) (by simp)
  | some result =>
    cases result with
    | error e =>
      have admitted := lent.admitted held (under block List.mem_cons_self) puts answer
      exact finishWith_within still _ fun fault bad => admitted fault (by simpa using bad)
    | ok _ =>
      apply next.putBlocks_within held apart still id (fun b mem => under b (List.mem_cons_of_mem _ mem))
      obtain ⟨waits, -⟩ | ⟨-, free⟩ := Traffic.step_settles puts
      · rw [answer] at waits
        contradiction
      · rwa [moved_traffic]

theorem Within.step (within : w.Within n) (h : w.Kept []) (ordered : w.Ordered limit)
    (later : n < limit) (e : Event) : (w.step limit e).Within n := by
  obtain rfl | rfl | other := Event.own_cases later e
  · show (w.resumeTask n).Within n
    cases found : w.task? n with
    | none =>
      rw [World.resumeTask, found]
      exact within
    | some stage =>
      have here := mem_of_task? found
      obtain ⟨id, s, block, rest, -, rfl, -⟩ := within.writing _ here
      rw [World.resumeTask, found]
      exact h.resumeWriting_within ordered within here
  · show (w.cancelTask n).Within n
    cases found : w.task? n with
    | none =>
      rw [World.cancelTask, found]
      exact within
    | some stage =>
      obtain ⟨id, s, block, rest, -, rfl, -⟩ := within.writing _ (mem_of_task? found)
      rw [World.cancelTask, found]
      exact within.of_same (by simp [World.dropSegmenter, World.dropTask])
        (by simp [World.dropSegmenter, World.dropTask])
  · have confined := w.step_apart limit e
    apply within.of_same
    · exact fun task mem => (confined.tasks _ mem).resolve_right other.symm
    · exact fun x mem => (confined.ended _ mem).resolve_right other.symm

theorem Within.through (within : w.Within n) (h : w.Kept []) (ordered : w.Ordered limit)
    (later : n < limit) {events : List Event} (unscoped : ∀ e ∈ events, e.scopes = false) :
    (w.through limit events).Within n := by
  induction events generalizing w limit with
  | nil => exact within
  | cons e rest ih =>
    exact ih (within.step h ordered later e)
      (h.step ordered (unscoped e List.mem_cons_self)) (ordered.step e) (by omega)
      fun e' mem => unscoped e' (List.mem_cons_of_mem _ mem)

/-- In any world in which only segmenters have registered and released namespaces, a
segmenter that begins a put with a good range and an available key holds the
root of the name as its stream and its namespace. It puts its blocks directly
under that root exactly if the root does not itself end in a segment number. If
it does not, nothing that happens later lets the put fail for an argument. -/
theorem write_within_root_iff (config : Buffer.Config) (key : Ed25519.SigningKey)
    (before : List Event) (unscoped : ∀ e ∈ before, e.scopes = false) (id : String) (s : Segmenter)
    (filed : (reached config key before).segmenters.find? id = some s) (name : Name)
    (content data : Bytes) (options : Segmenter.Options)
    (sliced : Segmenter.slice content options = .ok data) (signing : Ed25519.SigningKey)
    (available : (reached config key before).keys.signingKey
      (options.publisher.getD (reached config key before).keys.default) = .ok signing) :
    let w := reached config key before
    let root := name.segmentRoot
    (∃ plan, s.plan w.keys (Int64.ofNat (1000 * w.now)) name content options = .ok plan ∧
      plan.segmenter.streamRoot = some root ∧ plan.segmenter.held = some root ∧
      ∀ writing, plan.writing = .ok writing →
        ((∀ b ∈ writing.blocks, b.name = root.append (.segment b.sequence)) ↔
          root.isSegment = false)) ∧
    (root.isSegment = false → ∀ after : List Event, (∀ e ∈ after, e.scopes = false) →
      ∀ time fault, (before.length, time, .error (.publish (.invalidArgument fault))) ∉
        (reached config key (before ++ .write id name content options :: after)).ended) := by
  intro w root
  have ordered : w.Ordered before.length := reached_ordered config key before
  have kept : w.Kept [] := reached_kept config key unscoped
  constructor
  · refine ⟨_, Segmenter.plan_eq sliced available, rfl, rfl, fun writing prepared => ?_⟩
    have names := Segmenter.prepare_eq_ok prepared
    constructor
    · intro under
      obtain ⟨b, mem⟩ := List.exists_mem_of_ne_nil _ names.blocks_ne_nil
      exact Name.segmentName_eq_append_iff.mp ((names.name mem).symm.trans (under b mem))
    · exact fun apart => Under.of_segmentName apart fun b mem => names.name mem
  · intro apart after unscoped' time fault
    have taken : (Session.takeSegmenter w id).Lent before.length [s] :=
      (kept.take filed).lend_absent (Orderly.absent ordered)
    have unborn := reached_unborn config key before
    have begun : (w.step before.length (.write id name content options)).Within before.length := by
      rw [step_write filed]
      exact taken.beginWriting_within (fun _ _ mem => unborn.2 _ mem) (Orderly.free ordered) id
        apart sliced available
    have within := begun.through (kept.step ordered (e := .write id name content options) rfl)
      (ordered.step _) (Nat.lt_succ_self _) unscoped'
    rw [reached_append]
    exact within.unrefused time fault

def oneOpened : List Event := [.newSegmenter "s" {}]

theorem oneOpened_keys : (reached {} Segmenter.exampleKey oneOpened).keys.signingKey
    (Option.getD ({} : Segmenter.Options).publisher
      (reached {} Segmenter.exampleKey oneOpened).keys.default) = .ok Segmenter.exampleKey := by
  have keys : (reached {} Segmenter.exampleKey oneOpened).keys = .ofKey Segmenter.exampleKey := rfl
  have default (ring : KeyRing) :
      Option.getD ({} : Segmenter.Options).publisher ring.default = ring.default := rfl
  rw [default, keys, KeyRing.signingKey_ofKey]

theorem oneOpened_unscoped : ∀ e ∈ oneOpened, e.scopes = false := by
  simp [oneOpened, Event.scopes]

theorem oneOpened_segmenter : (reached {} Segmenter.exampleKey oneOpened).segmenters.find? "s" =
    some ⟨{}, 0, none, none⟩ := by decide +kernel

theorem oneOpened_write :
    let w := reached {} Segmenter.exampleKey oneOpened
    let root := Name.segmentRoot ⟨[⟨[97]⟩]⟩
    root.isSegment = false ∧
    (∃ plan, Segmenter.plan ⟨{}, 0, none, none⟩ w.keys (Int64.ofNat (1000 * w.now)) ⟨[⟨[97]⟩]⟩ [1, 2] {} =
        .ok plan ∧ plan.segmenter.streamRoot = some root ∧ plan.segmenter.held = some root ∧
      ∀ writing, plan.writing = .ok writing →
        ((∀ b ∈ writing.blocks, b.name = root.append (.segment b.sequence)) ↔
          root.isSegment = false)) ∧
    (root.isSegment = false → ∀ after : List Event, (∀ e ∈ after, e.scopes = false) →
      ∀ time fault, (1, time, .error (.publish (.invalidArgument fault))) ∉
        (reached {} Segmenter.exampleKey
          (oneOpened ++ .write "s" ⟨[⟨[97]⟩]⟩ [1, 2] {} :: after)).ended) :=
  ⟨by decide, write_within_root_iff {} Segmenter.exampleKey oneOpened oneOpened_unscoped "s" _
    oneOpened_segmenter ⟨[⟨[97]⟩]⟩ [1, 2] [1, 2] {} rfl Segmenter.exampleKey oneOpened_keys⟩

def nestedName : Name := ⟨[⟨[97]⟩, .segment 1, .segment 2]⟩

/-- The segmenter holds the name but for its last number, and puts a block that has
lost the other number too. No namespace covers this. -/
theorem nestedName_refused :
    Segmenter.slice [1] {} = .ok [1] ∧ (∀ e ∈ oneOpened, e.scopes = false) ∧
    (reached {} Segmenter.exampleKey oneOpened).keys.signingKey
      (Option.getD ({} : Segmenter.Options).publisher
        (reached {} Segmenter.exampleKey oneOpened).keys.default) = .ok Segmenter.exampleKey ∧
    nestedName.segmentRoot = ⟨[⟨[97]⟩, .segment 1]⟩ ∧
    (reached {} Segmenter.exampleKey (oneOpened ++ [.write "s" nestedName [1] {}])).ended =
      [(1, 0, .error (.publish (.invalidArgument
        (.outsideNamespaces ⟨[⟨[97]⟩, .segment 0]⟩))))] :=
  ⟨rfl, oneOpened_unscoped, oneOpened_keys, by decide +kernel, by decide +kernel⟩

end World

end NamedContent
