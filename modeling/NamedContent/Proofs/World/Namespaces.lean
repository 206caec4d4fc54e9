import Mathlib
import NamedContent.Proofs.Segmenter.Settings
import NamedContent.Proofs.World.Ledger
import NamedContent.Proofs.World.Tasks

/-!
# Who holds the namespaces

As long as segmenters alone register namespaces and release them, every
namespace is registered exactly as often as it is held: by segmenters at rest,
by those that tasks have taken, and by those that are still to be put back.
-/

set_option autoImplicit false

namespace NamedContent

def Task.segmenter? : Task → Option Segmenter
  | .writing _ s _ _ | .closing _ s => some s
  | _ => none

def Loan.segmenter? : Loan → Option Segmenter
  | .segmenter _ s => some s
  | .face _ _ => none

namespace World

def holders (w : World) : List Segmenter :=
  w.segmenters.values ++ w.tasks.filterMap (fun t => t.2.segmenter?) ++
    w.returned.filterMap fun r => r.2.segmenter?

def others (w : World) (n : Nat) : List Segmenter := (w.dropTask n).holders

section Places

variable (w : World) (n : Nat) (m : Traffic.Move Caller) (holdings : List Segmenter.Holding)

@[simp] theorem moved_holders : (w.moved m).holders = w.holders := by simp [holders]

@[simp] theorem moved_others : (w.moved m).others n = w.others n := by
  simp [others, holders, World.dropTask]

@[simp] theorem applyHoldings_holders : (w.applyHoldings holdings).holders = w.holders := by
  simp [holders]

@[simp] theorem applyHoldings_others : (w.applyHoldings holdings).others n = w.others n := by
  simp [others, holders, World.dropTask]

theorem setTask_holders (task : Task) :
    (w.setTask n task).holders.Perm (task.segmenter?.toList ++ w.others n) := by
  have last : [(n, task)].filterMap (fun t => t.2.segmenter?) = task.segmenter?.toList := by
    cases found : task.segmenter? <;> simp [found]
  rw [holders, World.setTask, List.filterMap_append, last, others, holders, World.dropTask,
    ← List.append_assoc, ← List.append_assoc]
  exact List.perm_append_comm.append_right _

theorem finishWith_holders (loan : Loan) (outcome : Outcome) :
    (w.finishWith n loan outcome).holders.Perm (loan.segmenter?.toList ++ w.others n) := by
  have last : [(n, loan)].filterMap (fun r => r.2.segmenter?) = loan.segmenter?.toList := by
    cases found : loan.segmenter? <;> simp [found]
  have returned : (w.finishWith n loan outcome).holders = w.others n ++ loan.segmenter?.toList := by
    rw [holders, World.finishWith, List.filterMap_append, last, ← List.append_assoc]
    rfl
  rw [returned]
  exact List.perm_append_comm

variable {w n}

theorem others_of_absent (absent : ∀ task, (n, task) ∉ w.tasks) : w.others n = w.holders := by
  have same : w.tasks.filter (fun t => t.1 ≠ n) = w.tasks := by
    rw [List.filter_eq_self]
    intro t ht
    have other : t.1 ≠ n := fun same => absent t.2 (same ▸ ht)
    simpa using other
  rw [others, holders, World.dropTask, same]
  rfl

theorem holders_of_task (distinct : (w.tasks.map Prod.fst).Nodup) {task : Task}
    (here : (n, task) ∈ w.tasks) :
    w.holders.Perm (task.segmenter?.toList ++ w.others n) := by
  have first : ((n, task) :: w.tasks.filter fun t => t.1 ≠ n).filterMap (fun t => t.2.segmenter?) =
      task.segmenter?.toList ++
        (w.tasks.filter fun t => t.1 ≠ n).filterMap fun t => t.2.segmenter? := by
    cases found : task.segmenter? <;> simp [found]
  have tasks := (Table.perm_cons_filter distinct here).filterMap fun t => t.2.segmenter?
  rw [first] at tasks
  rw [others, holders, holders, World.dropTask, ← List.append_assoc, ← List.append_assoc]
  apply List.Perm.append_right
  exact (tasks.append_left _).trans (by
    rw [← List.append_assoc]
    exact List.perm_append_comm.append_right _)

theorem takeSegmenter_holders {id : String} {s : Segmenter} (found : w.segmenters.find? id = some s) :
    w.holders.Perm (s :: (Session.takeSegmenter w id).holders) := by
  rw [holders, holders, ← List.cons_append, ← List.cons_append]
  exact ((Table.values_perm found).append_right _).append_right _

theorem insert_holders (id : String) (s : Segmenter) :
    ({ w with segmenters := w.segmenters.insert id s } : World).holders.Perm
      (s :: (Session.takeSegmenter w id).holders) := by
  rw [holders, holders, ← List.cons_append, ← List.cons_append]
  exact ((Table.values_insert_perm _ _ _).append_right _).append_right _

theorem takeSegmenter_absent {id : String} (absent : w.segmenters.find? id = none) :
    (Session.takeSegmenter w id).holders = w.holders := by
  have values : (w.segmenters.erase id).values = w.segmenters.values :=
    congrArg (List.map Prod.snd) (Table.erase_eq_self absent)
  rw [holders, holders, ← values]
  rfl

end Places

/-- The books are kept by all segmenters of the world and those taken in hand. -/
def Kept (w : World) (hand : List Segmenter) : Prop := Books w.traffic (hand ++ w.holders)

/-- The books are kept by the segmenters in hand and all that this task does not have. -/
def Lent (w : World) (n : Nat) (hand : List Segmenter) : Prop := Books w.traffic (hand ++ w.others n)

variable {w : World} {n : Nat} {hand : List Segmenter} {s : Segmenter}

theorem Kept.moved (h : w.Kept hand) {m : Traffic.Move Caller}
    (other : ∀ name, m ≠ .addNamespace name ∧ m ≠ .removeNamespace name) : (w.moved m).Kept hand := by
  rw [Kept, moved_traffic, moved_holders]
  exact h.step other

theorem Kept.lend_absent (h : w.Kept hand) (absent : ∀ task, (n, task) ∉ w.tasks) : w.Lent n hand := by
  rw [Lent, others_of_absent absent]
  exact h

theorem Kept.lend (h : w.Kept []) (distinct : (w.tasks.map Prod.fst).Nodup) {task : Task}
    (here : (n, task) ∈ w.tasks) : w.Lent n task.segmenter?.toList :=
  Books.perm h (holders_of_task distinct here).symm

section Lent

theorem Lent.moved (h : w.Lent n hand) {m : Traffic.Move Caller}
    (other : ∀ name, m ≠ .addNamespace name ∧ m ≠ .removeNamespace name) :
    (w.moved m).Lent n hand := by
  rw [Lent, moved_traffic, moved_others]
  exact h.step other

theorem Lent.finish (h : w.Lent n []) (outcome : Outcome) : (w.finish n outcome).Kept [] := h

theorem Lent.finishWith (loan : Loan) (h : w.Lent n loan.segmenter?.toList) (outcome : Outcome) :
    (w.finishWith n loan outcome).Kept [] :=
  Books.perm h (finishWith_holders w n loan outcome)

theorem Lent.setTask (task : Task) (h : w.Lent n task.segmenter?.toList) :
    (w.setTask n task).Kept [] :=
  Books.perm h (setTask_holders w n task)

theorem Lent.endWriting (h : w.Lent n [s]) (id : String) (writing : Segmenter.Writing) :
    (w.endWriting n id s writing).Kept [] := by
  have completed : (w.applyHoldings (s.complete writing).2).Lent n [(s.complete writing).1] := by
    rw [Lent, applyHoldings_traffic, applyHoldings_others]
    exact Books.complete h writing
  exact completed.finishWith (.segmenter id _) _

theorem Lent.putBlocks (h : w.Lent n [s]) (id : String) (blocks : List Block)
    (writing : Segmenter.Writing) : (World.putBlocks n id s blocks w writing).Kept [] := by
  induction blocks generalizing w writing with
  | nil => exact h.endWriting id writing
  | cons block rest ih =>
    have next : (w.moved (.put (.task n) block)).Lent n [s] := h.moved (by simp)
    rw [World.putBlocks, move_eq]
    cases (w.traffic.step (.put (.task n) block)).answer with
    | none => exact next.setTask (.writing _ _ _ _)
    | some result =>
      cases result with
      | error e => exact next.finishWith (.segmenter _ _) _
      | ok _ => exact ih next _

theorem Lent.enter (h : w.Lent n [s]) (root : Name) :
    (w.applyHoldings (s.enter root).2).Lent n [(s.enter root).1] := by
  rw [Lent, applyHoldings_traffic, applyHoldings_others]
  exact Books.enter h root

theorem Lent.beginWriting (h : w.Lent n [s]) (id : String) (name : Name) (content : Bytes)
    (options : Segmenter.Options) : (w.beginWriting n id s name content options).Kept [] := by
  rw [World.beginWriting]
  split
  · exact h.finishWith (.segmenter _ _) _
  · rename_i plan planned
    obtain ⟨data, key, -, -, entered, holdings, -⟩ := Segmenter.plan_eq_ok planned
    have next : (w.applyHoldings plan.holdings).Lent n [plan.segmenter] := by
      rw [entered, holdings]
      exact h.enter _
    dsimp only
    split
    · exact next.finishWith (.segmenter _ _) _
    · exact next.putBlocks id _ _

theorem Lent.beginClosing (h : w.Lent n [s]) (id : String) : (w.beginClosing n id s).Kept [] := by
  have next : (w.moved (.close (.task n))).Lent n [s] := h.moved (by simp)
  rw [World.beginClosing, move_eq]
  cases (w.traffic.step (.close (.task n))).answer with
  | none => exact next.setTask (.closing _ _)
  | some answer => exact next.finishWith (.segmenter _ _) _

theorem Lent.beginCall (h : w.Lent n []) {m : Traffic.Move Caller}
    (other : ∀ name, m ≠ .addNamespace name ∧ m ≠ .removeNamespace name) :
    (w.beginCall n m).Kept [] := by
  have next : (w.moved m).Lent n [] := h.moved other
  rw [World.beginCall, move_eq]
  cases (w.traffic.step m).answer with
  | none => exact next.setTask .calling
  | some answer => exact next.finish _

end Lent

theorem Kept.dropSegmenter (h : w.Kept (s :: hand)) : (w.dropSegmenter s).Kept hand := by
  rw [Kept, World.dropSegmenter, applyHoldings_traffic, applyHoldings_holders]
  exact Books.drop h

theorem Kept.resumeTask (h : w.Kept []) (distinct : (w.tasks.map Prod.fst).Nodup)
    (onBuffer : ∀ x ∈ w.tasks, x.2.OnBuffer) (n : Nat) : (w.resumeTask n).Kept [] := by
  have waits : (w.moved (.resume (.task n))).Kept [] := h.moved (by simp)
  have next {task : Task} (here : (n, task) ∈ w.tasks) :
      (w.moved (.resume (.task n))).Lent n task.segmenter?.toList :=
    (h.lend distinct here).moved (by simp)
  have resumed := resumed_resumeTask onBuffer n
  generalize w.resumeTask n = w' at resumed
  cases resumed with
  | absent => exact h
  | calling here =>
    rw [World.resumeCall, move_eq]
    cases (w.traffic.step (.resume (.task n))).answer with
    | none => exact waits
    | some answer => exact (next here).finish _
  | @writing id s block rest here =>
    rw [World.resumeWriting, move_eq]
    cases (w.traffic.step (.resume (.task n))).answer with
    | none => exact waits
    | some result =>
      cases result with
      | error e => exact (next here).finishWith (.segmenter id s) _
      | ok _ => exact (next here).putBlocks id _ _
  | @closing id s here =>
    rw [World.resumeClosing, move_eq]
    cases (w.traffic.step (.resume (.task n))).answer with
    | none => exact waits
    | some answer => exact (next here).finishWith (.segmenter id s) _

theorem Kept.cancelTask (h : w.Kept []) (distinct : (w.tasks.map Prod.fst).Nodup)
    (onBuffer : ∀ x ∈ w.tasks, x.2.OnBuffer) (n : Nat) : (w.cancelTask n).Kept [] := by
  have dropped {task : Task} (here : (n, task) ∈ w.tasks) :
      ((w.dropTask n).moved (.cancel (.task n))).Kept task.segmenter?.toList := by
    have lent : (w.dropTask n).Kept task.segmenter?.toList := h.lend distinct here
    exact lent.moved (by simp)
  have cancelled := cancelled_cancelTask onBuffer n
  generalize w.cancelTask n = w' at cancelled
  cases cancelled with
  | absent => exact h
  | calling here => exact dropped here
  | writing here => exact (dropped here).dropSegmenter
  | closing here => exact (dropped here).dropSegmenter

theorem Kept.take {id : String} (h : w.Kept []) (found : w.segmenters.find? id = some s) :
    (Session.takeSegmenter w id).Kept [s] :=
  Books.perm h (takeSegmenter_holders found).symm

theorem Kept.fileSegmenter (h : w.Kept (s :: hand)) (id : String) :
    (w.fileSegmenter id s).Kept hand := by
  have filed (rest : List Segmenter)
      (same : w.holders.Perm (rest ++ (Session.takeSegmenter w id).holders)) :
      ({ w with segmenters := w.segmenters.insert id s } : World).Kept (rest ++ hand) := by
    have apart : List.Perm (rest ++ hand ++ (Session.takeSegmenter w id).holders)
        (hand ++ (rest ++ (Session.takeSegmenter w id).holders)) := by
      rw [← List.append_assoc]
      exact List.perm_append_comm.append_right _
    have inserted := (insert_holders (w := w) id s).append_left (rest ++ hand)
    have others := (apart.trans (same.symm.append_left hand)).cons s
    exact Books.perm h ((inserted.trans List.perm_middle).trans others)
  rw [World.fileSegmenter]
  split
  · rename_i old found
    exact Kept.dropSegmenter (filed [old] (takeSegmenter_holders found))
  · rename_i absent
    exact filed [] (takeSegmenter_absent absent ▸ List.Perm.refl _)

theorem Kept.file {loan : Loan} (h : w.Kept (loan.segmenter?.toList ++ hand)) :
    (w.file loan).Kept hand := by
  cases loan with
  | segmenter id s => exact Kept.fileSegmenter h id
  | face id channel =>
    obtain ⟨_, _, _, _, eq⟩ := w.fileFace_eq id channel
    rw [World.file, eq]
    exact h

theorem Kept.fileReturned (h : w.Kept []) : w.fileReturned.Kept [] := by
  have start : ({ w with returned := [] } : World).Kept
      ((w.returned.mergeSort fun a b => a.1 ≤ b.1).filterMap fun r => r.2.segmenter?) := by
    refine Books.perm h ?_
    rw [List.nil_append, holders, holders, List.filterMap_nil, List.append_nil]
    exact (((List.mergeSort_perm _ _).filterMap _).append_right _).trans List.perm_append_comm
  -- what has been returned counts as held in the hand until it is filed
  rw [World.fileReturned]
  generalize w.returned.mergeSort (fun a b => decide (a.1 ≤ b.1)) = loans at start ⊢
  generalize ({ w with returned := [] } : World) = w' at start ⊢
  induction loans generalizing w' with
  | nil => exact start
  | cons loan rest ih =>
    apply ih
    apply Kept.file
    cases found : loan.2.segmenter? <;> simpa [found] using start

def Event.scopes : Event → Bool
  | .move (.addNamespace _) | .move (.removeNamespace _) => true
  | _ => false

theorem Kept.withSegmenter (h : w.Kept []) (id : String) {f : Segmenter → Session.Performed}
    (ends : ∀ s, w.segmenters.find? id = some s → (f s).1.Kept []) :
    (Session.withSegmenter w id f).1.Kept [] := by
  rw [Session.withSegmenter]
  split
  · rename_i s found
    exact ends s found
  · exact h

theorem Kept.withArgument (h : w.Kept []) {α : Type} (argument : Except PublishError α)
    {f : α → Session.Performed} (ends : ∀ a, argument = .ok a → (f a).1.Kept []) :
    (Session.withArgument w argument f).1.Kept [] := by
  cases argument with
  | ok a => exact ends a rfl
  | error error => exact h

theorem Kept.changeSegmenter (h : w.Kept []) {id : String} (found : w.segmenters.find? id = some s)
    {changed : Except PublishError Segmenter}
    (holds : ∀ s', changed = .ok s' → s'.held = s.held ∧ 0 < s'.config.blockSize) :
    (Session.changeSegmenter w id changed).1.Kept [] := by
  cases changed with
  | error error => exact h
  | ok s' =>
    obtain ⟨held, positive⟩ := holds s' rfl
    have taken := h.take found
    have replaced : (Session.takeSegmenter w id).Kept [s'] :=
      ⟨taken.sound, taken.ledger.replace held positive⟩
    exact Books.perm replaced (insert_holders id s')

theorem Kept.step (h : w.Kept []) (ordered : w.Ordered n) {e : Event} (unscoped : e.scopes = false) :
    (w.step n e).Kept [] := by
  have absent : ∀ task, (n, task) ∉ w.tasks := Orderly.absent ordered
  have lent : w.Lent n [] := h.lend_absent absent
  have positive {id : String} {s : Segmenter} (found : w.segmenters.find? id = some s) :
      0 < s.config.blockSize := (h.take found).ledger.positive s List.mem_cons_self
  cases e with
  | move m =>
    apply h.moved
    intro name
    cases m <;> simp [Event.scopes, Traffic.Move.map] at unscoped ⊢
  | put block => exact lent.beginCall (by simp)
  | request interest timeout => exact lent.beginCall (by simp)
  | drain timeout => exact lent.beginCall (by simp)
  | close => exact lent.beginCall (by simp)
  | insertKey key => exact h
  | setDefaultKey publisher => exact h.withArgument _ fun _ _ => h
  | removeKey publisher => exact h
  | newSegmenter id config =>
    refine h.withArgument _ fun s opened => ?_
    obtain ⟨valid, rfl⟩ := Segmenter.ofConfig_eq_ok.mp opened
    have size := (Segmenter.Config.validate_eq_ok.mp valid).1
    have joined : w.Kept [⟨config, config.numbering.base, none, none⟩] :=
      ⟨h.sound, (Ledger.cons_iff rfl).mpr ⟨h.ledger, size⟩⟩
    exact joined.fileSegmenter id
  | setNumbering id numbering =>
    refine h.withSegmenter id fun s found => h.changeSegmenter found fun s' changed => ?_
    obtain ⟨-, rfl⟩ := Segmenter.setNumbering_eq_ok.mp changed
    exact ⟨rfl, show 0 < s.config.blockSize from positive found⟩
  | setBlockSize id size =>
    refine h.withSegmenter id fun s found => h.changeSegmenter found fun s' changed => ?_
    obtain ⟨size, rfl⟩ := Segmenter.setBlockSize_eq_ok.mp changed
    exact ⟨rfl, size⟩
  | setNext id number =>
    refine h.withSegmenter id fun s found => h.changeSegmenter found fun s' changed => ?_
    rw [← Except.ok.inj changed]
    exact ⟨rfl, show 0 < s.config.blockSize from positive found⟩
  | dropSegmenter id =>
    rw [World.step, Session.perform]
    split
    · rename_i s found
      exact (h.take found).dropSegmenter
    · exact h
  | write id name content options =>
    exact h.withSegmenter id fun s found =>
      ((h.take found).lend_absent absent).beginWriting id name content options
  | closeSegmenter id =>
    exact h.withSegmenter id fun s found => ((h.take found).lend_absent absent).beginClosing id
  | resume task => exact h.resumeTask ordered.distinct ordered.onBuffer task
  | cancel task => exact h.cancelTask ordered.distinct ordered.onBuffer task
  | putBack => exact h.fileReturned

theorem ofConfig_kept (config : Buffer.Config) (key : Ed25519.SigningKey) :
    (World.ofConfig config key).Kept [] :=
  ⟨Traffic.ofConfig_sound config, fun _ => rfl, fun _ mem => absurd mem List.not_mem_nil⟩

end World

end NamedContent
