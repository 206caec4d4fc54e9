import Mathlib
import NamedContent.Proofs.Traffic.Callers
import NamedContent.Session.Perform

/-!
# What can happen in a world

Segmenters are opened, set, used and dropped, tasks go on or are cancelled in
any order, and somebody else makes moves on the buffer. So what holds after all
sequences of events holds whatever the scheduler does. A task that an event
begins has the number of the event.
-/

set_option autoImplicit false

namespace NamedContent

def Traffic.Move.map {κ κ' : Type} (f : κ → κ') : Traffic.Move κ → Traffic.Move κ'
  | .put who block => .put (f who) block
  | .request who interest timeout => .request (f who) interest timeout
  | .drain who timeout => .drain (f who) timeout
  | .close who => .close (f who)
  | .resume who => .resume (f who)
  | .cancel who => .cancel (f who)
  | .tick ms => .tick ms
  | .setCapacity n => .setCapacity n
  | .addNamespace name => .addNamespace name
  | .removeNamespace name => .removeNamespace name
  | .clear => .clear
  | .remove name => .remove name
  | .subscribe interest limit => .subscribe interest limit
  | .read feed => .read feed
  | .unsubscribe feed => .unsubscribe feed

theorem Traffic.Move.caller?_map {κ κ' : Type} (f : κ → κ') (m : Traffic.Move κ) :
    (m.map f).caller? = m.caller?.map f := by
  cases m <;> rfl

def Segmenter.Holding.move : Segmenter.Holding → Traffic.Move Caller
  | .hold name => .addNamespace name
  | .release name => .removeNamespace name

theorem Segmenter.Holding.caller? (h : Segmenter.Holding) : h.move.caller? = none := by
  cases h <;> rfl

namespace World

inductive Event where
  /-- A move on the buffer by somebody who is no task. -/
  | move (m : Traffic.Move Nat)
  | put (block : Block)
  | request (interest : Interest) (timeout : Nat)
  | drain (timeout : Nat)
  | close
  | insertKey (key : Ed25519.SigningKey)
  | setDefaultKey (publisher : PublisherId)
  | removeKey (publisher : PublisherId)
  | newSegmenter (id : String) (config : Segmenter.Config)
  | setNumbering (id : String) (numbering : Numbering)
  | setBlockSize (id : String) (size : Nat)
  | setNext (id : String) (number : UInt64)
  | dropSegmenter (id : String)
  | write (id : String) (name : Name) (content : Bytes) (options : Segmenter.Options)
  | closeSegmenter (id : String)
  | resume (task : Nat)
  | cancel (task : Nat)
  | putBack

/-- The world after event number `n`. -/
def step (w : World) (n : Nat) : Event → World
  | .move m => w.moved (m.map .serve)
  | .put block => w.beginCall n (.put (.task n) block)
  | .request interest timeout => w.beginCall n (.request (.task n) interest timeout)
  | .drain timeout => w.beginCall n (.drain (.task n) timeout)
  | .close => w.beginCall n (.close (.task n))
  | .insertKey key => (Session.perform w n (.insertKey key)).1
  | .setDefaultKey publisher => (Session.perform w n (.setDefaultKey publisher)).1
  | .removeKey publisher => (Session.perform w n (.removeKey publisher)).1
  | .newSegmenter id config => (Session.perform w n (.newSegmenter id config)).1
  | .setNumbering id numbering => (Session.perform w n (.setNumbering id numbering)).1
  | .setBlockSize id size => (Session.perform w n (.setBlockSize id size)).1
  | .setNext id number => (Session.perform w n (.setNext id number)).1
  | .dropSegmenter id => (Session.perform w n (.dropSegmenter id)).1
  | .write id name content options =>
    (Session.withSegmenter w id fun s =>
      Session.began ((Session.takeSegmenter w id).beginWriting n id s name content options)).1
  | .closeSegmenter id => (Session.perform w n (.closeSegmenter id)).1
  | .resume task => w.resumeTask task
  | .cancel task => w.cancelTask task
  | .putBack => w.fileReturned

def through (w : World) (n : Nat) : List Event → World
  | [] => w
  | e :: rest => (w.step n e).through (n + 1) rest

theorem through_append (w : World) (n : Nat) (es rest : List Event) :
    w.through n (es ++ rest) = (w.through n es).through (n + es.length) rest := by
  induction es generalizing w n with
  | nil => rfl
  | cons e es ih =>
    show (w.step n e).through (n + 1) (es ++ rest) = _
    rw [ih, List.length_cons, Nat.add_assoc, Nat.add_comm 1]
    rfl

/-- The world after these events from its beginning. -/
def reached (config : Buffer.Config) (key : Ed25519.SigningKey) (events : List Event) : World :=
  (World.ofConfig config key).through 0 events

theorem reached_append (config : Buffer.Config) (key : Ed25519.SigningKey) (es rest : List Event) :
    reached config key (es ++ rest) = (reached config key es).through es.length rest := by
  rw [reached, through_append, Nat.zero_add]
  rfl

theorem step_write {w : World} {n : Nat} {id : String} {s : Segmenter}
    (filed : w.segmenters.find? id = some s) (name : Name) (content : Bytes)
    (options : Segmenter.Options) : w.step n (.write id name content options) =
      (Session.takeSegmenter w id).beginWriting n id s name content options := by
  rw [step, Session.withSegmenter, filed]
  rfl

theorem enqueue_eq (w : World) (r : Runner) : ∃ ready, w.enqueue r = { w with ready } := by
  rw [enqueue]
  split
  · exact ⟨w.ready, rfl⟩
  · exact ⟨_, rfl⟩

theorem wake_eq (w : World) (c : Caller) :
    ∃ server ready, w.wake c = { w with server, ready } := by
  cases c with
  | task n =>
    obtain ⟨ready, eq⟩ := w.enqueue_eq (.task n)
    exact ⟨w.server, ready, eq⟩
  | serve n =>
    rw [wake]
    split
    · rename_i s present
      split
      · obtain ⟨ready, eq⟩ := enqueue_eq { w with server := some (s.wake n) } .server
        exact ⟨_, ready, eq⟩
      · exact ⟨w.server, w.ready, rfl⟩
    · exact ⟨w.server, w.ready, rfl⟩

theorem wakeAll_eq (w : World) (cs : List Caller) :
    ∃ server ready, w.wakeAll cs = { w with server, ready } := by
  induction cs generalizing w with
  | nil => exact ⟨w.server, w.ready, rfl⟩
  | cons c cs ih =>
    obtain ⟨server, ready, eq⟩ := w.wake_eq c
    obtain ⟨server', ready', eq'⟩ := ih (w.wake c)
    refine ⟨server', ready', ?_⟩
    show (w.wake c).wakeAll cs = _
    rw [eq', eq]

theorem wakeReceiver_eq (w : World) (i : Nat) : ∃ ready, w.wakeReceiver i = { w with ready } := by
  -- the list of tasks is apart from the world that is being changed
  have all {f : World → Nat × Task → World} (each : ∀ w t, ∃ ready, f w t = { w with ready })
      (tasks : List (Nat × Task)) (w : World) : ∃ ready, tasks.foldl f w = { w with ready } := by
    induction tasks generalizing w with
    | nil => exact ⟨w.ready, rfl⟩
    | cons t rest ih =>
      obtain ⟨ready, eq⟩ := each w t
      rw [List.foldl_cons, eq]
      exact ih { w with ready }
  refine all (fun w t => ?_) w.tasks w
  split
  · split
    · exact w.enqueue_eq (.task t.1)
    · exact ⟨w.ready, rfl⟩
  · exact ⟨w.ready, rfl⟩

theorem moved_eq (w : World) (m : Traffic.Move Caller) : ∃ server ready,
    w.moved m = { w with traffic := (w.traffic.step m).traffic, server, ready } :=
  wakeAll_eq { w with traffic := (w.traffic.step m).traffic } (w.traffic.step m).woken

section Moved

variable (w : World) (m : Traffic.Move Caller)

theorem move_eq : w.move m = (w.moved m, (w.traffic.step m).answer) := rfl

@[simp] theorem moved_traffic : (w.moved m).traffic = (w.traffic.step m).traffic := by
  obtain ⟨_, _, eq⟩ := w.moved_eq m
  rw [eq]

@[simp] theorem moved_keys : (w.moved m).keys = w.keys := by
  obtain ⟨_, _, eq⟩ := w.moved_eq m
  rw [eq]

@[simp] theorem moved_segmenters : (w.moved m).segmenters = w.segmenters := by
  obtain ⟨_, _, eq⟩ := w.moved_eq m
  rw [eq]

@[simp] theorem moved_network : (w.moved m).network = w.network := by
  obtain ⟨_, _, eq⟩ := w.moved_eq m
  rw [eq]

@[simp] theorem moved_tasks : (w.moved m).tasks = w.tasks := by
  obtain ⟨_, _, eq⟩ := w.moved_eq m
  rw [eq]

@[simp] theorem moved_ended : (w.moved m).ended = w.ended := by
  obtain ⟨_, _, eq⟩ := w.moved_eq m
  rw [eq]

@[simp] theorem moved_returned : (w.moved m).returned = w.returned := by
  obtain ⟨_, _, eq⟩ := w.moved_eq m
  rw [eq]

end Moved

theorem applyHoldings_eq (w : World) (holdings : List Segmenter.Holding) : ∃ server ready,
    w.applyHoldings holdings =
      { w with traffic := w.traffic.run (holdings.map Segmenter.Holding.move), server, ready } := by
  induction holdings generalizing w with
  | nil => exact ⟨w.server, w.ready, rfl⟩
  | cons h rest ih =>
    obtain ⟨server, ready, eq⟩ := w.moved_eq h.move
    obtain ⟨server', ready', eq'⟩ := ih (w.moved h.move)
    refine ⟨server', ready', ?_⟩
    rw [show w.applyHoldings (h :: rest) = (w.moved h.move).applyHoldings rest by cases h <;> rfl,
      eq', eq]
    rfl

section Holdings

variable (w : World) (holdings : List Segmenter.Holding)

@[simp] theorem applyHoldings_traffic : (w.applyHoldings holdings).traffic =
    w.traffic.run (holdings.map Segmenter.Holding.move) := by
  obtain ⟨_, _, eq⟩ := w.applyHoldings_eq holdings
  rw [eq]

@[simp] theorem applyHoldings_keys : (w.applyHoldings holdings).keys = w.keys := by
  obtain ⟨_, _, eq⟩ := w.applyHoldings_eq holdings
  rw [eq]

@[simp] theorem applyHoldings_segmenters :
    (w.applyHoldings holdings).segmenters = w.segmenters := by
  obtain ⟨_, _, eq⟩ := w.applyHoldings_eq holdings
  rw [eq]

@[simp] theorem applyHoldings_tasks : (w.applyHoldings holdings).tasks = w.tasks := by
  obtain ⟨_, _, eq⟩ := w.applyHoldings_eq holdings
  rw [eq]

@[simp] theorem applyHoldings_ended : (w.applyHoldings holdings).ended = w.ended := by
  obtain ⟨_, _, eq⟩ := w.applyHoldings_eq holdings
  rw [eq]

@[simp] theorem applyHoldings_returned : (w.applyHoldings holdings).returned = w.returned := by
  obtain ⟨_, _, eq⟩ := w.applyHoldings_eq holdings
  rw [eq]

end Holdings

theorem closeChannel_eq (w : World) (i : Nat) : ∃ network server ready,
    w.closeChannel i = { w with network, server, ready } := by
  rw [closeChannel]
  dsimp only
  obtain ⟨server, ready, eq⟩ :=
    wakeAll_eq (w.setChannel i (w.network.channel i).close.1) (w.network.channel i).close.2
  exact ⟨_, server, ready, eq⟩

theorem fileFace_eq (w : World) (id : String) (channel : Nat) : ∃ faces network server ready,
    w.fileFace id channel = { w with faces, network, server, ready } := by
  rw [fileFace]
  split
  · rename_i old _
    obtain ⟨network, server, ready, eq⟩ :=
      closeChannel_eq { w with faces := w.faces.insert id channel } old
    exact ⟨_, network, server, ready, eq⟩
  · exact ⟨_, w.network, w.server, w.ready, rfl⟩

end World

end NamedContent
