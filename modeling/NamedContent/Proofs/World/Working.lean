import Mathlib
import NamedContent.Proofs.Network
import NamedContent.Proofs.World.Events

/-!
# What work is made of

Whatever a task does, and whatever a command does at once, is a sequence of elementary
changes: a move on the buffer, a wake, a change in the network or among the things that
lie in their places, and a new stand of the one task that is at work. So what all of
these leave alone is left alone by all work.
-/

set_option autoImplicit false

namespace NamedContent

def Session.Command.own (n : Nat) : Session.Command → Nat
  | .cancel task => task
  | _ => n

def Session.Command.serves : Session.Command → Bool
  | .advance _ | .startServer _ | .shutServer | .dropServer => true
  | _ => false

def Session.Command.turnsKeys : Session.Command → Bool
  | .insertKey _ | .setDefaultKey _ | .removeKey _ => true
  | _ => false

namespace World

/-- From one world to a later one there were only elementary changes: moves of a kind, and
no new stand of any task but one. -/
inductive Worked (own : Nat) (P : Traffic.Move Caller → Prop) (w : World) : World → Prop where
  | refl : Worked own P w w
  | moved {w' : World} (h : Worked own P w w') {m : Traffic.Move Caller} (kind : P m) :
      Worked own P w (w'.moved m)
  | wakeAll {w' : World} (h : Worked own P w w') (callers : List Caller) :
      Worked own P w (w'.wakeAll callers)
  | reordered {w' : World} (h : Worked own P w w') (ready : List Runner) :
      Worked own P w { w' with ready }
  | setTask {w' : World} (h : Worked own P w w') (task : Task) :
      Worked own P w (w'.setTask own task)
  | dropTask {w' : World} (h : Worked own P w w') : Worked own P w (w'.dropTask own)
  | finish {w' : World} (h : Worked own P w w') (outcome : Outcome) :
      Worked own P w (w'.finish own outcome)
  | finishWith {w' : World} (h : Worked own P w w') (loan : Loan) (outcome : Outcome) :
      Worked own P w (w'.finishWith own loan outcome)
  | onNetwork {w' : World} (h : Worked own P w w') {network : Network Caller}
      (grows : w'.network.Extends network) : Worked own P w { w' with network }
  | places {w' : World} (h : Worked own P w w') (segmenters : Table String Segmenter)
      (subscriptions : Table String Nat) (faces : Table String Nat) (inbound : Bool) :
      Worked own P w { w' with segmenters, subscriptions, faces, inbound }
  | collected {w' : World} (h : Worked own P w w') : Worked own P w { w' with returned := [] }

namespace Worked

variable {own : Nat} {P : Traffic.Move Caller → Prop} {w w' : World}

theorem setChannel (h : Worked own P w w') (i : Nat) (c : Channel Caller Block) :
    Worked own P w (w'.setChannel i c) := h.onNetwork (w'.network.extends_setChannel i c)

theorem setInterests (h : Worked own P w w') (c : Channel Caller (String × Interest)) :
    Worked own P w (w'.setInterests c) := h.onNetwork (w'.network.extends_interests c)

theorem enqueue (h : Worked own P w w') (r : Runner) : Worked own P w (w'.enqueue r) := by
  obtain ⟨ready, eq⟩ := w'.enqueue_eq r
  exact eq ▸ h.reordered ready

theorem wakeReceiver (h : Worked own P w w') (i : Nat) : Worked own P w (w'.wakeReceiver i) := by
  obtain ⟨ready, eq⟩ := w'.wakeReceiver_eq i
  exact eq ▸ h.reordered ready

theorem closeChannel (h : Worked own P w w') (i : Nat) : Worked own P w (w'.closeChannel i) :=
  (h.setChannel i _).wakeAll _

theorem withdrawBlock (h : Worked own P w w') (i : Nat) (who : Caller) :
    Worked own P w (w'.withdrawBlock i who) := ((h.setChannel i _).wakeAll _).wakeReceiver i

theorem withdrawInterest (h : Worked own P w w') (who : Caller) :
    Worked own P w (w'.withdrawInterest who) := (h.setInterests _).wakeAll _

theorem closeInterests (h : Worked own P w w') : Worked own P w w'.closeInterests :=
  (h.setInterests _).wakeAll _

theorem beginCall (h : Worked own P w w') {m : Traffic.Move Caller} (kind : P m) :
    Worked own P w (w'.beginCall own m) := by
  have next := h.moved kind
  rw [World.beginCall, move_eq]
  cases (w'.traffic.step m).answer with
  | none => exact next.setTask _
  | some answer => exact next.finish _

theorem beginClosing (h : Worked own P w w') (closes : P (.close (.task own))) (id : String)
    (s : Segmenter) : Worked own P w (w'.beginClosing own id s) := by
  have next := h.moved closes
  rw [World.beginClosing, move_eq]
  cases (w'.traffic.step (.close (.task own))).answer with
  | none => exact next.setTask _
  | some answer => exact next.finishWith _ _

section Resume

variable (h : Worked own P w w') (goes : P (.resume (.task own)))
include h goes

theorem resumeCall : Worked own P w (w'.resumeCall own) := by
  have next := h.moved goes
  rw [World.resumeCall, move_eq]
  cases (w'.traffic.step (.resume (.task own))).answer with
  | none => exact next
  | some answer => exact next.finish _

theorem resumeClosing (id : String) (s : Segmenter) :
    Worked own P w (w'.resumeClosing own id s) := by
  have next := h.moved goes
  rw [World.resumeClosing, move_eq]
  cases (w'.traffic.step (.resume (.task own))).answer with
  | none => exact next
  | some answer => exact next.finishWith _ _

end Resume

section Faces

variable (h : Worked own P w w') (face : String) (channel : Nat)
include h

theorem awaitBlock (deadline : Nat) :
    Worked own P w (w'.awaitBlock own face channel deadline) := by
  rw [World.awaitBlock]
  split
  · exact ((h.setChannel _ _).wakeAll _).finishWith _ _
  · split
    · exact h.finishWith _ _
    · exact h.setTask _

theorem afterExpress (fetch : Option Nat) :
    Worked own P w (w'.afterExpress own face channel fetch) := by
  have woken : Worked own P w (if w'.server.isSome then w'.enqueue .server else w') := by
    split
    · exact h.enqueue _
    · exact h
  cases fetch with
  | none => exact woken.finishWith _ _
  | some timeout => exact woken.awaitBlock _ _ _

theorem attemptExpress (interest : Interest) (fetch : Option Nat) :
    Worked own P w (w'.attemptExpress own face channel interest fetch) := by
  rw [World.attemptExpress]
  obtain ⟨interests, sending⟩ := w'.network.interests.send (.task own) (face, interest)
  have tried := h.setInterests interests
  cases sending with
  | sent => exact tried.afterExpress _ _ _
  | closed => exact tried.finishWith _ _
  | waits => exact tried.setTask _

theorem attemptSend (i : Nat) (block : Block) : Worked own P w (w'.attemptSend own i block) := by
  rw [World.attemptSend]
  obtain ⟨channel, sending⟩ := (w'.network.channel i).send (.task own) block
  have tried := h.setChannel i channel
  cases sending with
  | sent => exact (tried.wakeReceiver i).finish _
  | closed => exact tried.finish _
  | waits => exact tried.setTask _

end Faces

section Holdings

variable (holds : ∀ holding : Segmenter.Holding, P holding.move)
include holds

theorem holdings (h : Worked own P w w') (holdings : List Segmenter.Holding) :
    Worked own P w (w'.applyHoldings holdings) := by
  induction holdings generalizing w' with
  | nil => exact h
  | cons holding rest ih =>
    have made : Worked own P w (w'.moved holding.move) := h.moved (holds holding)
    cases holding <;> exact ih made

theorem fileSegmenter (h : Worked own P w w') (id : String) (s : Segmenter) :
    Worked own P w (w'.fileSegmenter id s) := by
  have filed : Worked own P w { w' with segmenters := w'.segmenters.insert id s } :=
    h.places _ w'.subscriptions w'.faces w'.inbound
  rw [World.fileSegmenter]
  split
  · exact filed.holdings holds _
  · exact filed

omit holds in
theorem fileFace (h : Worked own P w w') (id : String) (channel : Nat) :
    Worked own P w (w'.fileFace id channel) := by
  have filed : Worked own P w { w' with faces := w'.faces.insert id channel } :=
    h.places w'.segmenters w'.subscriptions _ w'.inbound
  rw [World.fileFace]
  split
  · exact filed.closeChannel _
  · exact filed

theorem file (h : Worked own P w w') (loan : Loan) : Worked own P w (w'.file loan) := by
  cases loan with
  | segmenter id s => exact h.fileSegmenter holds id s
  | face id channel => exact h.fileFace id channel

theorem fileReturned (h : Worked own P w w') : Worked own P w w'.fileReturned := by
  rw [World.fileReturned]
  generalize w'.returned.mergeSort (fun a b => decide (a.1 ≤ b.1)) = loans
  have start := h.collected
  generalize ({ w' with returned := [] } : World) = w' at start
  induction loans generalizing w' with
  | nil => exact start
  | cons loan rest ih => exact ih _ (start.file holds loan.2)

section Puts

variable (puts : ∀ block, P (.put (.task own) block))
include puts

theorem putBlocks (h : Worked own P w w') (id : String) (s : Segmenter) (blocks : List Block)
    (writing : Segmenter.Writing) :
    Worked own P w (World.putBlocks own id s blocks w' writing) := by
  induction blocks generalizing w' writing with
  | nil => exact (h.holdings holds _).finishWith _ _
  | cons block rest ih =>
    have next := h.moved (puts block)
    rw [World.putBlocks, move_eq]
    cases (w'.traffic.step (.put (.task own) block)).answer with
    | none => exact next.setTask _
    | some result =>
      cases result with
      | error e => exact next.finishWith _ _
      | ok _ => exact ih next _

theorem beginWriting (h : Worked own P w w') (id : String) (s : Segmenter) (name : Name)
    (content : Bytes) (options : Segmenter.Options) :
    Worked own P w (w'.beginWriting own id s name content options) := by
  rw [World.beginWriting]
  split
  · exact h.finishWith _ _
  · dsimp only
    split
    · exact (h.holdings holds _).finishWith _ _
    · exact (h.holdings holds _).putBlocks holds puts _ _ _ _

theorem resumeWriting (h : Worked own P w w') (goes : P (.resume (.task own))) (id : String)
    (s : Segmenter) (block : Block) (rest : Segmenter.Writing) :
    Worked own P w (w'.resumeWriting own id s block rest) := by
  have next := h.moved goes
  rw [World.resumeWriting, move_eq]
  cases (w'.traffic.step (.resume (.task own))).answer with
  | none => exact next
  | some result =>
    cases result with
    | error e => exact next.finishWith _ _
    | ok _ => exact next.putBlocks holds puts _ _ _ _

theorem resumeTask (goes : P (.resume (.task own))) (w : World) :
    Worked own P w (w.resumeTask own) := by
  have here : Worked own P w w := .refl
  rw [World.resumeTask]
  split
  · exact here
  · exact here.resumeCall goes
  · exact here.resumeWriting holds puts goes _ _ _ _
  · exact here.resumeClosing goes _ _
  · exact here.attemptExpress _ _ _ _
  · exact here.awaitBlock _ _ _
  · exact here.attemptSend _ _

end Puts

theorem cancelTask (cancels : P (.cancel (.task own))) (w : World) :
    Worked own P w (w.cancelTask own) := by
  have free : Worked own P w (w.dropTask own) := .dropTask .refl
  have cancelled := free.moved cancels
  rw [World.cancelTask]
  split
  · exact .refl
  · exact cancelled
  · exact cancelled.holdings holds _
  · exact cancelled.holdings holds _
  · exact (free.withdrawInterest _).closeChannel _
  · exact free.closeChannel _
  · exact free.withdrawBlock _ _

end Holdings

section Commands

theorem takeSegmenter (w : World) (id : String) :
    Worked own P w (Session.takeSegmenter w id) :=
  places .refl _ w.subscriptions w.faces w.inbound

theorem takeFace (w : World) (id : String) : Worked own P w (Session.takeFace w id) :=
  places .refl w.segmenters w.subscriptions _ w.inbound

theorem withArgument {α : Type} (argument : Except PublishError α) {f : α → Session.Performed}
    (ends : ∀ a, Worked own P w (f a).1) :
    Worked own P w (Session.withArgument w argument f).1 := by
  cases argument with
  | ok a => exact ends a
  | error error => exact .refl

theorem withBlock (b : Session.PlainBlock) {f : Block → Session.Performed}
    (ends : ∀ block, Worked own P w (f block).1) : Worked own P w (Session.withBlock w b f).1 :=
  withArgument _ fun _ => ends _

theorem withSubscription (id : String) {f : Nat → Session.Performed}
    (ends : ∀ feed, Worked own P w (f feed).1) :
    Worked own P w (Session.withSubscription w id f).1 := by
  rw [Session.withSubscription]
  split
  · exact ends _
  · exact .refl

theorem withSegmenter (id : String) {f : Segmenter → Session.Performed}
    (ends : ∀ s, Worked own P w (f s).1) : Worked own P w (Session.withSegmenter w id f).1 := by
  rw [Session.withSegmenter]
  split
  · exact ends _
  · exact .refl

theorem withFace (id : String) {f : Nat → Session.Performed}
    (ends : ∀ channel, Worked own P w (f channel).1) :
    Worked own P w (Session.withFace w id f).1 := by
  rw [Session.withFace]
  split
  · exact ends _
  · exact .refl

theorem changeSegmenter (w : World) (id : String) (s : Except PublishError Segmenter) :
    Worked own P w (Session.changeSegmenter w id s).1 :=
  withArgument _ fun _ => places .refl _ w.subscriptions w.faces w.inbound

theorem newSegmenter (holds : ∀ holding : Segmenter.Holding, P holding.move) (w : World)
    (id : String) (config : Segmenter.Config) :
    Worked own P w (Session.newSegmenter w id config).1 :=
  withArgument _ fun s => fileSegmenter holds .refl id s

theorem dropSegmenter (holds : ∀ holding : Segmenter.Holding, P holding.move) (w : World) (n : Nat)
    (id : String) : Worked own P w (Session.perform w n (.dropSegmenter id)).1 := by
  rw [Session.perform]
  split
  · exact (takeSegmenter w id).holdings holds _
  · exact .refl

theorem readPeek (w : World) (full : Bool) (name : Name) :
    Worked own P w (Session.readPeek w full name).1 := by
  rw [Session.readPeek]
  split
  · exact .refl
  · split
    · exact .refl
    · exact .refl

theorem connect (w : World) (face : String) : Worked own P w (Session.connect w face) := by
  have opened : Worked own P w { w with network := (w.network.connect face).1 } :=
    onNetwork .refl (w.network.extends_connect face)
  have filed := opened.fileFace face (w.network.connect face).2
  rw [Session.connect]
  dsimp only
  split
  · exact filed.wakeReceiver _
  · exact filed

theorem disconnect (w : World) (face : String) : Worked own P w (Session.disconnect w face) := by
  have gone : Worked own P w { w with network := w.network.disconnect face } :=
    onNetwork .refl (w.network.extends_disconnect face)
  rw [Session.disconnect]
  split
  · exact gone.wakeReceiver _
  · exact gone

theorem readFace (w : World) (channel : Nat) :
    Worked own P w (Session.readFace w channel).1 := by
  rw [Session.readFace]
  split
  · exact (setChannel .refl _ _).wakeAll _
  · exact .refl

theorem takeInbound (w : World) : Worked own P w (Session.takeInbound w).1 := by
  have taken : Worked own P w { w with network := { w.network with taken := true } } :=
    onNetwork .refl ⟨fun _ => rfl, Nat.le_refl _, id⟩
  rw [Session.takeInbound]
  split
  · exact .refl
  · exact taken.places w.segmenters w.subscriptions w.faces true

theorem readInbound (w : World) : Worked own P w (Session.readInbound w).1 := by
  rw [Session.readInbound]
  split
  · split
    · exact (setInterests .refl _).wakeAll _
    · exact .refl
  · exact .refl

theorem dropInbound (w : World) : Worked own P w (Session.dropInbound w).1 := by
  rw [Session.dropInbound, Session.replied]
  split
  · exact (closeInterests .refl).places _ _ _ false
  · exact .refl

theorem beginSend (w : World) (face : String) (block : Block) :
    Worked own P w (w.beginSend own face block) := by
  rw [World.beginSend]
  split
  · exact finish .refl _
  · exact attemptSend .refl _ _

section Moves

variable (free : ∀ m : Traffic.Move Caller, m.caller? = none → P m)
include free

theorem moveNow (w : World) {m : Traffic.Move Caller} (none : m.caller? = none) :
    Worked own P w (Session.moveNow w m).1 := moved .refl (free m none)

theorem fileSubscription (h : Worked own P w w') (id : String) (feed : Nat) :
    Worked own P w (Session.fileSubscription w' id feed) := by
  have filed : Worked own P w { w' with subscriptions := w'.subscriptions.insert id feed } :=
    h.places w'.segmenters _ w'.faces w'.inbound
  rw [Session.fileSubscription]
  split
  · exact filed.moved (free _ rfl)
  · exact filed

theorem subscribe (w : World) (id : String) (limit : Option Nat) (interest : Interest) :
    Worked own P w (Session.subscribe w id limit interest).1 := by
  have made : Worked own P w (w.moved (.subscribe interest limit)) := moved .refl (free _ rfl)
  rw [Session.subscribe, move_eq]
  generalize w.moved (.subscribe interest limit) = w' at made
  generalize (w.traffic.step (.subscribe interest limit)).answer = answer
  split
  · rename_i opened
    cases opened
    exact made.fileSubscription free _ _
  · rename_i refused
    cases refused
    exact made
  · rename_i other
    cases other
    exact made

theorem pollFeed (w : World) (feed : Nat) : Worked own P w (Session.pollFeed w feed).1 := by
  have made : Worked own P w (w.moved (.read feed)) := moved .refl (free _ rfl)
  rw [Session.pollFeed, move_eq]
  generalize w.moved (.read feed) = w' at made
  generalize (w.traffic.step (.read feed)).answer = answer
  split
  · rename_i found
    cases found
    exact made
  · rename_i other
    cases other
    exact made

end Moves

end Commands

end Worked

/-- What commands do at once is work for one task, apart from those that change keys and
those that are about the server. -/
theorem perform_worked (w : World) (n : Nat) {P : Traffic.Move Caller → Prop}
    {c : Session.Command} (other : c.serves = false) (keyless : c.turnsKeys = false)
    (free : ∀ m, m.caller? = none → P m)
    (mine : ∀ m, m.caller? = some (.task (c.own n)) → P m) :
    Worked (c.own n) P w (Session.perform w n c).1 := by
  have holds (holding : Segmenter.Holding) : P holding.move := free _ holding.caller?
  cases c with
  | advance | startServer | shutServer | dropServer => contradiction
  | insertKey | setDefaultKey | removeKey => contradiction
  | cancel task => exact .cancelTask holds (mine _ rfl) w
  | put b => exact .withBlock b fun _ => .beginCall .refl (mine _ rfl)
  | request interest timeout => exact .withArgument _ fun _ => .beginCall .refl (mine _ rfl)
  | close => exact .beginCall .refl (mine _ rfl)
  | waitForDrain timeout => exact .beginCall .refl (mine _ rfl)
  | setCapacity capacity => exact .moveNow free w rfl
  | addNamespace name => exact .withArgument _ fun _ => .moveNow free w rfl
  | removeNamespace name => exact .withArgument _ fun _ => .moveNow free w rfl
  | clear => exact .moveNow free w rfl
  | remove name => exact .withArgument _ fun _ => .moveNow free w rfl
  | contains name => exact .withArgument _ fun _ => .refl
  | peek name full => exact .withArgument _ (.readPeek w full)
  | namespaces | describeBuffer | listFaces | serverStats => exact .refl
  | subscribe id interest limit => exact .withArgument _ (.subscribe free w id limit)
  | readSubscription id => exact .withSubscription id fun _ => .moveNow free w rfl
  | pollSubscription id => exact .withSubscription id (.pollFeed free w)
  | dropSubscription id =>
    refine .withSubscription id fun feed => ?_
    have erased : Worked n P w { w with subscriptions := w.subscriptions.erase id } :=
      .places .refl w.segmenters _ w.faces w.inbound
    exact erased.moved (free _ rfl)
  | describeSubscription id => exact .withSubscription id fun _ => .refl
  | newSegmenter id config => exact .newSegmenter holds w id config
  | write id text =>
    exact .withSegmenter id fun s => .withArgument _ fun _ => .withArgument _ fun _ =>
      (Worked.takeSegmenter w id).beginWriting holds (fun _ => mine _ rfl) id s _ _ _
  | closeSegmenter id =>
    exact .withSegmenter id fun s => (Worked.takeSegmenter w id).beginClosing (mine _ rfl) id s
  | setNumbering id numbering => exact .withSegmenter id fun _ => .changeSegmenter w id _
  | setBlockSize id size => exact .withSegmenter id fun _ => .changeSegmenter w id _
  | setNext id number => exact .withSegmenter id fun _ => .changeSegmenter w id _
  | segmenterState id => exact .withSegmenter id fun _ => .refl
  | dropSegmenter id => exact .dropSegmenter holds w n id
  | describeSegmenter id => exact .withSegmenter id fun _ => .refl
  | connect face => exact .connect w face
  | disconnect face => exact .disconnect w face
  | dropFace face => exact .withFace face fun _ => (Worked.takeFace w face).closeChannel _
  | express face interest =>
    exact .withArgument _ fun _ => .withFace face fun _ =>
      (Worked.takeFace w face).attemptExpress face _ _ _
  | fetch face interest timeout =>
    exact .withArgument _ fun _ => .withFace face fun _ =>
      (Worked.takeFace w face).attemptExpress face _ _ _
  | readFace face => exact .withFace face (.readFace w)
  | send face b => exact .withBlock b fun block => .beginSend w face block
  | takeInbound => exact .takeInbound w
  | readInbound => exact .readInbound w
  | dropInbound => exact .dropInbound w

end World

end NamedContent
