import NamedContent.Session.Command

/-!
# Carrying out commands

Each command changes the world at once or begins a task, and says what it
came to. Whether a task is still at work is seen only after the world has
settled.
-/

set_option autoImplicit false

namespace NamedContent.Session

/-- A command that has been carried out, with its result unless it began a task. -/
abbrev Performed := World × Option Result

def began (w : World) : Performed := (w, none)

def replied (w : World) (r : Reply) : Performed := (w, some (.ok r))

def nothing (w : World) : Performed := replied w (.answer .nothing)

def failed (w : World) (f : Fault) : Performed := (w, some (.error f))

def withArgument {α : Type} (w : World) (argument : Except PublishError α) (f : α → Performed) :
    Performed :=
  match argument with
  | .ok a => f a
  | .error error => failed w (.publish error)

def moveNow (w : World) (m : Traffic.Move Caller) : Performed :=
  let (w, answer) := w.move m
  (w, some (match answer with
    | some answer => (World.publishOutcome answer).map .answer
    | none => .ok .pending))

def plainBlock (now : Nat) (name : Name) (b : PlainBlock) : Block :=
  { name
    sequence := b.sequence.getD (name.segmentNumber?.getD 0)
    payload := b.payload
    info :=
      { publisher := .ofPublicKey b.key, timestamp := Int64.ofNat (1000 * now), contentType := .data
        keyLocator := .key b.key, freshness := none, finalSegment := none }
    signature := ⟨[], .single⟩ }

def withBlock (w : World) (b : PlainBlock) (f : Block → Performed) : Performed :=
  withArgument w (readName b.name) fun name => f (plainBlock w.now name b)

def inspect (keys : KeyRing) (b : Block) : Inspection where
  block := b
  leafAtEpoch := leafDigest b.name { b.info with timestamp := 0 } b.payload
  verified := (keys.verifyingKey b.info.publisher).map b.verify
  selfCertified := b.verifySelfCertified

def readPeek (w : World) (full : Bool) (name : Name) : Performed :=
  match w.buffer.peek? name with
  | none => nothing w
  | some block =>
    if full then replied w (.inspection (inspect w.keys block))
    else replied w (.answer (.block block))

def withSubscription (w : World) (id : String) (f : Nat → Performed) : Performed :=
  match w.subscriptions.find? id with
  | some feed => f feed
  | none => failed w .noSuchSubscription

def pollFeed (w : World) (feed : Nat) : Performed :=
  match w.move (.read feed) with
  | (w, some (.ok (.reading (.block block)))) => replied w (.answer (.block block))
  | (w, _) => nothing w

def fileSubscription (w : World) (id : String) (feed : Nat) : World :=
  let filed := { w with subscriptions := w.subscriptions.insert id feed }
  match w.subscriptions.find? id with
  | some old => filed.moved (.unsubscribe old)
  | none => filed

def subscribe (w : World) (id : String) (limit : Option Nat) (interest : Interest) : Performed :=
  match w.move (.subscribe interest limit) with
  | (w, some (.ok (.registered feed))) =>
    replied (fileSubscription w id feed) (.answer (.registered feed))
  | (w, some (.error error)) => failed w (.publish error)
  | (w, _) => nothing w

def withSegmenter (w : World) (id : String) (f : Segmenter → Performed) : Performed :=
  match w.segmenters.find? id with
  | some s => f s
  | none => failed w .noSuchSegmenter

def takeSegmenter (w : World) (id : String) : World :=
  { w with segmenters := w.segmenters.erase id }

def showSegmenter (w : World) (s : Segmenter) : Performed :=
  replied w (.segmenter ⟨s, w.buffer.namespaces.keys, w.keys.size⟩)

def changeSegmenter (w : World) (id : String) (s : Except PublishError Segmenter) : Performed :=
  withArgument w s fun s => showSegmenter { w with segmenters := w.segmenters.insert id s } s

def write (w : World) (n : Nat) (id : String) (text : WriteText) (s : Segmenter) : Performed :=
  withArgument w (readName text.name) fun name =>
    withArgument w (text.locator.mapM readLocator) fun locator =>
      began ((takeSegmenter w id).beginWriting n id s name text.content
        { text.options with keyLocator := locator })

def newSegmenter (w : World) (id : String) (config : Segmenter.Config) : Performed :=
  withArgument w (Segmenter.ofConfig config) fun s => showSegmenter (w.fileSegmenter id s) s

def withFace (w : World) (id : String) (f : Nat → Performed) : Performed :=
  match w.faces.find? id with
  | some channel => f channel
  | none => failed w .noSuchFace

def takeFace (w : World) (id : String) : World := { w with faces := w.faces.erase id }

def connect (w : World) (face : String) : World :=
  let replaced := w.network.faces.find? face
  let (network, channel) := w.network.connect face
  let w := ({ w with network }).fileFace face channel
  match replaced with
  | some old => w.wakeReceiver old
  | none => w

def disconnect (w : World) (face : String) : World :=
  let w' := { w with network := w.network.disconnect face }
  match w.network.faces.find? face with
  | some old => w'.wakeReceiver old
  | none => w'

def readFace (w : World) (channel : Nat) : Performed :=
  let source := w.network.channel channel
  match source.receive with
  | (some block, source, woken) =>
    replied ((w.setChannel channel source).wakeAll woken.toList) (.answer (.reading (.block block)))
  | (none, _, _) =>
    replied w (.answer (.reading (if source.isEnded then .ended else .waiting)))

def takeInbound (w : World) : Performed :=
  if w.network.taken then failed w (.transport .alreadySubscribed)
  else nothing { w with network := { w.network with taken := true }, inbound := true }

def readInbound (w : World) : Performed :=
  if w.inbound then
    match w.network.interests.receive with
    | (some (face, interest), interests, woken) =>
      replied ((w.setInterests interests).wakeAll woken.toList) (.arrival face interest)
    | (none, _, _) => replied w (.answer (.reading .waiting))
  else failed w .noInbound

def dropInbound (w : World) : Performed :=
  replied (if w.inbound then { w.closeInterests with inbound := false } else w)
    (.answer (.flag w.inbound))

def startServer (w : World) (timeout : Nat) : Performed :=
  match w.startServer timeout with
  | .ok w => nothing w
  | .error error => failed w (.transport error)

def serverStats (w : World) (finished : Bool) : Reply :=
  match w.server with
  | some s => .stats s.stats finished
  | none => .answer .nothing

/-- Carries out a command. A task that it begins has the number `n`. -/
def perform (w : World) (n : Nat) : Command → Performed
  | .advance ms => nothing (w.advance ms)
  | .cancel task => replied (w.cancelTask task) (.answer (.flag (w.task? task).isSome))
  | .put b => withBlock w b fun block => began (w.beginCall n (.put (.task n) block))
  | .request interest timeout =>
    withArgument w (readInterest interest) fun interest =>
      began (w.beginCall n (.request (.task n) interest timeout))
  | .close => began (w.beginCall n (.close (.task n)))
  | .waitForDrain timeout => began (w.beginCall n (.drain (.task n) timeout))
  | .setCapacity capacity => moveNow w (.setCapacity capacity)
  | .addNamespace name => withArgument w (readName name) fun name => moveNow w (.addNamespace name)
  | .removeNamespace name =>
    withArgument w (readName name) fun name => moveNow w (.removeNamespace name)
  | .namespaces => replied w (.names w.buffer.namespaces.keys)
  | .clear => moveNow w .clear
  | .remove name => withArgument w (readName name) fun name => moveNow w (.remove name)
  | .contains name =>
    withArgument w (readName name) fun name => replied w (.answer (.flag (w.buffer.contains name)))
  | .peek name full => withArgument w (readName name) (readPeek w full)
  | .describeBuffer => replied w (.text w.buffer.describe)
  | .subscribe id interest limit => withArgument w (readInterest interest) (subscribe w id limit)
  | .readSubscription id => withSubscription w id fun feed => moveNow w (.read feed)
  | .pollSubscription id => withSubscription w id (pollFeed w)
  | .dropSubscription id =>
    withSubscription w id fun feed =>
      nothing ({ w with subscriptions := w.subscriptions.erase id }.moved (.unsubscribe feed))
  | .describeSubscription id =>
    withSubscription w id fun feed =>
      replied w (.text ("Subscription \x7b id: " ++ feed.repr ++ " \x7d"))
  | .insertKey key => replied { w with keys := w.keys.insert key } (.publisher (KeyRing.publisherOf key))
  | .setDefaultKey publisher =>
    withArgument w (w.keys.setDefault publisher) fun keys => nothing { w with keys }
  | .removeKey publisher =>
    replied { w with keys := w.keys.remove publisher }
      (.answer (.flag (w.keys.removable? publisher).isSome))
  | .newSegmenter id config => newSegmenter w id config
  | .write id text => withSegmenter w id (write w n id text)
  | .closeSegmenter id =>
    withSegmenter w id fun s => began ((takeSegmenter w id).beginClosing n id s)
  | .setNumbering id numbering =>
    withSegmenter w id fun s => changeSegmenter w id (s.setNumbering numbering)
  | .setBlockSize id size => withSegmenter w id fun s => changeSegmenter w id (s.setBlockSize size)
  | .setNext id number => withSegmenter w id fun s => changeSegmenter w id (.ok (s.setNext number))
  | .segmenterState id => withSegmenter w id (showSegmenter w)
  | .dropSegmenter id =>
    match w.segmenters.find? id with
    | some s => replied ((takeSegmenter w id).dropSegmenter s) (.answer (.flag true))
    | none => replied w (.answer (.flag false))
  | .describeSegmenter id =>
    withSegmenter w id fun s => replied w (.text (s.describe w.buffer.describe))
  | .connect face => replied (connect w face) (.text face)
  | .disconnect face =>
    replied (disconnect w face) (.answer (.flag (w.network.faces.contains face)))
  | .dropFace face =>
    withFace w face fun channel => nothing ((takeFace w face).closeChannel channel)
  | .listFaces => replied w (.labels w.network.faces.keys)
  | .express face interest =>
    withArgument w (readInterest interest) fun interest =>
      withFace w face fun channel =>
        began ((takeFace w face).attemptExpress n face channel interest none)
  | .fetch face interest timeout =>
    withArgument w (readInterest interest) fun interest =>
      withFace w face fun channel =>
        began ((takeFace w face).attemptExpress n face channel interest (some timeout))
  | .readFace face => withFace w face (readFace w)
  | .send face b => withBlock w b fun block => began (w.beginSend n face block)
  | .takeInbound => takeInbound w
  | .readInbound => readInbound w
  | .dropInbound => dropInbound w
  | .startServer timeout => startServer w timeout
  | .serverStats => replied w (serverStats w false)
  | .shutServer => replied w.stopServer (serverStats w true)
  | .dropServer => replied w.stopServer (.answer (.flag w.server.isSome))

end NamedContent.Session
