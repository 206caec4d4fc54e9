import NamedContent.World.Holdings

/-!
# Tasks

How each kind of task begins, and how it goes on when it has been woken.
-/

set_option autoImplicit false

namespace NamedContent.World

def beginCall (w : World) (n : Nat) (m : Traffic.Move Caller) : World :=
  match w.move m with
  | (w, some answer) => w.finish n (publishOutcome answer)
  | (w, none) => w.setTask n .calling

def resumeCall (w : World) (n : Nat) : World :=
  match w.move (.resume (.task n)) with
  | (w, some answer) => w.finish n (publishOutcome answer)
  | (w, none) => w

def endWriting (w : World) (n : Nat) (id : String) (s : Segmenter) (writing : Segmenter.Writing) :
    World :=
  let (s, holdings) := s.complete writing
  let outcome := match writing.first with
    | some block => .ok (.block block)
    | none => .error (.publish (.signingFailure (.other "batch produced no blocks")))
  (w.applyHoldings holdings).finishWith n (.segmenter id s) outcome

def failWriting (w : World) (n : Nat) (id : String) (s : Segmenter) (error : PublishError) : World :=
  w.finishWith n (.segmenter id s) (.error (.publish error))

/-- Puts the blocks that are left, one after the other, up to the first that has to wait. -/
def putBlocks (n : Nat) (id : String) (s : Segmenter) :
    List Block → World → Segmenter.Writing → World
  | [], w, writing => w.endWriting n id s writing
  | block :: rest, w, writing =>
    match w.move (.put (.task n) block) with
    | (w, some (.ok _)) => putBlocks n id s rest w (writing.arrived block rest)
    | (w, some (.error error)) => w.failWriting n id s error
    | (w, none) => w.setTask n (.writing id s block { writing with blocks := rest })

def beginWriting (w : World) (n : Nat) (id : String) (s : Segmenter) (name : Name)
    (content : Bytes) (options : Segmenter.Options) : World :=
  let timestamp := Int64.ofNat (1000 * w.now)
  match s.plan w.keys timestamp name content options with
  | .error error => w.failWriting n id s error
  | .ok plan =>
    let w := w.applyHoldings plan.holdings
    match plan.writing with
    | .error error => w.failWriting n id plan.segmenter error
    | .ok writing => putBlocks n id plan.segmenter writing.blocks w writing

def resumeWriting (w : World) (n : Nat) (id : String) (s : Segmenter) (block : Block)
    (writing : Segmenter.Writing) : World :=
  match w.move (.resume (.task n)) with
  | (w, some (.ok _)) =>
    putBlocks n id s writing.blocks w (writing.arrived block writing.blocks)
  | (w, some (.error error)) => w.failWriting n id s error
  | (w, none) => w

def endClosing (w : World) (n : Nat) (id : String) (s : Segmenter)
    (answer : Except PublishError Answer) : World :=
  w.finishWith n (.segmenter id s) (publishOutcome answer)

def beginClosing (w : World) (n : Nat) (id : String) (s : Segmenter) : World :=
  match w.move (.close (.task n)) with
  | (w, some answer) => w.endClosing n id s answer
  | (w, none) => w.setTask n (.closing id s)

def resumeClosing (w : World) (n : Nat) (id : String) (s : Segmenter) : World :=
  match w.move (.resume (.task n)) with
  | (w, some answer) => w.endClosing n id s answer
  | (w, none) => w

def endFace (w : World) (n : Nat) (face : String) (channel : Nat) (outcome : Outcome) : World :=
  w.finishWith n (.face face channel) outcome

def awaitBlock (w : World) (n : Nat) (face : String) (channel deadline : Nat) : World :=
  let source := w.network.channel channel
  match source.receive with
  | (some block, source, woken) =>
    ((w.setChannel channel source).wakeAll woken.toList).endFace n face channel (.ok (.block block))
  | (none, _, _) =>
    if source.isEnded ∨ deadline ≤ w.now then w.endFace n face channel (.ok .nothing)
    else w.setTask n (.fetching face channel deadline)

/-- The interest has been sent. A fetch goes on to wait for a block. -/
def afterExpress (w : World) (n : Nat) (face : String) (channel : Nat) (fetch : Option Nat) : World :=
  let w := if w.server.isSome then w.enqueue .server else w
  match fetch with
  | none => w.endFace n face channel (.ok .done)
  | some timeout => w.awaitBlock n face channel (w.now + timeout)

def disconnected : Outcome := .error (.transport .disconnected)

def attemptExpress (w : World) (n : Nat) (face : String) (channel : Nat) (interest : Interest)
    (fetch : Option Nat) : World :=
  let (interests, sending) := w.network.interests.send (.task n) (face, interest)
  let w := w.setInterests interests
  match sending with
  | .sent => w.afterExpress n face channel fetch
  | .closed => w.endFace n face channel disconnected
  | .waits => w.setTask n (.expressing face channel interest fetch)

def sendFailed : Outcome := .error (.transport .channelClosed)

def attemptSend (w : World) (n : Nat) (i : Nat) (block : Block) : World :=
  let (channel, sending) := (w.network.channel i).send (.task n) block
  let w := w.setChannel i channel
  match sending with
  | .sent => (w.wakeReceiver i).finish n (.ok .done)
  | .closed => w.finish n sendFailed
  | .waits => w.setTask n (.sending i block)

def beginSend (w : World) (n : Nat) (face : String) (block : Block) : World :=
  match w.network.faces.find? face with
  | none => w.finish n (.error (.transport (.faceNotFound face)))
  | some i => w.attemptSend n i block

def resumeTask (w : World) (n : Nat) : World :=
  match w.task? n with
  | none => w
  | some .calling => w.resumeCall n
  | some (.writing id s block writing) => w.resumeWriting n id s block writing
  | some (.closing id s) => w.resumeClosing n id s
  | some (.expressing face channel interest fetch) => w.attemptExpress n face channel interest fetch
  | some (.fetching face channel deadline) => w.awaitBlock n face channel deadline
  | some (.sending channel block) => w.attemptSend n channel block

def cancelTask (w : World) (n : Nat) : World :=
  let free := w.dropTask n
  match w.task? n with
  | none => w
  | some .calling => free.moved (.cancel (.task n))
  | some (.writing _ s _ _) | some (.closing _ s) =>
    (free.moved (.cancel (.task n))).dropSegmenter s
  | some (.expressing _ channel _ _) => (free.withdrawInterest (.task n)).closeChannel channel
  | some (.fetching _ channel _) => free.closeChannel channel
  | some (.sending channel _) => free.withdrawBlock channel (.task n)

end NamedContent.World
