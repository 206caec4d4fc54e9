import NamedContent.World.Holdings

/-!
# The server at work

In a turn the server first takes all interests that have arrived. Then it goes
from round to round: in each it looks at the serves that have been woken, in
the order of their waking, until one of them ends. The turn is over when no
woken serve is left, or when a round would begin without units; within a
round, serves that need a unit when none is left are deferred.
-/

set_option autoImplicit false

namespace NamedContent.World

def onServer (w : World) (f : Server → Server) : World := { w with server := w.server.map f }

def inFlight (w : World) : Nat := (w.server.map (·.inFlight.length)).getD 0

def isInFlight (w : World) (id : Nat) : Bool := (w.server.bind (·.serve? id)).isSome

def takeInterests : Nat → World → World
  | 0, w => w
  | count+1, w =>
    match w.network.interests.receive with
    | (none, _, _) => w
    | (some (face, interest), interests, woken) =>
      takeInterests count
        (((w.setInterests interests).wakeAll woken.toList).onServer (·.accept face interest))

def endServe (w : World) (id : Nat) (ending : Ending) : World :=
  w.onServer (·.finish id ending)

/-- Leaves a serve at a stage. Without units it has not begun to wait and is deferred. -/
def keepServe (w : World) (left id : Nat) (stage : ServeStage) : World :=
  w.onServer fun s => if left = 0 then (s.setStage id stage).defer id else s.setStage id stage

def deliver (w : World) (left : Nat) (v : Serve) (i : Nat) (block : Block) : World × Nat :=
  if left = 0 then (w.keepServe left v.id (.sending i block), left)
  else
    let (channel, sending) := (w.network.channel i).send (.serve v.id) block
    let w := w.setChannel i channel
    match sending with
    | .sent => ((w.wakeReceiver i).endServe v.id .served, left - 1)
    | .closed => (w.endServe v.id .failed, left - 1)
    | .waits => (w.keepServe left v.id (.sending i block), left)

/-- Goes on with what came of the request, if it has ended. The block goes to
the face that has the id now. -/
def afterRequest (left : Nat) (v : Serve) :
    World × Option (Except PublishError Answer) → World × Nat
  | (w, none) => (w.keepServe left v.id .requesting, left)
  | (w, some (.ok (.block block))) =>
    match w.network.faces.find? v.face with
    | none => (w.endServe v.id .failed, left)
    | some i => w.deliver left v i block
  | (w, some (.ok _)) => (w.endServe v.id .expired, left)
  | (w, some (.error _)) => (w.endServe v.id .failed, left)

/-- Makes the request. Only one that ends after a wait takes a unit, and the
wait of a request without time ends at once. -/
def beginRequest (w : World) (timeout left : Nat) (v : Serve) : World × Nat :=
  match w.move (.request (.serve v.id) v.interest timeout) with
  | (w, some (.ok .nothing)) => afterRequest (left - 1) v (w, some (.ok .nothing))
  | (w, answer) => afterRequest left v (w, answer)

def resumeRequest (w : World) (left : Nat) (v : Serve) : World × Nat :=
  if left = 0 then (w.keepServe left v.id .requesting, left)
  else
    match w.move (.resume (.serve v.id)) with
    | (w, none) => afterRequest left v (w, none)
    | (w, answer) => afterRequest (left - 1) v (w, answer)

def look (w : World) (timeout left : Nat) (v : Serve) : World × Nat :=
  match v.stage with
  | .fresh => w.beginRequest timeout left v
  | .requesting => w.resumeRequest left v
  | .sending i block => w.deliver left v i block

/-- One round: the units left after the first end of a serve, or nothing if
none has ended. When as many looks as there are serves have ended none, the
server stops for others to go on, but stays woken. -/
def round : Nat → Nat → World → World × Option Nat
  | 0, _, w => (w.enqueue .server, none)
  | looks+1, left, w =>
    match w.server with
    | none => (w, none)
    | some s =>
      match s.next? with
      | none => (w, none)
      | some (v, s) =>
        let (w, left) := { w with server := some s }.look s.timeout left v
        if w.isInFlight v.id then round looks left w else (w, some left)

def rounds : Nat → Nat → World → World
  | 0, _, w => w
  | count+1, left, w =>
    if left = 0 then w.onServer (·.yield)
    else
      match round w.inFlight left w with
      | (w, some left) => rounds count left w
      | (w, none) => w

def resumeServer (w : World) : World :=
  if w.server.isNone then w
  else
    let taken := min Server.share w.network.interests.items.length
    let w := takeInterests taken w
    rounds w.inFlight (Server.share - taken) w

def wakeDeferred (w : World) : World :=
  match w.server with
  | none => w
  | some s =>
    let joined := { w with server := some s.wakeDeferred }
    if s.stepsBack then joined.enqueue .server else joined

def startServer (w : World) (timeout : Nat) : Except TransportError World :=
  if w.network.taken then .error .alreadySubscribed
  else
    let network := { w.network with taken := true }
    .ok ({ w with network, server := some (.ofTimeout timeout) }.enqueue .server)

def abandon (w : World) (v : Serve) : World :=
  match v.stage with
  | .fresh => w
  | .requesting => w.moved (.cancel (.serve v.id))
  | .sending i _ => w.withdrawBlock i (.serve v.id)

/-- Stops the server, if there is one: the interests in flight are dropped and the stream ends. -/
def stopServer (w : World) : World :=
  match w.server with
  | none => w
  | some s => { (s.inFlight.foldl abandon w).closeInterests with server := none }

end NamedContent.World
