import NamedContent.Traffic.Call

/-!
# Traffic on one buffer

Any number of callers put, request and wait on one buffer. A caller has at
most one call in progress; the calls are listed in the order in which they
began to wait. A move is one uninterrupted piece of work: an operation up to
its end or its first wait, or the continuation of a waiting call. The order
of moves is free, so whatever holds after all sequences of moves holds for
every interleaving of such pieces, each from one await to the next. A notice
wakes the calls it concerns in the order of the list; a caller that still
finds no room waits again at the end of it.

On several threads a piece can come apart where it takes the lock anew: the
timer of a call has fired, and somebody else works on the buffer before the
call does. For a request that runs out of time this is modelled beside these
moves, with the firing of the timer and both ways back to the buffer as moves
of their own. A put or a drain that runs out of time is one move only, and
what is said of them is said of the points where no call is inside a piece.
-/

set_option autoImplicit false

namespace NamedContent

structure Traffic (κ : Type) where
  buffer : Buffer
  now : Nat
  calls : List (κ × Call)

namespace Traffic

inductive Move (κ : Type) where
  | put (who : κ) (block : Block)
  | request (who : κ) (interest : Interest) (timeout : Nat)
  | drain (who : κ) (timeout : Nat)
  | close (who : κ)
  | resume (who : κ)
  | cancel (who : κ)
  | tick (ms : Nat)
  | setCapacity (n : Nat)
  | addNamespace (name : Name)
  | removeNamespace (name : Name)
  | clear
  | remove (name : Name)
  | subscribe (interest : Interest) (limit : Option Nat)
  | read (feed : Nat)
  | unsubscribe (feed : Nat)

/-- What comes of a move: the callers it woke, in order, and the answer,
unless the caller waits. -/
structure Turn (κ : Type) where
  traffic : Traffic κ
  woken : List κ
  answer : Option (Except PublishError Answer)

variable {κ : Type}

def ofConfig (config : Buffer.Config) : Traffic κ := ⟨.ofConfig config, 0, []⟩

def hear (t : Traffic κ) (n : Notice) : Traffic κ × List κ :=
  ({ t with calls := t.calls.map fun c => (c.1, (c.2.hear? n).getD c.2) },
    t.calls.filterMap fun c => (c.2.hear? n).map fun _ => c.1)

def hearAll (t : Traffic κ) : List Notice → Traffic κ × List κ
  | [] => (t, [])
  | n :: rest =>
    let (t, first) := t.hear n
    let (t, others) := t.hearAll rest
    (t, first ++ others)

def finish (t : Traffic κ) (buffer : Buffer) (notices : List Notice)
    (answer : Except PublishError Answer) : Turn κ :=
  let (t, woken) := { t with buffer }.hearAll notices
  ⟨t, woken, some answer⟩

def wait (t : Traffic κ) (who : κ) (call : Call) : Turn κ :=
  ⟨{ t with calls := t.calls ++ [(who, call)] }, [], none⟩

def capacityExceeded (b : Buffer) : Except PublishError Answer :=
  .error (.capacityExceeded b.capacity b.size)

/-- One attempt of a put. Without room it waits, if its deadline and the
overflow policy let it. -/
def attemptPut (t : Traffic κ) (who : κ) (block : Block) (deadline : Nat) : Turn κ :=
  match t.buffer.tryInsert block with
  | .refused error => t.finish t.buffer [] (.error error)
  | .filed buffer notices => t.finish buffer notices (.ok (.block block))
  | .full buffer =>
    if buffer.config.overflow = .fail ∨ deadline ≤ t.now then
      t.finish buffer [] (capacityExceeded buffer)
    else { t with buffer }.wait who (.put block deadline false)

def beginRequest (t : Traffic κ) (who : κ) (interest : Interest) (timeout : Nat) : Turn κ :=
  match t.buffer.request interest with
  | .refused => t.finish t.buffer [] (.error .closedBuffer)
  | .served block buffer => t.finish buffer buffer.deliveryNotices (.ok (.block block))
  | .parked buffer id =>
    if timeout = 0 then t.finish (buffer.forget id) [] (.ok .nothing)
    else { t with buffer }.wait who (.request id (t.now + timeout) .empty)

/-- The end of closing. A wait that timed out is an error of a strict buffer. -/
def endClose (t : Traffic κ) (report : DrainReport) : Turn κ :=
  let answer :=
    if report.timedOut && t.buffer.config.strictDrain then
      .error (.timeout (.ofMillis t.buffer.config.drainTimeout))
    else .ok (.report report)
  t.finish t.buffer.shut t.buffer.shutNotices answer

def endDrain (t : Traffic κ) (closing : Bool) (report : DrainReport) : Turn κ :=
  if closing then t.endClose report else t.finish t.buffer [] (.ok (.report report))

def attemptDrain (t : Traffic κ) (who : κ) (closing : Bool) (started deadline : Nat) : Turn κ :=
  let left := t.buffer.unclaimed
  if left = 0 ∨ deadline ≤ t.now then
    t.endDrain closing ⟨left, left ≠ 0, t.now - started⟩
  else t.wait who (.drain closing started deadline false)

/-- Closing tells the waiting puts first. A persistent buffer waits for no
reader, and a closed one has nothing to do. -/
def beginClose (t : Traffic κ) (who : κ) : Turn κ :=
  if t.buffer.phase = .closed then t.finish t.buffer [] (.ok (.report default))
  else
    let (t, woken) := { t with buffer := t.buffer.beginDrain }.hearAll [.space]
    let turn :=
      if t.buffer.bestEffort then
        t.attemptDrain who true t.now (t.now + t.buffer.config.drainTimeout)
      else t.endClose ⟨t.buffer.unclaimed, false, 0⟩
    { turn with woken := woken ++ turn.woken }

variable [DecidableEq κ]

def call? (t : Traffic κ) (who : κ) : Option Call :=
  (t.calls.find? fun c => c.1 = who).map (·.2)

def withoutCall (t : Traffic κ) (who : κ) : Traffic κ :=
  { t with calls := t.calls.filter fun c => c.1 ≠ who }

def idle (t : Traffic κ) : Turn κ := ⟨t, [], none⟩

/-- Goes on with a call. A notice comes before the deadline where both are due. -/
def resume (t : Traffic κ) (who : κ) : Turn κ :=
  let free := t.withoutCall who
  match t.call? who with
  | none => t.idle
  | some (.put block deadline woken) =>
    if woken then free.attemptPut who block deadline
    else if deadline ≤ t.now then free.finish t.buffer [] (capacityExceeded t.buffer)
    else t.idle
  | some (.request id deadline slot) =>
    match slot with
    | .handed block => free.finish t.buffer [] (.ok (.block block))
    | .released => free.finish t.buffer [] (.error .closedBuffer)
    | .empty =>
      if deadline ≤ t.now then free.finish (t.buffer.forget id) [] (.ok .nothing) else t.idle
  | some (.drain closing started deadline woken) =>
    if woken ∨ deadline ≤ t.now then free.attemptDrain who closing started deadline else t.idle

def cancel (t : Traffic κ) (who : κ) : Turn κ :=
  let free := t.withoutCall who
  match t.call? who with
  | some (.request id _ _) => free.finish (t.buffer.forget id) [] (.ok .done)
  | _ => free.finish t.buffer [] (.ok .done)

/-- A caller with a call in progress begins no other. -/
def begin (t : Traffic κ) (who : κ) (turn : Turn κ) : Turn κ :=
  if (t.call? who).isSome then t.idle else turn

def step (t : Traffic κ) : Move κ → Turn κ
  | .put who block =>
    t.begin who (t.attemptPut who block (t.now + t.buffer.config.putTimeout))
  | .request who interest timeout => t.begin who (t.beginRequest who interest timeout)
  | .drain who timeout => t.begin who (t.attemptDrain who false t.now (t.now + timeout))
  | .close who => t.begin who (t.beginClose who)
  | .resume who => t.resume who
  | .cancel who => t.cancel who
  | .tick ms => ⟨{ t with now := t.now + ms }, [], some (.ok .done)⟩
  | .setCapacity n => t.finish { t.buffer with capacity := n } [.space] (.ok .done)
  | .addNamespace name => t.finish (t.buffer.addNamespace name) [] (.ok .done)
  | .removeNamespace name =>
    let (buffer, held) := t.buffer.removeNamespace name
    t.finish buffer [] (.ok (.flag held))
  | .clear => t.finish t.buffer.clear Buffer.removalNotices (.ok (.count t.buffer.size))
  | .remove name =>
    match t.buffer.remove? name with
    | none => t.finish t.buffer [] (.ok .nothing)
    | some (block, buffer) => t.finish buffer Buffer.removalNotices (.ok (.block block))
  | .subscribe interest limit =>
    match t.buffer.subscribe? interest limit with
    | none => t.finish t.buffer [] (.error .closedBuffer)
    | some buffer => t.finish buffer [] (.ok (.registered t.buffer.nextId))
  | .read feed =>
    let (buffer, reading) := t.buffer.readFeed feed
    t.finish buffer [] (.ok (.reading reading))
  | .unsubscribe feed => t.finish (t.buffer.dropFeed feed) [] (.ok .done)

def run (t : Traffic κ) : List (Move κ) → Traffic κ
  | [] => t
  | m :: rest => (t.step m).traffic.run rest

theorem run_append (t : Traffic κ) (ms rest : List (Move κ)) :
    t.run (ms ++ rest) = (t.run ms).run rest := by
  induction ms generalizing t with
  | nil => rfl
  | cons m ms ih => exact ih _

end Traffic

end NamedContent
