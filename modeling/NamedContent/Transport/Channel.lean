/-!
# Bounded channels

A channel holds up to a hundred items. A sender that finds it full waits; a
place that falls free is granted to the sender that has waited longest, who
fills it at its next turn, so that no later sender overtakes. Once the receiver is
gone nothing is sent any more.
-/

set_option autoImplicit false

namespace NamedContent

structure Channel (κ α : Type) where
  items : List α
  waiting : List κ
  /-- Senders with a place that they have not filled yet. -/
  granted : List κ
  receiving : Bool
  /-- New senders can find the channel. -/
  attached : Bool
  deriving Repr

namespace Channel

variable {κ α : Type}

def depth : Nat := 100

def empty : Channel κ α := ⟨[], [], [], true, true⟩

def isFull (c : Channel κ α) : Bool := depth ≤ c.items.length + c.granted.length

def isEnded (c : Channel κ α) : Bool :=
  !c.attached && c.items.isEmpty && c.waiting.isEmpty && c.granted.isEmpty

inductive Sending where
  | sent
  | waits
  | closed
  deriving DecidableEq, Repr

/-- Grants a free place to the longest waiting sender, who is woken. -/
def grant (c : Channel κ α) : Channel κ α × Option κ :=
  match c.waiting with
  | [] => (c, none)
  | who :: rest =>
    if c.isFull then (c, none)
    else ({ c with waiting := rest, granted := c.granted ++ [who] }, some who)

def receive (c : Channel κ α) : Option α × Channel κ α × Option κ :=
  match c.items with
  | [] => (none, c, none)
  | item :: rest =>
    let (c, who) := { c with items := rest }.grant
    (some item, c, who)

def close (c : Channel κ α) : Channel κ α × List κ :=
  ({ c with items := [], receiving := false }, c.waiting)

variable [DecidableEq κ]

def without (c : Channel κ α) (who : κ) : Channel κ α :=
  { c with
    waiting := c.waiting.filter (· ≠ who)
    granted := c.granted.filter (· ≠ who) }

/-- An attempt to send. A sender who waits already keeps the wait. -/
def send (c : Channel κ α) (who : κ) (item : α) : Channel κ α × Sending :=
  if !c.receiving then (c.without who, .closed)
  else if who ∈ c.granted then ({ c.without who with items := c.items ++ [item] }, .sent)
  else if who ∈ c.waiting then (c, .waits)
  else if c.isFull then ({ c with waiting := c.waiting ++ [who] }, .waits)
  else ({ c with items := c.items ++ [item] }, .sent)

def withdraw (c : Channel κ α) (who : κ) : Channel κ α × Option κ :=
  (c.without who).grant

end Channel

end NamedContent
