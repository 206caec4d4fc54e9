/-!
# Settings of a buffer

Times are in milliseconds.
-/

set_option autoImplicit false

namespace NamedContent.Buffer

inductive Mode where
  /-- A block is handed to one reader and may then be swept to make room. -/
  | bestEffort
  /-- A block stays until it is removed, so that every reader can have it. -/
  | persistent
  deriving DecidableEq, Repr, Inhabited

def Mode.describe : Mode → String
  | .bestEffort => "BestEffort"
  | .persistent => "Persistent"

inductive Overflow where
  | wait
  | fail
  deriving DecidableEq, Repr, Inhabited

structure Config where
  capacity : Nat := 128
  mode : Mode := .bestEffort
  overflow : Overflow := .wait
  putTimeout : Nat := 10000
  drainTimeout : Nat := 10000
  /-- An expired wait for readers is an error of closing. -/
  strictDrain : Bool := false
  filterQueue : Nat := 64
  deriving DecidableEq, Repr, Inhabited

def Config.withFilterQueue (c : Config) (depth : Nat) : Config :=
  { c with filterQueue := max depth 1 }

end NamedContent.Buffer
