import NamedContent.Component
import NamedContent.Digest

/-!
# Hierarchical names

A name is a sequence of components. Matching goes by leading components: a
name covers itself and every name that continues it. Names are ordered
component by component, a name before those that continue it.
-/

set_option autoImplicit false

namespace NamedContent

structure Name where
  components : List Component
  deriving DecidableEq, Repr, Inhabited

namespace Name

instance : Ord Name := ⟨compareOn components⟩

instance : Std.TransOrd Name := inferInstanceAs (Std.TransCmp (compareOn components))

instance : Std.LawfulEqOrd Name where
  eq_of_compare {n m} h := by
    have h : compare n.components m.components = .eq := h
    cases n; cases m
    congr
    exact Std.LawfulEqCmp.eq_of_compare h

def root : Name := ⟨[]⟩

def length (n : Name) : Nat := n.components.length

def isEmpty (n : Name) : Bool := n.components.isEmpty

def append (n : Name) (c : Component) : Name := ⟨n.components ++ [c]⟩

def withDigest (n : Name) (content : Bytes) : Name := n.append ⟨(sha256 content).bytes⟩

def get? (n : Name) (i : Nat) : Option Component := n.components[i]?

def last? (n : Name) : Option Component := n.components.getLast?

/-- The first `count` components, or all where there are fewer. -/
def truncate (n : Name) (count : Nat) : Name := ⟨n.components.take count⟩

def isPrefixOf (n m : Name) : Bool := n.components.isPrefixOf m.components

/-- The number of components and then each component behind its length. -/
def encoding (n : Name) : Bytes :=
  bigEndian 8 n.length ++ n.components.flatMap fun c => counted c.bytes

end Name

end NamedContent
