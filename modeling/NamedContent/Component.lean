import NamedContent.Bytes

/-!
# Name components

A component is an opaque byte string. Components are ordered by length and
within one length bytewise, so numbers written without leading zeros sort as
numbers.
-/

set_option autoImplicit false

namespace NamedContent

structure Component where
  bytes : Bytes
  deriving DecidableEq, Repr, Inhabited

namespace Component

def ofText (text : String) : Component := ⟨text.toList.flatMap String.utf8EncodeChar⟩

def length (c : Component) : Nat := c.bytes.length

def isEmpty (c : Component) : Bool := c.bytes.isEmpty

def byLength (c d : Component) : Ordering := compareOn length c d

def byBytes (c d : Component) : Ordering := compareOn bytes c d

instance : Ord Component := ⟨compareLex byLength byBytes⟩

instance : Std.TransCmp byLength := inferInstanceAs (Std.TransCmp (compareOn length))

instance : Std.TransCmp byBytes := inferInstanceAs (Std.TransCmp (compareOn bytes))

instance : Std.TransOrd Component :=
  inferInstanceAs (Std.TransCmp (compareLex byLength byBytes))

instance : Std.LawfulEqOrd Component where
  eq_of_compare {c d} h := by
    have h : (compare c.length d.length).then (compare c.bytes d.bytes) = .eq := h
    cases c; cases d
    congr
    exact Std.LawfulEqCmp.eq_of_compare (Ordering.then_eq_eq.1 h).2

end Component

end NamedContent
