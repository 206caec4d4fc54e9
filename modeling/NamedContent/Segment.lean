import NamedContent.Name

/-!
# Segment names

The name of a segment is the name of its stream and one more component: the
byte zero and the segment number without leading zero bytes, most significant
byte first. A component is read as a segment number if it is a zero byte and
at most eight bytes more.
-/

set_option autoImplicit false

namespace NamedContent

def segmentMarker : UInt8 := 0

def baseSegment : UInt64 := 0

namespace Component

def segment (number : UInt64) : Component :=
  ⟨segmentMarker :: (bigEndian 8 number.toNat).dropWhile (· == 0)⟩

def segmentNumber? (c : Component) : Option UInt64 :=
  match c.bytes with
  | [] => none
  | b :: digits =>
    if b = segmentMarker ∧ digits.length ≤ 8 then some (UInt64.ofNat (ofBigEndian digits)) else none

def isSegment (c : Component) : Bool := c.segmentNumber?.isSome

end Component

namespace Name

def segmentNumber? (n : Name) : Option UInt64 := n.last?.bind Component.segmentNumber?

def isSegment (n : Name) : Bool := n.segmentNumber?.isSome

/-- The name without its segment component, if it ends in one. -/
def segmentRoot (n : Name) : Name :=
  if n.isSegment then n.truncate (n.length - 1) else n

def segmentName (n : Name) (number : UInt64) : Name :=
  n.segmentRoot.append (Component.segment number)

end Name

end NamedContent
