/-!
# Lengths of time

A length of time is written in the largest of the units second, millisecond,
microsecond and nanosecond of which it holds at least one, with as many
decimals as it needs.
-/

set_option autoImplicit false

namespace NamedContent

structure Duration where
  nanos : Nat
  deriving DecidableEq, Repr, Inhabited

namespace Duration

def ofMillis (ms : Nat) : Duration := ⟨ms * 1000000⟩

def padded (width n : Nat) : List Char :=
  let digits := Nat.toDigits 10 n
  List.replicate (width - digits.length) '0' ++ digits

def decimals (width part : Nat) : List Char :=
  if part = 0 then []
  else '.' :: ((padded width part).reverse.dropWhile (· == '0')).reverse

/-- `nanos` counted in a unit of ten to the power `width` nanoseconds. -/
def inUnit (nanos width : Nat) (unit : String) : String :=
  let size := Nat.pow 10 width
  String.ofList (Nat.toDigits 10 (nanos / size) ++ decimals width (nanos % size)) ++ unit

def text (d : Duration) : String :=
  if 1000000000 ≤ d.nanos then inUnit d.nanos 9 "s"
  else if 1000000 ≤ d.nanos then inUnit d.nanos 6 "ms"
  else if 1000 ≤ d.nanos then inUnit d.nanos 3 "µs"
  else inUnit d.nanos 0 "ns"

end Duration

end NamedContent
