/-!
# Decimal numbers of 64 bits

The reader takes one leading plus sign and then digits only. It reads from
the left and stops at the first fault: a character that is no digit, or a
digit that carries the number past 64 bits.
-/

set_option autoImplicit false

namespace NamedContent.Text

inductive DecimalFault where
  | empty
  | invalidDigit
  | tooLarge
  deriving DecidableEq, Repr

def DecimalFault.message : DecimalFault → String
  | .empty => "cannot parse integer from empty string"
  | .invalidDigit => "invalid digit found in string"
  | .tooLarge => "number too large to fit in target type"

def readDigits : Nat → List Char → Except DecimalFault Nat
  | n, [] => .ok n
  | n, c :: cs =>
    if c.isDigit then
      let n' := 10 * n + (c.toNat - 48)
      if n' < UInt64.size then readDigits n' cs else .error .tooLarge
    else .error .invalidDigit

def readDecimal : List Char → Except DecimalFault Nat
  | [] => .error .empty
  | ['+'] => .error .invalidDigit
  | '+' :: cs => readDigits 0 cs
  | cs => readDigits 0 cs

end NamedContent.Text
