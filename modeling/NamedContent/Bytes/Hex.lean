import NamedContent.Bytes

/-!
# Hexadecimal text of byte strings

Bytes are written as two lower-case digits each. The reader takes digits of
either case.
-/

set_option autoImplicit false

namespace NamedContent

def hexDigit (upper : Bool) (n : Nat) : Char :=
  if n < 10 then Char.ofNat (48 + n)
  else Char.ofNat ((if upper then 55 else 87) + n)

def hexValue? (c : Char) : Option Nat :=
  if '0' ≤ c ∧ c ≤ '9' then some (c.toNat - 48)
  else if 'a' ≤ c ∧ c ≤ 'f' then some (c.toNat - 87)
  else if 'A' ≤ c ∧ c ≤ 'F' then some (c.toNat - 55)
  else none

def toHex (bytes : Bytes) : String :=
  String.ofList (bytes.flatMap fun b => [hexDigit false (b.toNat / 16), hexDigit false (b.toNat % 16)])

def ofHexDigits? : List Char → Option Bytes
  | [] => some []
  | [_] => none
  | high :: low :: rest => do
    let h ← hexValue? high
    let l ← hexValue? low
    let bytes ← ofHexDigits? rest
    return UInt8.ofNat (16 * h + l) :: bytes

def ofHex? (text : String) : Option Bytes := ofHexDigits? text.toList

end NamedContent
