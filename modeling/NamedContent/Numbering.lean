import NamedContent.Segment
import NamedContent.Text.Blank
import NamedContent.Text.Decimal
import NamedContent.Text.Quoted

/-!
# Numbering of segments

A policy says how the number of a segment follows from the one before. The
step is never less than one, and a number that would pass 64 bits stays at
the greatest. Policies have a text, which reads back whatever its letter case
and the blanks around it.
-/

set_option autoImplicit false

namespace NamedContent

inductive Numbering where
  | fixedIncrement (step : UInt64)
  | byteCount
  /-- A segment counts its bytes in units of `scale`. -/
  | scaledByteCount (scale : UInt64)
  deriving DecidableEq, Repr

inductive NumberingFault where
  | zeroIncrement
  | zeroScale
  | unterminated (text : String)
  | badArgument (argument : String) (fault : Text.DecimalFault)
  | unknownMode (text : String)
  deriving DecidableEq, Repr

def NumberingFault.message : NumberingFault → String
  | .zeroIncrement => "fixed increment must be at least 1"
  | .zeroScale => "byte count scale must be at least 1"
  | .unterminated text => "unterminated numbering mode: " ++ text
  | .badArgument argument fault =>
    "bad numbering argument " ++ Text.quote argument ++ ": " ++ fault.message
  | .unknownMode text => "unknown numbering mode: " ++ text

namespace Numbering

instance : Inhabited Numbering := ⟨.fixedIncrement 1⟩

def base (_ : Numbering) : UInt64 := baseSegment

/-- How far a segment of `bytes` bytes moves the number. -/
def step : Numbering → Nat → Nat
  | .fixedIncrement n, _ => max n.toNat 1
  | .byteCount, bytes => max bytes 1
  | .scaledByteCount scale, bytes => max (bytes / max scale.toNat 1) 1

def next (n : Numbering) (previous : UInt64) (bytes : Nat) : UInt64 :=
  UInt64.ofNat (min (previous.toNat + n.step bytes) (UInt64.size - 1))

def validate : Numbering → Except NumberingFault Unit
  | .fixedIncrement 0 => .error .zeroIncrement
  | .scaledByteCount 0 => .error .zeroScale
  | _ => .ok ()

def text : Numbering → String
  | .fixedIncrement n => "fixed-increment(" ++ n.toNat.repr ++ ")"
  | .byteCount => "byte-count"
  | .scaledByteCount scale => "scaled-byte-count(" ++ scale.toNat.repr ++ ")"

def describe : Numbering → String
  | .fixedIncrement n => "FixedIncrement(" ++ n.toNat.repr ++ ")"
  | .byteCount => "ByteCount"
  | .scaledByteCount scale => "ScaledByteCount(" ++ scale.toNat.repr ++ ")"

def splitArgument (cs : List Char) : Except NumberingFault (List Char × Option UInt64) :=
  match cs.span (· != '(') with
  | (_, []) => .ok (cs, none)
  | (mode, _ :: rest) =>
    if rest.getLast? = some ')' then
      let argument := rest.dropLast
      match Text.readDecimal (Text.trim argument) with
      | .ok n => .ok (Text.trim mode, some (UInt64.ofNat n))
      | .error fault => .error (.badArgument (String.ofList argument) fault)
    else .error (.unterminated (String.ofList cs))

def ofMode? (mode : String) (argument : Option UInt64) : Option Numbering :=
  match mode, argument with
  | "byte-count", none => some .byteCount
  | "fixed-increment", n => some (.fixedIncrement (n.getD 1))
  | "scaled-byte-count", some scale => some (.scaledByteCount scale)
  | _, _ => none

def read (input : String) : Except NumberingFault Numbering := do
  let cs := Text.trim input.toList
  let (mode, argument) ← splitArgument cs
  match ofMode? (String.ofList (mode.map Char.toLower)) argument with
  | none => .error (.unknownMode (String.ofList cs))
  | some numbering =>
    numbering.validate
    return numbering

end Numbering

end NamedContent
