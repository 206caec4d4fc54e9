import NamedContent.Bytes.Hex
import NamedContent.Name
import NamedContent.Text.Quoted

/-!
# URI text of names

Every component is written behind a slash, with all bytes but the letters,
digits and `-`, `.`, `_`, `~` of ASCII escaped; the root is a lone slash. The
reader takes an optional scheme, skips empty pieces between slashes, and
reads an escape as the eight-bit number that its two characters write. Since
a number may have a plus sign, a plus and one digit are an escape too.
-/

set_option autoImplicit false

namespace NamedContent

inductive UriFault where
  | notRooted (uri : String)
  | badEscape (piece : String)
  deriving DecidableEq, Repr

def UriFault.message : UriFault → String
  | .notRooted uri => "name must start with '/': " ++ Text.quote uri
  | .badEscape piece => "bad escape in component " ++ Text.quote piece

namespace Uri

def isPlain (b : UInt8) : Bool :=
  (48 ≤ b && b ≤ 57) || (65 ≤ b && b ≤ 90) || (97 ≤ b && b ≤ 122) ||
    b == 45 || b == 46 || b == 95 || b == 126

def escapeByte (b : UInt8) : List Char :=
  if isPlain b then [Char.ofNat b.toNat]
  else ['%', hexDigit true (b.toNat / 16), hexDigit true (b.toNat % 16)]

def writeComponent (c : Component) : List Char := c.bytes.flatMap escapeByte

def write (n : Name) : List Char :=
  if n.isEmpty then ['/'] else n.components.flatMap fun c => '/' :: writeComponent c

def readEscape (high low : Char) : Option UInt8 :=
  if high = '+' then (hexValue? low).map UInt8.ofNat
  else do return UInt8.ofNat (16 * (← hexValue? high) + (← hexValue? low))

def readPiece : List Char → Option Bytes
  | [] => some []
  | '%' :: high :: low :: rest => do
    let b ← readEscape high low
    return b :: (← readPiece rest)
  | c :: rest => if c = '%' then none else do return String.utf8EncodeChar c ++ (← readPiece rest)

/-- The pieces between slashes, of which a text has always one at least. -/
def splitAtSlashes : List Char → List (List Char)
  | [] => [[]]
  | c :: cs =>
    if c = '/' then [] :: splitAtSlashes cs
    else match splitAtSlashes cs with
      | [] => [[c]]
      | piece :: rest => (c :: piece) :: rest

def dropScheme : List Char → List Char
  | 'c' :: 'c' :: 'n' :: 'x' :: ':' :: rest => rest
  | text => text

def readComponent (piece : List Char) : Except UriFault Component :=
  match readPiece piece with
  | some bytes => .ok ⟨bytes⟩
  | none => .error (.badEscape (String.ofList piece))

def read (uri : String) : Except UriFault Name :=
  match dropScheme uri.toList with
  | '/' :: path => do
    let pieces := (splitAtSlashes path).filter fun piece => !piece.isEmpty
    return ⟨← pieces.mapM readComponent⟩
  | _ => .error (.notRooted uri)

end Uri

def Component.text (c : Component) : String := String.ofList (Uri.writeComponent c)

def Name.uri (n : Name) : String := String.ofList (Uri.write n)

end NamedContent
