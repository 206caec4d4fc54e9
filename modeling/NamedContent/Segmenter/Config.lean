import NamedContent.PublishError

/-!
# Settings of a segmenter

Settings are given directly or read from two named variables, each of which
may be missing.
-/

set_option autoImplicit false

namespace NamedContent.Segmenter

structure Config where
  blockSize : Nat := 4096
  numbering : Numbering := .fixedIncrement 1
  deriving DecidableEq, Repr, Inhabited

namespace Config

def blockSizeVariable : String := "CNP_BLOCK_SIZE"

def numberingVariable : String := "CNP_NUMBERING"

def checkNumbering (n : Numbering) : Except PublishError Unit :=
  n.validate.mapError fun fault => .invalidArgument (.numbering fault)

def validate (c : Config) : Except PublishError Unit :=
  if c.blockSize = 0 then .error (.invalidArgument .zeroBlockSize) else checkNumbering c.numbering

def checked (c : Config) : Except PublishError Config := do
  c.validate
  return c

def readBlockSize (text : String) : Except PublishError Nat :=
  (Text.readDecimal (Text.trim text.toList)).mapError fun fault =>
    .invalidArgument (.badSetting blockSizeVariable text fault)

def readNumbering (text : String) : Except PublishError Numbering :=
  (Numbering.read text).mapError fun fault => .invalidArgument (.numbering fault)

/-- The defaults, overridden by the variables that are set. -/
def ofVariables (lookup : String → Option String) : Except PublishError Config := do
  let blockSize ← match lookup blockSizeVariable with
    | some text => readBlockSize text
    | none => pure 4096
  let numbering ← match lookup numberingVariable with
    | some text => readNumbering text
    | none => pure (.fixedIncrement 1)
  checked ⟨blockSize, numbering⟩

end Config

end NamedContent.Segmenter
