import NamedContent.Text.GraphemeExtend
import NamedContent.Text.Unprintable

/-!
# Characters that do not show by themselves

Whoever quotes a text has to show what a reader would not see: characters
without a visible form, and marks that merge with the character before. Two
groups stand against their properties. The fillers of Hangul are letters, but
are drawn as nothing. The halfwidth sound marks of Katakana extend the
character before, but fill a cell of their own.
-/

set_option autoImplicit false

namespace NamedContent.Text

/-- The letters that may be ignored in display. -/
def hangulFillers : List Nat := [0x115f, 0x1160, 0x3164, 0xffa0]

/-- The letters among the characters that extend the one before. -/
def halfwidthSoundMarks : List Nat := [0xff9e, 0xff9f]

def isMerging (c : Char) : Bool := isGraphemeExtend c && !halfwidthSoundMarks.contains c.toNat

def isBlankForm (c : Char) : Bool := isUnprintable c || hangulFillers.contains c.toNat

def isHidden (c : Char) : Bool := isMerging c || isBlankForm c

end NamedContent.Text
