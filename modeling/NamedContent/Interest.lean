import NamedContent.Segment

/-!
# Interests

An interest asks for any block whose name continues a given name and, if a
starting point is set, comes strictly after that in the order of names.
-/

set_option autoImplicit false

namespace NamedContent

structure Interest where
  name : Name
  startAfter : Option Name
  deriving DecidableEq, Repr, Inhabited

namespace Interest

def ofName (name : Name) : Interest := ⟨name, none⟩

/-- Asks for what follows `previous` under the same segment root. -/
def nextAfter (previous : Name) : Interest := ⟨previous.segmentRoot, some previous⟩

def accepts (i : Interest) (candidate : Name) : Bool :=
  i.name.isPrefixOf candidate &&
    match i.startAfter with
    | none => true
    | some start => compare candidate start == .gt

end Interest

end NamedContent
