import NamedContent.Name

/-!
# Matching names against patterns

Listeners are registered under name patterns and found by the names that the
patterns cover. The patterns are kept in a tree that branches by component,
so that a name is matched on one way down. Branches are in component order,
and a branch that holds no listener any more is cut.
-/

set_option autoImplicit false

namespace NamedContent

/-- Sibling branches in component order: each has a label, the listeners at its
end, and the branches below it. -/
inductive Branches (α : Type) where
  | nil
  | node (label : Component) (here : List α) (below next : Branches α)
  deriving Repr

namespace Branches

variable {α : Type}

def isNil : Branches α → Bool
  | nil => true
  | node .. => false

def listeners : Branches α → List α
  | nil => []
  | node _ here below next => here ++ below.listeners ++ next.listeners

def sprout (listener : α) : Component → List Component → Branches α → Branches α
  | c, [], next => node c [listener] nil next
  | c, d :: path, next => node c [] (sprout listener d path nil) next

/-- Puts a branch before its later sibling, unless nothing is left on it. -/
def keep (label : Component) (here : List α) (below next : Branches α) : Branches α :=
  if here.isEmpty && below.isNil then next else node label here below next

def along : Branches α → List Component → List α
  | nil, _ => []
  | node _ _ _ _, [] => []
  | node label here below next, c :: path =>
    if c = label then here ++ below.along path else next.along (c :: path)

def under : Branches α → List Component → List α
  | nil, _ => []
  | t@(node _ _ _ _), [] => t.listeners
  | node label here below next, c :: path =>
    if c = label then (if path.isEmpty then here else []) ++ below.under path
    else next.under (c :: path)

variable [DecidableEq α]

def register (listener : α) : Branches α → Component → List Component → Branches α
  | nil, c, path => sprout listener c path nil
  | node label here below next, c, path =>
    match compare c label with
    | .lt => sprout listener c path (node label here below next)
    | .gt => node label here below (register listener next c path)
    | .eq =>
      match path with
      | [] => node label (if listener ∈ here then here else here ++ [listener]) below next
      | d :: rest => node label here (register listener below d rest) next

def unregister (listener : α) : Branches α → Component → List Component → Branches α × Bool
  | nil, _, _ => (nil, false)
  | node label here below next, c, path =>
    if c = label then
      match path with
      | [] =>
        let left := here.filter (· ≠ listener)
        (keep label left below next, left.length != here.length)
      | d :: rest =>
        let (left, removed) := unregister listener below d rest
        (keep label here left next, removed)
    else
      let (left, removed) := unregister listener next c path
      (node label here below left, removed)

end Branches

structure Matcher (α : Type) where
  here : List α
  below : Branches α
  deriving Repr

namespace Matcher

variable {α : Type}

def empty : Matcher α := ⟨[], .nil⟩

def listeners (m : Matcher α) : List α := m.here ++ m.below.listeners

def size (m : Matcher α) : Nat := m.listeners.length

def isEmpty (m : Matcher α) : Bool := m.here.isEmpty && m.below.isNil

/-- The listeners whose pattern covers the name: shorter patterns first, and
within a pattern in order of registration. -/
def matching (m : Matcher α) (name : Name) : List α := m.here ++ m.below.along name.components

/-- The listeners of all patterns that the given one covers. -/
def under (m : Matcher α) (pattern : Name) : List α :=
  match pattern.components with
  | [] => m.listeners
  | path => m.below.under path

variable [DecidableEq α]

def register (m : Matcher α) (pattern : Name) (listener : α) : Matcher α :=
  match pattern.components with
  | [] => ⟨if listener ∈ m.here then m.here else m.here ++ [listener], m.below⟩
  | c :: path => ⟨m.here, m.below.register listener c path⟩

/-- Removes the registration, and tells whether there was one. -/
def unregister (m : Matcher α) (pattern : Name) (listener : α) : Matcher α × Bool :=
  match pattern.components with
  | [] =>
    let left := m.here.filter (· ≠ listener)
    (⟨left, m.below⟩, left.length != m.here.length)
  | c :: path =>
    let (left, removed) := m.below.unregister listener c path
    (⟨m.here, left⟩, removed)

end Matcher

end NamedContent
