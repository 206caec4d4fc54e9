/-!
# Tables in key order

A finite map that lists its entries in ascending key order, each key once.
The order is part of the type, so whoever lists a table gets that order.
-/

set_option autoImplicit false

namespace NamedContent

structure Table (κ ν : Type) [Ord κ] where
  toList : List (κ × ν)
  ascending : toList.Pairwise fun x y => compare x.1 y.1 = .lt

namespace Table

variable {κ ν : Type} [Ord κ]

def empty : Table κ ν := ⟨[], .nil⟩

instance : Inhabited (Table κ ν) := ⟨empty⟩

def size (t : Table κ ν) : Nat := t.toList.length

def keys (t : Table κ ν) : List κ := t.toList.map (·.1)

def values (t : Table κ ν) : List ν := t.toList.map (·.2)

def startingAt (t : Table κ ν) (k : κ) : List (κ × ν) :=
  t.toList.dropWhile fun e => compare e.1 k == .lt

def filter (t : Table κ ν) (p : κ → ν → Bool) : Table κ ν :=
  ⟨t.toList.filter fun e => p e.1 e.2, t.ascending.filter _⟩

def place (k : κ) (v : ν) : List (κ × ν) → List (κ × ν)
  | [] => [(k, v)]
  | e :: rest =>
    match compare k e.1 with
    | .lt => (k, v) :: e :: rest
    | .eq => (k, v) :: rest
    | .gt => e :: place k v rest

theorem mem_place {k : κ} {v : ν} {l : List (κ × ν)} {x : κ × ν} (h : x ∈ place k v l) :
    x = (k, v) ∨ x ∈ l := by
  induction l with
  | nil => simpa [place] using h
  | cons e rest ih =>
    unfold place at h
    split at h
    · simpa using h
    · rcases List.mem_cons.1 h with rfl | h
      · exact .inl rfl
      · exact .inr (List.mem_cons_of_mem _ h)
    · rcases List.mem_cons.1 h with rfl | h
      · exact .inr List.mem_cons_self
      · exact (ih h).imp_right (List.mem_cons_of_mem _)

theorem place_ascending [Std.TransOrd κ] (k : κ) (v : ν) {l : List (κ × ν)}
    (h : l.Pairwise fun x y => compare x.1 y.1 = .lt) :
    (place k v l).Pairwise fun x y => compare x.1 y.1 = .lt := by
  induction l with
  | nil => simp [place]
  | cons e rest ih =>
    obtain ⟨below, h⟩ := List.pairwise_cons.1 h
    unfold place
    split
    · rename_i c
      refine List.pairwise_cons.2 ⟨fun x hx => ?_, List.pairwise_cons.2 ⟨below, h⟩⟩
      rcases List.mem_cons.1 hx with rfl | hx
      · exact c
      · exact Std.TransCmp.lt_trans c (below x hx)
    · rename_i c
      refine List.pairwise_cons.2 ⟨fun x hx => ?_, h⟩
      exact Std.TransCmp.lt_of_eq_of_lt c (below x hx)
    · rename_i c
      refine List.pairwise_cons.2 ⟨fun x hx => ?_, ih h⟩
      rcases mem_place hx with rfl | hx
      · exact Std.OrientedCmp.lt_of_gt c
      · exact below x hx

variable [Std.TransOrd κ]

def insert (t : Table κ ν) (k : κ) (v : ν) : Table κ ν :=
  ⟨place k v t.toList, place_ascending k v t.ascending⟩

variable [DecidableEq κ]

def find? (t : Table κ ν) (k : κ) : Option ν :=
  (t.toList.find? fun e => e.1 = k).map (·.2)

def contains (t : Table κ ν) (k : κ) : Bool := (t.find? k).isSome

def erase (t : Table κ ν) (k : κ) : Table κ ν := t.filter fun k' _ => k' ≠ k

end Table

end NamedContent
