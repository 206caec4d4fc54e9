import Mathlib
import NamedContent.Proofs.Matcher

/-!
# The registrations in the tree of patterns

The tree is read as the list of its registrations, each with the pattern that
leads to it. While branches ascend, that is the list of all pairs that the
tree holds. A tidy tree holds none of them twice and has no bare branch, so it
is empty as soon as nobody is registered.
-/

set_option autoImplicit false

namespace NamedContent

namespace Branches

variable {α : Type}

def registrations : Branches α → List (List Component × α)
  | nil => []
  | node label here below next =>
    here.map (fun l => ([label], l)) ++ below.registrations.map (fun r => (label :: r.1, r.2)) ++
      next.registrations

/-- No listener stands twice at the end of a branch, and every branch leads to somebody. -/
def Tidy : Branches α → Prop
  | nil => True
  | node _ here below next => here.Nodup ∧ (here = [] → below ≠ nil) ∧ below.Tidy ∧ next.Tidy

theorem length_registrations (t : Branches α) : t.registrations.length = t.listeners.length := by
  induction t with
  | nil => rfl
  | node label here below next ihb ihn => simp [registrations, listeners, ihb, ihn]

theorem eq_nil_of_registrations {t : Branches α} (tidy : t.Tidy) (none : t.registrations = []) :
    t = nil := by
  induction t with
  | nil => rfl
  | node label here below next ihb _ =>
    simp only [registrations, List.append_eq_nil_iff, List.map_eq_nil_iff] at none
    obtain ⟨⟨nobody, bare⟩, -⟩ := none
    exact absurd (ihb tidy.2.2.1 bare) (tidy.2.1 nobody)

theorem sprout_ne_nil (l : α) (c : Component) (path : List Component) (next : Branches α) :
    sprout l c path next ≠ nil := by
  cases path <;> exact nofun

theorem sprout_tidy (l : α) (c : Component) (path : List Component) {next : Branches α}
    (tidy : next.Tidy) : (sprout l c path next).Tidy := by
  induction path generalizing c next with
  | nil =>
    exact ⟨List.nodup_singleton l, fun none => absurd none (List.cons_ne_nil l []), trivial, tidy⟩
  | cons d path ih =>
    exact ⟨List.nodup_nil, fun _ => sprout_ne_nil l d path nil, ih d trivial, tidy⟩

theorem keep_tidy (label : Component) {here : List α} {below next : Branches α}
    (once : here.Nodup) (hb : below.Tidy) (hn : next.Tidy) :
    (keep label here below next).Tidy := by
  unfold keep
  split
  · exact hn
  · rename_i used
    refine ⟨once, ?_, hb, hn⟩
    rintro rfl rfl
    exact used rfl

theorem mem_registrations {l : α} {t : Branches α} {way : List Component} (sorted : t.Sorted) :
    (way, l) ∈ t.registrations ↔ ∃ c path, way = c :: path ∧ l ∈ t.posted c path := by
  induction t generalizing way with
  | nil => simp [registrations, posted]
  | node label here below next ihb ihn =>
    obtain ⟨hb, hn, above⟩ := sorted
    simp only [registrations, List.mem_append, List.mem_map, Prod.exists, Prod.mk.injEq, ihn hn,
      or_assoc]
    constructor
    · rintro (⟨_, listed, rfl, rfl⟩ | ⟨_, _, listed, rfl, rfl⟩ | ⟨c, path, rfl, held⟩)
      · exact ⟨label, [], rfl, by simpa [posted] using listed⟩
      · obtain ⟨d, rest, rfl, held⟩ := (ihb hb).mp listed
        exact ⟨label, d :: rest, rfl, by simpa [posted] using held⟩
      · refine ⟨c, path, rfl, ?_⟩
        have apart : c ≠ label := by
          rintro rfl
          rw [posted_of_startsAbove path hn above] at held
          contradiction
        simpa only [posted, if_neg apart] using held
    · rintro ⟨c, path, rfl, held⟩
      by_cases same : c = label
      · subst same
        cases path with
        | nil => exact .inl ⟨l, by simpa [posted] using held, rfl, rfl⟩
        | cons d rest =>
          have held : l ∈ below.posted d rest := by simpa [posted] using held
          exact .inr (.inl ⟨d :: rest, l, (ihb hb).mpr ⟨d, rest, rfl, held⟩, rfl, rfl⟩)
      · simp only [posted, if_neg same] at held
        exact .inr (.inr ⟨c, path, rfl, held⟩)

theorem registrations_nodup {t : Branches α} (sorted : t.Sorted) (tidy : t.Tidy) :
    t.registrations.Nodup := by
  induction t with
  | nil => exact List.nodup_nil
  | node label here below next ihb ihn =>
    obtain ⟨hb, hn, above⟩ := sorted
    obtain ⟨once, -, tb, tn⟩ := tidy
    have ending : (here.map fun l => ([label], l)).Nodup :=
      once.map fun _ _ eq => (Prod.mk.inj eq).2
    have inside : (below.registrations.map fun r => (label :: r.1, r.2)).Nodup := by
      refine (ihb hb tb).map fun r r' eq => ?_
      obtain ⟨ways, listeners⟩ := Prod.mk.inj eq
      exact Prod.ext (List.cons.inj ways).2 listeners
    -- the parts differ in the length of the way, or in its first label
    refine List.nodup_append'.mpr ⟨List.nodup_append'.mpr ⟨ending, inside, ?_⟩, ihn hn tn, ?_⟩
    · rintro ⟨way, l⟩ first second
      obtain ⟨_, -, eq⟩ := List.mem_map.mp first
      obtain ⟨⟨way', _⟩, listed, eq'⟩ := List.mem_map.mp second
      obtain ⟨c, path, rfl, -⟩ := (mem_registrations hb).mp listed
      simp [← eq'] at eq
    · rintro ⟨way, l⟩ first second
      obtain ⟨c, path, rfl, held⟩ := (mem_registrations hn).mp second
      have same : c = label := by
        rcases List.mem_append.mp first with first | first
        · obtain ⟨_, -, eq⟩ := List.mem_map.mp first
          exact (List.cons.inj (Prod.mk.inj eq).1).1.symm
        · obtain ⟨_, -, eq⟩ := List.mem_map.mp first
          exact (List.cons.inj (Prod.mk.inj eq).1).1.symm
      rw [posted_of_startsAbove path hn (same ▸ above)] at held
      contradiction

variable [DecidableEq α]

theorem register_ne_nil (l : α) (t : Branches α) (c : Component) (path : List Component) :
    t.register l c path ≠ nil := by
  cases t with
  | nil => exact sprout_ne_nil l c path nil
  | node label here below next =>
    unfold register
    split
    · exact sprout_ne_nil l c path _
    · exact nofun
    · cases path <;> exact nofun

theorem nodup_add {l : α} {here : List α} (once : here.Nodup) :
    (if l ∈ here then here else here ++ [l]).Nodup := by
  split
  · exact once
  · rename_i absent
    exact once.append (List.nodup_singleton l) (by simpa using absent)

theorem register_tidy (l : α) {t : Branches α} (c : Component) (path : List Component)
    (tidy : t.Tidy) : (t.register l c path).Tidy := by
  induction t generalizing c path with
  | nil => exact sprout_tidy l c path trivial
  | node label here below next ihb ihn =>
    obtain ⟨once, used, hb, hn⟩ := tidy
    unfold register
    split
    · exact sprout_tidy l c path ⟨once, used, hb, hn⟩
    · exact ⟨once, used, hb, ihn c path hn⟩
    · cases path with
      | nil =>
        refine ⟨nodup_add once, fun none => ?_, hb, hn⟩
        by_cases old : l ∈ here
        · rw [if_pos old] at none
          exact used none
        · simp [old] at none
      | cons d rest =>
        exact ⟨once, fun _ => register_ne_nil l below d rest, ihb d rest hb, hn⟩

theorem unregister_tidy (l : α) {t : Branches α} (c : Component) (path : List Component)
    (tidy : t.Tidy) : (t.unregister l c path).1.Tidy := by
  induction t generalizing c path with
  | nil => trivial
  | node label here below next ihb ihn =>
    obtain ⟨once, used, hb, hn⟩ := tidy
    unfold unregister
    split
    · cases path with
      | nil => exact keep_tidy label (once.filter _) hb hn
      | cons d rest => exact keep_tidy label once (ihb d rest hb) hn
    · exact ⟨once, used, hb, ihn c path hn⟩

end Branches

namespace Matcher

variable {α : Type}

def registrations (m : Matcher α) : List (Name × α) :=
  m.here.map (fun l => (⟨[]⟩, l)) ++ m.below.registrations.map fun r => (⟨r.1⟩, r.2)

def Tidy (m : Matcher α) : Prop := m.here.Nodup ∧ m.below.Tidy

theorem empty_tidy : (empty : Matcher α).Tidy := ⟨List.nodup_nil, trivial⟩

theorem length_registrations (m : Matcher α) : m.registrations.length = m.size := by
  simp [registrations, size, listeners, Branches.length_registrations]

theorem eq_empty_of_registrations {m : Matcher α} (tidy : m.Tidy) (none : m.registrations = []) :
    m = empty := by
  obtain ⟨here, below⟩ := m
  simp only [registrations, List.append_eq_nil_iff, List.map_eq_nil_iff] at none
  obtain ⟨rfl, bare⟩ := none
  obtain rfl := Branches.eq_nil_of_registrations tidy.2 bare
  rfl

theorem mem_registrations {m : Matcher α} {pattern : Name} {l : α} (sorted : m.Sorted) :
    (pattern, l) ∈ m.registrations ↔ l ∈ m.posted pattern := by
  obtain ⟨way⟩ := pattern
  simp only [registrations, List.mem_append, List.mem_map, Prod.exists, Prod.mk.injEq,
    Name.mk.injEq, Branches.mem_registrations (t := m.below) sorted]
  cases way with
  | nil => simp [posted]
  | cons c path => simp [posted]

theorem registrations_nodup {m : Matcher α} (sorted : m.Sorted) (tidy : m.Tidy) :
    m.registrations.Nodup := by
  have ways : (m.below.registrations.map fun r => ((⟨r.1⟩ : Name), r.2)).Nodup := by
    refine (Branches.registrations_nodup sorted tidy.2).map fun r r' eq => ?_
    obtain ⟨names, listeners⟩ := Prod.mk.inj eq
    exact Prod.ext (Name.mk.inj names) listeners
  refine List.nodup_append'.mpr ⟨tidy.1.map fun _ _ eq => (Prod.mk.inj eq).2, ways, ?_⟩
  rintro ⟨pattern, l⟩ root inside
  obtain ⟨_, -, eq⟩ := List.mem_map.mp root
  obtain ⟨⟨way, _⟩, listed, eq'⟩ := List.mem_map.mp inside
  obtain ⟨c, path, rfl, -⟩ := (Branches.mem_registrations sorted).mp listed
  simp [← eq'] at eq

variable [DecidableEq α]

theorem register_tidy {m : Matcher α} (pattern : Name) (l : α) (tidy : m.Tidy) :
    (m.register pattern l).Tidy := by
  unfold register
  split
  · exact ⟨Branches.nodup_add tidy.1, tidy.2⟩
  · exact ⟨tidy.1, Branches.register_tidy l _ _ tidy.2⟩

theorem unregister_tidy {m : Matcher α} (pattern : Name) (l : α) (tidy : m.Tidy) :
    (m.unregister pattern l).1.Tidy := by
  unfold unregister
  split
  · exact ⟨tidy.1.filter _, tidy.2⟩
  · exact ⟨tidy.1, Branches.unregister_tidy l _ _ tidy.2⟩

end Matcher

end NamedContent
