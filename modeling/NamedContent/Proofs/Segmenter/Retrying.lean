import Mathlib
import NamedContent.Proofs.Segmenter.Planning

/-!
# Puts that come to nothing

A put that fails or is given up leaves its segmenter either as it was, if it was
refused at once, or in the stream that it has entered. Entering a stream twice is
entering it once. So a put that is tried again names, numbers and fills its blocks as
the first attempt did, whatever key signs them and when.
-/

set_option autoImplicit false

namespace NamedContent

namespace Segmenter

variable {s s' : Segmenter} {keys keys' : KeyRing} {timestamp timestamp' : Int64} {name : Name}
  {content : Bytes} {options : Options}

/-- A put is refused at once if its range is bad or there is no key for it. -/
def Refused (keys : KeyRing) (content : Bytes) (options : Options) : Prop :=
  content.length < options.offset + options.length.getD (content.length - options.offset) ∨
    ∀ key, keys.signingKey (options.publisher.getD keys.default) ≠ .ok key

/-- The segmenter as a put leaves it that comes to nothing. -/
def leftBy (s : Segmenter) (keys : KeyRing) (timestamp : Int64) (name : Name) (content : Bytes)
    (options : Options) : Segmenter :=
  match s.plan keys timestamp name content options with
  | .ok plan => plan.segmenter
  | .error _ => s

def plannedNext? (s : Segmenter) (keys : KeyRing) (timestamp : Int64) (name : Name)
    (content : Bytes) (options : Options) : Option UInt64 :=
  match s.plan keys timestamp name content options with
  | .ok ⟨_, _, .ok writing⟩ => some writing.next
  | _ => none

/-- The segmenter as a put leaves it whose blocks all arrive, if it comes to blocks. -/
def completed? (s : Segmenter) (keys : KeyRing) (timestamp : Int64) (name : Name)
    (content : Bytes) (options : Options) : Option Segmenter :=
  match s.plan keys timestamp name content options with
  | .ok ⟨entered, _, .ok writing⟩ => some (entered.complete writing).1
  | _ => none

theorem plannedNext?_eq : s.plannedNext? keys timestamp name content options =
    (s.completed? keys timestamp name content options).map Segmenter.next := by
  rw [plannedNext?, completed?]
  split
  · rename_i entered _ writing planned
    rw [Option.map_some, complete_next]
  · rfl

theorem refused_iff (s : Segmenter) (keys : KeyRing) (timestamp : Int64) (name : Name)
    (content : Bytes) (options : Options) : Refused keys content options ↔
      ∃ error, s.plan keys timestamp name content options = .error error := by
  constructor
  · rintro (outside | missing)
    · exact ⟨_, plan_bad_range outside s keys timestamp name⟩
    · cases planned : s.plan keys timestamp name content options with
      | error error => exact ⟨error, rfl⟩
      | ok plan =>
        obtain ⟨_, key, -, available, -⟩ := plan_eq_ok planned
        exact absurd available (missing key)
  · rintro ⟨error, unplanned⟩
    by_contra good
    rw [Refused, not_or, not_forall] at good
    obtain ⟨inside, key, available⟩ := good
    have sliced : slice content options = .ok ((content.drop options.offset).take
        (options.length.getD (content.length - options.offset))) := by
      rw [slice, if_pos (Nat.le_of_not_lt inside)]
    rw [plan_eq sliced (not_not.mp available)] at unplanned
    contradiction

theorem leftBy_of_refused (refused : Refused keys content options) :
    s.leftBy keys timestamp name content options = s := by
  obtain ⟨error, unplanned⟩ := (refused_iff s keys timestamp name content options).mp refused
  rw [leftBy, unplanned]

theorem leftBy_of_planned (good : ¬Refused keys content options) :
    s.leftBy keys timestamp name content options = (s.enter name.segmentRoot).1 := by
  rw [leftBy]
  cases planned : s.plan keys timestamp name content options with
  | error error => exact absurd ((refused_iff ..).mpr ⟨error, planned⟩) good
  | ok plan =>
    obtain ⟨_, _, -, -, entered, -⟩ := plan_eq_ok planned
    exact entered

theorem enter_again (s : Segmenter) (root : Name) :
    (s.enter root).1.enter root = ((s.enter root).1, []) := by
  simp [enter]

theorem enter_leftBy : ((s.leftBy keys timestamp name content options).enter name.segmentRoot).1 =
    (s.enter name.segmentRoot).1 := by
  by_cases refused : Refused keys content options
  · rw [leftBy_of_refused refused]
  · rw [leftBy_of_planned refused, enter_again]

theorem enter_next_le (s : Segmenter) (root : Name) : (s.enter root).1.next ≤ s.next := by
  show (if s.streamRoot.any fun current => current ≠ root then s.config.numbering.base
    else s.next) ≤ s.next
  split
  · exact UInt64.zero_le
  · exact UInt64.le_refl _

theorem leftBy_next_le : (s.leftBy keys timestamp name content options).next ≤ s.next := by
  by_cases refused : Refused keys content options
  · rw [leftBy_of_refused refused]
    exact UInt64.le_refl _
  · rw [leftBy_of_planned refused]
    exact enter_next_le s _

theorem plannedBlocks_drafts (some : s.plannedBlocks keys timestamp name content options ≠ []) :
    ∃ data, slice content options = .ok data ∧
      (s.plannedBlocks keys timestamp name content options).map Block.draft =
        ((s.enter name.segmentRoot).1.drafts name.segmentRoot data).1 := by
  rw [plannedBlocks] at some ⊢
  split at some
  · rename_i writing planned
    obtain ⟨data, key, sliced, -, entered, -, prepares⟩ := plan_eq_ok planned
    subst entered
    exact ⟨data, sliced, (prepare_eq_ok prepares.symm).drafts⟩
  · contradiction

/-- Attempts of a put that enter the same stream come to the same blocks, but for the
signatures and what is signed with them. -/
theorem same_drafts (same : (s'.enter name.segmentRoot).1 = (s.enter name.segmentRoot).1)
    (some : s.plannedBlocks keys timestamp name content options ≠ [])
    (some' : s'.plannedBlocks keys' timestamp' name content options ≠ []) :
    (s'.plannedBlocks keys' timestamp' name content options).map Block.draft =
      (s.plannedBlocks keys timestamp name content options).map Block.draft := by
  obtain ⟨data, sliced, drafts⟩ := plannedBlocks_drafts some
  obtain ⟨data', sliced', drafts'⟩ := plannedBlocks_drafts some'
  obtain rfl := Except.ok.inj (sliced'.symm.trans sliced)
  rw [drafts, drafts', same]

end Segmenter

end NamedContent
