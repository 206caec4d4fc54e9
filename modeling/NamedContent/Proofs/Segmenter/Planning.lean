import Mathlib
import NamedContent.Proofs.Batch
import NamedContent.Proofs.Name.Segment
import NamedContent.Proofs.Segmenter.Cutting

/-!
# What a planned put comes to

The blocks of a plan are the numbered pieces of the part of the content that is
to be published, signed one by one. All this is decided before the first block
goes to the buffer.
-/

set_option autoImplicit false

namespace NamedContent

namespace Segmenter

variable {s : Segmenter} {root : Name} {data : Bytes} {info : SignedInfo} {isFinal : Bool}
  {signer : RootSigner}

/-- What the blocks of a put carry: the data as a whole if it is shorter than a
block, else its pieces. -/
def payloads (s : Segmenter) (data : Bytes) : List Bytes :=
  if data.length < s.config.blockSize then [data] else cut s.config.blockSize data

def drafts (s : Segmenter) (root : Name) (data : Bytes) : List Draft × UInt64 :=
  number s.config.numbering root s.next (s.payloads data)

structure Prepared (s : Segmenter) (root : Name) (data : Bytes) (info : SignedInfo)
    (isFinal : Bool) (w : Writing) : Prop where
  drafts : w.blocks.map Block.draft = (s.drafts root data).1
  infos : ∀ b ∈ w.blocks, b.info = { info with finalSegment :=
    if isFinal then (s.drafts root data).1.getLast?.map Draft.sequence else none }
  next : w.next = if data.length < s.config.blockSize then s.next else (s.drafts root data).2
  first : w.first = none
  isFinal : w.isFinal = isFinal
  nonempty : s.payloads data ≠ []

theorem prepare_eq_ok {w : Writing} (prepared : s.prepare root data info isFinal signer = .ok w) :
    s.Prepared root data info isFinal w := by
  rw [prepare] at prepared
  split at prepared
  · rename_i short
    obtain ⟨block, signed, done⟩ := bind_eq_ok.mp prepared
    obtain rfl := Except.ok.inj done
    obtain ⟨draft, info⟩ := Batch.signOne_draft signed
    have alone : (s.drafts root data).1 = [⟨root.segmentName s.next, s.next, data⟩] := by
      rw [Segmenter.drafts, payloads, if_pos short]
      rfl
    constructor
    case drafts => rw [alone, List.map_singleton, draft]
    case infos =>
      intro b mem
      obtain rfl := List.mem_singleton.mp mem
      rw [info, alone]
      rfl
    case next => rw [if_pos short]
    case first => rfl
    case isFinal => rfl
    case nonempty => simp [payloads, short]
  · rename_i full
    obtain ⟨batch, signed, done⟩ := bind_eq_ok.mp prepared
    obtain rfl := Except.ok.inj done
    obtain ⟨drafts, infos⟩ := Batch.sign_drafts signed
    have same : s.drafts root data =
        number s.config.numbering root s.next (cut s.config.blockSize data) := by
      rw [Segmenter.drafts, payloads, if_neg full]
    constructor
    case drafts => rw [same, drafts]
    case infos =>
      intro b mem
      rw [infos b mem, same]
    case next => rw [if_neg full, same]
    case first => rfl
    case isFinal => rfl
    case nonempty =>
      rw [payloads, if_neg full, ← number_payloads s.config.numbering root s.next (cut _ data)]
      exact List.map_eq_nil_iff.not.mpr (Batch.drafts_ne_nil signed)

theorem prepare_ofKey_error {key : Ed25519.SigningKey} {error : PublishError}
    (positive : 0 < s.config.blockSize)
    (failed : s.prepare root data info isFinal (.ofKey key) = .error error) :
    ∃ fault, error = .signingFailure fault := by
  rw [prepare] at failed
  split at failed
  · obtain unsigned | ⟨_, -, done⟩ := bind_eq_error.mp failed
    · exact Batch.signOne_ofKey_error unsigned
    · contradiction
  · obtain unsigned | ⟨_, -, done⟩ := bind_eq_error.mp failed
    · refine Batch.sign_ofKey_error ?_ unsigned
      intro none
      have pieces := number_payloads s.config.numbering root s.next (cut s.config.blockSize data)
      rw [none] at pieces
      exact cut_ne_nil positive (by omega) pieces.symm
    · contradiction

section Payloads

theorem positive_of_payloads (full : ¬data.length < s.config.blockSize) (some : s.payloads data ≠ []) :
    0 < s.config.blockSize := by
  rw [payloads, if_neg full, cut] at some
  rw [Nat.pos_iff_ne_zero]
  intro zero
  simp [zero, pieces] at some

theorem payloads_flatten (some : s.payloads data ≠ []) : (s.payloads data).flatten = data := by
  by_cases full : data.length < s.config.blockSize
  · simp [payloads, full]
  · have positive := positive_of_payloads full some
    rw [payloads, if_neg full, cut_flatten positive (by omega)]

theorem length_of_mem_payloads_dropLast (some : s.payloads data ≠ []) {payload : Bytes}
    (mem : payload ∈ (s.payloads data).dropLast) : payload.length = s.config.blockSize := by
  by_cases full : data.length < s.config.blockSize
  · simp [payloads, full] at mem
  · have positive := positive_of_payloads full some
    rw [payloads, if_neg full] at mem
    exact length_of_mem_cut_dropLast positive (by omega) mem

end Payloads

def Fits (s : Segmenter) (data : Bytes) : Prop :=
  s.next.toNat + s.config.numbering.span (s.payloads data).dropLast ≤ UInt64.size - 1

instance (s : Segmenter) (data : Bytes) : Decidable (s.Fits data) :=
  inferInstanceAs (Decidable (_ ≤ _))

section Prepared

variable {w : Writing} (prepared : s.Prepared root data info isFinal w)
include prepared

theorem Prepared.name {b : Block} (mem : b ∈ w.blocks) : b.name = root.segmentName b.sequence :=
  number_name (prepared.drafts ▸ List.mem_map_of_mem (f := Block.draft) mem)

theorem Prepared.map_payload : w.blocks.map Block.payload = s.payloads data := by
  rw [← number_payloads s.config.numbering root s.next (s.payloads data)]
  show _ = (s.drafts root data).1.map Draft.payload
  rw [← prepared.drafts, List.map_map]
  rfl

theorem Prepared.blocks_ne_nil : w.blocks ≠ [] := by
  intro none
  have payloads := prepared.map_payload
  rw [none] at payloads
  exact prepared.nonempty payloads.symm

theorem Prepared.rises (fits : s.Fits data) :
    w.blocks.Pairwise fun b c => b.sequence < c.sequence := by
  have rises : (s.drafts root data).1.Pairwise fun d e => d.sequence < e.sequence := number_rises fits
  rw [← prepared.drafts] at rises
  exact (List.pairwise_map (f := Block.draft)).mp rises

theorem Prepared.names_nodup (fits : s.Fits data) : (w.blocks.map Block.name).Nodup := by
  have rises := prepared.rises fits
  rw [List.Nodup, List.pairwise_map]
  refine rises.imp_of_mem ?_
  intro b c hb hc less same
  rw [prepared.name hb, prepared.name hc] at same
  exact UInt64.ne_of_lt less (Name.segmentName_inj same)

theorem Prepared.sequence_lt_next_iff (full : ¬data.length < s.config.blockSize) :
    (∀ b ∈ w.blocks, b.sequence < w.next) ↔
      s.next.toNat + s.config.numbering.span (s.payloads data).dropLast < UInt64.size - 1 := by
  have drafts : (∀ d ∈ (s.drafts root data).1, d.sequence < (s.drafts root data).2) ↔ _ :=
    number_lt_after_iff prepared.nonempty
  rw [prepared.next, if_neg full, ← drafts, ← prepared.drafts]
  simp [Block.draft]

theorem Prepared.flatten : (w.blocks.map Block.payload).flatten = data := by
  rw [prepared.map_payload, payloads_flatten prepared.nonempty]

theorem Prepared.length {b : Block} (mem : b ∈ w.blocks.dropLast) :
    b.payload.length = s.config.blockSize := by
  apply length_of_mem_payloads_dropLast prepared.nonempty
  rw [← prepared.map_payload, ← List.map_dropLast]
  exact List.mem_map_of_mem mem

theorem Prepared.isFinal_iff (fits : s.Fits data) {i : Nat} (inside : i < w.blocks.length) :
    w.blocks[i].isFinal = true ↔ isFinal = true ∧ i + 1 = w.blocks.length := by
  have last : (s.drafts root data).1.getLast?.map Draft.sequence =
      some (w.blocks.getLast prepared.blocks_ne_nil).sequence := by
    rw [← prepared.drafts, List.getLast?_map, List.getLast?_eq_some_getLast prepared.blocks_ne_nil]
    rfl
  rw [Block.isFinal, prepared.infos _ (List.getElem_mem inside), last]
  cases isFinal with
  | false => simp
  | true =>
    simp only [if_true, decide_eq_true_eq, Option.some.injEq, true_and]
    rw [List.getLast_eq_getElem]
    constructor
    -- the number of the last block is that of no earlier one, since they rise
    · intro same
      by_contra early
      have less := List.pairwise_iff_getElem.mp (prepared.rises fits) i (w.blocks.length - 1) inside
        (by omega) (by omega)
      exact UInt64.ne_of_lt less same.symm
    · intro here
      congr 2
      omega

end Prepared

/-- The blocks carry the data in rising order, in full blocks but for the last one.
In a final put that one ends the object, and else none does. -/
structure Carry (blocks : List Block) (data : Bytes) (blockSize : Nat) (isFinal : Bool) : Prop where
  rises : blocks.Pairwise fun b c => b.sequence < c.sequence
  flatten : (blocks.map Block.payload).flatten = data
  full : ∀ b ∈ blocks.dropLast, b.payload.length = blockSize
  ends : ∀ (i : Nat) (inside : i < blocks.length),
    blocks[i].isFinal = true ↔ isFinal = true ∧ i + 1 = blocks.length

theorem Prepared.carry {w : Writing} (prepared : s.Prepared root data info isFinal w)
    (fits : s.Fits data) : Carry w.blocks data s.config.blockSize isFinal where
  rises := prepared.rises fits
  flatten := prepared.flatten
  full := fun _ => prepared.length
  ends := fun _ => prepared.isFinal_iff fits

theorem complete_next (s : Segmenter) (w : Writing) : (s.complete w).1.next = w.next := by
  rw [complete]
  split
  · rfl
  · rfl

theorem complete_stays (s : Segmenter) (w : Writing) :
    (s.complete w).1.config = s.config ∧ (s.complete w).1.streamRoot = s.streamRoot := by
  rw [complete]
  split
  · exact ⟨rfl, rfl⟩
  · exact ⟨rfl, rfl⟩

variable {keys : KeyRing} {timestamp : Int64} {name : Name} {content : Bytes} {options : Options}

def sharedInfo (publisher : PublisherId) (key : Ed25519.SigningKey) (timestamp : Int64)
    (options : Options) : SignedInfo :=
  { publisher, timestamp, contentType := options.contentType
    keyLocator := options.keyLocator.getD (KeyRing.locator key)
    freshness := options.freshness, finalSegment := none }

theorem plan_eq (sliced : slice content options = .ok data) {key : Ed25519.SigningKey}
    (available : keys.signingKey (options.publisher.getD keys.default) = .ok key) :
    s.plan keys timestamp name content options = .ok
      ⟨(s.enter name.segmentRoot).1, (s.enter name.segmentRoot).2,
        (s.enter name.segmentRoot).1.prepare name.segmentRoot data
          (sharedInfo (options.publisher.getD keys.default) key timestamp options)
          options.isFinal (.ofKey key)⟩ := by
  rw [plan, sliced]
  show (keys.signingKey (options.publisher.getD keys.default) >>= _) = _
  rw [available]
  rfl

theorem plan_eq_ok {plan : Plan} (planned : s.plan keys timestamp name content options = .ok plan) :
    ∃ data key, slice content options = .ok data ∧
      keys.signingKey (options.publisher.getD keys.default) = .ok key ∧
      plan.segmenter = (s.enter name.segmentRoot).1 ∧
      plan.holdings = (s.enter name.segmentRoot).2 ∧
      plan.writing = plan.segmenter.prepare name.segmentRoot data
        (sharedInfo (options.publisher.getD keys.default) key timestamp options)
        options.isFinal (.ofKey key) := by
  obtain ⟨data, sliced, rest⟩ := bind_eq_ok.mp planned
  obtain ⟨key, available, -⟩ := bind_eq_ok.mp rest
  rw [plan_eq sliced available] at planned
  obtain rfl := Except.ok.inj planned
  exact ⟨data, key, sliced, available, rfl, rfl, rfl⟩

theorem slice_eq_ok (sliced : slice content options = .ok data) :
    options.offset + options.length.getD (content.length - options.offset) ≤ content.length ∧
      data = (content.drop options.offset).take
        (options.length.getD (content.length - options.offset)) := by
  rw [slice] at sliced
  split at sliced
  · rename_i inside
    exact ⟨inside, (Except.ok.inj sliced).symm⟩
  · contradiction

theorem plan_bad_range
    (outside : content.length <
      options.offset + options.length.getD (content.length - options.offset))
    (s : Segmenter) (keys : KeyRing) (timestamp : Int64) (name : Name) :
    s.plan keys timestamp name content options = .error (.invalidArgument (.badRange options.offset
      (options.length.getD (content.length - options.offset)) content.length)) := by
  rw [plan, slice, if_neg (Nat.not_le.mpr outside)]
  rfl

/-- The blocks that a put puts, if it comes to that. -/
def plannedBlocks (s : Segmenter) (keys : KeyRing) (timestamp : Int64) (name : Name)
    (content : Bytes) (options : Options) : List Block :=
  match s.plan keys timestamp name content options with
  | .ok ⟨_, _, .ok writing⟩ => writing.blocks
  | _ => []

/-- Where there are blocks to put, the range is good, the blocks are segments under the
root of the name, and they carry the part of the content in that range. -/
theorem of_mem_plannedBlocks {b : Block}
    (mem : b ∈ s.plannedBlocks keys timestamp name content options) :
    let length := options.length.getD (content.length - options.offset)
    let data := (content.drop options.offset).take length
    let blocks := s.plannedBlocks keys timestamp name content options
    options.offset + length ≤ content.length ∧
      (∀ b ∈ blocks, b.name = name.segmentRoot.segmentName b.sequence) ∧
      ((s.enter name.segmentRoot).1.Fits data →
        Carry blocks data s.config.blockSize options.isFinal) := by
  rw [plannedBlocks] at mem ⊢
  split at mem
  · rename_i writing planned
    obtain ⟨data, key, sliced, -, entered, -, prepares⟩ := plan_eq_ok planned
    obtain ⟨inside, rfl⟩ := slice_eq_ok sliced
    have prepared := prepare_eq_ok prepares.symm
    subst entered
    exact ⟨inside, fun b mem => prepared.name mem, prepared.carry⟩
  · contradiction

def exampleKey : Ed25519.SigningKey := ⟨List.replicate 32 5, by decide⟩

end Segmenter

end NamedContent
