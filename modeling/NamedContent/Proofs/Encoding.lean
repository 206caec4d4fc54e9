import NamedContent.Bytes.Lemmas
import NamedContent.HashTree

/-!
# Hashed encodings can be split in one way only

Each field of an encoding either has a fixed width or stands behind its
length. So whatever follows a field, its end can be found, and two equal
encodings have equal fields. Lengths have to fit into eight bytes; a signed
time is known up to the millisecond.
-/

set_option autoImplicit false

namespace NamedContent

theorem bigEndian_inj {width n m : Nat} (hn : n < 256 ^ width) (hm : m < 256 ^ width)
    (h : bigEndian width n = bigEndian width m) : n = m := by
  have read := congrArg ofBigEndian h
  rwa [ofBigEndian_bigEndian, ofBigEndian_bigEndian, Nat.mod_eq_of_lt hn,
    Nat.mod_eq_of_lt hm] at read

theorem bigEndian_split {width n m : Nat} {x y : Bytes} (hn : n < 256 ^ width)
    (hm : m < 256 ^ width) (h : bigEndian width n ++ x = bigEndian width m ++ y) :
    n = m ∧ x = y := by
  obtain ⟨digits, rest⟩ := List.append_inj h (by simp)
  exact ⟨bigEndian_inj hn hm digits, rest⟩

theorem counted_split {a b x y : Bytes} (ha : a.length < UInt64.size)
    (hb : b.length < UInt64.size) (h : counted a ++ x = counted b ++ y) : a = b ∧ x = y := by
  rw [counted, counted, List.append_assoc, List.append_assoc] at h
  obtain ⟨length, rest⟩ := bigEndian_split ha hb h
  exact List.append_inj rest length

theorem digest_split {c d : Digest} {x y : Bytes} (h : c.bytes ++ x = d.bytes ++ y) :
    c = d ∧ x = y := by
  obtain ⟨bytes, rest⟩ := List.append_inj h (by rw [c.length_eq, d.length_eq])
  cases c
  cases d
  exact ⟨by congr, rest⟩

theorem components_split {cs ds : List Component} {x y : Bytes} (length : cs.length = ds.length)
    (hc : ∀ c ∈ cs, c.length < UInt64.size) (hd : ∀ d ∈ ds, d.length < UInt64.size)
    (h : (cs.flatMap fun c => counted c.bytes) ++ x = (ds.flatMap fun d => counted d.bytes) ++ y) :
    cs = ds ∧ x = y := by
  induction cs generalizing ds with
  | nil =>
    obtain rfl : ds = [] := List.length_eq_zero_iff.mp length.symm
    exact ⟨rfl, h⟩
  | cons c cs ih =>
    obtain ⟨d, ds, rfl⟩ := List.exists_cons_of_length_eq_add_one length.symm
    simp only [List.flatMap_cons, List.append_assoc] at h
    obtain ⟨bytes, h⟩ := counted_split (hc c (by simp)) (hd d (by simp)) h
    obtain ⟨rfl, rest⟩ := ih (by simpa using length) (fun c hc' => hc c (by simp [hc']))
      (fun d hd' => hd d (by simp [hd'])) h
    obtain rfl : c = d := by cases c; cases d; congr
    exact ⟨rfl, rest⟩

def Name.Fits (n : Name) : Prop :=
  n.length < UInt64.size ∧ ∀ c ∈ n.components, c.length < UInt64.size

theorem Name.encoding_split {n m : Name} {x y : Bytes} (hn : n.Fits) (hm : m.Fits)
    (h : n.encoding ++ x = m.encoding ++ y) : n = m ∧ x = y := by
  rw [Name.encoding, Name.encoding, List.append_assoc, List.append_assoc] at h
  obtain ⟨length, h⟩ := bigEndian_split hn.1 hm.1 h
  obtain ⟨components, rest⟩ := components_split length hn.2 hm.2 h
  cases n
  cases m
  exact ⟨by congr, rest⟩

def KeyLocator.Fits : KeyLocator → Prop
  | .key bytes => bytes.length < UInt64.size
  | .keyName name => name.Fits
  | .keyDigest _ => True

theorem KeyLocator.encoding_split {k l : KeyLocator} {x y : Bytes} (hk : k.Fits) (hl : l.Fits)
    (h : k.encoding ++ x = l.encoding ++ y) : k = l ∧ x = y := by
  cases k with
  | key a =>
    cases l with
    | key b =>
      obtain ⟨rfl, rest⟩ := counted_split hk hl (List.cons_inj_right 0 |>.mp h)
      exact ⟨rfl, rest⟩
    | keyName => simp [KeyLocator.encoding] at h
    | keyDigest => simp [KeyLocator.encoding] at h
  | keyName n =>
    cases l with
    | key => simp [KeyLocator.encoding] at h
    | keyName m =>
      obtain ⟨rfl, rest⟩ := Name.encoding_split hk hl (List.cons_inj_right 1 |>.mp h)
      exact ⟨rfl, rest⟩
    | keyDigest => simp [KeyLocator.encoding] at h
  | keyDigest p =>
    cases l with
    | key => simp [KeyLocator.encoding] at h
    | keyName => simp [KeyLocator.encoding] at h
    | keyDigest q =>
      obtain ⟨digest, rest⟩ := digest_split (List.cons_inj_right 2 |>.mp h)
      exact ⟨by cases p; cases q; congr, rest⟩

theorem optionalField_split {width : Nat} {a b : Option Nat} {x y : Bytes}
    (ha : ∀ n ∈ a, n < 256 ^ width) (hb : ∀ n ∈ b, n < 256 ^ width)
    (h : SignedInfo.optionalField width a ++ x = SignedInfo.optionalField width b ++ y) :
    a = b ∧ x = y := by
  cases a with
  | none =>
    cases b with
    | none => exact ⟨rfl, by simpa [SignedInfo.optionalField] using h⟩
    | some m => simp [SignedInfo.optionalField] at h
  | some n =>
    cases b with
    | none => simp [SignedInfo.optionalField] at h
    | some m =>
      obtain ⟨rfl, rest⟩ := bigEndian_split (ha n rfl) (hb m rfl) (List.cons_inj_right 1 |>.mp h)
      exact ⟨rfl, rest⟩

/-- What two signed informations have in common if they are hashed alike. -/
structure SignedInfo.Agrees (i j : SignedInfo) : Prop where
  publisher : i.publisher = j.publisher
  millis : i.millis = j.millis
  contentType : i.contentType = j.contentType
  keyLocator : i.keyLocator = j.keyLocator
  freshness : i.freshness = j.freshness
  finalSegment : i.finalSegment = j.finalSegment

theorem SignedInfo.millis_inj {i j : SignedInfo}
    (h : (BitVec.ofInt 64 i.millis).toNat = (BitVec.ofInt 64 j.millis).toNat) :
    i.millis = j.millis := by
  have signed := congrArg BitVec.toInt (BitVec.eq_of_toNat_eq h)
  have hi := i.timestamp.toInt_lt
  have hi' := i.timestamp.le_toInt
  have hj := j.timestamp.toInt_lt
  have hj' := j.timestamp.le_toInt
  simp only [BitVec.toInt_ofInt] at signed
  rw [Int.bmod_eq_of_le (by simp only [millis]; omega) (by simp only [millis]; omega),
    Int.bmod_eq_of_le (by simp only [millis]; omega) (by simp only [millis]; omega)] at signed
  exact signed

theorem ContentType.code_inj {s t : ContentType} (h : s.code = t.code) : s = t := by
  cases s <;> cases t <;> revert h <;> decide

theorem SignedInfo.freshness_fits (i : SignedInfo) :
    ∀ n ∈ i.freshness.map UInt32.toNat, n < 256 ^ 4 := by
  intro n hn
  obtain ⟨seconds, -, rfl⟩ := Option.map_eq_some_iff.mp hn
  exact seconds.toNat_lt

theorem SignedInfo.finalSegment_fits (i : SignedInfo) :
    ∀ n ∈ i.finalSegment.map UInt64.toNat, n < 256 ^ 8 := by
  intro n hn
  obtain ⟨segment, -, rfl⟩ := Option.map_eq_some_iff.mp hn
  exact segment.toNat_lt

theorem SignedInfo.encoding_split {i j : SignedInfo} {x y : Bytes} (hi : i.keyLocator.Fits)
    (hj : j.keyLocator.Fits) (h : i.encoding ++ x = j.encoding ++ y) : i.Agrees j ∧ x = y := by
  simp only [encoding, List.append_assoc] at h
  obtain ⟨publisher, h⟩ := digest_split h
  obtain ⟨time, h⟩ := bigEndian_split (BitVec.isLt _) (BitVec.isLt _) h
  obtain ⟨code, h⟩ := List.cons.inj h
  obtain ⟨locator, h⟩ := KeyLocator.encoding_split hi hj h
  obtain ⟨freshness, h⟩ := optionalField_split i.freshness_fits j.freshness_fits h
  obtain ⟨final, rest⟩ := optionalField_split i.finalSegment_fits j.finalSegment_fits h
  refine ⟨⟨?_, millis_inj time, ContentType.code_inj code, locator, ?_, ?_⟩, rest⟩
  · cases hp : i.publisher
    cases hq : j.publisher
    rw [hp, hq] at publisher
    congr
  · exact Option.map_injective (fun _ _ => UInt32.toNat_inj.mp) freshness
  · exact Option.map_injective (fun _ _ => UInt64.toNat_inj.mp) final

/-- Every length that goes into a leaf fits into eight bytes. -/
structure LeafFits (name : Name) (info : SignedInfo) (payload : Bytes) : Prop where
  name : name.Fits
  keyLocator : info.keyLocator.Fits
  payload : payload.length < UInt64.size

theorem leafPreimage_inj {n m : Name} {i j : SignedInfo} {p q : Bytes} (hl : LeafFits n i p)
    (hm : LeafFits m j q) (h : leafPreimage n i p = leafPreimage m j q) :
    n = m ∧ p = q ∧ i.Agrees j := by
  have h := List.cons_inj_right 0 |>.mp h
  rw [List.append_assoc, List.append_assoc] at h
  obtain ⟨name, h⟩ := Name.encoding_split hl.name hm.name h
  obtain ⟨info, h⟩ := SignedInfo.encoding_split hl.keyLocator hm.keyLocator h
  obtain ⟨payload, -⟩ := counted_split (x := []) (y := []) hl.payload hm.payload (by simpa using h)
  exact ⟨name, payload, info⟩

theorem leafPreimage_ne_nodePreimage (name : Name) (info : SignedInfo) (payload : Bytes)
    (left right : Digest) : leafPreimage name info payload ≠ nodePreimage left right := by
  simp [leafPreimage, nodePreimage]

theorem nodePreimage_inj {l r l' r' : Digest} (h : nodePreimage l r = nodePreimage l' r') :
    l = l' ∧ r = r' := by
  obtain ⟨left, rest⟩ := digest_split (List.cons_inj_right 1 |>.mp h)
  exact ⟨left, (digest_split (x := []) (y := []) (by simpa using rest)).1⟩

theorem SignedInfo.Agrees.encoding_eq {i j : SignedInfo} (h : i.Agrees j) :
    i.encoding = j.encoding := by
  rw [encoding, encoding, h.publisher, h.millis, h.contentType, h.keyLocator, h.freshness,
    h.finalSegment]

/-- Two leaves are digests of one byte string exactly if they have the same name
and payload and their signed informations agree, in time up to the millisecond,
and no inner node is a digest of it. -/
theorem leafPreimage_unambiguous {n m : Name} {i j : SignedInfo} {p q : Bytes}
    (fits : LeafFits n i p) (fits' : LeafFits m j q) :
    (leafPreimage n i p = leafPreimage m j q ↔ n = m ∧ p = q ∧ i.Agrees j) ∧
      ∀ left right, leafPreimage n i p ≠ nodePreimage left right := by
  refine ⟨⟨leafPreimage_inj fits fits', ?_⟩, leafPreimage_ne_nodePreimage n i p⟩
  rintro ⟨rfl, rfl, agree⟩
  rw [leafPreimage, leafPreimage, agree.encoding_eq]

/-- Times of one millisecond before the epoch make no difference, and the epoch does. -/
theorem leafPreimage_within_millisecond :
    let name : Name := ⟨[⟨[]⟩, ⟨[0]⟩]⟩
    let first : SignedInfo := ⟨⟨.zero⟩, -1000, .link, .keyName ⟨[⟨[]⟩]⟩, none, some 1⟩
    let last : SignedInfo := { first with timestamp := -1 }
    let epoch : SignedInfo := { first with timestamp := 0 }
    LeafFits name first [] ∧ LeafFits name last [] ∧ LeafFits name epoch [] ∧
      leafPreimage name first [] = leafPreimage name last [] ∧
      leafPreimage name first [] ≠ leafPreimage name epoch [] ∧
      ∀ left right, leafPreimage name first [] ≠ nodePreimage left right := by
  intro name first last epoch
  have fits (info : SignedInfo) (located : info.keyLocator = .keyName ⟨[⟨[]⟩]⟩) :
      LeafFits name info [] := by
    refine ⟨⟨by decide, by decide⟩, ?_, by decide⟩
    rw [located]
    exact ⟨by decide, by decide⟩
  have agree : first.Agrees last := ⟨rfl, by decide, rfl, rfl, rfl, rfl⟩
  have within := leafPreimage_unambiguous (fits first rfl) (fits last rfl)
  have beyond := leafPreimage_unambiguous (fits first rfl) (fits epoch rfl)
  refine ⟨fits first rfl, fits last rfl, fits epoch rfl, within.1.mpr ⟨rfl, rfl, agree⟩, ?_,
    within.2⟩
  intro same
  exact absurd (beyond.1.mp same).2.2.millis (by decide)

end NamedContent
