import Mathlib
import NamedContent.Proofs.Batch
import NamedContent.Session.Command

/-!
# The grammar of names

A name is written as a path, with or without the scheme. Between its slashes
stand the components, and in a component two hexadecimal digits behind a
percent sign stand for one byte. The reader follows this grammar but for one
escape more: the number behind the percent sign may be a plus sign and one
digit. So it keeps to the grammar on all texts but those that it reads although
they have a plus sign behind a percent sign.
-/

set_option autoImplicit false

namespace NamedContent

def IsHexDigit (c : Char) (value : Nat) : Prop :=
  "0123456789abcdef".toList[value]? = some c ∨ "0123456789ABCDEF".toList[value]? = some c

theorem hexValue?_of_isHexDigit {c : Char} {value : Nat} (digit : IsHexDigit c value) :
    hexValue? c = some value := by
  have below : value < 16 := by
    obtain lower | upper := digit
    · exact (List.getElem?_eq_some_iff.mp lower).1
    · exact (List.getElem?_eq_some_iff.mp upper).1
  obtain lower | upper := digit
  · interval_cases value <;> cases lower <;> rfl
  · interval_cases value <;> cases upper <;> rfl

instance (c : Char) (value : Nat) : Decidable (IsHexDigit c value) :=
  inferInstanceAs (Decidable (_ ∨ _))

theorem isHexDigit_of_hexValue? {c : Char} {value : Nat} (read : hexValue? c = some value) :
    IsHexDigit c value := by
  have ascii : c.toNat < 128 := by
    have bounds : c ≤ '9' ∨ c ≤ 'f' ∨ c ≤ 'F' := by
      unfold hexValue? at read
      split at read
      · rename_i decimal
        exact .inl decimal.2
      · split at read
        · rename_i lower
          exact .inr (.inl lower.2)
        · split at read
          · rename_i upper
            exact .inr (.inr upper.2)
          · contradiction
    have bounds : c.toNat ≤ 57 ∨ c.toNat ≤ 102 ∨ c.toNat ≤ 70 := bounds
    omega
  have table : ∀ n < 128, (hexValue? (Char.ofNat n)).all
      (fun value => IsHexDigit (Char.ofNat n) value) = true := by
    decide
  have here := table c.toNat ascii
  rw [Char.ofNat_toNat, read] at here
  simpa using here

theorem hexValue?_eq_some {c : Char} {value : Nat} :
    hexValue? c = some value ↔ IsHexDigit c value :=
  ⟨isHexDigit_of_hexValue?, hexValue?_of_isHexDigit⟩

namespace Uri

/-- These characters spell these bytes: an escape spells the byte that its two
digits write, any other character its own bytes. With signs allowed, a plus
sign and one digit are an escape too. -/
inductive Spells (signs : Bool) : List Char → Bytes → Prop where
  | nil : Spells signs [] []
  | escape {high low : Char} {h l : Nat} {rest : List Char} {bytes : Bytes}
      (first : IsHexDigit high h) (second : IsHexDigit low l) (later : Spells signs rest bytes) :
      Spells signs ('%' :: high :: low :: rest) (UInt8.ofNat (16 * h + l) :: bytes)
  | signed {low : Char} {l : Nat} {rest : List Char} {bytes : Bytes} (allowed : signs = true)
      (digit : IsHexDigit low l) (later : Spells signs rest bytes) :
      Spells signs ('%' :: '+' :: low :: rest) (UInt8.ofNat l :: bytes)
  | plain {c : Char} {rest : List Char} {bytes : Bytes} (other : c ≠ '%')
      (later : Spells signs rest bytes) :
      Spells signs (c :: rest) (String.utf8EncodeChar c ++ bytes)

def path (text : String) : List Char :=
  if "ccnx:".toList <+: text.toList then text.toList.drop 5 else text.toList

/-- The text is a path, and the segments between its slashes that are not empty
spell the components of the name, one each, in order. -/
structure Writes (signs : Bool) (text : String) (n : Name) : Prop where
  rooted : ['/'] <+: path text
  spelled : List.Forall₂ (fun segment c => Spells signs segment c.bytes)
    (((path text).splitOn '/').filter (· ≠ [])) n.components

theorem dropScheme_eq (text : String) : dropScheme text.toList = path text := by
  unfold dropScheme path
  split
  · rename_i rest eq
    rw [eq]
    simp
  · rename_i other
    rw [if_neg]
    rintro ⟨rest, eq⟩
    exact other rest eq.symm

theorem splitAtSlashes_ne_nil (l : List Char) : splitAtSlashes l ≠ [] := by
  cases l with
  | nil => exact List.cons_ne_nil _ _
  | cons c cs =>
    rw [splitAtSlashes]
    split
    · exact List.cons_ne_nil _ _
    · split <;> exact List.cons_ne_nil _ _

theorem splitAtSlashes_cons (c : Char) (cs : List Char) : splitAtSlashes (c :: cs) =
    if c = '/' then [] :: splitAtSlashes cs else (splitAtSlashes cs).modifyHead (c :: ·) := by
  rw [splitAtSlashes]
  split
  · rfl
  · cases segments : splitAtSlashes cs with
    | nil => exact absurd segments (splitAtSlashes_ne_nil cs)
    | cons first rest => rfl

theorem splitAtSlashes_eq (l : List Char) : splitAtSlashes l = l.splitOn '/' := by
  induction l with
  | nil => rfl
  | cons c cs ih =>
    rw [splitAtSlashes_cons, List.splitOn, List.splitOnP_cons_eq_if_modifyHead, ih]
    simp only [beq_iff_eq]
    rfl

theorem readEscape_eq_some {high low : Char} {b : UInt8} : readEscape high low = some b ↔
    (∃ h l, IsHexDigit high h ∧ IsHexDigit low l ∧ UInt8.ofNat (16 * h + l) = b) ∨
      high = '+' ∧ ∃ l, IsHexDigit low l ∧ UInt8.ofNat l = b := by
  have plus : hexValue? '+' = none := by decide
  simp only [readEscape, ← hexValue?_eq_some]
  by_cases signed : high = '+'
  · simp [signed, plus]
  · simp [signed, Option.bind_eq_some_iff]

theorem readPiece_eq_some {piece : List Char} {bytes : Bytes} :
    readPiece piece = some bytes ↔ Spells true piece bytes := by
  constructor
  · intro read
    fun_induction readPiece piece generalizing bytes with
    | case1 =>
      obtain rfl := Option.some.inj read
      exact .nil
    | case2 high low rest ih =>
      simp only [Option.bind_eq_bind, Option.bind_eq_some_iff] at read
      obtain ⟨b, escape, later, spelt, eq⟩ := read
      obtain rfl := Option.some.inj eq
      obtain ⟨h, l, first, second, rfl⟩ | ⟨rfl, l, digit, rfl⟩ := readEscape_eq_some.mp escape
      · exact .escape first second (ih spelt)
      · exact .signed rfl digit (ih spelt)
    | case3 => contradiction
    | case4 c rest _ other ih =>
      simp only [Option.bind_eq_bind, Option.bind_eq_some_iff] at read
      obtain ⟨later, spelt, eq⟩ := read
      obtain rfl := Option.some.inj eq
      exact .plain other (ih spelt)
  · intro spelt
    induction spelt with
    | nil => rfl
    | escape first second _ ih =>
      have escape := readEscape_eq_some.mpr (.inl ⟨_, _, first, second, rfl⟩)
      simp [readPiece, escape, ih]
    | signed _ digit _ ih =>
      have escape := readEscape_eq_some.mpr (.inr ⟨rfl, _, digit, rfl⟩)
      simp [readPiece, escape, ih]
    | @plain c rest bytes other _ ih =>
      rw [readPiece]
      · simp [other, ih]
      · intro high low rest' percent
        exact absurd percent other

theorem readComponent_eq_ok {segment : List Char} {c : Component} :
    readComponent segment = .ok c ↔ Spells true segment c.bytes := by
  rw [readComponent, ← readPiece_eq_some]
  obtain ⟨bytes⟩ := c
  split
  · rename_i found
    simp [found]
  · rename_i nothing
    simp [nothing]

theorem read_eq_ok {text : String} {n : Name} : read text = .ok n ↔ Writes true text n := by
  obtain ⟨components⟩ := n
  rw [read, dropScheme_eq]
  split
  · rename_i segments eq
    have split : ((path text).splitOn '/').filter (· ≠ []) =
        (splitAtSlashes segments).filter fun segment => !segment.isEmpty := by
      rw [eq, ← splitAtSlashes_eq, splitAtSlashes_cons, if_pos rfl,
        List.filter_cons_of_neg (by simp)]
      apply List.filter_congr
      intro segment _
      cases segment <;> rfl
    have rooted : ['/'] <+: path text := by simp [eq]
    constructor
    · intro read
      obtain ⟨cs, done, same⟩ := bind_eq_ok.mp read
      obtain rfl := congrArg Name.components (Except.ok.inj same)
      refine ⟨rooted, ?_⟩
      rw [split]
      exact (mapM_eq_ok.mp done).imp fun _ _ => readComponent_eq_ok.mp
    · rintro ⟨-, spelled⟩
      rw [split] at spelled
      exact bind_eq_ok.mpr ⟨components, mapM_eq_ok.mpr (spelled.imp fun _ _ =>
        readComponent_eq_ok.mpr), rfl⟩
  · rename_i other
    constructor
    · intro read
      contradiction
    · rintro ⟨⟨rest, eq⟩, -⟩
      exact absurd eq.symm (other rest)

/-- The two characters with which an escape with a sign begins. -/
def signedEscape : List Char := ['%', '+']

theorem Spells.signless {segment : List Char} {bytes : Bytes} (spelt : Spells false segment bytes) :
    ¬signedEscape <:+: segment := by
  have percent (value : Nat) : ¬IsHexDigit '%' value := by
    rw [← hexValue?_eq_some]
    exact nofun
  have plus (value : Nat) : ¬IsHexDigit '+' value := by
    rw [← hexValue?_eq_some]
    exact nofun
  -- the sign would stand at the beginning or later
  have found {c : Char} {rest : List Char} (inside : signedEscape <:+: c :: rest) :
      (c = '%' ∧ ['+'] <+: rest) ∨ signedEscape <:+: rest := by
    rw [List.infix_cons_iff, signedEscape, List.cons_prefix_cons] at inside
    exact inside.imp_left (And.imp_left Eq.symm)
  induction spelt with
  | nil => exact fun inside => absurd (List.infix_nil.mp inside) (List.cons_ne_nil _ _)
  | escape first second _ ih =>
    intro inside
    obtain ⟨-, sign⟩ | inside := found inside
    · obtain rfl := (List.cons_prefix_cons.mp sign).1
      exact plus _ first
    · obtain ⟨rfl, -⟩ | inside := found inside
      · exact percent _ first
      · obtain ⟨rfl, -⟩ | inside := found inside
        · exact percent _ second
        · exact ih inside
  | signed allowed => contradiction
  | plain other _ ih =>
    intro inside
    obtain ⟨same, -⟩ | inside := found inside
    · exact other same
    · exact ih inside

theorem Spells.without_signs {segment : List Char} {bytes : Bytes}
    (spelt : Spells true segment bytes) (signless : ¬signedEscape <:+: segment) :
    Spells false segment bytes := by
  have later {c : Char} {rest : List Char} (signless : ¬signedEscape <:+: c :: rest) :
      ¬signedEscape <:+: rest := fun inside => signless (List.infix_cons inside)
  induction spelt with
  | nil => exact .nil
  | escape first second _ ih => exact .escape first second (ih (later (later (later signless))))
  | @signed low l rest => exact absurd ⟨[], low :: rest, rfl⟩ signless
  | plain other _ ih => exact .plain other (ih (later signless))

theorem Spells.with_signs {segment : List Char} {bytes : Bytes}
    (spelt : Spells false segment bytes) : Spells true segment bytes := by
  induction spelt with
  | nil => exact .nil
  | escape first second _ ih => exact .escape first second ih
  | signed allowed => contradiction
  | plain other _ ih => exact .plain other ih

theorem spells_false_iff {segment : List Char} {bytes : Bytes} :
    Spells false segment bytes ↔ ¬signedEscape <:+: segment ∧ Spells true segment bytes :=
  ⟨fun spelt => ⟨spelt.signless, spelt.with_signs⟩, fun ⟨signless, spelt⟩ =>
    spelt.without_signs signless⟩

theorem infix_append_slash {word before after : List Char} (unslashed : '/' ∉ word)
    (some : word ≠ []) :
    word <:+: before ++ '/' :: after ↔ word <:+: before ∨ word <:+: after := by
  have unled {rest : List Char} (reaches : rest <+: '/' :: after) (part : ∀ c ∈ rest, c ∈ word) :
      rest = [] := by
    cases rest with
    | nil => rfl
    | cons c rest =>
      obtain rfl := (List.cons_prefix_cons.mp reaches).1
      exact absurd (part _ List.mem_cons_self) unslashed
  rw [List.infix_append_iff, List.infix_cons_iff]
  constructor
  · rintro (inside | (led | inside) | ⟨first, rest, rfl, ends, reaches⟩)
    · exact .inl inside
    · exact absurd (unled led fun _ listed => listed) some
    · exact .inr inside
    · obtain rfl := unled reaches fun _ listed => List.mem_append_right _ listed
      rw [List.append_nil]
      exact .inl ends.isInfix
  · rintro (inside | inside)
    · exact .inl inside
    · exact .inr (.inl (.inr inside))

theorem infix_intercalate_iff {word : List Char} (unslashed : '/' ∉ word) (some : word ≠ [])
    (segments : List (List Char)) :
    word <:+: ['/'].intercalate segments ↔ ∃ segment ∈ segments, word <:+: segment := by
  induction segments with
  | nil => simpa using some
  | cons first rest ih =>
    cases rest with
    | nil => simp
    | cons second rest =>
      rw [List.intercalate_cons_cons, List.append_assoc, List.singleton_append,
        infix_append_slash unslashed some, ih]
      exact (List.exists_mem_cons_iff ..).symm

theorem path_infix_iff (text : String) :
    signedEscape <:+: path text ↔ signedEscape <:+: text.toList := by
  unfold path
  split
  · rename_i scheme
    obtain ⟨rest, eq⟩ := scheme
    rw [← eq]
    simp [signedEscape, List.infix_cons_iff]
  · rfl

theorem signless_segments_iff (text : String) :
    (∀ segment ∈ ((path text).splitOn '/').filter (· ≠ []), ¬signedEscape <:+: segment) ↔
      ¬signedEscape <:+: text.toList := by
  have unslashed : '/' ∉ signedEscape := by decide
  have segments := infix_intercalate_iff unslashed (by decide) ((path text).splitOn '/')
  rw [List.intercalate_splitOn, path_infix_iff] at segments
  rw [segments]
  constructor
  · rintro signless ⟨segment, listed, inside⟩
    refine signless segment (List.mem_filter.mpr ⟨listed, ?_⟩) inside
    rw [decide_eq_true_iff]
    rintro rfl
    exact absurd (List.infix_nil.mp inside) (List.cons_ne_nil _ _)
  · intro signless segment listed inside
    exact signless ⟨segment, (List.mem_filter.mp listed).1, inside⟩

theorem writes_false_iff {text : String} {n : Name} :
    Writes false text n ↔ ¬signedEscape <:+: text.toList ∧ Writes true text n := by
  have spelled : List.Forall₂ (fun segment (c : Component) => Spells false segment c.bytes)
      (((path text).splitOn '/').filter (· ≠ [])) n.components ↔
      ¬signedEscape <:+: text.toList ∧
        List.Forall₂ (fun segment c => Spells true segment c.bytes)
          (((path text).splitOn '/').filter (· ≠ [])) n.components := by
    simp only [spells_false_iff]
    rw [List.forall₂_and_left, signless_segments_iff]
  constructor
  · intro written
    obtain ⟨signless, spelled⟩ := spelled.mp written.spelled
    exact ⟨signless, written.rooted, spelled⟩
  · intro written
    exact ⟨written.2.rooted, spelled.mpr ⟨written.1, written.2.spelled⟩⟩

/-- The text is read as the name that it writes in the grammar, and refused as
an invalid argument if it writes none. -/
def KeepsToGrammar (text : String) : Prop :=
  (∀ n, Session.readName (.uri text) = .ok n ↔ Writes false text n) ∧
    ((∀ n, ¬Writes false text n) →
      ∃ fault, Session.readName (.uri text) = .error (.invalidArgument (.uri fault)))

theorem readName_eq_ok {text : String} {n : Name} :
    Session.readName (.uri text) = .ok n ↔ Writes true text n := by
  rw [← read_eq_ok, Session.readName]
  cases read text <;> simp [Except.mapError]

theorem readName_refused {text : String} (unwritten : ∀ n, ¬Writes true text n) :
    ∃ fault, Session.readName (.uri text) = .error (.invalidArgument (.uri fault)) := by
  rw [Session.readName]
  cases result : read text with
  | ok n => exact absurd (read_eq_ok.mp result) (unwritten n)
  | error fault => exact ⟨fault, rfl⟩

/-- Every text is read by the grammar with signs and else refused. So it is
read by the grammar itself unless it has a plus sign behind a percent sign and
is read nevertheless. -/
theorem keepsToGrammar_iff (text : String) :
    (∀ n, Session.readName (.uri text) = .ok n ↔ Writes true text n) ∧
      ((∀ n, ¬Writes true text n) →
        ∃ fault, Session.readName (.uri text) = .error (.invalidArgument (.uri fault))) ∧
      (KeepsToGrammar text ↔ ¬(signedEscape <:+: text.toList ∧ ∃ n, Writes true text n)) := by
  refine ⟨fun n => readName_eq_ok, readName_refused, ?_⟩
  constructor
  · rintro ⟨exactly, -⟩ ⟨signed, n, written⟩
    have strict := (exactly n).mp (readName_eq_ok.mpr written)
    exact (writes_false_iff.mp strict).1 signed
  · intro regular
    have same (n : Name) : Writes true text n ↔ Writes false text n := by
      rw [writes_false_iff]
      exact ⟨fun written => ⟨fun signed => regular ⟨signed, n, written⟩, written⟩, And.right⟩
    refine ⟨fun n => readName_eq_ok.trans (same n), ?_⟩
    intro unwritten
    exact readName_refused fun n written => unwritten n ((same n).mp written)

/-- A plus sign and one digit are read as a byte, although the grammar has no such escape. -/
theorem plus_read_as_digit :
    Session.readName (.uri "/a%+f") = .ok ⟨[⟨[97, 15]⟩]⟩ ∧ ∀ n, ¬Writes false "/a%+f" n := by
  refine ⟨by decide +kernel, ?_⟩
  intro n written
  exact (writes_false_iff.mp written).1 ⟨['/', 'a'], ['f'], by decide⟩

end Uri

end NamedContent
