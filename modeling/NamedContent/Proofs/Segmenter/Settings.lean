import Mathlib
import NamedContent.Proofs.Numbering
import NamedContent.Proofs.Segmenter.Planning

/-!
# Settings that a segmenter can work under

A segmenter is opened, set and used only with a block size above zero and a
numbering whose step is not zero. Settings read from variables are of this kind
whatever the variables hold, or there are none.
-/

set_option autoImplicit false

namespace NamedContent

namespace Segmenter

namespace Config

variable {config : Config}

theorem checkNumbering_eq_ok {p : Numbering} :
    checkNumbering p = .ok () ↔ p.validate = .ok () := by
  rw [checkNumbering]
  cases p.validate <;> simp [Except.mapError]

theorem validate_eq_ok :
    config.validate = .ok () ↔ 0 < config.blockSize ∧ config.numbering.validate = .ok () := by
  rw [validate]
  split
  · rename_i zero
    simp [zero]
  · rename_i some
    rw [checkNumbering_eq_ok, and_iff_right (Nat.pos_of_ne_zero some)]

theorem ofVariables_eq (lookup : String → Option String) : ofVariables lookup =
    (((lookup blockSizeVariable).map readBlockSize).getD (.ok 4096) >>= fun blockSize =>
      ((lookup numberingVariable).map readNumbering).getD (.ok (.fixedIncrement 1)) >>=
        fun numbering => checked ⟨blockSize, numbering⟩) := by
  rw [ofVariables]
  cases lookup blockSizeVariable <;> cases lookup numberingVariable <;> rfl

theorem validate_of_ofVariables {lookup : String → Option String}
    (done : ofVariables lookup = .ok config) : config.validate = .ok () := by
  rw [ofVariables_eq] at done
  obtain ⟨blockSize, -, done⟩ := bind_eq_ok.mp done
  obtain ⟨numbering, -, done⟩ := bind_eq_ok.mp done
  obtain ⟨⟨⟩, valid, same⟩ := bind_eq_ok.mp done
  exact Except.ok.inj same ▸ valid

end Config

variable {config : Config} {s s' : Segmenter}

theorem ofConfig_eq_ok : ofConfig config = .ok s ↔
    config.validate = .ok () ∧ s = ⟨config, config.numbering.base, none, none⟩ := by
  rw [ofConfig, bind_eq_ok]
  constructor
  · rintro ⟨⟨⟩, valid, done⟩
    exact ⟨valid, (Except.ok.inj done).symm⟩
  · rintro ⟨valid, rfl⟩
    exact ⟨(), valid, rfl⟩

theorem setNumbering_eq_ok {numbering : Numbering} : s.setNumbering numbering = .ok s' ↔
    numbering.validate = .ok () ∧ s' =
      { s with
        config := { s.config with numbering }, next := numbering.base, streamRoot := none } := by
  rw [setNumbering, bind_eq_ok]
  constructor
  · rintro ⟨⟨⟩, checked, done⟩
    exact ⟨Config.checkNumbering_eq_ok.mp checked, (Except.ok.inj done).symm⟩
  · rintro ⟨valid, rfl⟩
    exact ⟨(), Config.checkNumbering_eq_ok.mpr valid, rfl⟩

theorem setBlockSize_eq_ok {size : Nat} : s.setBlockSize size = .ok s' ↔
    0 < size ∧ s' = { s with config := { s.config with blockSize := size } } := by
  rw [setBlockSize, Nat.pos_iff_ne_zero]
  split <;> simp_all [eq_comm]

/-- The segmenter has been opened with these settings, and then set and used in
any way. -/
inductive Built (config : Config) : Segmenter → Prop
  | opened {s : Segmenter} (done : ofConfig config = .ok s) : Built config s
  | renumbered {s s' : Segmenter} (built : Built config s) {numbering : Numbering}
      (done : s.setNumbering numbering = .ok s') : Built config s'
  | resized {s s' : Segmenter} (built : Built config s) {size : Nat}
      (done : s.setBlockSize size = .ok s') : Built config s'
  | moved {s : Segmenter} (built : Built config s) (number : UInt64) :
      Built config (s.setNext number)
  | planned {s : Segmenter} (built : Built config s) {keys : KeyRing} {timestamp : Int64}
      {name : Name} {content : Bytes} {options : Options} {plan : Plan}
      (done : s.plan keys timestamp name content options = .ok plan) : Built config plan.segmenter
  | completed {s : Segmenter} (built : Built config s) (w : Writing) :
      Built config (s.complete w).1
  | letGo {s : Segmenter} (built : Built config s) : Built config s.letGo.1

theorem Built.valid (built : s.Built config) : s.config.validate = .ok () := by
  induction built with
  | opened done =>
    obtain ⟨valid, rfl⟩ := ofConfig_eq_ok.mp done
    exact valid
  | renumbered _ done valid =>
    obtain ⟨numbering, rfl⟩ := setNumbering_eq_ok.mp done
    exact Config.validate_eq_ok.mpr ⟨(Config.validate_eq_ok.mp valid).1, numbering⟩
  | resized _ done valid =>
    obtain ⟨size, rfl⟩ := setBlockSize_eq_ok.mp done
    exact Config.validate_eq_ok.mpr ⟨size, (Config.validate_eq_ok.mp valid).2⟩
  | moved _ _ valid => exact valid
  | planned _ done valid =>
    obtain ⟨_, _, -, -, entered, -, -⟩ := plan_eq_ok done
    rw [entered]
    exact valid
  | completed _ w valid =>
    rw [(complete_stays _ w).1]
    exact valid
  | letGo _ valid => exact valid

/-- The text of a policy reads back exactly if the policy is valid, and no text
reads as a policy that is not. Settings that are read from variables have a
block size above zero and a valid numbering, whatever the variables hold. So a
segmenter opens with them, and however it is set and used, it is never to cut
pieces of size zero, nor to number with step or scale zero. -/
theorem settings_sound :
    (∀ p : Numbering, Numbering.read p.text = .ok p ↔ p.validate = .ok ()) ∧
    (∀ (text : String) (p : Numbering), Numbering.read text = .ok p → p.validate = .ok ()) ∧
    ∀ (lookup : String → Option String) (config : Config), Config.ofVariables lookup = .ok config →
      0 < config.blockSize ∧ config.numbering.validate = .ok () ∧
      (∃ s, ofConfig config = .ok s) ∧
      ∀ s, Built config s → 0 < s.config.blockSize ∧
        s.config.numbering ≠ .fixedIncrement 0 ∧ s.config.numbering ≠ .scaledByteCount 0 := by
  refine ⟨Numbering.read_text_iff, fun text p => Numbering.valid_of_read, ?_⟩
  intro lookup config done
  have valid := Config.validate_of_ofVariables done
  obtain ⟨positive, numbering⟩ := Config.validate_eq_ok.mp valid
  refine ⟨positive, numbering, ⟨_, ofConfig_eq_ok.mpr ⟨valid, rfl⟩⟩, fun s built => ?_⟩
  obtain ⟨positive, numbering⟩ := Config.validate_eq_ok.mp built.valid
  exact ⟨positive, Numbering.validate_eq_ok.mp numbering⟩

/-- The greatest number reads back and zero does not. Settings with blanks and
capitals are read, and the segmenter that they open can work. -/
theorem settings_sound_blanks :
    Numbering.read (Numbering.fixedIncrement 18446744073709551615).text =
      .ok (.fixedIncrement 18446744073709551615) ∧
    Numbering.read (Numbering.scaledByteCount 0).text ≠ .ok (.scaledByteCount 0) ∧
    Numbering.read " FIXED-Increment " = .ok (.fixedIncrement 1) ∧
    (Numbering.fixedIncrement 1).validate = .ok () ∧
    ∃ (lookup : String → Option String) (config : Config) (s : Segmenter),
      lookup "CNP_BLOCK_SIZE" = some " +1024" ∧
      lookup "CNP_NUMBERING" = some " Scaled-Byte-Count( 8 )" ∧
      Config.ofVariables lookup = .ok config ∧ config.numbering.validate = .ok () ∧
      ofConfig config = .ok s ∧ 0 < s.config.blockSize ∧
      s.config.numbering ≠ .scaledByteCount 0 := by
  let lookup (name : String) : Option String :=
    if name = "CNP_BLOCK_SIZE" then some " +1024"
    else if name = "CNP_NUMBERING" then some " Scaled-Byte-Count( 8 )" else none
  obtain ⟨printed, sound, settings⟩ := settings_sound
  have read : Numbering.read " FIXED-Increment " = .ok (.fixedIncrement 1) := by decide +kernel
  have done : Config.ofVariables lookup = .ok ⟨1024, .scaledByteCount 8⟩ := by decide +kernel
  obtain ⟨-, valid, ⟨s, opens⟩, used⟩ := settings lookup _ done
  obtain ⟨positive, -, scaled⟩ := used s (.opened opens)
  exact ⟨(printed _).mpr rfl, fun read => absurd ((printed _).mp read) (by decide), read,
    sound _ _ read, lookup, _, s, by decide, by decide, done, valid, opens, positive, scaled⟩

end Segmenter

end NamedContent
