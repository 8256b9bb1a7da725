import ResonantGraph.Binary64
import Mathlib

/-!
# What is read of stored bits

An operation on stored reals reads its arguments, works on what it read, and stores the result. What is read of
a word is not a number, an infinity, a zero, or a mantissa with an exponent (`Binary64.reading`).

A word has a sign, an exponent of 11 bits and a mantissa of 52 bits, and all that is read of it follows from
these three (`unpack_packComponents`). Thus whatever is read can be stored without loss (`stored_eq_self`), and
a mantissa with an exponent is stored without loss if it has the form that the format prescribes, unless the
exponent is too great (`stored_finite`). So the reading of a sum is the sum of the readings, as it is stored
(`reading_add`), and in the same way for products and quotients. Comparing and clamping can be put in terms of
readings as well.
-/

namespace ResonantGraph

namespace Binary64

open Float.Model
open Float.Model.UnpackedFloat (Sign packComponents)

/-- The format of 64 bits. -/
abbrev format : Format := Format.binary64

/-! ### Words -/

/-- The number of two words written one after the other. -/
theorem toNat_append_eq_add {k n : ℕ} (high : BitVec k) (low : BitVec n) :
    (high ++ low).toNat = high.toNat * 2 ^ n + low.toNat := by
  rw [BitVec.toNat_append, ← Nat.shiftLeft_eq, Nat.shiftLeft_add_eq_or_of_lt low.isLt]

variable (s : Sign) (exponent : BitVec 11) (mantissa : BitVec 52)

/-- What is read of a word with a sign, an exponent and a mantissa. -/
theorem unpack_packComponents :
    UnpackedFloat.unpack format (packComponents format s exponent mantissa) =
      if exponent.toNat = 2047 then if mantissa.toNat = 0 then .infinity s else .notANumber
      else if exponent.toNat = 0 then
        if h : mantissa.toNat = 0 then .zero s
        else .finite s mantissa.toNat (-1074) (Nat.pos_of_ne_zero h)
      else .finite s (2 ^ 52 + mantissa.toNat) ((exponent.toNat : Int) - 1075) (by omega) := by
  have hgreatest : exponent = -1#11 ↔ exponent.toNat = 2047 := BitVec.toNat_inj.symm
  have hleast : exponent = 0#11 ↔ exponent.toNat = 0 := BitVec.toNat_inj.symm
  have hzero : mantissa = 0#52 ↔ mantissa.toNat = 0 := BitVec.toNat_inj.symm
  simp only [UnpackedFloat.unpack, UnpackedFloat.unpackMantissa_packComponents,
    UnpackedFloat.unpackExponent_packComponents, UnpackedFloat.unpackSign_packComponents,
    Sign.ofBitVec_toBitVec, toNat_append_eq_add, hgreatest, hleast, hzero]
  split_ifs with _ _ hexponent
  · rfl
  · rfl
  · rfl
  · rw [UnpackedFloat.finite.injEq, hexponent]
    exact ⟨rfl, rfl, rfl⟩
  · rfl

theorem toNat_packComponents :
    (packComponents format s exponent mantissa).toNat =
      s.toBitVec.toNat * 2 ^ 63 + exponent.toNat * 2 ^ 52 + mantissa.toNat := by
  change ((s.toBitVec ++ exponent) ++ mantissa).toNat = _
  rw [toNat_append_eq_add, toNat_append_eq_add]
  ring

/-- Every word has a sign, an exponent and a mantissa. -/
theorem exists_packComponents (b : BitVec format.numBits) :
    ∃ s exponent mantissa, packComponents format s exponent mantissa = b :=
  ⟨_, _, _, UnpackedFloat.packComponents_unpackSign_unpackExponent_unpackMantissa b⟩

/-! ### Storing and reading -/

/-- What is read of a number once it is stored. -/
def stored (f : UnpackedFloat) : UnpackedFloat := .unpack format (UnpackedFloat.pack format f)

/-- What is read of a stored real. -/
def reading (x : Binary64) : UnpackedFloat := .unpack format x.bits.toBitVec

/-- Whether a mantissa and an exponent have the form that the format prescribes: there are 53 digits and the
first is not zero, except at the least exponent. There is no bound on the exponent from above. -/
structure Canonical (m : ℕ) (e : ℤ) : Prop where
  /-- There are 53 digits. -/
  lt : m < 2 ^ 53
  /-- The exponent is not below the least one. -/
  le : -1074 ≤ e
  /-- The first digit is not zero. -/
  full : 2 ^ 52 ≤ m ∨ e = -1074

/-- Whether there is a word of which this is read. -/
def Storable : UnpackedFloat → Prop
  | .finite _ m e _ => Canonical m e ∧ e ≤ 971
  | _ => True

theorem storable_unpack (b : BitVec format.numBits) : Storable (.unpack format b) := by
  obtain ⟨s, exponent, mantissa, rfl⟩ := exists_packComponents b
  have hexponent : exponent.toNat < 2 ^ 11 := exponent.isLt
  have hmantissa : mantissa.toNat < 2 ^ 52 := mantissa.isLt
  rw [unpack_packComponents]
  split_ifs
  · trivial
  · trivial
  · trivial
  · exact ⟨⟨by omega, by omega, by omega⟩, by omega⟩
  · exact ⟨⟨by omega, by omega, by omega⟩, by omega⟩

theorem log2_add_one_eq_iff {m : ℕ} (h : m < 2 ^ 53) : m.log2 + 1 = 53 ↔ 2 ^ 52 ≤ m := by
  rw [Nat.log2_eq_log_two]
  constructor
  · intro hlog
    exact Nat.pow_le_of_le_log (fun h0 => by simp [h0] at hlog) (by omega)
  · intro hle
    rw [Nat.log_eq_of_pow_le_of_lt_pow hle h]

/-- The word of a mantissa and an exponent. -/
theorem pack_finite {m : ℕ} {e : ℤ} (hm : 0 < m) (h : m < 2 ^ 53) :
    UnpackedFloat.pack format (.finite s m e hm) =
      if 971 < e then UnpackedFloat.packedInfinity format s
      else if 2 ^ 52 ≤ m then packComponents format s (.ofNat 11 (e + 1075).toNat) (.ofNat 52 m)
      else packComponents format s 0#11 (.ofNat 52 m) := by
  have hbias : e + format.exponentBias + format.mantissaBitsWithoutImplicit = e + 1075 := by
    change e + 1023 + 52 = e + 1075
    omega
  have hlarge : 2 ^ format.exponentBits ≤ (e + 1075).toNat + 1 ↔ 971 < e := by
    change 2 ^ 11 ≤ _ ↔ _
    omega
  have hfull : m.log2 + 1 = format.mantissaBits ↔ 2 ^ 52 ≤ m := log2_add_one_eq_iff h
  simp only [UnpackedFloat.pack, hbias, hlarge, hfull]

theorem stored_infinity : stored (.infinity s) = .infinity s := by
  cases s <;> rfl

/-- **A mantissa and an exponent of the prescribed form are stored without loss**, unless the exponent is too
great. -/
theorem stored_finite {m : ℕ} {e : ℤ} (hm : 0 < m) (h : Canonical m e) :
    stored (.finite s m e hm) = if e ≤ 971 then .finite s m e hm else .infinity s := by
  have hlt := h.lt
  have hle := h.le
  rw [stored, pack_finite s hm hlt]
  by_cases hlarge : 971 < e
  · rw [if_pos hlarge, if_neg (not_le.2 hlarge)]
    exact stored_infinity s
  rw [if_neg hlarge, if_pos (not_lt.1 hlarge)]
  -- the first digit is not stored: that there is one shows from an exponent that is not the least
  by_cases hfull : 2 ^ 52 ≤ m
  · have hexponent : (BitVec.ofNat 11 (e + 1075).toNat).toNat = (e + 1075).toNat := by
      rw [BitVec.toNat_ofNat]
      omega
    have hmantissa : (BitVec.ofNat 52 m).toNat = m - 2 ^ 52 := by
      rw [BitVec.toNat_ofNat]
      omega
    rw [if_pos hfull, unpack_packComponents, if_neg (by omega), if_neg (by omega), UnpackedFloat.finite.injEq]
    exact ⟨rfl, by omega, by omega⟩
  · have hmantissa : (BitVec.ofNat 52 m).toNat = m := by
      rw [BitVec.toNat_ofNat]
      omega
    rw [if_neg hfull, unpack_packComponents, if_neg (by decide), if_pos (by decide), dif_neg (by omega),
      UnpackedFloat.finite.injEq]
    exact ⟨rfl, hmantissa, (h.full.resolve_left hfull).symm⟩

theorem stored_eq_self {f : UnpackedFloat} (h : Storable f) : stored f = f := by
  cases f with
  | infinity s => exact stored_infinity s
  | notANumber => rfl
  | zero s => cases s <;> rfl
  | finite s m e hm => rw [stored_finite s hm h.1, if_pos h.2]

/-! ### Operations -/

theorem reading_ofFloat {x : Float} {f : UnpackedFloat} (h : x.toModel = .pack f) :
    reading (ofFloat x) = stored f := by
  rw [reading, ofFloat, Float.toBits, h]
  rfl

variable (x y : Binary64)

theorem unpack_toFloat : x.toFloat.toModel.unpack = x.reading := stored_eq_self (storable_unpack x.bits.toBitVec)

theorem reading_add : (x + y).reading = stored (.add format x.reading y.reading) := by
  have h := reading_ofFloat (x := x.toFloat + y.toFloat) rfl
  rwa [unpack_toFloat, unpack_toFloat] at h

theorem reading_mul : (x * y).reading = stored (.mul format x.reading y.reading) := by
  have h := reading_ofFloat (x := x.toFloat * y.toFloat) rfl
  rwa [unpack_toFloat, unpack_toFloat] at h

theorem reading_div : (x / y).reading = stored (.div format x.reading y.reading) := by
  have h := reading_ofFloat (x := x.toFloat / y.toFloat) rfl
  rwa [unpack_toFloat, unpack_toFloat] at h

theorem atLeast_eq : x.atLeast y = UnpackedFloat.le y.reading x.reading := by
  rw [Bool.eq_iff_iff, atLeast, decide_eq_true_iff, ← unpack_toFloat, ← unpack_toFloat]
  exact decide_eq_true_iff

theorem below_eq : x.below y = UnpackedFloat.lt x.reading y.reading := by
  rw [Bool.eq_iff_iff, below, decide_eq_true_iff, ← unpack_toFloat, ← unpack_toFloat]
  exact decide_eq_true_iff

/-! ### Clamping -/

theorem isNegative_eq : x.isNegative = decide (2 ^ 63 ≤ x.bits.toNat) := rfl

theorem isNaN_eq : x.isNaN = decide (2047 * 2 ^ 52 < x.bits.toNat % 2 ^ 63) := by
  have hunsigned : x.unsigned.toNat = x.bits.toNat % 2 ^ 63 := by
    rw [unsigned, UInt64.toNat_and]
    exact Nat.and_two_pow_sub_one_eq_mod x.bits.toNat 63
  rw [← hunsigned]
  rfl

/-- The numbers above zero have the words above that of zero, up to that of infinity. -/
theorem zero_below_iff : (0 : Binary64).below x = true ↔ 0 < x.bits.toNat ∧ x.bits.toNat ≤ 2047 * 2 ^ 52 := by
  obtain ⟨s, exponent, mantissa, hword⟩ := exists_packComponents x.bits.toBitVec
  have hexponent : exponent.toNat < 2 ^ 11 := exponent.isLt
  have hmantissa : mantissa.toNat < 2 ^ 52 := mantissa.isLt
  have hbits : x.bits.toNat = s.toBitVec.toNat * 2 ^ 63 + exponent.toNat * 2 ^ 52 + mantissa.toNat := by
    rw [← toNat_packComponents, hword]
    rfl
  have hzero : (0 : Binary64).reading = .zero .positive := rfl
  rw [below_eq, hzero, reading, ← hword, unpack_packComponents]
  cases s with
  | negative =>
    -- a word with a sign is above that of infinity
    rw [show Sign.negative.toBitVec.toNat = 1 from rfl] at hbits
    split_ifs <;> exact iff_of_false nofun (by omega)
  | positive =>
    rw [show Sign.positive.toBitVec.toNat = 0 from rfl] at hbits
    split_ifs
    · exact iff_of_true rfl (by omega)
    · exact iff_of_false nofun (by omega)
    · exact iff_of_false nofun (by omega)
    · exact iff_of_true rfl (by omega)
    · exact iff_of_true rfl (by omega)

/-- **Clamping takes the greater of a number and zero**, and zero where there is no number. -/
theorem clamp_eq : x.clamp = if (0 : Binary64).below x then x else 0 := by
  by_cases hbelow : (0 : Binary64).below x = true
  · obtain ⟨hpos, hle⟩ := (zero_below_iff x).1 hbelow
    rw [if_pos hbelow, clamp_eq_self_iff, isNaN_eq, isNegative_eq]
    exact ⟨decide_eq_false (by omega), decide_eq_false (by omega)⟩
  · rw [if_neg hbelow, clamp]
    rw [zero_below_iff] at hbelow
    split_ifs with hcut
    · rfl
    · -- what is neither cut off nor above zero is zero itself
      simp only [isNaN_eq, isNegative_eq, Bool.or_eq_true, decide_eq_true_eq] at hcut
      have hnull : x.bits.toNat = 0 := by omega
      exact congrArg Binary64.mk (UInt64.toNat_inj.1 hnull)

end Binary64

end ResonantGraph
