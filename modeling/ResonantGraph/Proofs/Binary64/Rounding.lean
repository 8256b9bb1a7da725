import ResonantGraph.Proofs.Binary64.Nearest
import ResonantGraph.Proofs.Binary64.Storage

/-!
# Operations are rounded to the nearest

A stored real *denotes* a number that is not negative if it is read as zero and the number is zero, or as a
mantissa with an exponent and the number is their product, or as infinity and the number is too great to be
stored (`Binary64.Denotes`). The result of an operation denotes the number that is nearest to the result of the
same operation on numbers: of a sum, of a quotient of finite numbers, and of a product whose second factor is
finite and not below one. The number of a natural number denotes the nearest as well.

All of them come down to one step, which shifts digits out of a mantissa and keeps of them a digit and whether
anything is left (`Describes.shiftRight`); the mantissa that it leaves is rounded as the number that it
describes (`Describes.roundedMantissa`), and a second shift loses nothing
(`shiftToTargetExponent_rounded`).
-/

namespace ResonantGraph

namespace Binary64

open Float.Model
open Float.Model.UnpackedFloat (Accuracy ExtendedMantissa)

variable {x v : ℚ} {m : ℕ} {e : ℤ}

/-! ### Mantissas with what follows them -/

section Mantissas

variable {acc : Accuracy} {em : ExtendedMantissa}

/-- The rests that an accuracy allows after a mantissa. -/
def Allows : Accuracy → ℚ → Prop
  | .exact, rest => rest = 0
  | .inexact .lt, rest => 0 < rest ∧ rest < 1 / 2
  | .inexact .eq, rest => rest = 1 / 2
  | .inexact .gt, rest => 1 / 2 < rest ∧ rest < 1

/-- Whether a number begins with a mantissa whose two additional bits tell of the rest. -/
def Describes (em : ExtendedMantissa) (x : ℚ) : Prop := Allows em.accuracy (x - em.mantissa)

theorem Allows.bounds {rest : ℚ} (h : Allows acc rest) : 0 ≤ rest ∧ rest < 1 := by
  unfold Allows at h
  split at h <;> constructor <;> linarith

theorem allows_exact (n : ℕ) : Allows .exact ((n : ℚ) - n) := sub_self _

/-- The accuracy of a quotient is that of its remainder. -/
theorem allows_accuracyOfFraction {n d : ℕ} (h : n < d) :
    Allows (UnpackedFloat.accuracyOfFraction n d) (n / d) := by
  have hd : (0 : ℚ) < d := by exact_mod_cast (Nat.zero_le n).trans_lt h
  unfold UnpackedFloat.accuracyOfFraction
  split_ifs with hzero
  · rw [hzero, Nat.cast_zero, zero_div]
    rfl
  · have hn : (0 : ℚ) < n := by exact_mod_cast Nat.pos_of_ne_zero hzero
    have hlt : (n / d : ℚ) < 1 := (div_lt_one hd).2 (by exact_mod_cast h)
    rcases hcompare : compare (2 * n) d
    · have hhalf : (2 * n : ℚ) < d := by exact_mod_cast Nat.compare_eq_lt.1 hcompare
      exact ⟨by positivity, (div_lt_div_iff₀ hd two_pos).2 (by linarith)⟩
    · have hhalf : (2 * n : ℚ) = d := by exact_mod_cast Nat.compare_eq_eq.1 hcompare
      exact (div_eq_div_iff hd.ne' two_ne_zero).2 (by linarith)
    · have hhalf : (d : ℚ) < 2 * n := by exact_mod_cast Nat.compare_eq_gt.1 hcompare
      exact ⟨(div_lt_div_iff₀ two_pos hd).2 (by linarith), hlt⟩

theorem describes_ofMantissaAndAccuracy (h : Allows acc (x - m)) :
    Describes (.ofMantissaAndAccuracy m acc) x := by
  unfold Allows at h
  split at h <;> exact h

/-- A shift by one digit describes the half. -/
theorem Describes.shiftRightOne (h : Describes em x) : Describes em.shiftRightOne (x / 2) := by
  obtain ⟨m, round, sticky⟩ := em
  have hmod : (m : ℚ) = 2 * (m / 2 : ℕ) + (m % 2 : ℕ) := by
    exact_mod_cast (Nat.div_add_mod m 2).symm
  unfold Describes ExtendedMantissa.shiftRightOne at *
  -- the digit that is shifted out becomes the first bit, and the two bits become the second
  rcases Nat.mod_two_eq_zero_or_one m with hm | hm <;> rw [hm] at hmod ⊢ <;> push_cast at hmod <;>
    cases round <;> cases sticky <;>
    simp only [ExtendedMantissa.accuracy, Allows, bne_self_eq_false, Bool.or_false, Bool.or_true, Bool.or_self,
      show ((1 : ℕ) != 0) = true from rfl] at h ⊢ <;>
    first
      | linarith
      | constructor <;> linarith

theorem Describes.shiftRight (h : Describes em x) (n : ℕ) : Describes (em >>> n) (x / 2 ^ n) := by
  induction n with
  | zero =>
    rw [pow_zero, div_one]
    exact h
  | succ n ih =>
    rw [pow_succ, ← div_div]
    exact ih.shiftRightOne

/-- **A mantissa is rounded as the number that it describes.** -/
theorem Describes.roundedMantissa (h : Describes em x) : (em.roundedMantissa : ℤ) = nearestInt x := by
  obtain ⟨hnonneg, hlt⟩ := Allows.bounds h
  have hfloor : ⌊x⌋ = em.mantissa := Int.floor_eq_iff.2 ⟨by push_cast; linarith, by push_cast; linarith⟩
  have hfract : Int.fract x = x - em.mantissa := by
    rw [Int.fract, hfloor, Int.cast_natCast]
  unfold Describes at h
  rw [nearestInt, hfract, hfloor, ExtendedMantissa.roundedMantissa]
  generalize em.accuracy = acc at h
  unfold Allows at h
  split at h
  · exact (if_pos (by linarith)).symm
  · exact (if_pos (by linarith)).symm
  · rw [if_neg (by linarith), if_neg (by linarith)]
    rfl
  · rw [if_neg (by linarith), if_pos (by linarith)]
    rfl

end Mantissas

/-! ### Numbers that a reading stands for -/

/-- The least number that is too great to be stored. -/
def limit : ℚ := 2 ^ 1024

theorem limit_pos : 0 < limit := by
  unfold limit
  positivity

theorem natCast_lt_limit {n : ℕ} (h : n < 2 ^ 65) : (n : ℚ) < limit :=
  calc (n : ℚ)
    _ < 2 ^ 65 := by exact_mod_cast h
    _ ≤ limit := pow_le_pow_right₀ one_le_two (by decide)

theorem one_lt_limit : 1 < limit := by
  exact_mod_cast natCast_lt_limit (n := 1) (by decide)

/-- Whether a reading stands for a number that is not negative. -/
inductive StandsFor : UnpackedFloat → ℚ → Prop
  /-- Zero stands for zero. -/
  | zero : StandsFor (.zero .positive) 0
  /-- A mantissa with an exponent stands for their product. -/
  | finite {m : ℕ} {e : ℤ} (hm : 0 < m) (h : Canonical m e) (he : e ≤ 971) :
    StandsFor (.finite .positive m e hm) (m * 2 ^ e)
  /-- Infinity stands for everything that is too great to be stored. -/
  | infinity {v : ℚ} (h : limit ≤ v) : StandsFor (.infinity .positive) v

variable {f g : UnpackedFloat} {w : ℚ}

theorem StandsFor.nonneg (h : StandsFor f v) : 0 ≤ v := by
  cases h with
  | zero => exact le_rfl
  | finite => positivity
  | infinity h => exact limit_pos.le.trans h

theorem StandsFor.stored_eq (h : StandsFor f v) : stored f = f := by
  cases h with
  | zero => rfl
  | finite hm h he => exact stored_eq_self ⟨h, he⟩
  | infinity => exact stored_infinity .positive

theorem standsFor_zero : StandsFor (stored (.zero .positive)) (nearest 0) := by
  rw [nearest_zero]
  exact .zero

theorem standsFor_infinity (h : limit ≤ v) : StandsFor (stored (.infinity .positive)) (nearest v) := by
  have hself : nearest limit = limit := nearest_two_zpow (e := (1024 : ℕ)) (by decide)
  exact .infinity (hself.symm.trans_le (nearest_monotoneOn limit_pos.le (limit_pos.le.trans h) h))

theorem standsFor_finite (hm : 0 < m) (h : Canonical m e) :
    StandsFor (stored (.finite .positive m e hm)) (m * 2 ^ e) := by
  rw [stored_finite .positive hm h]
  split_ifs with he
  · exact .finite hm h he
  · refine .infinity ?_
    have hfull := h.full.resolve_right (by omega)
    calc limit
        _ = (2 ^ 52 : ℕ) * 2 ^ (972 : ℤ) := by
          rw [limit, Nat.cast_pow, Nat.cast_ofNat, ← Nat.cast_ofNat (n := 972), zpow_natCast, ← pow_add]
        _ ≤ m * 2 ^ e := by
          gcongr
          · norm_num
          · omega

/-- What a reading stands for is not rounded any more. -/
theorem StandsFor.stored (h : StandsFor f v) : StandsFor (stored f) (nearest v) := by
  rw [h.stored_eq]
  cases h with
  | zero => exact standsFor_zero
  | finite hm h he => exact (nearest_mul_zpow h.lt h.le).symm ▸ .finite hm h he
  | infinity h => exact standsFor_infinity h

/-! ### Rounding -/

theorem zpow_le_mul_zpow (e : ℤ) (hm : 0 < m) : (2 : ℚ) ^ (totalExponent m e - 1) ≤ m * 2 ^ e := by
  have hle : (2 : ℚ) ^ m.log2 ≤ m := by exact_mod_cast Nat.log2_self_le hm.ne'
  rw [show totalExponent m e - 1 = m.log2 + e by unfold totalExponent; ring, zpow_add₀ two_ne_zero, zpow_natCast]
  gcongr

theorem add_one_mul_zpow_le (m : ℕ) (e : ℤ) : ((m + 1 : ℕ) * 2 ^ e : ℚ) ≤ 2 ^ totalExponent m e := by
  have hle : ((m + 1 : ℕ) : ℚ) ≤ 2 ^ (m.log2 + 1) := by exact_mod_cast Nat.lt_log2_self
  rw [show totalExponent m e = (m.log2 + 1 : ℕ) + e by unfold totalExponent; push_cast; ring,
    zpow_add₀ two_ne_zero, zpow_natCast]
  gcongr

/-- The exponent that the format prescribes is the last place of the number. Only if there is no digit before
the point does this need that no digit is missing. -/
theorem targetExponent_eq_lastPlace {acc : Accuracy} (hacc : Allows acc (x - m)) (hx : 0 < x)
    (h : 0 < m ∨ e ≤ lastPlace (x * 2 ^ e)) :
    format.targetExponent (totalExponent m e) = lastPlace (x * 2 ^ e) := by
  obtain ⟨hlow, hhigh⟩ := hacc.bounds
  have hpow : (0 : ℚ) < 2 ^ e := by positivity
  have hpos : 0 < x * 2 ^ e := mul_pos hx hpow
  have hbelow : x * 2 ^ e < 2 ^ totalExponent m e := by
    refine lt_of_lt_of_le (mul_lt_mul_of_pos_right ?_ hpow) (add_one_mul_zpow_le m e)
    push_cast
    linarith
  have htarget : format.targetExponent (totalExponent m e) = max (totalExponent m e - 53) (-1074) := rfl
  rcases m.eq_zero_or_pos with rfl | hm
  · have he := h.resolve_left (lt_irrefl 0)
    have htotal : totalExponent 0 e = 1 + e := rfl
    -- the last place is so great that the number would have digits before it, or it is the least
    have hleast : lastPlace (x * 2 ^ e) = -1074 := by
      by_contra hnot
      have hplace := le_lastPlace (x * 2 ^ e)
      have hfull := zpow_lastPlace_le hpos (by omega)
      have hpowers : (2 : ℚ) ^ totalExponent 0 e ≤ 2 ^ (lastPlace (x * 2 ^ e) + 52) :=
        zpow_le_zpow_right₀ one_le_two (by omega)
      linarith
    omega
  · rw [htarget, lastPlace_eq ((zpow_le_mul_zpow e hm).trans ?_) hbelow]
    exact mul_le_mul_of_nonneg_right (by linarith) hpow.le

/-- The second of the two shifts that rounding makes is by one digit at most, and the digit is zero. -/
theorem shiftToTargetExponent_rounded {r : ℕ} {t : ℤ} (hr : r ≤ 2 ^ 53) (ht : -1074 ≤ t)
    (hfull : 2 ^ 52 ≤ r ∨ t = -1074) :
    ∃ m e, UnpackedFloat.shiftToTargetExponent format r t .exact = (⟨m, false, false⟩, e) ∧ Canonical m e ∧
      (m * 2 ^ e : ℚ) = r * 2 ^ t := by
  have htarget : format.targetExponent (totalExponent r t) = max ((r.log2 : ℤ) + 1 + t - 53) (-1074) := rfl
  unfold UnpackedFloat.shiftToTargetExponent UnpackedFloat.shiftToExponent
  -- there is a digit too many only if the mantissa was rounded up to a power of two
  rcases hr.lt_or_eq with hlt | rfl
  · have hlog : r.log2 ≤ 52 := by
      rcases r.eq_zero_or_pos with rfl | hpos
      · decide
      · exact Nat.le_of_lt_succ ((Nat.log2_lt hpos.ne').2 hlt)
    have hshift : (format.targetExponent (totalExponent r t) - t).toNat = 0 := by omega
    refine ⟨r, t, ?_, ⟨hlt, ht, hfull⟩, rfl⟩
    simp only [hshift, Nat.cast_zero, add_zero]
    rfl
  · have hlog : (2 ^ 53 : ℕ).log2 = 53 := by decide
    have hshift : (format.targetExponent (totalExponent (2 ^ 53) t) - t).toNat = 1 := by omega
    refine ⟨2 ^ 52, t + 1, ?_, ⟨by decide, by omega, .inl le_rfl⟩, ?_⟩
    · simp only [hshift]
      rfl
    · rw [zpow_add₀ two_ne_zero]
      push_cast
      ring

/-- **A mantissa with an accuracy is rounded to the nearest.** -/
theorem standsFor_roundWithAccuracy {acc : Accuracy} (hacc : Allows acc (x - m)) (hx : 0 < x)
    (he : e ≤ lastPlace (x * 2 ^ e)) :
    StandsFor (stored (.roundWithAccuracy format .positive m e acc)) (nearest (x * 2 ^ e)) := by
  have hpos : 0 < x * 2 ^ e := by positivity
  have htarget := targetExponent_eq_lastPlace hacc hx (.inr he)
  obtain ⟨k, hk⟩ := Int.le.dest he
  generalize hv : x * 2 ^ e = v at *
  -- the first shift leaves a mantissa of which the nearest integer is taken
  have hfirst : UnpackedFloat.shiftToTargetExponent format m e acc =
      (ExtendedMantissa.ofMantissaAndAccuracy m acc >>> k, lastPlace v) := by
    have hshift : (lastPlace v - e).toNat = k := by omega
    simp only [UnpackedFloat.shiftToTargetExponent, UnpackedFloat.shiftToExponent, htarget, hshift, hk]
  have hscaled : x / 2 ^ k = v / 2 ^ lastPlace v := by
    rw [← hk, zpow_add₀ two_ne_zero, zpow_natCast, ← hv]
    field_simp
  have hrounded := ((describes_ofMantissaAndAccuracy hacc).shiftRight k).roundedMantissa
  rw [hscaled] at hrounded
  obtain ⟨hle, hfull⟩ := nearestInt_bounds hpos
  rw [← hrounded] at hle hfull
  -- the second one keeps what was rounded
  obtain ⟨m', e', hsecond, hcanonical, hvalue⟩ := shiftToTargetExponent_rounded (by exact_mod_cast hle)
    (le_lastPlace v) (hfull.imp_left fun h => by exact_mod_cast h)
  have hnearest : nearest v = m' * 2 ^ e' := by
    rw [hvalue, nearest, ← hrounded, Int.cast_natCast]
  unfold UnpackedFloat.roundWithAccuracy
  simp only [hfirst, hsecond, hnearest]
  split_ifs with hzero
  · rw [hzero, Nat.cast_zero, zero_mul]
    exact .zero
  · exact standsFor_finite (Nat.pos_of_ne_zero hzero) hcanonical

theorem standsFor_exact (hm : 0 < m) (h : 2 ^ 52 ≤ m ∨ e ≤ -1074) :
    StandsFor (stored (.roundWithAccuracy format .positive m e .exact)) (nearest (m * 2 ^ e)) :=
  standsFor_roundWithAccuracy (allows_exact m) (by exact_mod_cast hm) (le_lastPlace_mul_zpow h)

/-- More digits and a smaller exponent make the same number. -/
theorem shiftLeft_mul_zpow (m k : ℕ) (e : ℤ) : ((m <<< k : ℕ) : ℚ) * 2 ^ (e - k) = m * 2 ^ e := by
  rw [Nat.shiftLeft_eq, zpow_sub₀ two_ne_zero, zpow_natCast]
  push_cast
  field_simp

theorem standsFor_round (hm : 0 < m) :
    StandsFor (stored (.round format .positive m e)) (nearest (m * 2 ^ e)) := by
  have htarget : format.targetExponent (totalExponent m e) = lastPlace (m * 2 ^ e) :=
    targetExponent_eq_lastPlace (allows_exact m) (by exact_mod_cast hm) (.inl hm)
  unfold UnpackedFloat.round UnpackedFloat.decreaseExponent
  simp only [htarget]
  generalize hk : (e - lastPlace (m * 2 ^ e)).toNat = k
  have hpos : (0 : ℚ) < (m <<< k : ℕ) := by
    rw [Nat.shiftLeft_eq]
    positivity
  rw [← shiftLeft_mul_zpow m k e] at hk ⊢
  exact standsFor_roundWithAccuracy (allows_exact _) hpos (by omega)

theorem standsFor_normalize (n : ℕ) (e : ℤ) :
    StandsFor (stored (.normalize format n e .positive)) (nearest (n * 2 ^ e)) := by
  unfold UnpackedFloat.normalize
  rcases n.eq_zero_or_pos with rfl | hpos
  · rw [show ((0 : ℕ) : ℚ) * 2 ^ e = 0 by simp]
    exact standsFor_zero
  · rw [show compare (n : ℤ) 0 = .gt from Int.compare_eq_gt.2 (by exact_mod_cast hpos)]
    exact standsFor_round hpos

/-! ### Operations on readings -/

theorem standsFor_add (hf : StandsFor f v) (hg : StandsFor g w) :
    StandsFor (stored (.add format f g)) (nearest (v + w)) := by
  have hv := hf.nonneg
  have hw := hg.nonneg
  cases hf with
  | infinity hlarge =>
    have hsum : UnpackedFloat.add format (.infinity .positive) g = .infinity .positive := by
      cases hg <;> rfl
    rw [hsum]
    exact standsFor_infinity (hlarge.trans (le_add_of_nonneg_right hw))
  | zero =>
    have hsum : UnpackedFloat.add format (.zero .positive) g = g := by
      cases hg <;> rfl
    rw [hsum, zero_add]
    exact hg.stored
  | @finite m e hm h he =>
    cases hg with
    | infinity hlarge => exact standsFor_infinity (hlarge.trans (le_add_of_nonneg_left hv))
    | zero =>
      rw [add_zero]
      exact (StandsFor.finite hm h he).stored
    | @finite m' e' hm' h' he' =>
      -- both are written with the smaller exponent
      have hvalue : (m * 2 ^ e + m' * 2 ^ e' : ℚ) =
          ((m <<< (e - min e e').toNat + m' <<< (e' - min e e').toNat : ℕ) : ℚ) * 2 ^ min e e' := by
        have h1 := shiftLeft_mul_zpow m (e - min e e').toNat e
        have h2 := shiftLeft_mul_zpow m' (e' - min e e').toNat e'
        rw [show e - ((e - min e e').toNat : ℤ) = min e e' by omega] at h1
        rw [show e' - ((e' - min e e').toNat : ℤ) = min e e' by omega] at h2
        rw [Nat.cast_add, add_mul, h1, h2]
      rw [hvalue]
      exact standsFor_normalize _ _

theorem standsFor_mul (hf : StandsFor f v) (hg : StandsFor g w) (hone : 1 ≤ w) (hw : w < limit) :
    StandsFor (stored (.mul format f g)) (nearest (v * w)) := by
  have hv := hf.nonneg
  cases hg with
  | infinity hlarge => exact absurd hw hlarge.not_gt
  | zero => exact absurd hone (by norm_num)
  | @finite m' e' hm' h' he' =>
    cases hf with
    | infinity hlarge => exact standsFor_infinity (hlarge.trans (le_mul_of_one_le_right hv hone))
    | zero =>
      rw [zero_mul]
      exact standsFor_zero
    | @finite m e hm h he =>
      have hvalue : (m * 2 ^ e * (m' * 2 ^ e') : ℚ) = ((m * m' : ℕ) : ℚ) * 2 ^ (e + e') := by
        rw [zpow_add₀ two_ne_zero]
        push_cast
        ring
      rw [hvalue]
      refine standsFor_exact (Nat.mul_pos hm hm') ?_
      -- the product has enough digits if one of the factors has, and else the exponent is small
      rcases h.full with hfull | rfl
      · exact .inl (hfull.trans (Nat.le_mul_of_pos_right m hm'))
      · rcases h'.full with hfull | rfl
        · exact .inl (hfull.trans (Nat.le_mul_of_pos_left m' hm))
        · exact .inr (by decide)

/-- The exponent that a quotient is computed with is not above its last place. -/
theorem targetExponent_le_lastPlace {m' : ℕ} (hm : 0 < m) (e : ℤ) (hm' : 0 < m') (e' : ℤ) :
    format.targetExponent (totalExponent m e - totalExponent m' e') ≤
      lastPlace (m * 2 ^ e / (m' * 2 ^ e')) := by
  have hpos : (0 : ℚ) < m' * 2 ^ e' := by positivity
  refine max_le (le_lastPlace_of_zpow_le ?_) (le_lastPlace _)
  have hbelow : (m' * 2 ^ e' : ℚ) ≤ 2 ^ totalExponent m' e' := by
    refine le_trans ?_ (add_one_mul_zpow_le m' e')
    gcongr
    omega
  rw [le_div_iff₀ hpos]
  calc (2 : ℚ) ^ (totalExponent m e - totalExponent m' e' - format.mantissaBits + 52) * (m' * 2 ^ e')
      _ ≤ 2 ^ (totalExponent m e - totalExponent m' e' - format.mantissaBits + 52) * 2 ^ totalExponent m' e' := by
        gcongr
      _ = 2 ^ (totalExponent m e - 1) := by
        rw [← zpow_add₀ two_ne_zero, show (format.mantissaBits : ℤ) = 53 from rfl]
        congr 1
        ring
      _ ≤ m * 2 ^ e := zpow_le_mul_zpow e hm

theorem standsFor_div (hf : StandsFor f v) (hg : StandsFor g w) (hv : v < limit) (hpos : 0 < w)
    (hw : w < limit) : StandsFor (stored (.div format f g)) (nearest (v / w)) := by
  cases hg with
  | infinity hlarge => exact absurd hw hlarge.not_gt
  | zero => exact absurd hpos (lt_irrefl 0)
  | @finite m' e' hm' h' he' =>
    cases hf with
    | infinity hlarge => exact absurd hv hlarge.not_gt
    | zero =>
      rw [zero_div]
      exact standsFor_zero
    | @finite m e hm h he =>
      change StandsFor (stored (.roundWithAccuracy format .positive _ _ _)) _
      have hdivisor : (0 : ℚ) < m' := by exact_mod_cast hm'
      have hle := targetExponent_le_lastPlace hm e hm' e'
      generalize ht : min (e - e') (format.targetExponent (totalExponent m e - totalExponent m' e')) = t
      generalize hk : (e - e' - t).toNat = k
      have hvalue : ((m <<< k : ℕ) / m' : ℚ) * 2 ^ t = m * 2 ^ e / (m' * 2 ^ e') := by
        have hshift := shiftLeft_mul_zpow m k (e - e')
        rw [show e - e' - (k : ℤ) = t by omega, zpow_sub₀ two_ne_zero] at hshift
        rw [div_mul_eq_mul_div, hshift]
        field_simp
      -- what the quotient of the mantissas leaves is the remainder over the divisor
      have hacc : Allows (UnpackedFloat.accuracyOfFraction (m <<< k % m') m')
          ((m <<< k : ℕ) / m' - (m <<< k / m' : ℕ) : ℚ) := by
        have hmod : ((m <<< k : ℕ) : ℚ) = m' * (m <<< k / m' : ℕ) + (m <<< k % m' : ℕ) := by
          exact_mod_cast (Nat.div_add_mod (m <<< k) m').symm
        have hrest : ((m <<< k : ℕ) / m' - (m <<< k / m' : ℕ) : ℚ) = (m <<< k % m' : ℕ) / m' := by
          rw [eq_div_iff hdivisor.ne', sub_mul, div_mul_cancel₀ _ hdivisor.ne', hmod]
          ring
        rw [hrest]
        exact allows_accuracyOfFraction (Nat.mod_lt _ hm')
      rw [← hvalue] at hle ⊢
      refine standsFor_roundWithAccuracy hacc (div_pos ?_ hdivisor) (by omega)
      rw [Nat.shiftLeft_eq]
      positivity

/-! ### Stored reals -/

/-- Whether a stored real denotes a number that is not negative. -/
def Denotes (x : Binary64) (v : ℚ) : Prop := StandsFor x.reading v

variable {a b : Binary64}

theorem denotes_zero : Denotes 0 0 := StandsFor.zero

theorem denotes_of_reading {hm : 0 < m} (ha : a.reading = .finite .positive m e hm)
    (hv : m * 2 ^ e = v) : a.Denotes v := by
  have hstorable : Storable (.finite .positive m e hm) := ha ▸ storable_unpack a.bits.toBitVec
  rw [Denotes, ha, ← hv]
  exact .finite hm hstorable.1 hstorable.2

theorem denotes_one : Denotes 1 1 := denotes_of_reading (m := 2 ^ 52) (e := -52) rfl (by norm_num)

/-- **A sum denotes the nearest to the sum.** -/
theorem Denotes.add (ha : a.Denotes v) (hb : b.Denotes w) : (a + b).Denotes (nearest (v + w)) := by
  rw [Denotes, reading_add]
  exact standsFor_add ha hb

/-- **A product denotes the nearest to the product**, if the second factor is neither below one nor infinite. -/
theorem Denotes.mul (ha : a.Denotes v) (hb : b.Denotes w) (hone : 1 ≤ w) (hw : w < limit) :
    (a * b).Denotes (nearest (v * w)) := by
  rw [Denotes, reading_mul]
  exact standsFor_mul ha hb hone hw

/-- **A quotient denotes the nearest to the quotient**, if none of the two numbers is infinite and the second
is not zero. -/
theorem Denotes.div (ha : a.Denotes v) (hb : b.Denotes w) (hv : v < limit) (hpos : 0 < w) (hw : w < limit) :
    (a / b).Denotes (nearest (v / w)) := by
  rw [Denotes, reading_div]
  exact standsFor_div ha hb hv hpos hw

theorem unpack_toFloat_ofNat {n : ℕ} (hn : n < 2 ^ 53) :
    n.toUInt64.toFloat.toModel.unpack = stored (.normalize format n 0 .positive) := by
  have hword : n.toUInt64.toNat = n := UInt64.toNat_ofNat_of_lt (hn.trans (by decide))
  change stored (.normalize format n.toUInt64.toNat 0 .positive) = _
  rw [hword]

/-- A number that may have more than 53 digits is given as many zeros, so that some of its digits are shifted
out. -/
theorem standsFor_ofScientific {n : ℕ} (hn : 2 ^ 53 ≤ n) :
    StandsFor (stored (.ofScientific format n 0)) (nearest n) := by
  have hlarge : ¬(0 : ℤ) > 2 ^ format.exponentBits := by decide
  have hsmall : ¬(0 : ℤ) < -((2 ^ format.exponentBits : ℤ) + n.log2) := by
    have : (0 : ℤ) ≤ 2 ^ format.exponentBits := by positivity
    omega
  have hdigits : 2 ^ 52 ≤ n <<< 53 := by
    rw [Nat.shiftLeft_eq]
    omega
  have hvalue := shiftLeft_mul_zpow n 53 0
  rw [zpow_zero, mul_one] at hvalue
  have h := standsFor_exact (lt_of_lt_of_le (by decide) hdigits) (.inl hdigits) (e := 0 - (53 : ℕ))
  rw [hvalue] at h
  rw [UnpackedFloat.ofScientific, dif_neg (by omega), if_neg hlarge, if_neg hsmall, if_pos le_rfl]
  unfold UnpackedFloat.mul
  simp only [Int.toNat_zero, pow_zero, mul_one, add_zero]
  exact h

/-- **The number of a natural number denotes the nearest to it.** -/
theorem denotes_ofNat (n : ℕ) : (ofNat n).Denotes (nearest n) := by
  change StandsFor (reading (ofFloat (Float.ofScientific n false 0))) _
  unfold Float.ofScientific
  by_cases hn : n < 2 ^ 53
  · -- an exact number is multiplied by one
    have hexact : StandsFor n.toUInt64.toFloat.toModel.unpack n := by
      have h := standsFor_normalize n 0
      rwa [← unpack_toFloat_ofNat hn, zpow_zero, mul_one, nearest_natCast hn] at h
    have h := standsFor_mul hexact denotes_one le_rfl one_lt_limit
    rw [mul_one, ← unpack_toFloat] at h
    rw [dif_pos ⟨hn, by decide⟩]
    exact h
  · rw [dif_neg fun h => hn h.1]
    exact standsFor_ofScientific (not_lt.1 hn)

/-- Clamping keeps a number that is not negative. -/
theorem Denotes.clamp (h : a.Denotes v) : a.clamp.Denotes v := by
  have hzero : (0 : Binary64).reading = .zero .positive := rfl
  rw [clamp_eq, below_eq, hzero]
  unfold Denotes at *
  generalize ha : a.reading = f at h
  cases h with
  | zero => exact denotes_zero
  | finite hm h he => exact ha.symm ▸ .finite hm h he
  | infinity h => exact ha.symm ▸ .infinity h

/-! ### Order -/

theorem isLE_then_iff {e' : ℤ} {m' : ℕ} :
    ((compare e e').then (compare m m')).isLE = true ↔ e < e' ∨ e = e' ∧ m ≤ m' := by
  rcases h : compare e e' with _ | _ | _
  · have := Int.compare_eq_lt.1 h
    simp [this]
  · have := Int.compare_eq_eq.1 h
    simp [this, Nat.isLE_compare]
  · have := Int.compare_eq_gt.1 h
    simp
    omega

theorem isGE_then_iff {e' : ℤ} {m' : ℕ} :
    ((compare e e').then (compare m m')).isGE = true ↔ e' < e ∨ e' = e ∧ m' ≤ m := by
  rw [← Ordering.isLE_swap, Ordering.swap_then, Int.compare_swap, Nat.compare_swap, isLE_then_iff]

theorem mul_zpow_lt_limit (h : Canonical m e) (he : e ≤ 971) : (m * 2 ^ e : ℚ) < limit := by
  have hlt : (m : ℚ) < 2 ^ 53 := by exact_mod_cast h.lt
  calc (m * 2 ^ e : ℚ)
      _ < 2 ^ 53 * 2 ^ e := by gcongr
      _ ≤ 2 ^ 53 * 2 ^ (971 : ℤ) := by
        gcongr
        exact one_le_two
      _ = limit := by
        rw [limit, ← Nat.cast_ofNat (n := 971), zpow_natCast, ← pow_add]

/-- Of two canonical forms the greater one is that with the greater exponent. -/
theorem le_of_mul_zpow_le {e' : ℤ} {m' : ℕ} (h : Canonical m e) (h' : Canonical m' e')
    (hle : (m * 2 ^ e : ℚ) ≤ m' * 2 ^ e') : e < e' ∨ e = e' ∧ m ≤ m' := by
  rcases lt_trichotomy e e' with hlt | rfl | hgt
  · exact .inl hlt
  · have hpos : (0 : ℚ) < 2 ^ e := by positivity
    exact .inr ⟨rfl, by exact_mod_cast le_of_mul_le_mul_right hle hpos⟩
  · have hle' := h'.le
    have hfull : (2 : ℚ) ^ 52 ≤ m := by exact_mod_cast h.full.resolve_right (by omega)
    have hlt : (m' : ℚ) < 2 ^ 53 := by exact_mod_cast h'.lt
    have habove : (m' * 2 ^ e' : ℚ) < m * 2 ^ e :=
      calc (m' * 2 ^ e' : ℚ)
        _ < 2 ^ 53 * 2 ^ e' := by gcongr
        _ ≤ 2 ^ 52 * 2 ^ e := two_pow_mul_zpow_le hgt
        _ ≤ m * 2 ^ e := by gcongr
    exact absurd hle habove.not_ge

/-- **The order is that of numbers.** -/
theorem Denotes.atLeast (ha : a.Denotes v) (hb : b.Denotes w) (h : v ≤ w) : b.atLeast a = true := by
  rw [atLeast_eq]
  unfold Denotes at ha hb
  generalize a.reading = f at ha
  generalize b.reading = g at hb
  cases ha with
  | zero => cases hb <;> rfl
  | @finite m e hm hcanonical he =>
    cases hb with
    | zero => exact absurd h (not_le.2 (by positivity))
    | infinity => rfl
    | finite hm' hcanonical' he' => exact isLE_then_iff.2 (le_of_mul_zpow_le hcanonical hcanonical' h)
  | infinity hlarge =>
    cases hb with
    | zero => exact absurd (hlarge.trans h) limit_pos.not_ge
    | infinity => rfl
    | finite hm' hcanonical' he' => exact absurd (hlarge.trans h) (mul_zpow_lt_limit hcanonical' he').not_ge

theorem le_trans_reading {f g h : UnpackedFloat} (hfg : f.le g = true) (hgh : g.le h = true) : f.le h = true := by
  unfold UnpackedFloat.le at *
  -- most combinations are refuted by the first two already
  rcases f with (s | s) | _ | (s | s) | ⟨s | s, m, e, hm⟩ <;>
    rcases g with (s' | s') | _ | (s' | s') | ⟨s' | s', m', e', hm'⟩ <;>
    first
      | contradiction
      | rcases h with (s | s) | _ | (s | s) | ⟨s | s, m'', e'', hm''⟩ <;>
        first
          | rfl
          | contradiction
          | simp only [UnpackedFloat.compare, Option.any_some, isLE_then_iff, Ordering.isLE_swap,
              isGE_then_iff] at *
            omega

theorem atLeast_trans {a b c : Binary64} (hab : a.atLeast b = true) (hbc : b.atLeast c = true) :
    a.atLeast c = true := by
  rw [atLeast_eq] at *
  exact le_trans_reading hbc hab

end Binary64

end ResonantGraph
