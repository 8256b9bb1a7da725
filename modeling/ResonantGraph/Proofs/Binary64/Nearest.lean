import Mathlib.Algebra.Order.Field.Power
import Mathlib.Algebra.Order.Floor.Ring
import Mathlib.Data.Int.Log
import Mathlib.Data.Rat.Floor
import Mathlib.Tactic.Linarith
import Mathlib.Tactic.NormNum
import Mathlib.Tactic.Positivity
import Mathlib.Tactic.Ring

/-!
# Rounding to the nearest number of 53 binary digits

A number that is not negative is rounded by writing it as a multiple of a power of two and rounding the factor
to the nearest integer, to the even one where two are equally near. The exponent of the power, the *last
place* of the number (`Binary64.lastPlace`), leaves the factor 53 binary digits; it does not fall below the
last place of the smallest numbers, and there is no bound from above.

This function, `Binary64.nearest`, leaves every number alone that has 53 digits before its last place
(`Binary64.nearest_mul_zpow`) and does not change an order (`Binary64.nearest_monotoneOn`). Within a last place
that is the monotonicity of rounding to an integer. Between two last places a power of two stands.
-/

namespace ResonantGraph

namespace Binary64

/-! ### To the nearest integer -/

/-- The integer nearest to a number, and the even one of two that are equally near. -/
def nearestInt (x : ℚ) : ℤ :=
  if Int.fract x < 1 / 2 then ⌊x⌋ else if 1 / 2 < Int.fract x then ⌊x⌋ + 1 else ⌊x⌋ + ⌊x⌋ % 2

variable {x y v w : ℚ} {e : ℤ}

theorem floor_le_nearestInt : ⌊x⌋ ≤ nearestInt x := by
  unfold nearestInt
  split_ifs <;> omega

theorem nearestInt_le_floor_add_one : nearestInt x ≤ ⌊x⌋ + 1 := by
  unfold nearestInt
  split_ifs <;> omega

theorem nearestInt_intCast (n : ℤ) : nearestInt n = n := by
  simp [nearestInt]

theorem nearestInt_mono (h : x ≤ y) : nearestInt x ≤ nearestInt y := by
  rcases (Int.floor_mono h).lt_or_eq with hlt | heq
  · exact nearestInt_le_floor_add_one.trans ((Int.add_one_le_of_lt hlt).trans floor_le_nearestInt)
  · -- with the same integer below, the greater rest is rounded at least as far
    have hfract : Int.fract x ≤ Int.fract y := by
      have hx := Int.floor_add_fract x
      have hy := Int.floor_add_fract y
      rw [heq] at hx
      linarith
    unfold nearestInt
    rw [heq]
    split_ifs <;> first | omega | linarith

/-! ### The last place -/

/-- The exponent of the last of 53 binary digits of a number, or that of the smallest numbers. -/
def lastPlace (v : ℚ) : ℤ := max (Int.log 2 v + 1 - 53) (-1074)

theorem le_lastPlace (v : ℚ) : -1074 ≤ lastPlace v := le_max_right ..

theorem lastPlace_le_iff (h : 0 < v) : lastPlace v ≤ e ↔ v < 2 ^ (e + 53) ∧ -1074 ≤ e := by
  have hlog := Int.lt_zpow_iff_log_lt (b := 2) (by decide) (x := e + 53) h
  rw [Nat.cast_ofNat] at hlog
  rw [lastPlace, max_le_iff, hlog]
  omega

/-- A number has no digits before its last place but 53. -/
theorem lt_zpow_lastPlace (h : 0 < v) : v < 2 ^ (lastPlace v + 53) := ((lastPlace_le_iff h).1 le_rfl).1

/-- And it has all of them, if its last place is not the least. -/
theorem zpow_lastPlace_le (h : 0 < v) (hleast : -1074 < lastPlace v) : 2 ^ (lastPlace v + 52) ≤ v := by
  by_contra hlt
  have hplace : lastPlace v ≤ lastPlace v - 1 := by
    refine (lastPlace_le_iff h).2 ⟨?_, by omega⟩
    rw [show lastPlace v - 1 + 53 = lastPlace v + 52 by ring]
    exact not_le.1 hlt
  omega

theorem le_lastPlace_of_zpow_le (h : 2 ^ (e + 52) ≤ v) : e ≤ lastPlace v := by
  have hpos : 0 < v := lt_of_lt_of_le (by positivity) h
  by_contra hlt
  have hbelow : v < 2 ^ (e + 52) :=
    calc v
      _ < 2 ^ (lastPlace v + 53) := lt_zpow_lastPlace hpos
      _ ≤ 2 ^ (e + 52) := zpow_le_zpow_right₀ one_le_two (by omega)
  exact h.not_gt hbelow

/-- The last place of a number between two powers of two. -/
theorem lastPlace_eq (hlow : 2 ^ (e - 1) ≤ v) (hhigh : v < 2 ^ e) : lastPlace v = max (e - 53) (-1074) := by
  have hpos : 0 < v := lt_of_lt_of_le (by positivity) hlow
  refine le_antisymm ((lastPlace_le_iff hpos).2 ⟨?_, le_max_right ..⟩) (max_le ?_ (le_lastPlace v))
  · exact hhigh.trans_le (zpow_le_zpow_right₀ one_le_two (by omega))
  · exact le_lastPlace_of_zpow_le (by rwa [sub_add, show (53 : ℤ) - 52 = 1 by norm_num])

theorem le_lastPlace_mul_zpow {m : ℕ} (h : 2 ^ 52 ≤ m ∨ e ≤ -1074) : e ≤ lastPlace (m * 2 ^ e) := by
  rcases h with hfull | hleast
  · refine le_lastPlace_of_zpow_le ?_
    rw [zpow_add₀ two_ne_zero, mul_comm]
    exact mul_le_mul_of_nonneg_right (by exact_mod_cast hfull) (by positivity)
  · exact hleast.trans (le_lastPlace _)

/-- A number in units of its last place has 53 digits, as long as the last place is not the least. -/
theorem div_lastPlace_bounds (h : 0 < v) :
    v / 2 ^ lastPlace v ≤ (2 ^ 53 : ℤ) ∧ ((2 ^ 52 : ℤ) ≤ v / 2 ^ lastPlace v ∨ lastPlace v = -1074) := by
  have hpos : (0 : ℚ) < 2 ^ lastPlace v := by positivity
  have hsplit (k : ℕ) : ((2 ^ k : ℤ) : ℚ) * 2 ^ lastPlace v = 2 ^ (lastPlace v + k) := by
    rw [zpow_add₀ two_ne_zero, mul_comm, zpow_natCast]
    push_cast
    rfl
  refine ⟨?_, ?_⟩
  · rw [div_le_iff₀ hpos, hsplit]
    exact (lt_zpow_lastPlace h).le
  · rcases (le_lastPlace v).eq_or_lt with heq | hlt
    · exact .inr heq.symm
    · rw [le_div_iff₀ hpos, hsplit]
      exact .inl (zpow_lastPlace_le h hlt)

/-- What has 53 digits is below what has 53 digits from a later place on. -/
theorem two_pow_mul_zpow_le {e' : ℤ} (h : e < e') : (2 ^ 53 * 2 ^ e : ℚ) ≤ 2 ^ 52 * 2 ^ e' :=
  calc (2 ^ 53 * 2 ^ e : ℚ)
      _ = 2 ^ 52 * 2 ^ (e + 1) := by
        rw [zpow_add₀ two_ne_zero]
        ring
      _ ≤ 2 ^ 52 * 2 ^ e' := by
        gcongr
        · exact one_le_two
        · omega

/-! ### To the nearest number -/

/-- The number nearest to a number that is not negative, among those with 53 binary digits and no digit below
the last place of the smallest numbers. -/
def nearest (v : ℚ) : ℚ := nearestInt (v / 2 ^ lastPlace v) * 2 ^ lastPlace v

theorem nearestInt_bounds (h : 0 < v) :
    nearestInt (v / 2 ^ lastPlace v) ≤ 2 ^ 53 ∧
      (2 ^ 52 ≤ nearestInt (v / 2 ^ lastPlace v) ∨ lastPlace v = -1074) := by
  obtain ⟨hle, hfull⟩ := div_lastPlace_bounds h
  refine ⟨?_, hfull.imp_left fun hfull => ?_⟩
  · exact (nearestInt_mono hle).trans_eq (nearestInt_intCast _)
  · exact (nearestInt_intCast _).symm.trans_le (nearestInt_mono hfull)

theorem nearest_zero : nearest 0 = 0 := by
  simp [nearest, nearestInt]

theorem nearest_nonneg (h : 0 ≤ v) : 0 ≤ nearest v := by
  have hint : nearestInt (0 : ℤ) ≤ nearestInt (v / 2 ^ lastPlace v) := nearestInt_mono (by push_cast; positivity)
  rw [nearestInt_intCast] at hint
  exact mul_nonneg (by exact_mod_cast hint) (by positivity)

/-- **Rounding does not change an order.** -/
theorem nearest_monotoneOn : MonotoneOn nearest (Set.Ici 0) := by
  intro v (hv : 0 ≤ v) w (hw : 0 ≤ w) hle
  rcases hv.eq_or_lt with rfl | hv
  · rw [nearest_zero]
    exact nearest_nonneg hw
  have hw : 0 < w := hv.trans_le hle
  have hlast : lastPlace v ≤ lastPlace w :=
    (lastPlace_le_iff hv).2 ⟨hle.trans_lt (lt_zpow_lastPlace hw), le_lastPlace w⟩
  rcases hlast.lt_or_eq with hlt | heq
  · -- a number with 53 digits stands between the two
    have hv53 : (nearestInt (v / 2 ^ lastPlace v) : ℚ) ≤ 2 ^ 53 := by exact_mod_cast (nearestInt_bounds hv).1
    have hw52 : (2 ^ 52 : ℚ) ≤ nearestInt (w / 2 ^ lastPlace w) := by
      have hleast := le_lastPlace v
      exact_mod_cast (nearestInt_bounds hw).2.resolve_right (by omega)
    calc nearest v
        _ ≤ 2 ^ 53 * 2 ^ lastPlace v := mul_le_mul_of_nonneg_right hv53 (by positivity)
        _ ≤ 2 ^ 52 * 2 ^ lastPlace w := two_pow_mul_zpow_le hlt
        _ ≤ nearest w := mul_le_mul_of_nonneg_right hw52 (by positivity)
  · have hint := nearestInt_mono (div_le_div_of_nonneg_right hle (show (0 : ℚ) ≤ 2 ^ lastPlace w by positivity))
    unfold nearest
    rw [heq]
    exact mul_le_mul_of_nonneg_right (by exact_mod_cast hint) (by positivity)

/-- A multiple of a power of two from the last place on is its own nearest number. -/
theorem nearest_eq_self {n : ℤ} (hlast : lastPlace v ≤ e) (hv : v = n * 2 ^ e) : nearest v = v := by
  obtain ⟨k, hk⟩ := Int.le.dest hlast
  have hpos : (0 : ℚ) < 2 ^ lastPlace v := by positivity
  have hquotient : v / 2 ^ lastPlace v = ((n * 2 ^ k : ℤ) : ℚ) := by
    rw [div_eq_iff hpos.ne']
    conv_lhs => rw [hv, ← hk, zpow_add₀ two_ne_zero, zpow_natCast]
    push_cast
    ring
  rw [nearest, hquotient, nearestInt_intCast, ← hquotient, div_mul_cancel₀ _ hpos.ne']

/-- **Numbers with 53 binary digits are left alone.** -/
theorem nearest_mul_zpow {m : ℕ} (hm : m < 2 ^ 53) (he : -1074 ≤ e) :
    nearest (m * 2 ^ e) = m * 2 ^ e := by
  rcases m.eq_zero_or_pos with rfl | hpos
  · rw [Nat.cast_zero, zero_mul, nearest_zero]
  have hvalue : (0 : ℚ) < m * 2 ^ e := by positivity
  refine nearest_eq_self (n := m) ((lastPlace_le_iff hvalue).2 ⟨?_, he⟩) (by simp)
  rw [zpow_add₀ two_ne_zero, mul_comm]
  have hm : (m : ℚ) < 2 ^ (53 : ℤ) := by
    exact_mod_cast hm
  exact mul_lt_mul_of_pos_left hm (by positivity)

theorem nearest_two_zpow (he : -1074 ≤ e) : nearest (2 ^ e) = 2 ^ e := by
  simpa using nearest_mul_zpow (m := 1) (by decide) he

theorem nearest_natCast {n : ℕ} (h : n < 2 ^ 53) : nearest n = n := by
  simpa using nearest_mul_zpow (e := 0) h (by decide)

end Binary64

end ResonantGraph
