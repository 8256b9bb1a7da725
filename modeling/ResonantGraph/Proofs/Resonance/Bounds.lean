import ResonantGraph.Proofs.Binary64.Rounding
import ResonantGraph.Proofs.Resonance.Matching

/-!
# Bounds of a score

The base of a score lies between one half and one, and boosting does not lower it. This holds over exact
rationals, and it holds over rationals of which every result is rounded, by whatever function that keeps the
order of numbers that are not negative and leaves zero, one half, one and two alone (`Resonance.Rounding`). Only
these four numbers are needed: the quotient of the distance and the greater fingerprint lies between zero and
one, one more than it between one and two, and the inverse of that between one half and one.

Rounding to the nearest number of 53 binary digits is such a function, and a floating-point score denotes the
score over the rationals that are rounded in this way (`Resonance.denotes_score`). So the bounds hold of it too
(`Resonance.half_le_score`, `Resonance.score_le_one`).
-/

namespace ResonantGraph

namespace Resonance

/-! ### Rounded rationals -/

/-- Arithmetic of rationals in which every result is rounded. -/
def Arithmetic.rounded (round : ℚ → ℚ) : Arithmetic ℚ where
  ofNat n := round n
  add x y := round (x + y)
  mul x y := round (x * y)
  div x y := round (x / y)
  clamp x := max x 0
  boost := round (6 / 5)

/-- Arithmetic of rationals without rounding. -/
abbrev Arithmetic.exact : Arithmetic ℚ := .rounded id

/-- What is asked of a way of rounding. -/
structure Rounding (round : ℚ → ℚ) : Prop where
  /-- It keeps the order of numbers that are not negative. -/
  monotone : MonotoneOn round (Set.Ici 0)
  /-- It leaves zero alone. -/
  zero : round 0 = 0
  /-- It leaves one half alone. -/
  half : round (1 / 2) = 1 / 2
  /-- It leaves one alone. -/
  one : round 1 = 1
  /-- It leaves two alone. -/
  two : round 2 = 2

theorem rounding_id : Rounding id := ⟨monotone_id.monotoneOn _, rfl, rfl, rfl, rfl⟩

theorem rounding_nearest : Rounding Binary64.nearest where
  monotone := Binary64.nearest_monotoneOn
  zero := Binary64.nearest_zero
  half := by simpa using Binary64.nearest_two_zpow (e := -1) (by decide)
  one := Binary64.nearest_two_zpow (e := 0) (by decide)
  two := by simpa using Binary64.nearest_two_zpow (e := 1) (by decide)

section Bounds

variable {round : ℚ → ℚ} {x y : ℚ}

theorem Rounding.le (h : Rounding round) (hx : 0 ≤ x) (hle : x ≤ y) : round x ≤ round y :=
  h.monotone hx (hx.trans hle) hle

theorem Rounding.nonneg (h : Rounding round) (hx : 0 ≤ x) : 0 ≤ round x := h.zero.symm.trans_le (h.le le_rfl hx)

theorem Rounding.le_one (h : Rounding round) (hx : 0 ≤ x) (hle : x ≤ 1) : round x ≤ 1 :=
  (h.le hx hle).trans_eq h.one

theorem Rounding.one_le (h : Rounding round) (hle : 1 ≤ x) : 1 ≤ round x :=
  h.one.symm.trans_le (h.le zero_le_one hle)

theorem Rounding.half_le (h : Rounding round) (hle : 1 / 2 ≤ x) : 1 / 2 ≤ round x :=
  h.half.symm.trans_le (h.le (by norm_num) hle)

theorem distance_le (h k : UInt64) : distance h k ≤ max h.toNat k.toNat := Nat.sub_le ..

/-- What stands below the line in a base lies between one and two. -/
theorem Rounding.divisor_bounds (h : Rounding round) {d g : ℕ} (hg : 0 < g) (hle : d ≤ g) :
    1 ≤ round (1 + round (round d / round g)) ∧ round (1 + round (round d / round g)) ≤ 2 := by
  have hd : 0 ≤ round d := h.nonneg (Nat.cast_nonneg d)
  -- the greater fingerprint is at least one, so it is not rounded to zero
  have hgpos : 0 < round g := zero_lt_one.trans_le (h.one_le (by exact_mod_cast hg))
  have hdg : round d ≤ round g := h.le (Nat.cast_nonneg d) (by exact_mod_cast hle)
  have hshare : 0 ≤ round (round d / round g) := h.nonneg (div_nonneg hd hgpos.le)
  have hshare' : round (round d / round g) ≤ 1 :=
    h.le_one (div_nonneg hd hgpos.le) ((div_le_one hgpos).2 hdg)
  refine ⟨h.one_le (by linarith), ?_⟩
  exact (h.le (by linarith) (show 1 + round (round d / round g) ≤ 2 by linarith)).trans_eq h.two

theorem Rounding.base_eq (h : Rounding round) (u v : UInt64) :
    base (.rounded round) u v =
      if max u.toNat v.toNat = 0 then 1
      else round (1 / round (1 + round (round (distance u v) / round (max u.toNat v.toNat : ℕ)))) := by
  have hone : (Arithmetic.rounded round).ofNat 1 = 1 := by
    exact_mod_cast h.one
  simp only [base, hone]
  rfl

/-- **A base lies between one half and one.** -/
theorem Rounding.base_bounds (h : Rounding round) (u v : UInt64) :
    1 / 2 ≤ base (.rounded round) u v ∧ base (.rounded round) u v ≤ 1 := by
  rw [h.base_eq]
  split_ifs with hzero
  · norm_num
  · obtain ⟨hlow, hhigh⟩ := h.divisor_bounds (Nat.pos_of_ne_zero hzero) (distance_le u v)
    generalize round (1 + round (round (distance u v) / round (max u.toNat v.toNat : ℕ))) = divisor at *
    have hpos : 0 < divisor := by linarith
    refine ⟨h.half_le ?_, h.le_one (by positivity) ((div_le_one hpos).2 hlow)⟩
    exact one_div_le_one_div_of_le hpos hhigh

/-- Boosting does not bring a score below one half. -/
theorem Rounding.half_le_boosted (h : Rounding round) (hx : 1 / 2 ≤ x) (n : ℕ) :
    1 / 2 ≤ boosted (.rounded round) x n := by
  induction n with
  | zero => exact hx
  | succ n ih =>
    have hboost : 1 ≤ round (6 / 5) := h.one_le (by norm_num)
    exact h.half_le (ih.trans (le_mul_of_one_le_right (by linarith) hboost))

variable {text signature : String} {patterns : List String}

/-- **A score under the weight one is not below one half**, and without a pattern that occurs it is not above
one. -/
theorem Rounding.score_bounds (h : Rounding round) (htext : text ≠ "") (hsignature : signature ≠ "") :
    1 / 2 ≤ score (.rounded round) text signature patterns 1 ∧
      (occurring text patterns = ∅ → score (.rounded round) text signature patterns 1 ≤ 1) := by
  obtain ⟨hlow, hhigh⟩ := h.base_bounds (Fingerprint.ofText text) (Fingerprint.ofText signature)
  rw [score_eq _ _ htext hsignature]
  constructor
  · have hboosted := h.half_le_boosted hlow (occurring text patterns).card
    change 1 / 2 ≤ max (round (boosted (.rounded round) _ _ * 1)) 0
    rw [mul_one]
    exact (h.half_le hboosted).trans (le_max_left ..)
  · intro hnone
    rw [hnone, Finset.card_empty]
    change max (round (base (.rounded round) _ _ * 1)) 0 ≤ 1
    rw [mul_one]
    exact max_le (h.le_one (by linarith) hhigh) zero_le_one

/-- Over exact rationals a base is one if the fingerprints are equal, and only then. -/
theorem base_exact_eq_one_iff {u v : UInt64} : base .exact u v = 1 ↔ u = v := by
  have hdistance : distance u v = 0 ↔ u = v := by
    rw [← UInt64.toNat_inj, distance]
    omega
  rw [rounding_id.base_eq]
  split_ifs with hzero
  · exact iff_of_true rfl (hdistance.1 (Nat.le_zero.1 ((distance_le u v).trans_eq hzero)))
  · have hpos : (0 : ℚ) < (max u.toNat v.toNat : ℕ) := by exact_mod_cast Nat.pos_of_ne_zero hzero
    have hshare : (0 : ℚ) ≤ distance u v / (max u.toNat v.toNat : ℕ) := by positivity
    simp only [id]
    rw [div_eq_one_iff_eq (by linarith), ← hdistance]
    constructor
    · intro heq
      have hnone : (distance u v : ℚ) / (max u.toNat v.toNat : ℕ) = 0 := by linarith
      exact_mod_cast (div_eq_zero_iff.1 hnone).resolve_right hpos.ne'
    · intro hnone
      rw [hnone, Nat.cast_zero, zero_div, add_zero]

/-- Over exact rationals a score without a pattern that occurs is one if the fingerprints are equal, and only
then. -/
theorem score_exact_eq_one_iff (htext : text ≠ "") (hsignature : signature ≠ "")
    (hnone : occurring text patterns = ∅) :
    score .exact text signature patterns 1 = 1 ↔ Fingerprint.ofText text = Fingerprint.ofText signature := by
  have hbase := (rounding_id.base_bounds (Fingerprint.ofText text) (Fingerprint.ofText signature)).1
  rw [score_eq _ _ htext hsignature, hnone, Finset.card_empty, ← base_exact_eq_one_iff]
  change max (base .exact _ _ * 1) 0 = 1 ↔ _
  rw [mul_one, max_eq_left (by linarith)]

end Bounds

/-! ### Floating-point scores -/

section Floating

open Binary64

theorem nearest_boost : nearest (6 / 5) = (5404319552844595 : ℕ) * 2 ^ (-52 : ℤ) := by
  have hplace : lastPlace (6 / 5) = -52 := lastPlace_eq (e := 1) (by norm_num) (by norm_num)
  have hfloor : ⌊(6 / 5 / 2 ^ (-52 : ℤ) : ℚ)⌋ = 5404319552844595 := Int.floor_eq_iff.2 (by norm_num)
  have hint : nearestInt (6 / 5 / 2 ^ (-52 : ℤ)) = 5404319552844595 := by
    rw [nearestInt, Int.fract, hfloor, if_pos (by norm_num)]
  rw [nearest, hplace, hint]
  norm_num

theorem denotes_patternBoost : patternBoost.Denotes (nearest (6 / 5)) :=
  denotes_of_reading (m := 5404319552844595) (e := -52) rfl nearest_boost.symm

/-- A word is small enough to be stored. -/
theorem nearest_toNat_lt_limit {n : ℕ} (h : n < 2 ^ 64) : nearest n < limit := by
  have hword : (n : ℚ) ≤ 2 ^ (64 : ℤ) := by exact_mod_cast h.le
  calc nearest n
    _ ≤ nearest (2 ^ (64 : ℤ)) := rounding_nearest.le (Nat.cast_nonneg n) hword
    _ = 2 ^ (64 : ℤ) := nearest_two_zpow (by decide)
    _ < limit := by exact_mod_cast natCast_lt_limit (n := 2 ^ 64) (by decide)

/-- **A floating-point base denotes the base over rationals rounded to the nearest.** -/
theorem denotes_base (u v : UInt64) : (base .binary64 u v).Denotes (base (.rounded nearest) u v) := by
  have hone : (Binary64.ofNat 1).Denotes 1 := by
    have h := denotes_ofNat 1
    rwa [nearest_natCast (by decide), Nat.cast_one] at h
  rw [rounding_nearest.base_eq]
  simp only [base]
  split_ifs with hzero
  · exact hone
  · have hgreater := Nat.pos_of_ne_zero hzero
    have hle := distance_le u v
    have hword : max u.toNat v.toNat < 2 ^ 64 := max_lt u.toNat_lt v.toNat_lt
    obtain ⟨hlow, hhigh⟩ := rounding_nearest.divisor_bounds hgreater hle
    have hpos : 0 < nearest (max u.toNat v.toNat : ℕ) :=
      zero_lt_one.trans_le (rounding_nearest.one_le (by exact_mod_cast hgreater))
    -- nothing is infinite here: words are small enough, and what follows is not above two
    have hlimit : (2 : ℚ) < limit := by exact_mod_cast natCast_lt_limit (n := 2) (by decide)
    have hshare := (denotes_ofNat (distance u v)).div (denotes_ofNat (max u.toNat v.toNat))
      (nearest_toNat_lt_limit (hle.trans_lt hword)) hpos (nearest_toNat_lt_limit hword)
    exact hone.div (hone.add hshare) (by linarith) (by linarith) (by linarith)

theorem denotes_boosted {x : Binary64} {y : ℚ} (h : x.Denotes y) (n : ℕ) :
    (boosted .binary64 x n).Denotes (boosted (.rounded nearest) y n) := by
  induction n with
  | zero => exact h
  | succ n ih =>
    have hlimit : nearest (6 / 5) < limit := by
      have hlt : nearest (6 / 5) ≤ (2 : ℕ) := by
        rw [nearest_boost]
        norm_num
      exact hlt.trans_lt (natCast_lt_limit (by decide))
    exact ih.mul denotes_patternBoost (rounding_nearest.one_le (by norm_num)) hlimit

variable {text signature : String} {patterns : List String}

/-- **A floating-point score under the weight one denotes the score over rationals rounded to the nearest.** -/
theorem denotes_score (htext : text ≠ "") (hsignature : signature ≠ "") :
    (score .binary64 text signature patterns 1).Denotes (score (.rounded nearest) text signature patterns 1) := by
  have hbounds := (rounding_nearest.base_bounds (Fingerprint.ofText text) (Fingerprint.ofText signature)).1
  have hboosted := rounding_nearest.half_le_boosted hbounds (occurring text patterns).card
  rw [score_eq _ _ htext hsignature, score_eq _ _ htext hsignature]
  have hweighted := (denotes_boosted (denotes_base (Fingerprint.ofText text) (Fingerprint.ofText signature))
    (occurring text patterns).card).mul denotes_one le_rfl one_lt_limit
  change Denotes _ (max (nearest (boosted (.rounded nearest) _ _ * 1)) 0)
  rw [max_eq_left (nearest_nonneg (by linarith))]
  exact hweighted.clamp

/-- One half. -/
def half : Binary64 := ⟨0x3fe0000000000000⟩

theorem denotes_half : half.Denotes (1 / 2) := denotes_of_reading (m := 2 ^ 52) (e := -53) rfl (by norm_num)

/-- **A floating-point score under the weight one is not below one half.** -/
theorem half_le_score (htext : text ≠ "") (hsignature : signature ≠ "") :
    (score .binary64 text signature patterns 1).atLeast half = true :=
  denotes_half.atLeast (denotes_score htext hsignature) (rounding_nearest.score_bounds htext hsignature).1

/-- Without a pattern that occurs it is not above one. -/
theorem score_le_one (htext : text ≠ "") (hsignature : signature ≠ "") (hnone : occurring text patterns = ∅) :
    (1 : Binary64).atLeast (score .binary64 text signature patterns 1) = true :=
  (denotes_score htext hsignature).atLeast denotes_one ((rounding_nearest.score_bounds htext hsignature).2 hnone)

end Floating

end Resonance

end ResonantGraph
