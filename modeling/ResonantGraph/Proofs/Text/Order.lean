import ResonantGraph.Text.Utf8
import Mathlib.Data.String.Basic

/-!
# The order of bytes

Texts are ordered by their characters, and that is the order of their UTF-8 bytes (`Text.bytes_lt_iff`). The
encoding of a character is a first byte, which says how many others follow, and then the lowest digits of the
code point in base 64, highest first (`Text.utf8EncodeChar_eq`). Of two code points the lesser has the lesser
first byte, or both have the same one and are told apart by the digits (`Text.lead_cases`).
-/

namespace ResonantGraph

namespace Text

/-! ### Digits -/

/-- The lowest digits of a number in base 64, highest first, each as a byte that goes on with a character. -/
def continuation : Nat → Nat → List UInt8
  | 0, _ => []
  | k + 1, v => UInt8.ofNat (v / 64 ^ k % 64 + 128) :: continuation k v

theorem cons_lt_cons_of_digit {m n : Nat} {l l' : List UInt8} (hm : m < 256) (hn : n < 256)
    (h : m < n ∨ m = n ∧ l < l') : UInt8.ofNat m :: l < UInt8.ofNat n :: l' := by
  rw [List.cons_lt_cons_iff]
  refine h.imp (fun hlt => ?_) fun ⟨heq, hrest⟩ => ⟨congrArg UInt8.ofNat heq, hrest⟩
  rwa [UInt8.lt_iff_toNat_lt, UInt8.toNat_ofNat_of_lt' hm, UInt8.toNat_ofNat_of_lt' hn]

/-- Digits decide, whatever comes after them. -/
theorem continuation_lt {k v w : Nat} (h : v % 64 ^ k < w % 64 ^ k) (l l' : List UInt8) :
    continuation k v ++ l < continuation k w ++ l' := by
  induction k with
  | zero => exact absurd h (by rw [pow_zero, Nat.mod_one, Nat.mod_one]; exact Nat.lt_irrefl 0)
  | succ k ih =>
    rw [pow_succ, Nat.mod_mul, Nat.mod_mul] at h
    have hv : v % 64 ^ k < 64 ^ k := Nat.mod_lt _ (Nat.pow_pos (by decide))
    have hw : w % 64 ^ k < 64 ^ k := Nat.mod_lt _ (Nat.pow_pos (by decide))
    refine cons_lt_cons_of_digit (by omega) (by omega) ?_
    rcases Nat.lt_trichotomy (v / 64 ^ k % 64) (w / 64 ^ k % 64) with hlt | heq | hgt
    · exact .inl (Nat.add_lt_add_right hlt 128)
    · rw [heq] at h
      exact .inr ⟨congrArg (· + 128) heq, ih (Nat.lt_of_add_lt_add_right h)⟩
    · -- a greater digit outweighs all that follow
      have hle : 64 ^ k * (w / 64 ^ k % 64) + 64 ^ k ≤ 64 ^ k * (v / 64 ^ k % 64) := by
        rw [← Nat.mul_succ]
        exact Nat.mul_le_mul_left _ hgt
      omega

/-! ### Characters -/

/-- The number of bytes after the first one of a code point. -/
def followers (v : Nat) : Nat :=
  if v ≤ 127 then 0 else if v ≤ 2047 then 1 else if v ≤ 65535 then 2 else 3

/-- The first byte of a code point, as a number: the highest digit, above what announces so many bytes. -/
def lead (v : Nat) : Nat :=
  if v ≤ 127 then v
  else if v ≤ 2047 then v / 64 + 192
  else if v ≤ 65535 then v / 4096 + 224
  else v / 262144 + 240

theorem toNat_lt (c : Char) : c.toNat < 0x110000 := by
  rcases c.valid with h | ⟨-, h⟩
  · exact h.trans (by decide)
  · exact h

theorem utf8EncodeChar_eq (c : Char) :
    String.utf8EncodeChar c = UInt8.ofNat (lead c.toNat) :: continuation (followers c.toNat) c.toNat := by
  have hc : c.val.toNat < 0x110000 := toNat_lt c
  change String.utf8EncodeChar c =
    UInt8.ofNat (lead c.val.toNat) :: continuation (followers c.val.toNat) c.val.toNat
  unfold String.utf8EncodeChar lead followers
  dsimp only
  generalize c.val.toNat = v at hc ⊢
  -- in each range the highest digit is what is left of the code point
  by_cases hone : v ≤ 127
  · simp only [if_pos hone, continuation]
  by_cases htwo : v ≤ 2047
  · have hhigh : v / 64 % 32 = v / 64 := by omega
    simp [hone, htwo, hhigh, continuation]
  by_cases hthree : v ≤ 65535
  · have hhigh : v / 4096 % 16 = v / 4096 := by omega
    simp [hone, htwo, hthree, hhigh, continuation]
  · have hhigh : v / 262144 % 8 = v / 262144 := by omega
    simp [hone, htwo, hthree, hhigh, continuation]

theorem lead_lt {v : Nat} (h : v < 0x110000) : lead v < 256 := by
  unfold lead
  split_ifs <;> omega

/-- Of two code points the lesser has a lesser first byte, or the two are told apart by equally many digits. -/
theorem lead_cases {v w : Nat} (h : v < w) :
    lead v < lead w ∨
      lead v = lead w ∧ followers v = followers w ∧ v % 64 ^ followers v < w % 64 ^ followers v := by
  -- two code points of different ranges are told apart by what their first bytes announce
  unfold lead followers
  split_ifs <;> omega

/-- Characters decide, whatever comes after them. -/
theorem utf8EncodeChar_lt {c d : Char} (h : c < d) (l l' : List UInt8) :
    String.utf8EncodeChar c ++ l < String.utf8EncodeChar d ++ l' := by
  have hlt : c.toNat < d.toNat := h
  rw [utf8EncodeChar_eq, utf8EncodeChar_eq]
  refine cons_lt_cons_of_digit (lead_lt (toNat_lt c)) (lead_lt (toNat_lt d)) ?_
  refine (lead_cases hlt).imp_right fun ⟨hlead, hfollowers, hdigits⟩ => ⟨hlead, ?_⟩
  rw [← hfollowers]
  exact continuation_lt hdigits l l'

/-! ### Texts -/

theorem bytes_eq (text : String) : bytes text = text.toList.flatMap String.utf8EncodeChar := by
  unfold bytes
  rw [← String.ofList_toList (s := text), String.toByteArray_ofList, String.toList_ofList]
  exact List.toList_data_toByteArray

theorem flatMap_utf8EncodeChar_lt {l m : List Char} (h : l < m) :
    l.flatMap String.utf8EncodeChar < m.flatMap String.utf8EncodeChar := by
  induction l generalizing m with
  | nil =>
    cases m with
    | nil => exact absurd h (List.lt_irrefl [])
    | cons d m =>
      rw [List.flatMap_cons, utf8EncodeChar_eq]
      exact List.nil_lt_cons _ _
  | cons c l ih =>
    cases m with
    | nil => exact absurd h (List.not_lt_nil _)
    | cons d m =>
      rw [List.flatMap_cons, List.flatMap_cons]
      rcases List.cons_lt_cons_iff.1 h with hlt | ⟨rfl, hrest⟩
      · exact utf8EncodeChar_lt hlt _ _
      · exact List.append_left_lt (ih hrest)

/-- **The order of texts is that of their bytes.** -/
theorem bytes_lt_iff {s t : String} : bytes s < bytes t ↔ s < t := by
  have mono {s t : String} (h : s < t) : bytes s < bytes t := by
    rw [bytes_eq, bytes_eq]
    exact flatMap_utf8EncodeChar_lt (String.lt_iff_toList_lt.1 h)
  refine ⟨fun h => Decidable.byContradiction fun hnot => ?_, mono⟩
  by_cases hts : t < s
  · exact List.lt_asymm h (mono hts)
  · rw [String.le_antisymm (String.not_lt.1 hts) (String.not_lt.1 hnot)] at h
    exact List.lt_irrefl _ h

end Text

end ResonantGraph
