/-!
# Hexadecimal words

A word of 64 bits is written as exactly sixteen lowercase hexadecimal digits, so that two words
have the same text only if they are equal (`hexWord_injective`).
-/

namespace ResonantGraph.Text

/-- The lowercase hexadecimal digit of a number below sixteen. -/
def hexDigit (n : Nat) : Char := Nat.digitChar (n % 16)

/-- The lowest `width` hexadecimal digits of a number, highest first. -/
def hexPlaces : Nat → Nat → List Char
  | 0, _ => []
  | width + 1, n => hexPlaces width (n / 16) ++ [hexDigit n]

/-- The sixteen hexadecimal digits of a word. -/
def hexWord (w : UInt64) : String := String.ofList (hexPlaces 16 w.toNat)

@[simp] theorem length_hexPlaces (width n : Nat) : (hexPlaces width n).length = width := by
  induction width generalizing n with
  | zero => rfl
  | succ width ih => simp [hexPlaces, ih]

theorem hexDigit_eq {m n : Nat} (h : hexDigit m = hexDigit n) : m % 16 = n % 16 := by
  have all : ∀ a : Fin 16, ∀ b : Fin 16, Nat.digitChar a = Nat.digitChar b → a = b := by decide
  have := all ⟨m % 16, Nat.mod_lt _ (by omega)⟩ ⟨n % 16, Nat.mod_lt _ (by omega)⟩ h
  simpa using this

/-- How many numbers have a given number of hexadecimal digits. -/
def hexCapacity : Nat → Nat
  | 0 => 1
  | width + 1 => 16 * hexCapacity width

theorem hexPlaces_eq {width m n : Nat} (h : hexPlaces width m = hexPlaces width n) :
    m % hexCapacity width = n % hexCapacity width := by
  induction width generalizing m n with
  | zero => simp [hexCapacity, Nat.mod_one]
  | succ width ih =>
    simp only [hexPlaces] at h
    obtain ⟨h1, h2⟩ := List.append_inj h (by simp)
    have low := hexDigit_eq (List.cons.inj h2).1
    have high := ih h1
    rw [hexCapacity, Nat.mod_mul, Nat.mod_mul, low, high]

/-- **Words are told apart by their digits.** -/
theorem hexWord_injective {v w : UInt64} (h : hexWord v = hexWord w) : v = w := by
  have hp := hexPlaces_eq (String.ofList_injective h)
  have hv : v.toNat < hexCapacity 16 := v.toNat_lt
  have hw : w.toNat < hexCapacity 16 := w.toNat_lt
  rw [Nat.mod_eq_of_lt hv, Nat.mod_eq_of_lt hw] at hp
  exact UInt64.toNat_inj.1 hp

end ResonantGraph.Text
