/-!
# Stored reals

Activations, strengths, weights and scores are binary floating-point numbers of 64 bits. What a
graph stores of them is the *bits*: two stored reals are equal exactly when their bits are, so a
payload of a not-a-number survives storage, and equality is decidable.

Arithmetic is that of the IEEE 754 standard, rounded to nearest once per operation. Clamping, which
an activation passes on its way into a graph, needs no arithmetic: it reads the bits, and its fixed
points are exactly the numbers that are neither below zero nor not-a-number (`clamp_eq_self_iff`).
-/

namespace ResonantGraph

/-- A real number as it is stored: the 64 bits of its binary floating-point form. -/
structure Binary64 where
  /-- Sign, exponent and fraction, from the highest bit down. -/
  bits : UInt64
deriving DecidableEq, Inhabited, Repr

namespace Binary64

/-! ### Constants -/

/-- The number 0. -/
def zero : Binary64 := ⟨0⟩

/-- The negative zero, from which sums start. -/
def negZero : Binary64 := ⟨0x8000000000000000⟩

/-- The number 1. -/
def one : Binary64 := ⟨0x3ff0000000000000⟩

/-- A quiet not-a-number. -/
def nan : Binary64 := ⟨0x7ff8000000000000⟩

/-- Positive infinity. -/
def infinity : Binary64 := ⟨0x7ff0000000000000⟩

instance : OfNat Binary64 0 := ⟨zero⟩

instance : OfNat Binary64 1 := ⟨one⟩

/-! ### Reading the bits -/

/-- The bits without the sign. -/
def unsigned (x : Binary64) : UInt64 := x.bits &&& 0x7fffffffffffffff

/-- Whether the sign bit is set. -/
def isNegative (x : Binary64) : Bool := 0x8000000000000000 ≤ x.bits

/-- Whether the bits stand for no number. -/
def isNaN (x : Binary64) : Bool := 0x7ff0000000000000 < x.unsigned

/-- Whether the number is one of the two infinities. -/
def isInfinite (x : Binary64) : Bool := x.unsigned = 0x7ff0000000000000

/-- Whether the bits stand for a real number. -/
def isFinite (x : Binary64) : Bool := x.unsigned < 0x7ff0000000000000

/-- The number with its sign bit cleared. -/
def abs (x : Binary64) : Binary64 := ⟨x.unsigned⟩

/-- The number with its sign bit flipped. -/
def neg (x : Binary64) : Binary64 := ⟨x.bits ^^^ 0x8000000000000000⟩

/-! ### Clamping -/

/-- The number itself, or zero where it has a negative sign or is no number. -/
def clamp (x : Binary64) : Binary64 := if x.isNaN || x.isNegative then 0 else x

@[simp] theorem clamp_zero : clamp 0 = 0 := rfl

theorem clamp_eq_self_iff {x : Binary64} :
    x.clamp = x ↔ x.isNaN = false ∧ x.isNegative = false := by
  unfold clamp
  split
  · next h =>
    constructor
    · rintro rfl; exact ⟨rfl, rfl⟩
    · rintro ⟨h1, h2⟩; simp [h1, h2] at h
  · next h => simpa using h

/-- **Clamping is idempotent.** -/
@[simp] theorem clamp_clamp (x : Binary64) : x.clamp.clamp = x.clamp := by
  unfold clamp
  by_cases h : (x.isNaN || x.isNegative) = true
  · rw [if_pos h]; rfl
  · rw [if_neg h, if_neg h]

/-! ### Arithmetic and order -/

/-- The floating-point number of the bits. -/
def toFloat (x : Binary64) : Float := Float.ofBits x.bits

/-- The bits of a floating-point number. -/
def ofFloat (x : Float) : Binary64 := ⟨x.toBits⟩

instance : Add Binary64 := ⟨fun x y => ofFloat (x.toFloat + y.toFloat)⟩

instance : Mul Binary64 := ⟨fun x y => ofFloat (x.toFloat * y.toFloat)⟩

instance : Div Binary64 := ⟨fun x y => ofFloat (x.toFloat / y.toFloat)⟩

/-- Whether one number is below another; false where either is no number. -/
def below (x y : Binary64) : Bool := decide (x.toFloat < y.toFloat)

/-- Whether one number is at least another; false where either is no number. -/
def atLeast (x y : Binary64) : Bool := decide (y.toFloat ≤ x.toFloat)

/-- The number nearest to a natural number. -/
def ofNat (n : Nat) : Binary64 := ofFloat (Float.ofNat n)

/-- The sum of a list, taken from the left and starting from the negative zero, which is the one
start that changes no sum. -/
def sum (l : List Binary64) : Binary64 := l.foldl (· + ·) negZero

/-! ### Decimal input -/

/-- How many decimal digits a natural number has. -/
def digitCount (n : Nat) : Nat := (Nat.toDigits 10 n).length

/-- The number nearest to `m · 10 ^ e`. An exponent far outside the range of the format is settled
by the size of the number alone: everything from `10 ^ 310` on is infinite, everything below
`10 ^ -400` is zero. -/
def ofDecimal (m : Nat) (e : Int) : Binary64 :=
  if m = 0 then 0
  else if (digitCount m : Int) + e > 310 then infinity
  else if (digitCount m : Int) + e < -400 then 0
  else ofFloat (Float.ofScientific m (e < 0) e.natAbs)

end Binary64

end ResonantGraph
