import ResonantGraph.Binary64

/-!
# Decimal text of stored reals

Two texts are written of a stored real, both from its exact value in integer arithmetic.

* `Binary64.fixed` gives a set number of decimal places. The last place is rounded to nearest, a
  half to the even neighbour (`Binary64.roundDiv`).
* `Binary64.shortest` gives the fewest significant digits that read back as the same number, and of
  those the nearest to it.

`Binary64.sixPlaces` and `Binary64.compact?` fix what the program's own output looks like: six
places wherever a real becomes text, and the shortest digits in structured output, positional from
`10 ^ -5` up to `10 ^ 16` and with an exponent outside.
-/

namespace ResonantGraph

namespace Binary64

/-! ### Exact values -/

/-- The number of fractions between two powers of two. -/
def fractions : Nat := Nat.pow 2 52

/-- The magnitude of a finite number as `m · 2 ^ q`. -/
def decompose (x : Binary64) : Nat × Int :=
  let exponent : Nat := x.unsigned.toNat / fractions
  let fraction : Nat := x.unsigned.toNat % fractions
  if exponent = 0 then (fraction, -1074) else (fractions + fraction, (exponent : Int) - 1075)

/-- Divides and rounds to nearest, a half to the even neighbour. -/
def roundDiv (num den : Nat) : Nat :=
  let quotient := num / den
  let twice := 2 * (num % den)
  if den < twice then quotient + 1
  else if twice = den then quotient + quotient % 2
  else quotient

theorem roundDiv_of_dvd {num den : Nat} (hden : 0 < den) (h : den ∣ num) :
    roundDiv num den = num / den := by
  have hmod : num % den = 0 := Nat.mod_eq_zero_of_dvd h
  have hne : 0 ≠ den := Nat.ne_of_lt hden
  simp [roundDiv, hmod, hne]

/-- Rounding moves by at most half a unit. -/
theorem roundDiv_within {num den : Nat} (hden : 0 < den) :
    2 * num ≤ 2 * (roundDiv num den * den) + den ∧
      2 * (roundDiv num den * den) ≤ 2 * num + den := by
  have hnum : den * (num / den) + num % den = num := Nat.div_add_mod num den
  have hmod : num % den < den := Nat.mod_lt _ hden
  have hparity : num / den % 2 = 0 ∨ num / den % 2 = 1 := by omega
  generalize num / den = q at hnum hparity
  simp only [roundDiv]
  generalize hr : num % den = r at hnum hmod
  have hquot : num / den = q := by
    rw [← hnum, Nat.mul_add_div hden, Nat.div_eq_of_lt hmod, Nat.add_zero]
  have succ : (q + 1) * den = den * q + den := by rw [Nat.succ_mul, Nat.mul_comm]
  have same : q * den = den * q := Nat.mul_comm _ _
  rw [hquot]
  split
  · rw [succ]; omega
  · split
    · rcases hparity with h | h <;> rw [h]
      · rw [Nat.add_zero, same]; omega
      · rw [succ]; omega
    · rw [same]; omega

/-! ### A set number of places -/

/-- A natural number in decimal, filled with zeros on the left to a width. -/
def padded (width n : Nat) : String :=
  let digits := Nat.toDigits 10 n
  String.ofList (List.replicate (width - digits.length) '0' ++ digits)

/-- The decimal text with a set number of places. -/
def fixed (places : Nat) (x : Binary64) : String :=
  if x.isNaN then "NaN"
  else
    let sign := if x.isNegative then "-" else ""
    if x.isInfinite then sign ++ "inf"
    else
      let (m, q) := x.decompose
      let scale := Nat.pow 10 places
      let scaled := m * scale
      let units :=
        if 0 ≤ q then scaled * Nat.pow 2 q.toNat else roundDiv scaled (Nat.pow 2 (-q).toNat)
      sign ++ toString (units / scale) ++ "." ++ padded places (units % scale)

/-- Six decimal places, as in every stored or reported real. -/
def sixPlaces (x : Binary64) : String := x.fixed 6

/-! ### The shortest digits -/

/-- A positive number between the ends of the reals that round to it, all four over one
denominator. -/
structure Rounding where
  /-- The number itself. -/
  value : Nat
  /-- The lower end. -/
  low : Nat
  /-- The upper end. -/
  high : Nat
  /-- The common denominator. -/
  den : Nat
  /-- Whether the ends themselves round to the number. -/
  closed : Bool

/-- The reals that round to a finite positive number: half a unit up, and half a unit down, where
the unit below a power of two is half as large. -/
def rounding (x : Binary64) : Rounding :=
  let (m, q) := x.decompose
  let below := if m = fractions ∧ -1074 < q then 1 else 2
  let up := Nat.pow 2 (q - 2).toNat
  { value := 4 * m * up
    low := (4 * m - below) * up
    high := (4 * m + 2) * up
    den := Nat.pow 2 (2 - q).toNat
    closed := m % 2 = 0 }

namespace Rounding

/-- The rounding read in units of `10 ^ k`. -/
def inUnits (r : Rounding) (k : Int) : Rounding :=
  let up := Nat.pow 10 (-k).toNat
  { r with
    value := r.value * up
    low := r.low * up
    high := r.high * up
    den := r.den * Nat.pow 10 k.toNat }

/-- Whether a whole number of units rounds to the number. -/
def holds (r : Rounding) (n : Nat) : Bool :=
  if r.closed then r.low ≤ n * r.den ∧ n * r.den ≤ r.high
  else r.low < n * r.den ∧ n * r.den < r.high

/-- The whole number of units that rounds to the number and is nearest to it; a tie goes to the
even one. Only the two neighbours of the number can be meant. -/
def nearest? (r : Rounding) : Option Nat :=
  let below := r.value / r.den
  match r.holds below, r.holds (below + 1) with
  | true, true => some (roundDiv r.value r.den)
  | true, false => some below
  | false, true => some (below + 1)
  | false, false => none

/-- The position of the leading digit: the number lies in `[10 ^ p, 10 ^ (p + 1))`. -/
def leading (r : Rounding) : Int :=
  if r.den ≤ r.value then (digitCount (r.value / r.den) : Int) - 1
  else
    let p : Nat := digitCount (r.den / r.value)
    if r.den ≤ r.value * Nat.pow 10 (p - 1) then -((p : Int) - 1) else -(p : Int)

end Rounding

/-- The digits `n` and the exponent `k` of the shortest decimal `n · 10 ^ k` that reads back as a
finite positive number, looked for with one digit, then two, and so on; seventeen always do. -/
def shortest (x : Binary64) : Nat × Int :=
  let r := x.rounding
  let p := r.leading
  let attempt (count : Nat) : Option (Nat × Int) :=
    let k := p + 1 - (count : Int)
    (r.inUnits k).nearest?.map (·, k)
  ((List.range 17).findSome? fun i => attempt (i + 1)).getD (0, 0)

/-- Drops the trailing zeros of a digit list, counting them. -/
def trimZeros (digits : List Char) : List Char × Nat :=
  let kept := (digits.reverse.dropWhile (· == '0')).reverse
  (kept, digits.length - kept.length)

/-! ### The text of structured output -/

/-- Digits `ds` of a decimal `0.ds · 10 ^ point`, written positionally with at least one place. -/
def positional (ds : List Char) (point : Int) : String :=
  let n := ds.length
  let chars :=
    if point ≤ 0 then '0' :: '.' :: (List.replicate (-point).toNat '0' ++ ds)
    else if (n : Int) ≤ point then ds ++ List.replicate (point.toNat - n) '0' ++ ['.', '0']
    else ds.take point.toNat ++ '.' :: ds.drop point.toNat
  String.ofList chars

/-- Digits `ds` of a decimal `0.ds · 10 ^ point`, written with one digit before the point, a signed
exponent, and no point after a single digit. -/
def exponential (ds : List Char) (point : Int) : String :=
  let e := point - 1
  let mantissa := match ds with
    | [] => []
    | [d] => [d]
    | d :: rest => d :: '.' :: rest
  String.ofList mantissa ++ (if e < 0 then "e-" else "e+") ++ toString e.natAbs

/-- The text of a number in structured output: the shortest digits that read back, positional from
`10 ^ -5` up to `10 ^ 16`. What is no real number has no such text. -/
def compact? (x : Binary64) : Option String :=
  if !x.isFinite then none
  else
    let sign := if x.isNegative then "-" else ""
    if x.unsigned = 0 then some (sign ++ "0.0")
    else
      let (n, k) := x.abs.shortest
      let (ds, zeros) := trimZeros (Nat.toDigits 10 n)
      let point := k + zeros + ds.length
      some <| sign ++
        if -4 ≤ point ∧ point ≤ 16 then positional ds point else exponential ds point

end Binary64

end ResonantGraph
