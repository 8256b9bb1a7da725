import ResonantGraph.Element
import ResonantGraph.Fingerprint

/-!
# Resonance

How strongly a text resonates with an identity is a score made of two parts. The *base* compares the
fingerprint `h` of the text with the fingerprint `k` of the signature,

  `1 / (1 + |h - k| / max h k)`,

and lies between one half and one. The base is then multiplied by the *boost* once for each distinct
pattern that occurs in the text, and by the weight of the identity. An empty text, and an identity
without a signature, score zero.

The score is written for any arithmetic (`Resonance.Arithmetic`). The one that is used,
`Arithmetic.binary64`, rounds every step; with exact rationals in its place the same definition is
the formula above.
-/

namespace ResonantGraph

namespace Resonance

/-- The operations that a score needs. -/
structure Arithmetic (α : Type) where
  /-- The number of a natural number. -/
  ofNat : Nat → α
  /-- Addition. -/
  add : α → α → α
  /-- Multiplication. -/
  mul : α → α → α
  /-- Division. -/
  div : α → α → α
  /-- The greater of a number and zero. -/
  clamp : α → α
  /-- The factor of a pattern that occurs. -/
  boost : α

/-- The factor of a pattern that occurs, 1.2. -/
def patternBoost : Binary64 := ⟨0x3ff3333333333333⟩

/-- Floating-point arithmetic. -/
def Arithmetic.binary64 : Arithmetic Binary64 where
  ofNat := .ofNat
  add := (· + ·)
  mul := (· * ·)
  div := (· / ·)
  clamp := .clamp
  boost := patternBoost

/-! ### The score -/

/-- The distance of two words. -/
def distance (h k : UInt64) : Nat := max h.toNat k.toNat - min h.toNat k.toNat

variable {α : Type}

/-- The base score of two fingerprints; one if both are zero. -/
def base (A : Arithmetic α) (h k : UInt64) : α :=
  let greater := max h.toNat k.toNat
  if greater = 0 then A.ofNat 1
  else
    A.div (A.ofNat 1)
      (A.add (A.ofNat 1) (A.div (A.ofNat (distance h k)) (A.ofNat greater)))

/-- A score multiplied by the boost a number of times, from the left. -/
def boosted (A : Arithmetic α) (score : α) : Nat → α
  | 0 => score
  | n + 1 => A.mul (boosted A score n) A.boost

/-- Whether characters occur in a row within others. -/
def isInfix (pattern : List Char) : List Char → Bool
  | [] => pattern.isEmpty
  | c :: rest => pattern.isPrefixOf (c :: rest) || isInfix pattern rest

theorem isInfix_iff {pattern text : List Char} : isInfix pattern text = true ↔ pattern <:+: text := by
  induction text with
  | nil => simp [isInfix]
  | cons c rest ih => simp [isInfix, ih, List.infix_cons_iff]

/-- Whether a pattern occurs in a text. -/
def occursIn (pattern text : String) : Bool := isInfix pattern.toList text.toList

/-- The distinct patterns that are not empty and occur in a text. -/
def matching (text : String) (patterns : List String) : List String :=
  (NameSet.ofNames patterns).names.filter fun pattern => pattern ≠ "" && occursIn pattern text

/-- The score of a text against a signature and patterns, under a weight. -/
def score (A : Arithmetic α) (text signature : String) (patterns : List String) (weight : α) : α :=
  if text = "" ∨ signature = "" then A.ofNat 0
  else
    let start := base A (Fingerprint.ofText text) (Fingerprint.ofText signature)
    A.clamp (A.mul (boosted A start (matching text patterns).length) weight)

end Resonance

/-- How strongly a text resonates with an identity. -/
def resonance (text : String) (identity : Identity) : Binary64 :=
  Resonance.score .binary64 text identity.signature identity.patterns identity.weight

end ResonantGraph
