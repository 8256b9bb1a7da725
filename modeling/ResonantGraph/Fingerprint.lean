import ResonantGraph.Text.Utf8
import ResonantGraph.Text.Hexadecimal

/-!
# Fingerprints

A fingerprint is the 64-bit FNV-1a hash of a list of bytes: starting from a fixed word, each byte is
combined into the word by exclusive or, and the word is multiplied by an odd prime. It is stable
across runs and machines. Records are named by the sixteen hexadecimal digits of the fingerprint of
their content.

`Fingerprint.absorb` is one such step, so the fingerprint of `a ++ b` is the fingerprint of `a`
carried on through `b` (`ofBytes_append`).
-/

namespace ResonantGraph

namespace Fingerprint

/-- The word that every fingerprint starts from. -/
def basis : UInt64 := 0xcbf29ce484222325

/-- The multiplier of every step. -/
def prime : UInt64 := 0x100000001b3

/-- Takes one byte into a fingerprint. -/
def absorb (hash : UInt64) (byte : UInt8) : UInt64 := (hash ^^^ byte.toUInt64) * prime

/-- Carries a fingerprint on through more bytes. -/
def extend (hash : UInt64) (data : List UInt8) : UInt64 := data.foldl absorb hash

/-- The fingerprint of a list of bytes. -/
def ofBytes (data : List UInt8) : UInt64 := extend basis data

/-- The fingerprint of a text, that of its UTF-8 bytes. -/
def ofText (text : String) : UInt64 := ofBytes (Text.bytes text)

/-- The fingerprint of a text in sixteen hexadecimal digits. -/
def hexOfText (text : String) : String := Text.hexWord (ofText text)

theorem ofBytes_append (a b : List UInt8) : ofBytes (a ++ b) = extend (ofBytes a) b := by
  simp [ofBytes, extend]

end Fingerprint

end ResonantGraph
