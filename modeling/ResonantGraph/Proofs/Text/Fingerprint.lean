import ResonantGraph.Proofs.Mapper.Names

/-!
# A changed byte shows in the fingerprint

A step of a fingerprint can be taken back by who knows its byte: exclusive or undoes itself, and the
multiplier is odd, so it has an inverse among words (`Fingerprint.release_absorb`). Step by step, whatever
came last can be taken back (`Fingerprint.rewind_extend`), and fingerprints that differ before a common
ending differ after it, too. Two bytes never lead from one word to the same word, and so a text whose bytes
are those of another but for one has another fingerprint.

Fingerprints are written with sixteen digits, which denote them (`Text.readHex_hexPlaces`). Hence such texts
have different flows where the record names none (`Fingerprint.ofBytes_distinguishes`).
-/

namespace ResonantGraph

namespace Text

/-! ### Reading digits -/

/-- The lowercase hexadecimal digits, in order. -/
def hexAlphabet : List Char := "0123456789abcdef".toList

/-- The number that hexadecimal digits denote. -/
def readHex (digits : List Char) : Nat := digits.foldl (fun n digit => 16 * n + hexAlphabet.idxOf digit) 0

theorem idxOf_hexDigit (n : Nat) : hexAlphabet.idxOf (hexDigit n) = n % 16 := by
  have hall : ∀ d : Fin 16, hexAlphabet.idxOf (Nat.digitChar d.val) = d.val := by decide
  exact hall ⟨n % 16, Nat.mod_lt _ (by decide)⟩

theorem mem_hexAlphabet_of_mem_hexPlaces {width n : Nat} {c : Char} (h : c ∈ hexPlaces width n) :
    c ∈ hexAlphabet := by
  induction width generalizing n with
  | zero => cases h
  | succ width ih =>
    unfold hexPlaces at h
    rcases List.mem_append.1 h with hhigh | hlow
    · exact ih hhigh
    · rw [List.mem_singleton.1 hlow, ← List.idxOf_lt_length_iff, idxOf_hexDigit]
      exact Nat.mod_lt n (by decide)

/-- Digits denote the number that they were written for, as far as there are enough of them. -/
theorem readHex_hexPlaces (width n : Nat) : readHex (hexPlaces width n) = n % hexCapacity width := by
  induction width generalizing n with
  | zero => exact (Nat.mod_one n).symm
  | succ width ih =>
    have hhigh := ih (n / 16)
    unfold readHex at hhigh
    unfold readHex hexPlaces hexCapacity
    rw [List.foldl_append, hhigh, Nat.mod_mul, List.foldl_cons, List.foldl_nil, idxOf_hexDigit]
    omega

end Text

namespace Fingerprint

/-! ### Taking bytes back -/

/-- What the multiplier of a step is undone by. -/
def primeInverse : UInt64 := 0xce965057aff6957b

theorem prime_mul_primeInverse : prime * primeInverse = 1 := by decide

/-- Takes back the step for a byte. -/
def release (hash : UInt64) (byte : UInt8) : UInt64 := (hash * primeInverse) ^^^ byte.toUInt64

/-- Takes back the steps for bytes, the last of them first. -/
def rewind (hash : UInt64) (data : List UInt8) : UInt64 := data.foldr (fun byte hash => release hash byte) hash

theorem release_absorb (hash : UInt64) (byte : UInt8) : release (absorb hash byte) byte = hash := calc
  _ = ((hash ^^^ byte.toUInt64) * (prime * primeInverse)) ^^^ byte.toUInt64 := by
    rw [← UInt64.mul_assoc]
    rfl
  _ = hash ^^^ (byte.toUInt64 ^^^ byte.toUInt64) := by
    rw [prime_mul_primeInverse, UInt64.mul_one, UInt64.xor_assoc]
  _ = hash := by rw [UInt64.xor_self, UInt64.xor_zero]

theorem rewind_extend (hash : UInt64) (data : List UInt8) : rewind (extend hash data) data = hash := by
  induction data generalizing hash with
  | nil => rfl
  | cons byte rest ih =>
    -- the first byte was taken in first, so it is taken back last
    change release (rewind (extend (absorb hash byte) rest) rest) byte = hash
    rw [ih, release_absorb]

/-- What comes after does not hide a difference. -/
theorem extend_inj {hash hash' : UInt64} {data : List UInt8} :
    extend hash data = extend hash' data ↔ hash = hash' := by
  constructor
  · intro h
    rw [← rewind_extend hash data, h, rewind_extend]
  · rintro rfl
    rfl

/-- From one word, different bytes lead to different words. -/
theorem absorb_injective {hash : UInt64} {x y : UInt8} (h : absorb hash x = absorb hash y) : x = y := by
  have hmasked : hash ^^^ x.toUInt64 = hash ^^^ y.toUInt64 := by
    have hreleased := congrArg (· * primeInverse) h
    unfold absorb at hreleased
    simpa only [UInt64.mul_assoc, prime_mul_primeInverse, UInt64.mul_one] using hreleased
  exact UInt8.toUInt64_inj.1 ((UInt64.xor_right_inj hash).1 hmasked)

theorem ofBytes_append_inj {a b : List UInt8} (t : List UInt8) :
    ofBytes (a ++ t) = ofBytes (b ++ t) ↔ ofBytes a = ofBytes b := by
  rw [ofBytes_append, ofBytes_append]
  exact extend_inj

/-- Another byte in one place makes another fingerprint. -/
theorem ofBytes_ne_of_ne (p t : List UInt8) {x y : UInt8} (h : x ≠ y) :
    ofBytes (p ++ [x] ++ t) ≠ ofBytes (p ++ [y] ++ t) := by
  intro heq
  have hplaced := (ofBytes_append_inj t).1 heq
  rw [ofBytes_append, ofBytes_append] at hplaced
  exact h (absorb_injective hplaced)

/-! ### Texts of one length that differ in one byte -/

/-- Lists of one length that differ in one place agree before and behind it. -/
theorem exists_append_of_existsUnique {a b : List UInt8} (hlength : a.length = b.length)
    (h : ∃! i : Nat, a[i]? ≠ b[i]?) : ∃ p x y t, x ≠ y ∧ a = p ++ [x] ++ t ∧ b = p ++ [y] ++ t := by
  obtain ⟨i, hne, honly⟩ := h
  have hagree (j : Nat) (hj : j ≠ i) : a[j]? = b[j]? := by
    by_contra hother
    exact hj (honly j hother)
  have hi : i < a.length := by
    by_contra hbeyond
    apply hne
    rw [List.getElem?_eq_none (by omega), List.getElem?_eq_none (by omega)]
  have hi' : i < b.length := hlength ▸ hi
  have hbefore : a.take i = b.take i := by
    apply List.ext_getElem?
    intro j
    rw [List.getElem?_take, List.getElem?_take]
    split
    · next hj => exact hagree j (by omega)
    · rfl
  have hbehind : a.drop (i + 1) = b.drop (i + 1) := by
    apply List.ext_getElem?
    intro j
    rw [List.getElem?_drop, List.getElem?_drop]
    exact hagree _ (by omega)
  refine ⟨a.take i, a[i], b[i], a.drop (i + 1), ?_, ?_, ?_⟩
  · intro heq
    apply hne
    rw [List.getElem?_eq_getElem hi, List.getElem?_eq_getElem hi', heq]
  · rw [List.take_append_getElem, List.take_append_drop]
  · rw [hbefore, hbehind, List.take_append_getElem, List.take_append_drop]

/-- The sixteen digits of a fingerprint denote it. -/
theorem readHex_hexOfText (text : String) : Text.readHex (hexOfText text).toList = (ofText text).toNat := by
  unfold hexOfText Text.hexWord
  rw [String.toList_ofList, Text.readHex_hexPlaces]
  exact Nat.mod_eq_of_lt (ofText text).toNat_lt

theorem hexOfText_ne_of_existsUnique {text text' : String}
    (hlength : (Text.bytes text).length = (Text.bytes text').length)
    (h : ∃! i : Nat, (Text.bytes text)[i]? ≠ (Text.bytes text')[i]?) : hexOfText text ≠ hexOfText text' := by
  intro heq
  obtain ⟨p, x, y, t, hne, ha, hb⟩ := exists_append_of_existsUnique hlength h
  have hsame : ofText text = ofText text' := Text.hexWord_injective heq
  unfold ofText at hsame
  rw [ha, hb] at hsame
  exact ofBytes_ne_of_ne p t hne hsame

/-- **A changed byte is never lost.** Bytes that follow neither hide a difference of fingerprints nor make
one, and another byte in any one place, whatever stands before and behind it, makes another fingerprint. A
fingerprint is written with exactly sixteen lowercase hexadecimal digits, which denote it. Hence two records
that name no flow, with contents of as many bytes that differ in exactly one, have contents with different
fingerprints in writing, and belong to different flows. -/
theorem ofBytes_distinguishes :
    (∀ a b t : List UInt8, ofBytes (a ++ t) = ofBytes (b ++ t) ↔ ofBytes a = ofBytes b) ∧
    (∀ (p t : List UInt8) (x y : UInt8), x ≠ y → ofBytes (p ++ [x] ++ t) ≠ ofBytes (p ++ [y] ++ t)) ∧
    (∀ text : String,
      (hexOfText text).length = 16 ∧ (∀ c ∈ (hexOfText text).toList, c ∈ Text.hexAlphabet) ∧
        Text.readHex (hexOfText text).toList = (ofText text).toNat) ∧
    ∀ r r' : Record, r.uuid? = none → r'.uuid? = none →
      (Text.bytes r.content).length = (Text.bytes r'.content).length →
      (∃! i : Nat, (Text.bytes r.content)[i]? ≠ (Text.bytes r'.content)[i]?) →
      hexOfText r.content ≠ hexOfText r'.content ∧
        Mapper.flowOf r = "flow_" ++ hexOfText r.content ∧ Mapper.flowOf r' = "flow_" ++ hexOfText r'.content ∧
        Mapper.flowOf r ≠ Mapper.flowOf r' := by
  refine ⟨fun a b t => ofBytes_append_inj t, fun p t x y h => ofBytes_ne_of_ne p t h, fun text => ?_, ?_⟩
  · refine ⟨Mapper.length_hexOfText text, fun c hc => ?_, readHex_hexOfText text⟩
    unfold hexOfText Text.hexWord at hc
    rw [String.toList_ofList] at hc
    exact Text.mem_hexAlphabet_of_mem_hexPlaces hc
  · intro r r' hr hr' hlength hone
    have hhex := hexOfText_ne_of_existsUnique hlength hone
    refine ⟨hhex, Mapper.flowOf_unnamed hr, Mapper.flowOf_unnamed hr', fun hflow => hhex ?_⟩
    rw [Mapper.flowOf_unnamed hr, Mapper.flowOf_unnamed hr'] at hflow
    exact (String.append_right_inj _).1 hflow

/-- `ofBytes_distinguishes` for two letters with different accents, which differ in the second of their two
bytes, in records of which one has an empty name for its flow. -/
theorem ofBytes_distinguishes_accents :
    let r : Record := ⟨"né", ∅⟩
    let r' : Record := ⟨"nè", (∅ : Attributes).insert Record.flowAttribute ""⟩
    r.uuid? = none ∧ r'.uuid? = none ∧ Text.bytes r.content = [0x6e, 0xc3, 0xa9] ∧
      Text.bytes r'.content = [0x6e, 0xc3, 0xa8] ∧ ofBytes [0x6e, 0xc3, 0xa9] ≠ ofBytes [0x6e, 0xc3, 0xa8] ∧
      hexOfText r.content ≠ hexOfText r'.content ∧ Mapper.flowOf r ≠ Mapper.flowOf r' := by
  intro r r'
  have hr : r.uuid? = none := by decide
  have hr' : r'.uuid? = none := by decide
  have hbytes : Text.bytes r.content = [0x6e, 0xc3, 0xa9] := by decide
  have hbytes' : Text.bytes r'.content = [0x6e, 0xc3, 0xa8] := by decide
  have hone : ∃! i : Nat, (Text.bytes r.content)[i]? ≠ (Text.bytes r'.content)[i]? := by
    rw [hbytes, hbytes']
    refine ⟨2, by decide, fun i hi => ?_⟩
    -- the other two bytes agree, and there are no more
    match i with
    | 0 => exact absurd rfl hi
    | 1 => exact absurd rfl hi
    | 2 => rfl
    | _ + 3 => exact absurd rfl hi
  obtain ⟨-, hplace, -, hrecords⟩ := ofBytes_distinguishes
  obtain ⟨hhex, -, -, hflow⟩ := hrecords r r' hr hr' (by rw [hbytes, hbytes']; rfl) hone
  exact ⟨hr, hr', hbytes, hbytes', hplace [0x6e, 0xc3] [] 0xa9 0xa8 (by decide), hhex, hflow⟩

end Fingerprint

end ResonantGraph
