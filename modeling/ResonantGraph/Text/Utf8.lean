/-!
# UTF-8

Text and its bytes. `bytes` writes, `ofBytes?` reads back and refuses what is no text, and `lossy`
reads anything, with a replacement character for each maximal stretch of bytes that begins a
character and does not complete it.
-/

namespace ResonantGraph.Text

/-- The UTF-8 bytes of a text. -/
def bytes (text : String) : List UInt8 := text.toByteArray.data.toList

/-- The text of a list of bytes, if they are one. -/
def ofBytes? (data : List UInt8) : Option String := String.fromUTF8? ⟨data.toArray⟩

/-- **Reading undoes writing.** -/
@[simp] theorem ofBytes?_bytes (text : String) : ofBytes? (bytes text) = some text := by
  have h : (⟨(bytes text).toArray⟩ : ByteArray) = text.toByteArray := by simp [bytes]
  rw [ofBytes?, h, String.fromUTF8?, dif_pos (by simpa using text.isValidUTF8)]
  rfl

/-- What is read is what was written: accepted bytes are the bytes of their text. -/
theorem bytes_of_ofBytes? {data : List UInt8} {text : String} (h : ofBytes? data = some text) :
    bytes text = data := by
  rw [ofBytes?, String.fromUTF8?] at h
  split at h
  · cases h; simp [bytes, String.fromUTF8]
  · exact absurd h (by simp)

/-! ### Reading anything -/

/-- Whether a byte continues a character. -/
def isContinuation (b : UInt8) : Bool := 0x80 ≤ b && b ≤ 0xbf

/-- How many bytes of a character its first byte announces; 0 for a byte that begins none. -/
def announced (b : UInt8) : Nat :=
  if b < 0x80 then 1
  else if 0xc2 ≤ b && b ≤ 0xdf then 2
  else if 0xe0 ≤ b && b ≤ 0xef then 3
  else if 0xf0 ≤ b && b ≤ 0xf4 then 4
  else 0

/-- Whether a second byte may follow a first one. The narrower ranges keep out forms that are
longer than needed, surrogates, and code points above the last. -/
def follows (first second : UInt8) : Bool :=
  if first = 0xe0 then 0xa0 ≤ second && second ≤ 0xbf
  else if first = 0xed then 0x80 ≤ second && second ≤ 0x9f
  else if first = 0xf0 then 0x90 ≤ second && second ≤ 0xbf
  else if first = 0xf4 then 0x80 ≤ second && second ≤ 0x8f
  else isContinuation second

/-- How many of the bytes after a first byte go on with its character. -/
def continued (first : UInt8) (rest : List UInt8) : Nat :=
  match rest.take (announced first - 1) with
  | [] => 0
  | second :: more =>
    if follows first second then 1 + (more.takeWhile isContinuation).length else 0

/-- The code point of the bytes of one complete character. -/
def codePoint : List UInt8 → Nat
  | [] => 0
  | [a] => a.toNat
  | [a, b] => (a.toNat % 32) * 64 + b.toNat % 64
  | [a, b, c] => ((a.toNat % 16) * 64 + b.toNat % 64) * 64 + c.toNat % 64
  | a :: b :: c :: d :: _ =>
    (((a.toNat % 8) * 64 + b.toNat % 64) * 64 + c.toNat % 64) * 64 + d.toNat % 64

/-- Reads characters from bytes, adding them to the end of a text. -/
def lossyFrom (text : String) (data : List UInt8) : String :=
  match data with
  | [] => text
  | first :: rest =>
    let n := continued first rest
    let c :=
      if announced first = n + 1 then Char.ofNat (codePoint (first :: rest.take n))
      else '\ufffd'
    lossyFrom (text.push c) (rest.drop n)
termination_by data.length
decreasing_by simp only [List.length_drop, List.length_cons]; omega

/-- Reads bytes as text, with a replacement character for each stretch that is none. -/
def lossy (data : List UInt8) : String := lossyFrom "" data

end ResonantGraph.Text
