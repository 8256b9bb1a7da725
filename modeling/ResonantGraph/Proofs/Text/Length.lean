import ResonantGraph.Text.Utf8
import ResonantGraph.Words
import Mathlib.Data.String.Basic

/-!
# How long texts get

A character takes four bytes at most (`Text.length_bytes_le`). Reading bytes as text gives no more
characters than there are bytes (`Text.length_lossy_le`), and lowering at most doubles a text
(`Text.length_lowercase_le`). So a word of a text is no longer than twice the text, and there are hardly
more words than characters (`Words.length_le_of_mem_listWith`, `Words.length_listWith_le`).
-/

namespace ResonantGraph

namespace Text

/-! ### Bytes -/

theorem length_bytes (text : String) : (bytes text).length = text.utf8ByteSize := by
  unfold bytes
  rw [Array.length_toList]
  rfl

theorem length_bytes_append (text more : String) :
    (bytes (text ++ more)).length = (bytes text).length + (bytes more).length := by
  rw [length_bytes, length_bytes, length_bytes, String.utf8ByteSize_append]

theorem utf8Len_le (chars : List Char) : String.utf8Len chars ≤ 4 * chars.length := by
  induction chars with
  | nil => exact Nat.le_refl 0
  | cons c rest ih =>
    have hc := c.utf8Size_le_four
    rw [String.utf8Len_cons, List.length_cons]
    omega

/-- A character takes four bytes at most. -/
theorem length_bytes_le (text : String) : (bytes text).length ≤ 4 * text.length := by
  have h := utf8Len_le text.toList
  rwa [← String.utf8ByteSize_ofList, String.ofList_toList, String.length_toList, ← length_bytes] at h

theorem length_lossyFrom_le (text : String) (data : List UInt8) :
    (lossyFrom text data).length ≤ text.length + data.length := by
  fun_induction lossyFrom text data with
  | case1 text => exact Nat.le_refl _
  | case2 text first rest n c ih =>
    -- one character for the first byte and those that go on with it
    rw [String.length_push, List.length_drop] at ih
    rw [List.length_cons]
    omega

/-- Bytes have no more characters than there are bytes. -/
theorem length_lossy_le (data : List UInt8) : (lossy data).length ≤ data.length := by
  have h := length_lossyFrom_le "" data
  rwa [show "".length = 0 from rfl, Nat.zero_add] at h

/-! ### Runs -/

theorem length_pieces_le (text : List Char) : (pieces text).length ≤ text.length + 1 := by
  induction text with
  | nil => exact Nat.le_refl 1
  | cons c rest ih =>
    unfold pieces
    split
    · exact Nat.succ_le_succ ih
    · cases h : pieces rest with
      | nil => exact absurd h (pieces_ne_nil rest)
      | cons piece others =>
        rw [h] at ih
        exact Nat.le_succ_of_le ih

theorem length_le_of_mem_pieces (text : List Char) : ∀ piece ∈ pieces text, piece.length ≤ text.length := by
  induction text with
  | nil => exact List.forall_mem_singleton.2 (Nat.le_refl 0)
  | cons c rest ih =>
    have hrest (piece : List Char) (h : piece ∈ pieces rest) : piece.length ≤ (c :: rest).length :=
      Nat.le_succ_of_le (ih piece h)
    unfold pieces
    split
    · exact List.forall_mem_cons.2 ⟨Nat.zero_le _, hrest⟩
    · cases h : pieces rest with
      | nil => exact absurd h (pieces_ne_nil rest)
      | cons piece others =>
        rw [h, List.forall_mem_cons] at ih
        rw [h, List.forall_mem_cons] at hrest
        exact List.forall_mem_cons.2 ⟨Nat.succ_le_succ ih.1, hrest.2⟩

/-! ### Lowering -/

theorem length_lowerChar_le (c : Char) : (lowerChar c).length ≤ 2 := by
  unfold lowerChar
  split
  · exact Nat.le_succ 1
  · split
    · exact Nat.le_refl 2
    · split
      · exact Nat.le_succ 1
      · exact Nat.le_succ 1

theorem length_lowerAfter_le (before text : List Char) :
    (lowerAfter before text).length ≤ 2 * text.length := by
  induction text generalizing before with
  | nil => exact Nat.le_refl 0
  | cons c rest ih =>
    have hrest := ih (c :: before)
    have hc := length_lowerChar_le c
    unfold lowerAfter
    dsimp only
    rw [List.length_append, List.length_cons]
    split
    · rw [List.length_singleton]
      omega
    · omega

/-- Lowering at most doubles a text. -/
theorem length_lowercase_le (text : List Char) : (lowercase text).length ≤ 2 * text.length :=
  length_lowerAfter_le [] text

end Text

namespace Words

variable {minLength : Nat} {text : String}

/-- A word is a run of the text, lowered, and a text has no more runs than pieces. -/
theorem length_listWith_le (lower : List Char → List Char) (chars : List Char) :
    (listWith lower minLength chars).length ≤ chars.length + 1 := calc
  _ ≤ ((Text.runs chars).map (ofRun lower)).length := List.length_filter_le ..
  _ = (Text.runs chars).length := List.length_map ..
  _ ≤ (Text.pieces chars).length := List.length_filter_le ..
  _ ≤ chars.length + 1 := Text.length_pieces_le chars

theorem length_le_of_mem_listWith {chars word : List Char}
    (h : word ∈ listWith Text.lowercase minLength chars) : word.length ≤ 2 * chars.length := by
  obtain ⟨run, hrun, rfl⟩ := List.mem_map.1 (List.mem_of_mem_filter h)
  have hpiece := Text.length_le_of_mem_pieces chars run (List.mem_of_mem_filter hrun)
  have hstripped : (run.filter fun c => !isPunctuation c).length ≤ run.length := List.length_filter_le ..
  have hlowered := Text.length_lowercase_le (run.filter fun c => !isPunctuation c)
  unfold ofRun
  omega

end Words

end ResonantGraph
