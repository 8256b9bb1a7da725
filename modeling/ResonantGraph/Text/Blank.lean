import ResonantGraph.Text.Spans

/-!
# White space and words

White space is what Unicode gives the property `White_Space`, a set that has not changed for many
versions of the standard. A text splits into its *runs*, the maximal stretches without white space
(`runs`), and trimming drops white space at both ends (`trim`).

`runs_append_blank` says that a white space character is a place where a text may be cut: the runs
on both sides are the runs of the whole.
-/

namespace ResonantGraph.Text

/-- The characters with the property `White_Space`. -/
def blankSpans : Spans :=
  #[(0x9, 0xd), (0x20, 0x20), (0x85, 0x85), (0xa0, 0xa0), (0x1680, 0x1680), (0x2000, 0x200a),
  (0x2028, 0x2029), (0x202f, 0x202f), (0x205f, 0x205f), (0x3000, 0x3000)]

/-- Whether a character is white space. -/
def isBlank (c : Char) : Bool := blankSpans.holds c

/-- Puts a character in front of the first run of a list, or starts one. -/
def extendRun (c : Char) : List (List Char) → List (List Char)
  | [] => [[c]]
  | run :: rest => (c :: run) :: rest

/-- Splits at white space, keeping the empty pieces between neighbouring white space. -/
def pieces : List Char → List (List Char)
  | [] => [[]]
  | c :: rest => if isBlank c then [] :: pieces rest else extendRun c (pieces rest)

/-- The maximal stretches without white space. -/
def runs (text : List Char) : List (List Char) := (pieces text).filter (· ≠ [])

theorem pieces_ne_nil (text : List Char) : pieces text ≠ [] := by
  induction text with
  | nil => simp [pieces]
  | cons c rest ih =>
    simp only [pieces]
    split
    · simp
    · cases h : pieces rest <;> simp [extendRun]

theorem extendRun_append (c : Char) {l : List (List Char)} (h : l ≠ [])
    (m : List (List Char)) : extendRun c (l ++ m) = extendRun c l ++ m := by
  cases l with
  | nil => exact absurd rfl h
  | cons run rest => rfl

theorem pieces_append_blank (a b : List Char) {s : Char} (hs : isBlank s = true) :
    pieces (a ++ s :: b) = pieces a ++ pieces b := by
  induction a with
  | nil => simp [pieces, hs]
  | cons c rest ih =>
    simp only [List.cons_append, pieces, ih]
    split
    · rfl
    · rw [extendRun_append c (pieces_ne_nil rest)]

/-- **A text may be cut at white space.** -/
theorem runs_append_blank (a b : List Char) {s : Char} (hs : isBlank s = true) :
    runs (a ++ s :: b) = runs a ++ runs b := by
  rw [runs, pieces_append_blank a b hs, List.filter_append]
  rfl

/-- Drops white space at both ends of a text. -/
def trim (text : List Char) : List Char :=
  ((text.dropWhile isBlank).reverse.dropWhile isBlank).reverse

end ResonantGraph.Text
