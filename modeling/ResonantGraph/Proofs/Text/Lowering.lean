import ResonantGraph.Words
import Mathlib.Data.List.Basic

/-!
# Words have no punctuation

A character is its own lowercase form, or lowering leads to an image (`Text.IsImage`): to a small letter of
ASCII, to the image of a run of the case data, or to one of three characters of its own, a combining dot and
the two small sigmas. So it is for a whole text, too (`Text.mem_lowercase_cases`). The case data lead to small
letters or beyond ASCII (`Text.image_caseRuns`), and so lowering brings no ASCII punctuation into a text.

A word is lowered after its punctuation has been dropped, so it has none
(`Words.isPunctuation_of_mem_ofText`). Of the characters that identifiers are joined with, this keeps the low
line out of words.
-/

namespace ResonantGraph

namespace Text

/-! ### Characters -/

/-- The lowercase forms in the case data are small letters of ASCII, or beyond it. -/
theorem image_caseRuns : ∀ run ∈ caseRuns.toList,
    (0x60 < run.first + run.distance ∧ run.last + run.distance < 0x7b) ∨
      0x7e < run.first + run.distance := by
  decide +kernel

/-- A code point names a character with this code point, or the null character. -/
theorem toNat_ofNat_cases (n : Nat) : (Char.ofNat n).toNat = n ∨ (Char.ofNat n).toNat = 0 := by
  unfold Char.ofNat
  by_cases hvalid : n.isValidChar
  · rw [dif_pos hvalid]
    exact .inl rfl
  · rw [dif_neg hvalid]
    exact .inr rfl

/-- Lowering an ASCII character makes it a small letter, or changes nothing. -/
theorem toLower_cases (c : Char) :
    c.toLower = c ∨ 0x61 ≤ c.toLower.toNat ∧ c.toLower.toNat ≤ 0x7a := by
  unfold Char.toLower
  split
  · next hcapital =>
    have hlow : 0x41 ≤ c.val.toNat := hcapital.1
    have hhigh : c.val.toNat ≤ 0x5a := hcapital.2
    right
    change 0x61 ≤ (c.val + 32).toNat ∧ (c.val + 32).toNat ≤ 0x7a
    simp only [UInt32.toNat_add, UInt32.reduceToNat]
    omega
  · exact .inl rfl

/-- The code points of what a dotted I and a sigma lead to outside the case data: a combining dot and the small
sigmas. -/
def ownForms : List Nat := [0x307, 0x3c2, 0x3c3]

/-- What lowering leads to from another character. -/
inductive IsImage (d : Char) : Prop
  /-- A small letter of ASCII. -/
  | small (low : 0x61 ≤ d.toNat) (high : d.toNat ≤ 0x7a)
  /-- A form outside the case data. -/
  | own (mem : d.toNat ∈ ownForms)
  /-- The null character, in the place of a code point that is none. -/
  | null (eq : d.toNat = 0)
  /-- The form of a character of a run. -/
  | moved (run : CaseRun) (mem : run ∈ caseRuns.toList) (n : Nat) (first : run.first ≤ n) (last : n ≤ run.last)
    (step : (n - run.first) % run.step = 0) (eq : d.toNat = n + run.distance)

/-- A character is its own lowercase form, or each of its lowercase forms is an image. -/
theorem lowerChar_cases {c d : Char} (hd : d ∈ lowerChar c) : lowerChar c = [c] ∧ d = c ∨ IsImage d := by
  unfold lowerChar at hd ⊢
  split at hd
  · next hascii =>
    rw [if_pos hascii]
    obtain rfl := List.mem_singleton.1 hd
    rcases toLower_cases c with hsame | ⟨hlow, hhigh⟩
    · rw [hsame]
      exact .inl ⟨rfl, rfl⟩
    · exact .inr (.small hlow hhigh)
  · next hascii =>
    rw [if_neg hascii]
    split at hd
    · rcases List.mem_pair.1 hd with rfl | rfl
      · exact .inr (.small (by decide) (by decide))
      · exact .inr (.own (by decide))
    · next hdotted =>
      rw [if_neg hdotted]
      split at hd
      · next run hrun =>
        obtain rfl := List.mem_singleton.1 hd
        have hmem := Array.mem_toList_iff.2 (Array.mem_of_find?_eq_some hrun)
        have hinside := Array.find?_some hrun
        simp only [Bool.and_eq_true, decide_eq_true_eq] at hinside
        obtain ⟨⟨hfirst, hlast⟩, hstep⟩ := hinside
        right
        rcases toNat_ofNat_cases (c.toNat + run.distance).toNat with hcode | hnull
        · refine .moved run hmem c.toNat hfirst hlast hstep ?_
          -- an image is beyond the capitals of ASCII, and so not negative
          have himage := image_caseRuns run hmem
          omega
        · exact .null hnull
      · exact .inl ⟨rfl, List.mem_singleton.1 hd⟩

/-! ### Texts -/

/-- A character that lowering leaves alone, wherever it stands. -/
structure Settled (c : Char) : Prop where
  /-- It is its own lowercase form. -/
  lower : lowerChar c = [c]
  /-- It is not lowered by what stands around it. -/
  not_sigma : c ≠ 'Σ'

theorem mem_lowerAfter_cases {before text : List Char} {d : Char} (hd : d ∈ lowerAfter before text) :
    (d ∈ text ∧ Settled d) ∨ IsImage d := by
  induction text generalizing before with
  | nil => cases hd
  | cons c rest ih =>
    unfold lowerAfter at hd
    rcases List.mem_append.1 hd with hhere | hrest
    · split at hhere
      · -- whatever stands around it, a capital sigma has a form of its own
        right
        rw [List.mem_singleton.1 hhere]
        split
        · exact .own (by decide)
        · exact .own (by decide)
      · next hsigma =>
        rcases lowerChar_cases hhere with ⟨hsame, rfl⟩ | himage
        · exact .inl ⟨List.mem_cons_self, hsame, hsigma⟩
        · exact .inr himage
    · rcases ih hrest with ⟨hmem, hsettled⟩ | hother
      · exact .inl ⟨List.mem_cons_of_mem _ hmem, hsettled⟩
      · exact .inr hother

/-- In a lowered text is what was settled before, and images. -/
theorem mem_lowercase_cases {text : List Char} {d : Char} (hd : d ∈ lowercase text) :
    (d ∈ text ∧ Settled d) ∨ IsImage d := mem_lowerAfter_cases hd

/-! ### Punctuation -/

/-- The code points of ASCII punctuation. -/
theorem toNat_of_isPunctuation {c : Char} (h : Words.isPunctuation c = true) :
    0x21 ≤ c.toNat ∧ (c.toNat < 0x61 ∨ 0x7a < c.toNat) ∧ c.toNat ≤ 0x7e := by
  have toNat_le {a b : Char} (h : a ≤ b) : a.toNat ≤ b.toNat := h
  unfold Words.isPunctuation at h
  simp only [Bool.or_eq_true, Bool.and_eq_true, decide_eq_true_eq] at h
  rcases h with ((h | h) | h) | h <;>
  · have hlow := toNat_le h.1
    have hhigh := toNat_le h.2
    simp only [Char.reduceToNat] at hlow hhigh
    omega

theorem IsImage.isPunctuation_eq_false {d : Char} (h : IsImage d) : Words.isPunctuation d = false := by
  rw [← Bool.not_eq_true]
  intro hpunctuation
  have hcode := toNat_of_isPunctuation hpunctuation
  cases h with
  | small low high => omega
  | own mem =>
    have hforms : ∀ form ∈ ownForms, 0x7e < form := by decide
    have hbeyond := hforms _ mem
    omega
  | null eq => omega
  | moved run mem n first last step eq =>
    have himage := image_caseRuns run mem
    omega

/-- Lowering brings no punctuation into a text. -/
theorem mem_of_isPunctuation_of_mem_lowercase {text : List Char} {d : Char}
    (h : Words.isPunctuation d = true) (hd : d ∈ lowercase text) : d ∈ text := by
  rcases mem_lowercase_cases hd with ⟨hmem, -⟩ | himage
  · exact hmem
  · rw [himage.isPunctuation_eq_false] at h
    cases h

end Text

namespace Words

/-- **There is no punctuation in a word.** -/
theorem isPunctuation_of_mem_ofText {minLength : Nat} {text word : String}
    (hword : word ∈ ofText minLength text) {c : Char} (hc : c ∈ word.toList) :
    isPunctuation c = false := by
  obtain ⟨chars, hchars, rfl⟩ := List.mem_map.1 (NameSet.mem_ofNames.1 hword)
  obtain ⟨run, -, rfl⟩ := List.mem_map.1 (List.mem_of_mem_filter hchars)
  rw [String.toList_ofList] at hc
  rw [← Bool.not_eq_true]
  intro h
  have hkept := Text.mem_of_isPunctuation_of_mem_lowercase h hc
  have hdropped := (List.mem_filter.1 hkept).2
  rw [h] at hdropped
  cases hdropped

end Words

end ResonantGraph
