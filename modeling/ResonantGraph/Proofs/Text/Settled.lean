import ResonantGraph.Proofs.Text.Lowering

/-!
# Lowered text stays as it is

What lowering leads to is not lowered any further: no image of a run lies in a run (`Text.apart_caseRuns`),
and none is a capital sigma, whose form depends on what stands around it. So a lowered text is settled
character by character (`Text.settled_of_mem_lowercase`), and lowering it again changes nothing
(`Text.lowercase_lowercase`). No image is white space, either, so that lowering brings none into a text
(`Text.mem_of_isBlank_of_mem_lowercase`).
-/

namespace ResonantGraph

namespace Text

/-! ### The images of runs -/

namespace CaseRun

/-- The lowercase form of the first character of a run. -/
def imageFirst (run : CaseRun) : Nat := (run.first + run.distance).toNat

/-- The lowercase form of the last character of a run. -/
def imageLast (run : CaseRun) : Nat := (run.last + run.distance).toNat

/-- Whether the image of a run is not in another run: it lies before it or behind it, or both go in steps of
two and take turns. -/
def apart (run other : CaseRun) : Bool :=
  run.imageLast < other.first || other.last < run.imageFirst ||
    (other.step = 2 && (run.step = 2 || run.first = run.last) &&
      (run.imageFirst + other.first) % 2 = 1)

end CaseRun

theorem apart_caseRuns : (caseRuns.toList.all fun run => caseRuns.toList.all run.apart) = true := by
  decide +kernel

/-- What a run leads to is in no run. -/
theorem not_in_run_of_image {run other : CaseRun} (hrun : run ∈ caseRuns.toList)
    (hother : other ∈ caseRuns.toList) {n d : Nat} (first : run.first ≤ n) (last : n ≤ run.last)
    (step : (n - run.first) % run.step = 0) (eq : (d : Int) = n + run.distance)
    (hfirst : other.first ≤ d) (hlast : d ≤ other.last) : (d - other.first) % other.step ≠ 0 := by
  intro hstep
  have hletters := image_caseRuns run hrun
  have hapart := List.all_eq_true.1 (List.all_eq_true.1 apart_caseRuns run hrun) other hother
  simp only [CaseRun.apart, Bool.or_eq_true, Bool.and_eq_true, decide_eq_true_eq] at hapart
  unfold CaseRun.imageFirst CaseRun.imageLast at hapart
  rcases hapart with (hbelow | habove) | ⟨⟨hother2, hrun⟩, hturn⟩
  · omega
  · omega
  · -- the image keeps to the code points of one parity, and the other run to those of the other
    have hparity : (d + (run.first + run.distance).toNat) % 2 = 0 := by
      rcases hrun with hrun2 | hsingle
      · rw [hrun2] at step
        omega
      · omega
    rw [hother2] at hstep
    omega

/-- The code points of the two characters that are lowered in a way of their own, a capital I with a dot and a
capital sigma. -/
def ownCapitals : List Nat := [0x130, 0x3a3]

theorem image_ne_ownCapitals : ∀ run ∈ caseRuns.toList, ∀ capital ∈ ownCapitals,
    run.imageLast < capital ∨ capital < run.imageFirst := by
  decide +kernel

theorem image_ne_blank : ∀ run ∈ caseRuns.toList, ∀ span ∈ blankSpans.toList,
    run.imageLast < span.1 ∨ span.2 < run.imageFirst := by
  decide +kernel

theorem ownForms_apart : ∀ run ∈ caseRuns.toList, ∀ form ∈ ownForms, run.last < form ∨ form < run.first := by
  decide +kernel

/-! ### Settled characters -/

/-- Small letters and what is no letter are settled in ASCII. -/
theorem settled_of_ascii {c : Char} (hascii : c.toNat < 0x80) (hcapital : c.toNat < 0x41 ∨ 0x5a < c.toNat) :
    Settled c := by
  constructor
  · unfold lowerChar Char.toLower
    rw [if_pos hascii, dif_neg]
    rintro ⟨hlow, hhigh⟩
    have hlow : 0x41 ≤ c.toNat := hlow
    have hhigh : c.toNat ≤ 0x5a := hhigh
    omega
  · rintro rfl
    revert hascii
    decide

/-- Beyond ASCII, a character that no run covers is settled, unless it is one of two. -/
theorem settled_of_forall_run {c : Char} (hascii : 0x80 ≤ c.toNat) (hown : c.toNat ∉ ownCapitals)
    (h : ∀ run ∈ caseRuns.toList, run.first ≤ c.toNat → c.toNat ≤ run.last → (c.toNat - run.first) % run.step ≠ 0) :
    Settled c := by
  have hdotted : c ≠ 'İ' := by
    rintro rfl
    exact hown (by decide)
  have hsigma : c ≠ 'Σ' := by
    rintro rfl
    exact hown (by decide)
  refine ⟨?_, hsigma⟩
  have hnone : (caseRuns.find? fun run =>
      run.first ≤ c.toNat && c.toNat ≤ run.last && (c.toNat - run.first) % run.step = 0) = none := by
    rw [Array.find?_eq_none]
    intro run hrun hinside
    simp only [Bool.and_eq_true, decide_eq_true_eq] at hinside
    exact h run (Array.mem_toList_iff.2 hrun) hinside.1.1 hinside.1.2 hinside.2
  unfold lowerChar
  rw [if_neg (by omega), if_neg hdotted, hnone]

theorem IsImage.settled {d : Char} (h : IsImage d) : Settled d := by
  cases h with
  | small low high => exact settled_of_ascii (by omega) (.inr (by omega))
  | own mem =>
    have hcodes : ∀ form ∈ ownForms, 0x80 ≤ form ∧ form ∉ ownCapitals := by decide
    obtain ⟨hascii, hown⟩ := hcodes _ mem
    refine settled_of_forall_run hascii hown fun run hrun hfirst hlast => ?_
    have hapart := ownForms_apart run hrun _ mem
    omega
  | null eq => exact settled_of_ascii (by omega) (.inl (by omega))
  | moved run mem n first last step eq =>
    have hletters := image_caseRuns run mem
    by_cases hascii : d.toNat < 0x80
    · exact settled_of_ascii hascii (.inr (by omega))
    · have hown : d.toNat ∉ ownCapitals := by
        intro hmem
        have hcode := image_ne_ownCapitals run mem _ hmem
        unfold CaseRun.imageFirst CaseRun.imageLast at hcode
        omega
      refine settled_of_forall_run (by omega) hown ?_
      intro other hother hfirst hlast
      exact not_in_run_of_image mem hother first last step eq hfirst hlast

theorem IsImage.isBlank_eq_false {d : Char} (h : IsImage d) : isBlank d = false := by
  rw [← Bool.not_eq_true]
  intro hblank
  have hspan : ∃ span ∈ blankSpans.toList, span.1 ≤ d.toNat ∧ d.toNat ≤ span.2 := by
    unfold isBlank Spans.holds at hblank
    obtain ⟨i, hi, hinside⟩ := Array.any_eq_true.1 hblank
    rw [Bool.and_eq_true, decide_eq_true_eq, decide_eq_true_eq] at hinside
    exact ⟨blankSpans[i], Array.mem_toList_iff.2 (Array.getElem_mem hi), hinside⟩
  obtain ⟨span, hspan, hlow, hhigh⟩ := hspan
  have hsmall : ∀ span ∈ blankSpans.toList, (0 < span.1 ∧ span.2 < 0x61) ∨ 0x7a < span.1 := by decide
  cases h with
  | small low high =>
    have hapart := hsmall span hspan
    omega
  | own mem =>
    have hforms : ∀ span ∈ blankSpans.toList, ∀ form ∈ ownForms, form < span.1 ∨ span.2 < form := by decide
    have hapart := hforms span hspan _ mem
    omega
  | null eq =>
    have hapart := hsmall span hspan
    omega
  | moved run mem n first last step eq =>
    have hapart := image_ne_blank run mem span hspan
    unfold CaseRun.imageFirst CaseRun.imageLast at hapart
    omega

/-! ### Lowered texts -/

theorem settled_of_mem_lowercase {text : List Char} {d : Char} (hd : d ∈ lowercase text) : Settled d := by
  rcases mem_lowercase_cases hd with ⟨-, hsettled⟩ | himage
  · exact hsettled
  · exact himage.settled

/-- Lowering brings no white space into a text. -/
theorem mem_of_isBlank_of_mem_lowercase {text : List Char} {d : Char} (hblank : isBlank d = true)
    (hd : d ∈ lowercase text) : d ∈ text := by
  rcases mem_lowercase_cases hd with ⟨hmem, -⟩ | himage
  · exact hmem
  · rw [himage.isBlank_eq_false] at hblank
    cases hblank

theorem lowerAfter_of_settled {before text : List Char} (h : ∀ c ∈ text, Settled c) :
    lowerAfter before text = text := by
  induction text generalizing before with
  | nil => rfl
  | cons c rest ih =>
    rw [List.forall_mem_cons] at h
    unfold lowerAfter
    rw [if_neg h.1.not_sigma, h.1.lower, ih h.2]
    rfl

/-- **Lowering twice is lowering once.** -/
theorem lowercase_lowercase (text : List Char) : lowercase (lowercase text) = lowercase text :=
  lowerAfter_of_settled fun _ hc => settled_of_mem_lowercase hc

end Text

end ResonantGraph
