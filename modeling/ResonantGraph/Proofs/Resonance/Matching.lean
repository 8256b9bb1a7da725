import ResonantGraph.Proofs.Binary64.Storage
import ResonantGraph.Resonance

/-!
# What a score depends on

A score takes a list of patterns, in which a pattern may stand several times, may be empty, and may occur in
the text or not. All that the score gets to know of the list is a number: how many elements the set of
non-empty patterns that occur in the text has (`Resonance.occurring`). Which patterns these are does not
matter, and neither does the frequency of the identity.

So a change to the patterns leaves every bit of the score as it was if it leaves that number
(`resonance_determined`). For the changes that a caller makes, this is seen on the set.
-/

namespace ResonantGraph

namespace Resonance

/-- Whether a pattern is not empty and occurs in a text. -/
def Counts (text pattern : String) : Prop := pattern ≠ "" ∧ pattern.toList <:+: text.toList

instance (text : String) : DecidablePred (Counts text) := fun _ => inferInstanceAs (Decidable (_ ∧ _))

/-- The set of non-empty patterns that occur in a text. -/
def occurring (text : String) (patterns : List String) : Finset String :=
  {pattern ∈ patterns.toFinset | Counts text pattern}

variable {text pattern : String} {patterns others : List String}

theorem mem_occurring : pattern ∈ occurring text patterns ↔ pattern ∈ patterns ∧ Counts text pattern := by
  rw [occurring, Finset.mem_filter, List.mem_toFinset]

/-! ### Lists with the same set -/

/-- Order and repetition do not matter. -/
theorem occurring_congr (h : ∀ pattern, pattern ∈ others ↔ pattern ∈ patterns) :
    occurring text others = occurring text patterns := by
  ext pattern
  rw [mem_occurring, mem_occurring, h]

theorem occurring_append :
    occurring text (patterns ++ others) = occurring text patterns ∪ occurring text others := by
  ext pattern
  simp only [mem_occurring, List.mem_append, Finset.mem_union, or_and_right]

/-- Patterns that are empty or do not occur add nothing. -/
theorem occurring_eq_empty (h : ∀ pattern ∈ others, ¬Counts text pattern) : occurring text others = ∅ := by
  refine Finset.eq_empty_of_forall_notMem fun pattern hmem => ?_
  obtain ⟨hlisted, hcounts⟩ := mem_occurring.1 hmem
  exact h pattern hlisted hcounts

/-- Where patterns that occur are replaced by others that occur, and the rest by a rest, the set is replaced. -/
theorem occurring_map {replace : String → String}
    (h : ∀ pattern ∈ patterns, Counts text (replace pattern) ↔ Counts text pattern) :
    occurring text (patterns.map replace) = (occurring text patterns).image replace := by
  ext new
  simp only [mem_occurring, Finset.mem_image, List.mem_map]
  constructor
  · rintro ⟨⟨pattern, hlisted, rfl⟩, hcounts⟩
    exact ⟨pattern, ⟨hlisted, (h pattern hlisted).1 hcounts⟩, rfl⟩
  · rintro ⟨pattern, ⟨hlisted, hcounts⟩, rfl⟩
    exact ⟨⟨pattern, hlisted, rfl⟩, (h pattern hlisted).2 hcounts⟩

/-! ### The score -/

/-- The patterns that a score goes through are the set, each element once. -/
theorem length_matching : (matching text patterns).length = (occurring text patterns).card := by
  -- the patterns are sorted and freed of repetitions before they are looked for
  have hnodup : (matching text patterns).Nodup := (NameSet.nodup_names _).filter _
  rw [← List.toFinset_card_of_nodup hnodup]
  congr 1
  ext pattern
  simp [matching, mem_occurring, Counts, occursIn, isInfix_iff]

/-- The boosts are multiplied in from left to right. -/
theorem boosted_eq_foldl {α : Type} (A : Arithmetic α) (start : α) (n : Nat) :
    boosted A start n = (List.replicate n A.boost).foldl A.mul start := by
  induction n with
  | zero => rfl
  | succ n ih => rw [List.replicate_succ', List.foldl_concat, ← ih, boosted]

/-- The score of a text and a signature that are not empty. -/
theorem score_eq {α : Type} (A : Arithmetic α) {signature : String} (weight : α) (htext : text ≠ "")
    (hsignature : signature ≠ "") :
    score A text signature patterns weight =
      A.clamp (A.mul
        (boosted A (base A (Fingerprint.ofText text) (Fingerprint.ofText signature))
          (occurring text patterns).card) weight) := by
  rw [score, if_neg (not_or.2 ⟨htext, hsignature⟩), ← length_matching]

end Resonance

open Resonance

/-- Identities that agree in signature and weight score alike if equally many of their patterns occur. -/
theorem resonance_eq_of_card {text : String} {i j : Identity} (hsignature : j.signature = i.signature)
    (hweight : j.weight = i.weight)
    (hcard : (occurring text j.patterns).card = (occurring text i.patterns).card) :
    resonance text j = resonance text i := by
  rw [← length_matching, ← length_matching] at hcard
  simp only [resonance, score, hsignature, hweight, hcard]

/-- **A score depends on nothing but what matches**, bit for bit. Beside the signature and the weight it is
determined by the number of different non-empty patterns that occur in the text. It stays as it is if the
frequency changes, if patterns change their order or are repeated, if patterns that are empty or do not occur
are added anywhere in the list, and if patterns that occur are replaced by as many others that occur. Neither
text nor signature being empty, it is the base with one boost for each such pattern multiplied in from left to
right, times the weight, or zero if zero is not below that. -/
theorem resonance_determined (text : String) (i : Identity) :
    (∀ j : Identity, j.signature = i.signature → j.weight = i.weight →
        (occurring text j.patterns).card = (occurring text i.patterns).card →
        resonance text j = resonance text i) ∧
      (∀ frequency, resonance text { i with frequency } = resonance text i) ∧
      (∀ patterns : List String, (∀ pattern, pattern ∈ patterns ↔ pattern ∈ i.patterns) →
        resonance text { i with patterns } = resonance text i) ∧
      (∀ patterns silent : List String, (∀ pattern ∈ silent, ¬Counts text pattern) →
        patterns.Perm (i.patterns ++ silent) → resonance text { i with patterns } = resonance text i) ∧
      (∀ replace : String → String,
        (∀ pattern ∈ i.patterns, Counts text (replace pattern) ↔ Counts text pattern) →
        Set.InjOn replace (occurring text i.patterns) →
        resonance text { i with patterns := i.patterns.map replace } = resonance text i) ∧
      (text ≠ "" → i.signature ≠ "" →
        let start := base .binary64 (Fingerprint.ofText text) (Fingerprint.ofText i.signature)
        let score := (List.replicate (occurring text i.patterns).card patternBoost).foldl (· * ·) start * i.weight
        resonance text i = if (0 : Binary64).below score then score else 0) := by
  refine ⟨fun j => resonance_eq_of_card, fun frequency => rfl, fun patterns hsame => ?_,
    fun patterns silent hsilent hperm => ?_, fun replace hcounts hinjective => ?_, fun htext hsignature => ?_⟩
  · exact resonance_eq_of_card rfl rfl (congrArg Finset.card (occurring_congr hsame))
  · have hoccurring : occurring text patterns = occurring text i.patterns := by
      rw [occurring_congr fun pattern => hperm.mem_iff, occurring_append, occurring_eq_empty hsilent,
        Finset.union_empty]
    exact resonance_eq_of_card rfl rfl (congrArg Finset.card hoccurring)
  · refine resonance_eq_of_card rfl rfl ?_
    rw [occurring_map hcounts, Finset.card_image_of_injOn hinjective]
  · rw [resonance, score_eq _ _ htext hsignature, boosted_eq_foldl]
    exact Binary64.clamp_eq _

/-- `resonance_determined` for a text in which one of the patterns occurs, and occurs twice. -/
theorem resonance_determined_echoed :
    let i : Identity := { signature := "bell", patterns := ["echo", "", "drum", "echo"] }
    (occurring "echo echo" i.patterns).card = 1 ∧
      resonance "echo echo" { i with patterns := ["drum", "cho e", "bell"] } = resonance "echo echo" i ∧
      resonance "echo echo" { i with patterns := ["echo", "drum", ""] } = resonance "echo echo" i ∧
      resonance "echo echo" { i with patterns := ["bell", "echo", "", "drum", "echo"] } =
        resonance "echo echo" i ∧
      let start := base .binary64 (Fingerprint.ofText "echo echo") (Fingerprint.ofText "bell")
      resonance "echo echo" i =
        if (0 : Binary64).below (start * patternBoost * 1) then start * patternBoost * 1 else 0 := by
  intro i
  obtain ⟨hdetermined, -, hsame, hadded, -, hvalue⟩ := resonance_determined "echo echo" i
  have hcard : (occurring "echo echo" i.patterns).card = 1 := by decide +kernel
  rw [hcard] at hvalue
  refine ⟨hcard, hdetermined _ rfl rfl (by decide +kernel), hsame _ fun pattern => ?_,
    hadded _ ["bell"] (by decide +kernel) (by decide), hvalue (by decide) (by decide)⟩
  simp only [i, List.mem_cons]
  tauto

end ResonantGraph
