import ResonantGraph.Proofs.Mapper.Extent
import ResonantGraph.Proofs.Text.Lowering

/-!
# Which identifiers meet

The identifiers of nodes are joined from a flow, a word, the name of an attribute or of a unit and a fixed
text, and share one space of names. A low line stands between the parts, but flows and names of attributes
may have low lines of their own. So a content can have the identifier of a word, though of one word only
(`wordId_eq_contentId_iff`), or that of an attribute of another flow. All other families are apart: words
have no low line, and the fixed texts differ. A flow that is named by the fingerprint of its content keeps
its content apart from everything (`attributeId_ne_contentId_flowOf`, `wordId_ne_contentId_flowOf`).
-/

namespace ResonantGraph

/-- Where a separator is not in the part before it, it ends that part in another reading too, or this
reading has its separator further on. -/
theorem Text.append_separator_cases {c : Char} {x y front back : List Char} (hx : c ∉ x)
    (h : x ++ c :: y = front ++ c :: back) :
    (front = x ∧ y = back) ∨ ∃ t, front = x ++ c :: t ∧ y = t ++ c :: back := by
  rcases List.append_eq_append_iff.1 h with ⟨t, hfront, hy⟩ | ⟨t, rfl, hback⟩
  · cases t with
    | nil =>
      rw [List.append_nil] at hfront
      exact .inl ⟨hfront, (List.cons.inj hy).2⟩
    | cons d t =>
      obtain ⟨rfl, rfl⟩ := List.cons.inj hy
      exact .inr ⟨t, hfront, rfl⟩
  · cases t with
    | nil => exact .inl ⟨(List.append_nil _).symm, (List.cons.inj hback).2.symm⟩
    | cons d t =>
      obtain ⟨rfl, -⟩ := List.cons.inj hback
      exact absurd (List.mem_append_right _ List.mem_cons_self) hx

namespace Mapper

variable {flow flow' name name' word word' : String}

/-! ### Identifiers as characters -/

theorem toList_contentId (flow : String) :
    (contentId flow).toList = flow.toList ++ '_' :: "content".toList := String.toList_append

theorem toList_wordId (word : String) : (wordId word).toList = "word".toList ++ '_' :: word.toList := by
  unfold wordId
  rw [String.toList_append]
  rfl

theorem toList_attributeId (flow name : String) :
    (attributeId flow name).toList = flow.toList ++ '_' :: ("attr".toList ++ '_' :: name.toList) := by
  unfold attributeId
  rw [String.toList_append, String.toList_append, List.append_assoc]
  rfl

/-! ### Within a family -/

theorem contentId_injective (h : contentId flow = contentId flow') : flow = flow' := by
  unfold contentId at h
  exact (String.append_left_inj _).1 h

theorem wordId_injective (h : wordId word = wordId word') : word = word' := by
  unfold wordId at h
  exact (String.append_right_inj _).1 h

/-- Attributes of flows with names of one length have identifiers that tell the flow and the name. -/
theorem attributeId_inj (hlength : flow.length = flow'.length)
    (h : attributeId flow name = attributeId flow' name') : flow = flow' ∧ name = name' := by
  have hlists := congrArg String.toList h
  rw [toList_attributeId, toList_attributeId] at hlists
  have hlengths : flow.toList.length = flow'.toList.length := by
    rw [String.length_toList, String.length_toList, hlength]
  obtain rfl := String.toList_injective (List.append_inj_left hlists hlengths)
  exact ⟨rfl, attributeId_injective h⟩

/-! ### Between families -/

/-- No word has a low line. -/
theorem lowLine_notMem_of_mem_wordsOf {m : Mapper} {record : Record} (h : word ∈ m.wordsOf record) :
    '_' ∉ word.toList := by
  intro hmem
  have hnone := Words.isPunctuation_of_mem_ofText (NameSet.mem_names.1 h) hmem
  revert hnone
  decide

/-- A word and a content share an identifier in one case. -/
theorem wordId_eq_contentId_iff (h : '_' ∉ word.toList) :
    wordId word = contentId flow ↔ word = "content" ∧ flow = "word" := by
  constructor
  · intro heq
    have hlists := congrArg String.toList heq
    rw [toList_wordId, toList_contentId] at hlists
    rcases Text.append_separator_cases (by decide) hlists with ⟨hflow, hword⟩ | ⟨t, -, hword⟩
    · exact ⟨String.toList_injective hword, String.toList_injective hflow⟩
    · rw [hword] at h
      exact absurd (List.mem_append_right _ List.mem_cons_self) h
  · rintro ⟨rfl, rfl⟩
    rfl

theorem attributeId_ne_wordId (h : '_' ∉ word.toList) : attributeId flow name ≠ wordId word := by
  intro heq
  have hlists := congrArg String.toList heq.symm
  rw [toList_wordId, toList_attributeId] at hlists
  -- a low line follows the first part of the attribute's identifier, and it would be in the word
  rcases Text.append_separator_cases (by decide) hlists with ⟨-, hword⟩ | ⟨t, -, hword⟩ <;>
  · rw [hword] at h
    exact absurd (List.mem_append_right _ List.mem_cons_self) h

/-- A flow has no attribute in the place of its content. -/
theorem attributeId_ne_contentId (hlength : flow.length = flow'.length) :
    attributeId flow name ≠ contentId flow' := by
  intro heq
  have hlists := congrArg String.toList heq
  rw [toList_attributeId, toList_contentId] at hlists
  have hlengths : flow.toList.length = flow'.toList.length := by
    rw [String.length_toList, String.length_toList, hlength]
  have hrest := List.append_inj_right hlists hlengths
  cases hrest

theorem rootId_ne_contentId (unit flow : String) : Processor.rootId unit ≠ contentId flow := by
  intro heq
  have hlists := congrArg String.toList heq
  have hroot : (Processor.rootId unit).toList = (unit.toList ++ "_ro".toList) ++ "ot".toList := by
    unfold Processor.rootId
    rw [String.toList_append, List.append_assoc]
    rfl
  have hcontent : (contentId flow).toList = (flow.toList ++ "_conte".toList) ++ "nt".toList := by
    rw [toList_contentId, List.append_assoc]
    rfl
  rw [hroot, hcontent] at hlists
  have hending := List.append_inj_right' hlists rfl
  revert hending
  decide

theorem lowLine_notMem_hexOfText (text : String) : '_' ∉ (Fingerprint.hexOfText text).toList := by
  have hplaces (width n : Nat) : '_' ∉ Text.hexPlaces width n := by
    induction width generalizing n with
    | zero => exact List.not_mem_nil
    | succ width ih =>
      have hdigits : ∀ d : Fin 16, Nat.digitChar d ≠ '_' := by decide
      unfold Text.hexPlaces Text.hexDigit
      rw [List.mem_append, List.mem_singleton, not_or]
      exact ⟨ih _, (hdigits ⟨n % 16, Nat.mod_lt _ (by decide)⟩).symm⟩
  unfold Fingerprint.hexOfText Text.hexWord
  rw [String.toList_ofList]
  exact hplaces 16 _

/-! ### Flows without a name of their own -/

section Unnamed

variable {record : Record} (h : record.uuid? = none)

include h

theorem flowOf_unnamed : flowOf record = "flow_" ++ Fingerprint.hexOfText record.content := by
  unfold flowOf
  rw [h]
  rfl

theorem length_flowOf_unnamed : (flowOf record).length = 21 := by
  rw [flowOf_unnamed h, String.length_append, length_hexOfText]
  rfl

/-- Such a flow is not called by a word. -/
theorem flowOf_ne_word : flowOf record ≠ "word" := by
  intro heq
  have hlength := length_flowOf_unnamed h
  rw [heq] at hlength
  revert hlength
  decide

/-- No word is in the place of such a content. -/
theorem wordId_ne_contentId_flowOf (word : String) : wordId word ≠ contentId (flowOf record) := by
  intro heq
  have hlists := congrArg String.toList heq
  rw [toList_wordId, toList_contentId, flowOf_unnamed h, String.toList_append] at hlists
  cases hlists

/-- No attribute is in the place of such a content, whatever its flow is called. -/
theorem attributeId_ne_contentId_flowOf (flow name : String) :
    attributeId flow name ≠ contentId (flowOf record) := by
  intro heq
  have hlength : (Fingerprint.hexOfText record.content).toList.length = 16 := by
    rw [String.length_toList, length_hexOfText]
  have hhex := lowLine_notMem_hexOfText record.content
  have hlists := congrArg String.toList heq.symm
  rw [toList_attributeId, toList_contentId, flowOf_unnamed h, String.toList_append] at hlists
  generalize (Fingerprint.hexOfText record.content).toList = hex at hlength hhex hlists
  have hcontent : "flow_".toList ++ hex ++ '_' :: "content".toList =
      "flow".toList ++ '_' :: (hex ++ '_' :: "content".toList) := List.append_assoc ..
  rw [hcontent] at hlists
  -- the low line before the digits comes before those of the other identifier, or is the first of them,
  -- and then the digits would be the fixed text that follows
  rcases Text.append_separator_cases (by decide) hlists with ⟨-, hrest⟩ | ⟨t, -, hrest⟩
  · rcases Text.append_separator_cases hhex hrest with ⟨rfl, -⟩ | ⟨t, hattr, -⟩
    · cases hlength
    · have hlengths := congrArg List.length hattr
      have hshort : "attr".toList.length = 4 := rfl
      rw [List.length_append, List.length_cons, hlength, hshort] at hlengths
      omega
  · rcases Text.append_separator_cases hhex hrest with ⟨-, hlast⟩ | ⟨t', -, hlast⟩
    · cases hlast
    · have hlow : '_' ∈ "content".toList := by
        rw [hlast]
        exact List.mem_append_right _ List.mem_cons_self
      revert hlow
      decide

end Unnamed

end Mapper

end ResonantGraph
