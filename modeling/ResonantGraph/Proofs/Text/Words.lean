import ResonantGraph.Proofs.Text.Settled

/-!
# Words compose, and are their own words

The words of a text can be found part by part, if the text is cut at white space
(`Words.listWith_append_blank`). A word has neither white space nor punctuation, so it is one run that
nothing is dropped from, and since it was lowered before, it is a text of one word, itself
(`Words.Lowering.listWith_of_mem`). Words with spaces between them are therefore the words of that text
(`Words.listWith_intercalate`).

Of lowering, this needs that it keeps to characters that may stand in words, and does nothing when it is
done twice (`Words.Lowering`). Lowering by the data of Unicode is like that.
-/

namespace ResonantGraph

namespace Text

/-! ### Runs -/

theorem isBlank_of_mem_pieces {text piece : List Char} (h : piece ∈ pieces text) :
    ∀ c ∈ piece, isBlank c = false := by
  induction text generalizing piece with
  | nil =>
    rw [List.mem_singleton.1 h]
    exact List.forall_mem_nil _
  | cons c rest ih =>
    unfold pieces at h
    split at h
    · rcases List.mem_cons.1 h with rfl | hrest
      · exact List.forall_mem_nil _
      · exact ih hrest
    · next hc =>
      -- the character joins the first piece of the rest, and the others stay
      cases hpieces : pieces rest with
      | nil => exact absurd hpieces (pieces_ne_nil rest)
      | cons first others =>
        rw [hpieces] at h ih
        rcases List.mem_cons.1 h with rfl | hothers
        · exact List.forall_mem_cons.2 ⟨Bool.not_eq_true _ ▸ hc, ih List.mem_cons_self⟩
        · exact ih (List.mem_cons_of_mem _ hothers)

theorem isBlank_of_mem_runs {text run : List Char} (h : run ∈ runs text) : ∀ c ∈ run, isBlank c = false :=
  isBlank_of_mem_pieces (List.mem_of_mem_filter h)

theorem pieces_eq_singleton {run : List Char} (h : ∀ c ∈ run, isBlank c = false) : pieces run = [run] := by
  induction run with
  | nil => rfl
  | cons c rest ih =>
    rw [List.forall_mem_cons] at h
    unfold pieces
    rw [h.1, ih h.2]
    rfl

/-- What has no white space in it is one run. -/
theorem runs_eq_singleton {run : List Char} (hne : run ≠ []) (h : ∀ c ∈ run, isBlank c = false) :
    runs run = [run] := by
  unfold runs
  rw [pieces_eq_singleton h]
  exact List.filter_cons_of_pos (decide_eq_true hne)

end Text

namespace Words

variable {lower : List Char → List Char} {minLength : Nat}

/-! ### Lowering -/

/-- Characters that may stand in a word: no white space, and no punctuation. -/
def Plain (chars : List Char) : Prop := ∀ c ∈ chars, Text.isBlank c = false ∧ isPunctuation c = false

/-- What is needed of a way of lowering words. -/
structure Lowering (lower : List Char → List Char) : Prop where
  /-- It brings neither white space nor punctuation into a word. -/
  plain : ∀ chars, Plain chars → Plain (lower chars)
  /-- A word that was lowered stays as it is. -/
  idempotent : ∀ chars, Plain chars → lower (lower chars) = lower chars

theorem lowering_lowercase : Lowering Text.lowercase where
  plain := by
    intro chars hchars c hc
    constructor
    · rw [← Bool.not_eq_true]
      intro hblank
      have hmem := Text.mem_of_isBlank_of_mem_lowercase hblank hc
      rw [(hchars c hmem).1] at hblank
      cases hblank
    · rw [← Bool.not_eq_true]
      intro hpunctuation
      have hmem := Text.mem_of_isPunctuation_of_mem_lowercase hpunctuation hc
      rw [(hchars c hmem).2] at hpunctuation
      cases hpunctuation
  idempotent := fun chars _ => Text.lowercase_lowercase chars

/-! ### Words of a text -/

/-- **Words are found part by part.** -/
theorem listWith_append_blank (a b : List Char) {s : Char} (hs : Text.isBlank s = true) :
    listWith lower minLength (a ++ s :: b) = listWith lower minLength a ++ listWith lower minLength b := by
  unfold listWith
  rw [Text.runs_append_blank a b hs, List.map_append, List.filter_append]

/-- A word is what remains of a run, lowered. -/
theorem exists_of_mem_listWith {text word : List Char} (h : word ∈ listWith lower minLength text) :
    ∃ rest, Plain rest ∧ lower rest = word ∧ minLength ≤ word.length := by
  obtain ⟨hmem, hlength⟩ := List.mem_filter.1 h
  obtain ⟨run, hrun, hword⟩ := List.mem_map.1 hmem
  refine ⟨run.filter fun c => !isPunctuation c, fun c hc => ?_, hword, of_decide_eq_true hlength⟩
  obtain ⟨hc, hkept⟩ := List.mem_filter.1 hc
  exact ⟨Text.isBlank_of_mem_runs hrun c hc, Bool.not_eq_true' _ ▸ hkept⟩

theorem Lowering.plain_of_mem (h : Lowering lower) {text word : List Char}
    (hword : word ∈ listWith lower minLength text) : Plain word := by
  obtain ⟨rest, hrest, rfl, -⟩ := exists_of_mem_listWith hword
  exact h.plain rest hrest

/-- A word is a text of one word. -/
theorem Lowering.listWith_of_mem (h : Lowering lower) (hpos : 1 ≤ minLength) {text word : List Char}
    (hword : word ∈ listWith lower minLength text) : listWith lower minLength word = [word] := by
  have hplain := h.plain_of_mem hword
  obtain ⟨rest, hrest, rfl, hlength⟩ := exists_of_mem_listWith hword
  have hne : lower rest ≠ [] := List.ne_nil_of_length_pos (by omega)
  have hkept : ((lower rest).filter fun c => !isPunctuation c) = lower rest := by
    rw [List.filter_eq_self]
    intro c hc
    rw [(hplain c hc).2]
    rfl
  have hrun : ofRun lower (lower rest) = lower rest := by
    unfold ofRun
    rw [hkept, h.idempotent rest hrest]
  unfold listWith
  rw [Text.runs_eq_singleton hne fun c hc => (hplain c hc).1, List.map_singleton, hrun]
  exact List.filter_cons_of_pos (decide_eq_true hlength)

/-- Words are found again where they stand with spaces between them. -/
theorem listWith_intercalate {words : List (List Char)}
    (h : ∀ word ∈ words, listWith lower minLength word = [word]) :
    listWith lower minLength ([' '].intercalate words) = words := by
  induction words with
  | nil => rfl
  | cons word rest ih =>
    rw [List.forall_mem_cons] at h
    cases rest with
    | nil =>
      rw [List.intercalate_singleton]
      exact h.1
    | cons next others =>
      have hspace : Text.isBlank ' ' = true := by decide +kernel
      rw [List.intercalate_cons_cons, List.append_assoc, List.singleton_append,
        listWith_append_blank _ _ hspace, h.1, ih h.2]
      rfl

/-! ### Sets of words -/

theorem mem_ofTextWith {text word : String} :
    word ∈ ofTextWith lower minLength text ↔ word.toList ∈ listWith lower minLength text.toList := by
  unfold ofTextWith
  rw [NameSet.mem_ofNames, List.mem_map]
  constructor
  · rintro ⟨chars, hchars, rfl⟩
    rwa [String.toList_ofList]
  · exact fun h => ⟨word.toList, h, String.ofList_toList⟩

/-- The laws of a way of finding the words of a text that have at least a number of characters. -/
structure Lawful (words : Nat → String → NameSet) : Prop where
  /-- The words on both sides of white space are the words of the whole. -/
  composes : ∀ (minLength : Nat) (a b : String) (s : Char), Text.isBlank s = true →
    words minLength (a ++ String.singleton s ++ b) = (words minLength a).union (words minLength b)
  /-- A word has as many characters as it needs. -/
  length : ∀ (minLength : Nat) (text : String), ∀ word ∈ words minLength text, minLength ≤ word.length
  /-- A word has neither white space nor punctuation. -/
  plain : ∀ (minLength : Nat) (text : String), ∀ word ∈ words minLength text, ∀ c ∈ word.toList,
    Text.isBlank c = false ∧ isPunctuation c = false
  /-- The words in any order, with single spaces between them, have the same words. -/
  again : ∀ (minLength : Nat) (text : String), 1 ≤ minLength →
    ∀ listed : List String, (∀ word, word ∈ listed ↔ word ∈ words minLength text) →
      words minLength (" ".intercalate listed) = words minLength text

theorem Lowering.lawful (h : Lowering lower) : Lawful (ofTextWith lower) where
  composes := by
    intro minLength a b s hs
    refine NameSet.ext_mem fun word => ?_
    rw [NameSet.mem_union, mem_ofTextWith, mem_ofTextWith, mem_ofTextWith, String.toList_append,
      String.toList_append, String.toList_singleton, List.append_assoc, List.singleton_append,
      listWith_append_blank _ _ hs, List.mem_append]
  length := by
    intro minLength text word hword
    obtain ⟨-, -, -, hlength⟩ := exists_of_mem_listWith (mem_ofTextWith.1 hword)
    rwa [String.length_toList] at hlength
  plain := fun _ _ _ hword => h.plain_of_mem (mem_ofTextWith.1 hword)
  again := by
    intro minLength text hpos listed hlisted
    have hwords : ∀ word ∈ listed.map String.toList, listWith lower minLength word = [word] := by
      intro chars hchars
      obtain ⟨word, hword, rfl⟩ := List.mem_map.1 hchars
      exact h.listWith_of_mem hpos (mem_ofTextWith.1 ((hlisted word).1 hword))
    have hchars : (" ".intercalate listed).toList = [' '].intercalate (listed.map String.toList) :=
      String.toList_intercalate
    refine NameSet.ext_mem fun word => ?_
    rw [mem_ofTextWith, hchars, listWith_intercalate hwords, ← hlisted, List.mem_map]
    constructor
    · rintro ⟨other, hother, heq⟩
      rwa [← String.toList_injective heq]
    · exact fun hword => ⟨word, hword, rfl⟩

/-- **Words compose, and are their own words.** Whatever lowering does, as long as it keeps white space and
punctuation out of words and does not change them when it is done again: the words of two texts are those of
the texts with white space between them, each word has as many characters as it needs and neither white space
nor punctuation, and words of at least one character, with single spaces between them, have the same words.
Lowering by the data of Unicode is of this kind. -/
theorem lawful_ofText :
    (∀ lower, Lowering lower → Lawful (ofTextWith lower)) ∧ Lowering Text.lowercase ∧ Lawful ofText :=
  ⟨fun _ h => h.lawful, lowering_lowercase, lowering_lowercase.lawful⟩

/-- `lawful_ofText` for a text with a run that is all punctuation, cut at a no-break space, for its words in
another order and one of them twice, and for leaving all characters as they are. -/
theorem lawful_ofText_fox :
    let text := "The QUICK, brown fox -- jumped!! over it."
    (ofText 4 text).names = ["brown", "jumped", "over", "quick"] ∧
      ofText 4 (text ++ String.singleton '\u00a0' ++ "Quick_silver") =
        (ofText 4 text).union (ofText 4 "Quick_silver") ∧
      ofText 4 "quick over brown jumped over" = ofText 4 text ∧
      Lowering id ∧ Lawful (ofTextWith id) := by
  intro text
  obtain ⟨hany, -, hlaws⟩ := lawful_ofText
  have hnames : (ofText 4 text).names = ["brown", "jumped", "over", "quick"] := by decide +kernel
  have hid : Lowering id := ⟨fun _ h => h, fun _ _ => rfl⟩
  refine ⟨hnames, hlaws.composes 4 text _ _ (by decide +kernel), ?_, hid, hany id hid⟩
  refine hlaws.again 4 text (by decide) ["quick", "over", "brown", "jumped", "over"] fun word => ?_
  rw [← NameSet.mem_names, hnames]
  simp only [List.mem_cons, List.not_mem_nil, or_false]
  grind

end Words

end ResonantGraph
