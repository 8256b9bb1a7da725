import ResonantGraph.Proofs.Kernel.Events
import ResonantGraph.Proofs.Table.Numbered

/-!
# What a kernel remembers

The memory of a kernel that nobody else writes to has two parts: what signals left, and the identity laid
over it (`Kernel.remember`). An identity decides about its own keys and about no other
(`Kernel.find?_remember_congr`, `Kernel.find?_remember_of_not_decided`). So it replaces the one before it
and nothing else (`Kernel.remember_remember`), and what a signal leaves may as well have been there before
(`Kernel.remember_insert`).

`Kernel.Kept` is the invariant that says so, with an event for its step. From it follows every entry
(`Kernel.mirrored_run`): once there was an identity, the keys under `identity.` are those of the present
identity, pattern by pattern, and the other keys are those of the last signal, if there was one.
-/

namespace ResonantGraph

namespace Kernel

/-! ### Keys -/

/-- How the keys of an identity begin. -/
def identityKeyStart : String := "identity."

/-- The keys of an identity, apart from those of its patterns. -/
def identityKeys : List String := [signatureKey, frequencyKey, weightKey]

/-- The keys of a signal. -/
def signalKeys : List String := [lastSignalKey, lastResonanceKey, processCountKey]

/-- An identity decides about a key: it writes it or, where it has no pattern for it, clears it. -/
def Decided (key : String) : Prop := key ∈ identityKeys ∨ Memory.beginsWith key patternKeyStart = true

theorem beginsWith_patternKey (i : Nat) : Memory.beginsWith (patternKey i) patternKeyStart = true :=
  Table.beginsWith_append (by decide) _

theorem not_decided_of_mem {key : String} (h : key ∈ signalKeys) : ¬ Decided key := by
  have hkeys : ∀ key ∈ signalKeys, ¬ (key ∈ identityKeys ∨
      Memory.beginsWith key patternKeyStart = true) := by decide
  exact hkeys key h

/-- Whether an event gives the kernel an identity. -/
def Event.names : Event → Bool
  | .awaken _ => true
  | _ => false

/-! ### Laying an identity over a memory -/

section Remember

variable {m m' : Memory} {identity identity' : Identity} {key : String}

theorem patternEntries_eq (n : Nat) (patterns : List String) :
    patternEntries n patterns = Table.numbered patternKeyStart n patterns := by
  induction patterns generalizing n with
  | nil => rfl
  | cons pattern rest ih =>
    unfold patternEntries Table.numbered
    rw [ih]
    rfl

/-- The entries of patterns leave every other key alone. -/
theorem find?_insertAll_of_forall_ne {patterns : List String} (h : ∀ i, key ≠ patternKey i) :
    (m.insertAll (patternEntries 0 patterns)).find? key = m.find? key := by
  rw [patternEntries_eq]
  exact Table.find?_insertAll_numbered_of_ne m fun i _ => h (0 + i)

/-- The entries of patterns are found by position. -/
theorem find?_insertAll_patternKey (m : Memory) (i : Nat) (patterns : List String) :
    (m.insertAll (patternEntries 0 patterns)).find? (patternKey i) =
      patterns[i]?.or (m.find? (patternKey i)) := by
  have hnumbered := Table.find?_insertAll_numbered m patternKeyStart 0 i patterns
  rwa [Nat.zero_add, ← patternEntries_eq] at hnumbered

/-- The pattern at a position is found under its key, and there is none beyond the last. -/
theorem find?_remember_patternKey (m : Memory) (identity : Identity) (i : Nat) :
    (remember m identity).find? (patternKey i) = identity.patterns[i]? := by
  unfold remember
  dsimp only
  rw [find?_insertAll_patternKey, Memory.find?_removeBeginning, if_pos (beginsWith_patternKey i),
    Option.or_none]

/-- What begins like the key of a pattern and is none is cleared. -/
theorem find?_remember_of_beginsWith (m : Memory) (identity : Identity)
    (h : Memory.beginsWith key patternKeyStart = true) (hne : ∀ i, key ≠ patternKey i) :
    (remember m identity).find? key = none := by
  unfold remember
  rw [find?_insertAll_of_forall_ne hne, Memory.find?_removeBeginning, if_pos h]

/-- Apart from patterns, an identity writes three entries. -/
theorem find?_remember_of_not_beginsWith (m : Memory) (identity : Identity)
    (h : Memory.beginsWith key patternKeyStart = false) :
    (remember m identity).find? key =
      if weightKey = key then some identity.weight.sixPlaces
      else if frequencyKey = key then some (toString identity.frequency.toNat)
      else if signatureKey = key then some identity.signature
      else m.find? key := by
  have hne : ∀ i, key ≠ patternKey i := by
    rintro i rfl
    rw [beginsWith_patternKey] at h
    cases h
  unfold remember
  rw [find?_insertAll_of_forall_ne hne, Memory.find?_removeBeginning, h, Table.find?_insert,
    Table.find?_insert, Table.find?_insert]
  rfl

/-- Under a key that an identity decides about, the memory before it does not matter. -/
theorem find?_remember_congr (m m' : Memory) (identity : Identity) (h : Decided key) :
    (remember m identity).find? key = (remember m' identity).find? key := by
  cases hpattern : Memory.beginsWith key patternKeyStart with
  | true =>
    by_cases hkey : ∃ i, key = patternKey i
    · obtain ⟨i, rfl⟩ := hkey
      rw [find?_remember_patternKey, find?_remember_patternKey]
    · rw [not_exists] at hkey
      rw [find?_remember_of_beginsWith m identity hpattern hkey,
        find?_remember_of_beginsWith m' identity hpattern hkey]
  | false =>
    -- so it is one of the three
    rcases h with h | h
    · rw [find?_remember_of_not_beginsWith m identity hpattern,
        find?_remember_of_not_beginsWith m' identity hpattern]
      simp only [identityKeys, List.mem_cons, List.not_mem_nil, or_false] at h
      rcases h with rfl | rfl | rfl <;> rfl
    · rw [hpattern] at h
      cases h

/-- Under every other key, the identity does not matter. -/
theorem find?_remember_of_not_decided (m : Memory) (identity : Identity) (h : ¬ Decided key) :
    (remember m identity).find? key = m.find? key := by
  unfold Decided identityKeys at h
  simp only [List.mem_cons, List.not_mem_nil, or_false, not_or, Bool.not_eq_true] at h
  obtain ⟨⟨hsignature, hfrequency, hweight⟩, hpattern⟩ := h
  rw [find?_remember_of_not_beginsWith m identity hpattern, if_neg (Ne.symm hweight),
    if_neg (Ne.symm hfrequency), if_neg (Ne.symm hsignature)]

/-- **An identity replaces the one before it.** -/
theorem remember_remember (m : Memory) (identity identity' : Identity) :
    remember (remember m identity) identity' = remember m identity' := by
  refine Table.ext_find? fun key => ?_
  by_cases h : Decided key
  · exact find?_remember_congr _ _ identity' h
  · rw [find?_remember_of_not_decided _ identity' h, find?_remember_of_not_decided _ identity h,
      find?_remember_of_not_decided _ identity' h]

/-- An entry that an identity does not decide about may be made before the identity or after it. -/
theorem remember_insert (m : Memory) (identity : Identity) (h : ¬ Decided key) (value : String) :
    (remember m identity).insert key value = remember (m.insert key value) identity := by
  refine Table.ext_find? fun name => ?_
  rw [Table.find?_insert]
  by_cases hname : Decided name
  · have hne : key ≠ name := fun heq => h (heq ▸ hname)
    rw [if_neg hne]
    exact find?_remember_congr _ _ identity hname
  · rw [find?_remember_of_not_decided _ identity hname, find?_remember_of_not_decided _ identity hname,
      Table.find?_insert]

theorem contains_remember_patternKey (m : Memory) (identity : Identity) (i : Nat) :
    (remember m identity).contains (patternKey i) = true ↔ i < identity.patterns.length := by
  unfold Table.contains
  rw [find?_remember_patternKey, isSome_getElem?]

theorem contains_remember_of_mem (m : Memory) (identity : Identity) (h : key ∈ identityKeys) :
    (remember m identity).contains key = true := by
  have hstart : ∀ key ∈ identityKeys, Memory.beginsWith key patternKeyStart = false := by decide
  unfold Table.contains
  rw [find?_remember_of_not_beginsWith m identity (hstart key h)]
  simp only [identityKeys, List.mem_cons, List.not_mem_nil, or_false] at h
  rcases h with rfl | rfl | rfl <;> rfl

/-- The keys that are there of those that an identity decides about. -/
theorem contains_remember_of_decided (m : Memory) (identity : Identity) (h : Decided key) :
    (remember m identity).contains key = true ↔
      key ∈ identityKeys ∨ ∃ i < identity.patterns.length, key = patternKey i := by
  constructor
  · intro hcontains
    rcases h with hmem | hpattern
    · exact .inl hmem
    · -- what begins like the key of a pattern is the key of a pattern that is there
      by_cases hkey : ∃ i, key = patternKey i
      · obtain ⟨i, rfl⟩ := hkey
        exact .inr ⟨i, (contains_remember_patternKey m identity i).1 hcontains, rfl⟩
      · rw [not_exists] at hkey
        unfold Table.contains at hcontains
        rw [find?_remember_of_beginsWith m identity hpattern hkey] at hcontains
        cases hcontains
  · rintro (hmem | ⟨i, hi, rfl⟩)
    · exact contains_remember_of_mem m identity hmem
    · exact (contains_remember_patternKey m identity i).2 hi

end Remember

/-! ### The two parts -/

/-- A memory with nothing in it but what signals leave, of which a number were begun. -/
structure Tallied (m : Memory) (count : UInt64) : Prop where
  /-- The first signal brings the keys, and there are no others. -/
  keys : ∀ key, m.contains key = true ↔ 0 < count ∧ key ∈ signalKeys
  /-- The number is kept. -/
  count : 0 < count → m.find? processCountKey = some (toString count.toNat)

/-- A memory with an identity over it, or without one. -/
def overlaid (named : Bool) (identity : Identity) (m : Memory) : Memory :=
  if named then remember m identity else m

/-- A kernel that remembers what signals left and, once it has been named, its identity over that. -/
def Kept (named : Bool) (k : Kernel) : Prop :=
  ∃ m, Tallied m k.processCount ∧ k.memory = overlaid named k.identity m

theorem kept_new : Kept false {} := by
  refine ⟨∅, ⟨fun key => ?_, fun h => absurd h (by decide)⟩, rfl⟩
  constructor
  · intro h
    cases h
  · rintro ⟨h, -⟩
    exact absurd h (by decide)

namespace Kept

variable {k : Kernel} {named : Bool}

theorem awaken (h : k.Kept named) (identity : Identity) : (k.awaken identity).Kept true := by
  obtain ⟨m, htallied, hmemory⟩ := h
  refine ⟨m, ?_, ?_⟩
  · rw [processCount_awaken]
    exact htallied
  · rw [memory_awaken, identity_awaken, hmemory]
    -- the identity before it, if any, is replaced
    cases named with
    | true => exact remember_remember m k.identity identity
    | false => rfl

theorem enter (h : k.Kept named) (phase : Phase) : (k.enter phase).Kept named := by
  unfold Kept
  rw [processCount_enter, memory_enter, identity_enter]
  exact h

end Kept

/-- What a signal writes goes under the identity, as if it had been there before. -/
theorem overlaid_insert (named : Bool) (identity : Identity) (m : Memory) {key : String}
    (h : key ∈ signalKeys) (value : String) :
    (overlaid named identity m).insert key value = overlaid named identity (m.insert key value) := by
  cases named with
  | true => exact remember_insert m identity (not_decided_of_mem h) value
  | false => rfl

theorem beginSignal_pos (k : Kernel) (text : String) : 0 < (k.beginSignal text).2.processCount := by
  rw [processCount_beginSignal]
  split
  · next hmax =>
    rw [hmax]
    decide
  · next hmax => exact UInt64.lt_of_le_of_lt (UInt64.zero_le) (UInt64.lt_add_one hmax)

namespace Kept

variable {k : Kernel} {named : Bool}

theorem beginSignal (h : k.Kept named) (text : String) : (k.beginSignal text).2.Kept named := by
  obtain ⟨m, htallied, hmemory⟩ := h
  have hpos := k.beginSignal_pos text
  refine ⟨((m.insert lastSignalKey text).insert lastResonanceKey
    (resonance text k.identity).sixPlaces).insert processCountKey
      (toString (k.beginSignal text).2.processCount.toNat), ⟨fun key => ?_, fun _ => ?_⟩, ?_⟩
  · -- the three keys are there now, and were the only ones that could be
    rw [Table.contains_insert, Table.contains_insert, Table.contains_insert, htallied.keys]
    simp only [signalKeys, List.mem_cons, List.not_mem_nil, or_false, @eq_comm _ key, hpos, true_and]
    constructor
    · rintro (hkey | hkey | hkey | ⟨-, hkey⟩)
      · exact .inr (.inr hkey)
      · exact .inr (.inl hkey)
      · exact .inl hkey
      · exact hkey
    · rintro (hkey | hkey | hkey)
      · exact .inr (.inr (.inl hkey))
      · exact .inr (.inl hkey)
      · exact .inl hkey
  · exact Table.find?_insert_self ..
  · rw [memory_beginSignal, identity_beginSignal, hmemory, overlaid_insert _ _ _ (by decide),
      overlaid_insert _ _ _ (by decide), overlaid_insert _ _ _ (by decide)]

/-- One event. -/
theorem undergo (h : k.Kept named) (e : Event) : (k.undergo e).Kept (named || e.names) := by
  cases e with
  | awaken identity =>
    rw [show (named || Event.names (.awaken identity)) = true from Bool.or_true named]
    exact h.awaken identity
  | enter phase =>
    rw [show (named || Event.names (.enter phase)) = named from Bool.or_false named]
    exact h.enter phase
  | beginSignal text =>
    rw [show (named || Event.names (.beginSignal text)) = named from Bool.or_false named]
    exact h.beginSignal text

theorem after (h : k.Kept named) (events : List Event) :
    (k.after events).Kept (named || events.any Event.names) := by
  induction events generalizing k named with
  | nil =>
    rw [List.any_nil, Bool.or_false]
    exact h
  | cons e events ih =>
    rw [List.any_cons, ← Bool.or_assoc]
    exact ih (h.undergo e)

end Kept

/-! ### Every entry -/

/-- A memory that tells all about a kernel with an identity, and nothing else. -/
structure Mirrored (k : Kernel) : Prop where
  /-- The signature is as it is. -/
  signature : k.memory.find? signatureKey = some k.identity.signature
  /-- The frequency is in decimal. -/
  frequency : k.memory.find? frequencyKey = some (toString k.identity.frequency.toNat)
  /-- The weight has six places. -/
  weight : k.memory.find? weightKey = some k.identity.weight.sixPlaces
  /-- Each pattern is under the key of its position, and beyond the last there is none. -/
  pattern : ∀ i, k.memory.find? (patternKey i) = k.identity.patterns[i]?
  /-- No other key begins like those of an identity. -/
  identityKey : ∀ key, Memory.beginsWith key identityKeyStart = true →
    (k.memory.contains key = true ↔
      key ∈ identityKeys ∨ ∃ i < k.identity.patterns.length, key = patternKey i)
  /-- The other keys are those of a signal, if there was one. -/
  signalKey : ∀ key, Memory.beginsWith key identityKeyStart = false →
    (k.memory.contains key = true ↔ 0 < k.processCount ∧ key ∈ signalKeys)
  /-- The number of signals is in decimal. -/
  count : 0 < k.processCount → k.memory.find? processCountKey = some (toString k.processCount.toNat)

theorem beginsWith_of_decided {key : String} (h : Decided key) :
    Memory.beginsWith key identityKeyStart = true := by
  rcases h with hmem | hpattern
  · have hstart : ∀ key ∈ identityKeys, Memory.beginsWith key identityKeyStart = true := by decide
    exact hstart key hmem
  · have hstart : identityKeyStart.toList <+: patternKeyStart.toList := by decide
    unfold Memory.beginsWith at hpattern ⊢
    rw [List.isPrefixOf_iff_prefix] at hpattern ⊢
    exact hstart.trans hpattern

namespace Kept

variable {k : Kernel}

theorem mirrored (h : k.Kept true) : k.Mirrored := by
  obtain ⟨m, htallied, hmemory⟩ := h
  have hmemory : k.memory = remember m k.identity := hmemory
  have hsignal : ∀ key ∈ signalKeys, Memory.beginsWith key identityKeyStart = false := by decide
  refine ⟨?_, ?_, ?_, fun i => ?_, fun key hkey => ?_, fun key hkey => ?_, fun hpos => ?_⟩ <;>
    rw [hmemory]
  · exact find?_remember_of_not_beginsWith m k.identity (by decide)
  · exact find?_remember_of_not_beginsWith m k.identity (by decide)
  · exact find?_remember_of_not_beginsWith m k.identity (by decide)
  · exact find?_remember_patternKey m k.identity i
  · by_cases hdecided : Decided key
    · exact contains_remember_of_decided m k.identity hdecided
    · -- the keys of signals begin otherwise
      have hsignals : ¬ key ∈ signalKeys := fun hmem => by
        rw [hsignal key hmem] at hkey
        cases hkey
      have hpatterns : ¬ ∃ i < k.identity.patterns.length, key = patternKey i := by
        rintro ⟨i, -, rfl⟩
        exact hdecided (.inr (beginsWith_patternKey i))
      have habsent : ¬ (remember m k.identity).contains key = true := by
        unfold Table.contains
        rw [find?_remember_of_not_decided m k.identity hdecided]
        exact fun hcontains => hsignals ((htallied.keys key).1 hcontains).2
      exact iff_of_false habsent (not_or.2 ⟨fun hmem => hdecided (.inl hmem), hpatterns⟩)
  · have hdecided : ¬ Decided key := fun h => by
      rw [beginsWith_of_decided h] at hkey
      cases hkey
    unfold Table.contains
    rw [find?_remember_of_not_decided m k.identity hdecided]
    exact htallied.keys key
  · rw [find?_remember_of_not_decided m k.identity (not_decided_of_mem (by decide))]
    exact htallied.count hpos

/-- Taking on the same identity again changes nothing. -/
theorem memory_awaken_self (h : k.Kept true) : (k.awaken k.identity).memory = k.memory := by
  obtain ⟨m, -, hmemory⟩ := h
  have hmemory : k.memory = remember m k.identity := hmemory
  rw [memory_awaken, hmemory, remember_remember]

end Kept

/-- **The memory mirrors the kernel.** Whatever program is run on a new kernel: at every moment, hooks at
work or not, at which the kernel has been given an identity, its memory tells the identity that it has and
the signals that it has begun, and nothing else. To give it its identity again changes no entry. -/
theorem mirrored_run {ε : Type} (program : Program ε) :
    (program.run {}).2 = after {} (program.events {}) ∧
      ∀ moment, moment <+: program.events {} → (∃ identity, Event.awaken identity ∈ moment) →
        (after {} moment).Mirrored ∧
          ((after {} moment).awaken (after {} moment).identity).memory = (after {} moment).memory := by
  refine ⟨program.run_eq {}, fun moment _ ⟨identity, hidentity⟩ => ?_⟩
  have hnamed : moment.any Event.names = true := List.any_eq_true.2 ⟨_, hidentity, rfl⟩
  have hkept : (after {} moment).Kept true := by
    have hafter := kept_new.after moment
    rwa [hnamed] at hafter
  exact ⟨hkept.mirrored, hkept.memory_awaken_self⟩

/-- A program that sends a signal, gives the kernel an identity of three patterns, and then sends a signal
whose hook gives it one of a single pattern and fails. -/
def renamed : Program String :=
  .signal "early" (fun _ => .done) fun _ =>
    .awaken { signature := "long", patterns := ["a", "b", "c"] } <|
      .signal "late" (fun _ => .awaken { signature := "short", patterns := ["d"] } (.finish (.error "no")))
        fun _ => .done

/-- `mirrored_run` at the end of `renamed`: the failure of the hook has not brought the other two patterns
back, and both signals have been counted. -/
theorem mirrored_run_renamed :
    let k := (renamed.run {}).2
    (∃ identity, Event.awaken identity ∈ renamed.events {}) ∧ k.Mirrored ∧
      k.memory.find? (patternKey 0) = some "d" ∧ k.memory.find? (patternKey 1) = none ∧
      k.memory.find? processCountKey = some "2" := by
  intro k
  have hnamed : ∃ identity, Event.awaken identity ∈ renamed.events {} :=
    ⟨{ signature := "long", patterns := ["a", "b", "c"] }, by simp [renamed, Program.events]⟩
  obtain ⟨hrun, hmirrored⟩ := mirrored_run renamed
  obtain ⟨hmirrored, -⟩ := hmirrored _ List.prefix_rfl hnamed
  rw [← hrun] at hmirrored
  exact ⟨hnamed, hmirrored, hmirrored.pattern 0, hmirrored.pattern 1, hmirrored.count (by decide)⟩

end Kernel

end ResonantGraph
