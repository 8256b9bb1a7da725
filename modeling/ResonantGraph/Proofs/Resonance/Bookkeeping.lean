import ResonantGraph.Proofs.Kernel.Signals
import ResonantGraph.Proofs.Resonance.Routing

/-!
# The books of an echo unit

An echo unit that nobody else uses the kernel of has its memory for its books. What they say of the records
so far is the invariant `Echo.Booked`: how many there were, which one came last and how it scored, and which
name was the last that a record brought. One record takes it further by this record, and has an outcome that
tells the same of it (`Echo.Booked.process`).

The score is computed twice, once for the memory and once for the outcome, and the two agree since a signal
leaves the identity alone. The name of a record is remembered only if there is one, so the memory has the last
of those, however long ago that was. Any substrate stays as it is.
-/

namespace ResonantGraph

open Fingerprint (hexOfText)

/-! ### What a signal leaves -/

namespace Kernel

variable {key : String}

theorem recorded_signal (k : Kernel) (text : String) :
    Recorded text (resonance text k.identity) (k.signal text).2.processCount (k.signal text).2.memory := by
  change Recorded text _ ((k.beginSignal text).2.enter .reflecting).processCount
    ((k.beginSignal text).2.enter .reflecting).memory
  rw [processCount_enter, memory_enter]
  exact k.recorded_beginSignal text

theorem toNat_processCount_signal (k : Kernel) (text : String) :
    (k.signal text).2.processCount.toNat = min (k.processCount.toNat + 1) (UInt64.size - 1) := by
  change ((k.beginSignal text).2.enter .reflecting).processCount.toNat = _
  rw [processCount_enter, toNat_processCount_beginSignal]

/-- Under every key that is not one of its own, a signal changes nothing. -/
theorem find?_signal_of_notMem (k : Kernel) (text : String) (h : key ∉ signalKeys) :
    (k.signal text).2.memory.find? key = k.memory.find? key := by
  have hne : ∀ name ∈ signalKeys, name ≠ key := by
    rintro name hname rfl
    exact h hname
  change ((k.beginSignal text).2.enter .reflecting).memory.find? key = _
  rw [memory_enter, memory_beginSignal, Table.find?_insert, if_neg (hne _ (by decide)), Table.find?_insert,
    if_neg (hne _ (by decide)), Table.find?_insert, if_neg (hne _ (by decide))]

end Kernel

namespace Echo

open Kernel (signalKeys lastSignalKey lastResonanceKey processCountKey)

/-! ### Metadata -/

/-- How the keys of patterns begin. -/
def patternKeyStart : String := "cognitive.echo.pattern."

/-- The keys of everything else. -/
def otherKeys : List String :=
  ["cognitive.echo.identity", "cognitive.echo.frequency", "cognitive.echo.weight", "cognitive.resonance",
    "cognitive.state", "cognitive.processor"]

section Metadata

variable (identity : Identity) (score : Binary64) (phase : Phase)

theorem patternEntries_eq (n : Nat) (patterns : List String) :
    patternEntries n patterns = Table.numbered patternKeyStart n patterns := by
  induction patterns generalizing n with
  | nil => rfl
  | cons pattern rest ih =>
    unfold patternEntries Table.numbered
    rw [ih]
    rfl

theorem find?_metadata_resonance :
    (metadata identity score phase).find? "cognitive.resonance" = some score.sixPlaces := by
  unfold metadata Table.ofList
  rw [Table.insertAll_append, Table.find?_insertAll]
  rfl

theorem find?_metadata_state : (metadata identity score phase).find? "cognitive.state" = some phase.name := by
  unfold metadata Table.ofList
  rw [Table.insertAll_append, Table.find?_insertAll]
  rfl

/-- Under a key that begins like that of a pattern, there are the patterns and nothing else. -/
theorem find?_metadata_of_beginsWith {key : String} (h : Memory.beginsWith key patternKeyStart = true) :
    (metadata identity score phase).find? key =
      ((∅ : Attributes).insertAll (Table.numbered patternKeyStart 0 identity.patterns)).find? key := by
  have hne : ∀ name ∈ otherKeys, name ≠ key := by
    have hstart : ∀ name ∈ otherKeys, Memory.beginsWith name patternKeyStart = false := by decide
    rintro name hname rfl
    rw [hstart name hname] at h
    cases h
  -- three entries come before those of the patterns, and three behind them
  have hfront : ∀ e ∈ [("cognitive.echo.identity", identity.signature),
      ("cognitive.echo.frequency", toString identity.frequency.toNat),
      ("cognitive.echo.weight", identity.weight.sixPlaces)], e.1 ≠ key := by
    simp only [List.forall_mem_cons]
    exact ⟨hne _ (by decide), hne _ (by decide), hne _ (by decide), List.forall_mem_nil _⟩
  have hback : ∀ e ∈ [("cognitive.resonance", score.sixPlaces), ("cognitive.state", phase.name),
      ("cognitive.processor", kind)], e.1 ≠ key := by
    simp only [List.forall_mem_cons]
    exact ⟨hne _ (by decide), hne _ (by decide), hne _ (by decide), List.forall_mem_nil _⟩
  unfold metadata Table.ofList
  rw [Table.insertAll_append, Table.find?_insertAll_of_forall_ne _ hback, Table.insertAll_append,
    patternEntries_eq, Table.find?_insertAll, Table.find?_insertAll_of_forall_ne _ hfront, ← Table.find?_insertAll]

theorem find?_metadata_pattern (i : Nat) :
    (metadata identity score phase).find? (patternKeyStart ++ toString i) = identity.patterns[i]? := by
  have hnumbered := Table.find?_insertAll_numbered (∅ : Attributes) patternKeyStart 0 i identity.patterns
  rw [Nat.zero_add, Table.find?_empty, Option.or_none] at hnumbered
  rw [find?_metadata_of_beginsWith identity score phase (Table.beginsWith_append (by decide) _), hnumbered]

theorem exists_pattern_of_contains {key : String} (h : Memory.beginsWith key patternKeyStart = true)
    (hcontains : (metadata identity score phase).contains key = true) :
    ∃ i < identity.patterns.length, key = patternKeyStart ++ toString i := by
  by_contra hnone
  have hne : ∀ i < identity.patterns.length, key ≠ patternKeyStart ++ toString (0 + i) := by
    intro i hi heq
    rw [Nat.zero_add] at heq
    exact hnone ⟨i, hi, heq⟩
  unfold Table.contains at hcontains
  rw [find?_metadata_of_beginsWith identity score phase h, Table.find?_insertAll_numbered_of_ne ∅ hne] at hcontains
  cases hcontains

end Metadata

/-! ### Outcomes -/

/-- What the outcome of a record tells, for a unit with an identity and a threshold. -/
structure Reports (identity : Identity) (threshold : Binary64) (record : Record) (outcome : Outcome) : Prop where
  /-- The high route is for scores that reach the threshold. -/
  high : outcome.route = "high-resonance" ↔ (resonance record.content identity).atLeast threshold = true
  /-- The low route is for the others. -/
  low : outcome.route = "low-resonance" ↔ (resonance record.content identity).atLeast threshold = false
  /-- The score has six places. -/
  resonance : outcome.metadata.find? "cognitive.resonance" = some (resonance record.content identity).sixPlaces
  /-- The phase is that after a signal. -/
  state : outcome.metadata.find? "cognitive.state" = some "reflecting"
  /-- Each pattern is under its position, and beyond the last there is none. -/
  pattern : ∀ i : Nat, outcome.metadata.find? ("cognitive.echo.pattern." ++ toString i) = identity.patterns[i]?
  /-- No other key begins like those of patterns. -/
  patternKey : ∀ key, Memory.beginsWith key "cognitive.echo.pattern." = true →
    outcome.metadata.contains key = true →
      ∃ i < identity.patterns.length, key = "cognitive.echo.pattern." ++ toString i

theorem route_eq_high_iff {threshold score : Binary64} :
    route threshold score = highRoute ↔ score.atLeast threshold = true := by
  unfold route
  split
  · next hreached => exact iff_of_true rfl hreached
  · next hbelow => exact iff_of_false (by decide) hbelow

theorem route_eq_low_iff {threshold score : Binary64} :
    route threshold score = lowRoute ↔ score.atLeast threshold = false := by
  unfold route
  split
  · next hreached => exact iff_of_false (by decide) (Bool.not_eq_false _ ▸ hreached)
  · next hbelow => exact iff_of_true rfl (Bool.not_eq_true _ ▸ hbelow)

theorem reports_outcomeOf (identity : Identity) (threshold : Binary64) (record : Record) :
    Reports identity threshold record (outcomeOf identity threshold record) where
  high := route_eq_high_iff
  low := route_eq_low_iff
  resonance := find?_metadata_resonance ..
  state := find?_metadata_state ..
  pattern := find?_metadata_pattern identity _ _
  patternKey := fun _ => exists_pattern_of_contains identity _ _

/-! ### Memory -/

/-- The keys that the unit and its signals write. -/
def bookKeys : List String := signalKeys ++ [lastContentKey, lastUuidKey]

/-- The memory after a record. A record without a name leaves the last name. -/
theorem find?_remember (record : Record) (m : Memory) (key : String) :
    (remember record m).find? key =
      if lastUuidKey = key then record.uuid?.or (m.find? key)
      else if lastContentKey = key then some (hexOfText record.content)
      else m.find? key := by
  unfold remember
  cases record.uuid? with
  | none =>
    dsimp only
    rw [Table.find?_insert, Option.none_or]
    split
    · next hkey => rw [← hkey, if_neg (by decide)]
    · split <;> rfl
  | some uuid =>
    dsimp only
    rw [Table.find?_insert, Table.find?_insert, Option.some_or]

/-! ### One record -/

variable {σ : Type} {p : Processor σ} {threshold : Binary64}

/-- The books of a unit with an identity, beside a substrate, after records. -/
structure Booked (identity : Identity) (substrate : Option (Substrate σ)) (records : List Record)
    (w : Workspace σ) : Prop where
  /-- The substrate is as it was. -/
  substrate : w.substrate = substrate
  /-- After a record, the kernel reflects. -/
  phase : records ≠ [] → w.kernel.phase = .reflecting
  /-- Every record counts, up to the greatest word. -/
  count : w.kernel.processCount.toNat = min records.length (UInt64.size - 1)
  /-- The signal is the content of the last record. -/
  signal : w.kernel.memory.find? lastSignalKey = records.getLast?.map Record.content
  /-- The score is that of the last record. -/
  resonance : w.kernel.memory.find? lastResonanceKey =
    records.getLast?.map fun record => (resonance record.content identity).sixPlaces
  /-- The fingerprint is that of the last record. -/
  content : w.kernel.memory.find? lastContentKey = records.getLast?.map fun record => hexOfText record.content
  /-- The name is the last that a record brought. -/
  uuid : w.kernel.memory.find? lastUuidKey = (records.filterMap Record.uuid?).getLast?
  /-- Under all other keys, the memory has the identity and nothing else. -/
  rest : ∀ key, key ∉ bookKeys → w.kernel.memory.find? key = (Kernel.remember ∅ identity).find? key
  /-- The identity is as it was. -/
  identity : w.kernel.identity = identity

namespace Booked

variable {identity : Identity} {substrate : Option (Substrate σ)} {records : List Record} {w : Workspace σ}

/-- One more record. -/
theorem process (h : Booked identity substrate records w) (hp : p.handler = handler σ threshold)
    (record : Record) : Booked identity substrate (records ++ [record]) (p.process record w).2 := by
  have hidentity := (Processor.process_echo hp record w).2.trans h.identity
  rw [process_eq hp] at hidentity ⊢
  let working := ((w.kernel.enter .processing).signal record.content).2
  have hrecorded := (w.kernel.enter .processing).recorded_signal record.content
  rw [Kernel.identity_enter, h.identity] at hrecorded
  have hkept (key : String) (hkey : key ∉ signalKeys) : working.memory.find? key = w.kernel.memory.find? key := by
    rw [Kernel.find?_signal_of_notMem _ _ hkey, Kernel.memory_enter]
  -- what the books say is read off the memory of the signal, with what the unit remembers over it
  have hmemory (key : String) : (((working.withMemory (remember record)).enter .reflecting).memory).find? key =
      if lastUuidKey = key then record.uuid?.or (working.memory.find? key)
      else if lastContentKey = key then some (hexOfText record.content)
      else working.memory.find? key := by
    rw [Kernel.memory_enter]
    exact find?_remember record working.memory key
  have hlast : (records ++ [record]).getLast? = some record := List.getLast?_concat ..
  have huuid : ([record].filterMap Record.uuid?).getLast? = record.uuid? := by
    rw [List.filterMap_cons, List.filterMap_nil]
    cases record.uuid? <;> rfl
  exact {
    substrate := h.substrate
    identity := hidentity
    phase := fun _ => Kernel.phase_enter ..
    count := by
      rw [Kernel.processCount_enter]
      change working.processCount.toNat = _
      rw [Kernel.toNat_processCount_signal, Kernel.processCount_enter, h.count, List.length_append,
        List.length_singleton]
      omega
    signal := by
      rw [hmemory, if_neg (by decide), if_neg (by decide), hlast]
      exact hrecorded.text
    resonance := by
      rw [hmemory, if_neg (by decide), if_neg (by decide), hlast]
      exact hrecorded.score
    content := by
      rw [hmemory, if_neg (by decide), if_pos rfl, hlast]
      rfl
    uuid := by
      -- a record without a name leaves the one that was there
      rw [hmemory, if_pos rfl, hkept _ (by decide), h.uuid, List.filterMap_append, List.getLast?_append, huuid]
    rest := by
      intro key hkey
      have hsignal : key ∉ signalKeys := fun hmem => hkey (List.mem_append_left _ hmem)
      have hown : key ∉ [lastContentKey, lastUuidKey] := fun hmem => hkey (List.mem_append_right _ hmem)
      rw [List.mem_pair, not_or] at hown
      rw [hmemory, if_neg (Ne.symm hown.2), if_neg (Ne.symm hown.1), hkept key hsignal]
      exact h.rest key hkey }

variable [Store σ]

/-- Record after record: each has an outcome that reports it, and the books go on. -/
theorem processAll (h : Booked identity substrate records w) (hp : p.handler = handler σ threshold)
    (more : List Record) :
    ∃ outcomes : List Outcome, (p.processAll more w).1 = outcomes.map .ok ∧
      List.Forall₂ (Reports identity threshold) more outcomes ∧
      Booked identity substrate (records ++ more) (p.processAll more w).2 := by
  induction more generalizing records w with
  | nil =>
    rw [List.append_nil]
    exact ⟨[], rfl, .nil, h⟩
  | cons record more ih =>
    obtain ⟨outcomes, hresults, hreports, hbooked⟩ := ih (h.process hp record)
    have hresult : (p.process record w).1 = .ok (outcomeOf identity threshold record) := by
      rw [process_eq hp, h.identity]
    rw [List.append_assoc, List.singleton_append] at hbooked
    refine ⟨outcomeOf identity threshold record :: outcomes, ?_, .cons (reports_outcomeOf ..) hreports, hbooked⟩
    change (p.process record w).1 :: (p.processAll more (p.process record w).2).1 = _
    rw [hresult, hresults]
    rfl

end Booked

/-! ### A unit that was set up -/

section SetUp

variable [Store σ]

/-- Setting up a unit opens its books, if its kernel has seen no signal and remembers no more than the unit's
identity. -/
theorem booked_setUp (p : Processor σ) {w : Workspace σ} (hcount : w.kernel.processCount = 0)
    (hmemory : Kernel.remember w.kernel.memory p.identity = Kernel.remember ∅ p.identity) :
    Booked p.identity (p.setUp w).substrate [] (p.setUp w) := by
  have hstart : (p.setUp w).kernel.memory = Kernel.remember ∅ p.identity :=
    (Kernel.memory_awaken ..).trans hmemory
  have habsent : ∀ key ∈ bookKeys, (p.setUp w).kernel.memory.find? key = none := by
    have hkeys : ∀ key ∈ bookKeys, ¬ (key ∈ Kernel.identityKeys ∨
        Memory.beginsWith key Kernel.patternKeyStart = true) := by decide
    intro key hkey
    rw [hstart, Kernel.find?_remember_of_not_decided _ _ (hkeys key hkey)]
    rfl
  exact {
    substrate := rfl
    identity := Kernel.identity_awaken ..
    phase := fun hne => absurd rfl hne
    count := by
      change (w.kernel.awaken p.identity).processCount.toNat = 0
      rw [Kernel.processCount_awaken, hcount]
      rfl
    signal := habsent _ (by decide)
    resonance := habsent _ (by decide)
    content := habsent _ (by decide)
    uuid := habsent _ (by decide)
    rest := fun key _ => by rw [hstart] }

/-- However often a unit was set up, its kernel has seen no signal and remembers no more than the identity. -/
theorem unused_iterate_setUp (p : Processor σ) (substrate : Option (Substrate σ)) (times : Nat) :
    (p.setUp^[times] { substrate }).kernel.processCount = 0 ∧
      Kernel.remember (p.setUp^[times] { substrate }).kernel.memory p.identity = Kernel.remember ∅ p.identity := by
  induction times with
  | zero => exact ⟨rfl, rfl⟩
  | succ times ih =>
    rw [Function.iterate_succ_apply']
    constructor
    · exact (Kernel.processCount_awaken ..).trans ih.1
    · change Kernel.remember (Kernel.awaken _ p.identity).memory p.identity = _
      rw [Kernel.memory_awaken, Kernel.remember_remember, ih.2]

end SetUp

theorem exists_getLast?_of_forall₂ {α β : Type} {R : α → β → Prop} {l : List α} {m : List β}
    (h : List.Forall₂ R l m) {a : α} (ha : l.getLast? = some a) : ∃ b, m.getLast? = some b ∧ R a b := by
  rw [← List.head?_reverse] at ha ⊢
  have hreversed := List.forall₂_reverse_iff.2 h
  generalize l.reverse = first at ha hreversed
  generalize m.reverse = second at hreversed ⊢
  cases hreversed with
  | nil => cases ha
  | cons hfirst _ =>
    cases ha
    exact ⟨_, rfl, hfirst⟩

end Echo

/-- **The books of an echo unit.** Let an echo unit, with a substrate or without, have been set up, once or
several times, and let it process records, one at least and fewer than the kernel can count, while nobody else
uses its kernel. Then each record has an outcome. The outcome tells the score of its record against the identity
that derives from the name of the unit, takes the high route just if this score reaches the threshold and else
the low one, and lists the patterns of the identity by position. The substrate has not changed. The kernel
reflects and has counted the records. Its memory tells the content of the last record and its fingerprint, the
score that the last outcome tells, and the last name that a record brought, if one did; apart from these entries
and the count it is as it was. -/
theorem echo_books {σ : Type} [Store σ] (name : String) (extraPatterns : List String) (threshold : Binary64)
    (substrate : Option (Substrate σ)) (again : Nat) (records : List Record) (hrecords : records ≠ [])
    (hcount : records.length < 2 ^ 64) :
    let unit : Processor σ := { name, extraPatterns, handler := Echo.handler σ threshold }
    let start := unit.setUp^[again + 1] { substrate }
    let run := unit.processAll records start
    let memory := run.2.kernel.memory
    let last := records.getLast hrecords
    ∃ outcomes : List Outcome,
      run.1 = outcomes.map .ok ∧
      List.Forall₂ (Echo.Reports (Processor.identityOf name extraPatterns) threshold) records outcomes ∧
      run.2.substrate = start.substrate ∧
      run.2.kernel.phase = .reflecting ∧
      run.2.kernel.processCount.toNat = records.length ∧
      memory.find? "last_signal" = some last.content ∧
      memory.find? "last_content_hash" = some (hexOfText last.content) ∧
      memory.find? "last_processed_uuid" = (records.filterMap Record.uuid?).getLast? ∧
      (∃ outcome score, outcomes.getLast? = some outcome ∧
        outcome.metadata.find? "cognitive.resonance" = some score ∧ memory.find? "last_resonance" = some score) ∧
      ∀ key, key ∉ Echo.bookKeys → memory.find? key = start.kernel.memory.find? key := by
  intro unit start run memory last
  have hhandler : unit.handler = Echo.handler σ threshold := rfl
  have hopened : Echo.Booked unit.identity start.substrate [] start := by
    obtain ⟨hunused, hremembered⟩ := Echo.unused_iterate_setUp unit substrate again
    have hset := Echo.booked_setUp unit hunused hremembered
    rwa [← Function.iterate_succ_apply' unit.setUp] at hset
  obtain ⟨outcomes, hresults, hreports, hbooked⟩ := hopened.processAll hhandler records
  have hlast : records.getLast? = some last := List.getLast?_eq_some_getLast hrecords
  obtain ⟨outcome, houtcome, hreport⟩ := Echo.exists_getLast?_of_forall₂ hreports hlast
  have hsignal := hbooked.signal
  have hcontent := hbooked.content
  have hresonance := hbooked.resonance
  rw [List.nil_append, hlast] at hsignal hcontent hresonance
  have hnumber : run.2.kernel.processCount.toNat = records.length := by
    have hsize : UInt64.size = 2 ^ 64 := rfl
    rw [hbooked.count, List.nil_append]
    omega
  refine ⟨outcomes, hresults, hreports, hbooked.substrate, hbooked.phase hrecords, hnumber, hsignal, hcontent,
    hbooked.uuid, ⟨outcome, _, houtcome, hreport.resonance, hresonance⟩, fun key hkey => ?_⟩
  rw [hbooked.rest key hkey, hopened.rest key hkey]

/-- `echo_books` for three records, of which the first brings a name and the last brings an empty one. -/
theorem echo_books_three :
    let records : List Record :=
      [⟨"hello", (∅ : Attributes).insert Record.flowAttribute "a"⟩, ⟨"echo", ∅⟩,
        ⟨"bell", (∅ : Attributes).insert Record.flowAttribute ""⟩]
    let unit : Processor Store.Tables := { name := "hyperecho", handler := Echo.handler _ Resonance.half }
    let start := unit.setUp { substrate := some (.ofStore {}) }
    let run := unit.processAll records start
    records ≠ [] ∧ records.length < 2 ^ 64 ∧ run.2.substrate = start.substrate ∧
      run.2.kernel.processCount.toNat = 3 ∧ run.2.kernel.memory.find? "last_signal" = some "bell" ∧
      run.2.kernel.memory.find? "last_processed_uuid" = some "a" ∧
      run.2.kernel.memory.find? "identity.pattern.3" = some "hyperecho" := by
  intro records unit start run
  have hrecords : records ≠ [] := List.cons_ne_nil _ _
  have hcount : records.length < 2 ^ 64 := by decide
  obtain ⟨outcomes, -, -, hsubstrate, -, hnumber, hsignal, -, huuid, -, hrest⟩ :=
    echo_books "hyperecho" [] Resonance.half (some (Substrate.ofStore ({} : Store.Tables))) 0 records hrecords hcount
  have hlast : (records.filterMap Record.uuid?).getLast? = some "a" := by decide
  have hpattern : start.kernel.memory.find? "identity.pattern.3" = some "hyperecho" := by decide
  exact ⟨hrecords, hcount, hsubstrate, hnumber, hsignal, huuid.trans hlast,
    (hrest _ (by decide)).trans hpattern⟩

end ResonantGraph
