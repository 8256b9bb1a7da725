import ResonantGraph.Proofs.Kernel.Memory

/-!
# Signals that fail, and signals that count

A signal whose hook fails leaves the phase that it found and hands on the failure; one whose hook succeeds
ends in `reflecting` and answers its score. What it has counted and remembered stays either way, and so does
what the signals of its hook have: every signal that was begun counts
(`Kernel.toNat_processCount_after`), and the one that was begun last is the one that is remembered
(`Kernel.Recorded`).

`Kernel.signalWith_accounts` puts this together for a hook that is any program, whose signals have hooks of
their own.
-/

namespace ResonantGraph

namespace Kernel

variable {key : String}

/-! ### Counting -/

/-- The number of signals goes up by one and stays at the greatest word. -/
theorem toNat_processCount_beginSignal (k : Kernel) (text : String) :
    (k.beginSignal text).2.processCount.toNat =
      min (k.processCount.toNat + 1) (UInt64.size - 1) := by
  have hbound : k.processCount.toNat < UInt64.size := k.processCount.toNat_lt
  rw [processCount_beginSignal]
  split
  · next hmax =>
    rw [hmax]
    decide
  · next hmax =>
    have hne : k.processCount.toNat ≠ UInt64.size - 1 := fun heq => hmax (UInt64.toNat_inj.1 heq)
    have hsum : (k.processCount + 1).toNat = (k.processCount.toNat + 1) % UInt64.size :=
      UInt64.toNat_add ..
    rw [hsum, Nat.mod_eq_of_lt (by omega)]
    omega

/-- Every signal counts, and nothing else does. -/
theorem toNat_processCount_after (k : Kernel) (events : List Event) :
    (k.after events).processCount.toNat =
      min (k.processCount.toNat + events.countP Event.isSignal) (UInt64.size - 1) := by
  induction events generalizing k with
  | nil =>
    have hbound : k.processCount.toNat < UInt64.size := k.processCount.toNat_lt
    rw [after_nil, List.countP_nil]
    omega
  | cons e events ih =>
    rw [after_cons, ih, List.countP_cons]
    cases e with
    | awaken identity =>
      rw [undergo_awaken, processCount_awaken]
      rfl
    | enter phase =>
      rw [undergo_enter, processCount_enter]
      rfl
    | beginSignal text =>
      rw [undergo_beginSignal, toNat_processCount_beginSignal,
        show Event.isSignal (.beginSignal text) = true from rfl, if_pos rfl]
      omega

/-! ### The signal that was begun last -/

/-- What is left of a run behind the beginning of its last signal. -/
theorem exists_last_signal {events : List Event} (h : ∃ e ∈ events, e.isSignal = true) :
    ∃ earlier last later, events = earlier ++ .beginSignal last :: later ∧
      ∀ e ∈ later, e.isSignal = false := by
  induction events with
  | nil =>
    obtain ⟨_, h, -⟩ := h
    cases h
  | cons e events ih =>
    by_cases hrest : ∃ e ∈ events, e.isSignal = true
    · obtain ⟨earlier, last, later, rfl, hlater⟩ := ih hrest
      exact ⟨e :: earlier, last, later, rfl, hlater⟩
    · -- it is the first event, then
      have hlater : ∀ e ∈ events, e.isSignal = false := by
        intro e he
        rw [← Bool.not_eq_true]
        exact fun hsignal => hrest ⟨e, he, hsignal⟩
      obtain ⟨e', he', hsignal⟩ := h
      rcases List.mem_cons.1 he' with rfl | he'
      · cases e' with
        | beginSignal text => exact ⟨[], text, events, rfl, hlater⟩
        | awaken identity => cases hsignal
        | enter phase => cases hsignal
      · exact absurd ⟨e', he', hsignal⟩ hrest

/-- Nothing but a signal writes under the keys of signals. -/
theorem find?_undergo_of_mem (k : Kernel) {e : Event} (he : e.isSignal = false) (h : key ∈ signalKeys) :
    (k.undergo e).memory.find? key = k.memory.find? key := by
  cases e with
  | awaken identity =>
    rw [undergo_awaken, memory_awaken, find?_remember_of_not_decided _ _ (not_decided_of_mem h)]
  | enter phase => rw [undergo_enter, memory_enter]
  | beginSignal text => cases he

theorem find?_after_of_mem (k : Kernel) {events : List Event} (hevents : ∀ e ∈ events, e.isSignal = false)
    (h : key ∈ signalKeys) : (k.after events).memory.find? key = k.memory.find? key := by
  induction events generalizing k with
  | nil => rfl
  | cons e events ih =>
    rw [List.forall_mem_cons] at hevents
    rw [after_cons, ih _ hevents.2, find?_undergo_of_mem k hevents.1 h]

/-- A memory that holds what was recorded of a signal: its text, its score with six places, and which one
it was, in decimal. -/
structure Recorded (text : String) (score : Binary64) (count : UInt64) (m : Memory) : Prop where
  /-- The text. -/
  text : m.find? lastSignalKey = some text
  /-- The score. -/
  score : m.find? lastResonanceKey = some score.sixPlaces
  /-- The number. -/
  count : m.find? processCountKey = some (toString count.toNat)

theorem recorded_beginSignal (k : Kernel) (text : String) :
    Recorded text (resonance text k.identity) (k.beginSignal text).2.processCount
      (k.beginSignal text).2.memory := by
  rw [memory_beginSignal]
  refine ⟨?_, ?_, Table.find?_insert_self ..⟩
  · rw [Table.find?_insert, if_neg (by decide), Table.find?_insert, if_neg (by decide),
      Table.find?_insert_self]
  · rw [Table.find?_insert, if_neg (by decide), Table.find?_insert_self]

/-- What was recorded stays until the next signal. -/
theorem recorded_after (k : Kernel) (text : String) {later : List Event}
    (hlater : ∀ e ∈ later, e.isSignal = false) :
    let k' := (k.beginSignal text).2.after later
    Recorded text (resonance text k.identity) k'.processCount k'.memory := by
  intro k'
  have hrecorded := k.recorded_beginSignal text
  have hcount : k'.processCount = (k.beginSignal text).2.processCount := by
    have hnone : later.countP Event.isSignal = 0 :=
      List.countP_eq_zero.2 fun e he => ne_true_of_eq_false (hlater e he)
    have hbound : (k.beginSignal text).2.processCount.toNat < UInt64.size :=
      (k.beginSignal text).2.processCount.toNat_lt
    rw [← UInt64.toNat_inj, toNat_processCount_after, hnone]
    omega
  refine ⟨?_, ?_, ?_⟩
  · exact (find?_after_of_mem _ hlater (by decide)).trans hrecorded.text
  · exact (find?_after_of_mem _ hlater (by decide)).trans hrecorded.score
  · rw [hcount]
    exact (find?_after_of_mem _ hlater (by decide)).trans hrecorded.count

/-- Where a signal was begun, the memory holds what was recorded of the last one, scored against the
identity of the kernel at its beginning. -/
theorem exists_recorded_after (k : Kernel) {events : List Event}
    (h : ∃ e ∈ events, e.isSignal = true) :
    ∃ earlier last later, events = earlier ++ .beginSignal last :: later ∧
      later.countP Event.isSignal = 0 ∧
      Recorded last (resonance last (k.after earlier).identity) (k.after events).processCount
        (k.after events).memory := by
  obtain ⟨earlier, last, later, rfl, hlater⟩ := exists_last_signal h
  refine ⟨earlier, last, later, rfl, ?_, ?_⟩
  · exact List.countP_eq_zero.2 fun e he => ne_true_of_eq_false (hlater e he)
  · -- the last signal begins on what the earlier events have left
    rw [after_append]
    exact (k.after earlier).recorded_after last hlater

/-! ### Signals with hooks -/

/-- **A failed signal rolls back, and every signal counts.** Let a signal have any program for its hook. If
the hook fails, its failure is the answer and the phase is the one from before the signal; if it succeeds,
the answer is the score against the identity that the signal found, and the phase is `reflecting`. Either
way the count has gone up by the number of signals that were begun, this one, those of the hook and those
that failed among them, and the memory holds what was recorded of the one that was begun last. -/
theorem signalWith_accounts {ε : Type} (k : Kernel) (text : String)
    (hook : String → Binary64 → Program ε) :
    let answer := k.signalWith text fun text score working => (hook text score).run working
    let score := resonance text k.identity
    let begun := (k.beginSignal text).2
    let events := .beginSignal text :: (hook text score).events begun
    (match ((hook text score).run begun).1 with
      | .error e => answer.1 = .error e ∧ answer.2.phase = k.phase
      | .ok () => answer.1 = .ok score ∧ answer.2.phase = .reflecting) ∧
    answer.2 = (k.after events).enter answer.2.phase ∧
    answer.2.processCount.toNat =
      min (k.processCount.toNat + events.countP Event.isSignal) (UInt64.size - 1) ∧
    ∃ earlier last later, events = earlier ++ .beginSignal last :: later ∧
      later.countP Event.isSignal = 0 ∧
      Recorded last (resonance last (k.after earlier).identity) answer.2.processCount answer.2.memory := by
  intro answer score begun events
  let ended := (hook text score).run begun
  have hended : ended.2 = k.after events := (hook text score).run_eq begun
  have hanswer : answer =
      (ended.1.map fun _ => score, (k.after events).enter (k.settled ended.1)) := by
    change k.signalWith text _ = _
    rw [signalWith_eq]
    dsimp only
    rw [beginSignal_fst, ← hended]
  have hsignal : ∃ e ∈ events, e.isSignal = true := ⟨_, List.mem_cons_self, rfl⟩
  rw [hanswer]
  dsimp only
  rw [phase_enter, processCount_enter, memory_enter]
  refine ⟨?_, rfl, k.toNat_processCount_after events, k.exists_recorded_after hsignal⟩
  change match ended.1 with | .error e => _ | .ok () => _
  cases ended.1 with
  | error e => exact ⟨rfl, rfl⟩
  | ok done => exact ⟨rfl, rfl⟩

end Kernel

end ResonantGraph
