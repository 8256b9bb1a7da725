import ResonantGraph.Binary64.Decimal
import ResonantGraph.Memory
import ResonantGraph.Resonance
import ResonantGraph.Text.Quoted

/-!
# Kernels

A kernel has an identity, a working memory, a count of the signals it has seen, and is in one of
seven phases. It may go from any phase to any other. What a change of phase looks like from outside
is recorded in the order of events (`Kernel.transitions`): entering the phase that the kernel is
already in is no change and leaves no record.

A *signal* is a text. The kernel scores it in the phase `processing`, remembers it, and hands it to a
hook, which may use the kernel in any way and may fail. Success ends in the phase `reflecting`;
failure brings back the phase the signal found (`Kernel.signalWith`).
-/

namespace ResonantGraph

/-- What a kernel is doing. -/
inductive Phase
  /-- Nothing yet, or nothing any more. -/
  | dormant
  /-- It has just been given an identity. -/
  | awakening
  /-- It is at work on a signal or record. -/
  | processing
  /-- Learning. -/
  | learning
  /-- Reasoning. -/
  | reasoning
  /-- Creating. -/
  | creating
  /-- It has done its work. -/
  | reflecting
deriving DecidableEq, Repr

namespace Phase

/-- The name of a phase in metadata. -/
def name : Phase → String
  | dormant => "dormant"
  | awakening => "awakening"
  | processing => "processing"
  | learning => "learning"
  | reasoning => "reasoning"
  | creating => "creating"
  | reflecting => "reflecting"

/-- The name of a phase in summaries. -/
def title : Phase → String
  | dormant => "Dormant"
  | awakening => "Awakening"
  | processing => "Processing"
  | learning => "Learning"
  | reasoning => "Reasoning"
  | creating => "Creating"
  | reflecting => "Reflecting"

/-- All phases. -/
def all : List Phase :=
  [dormant, awakening, processing, learning, reasoning, creating, reflecting]

/-- The phase of a name. -/
def ofName? (text : String) : Option Phase := all.find? fun phase => phase.name = text

end Phase

/-- A change of phase, as an observer is told of it. -/
structure Transition where
  /-- The phase that was left. -/
  before : Phase
  /-- The phase that was entered. -/
  after : Phase
  /-- The phase that the observer finds the kernel in. -/
  observed : Phase
deriving DecidableEq, Repr

/-- An identity at work. -/
structure Kernel where
  /-- What signals are scored against. -/
  identity : Identity := {}
  /-- What the kernel is doing. -/
  phase : Phase := .dormant
  /-- How many signals it has begun to process. -/
  processCount : UInt64 := 0
  /-- What it remembers. -/
  memory : Memory := ∅
  /-- Every change of phase so far, the oldest first. -/
  transitions : List Transition := []

namespace Kernel

/-! ### Keys of the working memory -/

/-- The key of the signature. -/
def signatureKey : String := "identity.signature"

/-- The key of the frequency. -/
def frequencyKey : String := "identity.frequency"

/-- The key of the weight. -/
def weightKey : String := "identity.weight"

/-- How the keys of patterns begin. -/
def patternKeyStart : String := "identity.pattern."

/-- The key of a pattern by its position. -/
def patternKey (index : Nat) : String := patternKeyStart ++ toString index

/-- The key of the last signal. -/
def lastSignalKey : String := "last_signal"

/-- The key of the score of the last signal. -/
def lastResonanceKey : String := "last_resonance"

/-- The key of the number of signals. -/
def processCountKey : String := "process_count"

/-! ### Phases and identities -/

/-- Tells the observer of a change from a phase. -/
def notify (k : Kernel) (before after : Phase) : Kernel :=
  { k with transitions := k.transitions ++ [⟨before, after, k.phase⟩] }

/-- Enters a phase; only a change is notified. -/
def enter (k : Kernel) (next : Phase) : Kernel :=
  if k.phase = next then k else notify { k with phase := next } k.phase next

/-- The entries that remember the patterns of an identity, from a position on. -/
def patternEntries : Nat → List String → List (String × String)
  | _, [] => []
  | index, pattern :: rest => (patternKey index, pattern) :: patternEntries (index + 1) rest

/-- The memory with an identity in it. Patterns of an earlier identity are forgotten. -/
def remember (memory : Memory) (identity : Identity) : Memory :=
  let named := ((memory.insert signatureKey identity.signature).insert
    frequencyKey (toString identity.frequency.toNat)).insert weightKey identity.weight.sixPlaces
  (Memory.removeBeginning named patternKeyStart).2.insertAll (patternEntries 0 identity.patterns)

/-- Takes on an identity and awakens. -/
def awaken (k : Kernel) (identity : Identity) : Kernel :=
  enter { k with identity, memory := remember k.memory identity } .awakening

/-- Changes the memory alone. -/
def withMemory (k : Kernel) (change : Memory → Memory) : Kernel :=
  { k with memory := change k.memory }

/-! ### Signals -/

/-- How strongly a text resonates with the kernel's identity. -/
def resonanceOf (k : Kernel) (text : String) : Binary64 := resonance text k.identity

/-- Counts and scores a signal, and remembers it. The count stays at the greatest word. -/
def record (k : Kernel) (text : String) : Binary64 × Kernel :=
  let processCount := if k.processCount = -1 then k.processCount else k.processCount + 1
  let score := k.resonanceOf text
  let memory := ((k.memory.insert lastSignalKey text).insert
    lastResonanceKey score.sixPlaces).insert processCountKey (toString processCount.toNat)
  (score, { k with processCount, memory })

/-- Begins with a signal: what a hook finds. -/
def beginSignal (k : Kernel) (text : String) : Binary64 × Kernel :=
  (k.enter .processing).record text

/-- Processes a signal with a hook, which gets the text, its score and the kernel. -/
def signalWith {ε : Type} (k : Kernel) (text : String)
    (hook : String → Binary64 → Kernel → Except ε Unit × Kernel) : Except ε Binary64 × Kernel :=
  let (score, working) := k.beginSignal text
  match hook text score working with
  | (.ok (), working) => (.ok score, working.enter .reflecting)
  | (.error e, working) => (.error e, working.enter k.phase)

/-- Processes a signal without a hook. -/
def signal (k : Kernel) (text : String) : Binary64 × Kernel :=
  let (score, working) := k.beginSignal text
  (score, working.enter .reflecting)

/-- Without a hook means with a hook that does nothing. -/
theorem signalWith_quiet {ε : Type} (k : Kernel) (text : String) :
    k.signalWith text (fun _ _ working => ((.ok () : Except ε Unit), working)) =
      (.ok (k.signal text).1, (k.signal text).2) := rfl

/-! ### Laws -/

@[simp] theorem phase_enter (k : Kernel) (phase : Phase) : (k.enter phase).phase = phase := by
  unfold enter
  split
  · assumption
  · rfl

@[simp] theorem identity_enter (k : Kernel) (phase : Phase) : (k.enter phase).identity = k.identity := by
  unfold enter
  split <;> rfl

@[simp] theorem processCount_enter (k : Kernel) (phase : Phase) :
    (k.enter phase).processCount = k.processCount := by
  unfold enter
  split <;> rfl

@[simp] theorem memory_enter (k : Kernel) (phase : Phase) : (k.enter phase).memory = k.memory := by
  unfold enter
  split <;> rfl

@[simp] theorem identity_awaken (k : Kernel) (identity : Identity) :
    (k.awaken identity).identity = identity := identity_enter ..

@[simp] theorem processCount_awaken (k : Kernel) (identity : Identity) :
    (k.awaken identity).processCount = k.processCount := processCount_enter ..

@[simp] theorem memory_awaken (k : Kernel) (identity : Identity) :
    (k.awaken identity).memory = remember k.memory identity := memory_enter ..

@[simp] theorem identity_beginSignal (k : Kernel) (text : String) :
    (k.beginSignal text).2.identity = k.identity := identity_enter ..

theorem beginSignal_fst (k : Kernel) (text : String) :
    (k.beginSignal text).1 = resonance text k.identity := by
  change resonance text (k.enter .processing).identity = _
  rw [identity_enter]

theorem processCount_beginSignal (k : Kernel) (text : String) :
    (k.beginSignal text).2.processCount =
      if k.processCount = -1 then k.processCount else k.processCount + 1 := by
  rw [← k.processCount_enter .processing]
  rfl

theorem memory_beginSignal (k : Kernel) (text : String) :
    (k.beginSignal text).2.memory =
      ((k.memory.insert lastSignalKey text).insert
        lastResonanceKey (resonance text k.identity).sixPlaces).insert
        processCountKey (toString (k.beginSignal text).2.processCount.toNat) := by
  rw [← beginSignal_fst, ← k.memory_enter .processing]
  rfl

@[simp] theorem identity_signal (k : Kernel) (text : String) : (k.signal text).2.identity = k.identity := by
  change (((k.enter .processing).record text).2.enter .reflecting).identity = _
  rw [identity_enter]
  exact identity_enter ..

/-! ### Text -/

/-- A one-line summary. -/
def summary (k : Kernel) : String :=
  "CognitiveKernel \x7b signature: " ++ Text.quote k.identity.signature ++
    ", state: " ++ k.phase.title ++
    ", process_count: " ++ toString k.processCount.toNat ++ ", .. \x7d"

end Kernel

end ResonantGraph
