import ResonantGraph.Processor

/-!
# Echo

The echo handler lets the kernel process the content of a record as a signal, annotates the record
with the unit's identity and the score, and routes it by comparing the score with a threshold. It
remembers the fingerprint of the content and the record's name, and leaves any substrate alone.
-/

namespace ResonantGraph

namespace Echo

/-- The kind of the handler. -/
def kind : String := "echo"

/-- The route of records that reach the threshold. -/
def highRoute : String := "high-resonance"

/-- The route of the others. -/
def lowRoute : String := "low-resonance"

/-- The key of the fingerprint of the last content. -/
def lastContentKey : String := "last_content_hash"

/-- The key of the name of the last record that had one. -/
def lastUuidKey : String := "last_processed_uuid"

/-- The metadata entries of patterns, from a position on. -/
def patternEntries : Nat → List String → List (String × String)
  | _, [] => []
  | index, pattern :: rest =>
    ("cognitive.echo.pattern." ++ toString index, pattern) :: patternEntries (index + 1) rest

/-- What the record is annotated with. -/
def metadata (identity : Identity) (score : Binary64) (phase : Phase) : Attributes :=
  Table.ofList <|
    [("cognitive.echo.identity", identity.signature),
      ("cognitive.echo.frequency", toString identity.frequency.toNat),
      ("cognitive.echo.weight", identity.weight.sixPlaces)] ++
    patternEntries 0 identity.patterns ++
    [("cognitive.resonance", score.sixPlaces),
      ("cognitive.state", phase.name),
      ("cognitive.processor", kind)]

/-- The route of a score. -/
def route (threshold score : Binary64) : String :=
  if score.atLeast threshold then highRoute else lowRoute

/-- The memory after a record. -/
def remember (record : Record) (memory : Memory) : Memory :=
  let memory := memory.insert lastContentKey (Fingerprint.hexOfText record.content)
  match record.uuid? with
  | some uuid => memory.insert lastUuidKey uuid
  | none => memory

/-- The handler with a threshold. -/
def handler (σ : Type) (threshold : Binary64) : Handler σ where
  kind := kind
  handle _ record w :=
    let kernel := (w.kernel.signal record.content).2
    let score := kernel.resonanceOf record.content
    let outcome := ⟨route threshold score, metadata kernel.identity score kernel.phase⟩
    (.ok outcome, { w with kernel := kernel.withMemory (remember record) })

end Echo

end ResonantGraph
