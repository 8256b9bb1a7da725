import ResonantGraph.Failure
import ResonantGraph.Processor.Mapper
import ResonantGraph.Settings.Document

/-!
# Settings

What the host program can be tuned by. Each setting has a default, and a document need not mention
it; it may mention only settings, each once, with values of the right type. Numbers of things are
words, and an integer may stand for a decimal.
-/

namespace ResonantGraph

/-- The settings of the host program. -/
structure Settings where
  /-- The name of the unit. -/
  unitName : String := "hyperecho"
  /-- The score from which a record has high resonance. -/
  resonanceThreshold : Binary64 := ⟨0x3fe0000000000000⟩
  /-- The least number of characters of a word. -/
  minWordLength : Nat := 4
  /-- The clustering coefficient that a clustered record exceeds. -/
  clusterThreshold : Binary64 := ⟨0x3fe0000000000000⟩
  /-- The least number of connections of a clustered record. -/
  clusterMinConnections : Nat := 3
  /-- The least number of connected nodes that similar contents share. -/
  similarityMinShared : Nat := 2
  /-- Patterns after the derived ones. -/
  extraPatterns : List String := []

namespace Settings

/-- The mapper of the settings. -/
def mapper (s : Settings) : Mapper where
  minWordLength := s.minWordLength
  clusterThreshold := s.clusterThreshold
  clusterMinConnections := s.clusterMinConnections
  similarityMinShared := s.similarityMinShared

/-! ### Values -/

/-- A value as a text. -/
def Value.asText? : Value → Option String
  | text value => some value
  | _ => none

/-- A value as a list of texts. -/
def Value.asTexts? : Value → Option (List String)
  | texts value => some value
  | _ => none

/-- A value as a number of things. -/
def Value.asCount? : Value → Option Nat
  | integer (.ofNat n) => if n < UInt64.size then some n else none
  | _ => none

/-- A value as a real. Integers are taken as far as one of the two kinds of word holds them. -/
def Value.asReal? : Value → Option Binary64
  | decimal value => some value
  | integer (.ofNat n) => if n < UInt64.size then some (.ofNat n) else none
  | integer (.negSucc n) => if n < UInt64.size / 2 then some (Binary64.ofNat (n + 1)).neg else none
  | _ => none

/-! ### Documents -/

/-- Makes an assignment, if its key is a setting and its value is suitable. -/
def assign (s : Settings) (key : String) (value : Value) : Except SettingsFault Settings :=
  match key with
  | "unit_name" => suitable (value.asText?.map fun v => { s with unitName := v })
  | "resonance_threshold" => suitable (value.asReal?.map fun v => { s with resonanceThreshold := v })
  | "min_word_length" => suitable (value.asCount?.map fun v => { s with minWordLength := v })
  | "cluster_threshold" => suitable (value.asReal?.map fun v => { s with clusterThreshold := v })
  | "cluster_min_connections" =>
    suitable (value.asCount?.map fun v => { s with clusterMinConnections := v })
  | "similarity_min_shared" =>
    suitable (value.asCount?.map fun v => { s with similarityMinShared := v })
  | "extra_patterns" => suitable (value.asTexts?.map fun v => { s with extraPatterns := v })
  | _ => .error (.unknownKey key)
where
  /-- Fails where there is no suitable value. -/
  suitable : Option Settings → Except SettingsFault Settings
    | some s => .ok s
    | none => .error (.unsuitableValue key)

/-- Makes assignments in order, none twice. -/
def assignAll (s : Settings) (seen : List String) :
    List (String × Value) → Except SettingsFault Settings
  | [] => .ok s
  | (key, value) :: rest =>
    if seen.contains key then .error (.repeatedKey key)
    else
      match s.assign key value with
      | .ok s => s.assignAll (key :: seen) rest
      | .error e => .error e

/-- The settings of a document. -/
def ofDocument (document : String) : Except Failure Settings :=
  let result :=
    match readDocument? document with
    | some assignments => ({} : Settings).assignAll [] assignments
    | none => .error .malformed
  result.mapError fun e => .data (.settings e)

end Settings

end ResonantGraph
