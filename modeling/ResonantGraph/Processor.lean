import ResonantGraph.Kernel
import ResonantGraph.Substrate

/-!
# Processing units

A processing unit has a name, patterns, and a handler for records. It works on a kernel and, if it is
attached to one, a substrate; the two together are its `Workspace`. Several units may share one
substrate: the state of each is its kernel.

The unit's identity is derived from its name. To *set up* a unit is to give this identity to its
kernel and to add a root node that carries it. To *process* a record is to hand it to the handler in
the phase `processing`; afterwards the kernel is `reflecting` if the handler succeeded and `dormant`
if it failed.
-/

namespace ResonantGraph

/-- A text with attributes. -/
structure Record where
  /-- The text. -/
  content : String
  /-- What came with it. -/
  attributes : Attributes := ∅

/-- Where a record goes, and what was found out about it. -/
structure Outcome where
  /-- The name of the route. -/
  route : String
  /-- Named texts to attach to the record. -/
  metadata : Attributes := ∅

/-- The kernel of a unit and the substrate it is attached to, if any. -/
structure Workspace (σ : Type) where
  /-- The kernel. -/
  kernel : Kernel := {}
  /-- The substrate. -/
  substrate : Option (Substrate σ) := none

/-- A way of handling records. -/
structure Handler (σ : Type) where
  /-- The kind of handler, as the root node tells it. -/
  kind : String := "custom"
  /-- Handles a record for the unit of a given name. -/
  handle : String → Record → Workspace σ → Except Failure Outcome × Workspace σ

/-- A processing unit. -/
structure Processor (σ : Type) where
  /-- The name, from which the identity derives. -/
  name : String
  /-- Patterns after the derived ones. -/
  extraPatterns : List String := []
  /-- What it does with records. -/
  handler : Handler σ

namespace Workspace

variable {σ : Type}

/-- The substrate, or the failure of a unit that has none. -/
def requireSubstrate (w : Workspace σ) (name : String) : Except Failure (Substrate σ) :=
  match w.substrate with
  | some substrate => .ok substrate
  | none => .error (.handler (.detached name))

end Workspace

/-- The attribute of a record that names its flow. -/
def Record.flowAttribute : String := "uuid"

/-- The name that a record brings for its flow, unless it is empty. -/
def Record.uuid? (record : Record) : Option String :=
  (record.attributes.find? Record.flowAttribute).filter (· ≠ "")

namespace Processor

variable {σ : Type}

/-- The patterns that every unit has. -/
def basePatterns : List String := ["cognitive", "process", "echo"]

/-- The identifier of the root node of a unit. -/
def rootId (name : String) : NodeId := name ++ "_root"

/-- The identity of a unit of a given name. -/
def identityOf (name : String) (extraPatterns : List String) : Identity where
  signature := name ++ "_cognitive_identity"
  frequency := Fingerprint.ofText name
  patterns := basePatterns ++ name :: extraPatterns
  weight := 1

/-- The identity of the unit. -/
def identity (p : Processor σ) : Identity := identityOf p.name p.extraPatterns

/-- The root node of the unit. -/
def rootNode (p : Processor σ) : Node where
  id := rootId p.name
  label := p.name ++ " root"
  identity := p.identity
  attributes := Table.ofList [("processor_type", p.handler.kind), ("processor_name", p.name)]

variable [Store σ]

/-- Gives the kernel its identity and adds the root node. A root node that is there stays. -/
def setUp (p : Processor σ) (w : Workspace σ) : Workspace σ where
  kernel := w.kernel.awaken p.identity
  substrate := w.substrate.map fun s => (s.addNode p.rootNode).2

/-- Hands a record to the handler. -/
def process (p : Processor σ) (record : Record) (w : Workspace σ) :
    Except Failure Outcome × Workspace σ :=
  let started := { w with kernel := w.kernel.enter .processing }
  match p.handler.handle p.name record started with
  | (.ok outcome, w) => (.ok outcome, { w with kernel := w.kernel.enter .reflecting })
  | (.error e, w) => (.error e, { w with kernel := w.kernel.enter .dormant })

end Processor

end ResonantGraph
