import ResonantGraph.Table

/-!
# Working memory

A memory keeps texts under keys. Storing replaces; besides single keys, all keys that begin alike can
be removed together.
-/

namespace ResonantGraph

/-- Texts under keys. -/
abbrev Memory := Table String

namespace Memory

/-- Whether a key begins with a given text. -/
def beginsWith (key start : String) : Bool := start.toList.isPrefixOf key.toList

/-- Removes every key that begins with a given text, and counts them. -/
def removeBeginning (m : Memory) (start : String) : Nat × Memory :=
  let kept := m.filter fun key _ => !beginsWith key start
  (m.size - kept.size, kept)

/-- Removes a key and says whether it was there. -/
def remove (m : Memory) (key : String) : Bool × Memory := (m.contains key, m.erase key)

theorem find?_removeBeginning (m : Memory) (start key : String) :
    (m.removeBeginning start).2.find? key =
      if beginsWith key start then none else m.find? key := by
  rw [removeBeginning, Table.find?_filter]
  cases beginsWith key start <;> cases m.find? key <;> simp

end Memory

end ResonantGraph
