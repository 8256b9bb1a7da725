import ResonantGraph.Processor

/-!
# Plain handlers

Two handlers without a purpose of their own, for trying units out: one that fails after a signal,
and one that reports on the unit and can remove its root node.
-/

namespace ResonantGraph

namespace Handler

variable {σ : Type}

/-- Sends the content to the kernel and fails in the given words. -/
def failing (σ : Type) (message : String) : Handler σ where
  handle _ record w :=
    (.error (.handler (.other message)),
      { w with kernel := (w.kernel.signal record.content).2 })

/-- Reports on the unit's root node; the content `remove` removes it. -/
def rooted [Store σ] : Handler σ where
  handle name record w :=
    match w.requireSubstrate name with
    | .error e => (.error e, w)
    | .ok s =>
      let rootId := Processor.rootId name
      let found : List (String × String) :=
        [("root_id", rootId), ("root_exists", toString (s.graph.hasNode rootId)),
          ("unit", name), ("has_substrate", toString true), ("state", w.kernel.phase.name)]
      if record.content = "remove" then
        let (removed, s) := s.removeNode rootId
        (.ok ⟨"ok", Table.ofList (found ++ [("removed", toString removed)])⟩,
          { w with substrate := some s })
      else (.ok ⟨"ok", Table.ofList found⟩, w)

end Handler

end ResonantGraph
