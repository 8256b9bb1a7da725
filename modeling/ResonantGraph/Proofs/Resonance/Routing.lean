import ResonantGraph.Processor.Echo
import ResonantGraph.Proofs.Mapper.Session
import ResonantGraph.Proofs.Resonance.Bounds
import ResonantGraph.Settings

/-!
# Where records are sent by their score

An echo unit sends a record to the high route if its score reaches a threshold. The unit scores against the
identity that it derived from its name, whose signature is not empty and whose weight is one, and no record
changes this identity (`Processor.process_echo`). The score of a content that is not empty is therefore not
below one half, and a threshold up to one half, as the default is, tells no such records apart
(`echo_routes_high`).
-/

namespace ResonantGraph

open Resonance

namespace Echo

variable {σ : Type} {p : Processor σ} {threshold : Binary64}

/-- The outcome of a record for a unit with an identity. -/
def outcomeOf (identity : Identity) (threshold : Binary64) (record : Record) : Outcome :=
  let score := resonance record.content identity
  ⟨route threshold score, metadata identity score .reflecting⟩

/-- A unit has an outcome for every record, and works on its kernel alone. -/
theorem process_eq (hp : p.handler = handler σ threshold) (record : Record) (w : Workspace σ) :
    p.process record w =
      (.ok (outcomeOf w.kernel.identity threshold record),
        { w with
          kernel := ((((w.kernel.enter .processing).signal record.content).2).withMemory
            (remember record)).enter .reflecting }) := by
  have hidentity : ((w.kernel.enter .processing).signal record.content).2.identity = w.kernel.identity := by
    rw [Kernel.identity_signal, Kernel.identity_enter]
  have hphase : ((w.kernel.enter .processing).signal record.content).2.phase = .reflecting :=
    Kernel.phase_enter ..
  unfold Processor.process
  simp only [hp, handler, Kernel.resonanceOf, hidentity, hphase]
  rfl

end Echo

theorem Processor.signature_identityOf_ne_empty (name : String) (extraPatterns : List String) :
    (identityOf name extraPatterns).signature ≠ "" := by
  intro hempty
  have hlength := congrArg String.length hempty
  simp [identityOf] at hlength

namespace Processor

variable {σ : Type} {p : Processor σ} {threshold : Binary64}

/-- An echo unit sends a record where its score belongs, and keeps its identity. -/
theorem process_echo (hp : p.handler = Echo.handler σ threshold) (record : Record) (w : Workspace σ) :
    (∃ metadata, (p.process record w).1 =
      .ok ⟨Echo.route threshold (resonance record.content w.kernel.identity), metadata⟩) ∧
      (p.process record w).2.kernel.identity = w.kernel.identity := by
  rw [Echo.process_eq hp]
  refine ⟨⟨_, rfl⟩, ?_⟩
  -- neither a signal nor entering a phase changes the identity
  rw [Kernel.identity_enter]
  change ((w.kernel.enter .processing).signal record.content).2.identity = w.kernel.identity
  rw [Kernel.identity_signal, Kernel.identity_enter]

/-- A unit with the identity of its name and a threshold up to one half sends a record high, whatever its
content is as long as it has one. -/
theorem routes_high (hp : p.handler = Echo.handler σ threshold) (hthreshold : half.atLeast threshold = true)
    {w : Workspace σ} (hw : w.kernel.identity = p.identity) {record : Record} (hcontent : record.content ≠ "") :
    ∃ metadata, (p.process record w).1 = .ok ⟨Echo.highRoute, metadata⟩ := by
  obtain ⟨⟨metadata, hresult⟩, -⟩ := process_echo hp record w
  have hscore : (resonance record.content w.kernel.identity).atLeast half = true := by
    rw [hw]
    exact half_le_score hcontent (signature_identityOf_ne_empty p.name p.extraPatterns)
  refine ⟨metadata, ?_⟩
  rw [hresult, Echo.route, if_pos (Binary64.atLeast_trans hscore hthreshold)]

variable [Store σ]

/-- Record after record, from a workspace in which the unit has the identity of its name. -/
theorem processAll_routes_high (hp : p.handler = Echo.handler σ threshold)
    (hthreshold : half.atLeast threshold = true) (records : List Record) {w : Workspace σ}
    (hw : w.kernel.identity = p.identity) :
    List.Forall₂ (fun record result => record.content ≠ "" → ∃ metadata, result = .ok ⟨Echo.highRoute, metadata⟩)
      records (p.processAll records w).1 := by
  induction records generalizing w with
  | nil => exact .nil
  | cons record records ih =>
    exact .cons (routes_high hp hthreshold hw) (ih ((process_echo hp record w).2.trans hw))

end Processor

/-- **A threshold up to one half sends everything high.** Let a unit derive its identity from a name and
patterns. Against this identity, whose weight is one, a content that is not empty scores at least one half,
and at most one if no pattern occurs in it. That is so over rationals with any rounding that keeps the order of
numbers and leaves zero, one half, one and two alone, and over exact rationals, where the score without a
pattern that occurs is one just if the fingerprints of content and signature are equal. It is so for stored
reals, too. Hence an echo unit with a threshold up to one half, such as the default, takes the high route for
every record with a content, whatever it processed before. -/
theorem echo_routes_high (name : String) (extraPatterns : List String) :
    let identity := Processor.identityOf name extraPatterns
    let score := fun {α : Type} (A : Arithmetic α) (content : String) (weight : α) =>
      Resonance.score A content identity.signature identity.patterns weight
    identity.weight = 1 ∧
      (∀ round, Rounding round → ∀ content, content ≠ "" →
        1 / 2 ≤ score (.rounded round) content 1 ∧
          (occurring content identity.patterns = ∅ → score (.rounded round) content 1 ≤ 1)) ∧
      (∀ content, content ≠ "" →
        1 / 2 ≤ score .exact content 1 ∧
          (occurring content identity.patterns = ∅ →
            score .exact content 1 ≤ 1 ∧
              (score .exact content 1 = 1 ↔
                Fingerprint.ofText content = Fingerprint.ofText identity.signature))) ∧
      (∀ content, content ≠ "" →
        (resonance content identity).atLeast half = true ∧
          (occurring content identity.patterns = ∅ → (1 : Binary64).atLeast (resonance content identity) = true)) ∧
      (∀ (σ : Type) [Store σ] (threshold : Binary64), half.atLeast threshold = true →
        let unit : Processor σ := { name, extraPatterns, handler := Echo.handler σ threshold }
        ∀ (w : Workspace σ) (records : List Record),
          List.Forall₂ (fun record result =>
              record.content ≠ "" → ∃ metadata, result = .ok ⟨Echo.highRoute, metadata⟩)
            records (unit.processAll records (unit.setUp w)).1) ∧
      half.atLeast ({} : Settings).resonanceThreshold = true := by
  intro identity score
  have hsignature : identity.signature ≠ "" := Processor.signature_identityOf_ne_empty name extraPatterns
  refine ⟨rfl, fun round hround content hcontent => hround.score_bounds hcontent hsignature,
    fun content hcontent => ?_, fun content hcontent => ?_, ?_, ?_⟩
  · refine ⟨(rounding_id.score_bounds hcontent hsignature).1, fun hnone => ⟨?_, ?_⟩⟩
    · exact (rounding_id.score_bounds hcontent hsignature).2 hnone
    · exact score_exact_eq_one_iff hcontent hsignature hnone
  · exact ⟨half_le_score hcontent hsignature, fun hnone => score_le_one hcontent hsignature hnone⟩
  · intro σ _ threshold hthreshold unit w records
    exact Processor.processAll_routes_high rfl hthreshold records (Kernel.identity_awaken ..)
  · exact denotes_half.atLeast denotes_half le_rfl

/-- `echo_routes_high` for the default unit and a text in which none of its patterns occurs. -/
theorem echo_routes_high_bell :
    let identity := Processor.identityOf "hyperecho" []
    let unit : Processor Store.Tables :=
      { name := "hyperecho", handler := Echo.handler _ ({} : Settings).resonanceThreshold }
    occurring "bell" identity.patterns = ∅ ∧
      1 / 2 ≤ Resonance.score (.rounded Binary64.nearest) "bell" identity.signature identity.patterns 1 ∧
      Resonance.score .exact "bell" identity.signature identity.patterns 1 ≠ 1 ∧
      (1 : Binary64).atLeast (resonance "bell" identity) = true ∧
      ∃ metadata, (unit.process ⟨"bell", ∅⟩ (unit.setUp {})).1 = .ok ⟨Echo.highRoute, metadata⟩ := by
  intro identity unit
  obtain ⟨-, hrounded, hexact, hfloating, hrouted, hdefault⟩ := echo_routes_high "hyperecho" []
  have hcontent : "bell" ≠ "" := by decide
  have hnone : occurring "bell" identity.patterns = ∅ := by decide +kernel
  refine ⟨hnone, (hrounded _ rounding_nearest _ hcontent).1, ?_, (hfloating _ hcontent).2 hnone, ?_⟩
  · have hdifferent : Fingerprint.ofText "bell" ≠ Fingerprint.ofText identity.signature := by decide +kernel
    exact fun hone => hdifferent (((hexact _ hcontent).2 hnone).2.1 hone)
  · have hall := hrouted Store.Tables _ hdefault {} [⟨"bell", ∅⟩]
    exact (List.forall₂_cons.1 hall).1 hcontent

end ResonantGraph
