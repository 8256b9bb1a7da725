import ResonantGraph.Proofs.Kernel.Events
import ResonantGraph.Processor.Echo
import ResonantGraph.Processor.Mapper
import ResonantGraph.Processor.Plain
import ResonantGraph.Store.Tables
import Mathlib.Data.List.Chain

/-!
# The phases of a kernel form a path

An observer that is told of every change of phase sees a path: each change begins where the last one ended,
none stays in place, the observer finds the kernel where it has just arrived, and in the end the kernel is
where the last change went (`Phase.Journey`).

One event makes at most one change, and paths can be joined (`Journey.append`), so whatever events happen to
a kernel make a path (`Kernel.Travels.after`). Nested hooks, failures and the phases that they bring back
are no case of their own, since the run of a program is its events. A unit enters two more phases around the
program of its handler, which settles every run of acts of a unit (`Processor.travels_actAll`).
-/

namespace ResonantGraph

/-! ### Paths -/

/-- Changes that lead from one phase to another. -/
structure Phase.Journey (start : Phase) (changes : List Transition) (stop : Phase) : Prop where
  /-- The first change leaves the phase at the start. -/
  first : ∀ t ∈ changes.head?, t.before = start
  /-- Every other change leaves the phase that the one before it entered. -/
  next : changes.IsChain fun s t => t.before = s.after
  /-- No change stays where it is. -/
  moves : ∀ t ∈ changes, t.before ≠ t.after
  /-- The observer of a change finds the kernel in the phase that it entered. -/
  observed : ∀ t ∈ changes, t.observed = t.after
  /-- The last change enters the phase at the end. Without a change that is the phase at the start. -/
  last : stop = (changes.getLast?.map Transition.after).getD start

namespace Phase.Journey

variable {start middle stop : Phase} {changes changes' : List Transition}

theorem stay (phase : Phase) : Journey phase [] phase where
  first := fun _ h => by cases h
  next := .nil
  moves := fun _ h => by cases h
  observed := fun _ h => by cases h
  last := rfl

theorem move (h : start ≠ stop) : Journey start [⟨start, stop, stop⟩] stop where
  first := by
    rintro t ht
    cases ht
    rfl
  next := .singleton _
  moves := List.forall_mem_singleton.2 h
  observed := List.forall_mem_singleton.2 rfl
  last := rfl

/-- A path that goes on where another one ended. -/
theorem append (h : Journey start changes middle) (h' : Journey middle changes' stop) :
    Journey start (changes ++ changes') stop where
  first := by
    intro t ht
    cases changes with
    | nil =>
      -- the first path stayed where it was
      rw [h'.first t ht]
      exact h.last
    | cons s rest => exact h.first t ht
  next := by
    refine List.isChain_append.2 ⟨h.next, h'.next, fun s hs t ht => ?_⟩
    rw [h'.first t ht, h.last, Option.mem_def.1 hs]
    rfl
  moves := List.forall_mem_append.2 ⟨h.moves, h'.moves⟩
  observed := List.forall_mem_append.2 ⟨h.observed, h'.observed⟩
  last := by
    rw [h'.last, h.last, List.getLast?_append]
    cases changes'.getLast? <;> rfl

end Phase.Journey

/-! ### Kernels -/

namespace Kernel

open Phase (Journey)

/-- One kernel becomes another, and the changes of phase on the way, which the observer was told of, are a
path between their phases. -/
def Travels (k k' : Kernel) : Prop :=
  ∃ changes, k'.transitions = k.transitions ++ changes ∧ Journey k.phase changes k'.phase

namespace Travels

variable {k k' k'' : Kernel}

theorem refl (k : Kernel) : k.Travels k := ⟨[], (List.append_nil _).symm, .stay _⟩

theorem trans (h : k.Travels k') (h' : k'.Travels k'') : k.Travels k'' := by
  obtain ⟨changes, htransitions, hpath⟩ := h
  obtain ⟨changes', htransitions', hpath'⟩ := h'
  refine ⟨changes ++ changes', ?_, hpath.append hpath'⟩
  rw [htransitions', htransitions, List.append_assoc]

/-- Only the phase and the record of its changes matter. -/
theorem of_eq (transitions : k'.transitions = k.transitions) (phase : k'.phase = k.phase) :
    k.Travels k' := by
  refine ⟨[], ?_, ?_⟩
  · rw [transitions, List.append_nil]
  · rw [phase]
    exact .stay _

theorem enter (k : Kernel) (phase : Phase) : k.Travels (k.enter phase) := by
  unfold Kernel.enter
  split
  · exact .refl k
  · next hmoves => exact ⟨_, rfl, .move hmoves⟩

/-- An event makes at most one change. -/
theorem undergo (k : Kernel) (e : Event) : k.Travels (k.undergo e) := by
  cases e with
  | awaken identity =>
    -- the identity is in place before the phase changes
    exact (of_eq rfl rfl).trans (.enter { k with identity, memory := remember k.memory identity } _)
  | enter phase => exact .enter k phase
  | beginSignal text => exact (enter k .processing).trans (of_eq rfl rfl)

theorem after (k : Kernel) (events : List Event) : k.Travels (k.after events) := by
  induction events generalizing k with
  | nil => exact .refl k
  | cons e events ih => exact (undergo k e).trans (ih (k.undergo e))

theorem run {ε : Type} (program : Program ε) (k : Kernel) : k.Travels (program.run k).2 := by
  rw [program.run_eq]
  exact .after k _

end Travels

end Kernel

/-! ### Units -/

/-- A handler that uses the kernel by a program, which may depend on all there is to see. What it does to
the memory on top of that is free, and so is what it does to the substrate. -/
def Handler.Programmed {σ : Type} (h : Handler σ) : Prop :=
  ∀ name record w, ∃ (ε : Type) (program : Program ε) (memory : Memory),
    (h.handle name record w).2.kernel = { (program.run w.kernel).2 with memory }

namespace Handler

variable {σ : Type}

/-- The program that sends one signal. -/
def signalling (text : String) : Program Failure := .signal text (fun _ => .done) fun _ => .done

theorem programmed_echo (threshold : Binary64) : (Echo.handler σ threshold).Programmed :=
  fun _ record _ => ⟨Failure, signalling record.content, _, rfl⟩

theorem programmed_failing (message : String) : (failing σ message).Programmed :=
  fun _ record _ => ⟨Failure, signalling record.content, _, rfl⟩

variable [Store σ]

theorem programmed_rooted : (rooted (σ := σ)).Programmed := by
  intro name record w
  refine ⟨Failure, .done, w.kernel.memory, ?_⟩
  unfold rooted
  dsimp only
  -- it looks at the kernel and leaves it alone
  cases w.requireSubstrate name with
  | error e => rfl
  | ok s =>
    dsimp only
    split <;> rfl

theorem programmed_mapper (m : Mapper) : (m.handler (σ := σ)).Programmed := by
  intro name record w
  unfold Mapper.handler
  dsimp only
  cases w.requireSubstrate name with
  | error e => exact ⟨Failure, .done, _, rfl⟩
  | ok s =>
    -- the signal comes first, and mapping has to do with the substrate only
    refine ⟨Failure, signalling record.content, (w.kernel.signal record.content).2.memory, ?_⟩
    dsimp only
    split <;> rfl

end Handler

namespace Processor

variable {σ ε : Type} {p : Processor σ}

/-- Whether the handler succeeds or fails, one phase is entered before it and one after it. -/
theorem travels_process (programmed : p.handler.Programmed) (record : Record) (w : Workspace σ) :
    w.kernel.Travels (p.process record w).2.kernel := by
  obtain ⟨_, program, memory, hprogram⟩ :=
    programmed p.name record { w with kernel := w.kernel.enter .processing }
  have handled : w.kernel.Travels
      (p.handler.handle p.name record { w with kernel := w.kernel.enter .processing }).2.kernel := by
    rw [hprogram]
    exact ((Kernel.Travels.enter w.kernel .processing).trans (.run program _)).trans (.of_eq rfl rfl)
  unfold process
  dsimp only
  revert handled
  generalize p.handler.handle p.name record { w with kernel := w.kernel.enter .processing } = handled
  rcases handled with ⟨_ | _, w'⟩
  · exact fun h => h.trans (.enter w'.kernel .dormant)
  · exact fun h => h.trans (.enter w'.kernel .reflecting)

/-- Something that is done with a unit. -/
inductive Act (ε : Type)
  /-- Use its kernel. -/
  | use (program : Program ε)
  /-- Set it up. -/
  | setUp
  /-- Have it process a record. -/
  | process (record : Record)

variable [Store σ]

/-- The workspace of a unit after an act. -/
def act (p : Processor σ) (w : Workspace σ) : Act ε → Workspace σ
  | .use program => { w with kernel := (program.run w.kernel).2 }
  | .setUp => p.setUp w
  | .process record => (p.process record w).2

/-- The workspace of a unit after acts. -/
def actAll (p : Processor σ) (w : Workspace σ) (acts : List (Act ε)) : Workspace σ :=
  acts.foldl p.act w

theorem travels_act (programmed : p.handler.Programmed) (w : Workspace σ) (a : Act ε) :
    w.kernel.Travels (p.act w a).kernel := by
  cases a with
  | use program => exact .run program w.kernel
  | setUp => exact .undergo w.kernel (.awaken p.identity)
  | process record => exact travels_process programmed record w

/-- **Changes of phase form a path.** Whatever programs use the kernel of a unit, and whatever records the
unit processes with a handler that is a program, the observer is told of a path: from the phase that the
kernel was in, change by change, to the phase that it is in. -/
theorem travels_actAll (programmed : p.handler.Programmed) (w : Workspace σ) (acts : List (Act ε)) :
    ∃ changes, (p.actAll w acts).kernel.transitions = w.kernel.transitions ++ changes ∧
      Phase.Journey w.kernel.phase changes (p.actAll w acts).kernel.phase := by
  change w.kernel.Travels (p.actAll w acts).kernel
  induction acts generalizing w with
  | nil => exact .refl w.kernel
  | cons a acts ih => exact (travels_act programmed w a).trans (ih (p.act w a))

/-- A program whose signal fails, and the signal of its hook before it. -/
def wayward : Program String :=
  .enter .learning <|
    .signal "outer"
      (fun _ => .signal "inner" (fun _ => .finish (.error "no"))
        fun _ => .enter .creating (.finish (.error "no")))
      fun _ => .done

/-- `travels_actAll` on a unit whose handler fails and whose kernel then runs `wayward`: the inner signal
finds the kernel at work and moves it nowhere, the outer one brings back `learning`. -/
theorem travels_actAll_wayward :
    let p : Processor Store.Tables := { name := "unit", handler := Handler.failing _ "no" }
    let w := p.actAll {} [.setUp, .process { content := "text" }, .use wayward]
    p.handler.Programmed ∧ ∃ changes, w.kernel.transitions = changes ∧
      Phase.Journey .dormant changes .learning ∧ changes.map Transition.after =
        [.awakening, .processing, .reflecting, .dormant, .learning, .processing, .creating, .learning] := by
  intro p w
  refine ⟨Handler.programmed_failing "no", ?_⟩
  obtain ⟨changes, htransitions, hpath⟩ := travels_actAll (p := p) (Handler.programmed_failing "no") {}
    [.setUp, .process { content := "text" }, .use wayward]
  refine ⟨changes, htransitions, hpath, ?_⟩
  have hchanges : changes = w.kernel.transitions := htransitions.symm
  rw [hchanges]
  decide

end Processor

end ResonantGraph
