import ResonantGraph.Kernel.Program

/-!
# What happens to a kernel

However deeply the hooks of a program are nested, what happens to the kernel happens one thing after the
other: it takes on an identity, enters a phase, or begins with a signal (`Kernel.Event`). There is no event
for the end of a signal, since all that is left to do then is to enter the phase that `Kernel.settled`
names. `Program.events` lists what happens in a run, in order and with the hooks at their places, and
`Program.run_eq` says that nothing else does. So a property of every run is an induction over a list.
-/

namespace ResonantGraph

namespace Kernel

/-! ### Events -/

/-- One thing that happens to a kernel. -/
inductive Event
  /-- It takes on an identity. -/
  | awaken (identity : Identity)
  /-- It enters a phase. -/
  | enter (phase : Phase)
  /-- It begins with a signal. -/
  | beginSignal (text : String)

/-- Whether an event is the beginning of a signal. -/
def Event.isSignal : Event → Bool
  | .beginSignal _ => true
  | _ => false

/-- The kernel after an event. -/
def undergo (k : Kernel) : Event → Kernel
  | .awaken identity => k.awaken identity
  | .enter phase => k.enter phase
  | .beginSignal text => (k.beginSignal text).2

@[simp] theorem undergo_awaken (k : Kernel) (identity : Identity) :
    k.undergo (.awaken identity) = k.awaken identity := rfl

@[simp] theorem undergo_enter (k : Kernel) (phase : Phase) :
    k.undergo (.enter phase) = k.enter phase := rfl

@[simp] theorem undergo_beginSignal (k : Kernel) (text : String) :
    k.undergo (.beginSignal text) = (k.beginSignal text).2 := rfl

/-- The kernel after events. -/
def after (k : Kernel) (events : List Event) : Kernel := events.foldl undergo k

@[simp] theorem after_nil (k : Kernel) : k.after [] = k := rfl

@[simp] theorem after_cons (k : Kernel) (e : Event) (events : List Event) :
    k.after (e :: events) = (k.undergo e).after events := rfl

theorem after_append (k : Kernel) (events events' : List Event) :
    k.after (events ++ events') = (k.after events).after events' :=
  List.foldl_append ..

/-! ### Signals -/

variable {ε : Type}

/-- The phase that a signal leaves: `reflecting` if its hook succeeded, else the one that it found. -/
def settled (k : Kernel) : Except ε Unit → Phase
  | .ok () => .reflecting
  | .error _ => k.phase

/-- A signal is its beginning, its hook, and the phase that is entered in the end. -/
theorem signalWith_eq (k : Kernel) (text : String)
    (hook : String → Binary64 → Kernel → Except ε Unit × Kernel) :
    k.signalWith text hook =
      let begun := k.beginSignal text
      let ended := hook text begun.1 begun.2
      (ended.1.map fun _ => begun.1, ended.2.enter (k.settled ended.1)) := by
  unfold signalWith
  dsimp only
  rcases hook text (k.beginSignal text).1 (k.beginSignal text).2 with ⟨_ | _, _⟩ <;> rfl

end Kernel

namespace Program

open Kernel (Event)

variable {ε : Type}

/-! ### Runs -/

/-- What happens to a kernel when a program is run on it. -/
def events : Program ε → Kernel → List Event
  | finish _, _ => []
  | awaken identity next, k => .awaken identity :: next.events (k.awaken identity)
  | enter phase next, k => .enter phase :: next.events (k.enter phase)
  | signal text hook next, k =>
    let begun := k.beginSignal text
    let ended := (hook begun.1).run begun.2
    let phase := k.settled ended.1
    .beginSignal text :: (hook begun.1).events begun.2 ++
      .enter phase :: (next (ended.1.map fun _ => begun.1)).events (ended.2.enter phase)
  | inspect next, k => (next k).events k

/-- **A run is its events.** -/
theorem run_eq (program : Program ε) (k : Kernel) :
    (program.run k).2 = k.after (program.events k) := by
  -- over the program; a signal has its hook for one hypothesis and the rest of the program for another
  induction program generalizing k with
  | finish result => rfl
  | awaken identity next ih => exact ih (k.awaken identity)
  | enter phase next ih => exact ih (k.enter phase)
  | signal text hook next ihhook ihnext =>
    unfold run events
    rw [k.signalWith_eq]
    dsimp only
    rw [ihnext, List.cons_append, Kernel.after_cons, Kernel.after_append, Kernel.after_cons,
      ihhook (k.beginSignal text).1 (k.beginSignal text).2]
    rfl
  | inspect next ih => exact ih k k

end Program

end ResonantGraph
