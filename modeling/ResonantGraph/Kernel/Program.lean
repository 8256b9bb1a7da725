import ResonantGraph.Kernel

/-!
# Programs on a kernel

A `Program` is a finite use of a kernel: it takes on identities, enters phases, sends signals whose
hooks are programs again, and looks at the kernel whenever it likes. What it does next may depend on
everything it has seen. It ends by succeeding or by failing.

Programs are what hooks and handlers may do with a kernel; `Program.run` does it.
-/

namespace ResonantGraph

/-- A finite use of a kernel that succeeds or fails with a value of `ε`. -/
inductive Program (ε : Type) : Type
  /-- End. -/
  | finish (result : Except ε Unit)
  /-- Take on an identity. -/
  | awaken (identity : Identity) (next : Program ε)
  /-- Enter a phase. -/
  | enter (phase : Phase) (next : Program ε)
  /-- Send a signal with a hook, and go on with its result. -/
  | signal (text : String) (hook : Binary64 → Program ε)
      (next : Except ε Binary64 → Program ε)
  /-- Look at the kernel. -/
  | inspect (next : Kernel → Program ε)

namespace Program

variable {ε : Type}

/-- Ends with success. -/
def done : Program ε := finish (.ok ())

/-- Does what a program says. -/
def run : Program ε → Kernel → Except ε Unit × Kernel
  | finish result, k => (result, k)
  | awaken identity next, k => next.run (k.awaken identity)
  | enter phase next, k => next.run (k.enter phase)
  | signal text hook next, k =>
    let (result, k) := k.signalWith text fun _ score working => (hook score).run working
    (next result).run k
  | inspect next, k => (next k).run k

/-- The hook that a program is. -/
def asHook (p : Program ε) : String → Binary64 → Kernel → Except ε Unit × Kernel :=
  fun _ _ working => p.run working

end Program

end ResonantGraph
