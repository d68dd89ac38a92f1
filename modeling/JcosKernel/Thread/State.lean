import JcosKernel.Lib.Slots
import Mathlib.Algebra.Ring.Nat

/-!
# JcosKernel.Thread.State

The `Thread` object of `kernel/thread.h` and the file-static state of
`kernel/thread.c`, with the reads that every other component makes of them.

Memory is a total map from storage addresses to `Thread` objects: storage that
was never initialised has *some* contents, and the code decides by registry
membership (`threadStorageLive`), before it dereferences, whether a `Thread` is
there. Null is `none`; the operations take non-null references, because every
entry point of the source refuses null first.

Identities are `u64` counters. They are natural numbers here and every increment
is taken modulo `2 ^ 64`, so an exhausted counter reads zero, as in the source.
-/

namespace JcosKernel

open Lib

/-- Storage address of a `Thread`. -/
abbrev ThreadRef := Nat
/-- Storage address of a `Process`. -/
abbrev ProcessRef := Nat
/-- Storage address of an `Endpoint`. -/
abbrev EndpointRef := Nat
/-- Storage address of a `ProcessExitQueue`. -/
abbrev ExitQueueRef := Nat

/-- Increment of a `u64`. -/
def succ64 (n : Nat) : Nat := (n + 1) % 2 ^ 64

inductive ThreadRunState
  | invalid
  | ready
  | running
  | blocked
  | dead
  deriving Repr, DecidableEq

inductive ThreadWaitKind
  | none
  | ipcReceive
  | ipcSend
  | processExit
  deriving Repr, DecidableEq

inductive ThreadWaitResult
  | none
  | pending
  | cancelled
  | completed
  | peerClosed
  | timedOut
  deriving Repr, DecidableEq

/-- The object a wait is registered with. The source stores a `void *`; which of
the two object types it points at follows from `wait_kind`. -/
inductive WaitObject
  | endpoint (e : EndpointRef)
  | exitQueue (q : ExitQueueRef)
  deriving Repr, DecidableEq

/-- The fields of `Thread` that the modelled functions read or write. -/
structure Thread where
  id : Nat
  process : Option ProcessRef
  state : ThreadRunState
  /-- Address of the saved interrupt frame; zero when there is none. -/
  interruptRsp : Nat
  kernelStackPhysical : Nat
  kernelStackBase : Nat
  kernelStackTop : Nat
  kernelStackSize : Nat
  ownsKernelStack : Bool
  interruptContextReady : Bool
  waitKind : ThreadWaitKind
  waitResult : ThreadWaitResult
  waitObject : Option WaitObject
  waitId : Nat
  runNext : Option ThreadRef
  onRunQueue : Bool
  capabilityRefs : Nat
  deriving Repr, DecidableEq

/-- `k_memset(thread, 0, sizeof(*thread))`. -/
def Thread.zero : Thread where
  id := 0
  process := none
  state := .invalid
  interruptRsp := 0
  kernelStackPhysical := 0
  kernelStackBase := 0
  kernelStackTop := 0
  kernelStackSize := 0
  ownsKernelStack := false
  interruptContextReady := false
  waitKind := .none
  waitResult := .none
  waitObject := none
  waitId := 0
  runNext := none
  onRunQueue := false
  capabilityRefs := 0

/-- `THREAD_STORAGE_CAPACITY`. -/
abbrev threadStorageCapacity : Nat := 512

instance neZero_threads : NeZero threadStorageCapacity := ⟨by decide⟩

/-- The `Thread` objects and the static variables of `thread.c`. -/
structure ThreadState where
  thread : ThreadRef → Thread
  currentThread : Option ThreadRef
  nextThreadId : Nat
  nextWaitId : Nat
  initialized : Bool
  storage : Slots ThreadRef threadStorageCapacity
  unpublishedStack : Nat
  unpublishedStackVirtual : Nat

namespace ThreadState

variable (s : ThreadState) (t : ThreadRef)

/-- `thread_storage_live`. -/
abbrev threadStorageLive : Prop := s.storage.Live t

/-- `thread_current`. -/
def threadCurrent : Option ThreadRef :=
  if s.initialized then s.currentThread else none

/-- Store through a `Thread` pointer. -/
def modify (f : Thread → Thread) : ThreadState :=
  { s with thread := Function.update s.thread t (f (s.thread t)) }

@[simp] theorem modify_thread (f : Thread → Thread) :
    (s.modify t f).thread = Function.update s.thread t (f (s.thread t)) := rfl

end ThreadState

end JcosKernel
