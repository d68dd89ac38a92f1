import JcosKernel.Ipc.Model
import JcosKernel.Scheduler.Frame

/-!
# JcosKernel.Ipc.Steps

The system that IPC is part of: the kernel state together with the blocking calls that
are inside their loops.

Calls are numbered in the order in which they are made. A step emits notes: which
message a call was to send, which message was accepted on behalf of which call, and what
a call returned. A call of an
aborted wait never returns: `ipc_abort_thread_wait` is made to end the thread.
-/

namespace JcosKernel

open Lib

/-- What an observer of the calls sees. -/
inductive IpcNote
  /-- A send of `message` was called. -/
  | made (call : Nat) (message : IpcMessage)
  /-- A message went into the mailbox of `e` for good, sent by `call`. -/
  | accepted (e : EndpointRef) (call : Option Nat) (message : IpcMessage)
  /-- A send returned. -/
  | sent (call : Nat) (ok : Bool)
  /-- A receive on `e` returned `message`, or false. -/
  | received (call : Nat) (e : Option EndpointRef) (message : Option IpcMessage)
  deriving DecidableEq

/-- The kernel and the calls that are inside their loops. -/
structure World where
  kernel : IpcState
  /-- The blocking call that a thread is in, with its number. -/
  parked : ThreadRef → Option (Nat × ParkedCall)
  /-- The number of the next call. -/
  calls : Nat

namespace World

variable (w : World)

def setKernel (k : IpcState) : World := { w with kernel := k }

/-- The thread of the call is inside its loop, or not any more. -/
def setParked (t : ThreadRef) (call : Option (Nat × ParkedCall)) : World :=
  { w with parked := Function.update w.parked t call }

@[simp] theorem setKernel_kernel (k : IpcState) : (w.setKernel k).kernel = k := rfl
@[simp] theorem setKernel_parked (k : IpcState) : (w.setKernel k).parked = w.parked := rfl
@[simp] theorem setKernel_calls (k : IpcState) : (w.setKernel k).calls = w.calls := rfl
@[simp] theorem setParked_kernel (t : ThreadRef) (call : Option (Nat × ParkedCall)) :
    (w.setParked t call).kernel = w.kernel := rfl

/-- The current thread enters the loop of its call. -/
def parkCurrent (call : Nat × ParkedCall) : World :=
  match w.kernel.sched.threadCurrent with
  | none => w
  | some t => w.setParked t (some call)

/-- The notes about accepted messages; `n` is the running call. -/
def acceptedNotes (n : Nat) (accepted : List Accepted) : List IpcNote :=
  accepted.map fun a => .accepted a.endpoint
    (match a.sender with
      | none => some n
      | some t => (w.parked t).map Prod.fst) a.message

variable {α : Type}

/-- A new call was made. -/
def called (note : Nat → α → IpcNote) (r : IpcReturn (Progress α)) : List IpcNote × World :=
  let w' := { w.setKernel r.state with calls := w.calls + 1 }
  match r.value with
  | .returned a => (w.acceptedNotes w.calls r.accepted ++ [note w.calls a], w')
  | .parked call => (w.acceptedNotes w.calls r.accepted,
      { w.parkCurrent (w.calls, call) with kernel := r.state, calls := w.calls + 1 })

/-- The new call is a send of `message`. -/
def sending (message : IpcMessage) (r : List IpcNote × World) : List IpcNote × World :=
  (.made w.calls message :: r.1, r.2)

/-- The call `n` of thread `t` went through its loop once more. -/
def resumed (t : ThreadRef) (n : Nat) (note : Nat → α → IpcNote) (r : IpcReturn (Progress α)) :
    List IpcNote × World :=
  match r.value with
  | .returned a =>
    (w.acceptedNotes n r.accepted ++ [note n a], (w.setKernel r.state).setParked t none)
  | .parked _ => (w.acceptedNotes n r.accepted, w.setKernel r.state)

end World

/-- The operations of `ipc.c`. A timeout of `none` is the variant without one. -/
inductive IpcOp
  | trySend (process : ProcessRef) (handle : CapabilityHandle) (message : IpcMessage)
  | tryReceive (process : ProcessRef) (handle : CapabilityHandle)
  | sendBlocking (process : ProcessRef) (handle : CapabilityHandle) (message : IpcMessage)
      (timeout : Option Nat)
  | receiveBlocking (process : ProcessRef) (handle : CapabilityHandle) (timeout : Option Nat)
  /-- The current thread goes on inside the loop of its blocking call; `frame` is where a
  trap would save its context. -/
  | resume (frame : Nat)
  | timeoutPoll (now : Nat)
  | abortThreadWait (t : ThreadRef)
  | endpointClose (e : EndpointRef)

/-- The notes and the state that an operation leaves; `none` when the machine halts. -/
def IpcOp.exec (env : IpcEnv) (w : World) : IpcOp → Option (List IpcNote × World)
  | trySend process handle message =>
    (w.kernel.ipcTrySend env process handle message).map fun r =>
      w.sending message (w.called .sent (r.map .returned))
  | tryReceive process handle =>
    (w.kernel.ipcTryReceive env process handle).map fun r =>
      w.called (.received · (w.kernel.ipcResolveEndpoint env process handle
        capabilityRightReceive)) (r.map .returned)
  | sendBlocking process handle message timeout =>
    (w.kernel.ipcSendBlocking env process handle message timeout).map fun r =>
      w.sending message (w.called .sent r)
  | receiveBlocking process handle timeout =>
    (w.kernel.ipcReceiveBlocking env process handle timeout).map
      (w.called (.received · (w.kernel.ipcResolveEndpoint env process handle
        capabilityRightReceive)))
  | resume frame =>
    match w.kernel.sched.threadCurrent with
    | none => some ([], w)
    | some t =>
      match w.parked t with
      | none => some ([], w)
      | some (n, call) =>
        if call.kind = .ipcReceive then
          (w.kernel.ipcReceiveResume env frame t call).map
            (w.resumed t n (.received · (some call.endpoint)))
        else (w.kernel.ipcSendResume env frame t call).map (w.resumed t n .sent)
  | timeoutPoll now => (w.kernel.ipcTimeoutPoll now).map fun k => ([], w.setKernel k)
  | abortThreadWait t =>
    match w.kernel.ipcAbortThreadWait t with
    | (true, k) => some ([], (w.setKernel k).setParked t none)
    | (false, k) => some ([], w.setKernel k)
  | endpointClose e => (w.kernel.ipcEndpointClose e).map fun r => ([], w.setKernel r.2)

/-- The directions of IPC. -/
def ThreadWaitKind.Ipc (kind : ThreadWaitKind) : Prop := kind = .ipcReceive ∨ kind = .ipcSend

instance (kind : ThreadWaitKind) : Decidable kind.Ipc := inferInstanceAs (Decidable (_ ∨ _))

/-- The thread at `t` waits for IPC. -/
def IpcState.IpcWaiting (k : IpcState) (t : ThreadRef) : Prop :=
  k.sched.threadStorageLive t ∧ (k.sched.thread t).waitKind.Ipc

/-- Endpoints whose capability counts may differ. -/
structure EndpointState.SameChannels (s s' : EndpointState) : Prop where
  initialized : s'.initialized = s.initialized
  storage : s'.storage = s.storage
  endpoint : ∀ e, s'.endpoint e =
    { s.endpoint e with capabilityRefs := (s'.endpoint e).capabilityRefs }

/-- What the rest of the kernel does between two IPC operations. It may create, prepare
and destroy threads, let them wait for other things and change capabilities at will; a
thread that waits for IPC and the channels are left to `ipc.c`. -/
structure IpcElsewhere (k k' : IpcState) : Prop where
  sched : SchedElsewhere k.sched k'.sched
  endpoints : k.endpoints.SameChannels k'.endpoints
  timedWaits : k'.timedWaits = k.timedWaits
  waiting : ∀ t, k.IpcWaiting t → k'.sched.threadStorageLive t ∧
    k'.sched.thread t =
      { k.sched.thread t with capabilityRefs := (k'.sched.thread t).capabilityRefs }
  fresh : ∀ t, k'.IpcWaiting t → k.IpcWaiting t

/-- One step of the system. -/
inductive IpcStep : World → List IpcNote → World → Prop
  | op {w w' : World} {notes : List IpcNote} (env : IpcEnv) (o : IpcOp) :
      o.exec env w = some (notes, w') → IpcStep w notes w'
  | sched {w : World} {s : SchedState} (env : SpaceEnv) (c : SchedCall) : c.Bystander →
      c.exec env w.kernel.sched = some s → IpcStep w [] (w.setKernel (w.kernel.withSched s))
  | elsewhere {w : World} {k : IpcState} : IpcElsewhere w.kernel k → IpcStep w [] (w.setKernel k)

end JcosKernel
