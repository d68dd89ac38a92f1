import JcosKernel.Thread.State
import Mathlib.Data.Fintype.Pi

/-!
# JcosKernel.Endpoint.Model

`kernel/endpoint.c`: endpoint objects, their registry, and the one-message mailbox.

An endpoint has a mailbox (`message`, `messageReady`), room for one waiting receiver
and one waiting sender, and a second message slot in which a waiting sender's message
is staged. The waiting sides and the staging slot are written by `ipc.c` only.
-/

namespace JcosKernel

open Lib

/-- `IPC_MESSAGE_MAX_WORDS`. -/
abbrev ipcMessageMaxWords : Nat := 4

instance neZero_words : NeZero ipcMessageMaxWords := ⟨by decide⟩

structure IpcMessage where
  words : Fin ipcMessageMaxWords → Nat
  wordCount : Nat

namespace IpcMessage

-- a derived instance transports along a function equality and does not evaluate
instance : DecidableEq IpcMessage := fun a b =>
  decidable_of_iff (a.words = b.words ∧ a.wordCount = b.wordCount) (mk.injEq .. ▸ Iff.rfl)

/-- `k_memset(message, 0, sizeof(*message))`. -/
def zero : IpcMessage := ⟨fun _ => 0, 0⟩

/-- What is copied of a message: its first `word_count` words; the others are zero. -/
def copied (m : IpcMessage) : IpcMessage :=
  ⟨fun i => if i.val < m.wordCount then m.words i else 0, m.wordCount⟩

/-- The word counts that are accepted. -/
def Acceptable (m : IpcMessage) : Prop := m.wordCount ≠ 0 ∧ m.wordCount ≤ ipcMessageMaxWords

instance (m : IpcMessage) : Decidable m.Acceptable := inferInstanceAs (Decidable (_ ∧ _))

end IpcMessage

structure Endpoint where
  id : Nat
  ownerProcessId : Nat
  message : IpcMessage
  messageReady : Bool
  waitingReceiver : Option ThreadRef
  waitingReceiverId : Nat
  waitingSender : Option ThreadRef
  waitingSenderId : Nat
  waitingSenderMessage : IpcMessage
  waitingSenderMessageReady : Bool
  closed : Bool
  initialized : Bool
  capabilityRefs : Nat
  deriving DecidableEq

/-- `k_memset(endpoint, 0, sizeof(*endpoint))`. -/
def Endpoint.zero : Endpoint where
  id := 0
  ownerProcessId := 0
  message := .zero
  messageReady := false
  waitingReceiver := none
  waitingReceiverId := 0
  waitingSender := none
  waitingSenderId := 0
  waitingSenderMessage := .zero
  waitingSenderMessageReady := false
  closed := false
  initialized := false
  capabilityRefs := 0

/-- `ENDPOINT_STORAGE_CAPACITY`. -/
abbrev endpointStorageCapacity : Nat := 256

instance neZero_endpoints : NeZero endpointStorageCapacity := ⟨by decide⟩

/-- The endpoint objects and the static variables of `endpoint.c`. -/
structure EndpointState where
  endpoint : EndpointRef → Endpoint
  nextEndpointId : Nat
  initialized : Bool
  storage : Slots EndpointRef endpointStorageCapacity

namespace EndpointState

variable (s : EndpointState) (e : EndpointRef)

/-- `endpoint_live`. -/
abbrev EndpointLive : Prop := s.storage.Live e

/-- Store through an `Endpoint` pointer. -/
def modify (f : Endpoint → Endpoint) : EndpointState :=
  { s with endpoint := Function.update s.endpoint e (f (s.endpoint e)) }

/-- `endpoint_system_init`. -/
def endpointSystemInit : Bool × EndpointState :=
  if s.initialized then (false, s) else (true, { s with nextEndpointId := 1, initialized := true })

/-- `endpoint_create_locked`; `endpoint_create` passes owner zero. -/
def endpointCreate (ownerProcessId : Nat) : Bool × EndpointState :=
  if ¬ s.initialized ∨ s.nextEndpointId = 0 ∨ s.EndpointLive e then (false, s)
  else
    match s.storage.firstEmpty with
    | none => (false, s)
    | some slot =>
      (true, { s with
        endpoint := Function.update s.endpoint e { Endpoint.zero with
          id := s.nextEndpointId, ownerProcessId := ownerProcessId, initialized := true }
        nextEndpointId := succ64 s.nextEndpointId
        storage := s.storage.put slot e })

/-- `endpoint_destroy`. -/
def endpointDestroy : Bool × EndpointState :=
  let ep := s.endpoint e
  match s.storage.find e with
  | none => (false, s)
  | some slot =>
    if ¬ s.initialized ∨ ¬ ep.initialized ∨ ep.id = 0 then (false, s)
    else if ep.capabilityRefs ≠ 0 then (false, s)
    else if ep.messageReady then (false, s)
    else if ep.waitingReceiver ≠ none ∨ ep.waitingReceiverId ≠ 0 then (false, s)
    else if ep.waitingSender ≠ none ∨ ep.waitingSenderId ≠ 0 then (false, s)
    else if ep.waitingSenderMessageReady then (false, s)
    else
      (true, { s with
        storage := s.storage.clear slot
        endpoint := Function.update s.endpoint e Endpoint.zero })

/-- Live, initialised and with an identity, as every operation asks first. -/
def Usable : Prop :=
  s.initialized ∧ s.EndpointLive e ∧ (s.endpoint e).initialized ∧ (s.endpoint e).id ≠ 0

instance : Decidable (s.Usable e) := inferInstanceAs (Decidable (_ ∧ _))

/-- `endpoint_try_send`. -/
def endpointTrySend (message : IpcMessage) : Bool × EndpointState :=
  if ¬ s.Usable e ∨ (s.endpoint e).closed then (false, s)
  else if ¬ message.Acceptable then (false, s)
  else if (s.endpoint e).messageReady then (false, s)
  else (true, s.modify e ({ · with message := message.copied, messageReady := true }))

/-- `endpoint_try_receive`: the message, if there is one. -/
def endpointTryReceive : Option IpcMessage × EndpointState :=
  if ¬ s.Usable e ∨ (s.endpoint e).closed then (none, s)
  else if ¬ (s.endpoint e).messageReady then (none, s)
  else
    (some (s.endpoint e).message,
      s.modify e ({ · with message := .zero, messageReady := false }))

end EndpointState

end JcosKernel
