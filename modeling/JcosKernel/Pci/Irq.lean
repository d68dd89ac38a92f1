import JcosKernel.Pci.Model
import Mathlib.Data.Fin.VecNotation

/-!
# JcosKernel.Pci.Irq

`kernel/pci_irq_resource.c`: interrupts of assigned PCI functions, and the events by which their
owners hear of them.

An event is a message in the `event_endpoint` of the resource. The sequence number that it
carries stays `pending` until the owner acknowledges it, and signals that arrive in between are
only counted.
-/

namespace JcosKernel

open Lib

/-- `JCOS_PCI_IRQ_EVENT_MAGIC`. -/
def pciIrqEventMagic : Nat := 0x5043494952510001

/-- The message of `pci_irq_resource_signal`. -/
def pciIrqEvent (resourceId sequence suppressed : Nat) : IpcMessage :=
  ⟨![pciIrqEventMagic, resourceId, sequence, suppressed], 4⟩

/-- What `irq_valid_locked` asks of the fields in each state. -/
def PciIrqResource.StateOk (x : PciIrqResource) : Prop :=
  match x.state with
  | .invalid => False
  | .disarmed => ¬ x.assignmentAccessHeld ∧ x.deliveryMasked ∧ x.pendingSequence = 0
  | .armed => x.assignmentAccessHeld ∧ ¬ x.deliveryMasked ∧ x.pendingSequence = 0
  | .pending => x.assignmentAccessHeld ∧ x.deliveryMasked ∧ x.pendingSequence ≠ 0
  | .stormed => x.assignmentAccessHeld ∧ x.deliveryMasked

instance (x : PciIrqResource) : Decidable x.StateOk :=
  match h : x.state with
  | .invalid => decidable_of_iff False (by rw [PciIrqResource.StateOk, h])
  | .disarmed => decidable_of_iff
      (¬ x.assignmentAccessHeld ∧ x.deliveryMasked ∧ x.pendingSequence = 0)
      (by rw [PciIrqResource.StateOk, h])
  | .armed => decidable_of_iff
      (x.assignmentAccessHeld ∧ ¬ x.deliveryMasked ∧ x.pendingSequence = 0)
      (by rw [PciIrqResource.StateOk, h])
  | .pending => decidable_of_iff
      (x.assignmentAccessHeld ∧ x.deliveryMasked ∧ x.pendingSequence ≠ 0)
      (by rw [PciIrqResource.StateOk, h])
  | .stormed => decidable_of_iff (x.assignmentAccessHeld ∧ x.deliveryMasked)
      (by rw [PciIrqResource.StateOk, h])

/-- A signal that is not delivered. -/
def PciIrqResource.suppress (x : PciIrqResource) : PciIrqResource :=
  let since := if x.suppressedSinceAck = 0xFFFFFFFF then x.suppressedSinceAck
    else x.suppressedSinceAck + 1
  { x with
    suppressedCount := increment64 x.suppressedCount
    suppressedSinceAck := since
    state := if pciIrqStormThreshold ≤ since then .stormed else x.state
    deliveryMasked := true }

/-- The record is disarmed, but for the access that it still holds. -/
def PciIrqResource.disarm (x : PciIrqResource) : PciIrqResource :=
  { x with
    pendingSequence := 0, suppressedSinceAck := 0, deliveryMasked := true, state := .disarmed }

/-- The pending event is acknowledged. -/
def PciIrqResource.acknowledge (x : PciIrqResource) : PciIrqResource :=
  let x := { x with
    pendingSequence := 0, acknowledgedCount := increment64 x.acknowledgedCount }
  if x.state = .pending then
    { x with state := .armed, deliveryMasked := false, suppressedSinceAck := 0 }
  else x

namespace PciState

variable (s : PciState) (q : IrqRef) (p : ProcessRef) (handle : CapabilityHandle)

/-- Store through a `PciIrqResource` pointer. -/
def modifyIrq (f : PciIrqResource → PciIrqResource) : PciState :=
  { s with irq := Function.update s.irq q (f (s.irq q)) }

/-- `irq_valid_locked`. -/
def IrqValid : Prop :=
  s.irqs.Live q ∧ (s.irq q).initialized ∧ (s.irq q).ownerProcessId ≠ 0 ∧
    s.MatchesAssignment (s.irq q).ownerProcessId (s.irq q).assignmentResourceId
      (s.irq q).assignment ∧
    s.resources.DeviceResourceValid (irqResource q) ∧
    (s.resources.resource (irqResource q)).kind = .pciIrq ∧
    s.IpcEndpointValid (irqEndpoint q) ∧
    (s.endpoints.endpoint (irqEndpoint q)).ownerProcessId = (s.irq q).ownerProcessId ∧
    (s.irq q).kernelSendHandle ≠ 0 ∧ (s.irq q).StateOk

instance : Decidable (s.IrqValid q) := inferInstanceAs (Decidable (_ ∧ _))

/-- `owner_authorized_locked`. -/
def IrqAuthorized : Prop :=
  handle ≠ 0 ∧ s.IrqValid q ∧ s.ProcessStorageInUse p ∧ (s.process p).initialized ∧
    ¬ (s.process p).kernel ∧ (s.process p).id = (s.irq q).ownerProcessId ∧
    s.assignmentStateOf (s.irq q).assignment = .assigned ∧
    s.lookupResource p handle pciIrqResourceOwnerRights = some (irqResource q)

instance : Decidable (s.IrqAuthorized q p handle) := inferInstanceAs (Decidable (_ ∧ _))

/-! ### Arming and disarming -/

/-- `pci_irq_resource_arm`. -/
def pciIrqResourceArm : Bool × PciState :=
  if ¬ s.IrqAuthorized q p handle ∨ (s.irq q).state ≠ .disarmed ∨
      (s.irq q).assignmentAccessHeld then (false, s)
  else
    match s.onAssignment (·.pciAssignmentAccessAcquire · (s.irq q).ownerProcessId)
        (s.irq q).assignment with
    | (false, s) => (false, s)
    | (true, s) =>
      (true, s.modifyIrq q ({ · with
        assignmentAccessHeld := true, deliveryMasked := false, suppressedSinceAck := 0,
        state := .armed }))

/-- `force_disarm_locked`: the event that nobody has received is thrown away. -/
def discardEvent : Option PciState :=
  if s.endpoints.EndpointMessageReady (irqEndpoint q) then
    match s.endpoints.endpointTryReceive (irqEndpoint q) with
    | (none, _) => none
    | (some _, es) => some (s.withIpc (s.toIpcState.withEndpoints es))
  else some s

/-- `force_disarm_locked`. -/
def forceDisarmLocked (owner : Nat) : Option (Bool × PciState) :=
  if ¬ s.IrqValid q ∨ (s.irq q).ownerProcessId ≠ owner then some (false, s)
  else if (s.irq q).state = .disarmed then some (true, s)
  else
    (s.discardEvent q).bind fun s =>
      let s := s.modifyIrq q (·.disarm)
      if ¬ (s.irq q).assignmentAccessHeld then none
      else
        match s.onAssignment (·.pciAssignmentAccessRelease · owner) (s.irq q).assignment with
        | (false, _) => none
        | (true, s) => some (true, s.modifyIrq q ({ · with assignmentAccessHeld := false }))

/-- `pci_irq_resource_force_disarm`. -/
def pciIrqResourceForceDisarm (owner : Nat) : Option (Bool × PciState) :=
  if owner = 0 then some (false, s) else s.forceDisarmLocked q owner

/-- `pci_irq_resource_disarm`. -/
def pciIrqResourceDisarm : Option (Bool × PciState) :=
  if s.IrqAuthorized q p handle then s.forceDisarmLocked q (s.irq q).ownerProcessId
  else some (false, s)

/-! ### Events -/

/-- `ipc.c` finds the capability tables of the processes that are registered. -/
def ipcEnv (env : IpcEnv) : IpcEnv := { env with capabilities := s.processCapabilities }

/-- The send of `pci_irq_resource_signal` has failed. -/
def signalFailed : Bool × List Accepted × PciState :=
  (false, [], s.modifyIrq q ({ · with pendingSequence := 0, state := .stormed }))

/-- `pci_irq_resource_signal` with the sequence number it has taken. -/
def sendEvent (env : IpcEnv) (sequence : Nat) : Option (Bool × List Accepted × PciState) :=
  let s := s.modifyIrq q ({ · with
    nextSequence := succ64 sequence, pendingSequence := sequence, deliveryMasked := true,
    state := .pending })
  match s.processKernel with
  | none => some (s.signalFailed q)
  | some kernel =>
    match s.ipcTrySend (s.ipcEnv env) kernel (s.irq q).kernelSendHandle
        (pciIrqEvent (s.resources.resource (irqResource q)).id sequence
          (s.irq q).suppressedCount) with
    | none => none
    | some ⟨false, _, k⟩ => some ((s.withIpc k).signalFailed q)
    | some ⟨true, accepted, k⟩ =>
      some (true, accepted, (s.withIpc k).modifyIrq q fun x =>
        { x with deliveredCount := increment64 x.deliveredCount })

/-- `pci_irq_resource_signal`: its result, and the message that it put into the endpoint. -/
def pciIrqResourceSignal (env : IpcEnv) : Option (Bool × List Accepted × PciState) :=
  if ¬ s.IrqValid q ∨ s.assignmentStateOf (s.irq q).assignment ≠ .assigned then some (false, [], s)
  else if (s.irq q).state = .pending ∨ (s.irq q).state = .stormed then
    some (false, [], s.modifyIrq q (·.suppress))
  else if (s.irq q).state ≠ .armed ∨ (s.irq q).deliveryMasked ∨ (s.irq q).pendingSequence ≠ 0 then
    some (false, [], s)
  else if (s.irq q).nextSequence = 0 then some (false, [], s)
  else s.sendEvent q env (s.irq q).nextSequence

/-- `pci_irq_resource_acknowledge`. -/
def pciIrqResourceAcknowledge (sequence : Nat) : Bool × PciState :=
  if sequence = 0 then (false, s)
  else if s.IrqAuthorized q p handle ∧
      ((s.irq q).state = .pending ∨ (s.irq q).state = .stormed) ∧
      (s.irq q).pendingSequence = sequence ∧ ¬ s.endpoints.EndpointMessageReady (irqEndpoint q) then
    (true, s.modifyIrq q (·.acknowledge))
  else (false, s)

/-- `pci_irq_resource_recover_storm`. -/
def pciIrqResourceRecoverStorm : Bool × PciState :=
  if s.IrqAuthorized q p handle ∧ (s.irq q).state = .stormed ∧ (s.irq q).pendingSequence = 0 ∧
      ¬ s.endpoints.EndpointMessageReady (irqEndpoint q) then
    (true, s.modifyIrq q fun x => { x with
      suppressedSinceAck := 0, deliveryMasked := false, state := .armed,
      recoveryCount := increment64 x.recoveryCount })
  else (false, s)

end PciState

end JcosKernel
