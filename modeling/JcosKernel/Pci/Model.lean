import JcosKernel.Pci.Assignment

/-!
# JcosKernel.Pci.Model

The state of the interrupts of assigned PCI functions (`pci_irq_resource.c`). The functions of
that file are in `JcosKernel.Pci.Irq`.
-/

namespace JcosKernel

open Lib

/-- Add one unless the counter is full: `increment_u64`. -/
def increment64 (n : Nat) : Nat := if n = 2 ^ 64 - 1 then n else n + 1

/-! ### Interrupts -/

/-- Storage address of a `PciIrqResource`. -/
abbrev IrqRef := Nat

/-- Address of `resource`. -/
def irqResource (q : IrqRef) : ResourceRef := 4 * q + 3

/-- Address of `event_endpoint`. -/
def irqEndpoint (q : IrqRef) : EndpointRef := q

/-- `PCI_IRQ_RESOURCE_STORAGE_CAPACITY`. -/
abbrev pciIrqResourceStorageCapacity : Nat := 32
/-- `PCI_IRQ_STORM_THRESHOLD`. -/
def pciIrqStormThreshold : Nat := 8
/-- `PCI_IRQ_RESOURCE_OWNER_RIGHTS`. -/
def pciIrqResourceOwnerRights : CapabilityRights := capabilityRightManage

inductive PciIrqState
  | invalid
  | disarmed
  | armed
  | pending
  | stormed
  deriving Repr, DecidableEq

/-- A `PciIrqResource` but for its `resource` and its `event_endpoint`. -/
structure PciIrqResource where
  assignment : Option AssignmentRef
  assignmentResourceId : Nat
  ownerProcessId : Nat
  kernelSendHandle : CapabilityHandle
  nextSequence : Nat
  pendingSequence : Nat
  deliveredCount : Nat
  acknowledgedCount : Nat
  suppressedCount : Nat
  recoveryCount : Nat
  suppressedSinceAck : Nat
  state : PciIrqState
  assignmentAccessHeld : Bool
  deliveryMasked : Bool
  initialized : Bool
  deriving Repr, DecidableEq

def PciIrqResource.zero : PciIrqResource :=
  ⟨none, 0, 0, 0, 0, 0, 0, 0, 0, 0, 0, .invalid, false, false, false⟩

/-! ### The state -/

structure PciState extends AssignState where
  irq : IrqRef → PciIrqResource
  irqs : Slots IrqRef pciIrqResourceStorageCapacity

namespace PciState

variable (s : PciState)

def withAssign (k : AssignState) : PciState := { s with toAssignState := k }

def withIpc (k : IpcState) : PciState :=
  { s with toAssignState := { s.toAssignState with toIpcState := k } }

/-- An operation of `pci_assignment.c` on the assignment behind a pointer. -/
def onAssignment (f : AssignState → AssignmentRef → Bool × AssignState) :
    Option AssignmentRef → Bool × PciState
  | none => (false, s)
  | some a => ((f s.toAssignState a).1, s.withAssign (f s.toAssignState a).2)

/-- `pci_assignment_state` of the assignment behind a pointer. -/
def assignmentStateOf : Option AssignmentRef → PciAssignmentState
  | none => .invalid
  | some a => s.pciAssignmentState a

/-- `assignment_matches` for the assignment behind a pointer. -/
def MatchesAssignment (owner id : Nat) : Option AssignmentRef → Prop
  | none => False
  | some a => s.AssignmentMatches a owner id

instance (owner id : Nat) : ∀ a, Decidable (s.MatchesAssignment owner id a)
  | none => inferInstanceAs (Decidable False)
  | some a => inferInstanceAs (Decidable (s.AssignmentMatches a owner id))

end PciState

end JcosKernel
