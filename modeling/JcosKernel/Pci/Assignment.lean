import JcosKernel.Ipc.Model

/-!
# JcosKernel.Pci.Assignment

`kernel/pci_assignment.c`: PCI functions that are assigned to processes, as the objects made out
of them see it (when an assignment is valid, whose it is, and the accesses to it), and what is read
of `kernel/process.c` there.

An assignment, a process and the other objects that hold a `DeviceResource`, a capability table
or an endpoint hold it inside, and no two objects overlap: the address of the part is a function
of the address of the whole (`assignmentResource`, `processTable`, ...).

An operation checks the assignment and its owner and then stores to the assignment; `ownerUpdate`
is that shape.
-/

namespace JcosKernel

open Lib

/-- `CAPABILITY_RIGHT_MANAGE`. -/
def capabilityRightManage : CapabilityRights := 1#64 <<< 4

/-! ### Processes -/

/-- `PROCESS_STORAGE_CAPACITY`. -/
abbrev processStorageCapacity : Nat := 128

structure Process where
  id : Nat
  kernel : Bool
  initialized : Bool
  deriving Repr, DecidableEq

/-- Address of `capabilities`. -/
def processTable (p : ProcessRef) : TableRef := p

/-! ### Assignments -/

structure PciAddress where
  device : Nat
  function : Nat
  deriving Repr, DecidableEq

structure PciDevice where
  address : PciAddress
  vendorId : Nat
  deriving Repr, DecidableEq

/-- Storage address of a `PciAssignment`. -/
abbrev AssignmentRef := Nat

/-- Address of `resource`. -/
def assignmentResource (a : AssignmentRef) : ResourceRef := 4 * a

/-- `PCI_ASSIGNMENT_STORAGE_CAPACITY`. -/
abbrev pciAssignmentStorageCapacity : Nat := 32
/-- `PCI_ASSIGNMENT_CHILD_RESOURCE_LIMIT`. -/
def pciAssignmentChildResourceLimit : Nat := 32
/-- `PCI_ASSIGNMENT_ACTIVE_ACCESS_LIMIT`. -/
def pciAssignmentActiveAccessLimit : Nat := 64

inductive PciAssignmentState
  | invalid
  | available
  | assigned
  | quiescing
  | quarantined
  deriving Repr, DecidableEq

/-- A `PciAssignment` but for its `resource`. -/
structure PciAssignment where
  device : PciDevice
  ownerProcessId : Nat
  childResourceCount : Nat
  activeAccessCount : Nat
  state : PciAssignmentState
  dmaGateActive : Bool
  busMasterExposed : Bool
  initialized : Bool
  deriving Repr, DecidableEq

/-- What `assignment_valid_locked` asks of the fields in each state. -/
def PciAssignment.StateOk (x : PciAssignment) : Prop :=
  (x.state = .available ∧ x.ownerProcessId = 0 ∧ x.childResourceCount = 0 ∧
      x.activeAccessCount = 0 ∧ ¬ x.dmaGateActive ∧ ¬ x.busMasterExposed) ∨
    (x.state = .assigned ∧ x.ownerProcessId ≠ 0) ∨
    (x.state = .quiescing ∧ x.ownerProcessId ≠ 0 ∧ ¬ x.dmaGateActive) ∨
    (x.state = .quarantined ∧ x.ownerProcessId ≠ 0)

instance (x : PciAssignment) : Decidable x.StateOk := inferInstanceAs (Decidable (_ ∨ _))

/-- The processes and the assignments next to the objects that capabilities name. -/
structure AssignState extends IpcState where
  process : ProcessRef → Process
  processes : Slots ProcessRef processStorageCapacity
  /-- Address of `g_kernel_process`. -/
  kernelProcess : ProcessRef
  /-- `g_initialized` of `process.c`. -/
  processesInitialized : Bool
  assignment : AssignmentRef → PciAssignment
  assignments : Slots AssignmentRef pciAssignmentStorageCapacity

namespace AssignState

variable (s : AssignState) (a : AssignmentRef) (p : ProcessRef) (owner : Nat)

/-- `process_storage_in_use`. -/
abbrev ProcessStorageInUse : Prop := s.processes.Live p

/-- `process_kernel`. -/
def processKernel : Option ProcessRef :=
  if ¬ s.processesInitialized ∨ ¬ (s.process s.kernelProcess).initialized then none
  else some s.kernelProcess

/-- `process_capabilities`. -/
def processCapabilities : Option TableRef :=
  if ¬ s.processesInitialized ∨ ¬ s.ProcessStorageInUse p ∨ ¬ (s.process p).initialized then none
  else some (processTable p)

/-- `capability_lookup_rights` of a device resource in the table of a process. -/
def lookupResource (handle : CapabilityHandle) (rights : CapabilityRights) : Option ResourceRef :=
  match s.processCapabilities p with
  | none => none
  | some caps => s.capabilityLookupRights caps handle .deviceResource rights

/-- Store through a `PciAssignment` pointer. -/
def modifyAssignment (f : PciAssignment → PciAssignment) : AssignState :=
  { s with assignment := Function.update s.assignment a (f (s.assignment a)) }

/-- `assignment_valid_locked`. -/
def AssignmentValid : Prop :=
  s.assignments.Live a ∧ (s.assignment a).initialized ∧ (s.assignment a).state ≠ .invalid ∧
    (s.assignment a).device.vendorId ≠ 0xFFFF ∧ (s.assignment a).device.address.device < 32 ∧
    (s.assignment a).device.address.function < 8 ∧
    s.resources.DeviceResourceValid (assignmentResource a) ∧
    (s.resources.resource (assignmentResource a)).kind = .pciFunction ∧
    (s.assignment a).childResourceCount ≤ pciAssignmentChildResourceLimit ∧
    (s.assignment a).activeAccessCount ≤ pciAssignmentActiveAccessLimit ∧
    (s.assignment a).StateOk

instance : Decidable (s.AssignmentValid a) := inferInstanceAs (Decidable (_ ∧ _))

/-- `pci_assignment_state`. -/
def pciAssignmentState : PciAssignmentState :=
  if s.AssignmentValid a then (s.assignment a).state else .invalid

/-- `pci_assignment_owner_process_id`. -/
def pciAssignmentOwnerProcessId : Nat :=
  if s.AssignmentValid a then (s.assignment a).ownerProcessId else 0

/-- The resource of a valid assignment has this identity: `pci_assignment_resource` followed by
the comparison of its `id`. -/
def AssignmentResourceIs (id : Nat) : Prop :=
  s.AssignmentValid a ∧ (s.resources.resource (assignmentResource a)).id = id

instance (id : Nat) : Decidable (s.AssignmentResourceIs a id) := inferInstanceAs (Decidable (_ ∧ _))

/-- `assignment_matches` of the subordinate objects: the assignment is the one that was recorded,
with the recorded owner. -/
def AssignmentMatches (id : Nat) : Prop :=
  s.AssignmentResourceIs a id ∧ s.pciAssignmentOwnerProcessId a = owner

instance (id : Nat) : Decidable (s.AssignmentMatches a owner id) :=
  inferInstanceAs (Decidable (_ ∧ _))

/-- Check the assignment, its owner and `allowed`, then store. -/
def ownerUpdate (allowed : Prop) [Decidable allowed] (f : PciAssignment → PciAssignment) :
    Bool × AssignState :=
  if owner ≠ 0 ∧ s.AssignmentValid a ∧ (s.assignment a).ownerProcessId = owner ∧ allowed then
    (true, s.modifyAssignment a f)
  else (false, s)

/-- `pci_assignment_access_acquire`. -/
def pciAssignmentAccessAcquire : Bool × AssignState :=
  s.ownerUpdate a owner
    ((s.assignment a).state = .assigned ∧
      (s.assignment a).activeAccessCount < pciAssignmentActiveAccessLimit)
    fun x => { x with activeAccessCount := x.activeAccessCount + 1 }

/-- `pci_assignment_access_release`. -/
def pciAssignmentAccessRelease : Bool × AssignState :=
  s.ownerUpdate a owner
    ((s.assignment a).state ≠ .available ∧ (s.assignment a).activeAccessCount ≠ 0)
    fun x => { x with activeAccessCount := x.activeAccessCount - 1 }

end AssignState

end JcosKernel
