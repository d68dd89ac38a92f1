import JcosKernel.Vmm.Model

/-!
# JcosKernel.Space.Model

The address spaces of `kernel/address_space.c` over the page tables of `vmm.c`.

The page map of an `AddressSpace` is one of the maps of a `VmState`, at an address that says
whose map it is (`MapRef`); the other fields are kept beside it (`SpaceInfo`). Interrupt masking
is left out: every call runs to its end.
-/

namespace JcosKernel

open Lib Function

/-- Where a page map lives. -/
inductive MapRef
  /-- `page_map` of an `AddressSpace`. -/
  | space (a : SpaceRef)
  /-- `g_unpublished_map`. -/
  | unpublished
  deriving Repr, DecidableEq

/-- An `AddressSpace` without its page map. -/
structure SpaceInfo where
  id : Nat
  kernel : Bool
  capabilityRefs : Nat
  deriving Repr, DecidableEq

inductive SpaceCreateTestFault
  | allocate
  | afterRoot
  | afterShare
  deriving Repr, DecidableEq

/-- `g_create_fault`, when it is armed. -/
structure SpaceCreateFault where
  target : SpaceRef
  fault : SpaceCreateTestFault
  failRollback : Bool
  deriving Repr, DecidableEq

/-- The frame allocator with the hooks of `pmm_test.h` for single frames. -/
structure FramePool (σ : Type) extends Allocator Nat σ where
  /-- `pmm_test_free_failure_armed`. -/
  freeFailureArmed : σ → Bool
  /-- `pmm_test_fail_free_range_once`. -/
  failFreeOnce : Nat → σ → σ
  failFreeOnce_allocated : ∀ frame s, allocated (failFreeOnce frame s) = allocated s

/-- The page tables and the static variables of `address_space.c`. -/
structure SpaceVm (σ : Type) where
  vm : VmState MapRef σ
  space : SpaceRef → SpaceInfo
  /-- Address of `g_kernel_space`. -/
  kernelSpace : SpaceRef
  kernelReady : Bool
  nextId : Nat
  storage : Slots SpaceRef addressSpaceStorageCapacity
  createFault : Option SpaceCreateFault

/-- `USER_PML4_FIRST`. -/
def userPml4First : Nat := 1

/-- `USER_PML4_END`, which is `KERNEL_HIGH_PML4_FIRST` as well. -/
def userPml4End : Nat := 256

/-- `ADDRESS_SPACE_USER_BASE`. -/
def addressSpaceUserBase : Nat := 0x0000008000000000

/-- `ADDRESS_SPACE_USER_LIMIT`. -/
def addressSpaceUserLimit : Nat := 0x0000800000000000

/-- `user_virtual_address`. -/
def UserVirtualAddress (address : Nat) : Prop :=
  addressSpaceUserBase ≤ address ∧ address < addressSpaceUserLimit

instance (address : Nat) : Decidable (UserVirtualAddress address) :=
  inferInstanceAs (Decidable (_ ∧ _))

/-- The flags with which a page of a user address space is mapped; `none` if both WRITE and EXEC
are asked for. -/
def userMapFlags (flags : VmFlags) : Option VmFlags :=
  if Has flags vmWrite ∧ Has flags vmExec then none else some (flags ||| vmUser)

namespace SpaceVm

variable {σ : Type} (P : FramePool σ) (cpu : Cpu) (s : SpaceVm σ) (a : SpaceRef)

/-- `space_storage_live`. -/
abbrev SpaceStorageLive : Prop := s.storage.Live a

/-- The map of the kernel's address space. -/
abbrev kernelMap : MapRef := .space s.kernelSpace

/-- `space_create_fault`. -/
def spaceCreateFault (fault : SpaceCreateTestFault) : Bool × SpaceVm σ :=
  match s.createFault with
  | none => (false, s)
  | some f =>
    if f.target ≠ a ∨ f.fault ≠ fault then (false, s)
    else
      let s := { s with createFault := none }
      match f.failRollback, (s.vm.map .unpublished).rootFrame with
      | true, some root => (true, { s with vm := { s.vm with pmm := P.failFreeOnce root s.vm.pmm } })
      | _, _ => (true, s)

/-- `address_space_test_fail_create_once`. -/
def addressSpaceTestFailCreateOnce (fault : SpaceCreateTestFault) (failRollback : Bool) :
    Bool × SpaceVm σ :=
  if fault = .allocate ∧ failRollback then (false, s)
  else if s.createFault ≠ none ∨ s.SpaceStorageLive a ∨ (s.vm.map .unpublished).rootFrame ≠ none ∨
      P.freeFailureArmed s.vm.pmm then (false, s)
  else (true, { s with createFault := some ⟨a, fault, failRollback⟩ })

/-- `address_space_reclaim_unpublished`. -/
def addressSpaceReclaimUnpublished : Bool × SpaceVm σ :=
  if (s.vm.map .unpublished).rootFrame = none then (true, s)
  else
    match s.vm.vmmPageMapDestroy P.toAllocator cpu .unpublished with
    | (result, vm) => (result, { s with vm := vm })

/-- `address_space_kernel_init`. -/
def addressSpaceKernelInit : Bool × SpaceVm σ :=
  if s.kernelReady then (false, s)
  else
    let info := { s.space s.kernelSpace with id := 0, kernel := true }
    let s := { s with space := update s.space s.kernelSpace info }
    match s.vm.vmmPageMapCreateOwnedRange P.toAllocator cpu s.kernelMap 0 pageTableEntries with
    | (false, vm) => (false, { s with vm := vm })
    | (true, vm) =>
      (true, { s with
        vm := vm
        nextId := 1
        storage := s.storage.put ⟨0, addressSpaceStorageCapacity_pos⟩ s.kernelSpace
        kernelReady := true })

/-- One turn of the sharing in `address_space_create_locked`. -/
def shareKernelEntry (kernelMap : MapRef) (index : TableIndex) (vm : VmState MapRef σ) :
    Bool × VmState MapRef σ :=
  vm.vmmPageMapSharePml4Entry cpu .unpublished kernelMap index

/-- The part of `address_space_create_locked` that builds the unpublished map. -/
def buildUnpublished : Bool × SpaceVm σ :=
  match s.vm.vmmPageMapCreateOwnedRange P.toAllocator cpu .unpublished userPml4First userPml4End with
  | (false, vm) => (false, { s with vm := vm })
  | (true, vm) =>
    match { s with vm := vm }.spaceCreateFault P a .afterRoot with
    | (true, s) => (false, s)
    | (false, s) =>
      match shareKernelEntry cpu s.kernelMap 0 s.vm with
      | (false, vm) => (false, { s with vm := vm })
      | (true, vm) =>
        match { s with vm := vm }.spaceCreateFault P a .afterShare with
        | (true, s) => (false, s)
        | (false, s) =>
          match each (shareKernelEntry cpu s.kernelMap) (indexRange userPml4End pageTableEntries)
            s.vm with
          | (result, vm) => (result, { s with vm := vm })

/-- The end of `address_space_create_locked`: the unpublished map moves into the address space. -/
def publish (slot : Fin addressSpaceStorageCapacity) : SpaceVm σ :=
  { s with
    vm := (s.vm.setMap (.space a) (s.vm.map .unpublished)).setMap .unpublished .invalid
    space := update s.space a { s.space a with id := s.nextId }
    nextId := succ64 s.nextId
    storage := s.storage.put slot a }

/-- The storage that `address_space_create_locked` is given is wiped first. -/
def wipe : SpaceVm σ :=
  { s with
    vm := s.vm.setMap (.space a) .invalid
    space := update s.space a ⟨0, false, 0⟩ }

/-- `address_space_create`. -/
def addressSpaceCreate : Bool × SpaceVm σ :=
  if s.SpaceStorageLive a then (false, s)
  else
    let s := s.wipe a
    if ¬ s.kernelReady ∨ s.nextId = 0 ∨ (s.vm.map .unpublished).rootFrame ≠ none then (false, s)
    else
      match s.storage.firstEmpty with
      | none => (false, s)
      | some slot =>
        match s.spaceCreateFault P a .allocate with
        | (true, s) => (false, s)
        | (false, s) =>
          match s.buildUnpublished P cpu a with
          | (false, s) => (false, (s.addressSpaceReclaimUnpublished P cpu).2)
          | (true, s) => (true, s.publish a slot)

/-- `address_space_destroy`. -/
def addressSpaceDestroy : Bool × SpaceVm σ :=
  match s.storage.find a with
  | none => (false, s)
  | some slot =>
    if a = s.kernelSpace ∨ (s.space a).kernel ∨ (s.space a).capabilityRefs ≠ 0 then (false, s)
    else
      match s.vm.vmmPageMapDestroy P.toAllocator cpu (.space a) with
      | (false, vm) => (false, { s with vm := vm })
      | (true, vm) =>
        (true, { s with
          vm := vm
          space := update s.space a { s.space a with id := 0 }
          storage := s.storage.clear slot })

/-- `address_space_map_page`. -/
def addressSpaceMapPage (address frame : Nat) (flags : VmFlags) : Bool × SpaceVm σ :=
  if ¬ s.SpaceStorageLive a then (false, s)
  else
    match if (s.space a).kernel then some flags
      else if ¬ UserVirtualAddress address then none else userMapFlags flags with
    | none => (false, s)
    | some flags =>
      match s.vm.vmmMapPage P.toAllocator cpu (.space a) address frame flags with
      | (result, vm) => (result, { s with vm := vm })

/-- `address_space_unmap_page`. -/
def addressSpaceUnmapPage (address : Nat) : Option Nat × SpaceVm σ :=
  if ¬ s.SpaceStorageLive a then (none, s)
  else if ¬ (s.space a).kernel ∧ ¬ UserVirtualAddress address then (none, s)
  else
    match s.vm.vmmUnmapPage P.toAllocator cpu (.space a) address with
    | (result, vm) => (result, { s with vm := vm })

/-- `address_space_query_page`. -/
def addressSpaceQueryPage (address : Nat) : Option (Nat × VmFlags) :=
  if ¬ s.SpaceStorageLive a then none else s.vm.vmmQueryPage (.space a) address

/-- `vmm_set_writable` on the page map of an address space. -/
def setWritable (address expected : Nat) (expectedFlags : VmFlags) (writable : Bool) :
    Bool × SpaceVm σ :=
  match s.vm.vmmSetWritable cpu (.space a) address expected expectedFlags writable with
  | (result, vm) => (result, { s with vm := vm })

end SpaceVm

end JcosKernel
