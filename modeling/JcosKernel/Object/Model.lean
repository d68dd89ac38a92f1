import JcosKernel.Scheduler.Model
import JcosKernel.Endpoint.Model

/-!
# JcosKernel.Object.Model

The other kernel objects that capabilities can name, and their creation and
destruction: device resources (`device_resource.c`), address spaces
(`address_space.c`) and threads (`thread.c`).

Whether the resources an object needs can be had is decided elsewhere: the page map
by `vmm.c`, the kernel stack by `pmm.c` and `kernel_stack.c`, the process link by
`process.c`. Those outcomes are parameters of `addressSpaceCreate`,
`addressSpaceDestroy`, `threadCreate` and `threadDestroy`.
-/

namespace JcosKernel

open Lib Function

/-! ### Device resources -/

/-- Storage address of a `DeviceResource`. -/
abbrev ResourceRef := Nat

inductive DeviceResourceKind
  | none
  | display
  | audio
  | pciFunction
  | pciMmioBar
  | pciIoBar
  | pciIrq
  | pciDmaBuffer
  | registerReader
  deriving Repr, DecidableEq

structure DeviceResource where
  id : Nat
  capabilityRefs : Nat
  kind : DeviceResourceKind
  initialized : Bool
  deriving Repr, DecidableEq

def DeviceResource.zero : DeviceResource := ⟨0, 0, .none, false⟩

/-- `DEVICE_RESOURCE_STORAGE_CAPACITY`. -/
abbrev deviceResourceStorageCapacity : Nat := 64

structure ResourceState where
  resource : ResourceRef → DeviceResource
  nextId : Nat
  storage : Slots ResourceRef deviceResourceStorageCapacity

namespace ResourceState

variable (s : ResourceState) (r : ResourceRef)

/-- Store through a `DeviceResource` pointer. -/
def modify (f : DeviceResource → DeviceResource) : ResourceState :=
  { s with resource := update s.resource r (f (s.resource r)) }

/-- `device_resource_valid`. -/
def DeviceResourceValid : Prop :=
  (s.resource r).initialized ∧ (s.resource r).id ≠ 0 ∧ (s.resource r).kind ≠ .none ∧
    s.storage.Live r

instance : Decidable (s.DeviceResourceValid r) := inferInstanceAs (Decidable (_ ∧ _))

/-- `device_resource_create`. -/
def deviceResourceCreate (kind : DeviceResourceKind) : Bool × ResourceState :=
  if kind = .none then (false, s)
  else
    match s.storage.firstEmpty with
    | none => (false, s)
    | some slot =>
      if s.storage.Live r ∨ s.nextId = 0 then (false, s)
      else
        (true, { s with
          resource := update s.resource r ⟨s.nextId, 0, kind, true⟩
          nextId := succ64 s.nextId
          storage := s.storage.put slot r })

/-- `device_resource_destroy`. -/
def deviceResourceDestroy : Bool × ResourceState :=
  match s.storage.find r with
  | none => (false, s)
  | some slot =>
    if ¬ (s.resource r).initialized ∨ (s.resource r).id = 0 ∨ (s.resource r).capabilityRefs ≠ 0 then
      (false, s)
    else
      (true, { s with
        storage := s.storage.clear slot
        resource := update s.resource r DeviceResource.zero })

end ResourceState

/-! ### Address spaces -/

/-- Storage address of an `AddressSpace`. -/
abbrev SpaceRef := Nat

structure VmPageMap where
  /-- Frame number of the root table; `none` is `FRAME_INVALID`. -/
  rootFrame : Option Nat
  ownedPml4First : Nat
  ownedPml4End : Nat
  destroyPending : Bool
  sharedSource : Bool
  deriving Repr, DecidableEq

/-- A zeroed map whose root is `FRAME_INVALID`. -/
def VmPageMap.invalid : VmPageMap := ⟨none, 0, 0, false, false⟩

structure AddressSpace where
  id : Nat
  pageMap : VmPageMap
  kernel : Bool
  capabilityRefs : Nat
  deriving Repr, DecidableEq

/-- `ADDRESS_SPACE_STORAGE_CAPACITY`. -/
abbrev addressSpaceStorageCapacity : Nat := 256

theorem addressSpaceStorageCapacity_pos : 0 < addressSpaceStorageCapacity := by decide

structure SpaceState where
  space : SpaceRef → AddressSpace
  /-- Address of `g_kernel_space`. -/
  kernelSpace : SpaceRef
  kernelReady : Bool
  nextId : Nat
  storage : Slots SpaceRef addressSpaceStorageCapacity
  unpublishedMap : VmPageMap

namespace SpaceState

variable (s : SpaceState) (a : SpaceRef)

/-- `space_storage_live`. -/
abbrev SpaceStorageLive : Prop := s.storage.Live a

/-- Store through an `AddressSpace` pointer. -/
def modify (f : AddressSpace → AddressSpace) : SpaceState :=
  { s with space := update s.space a (f (s.space a)) }

/-- `address_space_cr3`. -/
def addressSpaceCr3 : Nat :=
  if ¬ s.SpaceStorageLive a ∨ (s.space a).pageMap.destroyPending then 0
  else
    match (s.space a).pageMap.rootFrame with
    | none => 0
    | some frame => if 2 ^ 64 - 1 < frame * 4096 then 0 else frame * 4096

/-- `address_space_kernel_init`; `map` is the page map that `vmm_page_map_create`
builds, if it succeeds. -/
def addressSpaceKernelInit (map : Option VmPageMap) : Bool × SpaceState :=
  if s.kernelReady then (false, s)
  else
    let space := { s.space s.kernelSpace with id := 0, kernel := true }
    let s := { s with space := update s.space s.kernelSpace space }
    match map with
    | none => (false, s)
    | some map =>
      (true, { s with
        space := update s.space s.kernelSpace { space with pageMap := map }
        nextId := 1
        storage := s.storage.put ⟨0, addressSpaceStorageCapacity_pos⟩ s.kernelSpace
        kernelReady := true })

/-- `address_space_create`. `built` is what the VMM calls leave in the unpublished
map: the finished map, or after a failure what could not be released again. -/
def addressSpaceCreate (built : Except VmPageMap VmPageMap) : Bool × SpaceState :=
  if s.SpaceStorageLive a then (false, s)
  else
    let s := { s with space := update s.space a ⟨0, .invalid, false, 0⟩ }
    if ¬ s.kernelReady ∨ s.nextId = 0 ∨ s.unpublishedMap.rootFrame ≠ none then (false, s)
    else
      match s.storage.firstEmpty with
      | none => (false, s)
      | some slot =>
        match built with
        | .error left => (false, { s with unpublishedMap := left })
        | .ok map =>
          (true, { s with
            space := update s.space a ⟨s.nextId, map, false, 0⟩
            nextId := succ64 s.nextId
            storage := s.storage.put slot a
            unpublishedMap := .invalid })

/-- `address_space_destroy`. `destroyed` is what `vmm_page_map_destroy` returns and
leaves of the page map. -/
def addressSpaceDestroy (destroyed : Bool × VmPageMap) : Bool × SpaceState :=
  match s.storage.find a with
  | none => (false, s)
  | some slot =>
    if a = s.kernelSpace ∨ (s.space a).kernel ∨ (s.space a).capabilityRefs ≠ 0 then (false, s)
    else
      match destroyed with
      | (false, map) =>
        (false, { s with space := update s.space a { s.space a with pageMap := map } })
      | (true, map) =>
        (true, { s with
          space := update s.space a { s.space a with pageMap := map, id := 0 }
          storage := s.storage.clear slot })

end SpaceState

/-! ### Threads -/

namespace ThreadState

variable (s : ThreadState) (t : ThreadRef)

/-- `thread_system_init`. `admitted` says that the kernel process, its address space and
the stack arena can be used, `attached` is what `process_thread_attach` returns. -/
def threadSystemInit (bootstrapThread : ThreadRef) (kernelProcess : ProcessRef)
    (stackBase stackSize stackTop : Nat) (admitted attached : Bool) : Bool × ThreadState :=
  if s.initialized ∨ stackBase = 0 ∨ stackSize = 0 ∨ stackTop = 0 ∨ ¬ admitted then (false, s)
  else if 2 ^ 64 - 1 - stackSize < stackBase then (false, s)
  else
    let top := stackTop / 16 * 16
    if top ≤ stackBase ∨ stackBase + stackSize < top then (false, s)
    else if ¬ attached then
      (false, { s with thread := update s.thread bootstrapThread Thread.zero })
    else
      (true, { s with
        thread := update s.thread bootstrapThread { Thread.zero with
          id := 1, process := some kernelProcess, state := .running,
          kernelStackPhysical := stackBase, kernelStackBase := stackBase,
          kernelStackTop := top, kernelStackSize := top - stackBase }
        storage := s.storage.put ⟨0, by decide⟩ bootstrapThread
        currentThread := some bootstrapThread
        nextThreadId := 2
        initialized := true })

/-- What `thread_create` finds out elsewhere. `left` is the physical and the virtual
address of a stack that could not be released after a failure, zero where it could. -/
inductive StackOutcome
  /-- A check or the allocation failed before anything was owned. -/
  | refused
  /-- The stack could not be reached or mapped. -/
  | failed (left : Nat × Nat)
  /-- The stack is mapped; `attached` is what `process_thread_attach` returns. -/
  | mapped (physical virtualBase : Nat) (attached : Bool) (left : Nat × Nat)

/-- The failure path of `thread_create`. -/
def createFailed (left : Nat × Nat) : Bool × ThreadState :=
  (false, { s with unpublishedStack := left.1, unpublishedStackVirtual := left.2 })

/-- `thread_create`. -/
def threadCreate (process : ProcessRef) (stack : StackOutcome) : Bool × ThreadState :=
  if s.threadStorageLive t then (false, s)
  else
    let s := { s with thread := update s.thread t Thread.zero }
    if ¬ s.initialized ∨ s.nextThreadId = 0 ∨ s.unpublishedStack ≠ 0 ∨
        s.unpublishedStackVirtual ≠ 0 then (false, s)
    else
      match s.storage.firstEmpty with
      | none => (false, s)
      | some slot =>
        match stack with
        | .refused => (false, s)
        | .failed left => s.createFailed left
        | .mapped physical virtualBase attached left =>
          if 2 ^ 64 - 1 - threadKernelStackSize < virtualBase then s.createFailed left
          else
            let top := virtualBase + threadKernelStackSize
            if top % 16 ≠ 0 ∨ ¬ attached then s.createFailed left
            else
              (true, { s with
                thread := update s.thread t { Thread.zero with
                  id := s.nextThreadId, process := some process, state := .ready,
                  kernelStackPhysical := physical, kernelStackBase := virtualBase,
                  kernelStackTop := top, kernelStackSize := threadKernelStackSize,
                  ownsKernelStack := true }
                storage := s.storage.put slot t
                unpublishedStack := 0
                unpublishedStackVirtual := 0
                nextThreadId := succ64 s.nextThreadId })

/-- `thread_destroy`. `released` says whether the process link can be removed and the
kernel stack released. -/
def threadDestroy (released : Bool) : Bool × ThreadState :=
  let th := s.thread t
  match s.storage.find t with
  | none => (false, s)
  | some slot =>
    if ¬ s.initialized ∨ some t = s.currentThread ∨ th.id = 0 ∨ th.process = none ∨
        th.state = .invalid ∨ th.state = .running ∨ th.state = .blocked ∨ th.onRunQueue ∨
        th.runNext ≠ none then (false, s)
    else if s.ThreadWaitActive t ∨ th.capabilityRefs ≠ 0 then (false, s)
    else if ¬ released then (false, s)
    else
      (true, { s with
        storage := s.storage.clear slot
        thread := update s.thread t { Thread.zero with
          state := .dead, capabilityRefs := th.capabilityRefs } })

end ThreadState

/-! ### All objects -/

/-- The kernel objects that capabilities name, and the components that own them. -/
structure Objects where
  sched : SchedState
  spaces : SpaceState
  endpoints : EndpointState
  resources : ResourceState

end JcosKernel
