import JcosKernel.Lib.Pins
import JcosKernel.Capability.Model

/-!
# JcosKernel.Capability.Objects

The kernel objects as capabilities see them: which are live, how often each is
referenced, and under which identity it can be named. The creation and destruction
functions of the four object types are lifecycle steps in the sense of `Lib.Pins`.
-/

namespace JcosKernel

open Lib Function

/-- An object as a capability names it. -/
abbrev Named := CapabilityType × Nat

/-! ### Identities -/

/-- The identity of a thread that `object_refs` accepts. -/
def Thread.name (th : Thread) : Option Nat :=
  if th.id = 0 ∨ th.process = none ∨ th.state = .invalid then none else some th.id

/-- The identity of an endpoint that `object_refs` accepts. -/
def Endpoint.name (ep : Endpoint) : Option Nat :=
  if ¬ ep.initialized ∨ ep.id = 0 then none else some ep.id

/-- The identity of a device resource that `device_resource_valid` accepts. -/
def DeviceResource.name (r : DeviceResource) : Option Nat :=
  if ¬ r.initialized ∨ r.id = 0 ∨ r.kind = .none then none else some r.id

/-- Every registered address space can be named. -/
def AddressSpace.name (a : AddressSpace) : Option Nat := some a.id

namespace Objects

variable {k k' : Objects} {x : Named} {o id : Nat} {type : CapabilityType}

/-- The object is in the registry of its type. -/
def Live (k : Objects) : Named → Prop
  | (.thread, o) => k.sched.threadStorageLive o
  | (.addressSpace, o) => k.spaces.SpaceStorageLive o
  | (.endpoint, o) => k.endpoints.EndpointLive o
  | (.deviceResource, o) => k.resources.storage.Live o
  | (.none, _) => False

/-- The counter of a named object. -/
def refsOf (k : Objects) (x : Named) : Nat := k.refs x.2 x.1

/-- The identity of a named object, if it is fit to be named. -/
def nameOf (k : Objects) : Named → Option Nat
  | (.thread, o) => (k.sched.thread o).name
  | (.addressSpace, o) => (k.spaces.space o).name
  | (.endpoint, o) => (k.endpoints.endpoint o).name
  | (.deviceResource, o) => (k.resources.resource o).name
  | (.none, _) => none

/-- The `id` field of a named object. -/
def idOf (k : Objects) : Named → Nat
  | (.thread, o) => (k.sched.thread o).id
  | (.addressSpace, o) => (k.spaces.space o).id
  | (.endpoint, o) => (k.endpoints.endpoint o).id
  | (.deviceResource, o) => (k.resources.resource o).id
  | (.none, _) => 0

theorem idOf_of_nameOf (h : k.nameOf x = some id) : k.idOf x = id := by
  obtain ⟨ty, o⟩ := x
  cases ty with
  | none => cases h
  | addressSpace => exact Option.some.inj h
  | thread | endpoint | deviceResource =>
    simp only [nameOf, Thread.name, Endpoint.name, DeviceResource.name] at h
    split at h
    · cases h
    · exact Option.some.inj h

/-- `object_refs`, outside of an insert, accepts the live objects that have a name. -/
theorem objectIdentity_eq_some :
    k.objectIdentity o false type = some id ↔ k.Live (type, o) ∧ k.nameOf (type, o) = some id := by
  cases type with
  | none => simp [objectIdentity, Live]
  | thread | addressSpace | endpoint | deviceResource =>
    simp only [objectIdentity, Live, nameOf, Thread.name, AddressSpace.name, Endpoint.name,
      DeviceResource.name, ResourceState.DeviceResourceValid]
    grind

/-- What an insert accepts, a later look at the slot accepts too. -/
theorem objectIdentity_of_inserting (h : k.objectIdentity o true type = some id) :
    k.objectIdentity o false type = some id := by
  cases type with
  | none => exact h
  | deviceResource => exact h
  | thread | addressSpace | endpoint =>
    simp only [objectIdentity] at h ⊢
    split at h
    · cases h
    · rename_i hok
      split at h
      · cases h
      · rw [if_neg hok]
        exact h

/-! ### Writing a counter -/

theorem refsOf_setRefs (ht : type.Valid) (n : Nat) :
    (k.setRefs o n type).refsOf = update k.refsOf (type, o) n := by
  funext y
  obtain ⟨ty, p⟩ := y
  by_cases hy : (ty, p) = (type, o)
  · obtain ⟨rfl, rfl⟩ := Prod.mk.inj hy
    cases ty <;>
      simp_all [refsOf, refs, setRefs, CapabilityType.Valid, SchedState.modifyThread,
        SpaceState.modify, EndpointState.modify, ResourceState.modify]
  · cases type <;> cases ty <;>
      simp_all [refsOf, refs, setRefs, SchedState.modifyThread, SpaceState.modify,
        EndpointState.modify, ResourceState.modify]

@[simp] theorem live_setRefs (n : Nat) : (k.setRefs o n type).Live = k.Live := by
  funext y
  obtain ⟨ty, p⟩ := y
  cases type <;> cases ty <;> rfl

@[simp] theorem nameOf_setRefs (n : Nat) : (k.setRefs o n type).nameOf = k.nameOf := by
  funext y
  obtain ⟨ty, p⟩ := y
  cases type <;> cases ty <;> first
    | rfl
    | (by_cases hp : p = o <;>
        simp [nameOf, setRefs, SchedState.modifyThread, SpaceState.modify, EndpointState.modify,
          ResourceState.modify, hp, Thread.name, Endpoint.name, DeviceResource.name,
          AddressSpace.name])

theorem objectIdentity_setRefs {o' n : Nat} {type' : CapabilityType} :
    (k.setRefs o n type).objectIdentity o' false type' = k.objectIdentity o' false type' := by
  refine Option.ext fun id => ?_
  rw [objectIdentity_eq_some, objectIdentity_eq_some, live_setRefs, nameOf_setRefs]

end Objects

/-! ### Creation and destruction -/

/-- A lifecycle step of the threads. -/
structure ThreadsEvolve (s s' : ThreadState) : Prop where
  pool : PoolStep Thread.capabilityRefs Thread.name s.storage s.thread s'.storage s'.thread
  boot : s'.initialized = false → s.initialized = false ∧ s'.storage = s.storage

/-- A lifecycle step of the address spaces. -/
structure SpacesEvolve (s s' : SpaceState) : Prop where
  pool : PoolStep AddressSpace.capabilityRefs AddressSpace.name s.storage s.space s'.storage s'.space
  boot : s'.kernelReady = false → s.kernelReady = false ∧ s'.storage = s.storage
  kernelSpace : s'.kernelSpace = s.kernelSpace
  unready : s.kernelReady = false → (s.space s.kernelSpace).capabilityRefs = 0 →
    (s'.space s.kernelSpace).capabilityRefs = 0

/-- A lifecycle step of the endpoints. -/
abbrev EndpointsEvolve (s s' : EndpointState) : Prop :=
  PoolStep Endpoint.capabilityRefs Endpoint.name s.storage s.endpoint s'.storage s'.endpoint

/-- A lifecycle step of the device resources. -/
abbrev ResourcesEvolve (s s' : ResourceState) : Prop :=
  PoolStep DeviceResource.capabilityRefs DeviceResource.name s.storage s.resource s'.storage
    s'.resource

section Threads

variable {s : ThreadState} {t : ThreadRef} (hs : s.storage.Nodup)
include hs

theorem ThreadsEvolve.refl : ThreadsEvolve s s :=
  ⟨.refl hs, fun h => ⟨h, rfl⟩⟩

theorem ThreadState.threadSystemInit_evolve
    (hboot : s.initialized = false → ∀ t, ¬ s.threadStorageLive t) (kernelProcess : ProcessRef)
    (base size top : Nat) (admitted attached : Bool) :
    ThreadsEvolve s (s.threadSystemInit t kernelProcess base size top admitted attached).2 := by
  unfold threadSystemInit
  dsimp only
  split_ifs with h1 h2 h3
  · exact .refl hs
  · exact .refl hs
  · exact .refl hs
  · have hdead : ∀ t, ¬ s.threadStorageLive t := hboot (by simp_all)
    have hempty : s.storage ⟨0, by decide⟩ = none :=
      Option.eq_none_iff_forall_ne_some.mpr fun b hb => hdead b ⟨_, hb⟩
    exact ⟨.create hs (hdead t) hempty rfl rfl, fun h => by cases h⟩
  · -- the thread was not attached: its storage is cleared again
    have hdead : ∀ t, ¬ s.threadStorageLive t := hboot (by simp_all)
    exact ⟨.scribble hs (hdead t), fun h => ⟨h, rfl⟩⟩

theorem ThreadState.threadCreate_evolve (process : ProcessRef)
    (stack : StackOutcome) : ThreadsEvolve s (s.threadCreate t process stack).2 := by
  unfold threadCreate
  split
  · exact .refl hs
  · rename_i hdead
    have hfail : ∀ a b, ThreadsEvolve s { s with
        thread := update s.thread t Thread.zero, unpublishedStack := a,
        unpublishedStackVirtual := b } :=
      fun _ _ => ⟨.scribble hs hdead, fun h => ⟨h, rfl⟩⟩
    dsimp only
    split
    · exact hfail _ _
    · rename_i hready
      split
      · exact hfail _ _
      · rename_i slot hslot
        cases stack with
        | refused | failed left => exact hfail _ _
        | mapped physical virtualBase attached left =>
          dsimp only
          split_ifs
          · exact hfail _ _
          · exact hfail _ _
          · have hid : s.nextThreadId ≠ 0 := fun h => hready (.inr (.inl h))
            rw [update_idem]
            refine ⟨.create hs hdead (Slots.get_of_firstEmpty hslot) rfl ?_, fun h => ?_⟩
            · simp [Thread.name, hid]
            · exact absurd (by simp [show s.initialized = false from h]) hready

theorem ThreadState.threadDestroy_evolve (released : Bool) :
    ThreadsEvolve s (s.threadDestroy t released).2 := by
  unfold threadDestroy
  dsimp only
  split
  · exact .refl hs
  · rename_i slot hslot
    split_ifs with h1 h2 h3
    · exact .refl hs
    · exact .refl hs
    · have hrefs : (s.thread t).capabilityRefs = 0 := by
        by_contra hne
        exact h2 (.inr hne)
      exact ⟨.destroy hs (Slots.get_of_find hslot) hrefs,
        fun h => absurd (by simp [show s.initialized = false from h]) h1⟩
    · exact .refl hs

end Threads

section Spaces

variable {s : SpaceState} {a : SpaceRef} (hs : s.storage.Nodup)
include hs

theorem SpacesEvolve.refl : SpacesEvolve s s :=
  ⟨.refl hs, fun h => ⟨h, rfl⟩, rfl, fun _ h => h⟩

theorem SpaceState.addressSpaceKernelInit_evolve
    (hboot : s.kernelReady = false → ∀ a, ¬ s.SpaceStorageLive a)
    (hrefs : s.kernelReady = false → (s.space s.kernelSpace).capabilityRefs = 0)
    (map : Option VmPageMap) : SpacesEvolve s (s.addressSpaceKernelInit map).2 := by
  unfold addressSpaceKernelInit
  split
  · exact .refl hs
  · rename_i hready
    have hready : s.kernelReady = false := by simpa using hready
    cases map with
    | none =>
      exact ⟨.scribble hs (hboot hready _), fun h => ⟨h, rfl⟩, rfl, fun _ h => by simpa using h⟩
    | some map =>
      have hempty : s.storage ⟨0, by decide⟩ = none :=
        Option.eq_none_iff_forall_ne_some.mpr fun b hb => hboot hready b ⟨_, hb⟩
      dsimp only
      rw [update_idem]
      exact ⟨.create hs (hboot hready _) hempty (hrefs hready) rfl, fun h => (by cases h), rfl,
        fun _ h => by simpa using h⟩

theorem SpaceState.addressSpaceCreate_evolve
    (built : Except VmPageMap VmPageMap) : SpacesEvolve s (s.addressSpaceCreate a built).2 := by
  unfold addressSpaceCreate
  split
  · exact .refl hs
  · rename_i hdead
    have hkernel : ∀ x : AddressSpace, x.capabilityRefs = 0 →
        (s.space s.kernelSpace).capabilityRefs = 0 →
        (update s.space a x s.kernelSpace).capabilityRefs = 0 := by
      intro x hx h
      by_cases ha : s.kernelSpace = a
      · rw [ha, update_self]
        exact hx
      · rwa [update_of_ne ha]
    have hfail : ∀ left, SpacesEvolve s { s with
        space := update s.space a ⟨0, .invalid, false, 0⟩, unpublishedMap := left } :=
      fun _ => ⟨.scribble hs hdead, fun h => ⟨h, rfl⟩, rfl, fun _ => hkernel _ rfl⟩
    dsimp only
    split
    · exact hfail _
    · rename_i hready
      split
      · exact hfail _
      · rename_i slot hslot
        cases built with
        | error left => exact hfail _
        | ok map =>
          dsimp only
          rw [update_idem]
          exact ⟨.create hs hdead (Slots.get_of_firstEmpty hslot) rfl rfl,
            fun h => absurd (by simp [show s.kernelReady = false from h]) hready, rfl,
            fun _ => hkernel _ rfl⟩

theorem SpaceState.addressSpaceDestroy_evolve
    (hboot : s.kernelReady = false → ∀ a, ¬ s.SpaceStorageLive a) (destroyed : Bool × VmPageMap) :
    SpacesEvolve s (s.addressSpaceDestroy a destroyed).2 := by
  unfold addressSpaceDestroy
  split
  · exact .refl hs
  · rename_i slot hslot
    have hlive : s.SpaceStorageLive a := ⟨slot, Slots.get_of_find hslot⟩
    have hready : s.kernelReady ≠ false := fun h => hboot h a hlive
    split_ifs with h1
    · exact .refl hs
    · have hrefs : (s.space a).capabilityRefs = 0 := by
        by_contra hne
        exact h1 (.inr (.inr hne))
      obtain ⟨ok, map⟩ := destroyed
      cases ok with
      | false =>
        refine ⟨.same hs fun b _ => ?_, fun h => absurd h hready, rfl, fun h => absurd h hready⟩
        by_cases hb : b = a
        · subst hb
          simp [AddressSpace.name]
        · simp [hb]
      | true =>
        exact ⟨.destroy hs (Slots.get_of_find hslot) hrefs, fun h => absurd h hready, rfl,
          fun h => absurd h hready⟩

end Spaces

section Endpoints

variable {s : EndpointState} {e : EndpointRef} (hs : s.storage.Nodup)
include hs

theorem EndpointState.endpointSystemInit_evolve :
    EndpointsEvolve s s.endpointSystemInit.2 := by
  unfold endpointSystemInit
  split_ifs <;> exact .refl hs

theorem EndpointState.endpointCreate_evolve (owner : Nat) :
    EndpointsEvolve s (s.endpointCreate e owner).2 := by
  unfold endpointCreate
  split
  · exact .refl hs
  · rename_i hcan
    simp only [not_or] at hcan
    split
    · exact .refl hs
    · rename_i slot hslot
      exact .create hs hcan.2.2 (Slots.get_of_firstEmpty hslot) rfl (by simp [Endpoint.name, hcan.2.1])

theorem EndpointState.endpointDestroy_evolve : EndpointsEvolve s (s.endpointDestroy e).2 := by
  unfold endpointDestroy
  dsimp only
  split
  · exact .refl hs
  · rename_i slot hslot
    split_ifs with h1 h2
    case neg => exact .destroy hs (Slots.get_of_find hslot) (not_not.mp h2)
    all_goals exact .refl hs

end Endpoints

section Resources

variable {s : ResourceState} {r : ResourceRef} (hs : s.storage.Nodup)
include hs

theorem ResourceState.deviceResourceCreate_evolve (kind : DeviceResourceKind) :
    ResourcesEvolve s (s.deviceResourceCreate r kind).2 := by
  unfold deviceResourceCreate
  split
  · exact .refl hs
  · rename_i hkind
    split
    · exact .refl hs
    · rename_i slot hslot
      split_ifs with hbusy
      · exact .refl hs
      · simp only [not_or] at hbusy
        exact .create hs hbusy.1 (Slots.get_of_firstEmpty hslot) rfl
          (by simp [DeviceResource.name, hbusy.2, hkind])

theorem ResourceState.deviceResourceDestroy_evolve : ResourcesEvolve s (s.deviceResourceDestroy r).2 := by
  unfold deviceResourceDestroy
  split
  · exact .refl hs
  · rename_i slot hslot
    split_ifs with h1
    · exact .refl hs
    · simp only [not_or, not_not] at h1
      exact .destroy hs (Slots.get_of_find hslot) h1.2.2

end Resources

/-! ### One step of the objects -/

namespace Objects

variable {k k' : Objects}

/-- Store to the static variables and objects of `thread.c`. -/
def withThreads (k : Objects) (s : ThreadState) : Objects :=
  { k with sched := { k.sched with toThreadState := s } }

/-- What everything else does to the objects: the registries and the counters stay, and
no live object changes its name. -/
structure Elsewhere (k k' : Objects) : Prop where
  threads : k'.sched.storage = k.sched.storage
  spaces : k'.spaces.storage = k.spaces.storage
  endpoints : k'.endpoints.storage = k.endpoints.storage
  resources : k'.resources.storage = k.resources.storage
  threadsInitialized : k'.sched.initialized = k.sched.initialized
  kernelReady : k'.spaces.kernelReady = k.spaces.kernelReady
  kernelSpace : k'.spaces.kernelSpace = k.spaces.kernelSpace
  refs : k'.refsOf = k.refsOf
  names : ∀ x, k.Live x → k'.nameOf x = k.nameOf x

/-- The creation and destruction of objects, and everything else. -/
inductive Step (k : Objects) : Objects → Prop
  | threadSystemInit (t : ThreadRef) (process : ProcessRef) (base size top : Nat)
      (admitted attached : Bool) :
      Step k (k.withThreads
        (k.sched.threadSystemInit t process base size top admitted attached).2)
  | threadCreate (t : ThreadRef) (process : ProcessRef) (stack : ThreadState.StackOutcome) :
      Step k (k.withThreads (k.sched.threadCreate t process stack).2)
  | threadDestroy (t : ThreadRef) (released : Bool) :
      Step k (k.withThreads (k.sched.threadDestroy t released).2)
  | addressSpaceKernelInit (map : Option VmPageMap) :
      Step k { k with spaces := (k.spaces.addressSpaceKernelInit map).2 }
  | addressSpaceCreate (a : SpaceRef) (built : Except VmPageMap VmPageMap) :
      Step k { k with spaces := (k.spaces.addressSpaceCreate a built).2 }
  | addressSpaceDestroy (a : SpaceRef) (destroyed : Bool × VmPageMap) :
      Step k { k with spaces := (k.spaces.addressSpaceDestroy a destroyed).2 }
  | endpointSystemInit : Step k { k with endpoints := k.endpoints.endpointSystemInit.2 }
  | endpointCreate (e : EndpointRef) (owner : Nat) :
      Step k { k with endpoints := (k.endpoints.endpointCreate e owner).2 }
  | endpointDestroy (e : EndpointRef) :
      Step k { k with endpoints := (k.endpoints.endpointDestroy e).2 }
  | deviceResourceCreate (r : ResourceRef) (kind : DeviceResourceKind) :
      Step k { k with resources := (k.resources.deviceResourceCreate r kind).2 }
  | deviceResourceDestroy (r : ResourceRef) :
      Step k { k with resources := (k.resources.deviceResourceDestroy r).2 }
  | elsewhere {k' : Objects} (h : Elsewhere k k') : Step k k'

/-- The registries hold no reference twice, every live object can be named, and nothing
is registered before its component is initialised. -/
structure Ok (k : Objects) : Prop where
  threads : k.sched.storage.Nodup
  spaces : k.spaces.storage.Nodup
  endpoints : k.endpoints.storage.Nodup
  resources : k.resources.storage.Nodup
  named : ∀ x, k.Live x → (k.nameOf x).isSome = true
  noThread : k.sched.initialized = false → ∀ t, ¬ k.sched.threadStorageLive t
  noSpace : k.spaces.kernelReady = false → ∀ a, ¬ k.spaces.SpaceStorageLive a
  kernelSpace : k.spaces.kernelReady = false →
    (k.spaces.space k.spaces.kernelSpace).capabilityRefs = 0

/-- The counter of a live object may change. -/
theorem Ok.setRefs (hk : k.Ok) {o : Nat} {type : CapabilityType} (hl : k.Live (type, o)) (n : Nat) :
    (k.setRefs o n type).Ok := by
  have hnamed : ∀ x, (k.setRefs o n type).Live x → ((k.setRefs o n type).nameOf x).isSome = true := by
    rw [live_setRefs, nameOf_setRefs]
    exact hk.named
  cases type with
  | none => exact hl.elim
  | addressSpace =>
    exact { hk with named := hnamed, kernelSpace := fun h0 => absurd hl (hk.noSpace h0 o) }
  | thread | endpoint | deviceResource =>
    exact { hk with named := hnamed }

/-- A lifecycle step of every type of object. -/
structure Evolves (k k' : Objects) : Prop where
  threads : ThreadsEvolve k.sched.toThreadState k'.sched.toThreadState
  spaces : SpacesEvolve k.spaces k'.spaces
  endpoints : EndpointsEvolve k.endpoints k'.endpoints
  resources : ResourcesEvolve k.resources k'.resources

theorem Evolves.lifecycle (h : Evolves k k') :
    Lifecycle k.Live k'.Live k.refsOf k'.refsOf k.nameOf k'.nameOf := by
  refine .of_fibres fun ty => ?_
  cases ty with
  | none => exact ⟨fun _ => False.elim, fun _ _ => False.elim, fun _ => False.elim⟩
  | thread => exact h.threads.pool.lifecycle
  | addressSpace => exact h.spaces.pool.lifecycle
  | endpoint => exact h.endpoints.lifecycle
  | deviceResource => exact h.resources.lifecycle

theorem Evolves.ok (h : Evolves k k') (hk : k.Ok) : k'.Ok where
  threads := h.threads.pool.nodup
  spaces := h.spaces.pool.nodup
  endpoints := h.endpoints.nodup
  resources := h.resources.nodup
  named _ hx := h.lifecycle.tagged hk.named hx
  noThread h0 t ht := by
    obtain ⟨hinit, hstorage⟩ := h.threads.boot h0
    exact hk.noThread hinit t (by rwa [ThreadState.threadStorageLive, hstorage] at ht)
  noSpace h0 a ha := by
    obtain ⟨hready, hstorage⟩ := h.spaces.boot h0
    exact hk.noSpace hready a (by rwa [SpaceState.SpaceStorageLive, hstorage] at ha)
  kernelSpace h0 := by
    have hready := (h.spaces.boot h0).1
    rw [h.spaces.kernelSpace]
    exact h.spaces.unready hready (hk.kernelSpace hready)

theorem Elsewhere.evolves (h : Elsewhere k k') (hk : k.Ok) : Evolves k k' := by
  have hrefs : ∀ x, k'.refsOf x = k.refsOf x := fun x => congrFun h.refs x
  refine ⟨⟨?_, fun h0 => ?_⟩, ⟨?_, fun h0 => ?_, h.kernelSpace, fun _ h0 => ?_⟩, ?_, ?_⟩
  · rw [h.threads]
    exact .same hk.threads fun t ht => ⟨hrefs (.thread, t), h.names (.thread, t) ht⟩
  · exact ⟨h.threadsInitialized ▸ h0, h.threads⟩
  · rw [h.spaces]
    exact .same hk.spaces fun a ha => ⟨hrefs (.addressSpace, a), h.names (.addressSpace, a) ha⟩
  · exact ⟨h.kernelReady ▸ h0, h.spaces⟩
  · exact (hrefs (.addressSpace, _)).trans h0
  · rw [EndpointsEvolve, h.endpoints]
    exact .same hk.endpoints fun e he => ⟨hrefs (.endpoint, e), h.names (.endpoint, e) he⟩
  · rw [ResourcesEvolve, h.resources]
    exact .same hk.resources fun r hr =>
      ⟨hrefs (.deviceResource, r), h.names (.deviceResource, r) hr⟩

theorem Step.evolves (h : Step k k') (hk : k.Ok) : Evolves k k' := by
  have threads : ∀ {s}, ThreadsEvolve k.sched.toThreadState s → Evolves k (k.withThreads s) :=
    fun hs => ⟨hs, .refl hk.spaces, .refl hk.endpoints, .refl hk.resources⟩
  have spaces : ∀ {s}, SpacesEvolve k.spaces s → Evolves k { k with spaces := s } :=
    fun hs => ⟨.refl hk.threads, hs, .refl hk.endpoints, .refl hk.resources⟩
  have endpoints : ∀ {s}, EndpointsEvolve k.endpoints s → Evolves k { k with endpoints := s } :=
    fun hs => ⟨.refl hk.threads, .refl hk.spaces, hs, .refl hk.resources⟩
  have resources : ∀ {s}, ResourcesEvolve k.resources s → Evolves k { k with resources := s } :=
    fun hs => ⟨.refl hk.threads, .refl hk.spaces, .refl hk.endpoints, hs⟩
  cases h with
  | threadSystemInit => exact threads (ThreadState.threadSystemInit_evolve hk.threads hk.noThread ..)
  | threadCreate => exact threads (ThreadState.threadCreate_evolve hk.threads ..)
  | threadDestroy => exact threads (ThreadState.threadDestroy_evolve hk.threads ..)
  | addressSpaceKernelInit =>
    exact spaces (SpaceState.addressSpaceKernelInit_evolve hk.spaces hk.noSpace hk.kernelSpace ..)
  | addressSpaceCreate => exact spaces (SpaceState.addressSpaceCreate_evolve hk.spaces ..)
  | addressSpaceDestroy =>
    exact spaces (SpaceState.addressSpaceDestroy_evolve hk.spaces hk.noSpace ..)
  | endpointSystemInit => exact endpoints (EndpointState.endpointSystemInit_evolve hk.endpoints)
  | endpointCreate => exact endpoints (EndpointState.endpointCreate_evolve hk.endpoints ..)
  | endpointDestroy => exact endpoints (EndpointState.endpointDestroy_evolve hk.endpoints)
  | deviceResourceCreate =>
    exact resources (ResourceState.deviceResourceCreate_evolve hk.resources ..)
  | deviceResourceDestroy => exact resources (ResourceState.deviceResourceDestroy_evolve hk.resources)
  | elsewhere h => exact h.evolves hk

/-- The function that destroys objects of this type refuses this one. -/
def DestroyRefused (k : Objects) : Named → Prop
  | (.thread, o) => ∀ released, k.sched.threadDestroy o released = (false, k.sched.toThreadState)
  | (.addressSpace, o) => ∀ destroyed, k.spaces.addressSpaceDestroy o destroyed = (false, k.spaces)
  | (.endpoint, o) => k.endpoints.endpointDestroy o = (false, k.endpoints)
  | (.deviceResource, o) => k.resources.deviceResourceDestroy o = (false, k.resources)
  | (.none, _) => True

/-- A referenced object is not destroyed. -/
theorem destroyRefused_of_refs {x : Named} (h : k.refsOf x ≠ 0) : k.DestroyRefused x := by
  obtain ⟨ty, o⟩ := x
  cases ty with
  | none => trivial
  | thread =>
    intro released
    have hrefs : (k.sched.thread o).capabilityRefs ≠ 0 := h
    unfold ThreadState.threadDestroy
    dsimp only
    split
    · rfl
    · rw [if_pos (Or.inr hrefs)]
      split_ifs <;> rfl
  | addressSpace =>
    intro destroyed
    have hrefs : (k.spaces.space o).capabilityRefs ≠ 0 := h
    unfold SpaceState.addressSpaceDestroy
    split
    · rfl
    · rw [if_pos (.inr (.inr hrefs))]
  | endpoint =>
    have hrefs : (k.endpoints.endpoint o).capabilityRefs ≠ 0 := h
    unfold DestroyRefused EndpointState.endpointDestroy
    dsimp only
    split
    · rfl
    · split_ifs <;> rfl
  | deviceResource =>
    have hrefs : (k.resources.resource o).capabilityRefs ≠ 0 := h
    unfold DestroyRefused ResourceState.deviceResourceDestroy
    dsimp only
    split
    · rfl
    · rw [if_pos (.inr (.inr hrefs))]

end Objects

end JcosKernel
