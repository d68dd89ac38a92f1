import JcosKernel.Object.Model
import Mathlib.Data.BitVec
import Mathlib.Data.Fintype.Prod

/-!
# JcosKernel.Capability.Model

`kernel/capability.c`: tables of capability slots, each of which pins a kernel
object.

An object is named by its type and its storage address. `objectIdentity` is the check
of `object_refs`, and `refs`/`setRefs` are the reads and writes through the counter
that `object_refs` returns a pointer to.

A handle holds a generation in its upper half and a slot index in its lower half. The
generations of an index are issued once per boot, over all tables.
-/

namespace JcosKernel

open Lib Function

/-- Storage address of a `CapabilityTable`. -/
abbrev TableRef := Nat

/-- `CAPABILITY_TABLE_CAPACITY`. -/
abbrev capabilityTableCapacity : Nat := 64

instance neZero_slots : NeZero capabilityTableCapacity := ⟨by decide⟩

/-- `CAPABILITY_TABLE_STORAGE_CAPACITY`. -/
abbrev capabilityTableStorageCapacity : Nat := 256

/-- `CAPABILITY_GENERATION_MAX`. -/
def capabilityGenerationMax : Nat := 0xFFFFFFFF

abbrev CapabilityHandle := BitVec 64
abbrev CapabilityRights := BitVec 64

/-- `CAPABILITY_RIGHT_ALL`: READ, WRITE, EXECUTE, TRANSFER, MANAGE, SEND, RECEIVE. -/
def capabilityRightAll : CapabilityRights := 0x7F#64

/-- `CAPABILITY_RIGHT_SEND`. -/
def capabilityRightSend : CapabilityRights := 1#64 <<< 5

/-- `CAPABILITY_RIGHT_RECEIVE`. -/
def capabilityRightReceive : CapabilityRights := 1#64 <<< 6

inductive CapabilityType
  | none
  | thread
  | addressSpace
  | endpoint
  | deviceResource
  deriving Repr, DecidableEq

/-- `type_valid`. -/
def CapabilityType.Valid (type : CapabilityType) : Prop := type ≠ .none

instance (type : CapabilityType) : Decidable type.Valid := inferInstanceAs (Decidable (_ ≠ _))

structure CapabilitySlot where
  object : Option Nat
  objectId : Nat
  rights : CapabilityRights
  generation : Nat
  type : CapabilityType
  occupied : Bool
  deriving Repr, DecidableEq

/-- `k_memset` of a slot. -/
def CapabilitySlot.zero : CapabilitySlot := ⟨none, 0, 0, 0, .none, false⟩

structure CapabilityTable where
  slots : Fin capabilityTableCapacity → CapabilitySlot
  count : Nat
  initialized : Bool

def CapabilityTable.zero : CapabilityTable := ⟨fun _ => .zero, 0, false⟩

/-- `((u64)generation << 32) | index`. -/
def capabilityHandle (generation : Nat) (index : Fin capabilityTableCapacity) : CapabilityHandle :=
  BitVec.ofNat 64 (generation * 2 ^ 32 + index.val)

/-- The kernel objects and the static variables of `capability.c`. -/
structure CapState extends Objects where
  table : TableRef → CapabilityTable
  tables : Slots TableRef capabilityTableStorageCapacity
  nextGeneration : Fin capabilityTableCapacity → Nat
  issuersInitialized : Bool

/-! ### The named objects -/

namespace Objects

variable (k : Objects) (object : Nat)

/-- The identity that `object_refs` reports, if it accepts the object. -/
def objectIdentity (inserting : Bool) : CapabilityType → Option Nat
  | .thread =>
    let th := k.sched.thread object
    if ¬ k.sched.threadStorageLive object ∨ th.id = 0 ∨ th.process = none ∨ th.state = .invalid then
      none
    else if inserting ∧ th.state = .dead then none
    else some th.id
  | .addressSpace =>
    if ¬ k.spaces.SpaceStorageLive object then none
    else if inserting ∧ (k.spaces.addressSpaceCr3 object = 0 ∨
        (k.spaces.space object).pageMap.destroyPending) then none
    else some (k.spaces.space object).id
  | .endpoint =>
    let ep := k.endpoints.endpoint object
    if ¬ k.endpoints.EndpointLive object ∨ ¬ ep.initialized ∨ ep.id = 0 then none
    else if inserting ∧ ep.closed then none
    else some ep.id
  | .deviceResource =>
    if ¬ k.resources.DeviceResourceValid object then none
    else some (k.resources.resource object).id
  | .none => none

/-- The counter of the object. -/
def refs : CapabilityType → Nat
  | .thread => (k.sched.thread object).capabilityRefs
  | .addressSpace => (k.spaces.space object).capabilityRefs
  | .endpoint => (k.endpoints.endpoint object).capabilityRefs
  | .deviceResource => (k.resources.resource object).capabilityRefs
  | .none => 0

/-- Store to the counter of the object. -/
def setRefs (n : Nat) : CapabilityType → Objects
  | .thread => { k with sched := k.sched.modifyThread object ({ · with capabilityRefs := n }) }
  | .addressSpace => { k with spaces := k.spaces.modify object ({ · with capabilityRefs := n }) }
  | .endpoint => { k with endpoints := k.endpoints.modify object ({ · with capabilityRefs := n }) }
  | .deviceResource =>
    { k with resources := k.resources.modify object ({ · with capabilityRefs := n }) }
  | .none => k

end Objects

namespace CapState

variable (k : CapState) (t : TableRef)

/-- `table_live`. -/
abbrev TableLive : Prop := k.tables.Live t

/-- The object of a slot is there, is the one that was inserted, and has a reference. -/
def ObjectHeld (type : CapabilityType) (id : Nat) : Option Nat → Prop
  | none => False
  | some object => k.objectIdentity object false type = some id ∧ k.refs object type ≠ 0

instance (type : CapabilityType) (id : Nat) : ∀ object, Decidable (k.ObjectHeld type id object)
  | none => inferInstanceAs (Decidable False)
  | some _ => inferInstanceAs (Decidable (_ ∧ _))

/-- The counter behind a slot: `slot_refs` is not null. -/
def SlotRefs (slot : CapabilitySlot) : Prop :=
  slot.occupied ∧ slot.generation ≠ 0 ∧ slot.rights ≠ 0 ∧
    slot.rights &&& ~~~ capabilityRightAll = 0 ∧
    k.ObjectHeld slot.type slot.objectId slot.object

instance (slot : CapabilitySlot) : Decidable (k.SlotRefs slot) :=
  inferInstanceAs (Decidable (_ ∧ _))

/-- The number of occupied slots. -/
def occupied (table : CapabilityTable) : Nat :=
  (Finset.univ.filter fun i => (table.slots i).occupied = true).card

/-- `table_valid`. -/
def TableValid : Prop :=
  k.TableLive t ∧ (k.table t).initialized ∧ (k.table t).count ≤ capabilityTableCapacity ∧
    (∀ i, if ((k.table t).slots i).occupied then k.SlotRefs ((k.table t).slots i)
      else ((k.table t).slots i).object = none ∧ ((k.table t).slots i).objectId = 0 ∧
        ((k.table t).slots i).rights = 0 ∧ ((k.table t).slots i).type = .none) ∧
    occupied (k.table t) = (k.table t).count

instance : Decidable (k.TableValid t) := inferInstanceAs (Decidable (_ ∧ _))

/-- Store to a table. -/
def setTable (table : CapabilityTable) : CapState :=
  { k with table := update k.table t table }

/-- `capability_table_init`. -/
def capabilityTableInit : Bool × CapState :=
  match k.tables.firstEmpty with
  | none => (false, k)
  | some slot =>
    if k.TableLive t then (false, k)
    else
      let k := if k.issuersInitialized then k
        else { k with nextGeneration := fun _ => 1, issuersInitialized := true }
      (true, { k.setTable t { CapabilityTable.zero with initialized := true } with
        tables := k.tables.put slot t })

/-- `capability_table_destroy`. -/
def capabilityTableDestroy : Bool × CapState :=
  match k.tables.find t with
  | none => (false, k)
  | some slot =>
    if ¬ k.TableValid t ∨ (k.table t).count ≠ 0 then (false, k)
    else (true, { k.setTable t .zero with tables := k.tables.clear slot })

/-- `take_generation` succeeds. -/
def CanTakeGeneration (i : Fin capabilityTableCapacity) : Prop :=
  k.nextGeneration i ≠ 0 ∧ k.nextGeneration i ≤ capabilityGenerationMax

instance (i : Fin capabilityTableCapacity) : Decidable (k.CanTakeGeneration i) :=
  inferInstanceAs (Decidable (_ ∧ _))

/-- The slot that `capability_insert` fills: the first that is free and whose index
can still issue a generation. -/
def insertIndex : Option (Fin capabilityTableCapacity) :=
  Fin.find? fun i => ((k.table t).slots i).occupied = false ∧ k.CanTakeGeneration i

/-- The stores of `capability_insert` to slot `i`. -/
def fillSlot (i : Fin capabilityTableCapacity) (object identity : Nat) (type : CapabilityType)
    (rights : CapabilityRights) : CapState :=
  let table := k.table t
  { (k.setTable t
      { table with
        slots := update table.slots i
          ⟨some object, identity, rights, k.nextGeneration i, type, true⟩
        count := table.count + 1 }) with
    toObjects := k.setRefs object (k.refs object type + 1) type
    nextGeneration := update k.nextGeneration i (k.nextGeneration i + 1) }

/-- `capability_insert`: the handle, if it returns true. -/
def capabilityInsert (object : Nat) (type : CapabilityType) (rights : CapabilityRights) :
    Option CapabilityHandle × CapState :=
  if ¬ k.TableValid t ∨ ¬ type.Valid ∨ rights = 0 ∨ rights &&& ~~~ capabilityRightAll ≠ 0 ∨
      (k.table t).count = capabilityTableCapacity then (none, k)
  else
    match k.objectIdentity object true type with
    | none => (none, k)
    | some identity =>
      if k.refs object type = 2 ^ 64 - 1 then (none, k)
      else
        match k.insertIndex t with
        | none => (none, k)
        | some i =>
          (some (capabilityHandle (k.nextGeneration i) i), k.fillSlot t i object identity type rights)

/-- `resolve_slot`: the index of the slot. -/
def resolveSlot (handle : CapabilityHandle) : Option (Fin capabilityTableCapacity) :=
  if ¬ k.TableLive t ∨ ¬ (k.table t).initialized ∨ handle = 0 then none
  else
    let index := handle.toNat % 2 ^ 32
    let generation := handle.toNat / 2 ^ 32
    if h : index < capabilityTableCapacity then
      let slot := (k.table t).slots ⟨index, h⟩
      if generation = 0 ∨ slot.generation ≠ generation ∨ ¬ k.SlotRefs slot then none
      else some ⟨index, h⟩
    else none

/-- `capability_lookup_rights`: the object, if it returns true. -/
def capabilityLookupRights (handle : CapabilityHandle) (expectedType : CapabilityType)
    (requiredRights : CapabilityRights) : Option Nat :=
  match k.resolveSlot t handle with
  | none => none
  | some i =>
    let slot := (k.table t).slots i
    if ¬ expectedType.Valid ∨ requiredRights &&& ~~~ capabilityRightAll ≠ 0 ∨
        slot.type ≠ expectedType ∨ slot.rights &&& requiredRights ≠ requiredRights then none
    else slot.object

/-- `delete_slot`. All callers have checked the slot, so its counter is there. -/
def deleteSlot (i : Fin capabilityTableCapacity) : CapState :=
  let table := k.table t
  let slot := table.slots i
  { (k.setTable t
      { table with
        slots := update table.slots i
          { CapabilitySlot.zero with generation := slot.generation }
        count := table.count - 1 }) with
    toObjects := match slot.object with
      | none => k.toObjects
      | some object => k.setRefs object (k.refs object slot.type - 1) slot.type }

/-- `capability_revoke`. -/
def capabilityRevoke (handle : CapabilityHandle) : Bool × CapState :=
  match k.resolveSlot t handle with
  | none => (false, k)
  | some i => if ¬ k.TableValid t then (false, k) else (true, k.deleteSlot t i)

/-- The slots that `delete_selected` is about: all occupied ones, or those that name
one object. -/
def Selected (target : Option (Nat × CapabilityType)) (slot : CapabilitySlot) : Prop :=
  slot.occupied ∧ ∀ x, target = some x → slot.object = some x.1 ∧ slot.type = x.2

instance (target : Option (Nat × CapabilityType)) (slot : CapabilitySlot) :
    Decidable (Selected target slot) :=
  match target with
  | none => decidable_of_iff (slot.occupied = true) (by simp [Selected])
  | some x => decidable_of_iff
      (slot.occupied = true ∧ slot.object = some x.1 ∧ slot.type = x.2) (by simp [Selected])

/-- The occupied slots of the table that name the same object as `slot`. -/
def matching (slot : CapabilitySlot) : Nat :=
  (Finset.univ.filter fun j => ((k.table t).slots j).occupied = true ∧
    ((k.table t).slots j).object = slot.object ∧ ((k.table t).slots j).type = slot.type).card

/-- The first loop of `delete_selected`: every selected object has enough references. -/
def DeletionCovered (target : Option (Nat × CapabilityType)) : Prop :=
  ∀ i, Selected target ((k.table t).slots i) →
    k.SlotRefs ((k.table t).slots i) ∧ ∀ object, ((k.table t).slots i).object = some object →
      k.matching t ((k.table t).slots i) ≤ k.refs object ((k.table t).slots i).type

/-- The second loop of `delete_selected`. -/
def deleteLoop (target : Option (Nat × CapabilityType)) (is : List (Fin capabilityTableCapacity)) :
    CapState :=
  is.foldl (fun k i => if Selected target ((k.table t).slots i) then k.deleteSlot t i else k) k

instance (target : Option (Nat × CapabilityType)) : Decidable (k.DeletionCovered t target) :=
  inferInstanceAs (Decidable (∀ _, _ → _ ∧ _))

/-- `delete_selected`. -/
def deleteSelected (target : Option (Nat × CapabilityType)) : Bool × CapState :=
  if ¬ k.TableValid t ∨ ¬ k.DeletionCovered t target then (false, k)
  else (true, k.deleteLoop t target (List.finRange capabilityTableCapacity))

/-- `capability_revoke_all`. -/
def capabilityRevokeAll : Bool × CapState := k.deleteSelected t none

/-- `capability_revoke_object`. -/
def capabilityRevokeObject (object : Nat) (type : CapabilityType) : Bool × CapState :=
  if ¬ type.Valid then (false, k) else k.deleteSelected t (some (object, type))

end CapState

end JcosKernel
