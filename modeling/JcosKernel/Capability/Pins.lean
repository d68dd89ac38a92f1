import JcosKernel.Lib.Run
import JcosKernel.Capability.Objects

/-!
# JcosKernel.Capability.Pins

Capability pins are exact. The holders of `Lib.Pins` are the slots of the registered
tables; the invariant `CapInv` says that each object counts the slots that name it and
that every slot is as `table_valid` wants it. An insert is an acquisition and
`delete_slot` a release, so the three revocations come down to one lemma about
`deleteSlot` and a loop.
-/

namespace JcosKernel

open Lib Function

/-- The object that a slot names. -/
def CapabilitySlot.named (slot : CapabilitySlot) : Option Named :=
  if slot.occupied then slot.object.map (slot.type, ·) else none

/-- The objects that the slots of a table name. -/
def CapabilityTable.names (table : CapabilityTable) : Fin capabilityTableCapacity → Option Named :=
  fun i => (table.slots i).named

namespace CapState

/-- The slots of all registered tables, with the objects they name. -/
def holders (k : CapState) :
    Fin capabilityTableStorageCapacity × Fin capabilityTableCapacity → Option Named :=
  fun p => (k.tables p.1).bind fun t => (k.table t).names p.2

/-! ### The invariant -/

/-- A slot with index `i`: a full one is as `slot_refs` wants it, up to the count; a free
one is cleared but for its generation. -/
structure SlotOk (k : CapState) (i : Fin capabilityTableCapacity) (slot : CapabilitySlot) : Prop where
  issued : slot.generation < k.nextGeneration i
  full : slot.occupied = true → slot.generation ≠ 0 ∧ slot.rights ≠ 0 ∧
    slot.rights &&& ~~~ capabilityRightAll = 0 ∧
    ∃ o, slot.object = some o ∧ k.objectIdentity o false slot.type = some slot.objectId
  free : slot.occupied = false →
    slot.object = none ∧ slot.objectId = 0 ∧ slot.rights = 0 ∧ slot.type = .none

structure TableOk (k : CapState) (table : CapabilityTable) : Prop where
  initialized : table.initialized = true
  count : table.count = held table.names
  slots : ∀ i, k.SlotOk i (table.slots i)

structure CapInv (k : CapState) : Prop where
  objects : k.toObjects.Ok
  tables : k.tables.Nodup
  issuers : k.issuersInitialized = true →
    ∀ i, 0 < k.nextGeneration i ∧ k.nextGeneration i ≤ capabilityGenerationMax + 1
  started : ∀ t, k.TableLive t → k.issuersInitialized = true
  table : ∀ t, k.TableLive t → k.TableOk (k.table t)
  counted : Counted k.Live k.refsOf k.holders

variable {type : CapabilityType} {id o : Nat}

section Slot

variable {k k' : CapState} {i : Fin capabilityTableCapacity} {slot : CapabilitySlot}

theorem named_of_free (hocc : slot.occupied = false) : slot.named = none := by
  simp [CapabilitySlot.named, hocc]

theorem named_of_full (hocc : slot.occupied = true) (ho : slot.object = some o) :
    slot.named = some (slot.type, o) := by
  simp [CapabilitySlot.named, hocc, ho]

theorem SlotOk.named_isSome (h : k.SlotOk i slot) : slot.named.isSome = slot.occupied := by
  cases hocc : slot.occupied with
  | false => simp [named_of_free hocc]
  | true =>
    obtain ⟨-, -, -, o, ho, -⟩ := h.full hocc
    simp [named_of_full hocc ho]

/-- The slot says the same in another state, if its object still has its identity. -/
theorem SlotOk.transfer (h : k.SlotOk i slot) (hgen : k.nextGeneration i ≤ k'.nextGeneration i)
    (hobj : ∀ x id, slot.named = some x → k.objectIdentity x.2 false x.1 = some id →
      k'.objectIdentity x.2 false x.1 = some id) : k'.SlotOk i slot := by
  refine ⟨h.issued.trans_le hgen, fun hocc => ?_, h.free⟩
  obtain ⟨hg, hr, hr', o, ho, hid⟩ := h.full hocc
  exact ⟨hg, hr, hr', o, ho, hobj (slot.type, o) _ (named_of_full hocc ho) hid⟩

end Slot

variable {k k' : CapState} {t : TableRef} {i : Fin capabilityTableCapacity}
  {r : Fin capabilityTableStorageCapacity}

theorem TableOk.occupied_eq {table : CapabilityTable} (h : k.TableOk table) :
    occupied table = held table.names := by
  unfold occupied held
  congr 1
  ext i
  simp only [Finset.mem_filter]
  rw [CapabilityTable.names, (h.slots i).named_isSome]

theorem holders_of_slot (hr : k.tables r = some t) (i : Fin capabilityTableCapacity) :
    k.holders (r, i) = ((k.table t).slots i).named := by
  simp [holders, hr, CapabilityTable.names]

theorem holders_of_full (hr : k.tables r = some t) (hocc : ((k.table t).slots i).occupied = true)
    (ho : ((k.table t).slots i).object = some o) :
    k.holders (r, i) = some (((k.table t).slots i).type, o) :=
  (holders_of_slot hr i).trans (named_of_full hocc ho)

/-- An object that a full slot names is referenced. -/
theorem CapInv.refs_ne_zero (h : CapInv k) (ht : k.TableLive t)
    (hocc : ((k.table t).slots i).occupied = true) (ho : ((k.table t).slots i).object = some o) :
    k.refsOf (((k.table t).slots i).type, o) ≠ 0 := by
  obtain ⟨r, hr⟩ := ht
  exact h.counted.refs_ne_zero (holders_of_full hr hocc ho)

/-- Under the invariant a full slot of a registered table passes `slot_refs`. -/
theorem CapInv.slotRefs (h : CapInv k) (ht : k.TableLive t)
    (hocc : ((k.table t).slots i).occupied = true) : k.SlotRefs ((k.table t).slots i) := by
  obtain ⟨hg, hrt, hrt', o, ho, hid⟩ := ((h.table t ht).slots i).full hocc
  refine ⟨hocc, hg, hrt, hrt', ?_⟩
  rw [ho]
  exact ⟨hid, h.refs_ne_zero ht hocc ho⟩

theorem held_le_capacity (table : CapabilityTable) :
    held table.names ≤ capabilityTableCapacity :=
  (Finset.card_le_univ _).trans (Fintype.card_fin _).le

/-- `table_valid` holds for every registered table. -/
theorem CapInv.tableValid (h : CapInv k) (ht : k.TableLive t) : k.TableValid t := by
  have hok := h.table t ht
  refine ⟨ht, hok.initialized, hok.count ▸ held_le_capacity _, fun i => ?_, ?_⟩
  · split_ifs with hocc
    · exact h.slotRefs ht hocc
    · exact (hok.slots i).free (by simpa using hocc)
  · rw [hok.occupied_eq, hok.count]

/-! ### Stores to one slot -/

/-- The stores of an insert or a deletion: a slot and the count of its table, the objects
and the issuers. -/
def storeSlot (k : CapState) (t : TableRef) (i : Fin capabilityTableCapacity)
    (slot : CapabilitySlot) (count : Nat) (objects : Objects)
    (next : Fin capabilityTableCapacity → Nat) : CapState :=
  { k.setTable t { k.table t with
      slots := update (k.table t).slots i slot, count := count } with
    toObjects := objects, nextGeneration := next }

section Store

variable {slot : CapabilitySlot} {count : Nat} {objects : Objects}
  {next : Fin capabilityTableCapacity → Nat}

theorem storeSlot_table_self : (k.storeSlot t i slot count objects next).table t =
    { k.table t with slots := update (k.table t).slots i slot, count := count } := by
  simp [storeSlot, setTable]

theorem storeSlot_table_of_ne {t' : TableRef} (h : t' ≠ t) :
    (k.storeSlot t i slot count objects next).table t' = k.table t' := by
  simp [storeSlot, setTable, h]

theorem names_storeSlot : ((k.storeSlot t i slot count objects next).table t).names =
    update (k.table t).names i slot.named := by
  rw [storeSlot_table_self]
  exact comp_update CapabilitySlot.named ..

theorem holders_storeSlot (hn : k.tables.Nodup) (hr : k.tables r = some t) :
    (k.storeSlot t i slot count objects next).holders =
      update k.holders (r, i) slot.named := by
  refine eq_update_iff.mpr ⟨?_, fun ⟨r', j⟩ hne => ?_⟩
  · show (k.tables r).bind _ = _
    rw [hr, Option.bind_some, names_storeSlot, update_self]
  · refine Option.bind_congr fun t' hr' => ?_
    by_cases htt : t' = t
    · subst htt
      have hj : j ≠ i := fun hj => hne (by rw [hj, hn r' r t' hr' hr])
      rw [names_storeSlot, update_of_ne hj]
    · rw [storeSlot_table_of_ne htt]

/-- A store to one slot of a registered table keeps the invariant if the slot is in order
and the counts follow. -/
theorem CapInv.storeSlot (h : CapInv k) (hr : k.tables r = some t) {n g o : Nat}
    (hlive : k.Live (type, o))
    (hcount : count = held (update (k.table t).names i slot.named))
    (hslot : SlotOk { k with nextGeneration := update k.nextGeneration i g } i slot)
    (hg : k.nextGeneration i ≤ g) (hmax : g ≤ capabilityGenerationMax + 1)
    (hc : Counted k.Live (k.setRefs o n type).refsOf
      (update k.holders (r, i) slot.named)) :
    CapInv (k.storeSlot t i slot count (k.setRefs o n type)
      (update k.nextGeneration i g)) := by
  have hnext : k.nextGeneration ≤ update k.nextGeneration i g :=
    le_update_self_iff.mpr hg
  -- generations only grow, so what the other slots say stays true
  have hkeep : ∀ j s, k.SlotOk j s → SlotOk (k.storeSlot t i slot count (k.setRefs o n type)
      (update k.nextGeneration i g)) j s := fun j s hs =>
    hs.transfer (hnext j) fun x id _ hid => Objects.objectIdentity_setRefs.trans hid
  refine ⟨h.objects.setRefs hlive n, h.tables, fun hinit j => ?_, h.started, fun t' ht' => ?_, ?_⟩
  · by_cases hj : j = i
    · subst hj
      have := (h.issuers hinit j).1
      simp only [CapState.storeSlot, update_self]
      omega
    · simp only [CapState.storeSlot, update_of_ne hj]
      exact h.issuers hinit j
  · by_cases htt : t' = t
    · subst htt
      refine ⟨?_, ?_, fun j => ?_⟩
      · rw [storeSlot_table_self]
        exact (h.table t' ht').initialized
      · rw [names_storeSlot, ← hcount, storeSlot_table_self]
      · rw [storeSlot_table_self]
        by_cases hj : j = i
        · subst hj
          simp only [update_self]
          exact hslot.transfer le_rfl fun x id _ hid => Objects.objectIdentity_setRefs.trans hid
        · simp only [update_of_ne hj]
          exact hkeep j _ ((h.table t' ht').slots j)
    · rw [storeSlot_table_of_ne htt]
      have hok := h.table t' ht'
      exact { hok with slots := fun j => hkeep j _ (hok.slots j) }
  · rw [holders_storeSlot h.tables hr]
    show Counted (k.setRefs o n type).Live _ _
    rw [Objects.live_setRefs]
    exact hc

end Store

/-! ### Inserting and deleting -/

theorem Live_of_objectIdentity (h : k.objectIdentity o false type = some id) : k.Live (type, o) :=
  (Objects.objectIdentity_eq_some.mp h).1

theorem valid_of_objectIdentity (h : k.objectIdentity o false type = some id) : type.Valid := by
  rintro rfl
  cases h

theorem CapInv.fillSlot (h : CapInv k) (ht : k.TableLive t) {rights : CapabilityRights}
    (hfree : ((k.table t).slots i).occupied = false) (hgen : k.CanTakeGeneration i)
    (hrights : rights ≠ 0) (hall : rights &&& ~~~ capabilityRightAll = 0)
    (hid : k.objectIdentity o false type = some id) :
    CapInv (k.fillSlot t i o id type rights) := by
  obtain ⟨r, hr⟩ := ht
  have hlive := Live_of_objectIdentity hid
  have hnone : (k.table t).names i = none := named_of_free hfree
  refine h.storeSlot hr hlive ?_ ⟨?_, fun _ => ⟨hgen.1, hrights, hall, o, rfl, hid⟩, fun h0 => ?_⟩
    (Nat.le_succ _) (Nat.succ_le_succ hgen.2) ?_
  · rw [(h.table t ⟨r, hr⟩).count, ← held_update_some hnone]
    rfl
  · simp
  · cases h0
  · have hnone' : k.holders (r, i) = none := (holders_of_slot hr i).trans hnone
    rw [Objects.refsOf_setRefs (valid_of_objectIdentity hid)]
    exact h.counted.acquire hnone' hlive

/-- What `delete_slot` leaves of a slot. -/
def cleared (slot : CapabilitySlot) : CapabilitySlot :=
  { CapabilitySlot.zero with generation := slot.generation }

theorem deleteSlot_eq (ho : ((k.table t).slots i).object = some o) :
    k.deleteSlot t i = k.storeSlot t i (cleared ((k.table t).slots i)) ((k.table t).count - 1)
      (k.setRefs o (k.refs o ((k.table t).slots i).type - 1) ((k.table t).slots i).type)
      k.nextGeneration := by
  simp only [deleteSlot, ho]
  rfl

theorem CapInv.deleteSlot (h : CapInv k) (ht : k.TableLive t)
    (hocc : ((k.table t).slots i).occupied = true) : CapInv (k.deleteSlot t i) := by
  obtain ⟨r, hr⟩ := ht
  have hslot := (h.table t ⟨r, hr⟩).slots i
  obtain ⟨-, -, -, o, ho, hid⟩ := hslot.full hocc
  have hname : (k.table t).names i = some (((k.table t).slots i).type, o) := named_of_full hocc ho
  rw [deleteSlot_eq ho, ← update_eq_self i k.nextGeneration]
  refine h.storeSlot hr (Live_of_objectIdentity hid) ?_
    ⟨?_, fun h0 => (by cases h0), fun _ => ⟨rfl, rfl, rfl, rfl⟩⟩ le_rfl
    (h.issuers (h.started t ⟨r, hr⟩) i).2 ?_
  · have hheld := held_update_none hname
    rw [(h.table t ⟨r, hr⟩).count, ← hheld]
    exact Nat.add_sub_cancel ..
  · simp only [update_self]
    exact hslot.issued
  · rw [Objects.refsOf_setRefs (valid_of_objectIdentity hid)]
    exact h.counted.release (holders_of_full hr hocc ho)

/-- The loop of `delete_selected`, over any indices. -/
theorem CapInv.deleteLoop (h : CapInv k) (ht : k.TableLive t) (target : Option (Nat × CapabilityType))
    (is : List (Fin capabilityTableCapacity)) : CapInv (k.deleteLoop t target is) := by
  induction is generalizing k with
  | nil => exact h
  | cons i is ih =>
    show CapInv (CapState.deleteLoop (if _ then _ else _) t target is)
    split_ifs with hsel
    · exact ih (h.deleteSlot ht hsel.1) ht
    · exact ih h ht

/-! ### The operations -/

/-- The calls of `capability.c` that change tables. -/
inductive CapCall
  | tableInit (t : TableRef)
  | tableDestroy (t : TableRef)
  | insert (t : TableRef) (object : Nat) (type : CapabilityType) (rights : CapabilityRights)
  | revoke (t : TableRef) (handle : CapabilityHandle)
  | revokeAll (t : TableRef)
  | revokeObject (t : TableRef) (object : Nat) (type : CapabilityType)

/-- The call returns false (`none`) or true; an insert also stores a handle. -/
def CapCall.exec (k : CapState) : CapCall → Option CapabilityHandle × CapState
  | .tableInit t => returning (k.capabilityTableInit t)
  | .tableDestroy t => returning (k.capabilityTableDestroy t)
  | .insert t object type rights => k.capabilityInsert t object type rights
  | .revoke t handle => returning (k.capabilityRevoke t handle)
  | .revokeAll t => returning (k.capabilityRevokeAll t)
  | .revokeObject t object type => returning (k.capabilityRevokeObject t object type)
where
  returning (r : Bool × CapState) : Option CapabilityHandle × CapState :=
    (if r.1 then some 0 else none, r.2)

/-- What a call can do. -/
inductive CapEffect (k : CapState) : CapCall → Option CapabilityHandle → CapState → Prop
  | refused (c : CapCall) : CapEffect k c none k
  | tableInit {t : TableRef} {slot : Fin capabilityTableStorageCapacity}
      {next : Fin capabilityTableCapacity → Nat} (hslot : k.tables slot = none)
      (hdead : ¬ k.TableLive t)
      (hnext : if k.issuersInitialized then next = k.nextGeneration else next = fun _ => 1) :
      CapEffect k (.tableInit t) (some 0) { k with
        table := update k.table t { CapabilityTable.zero with initialized := true }
        tables := k.tables.put slot t
        nextGeneration := next
        issuersInitialized := true }
  | tableDestroy {t : TableRef} {slot : Fin capabilityTableStorageCapacity}
      (hslot : k.tables slot = some t) (hcount : (k.table t).count = 0) :
      CapEffect k (.tableDestroy t) (some 0) { k with
        table := update k.table t .zero, tables := k.tables.clear slot }
  | insert {t : TableRef} {i : Fin capabilityTableCapacity} {o id : Nat} {type : CapabilityType}
      {rights : CapabilityRights} (ht : k.TableLive t) (hrights : rights ≠ 0)
      (hall : rights &&& ~~~ capabilityRightAll = 0)
      (hid : k.objectIdentity o true type = some id) (hi : k.insertIndex t = some i) :
      CapEffect k (.insert t o type rights) (some (capabilityHandle (k.nextGeneration i) i))
        (k.fillSlot t i o id type rights)
  | revoke {t : TableRef} {handle : CapabilityHandle} {i : Fin capabilityTableCapacity}
      (hi : k.resolveSlot t handle = some i) :
      CapEffect k (.revoke t handle) (some 0) (k.deleteSlot t i)
  | revokeAll {t : TableRef} (ht : k.TableLive t) : CapEffect k (.revokeAll t) (some 0)
      (k.deleteLoop t none (List.finRange capabilityTableCapacity))
  | revokeObject {t : TableRef} {o : Nat} {type : CapabilityType} (ht : k.TableLive t) :
      CapEffect k (.revokeObject t o type) (some 0)
        (k.deleteLoop t (some (o, type)) (List.finRange capabilityTableCapacity))

/-- The slot that an insert fills is the first that is free and not exhausted. -/
theorem insertIndex_spec (h : k.insertIndex t = some i) :
    ((k.table t).slots i).occupied = false ∧ k.CanTakeGeneration i ∧
      ∀ j < i, ((k.table t).slots j).occupied = true ∨ ¬ k.CanTakeGeneration j := by
  obtain ⟨hi, hlt⟩ := Fin.find?_eq_some_iff.mp h
  simp only [decide_eq_true_eq] at hi
  refine ⟨hi.1, hi.2, fun j hj => ?_⟩
  have hskip := hlt j hj
  simp only [decide_eq_false_iff_not, not_and] at hskip
  by_cases hocc : ((k.table t).slots j).occupied = true
  · exact .inl hocc
  · exact .inr (hskip (by simpa using hocc))

theorem resolveSlot_spec {handle : CapabilityHandle} (h : k.resolveSlot t handle = some i) :
    k.TableLive t ∧ ((k.table t).slots i).occupied = true ∧ i.val = handle.toNat % 2 ^ 32 ∧
      ((k.table t).slots i).generation = handle.toNat / 2 ^ 32 := by
  unfold resolveSlot at h
  split at h
  · cases h
  · rename_i hok
    simp only [not_or, not_not] at hok
    dsimp only at h
    split at h
    · split at h
      · cases h
      · rename_i hslot
        simp only [not_or, not_not] at hslot
        obtain rfl := Option.some.inj h
        exact ⟨hok.1, hslot.2.2.1, rfl, hslot.2.1⟩
    · cases h

theorem deleteSelected_cases (k : CapState) (t : TableRef) (target : Option (Nat × CapabilityType)) :
    k.deleteSelected t target = (false, k) ∨
    k.TableLive t ∧ k.deleteSelected t target =
      (true, k.deleteLoop t target (List.finRange capabilityTableCapacity)) := by
  unfold deleteSelected
  split_ifs with hbad
  · exact .inl rfl
  · simp only [not_or, not_not] at hbad
    exact .inr ⟨hbad.1.1, rfl⟩

theorem CapCall.effect (k : CapState) (c : CapCall) : CapEffect k c (c.exec k).1 (c.exec k).2 := by
  have hfalse : ∀ c, CapEffect k c (exec.returning (false, k)).1 (exec.returning (false, k)).2 := .refused
  have htrue : ∀ {c k'}, CapEffect k c (some 0) k' →
      CapEffect k c (exec.returning (true, k')).1 (exec.returning (true, k')).2 := fun h => h
  cases c with
  | tableInit t =>
    unfold exec capabilityTableInit
    rcases hslot : k.tables.firstEmpty with _ | slot <;> simp only
    · exact hfalse _
    · have hslot := Slots.get_of_firstEmpty hslot
      split_ifs with hlive hinit
      · exact hfalse _
      · refine htrue ?_
        -- only the first table sets the generations up
        simpa only [hinit, setTable] using
          @CapEffect.tableInit k t slot k.nextGeneration hslot hlive (by simp [hinit])
      · exact htrue (.tableInit hslot hlive (by simp [hinit, setTable]))
  | tableDestroy t =>
    unfold exec capabilityTableDestroy
    rcases hslot : k.tables.find t with _ | slot <;> simp only [hslot]
    · exact hfalse _
    · split_ifs with hbad
      · exact hfalse _
      · simp only [not_or, not_not] at hbad
        exact htrue (.tableDestroy (Slots.get_of_find hslot) hbad.2)
  | insert t o type rights =>
    simp only [exec, capabilityInsert]
    split
    · exact .refused _
    · rename_i hok
      simp only [not_or, not_not] at hok
      split
      · exact .refused _
      · rename_i id hid
        split
        · exact .refused _
        · split
          · exact .refused _
          · rename_i i hi
            exact .insert hok.1.1 hok.2.2.1 hok.2.2.2.1 hid hi
  | revoke t handle =>
    unfold exec capabilityRevoke
    rcases hi : k.resolveSlot t handle with _ | i <;> simp only [hi]
    · exact hfalse _
    · split_ifs
      · exact htrue (.revoke hi)
      · exact hfalse _
  | revokeAll t =>
    simp only [exec, capabilityRevokeAll]
    obtain he | ⟨hlive, he⟩ := deleteSelected_cases k t none <;> rw [he]
    · exact hfalse _
    · exact htrue (.revokeAll hlive)
  | revokeObject t o type =>
    simp only [exec, capabilityRevokeObject]
    split_ifs
    · obtain he | ⟨hlive, he⟩ := deleteSelected_cases k t (some (o, type)) <;> rw [he]
      · exact hfalse _
      · exact htrue (.revokeObject hlive)
    · exact hfalse _

/-- A call that returns false changes nothing. -/
theorem CapCall.exec_eq_of_none (c : CapCall) (h : (c.exec k).1 = none) : (c.exec k).2 = k := by
  have he := c.effect k
  rw [h] at he
  generalize (c.exec k).2 = k' at he ⊢
  cases he
  rfl

/-- The slots of one table name an object at most as often as it is referenced, so
`delete_selected` never runs out of references. -/
theorem CapInv.deletionCovered (h : CapInv k) (ht : k.TableLive t)
    (target : Option (Nat × CapabilityType)) : k.DeletionCovered t target := by
  intro i hsel
  refine ⟨h.slotRefs ht hsel.1, fun o ho => ?_⟩
  obtain ⟨r, hr⟩ := ht
  have hmatching : k.matching t ((k.table t).slots i) =
      pins (fun j => k.holders (r, j)) (((k.table t).slots i).type, o) := by
    unfold matching pins
    congr 1
    ext j
    simp only [holders_of_slot hr,
      CapabilitySlot.named, ho]
    cases ((k.table t).slots j).occupied <;> simp
  calc k.matching t ((k.table t).slots i)
      = pins (fun j => k.holders (r, j)) (((k.table t).slots i).type, o) := hmatching
    _ ≤ pins k.holders (((k.table t).slots i).type, o) :=
        pins_comp_le fun _ _ hj => (Prod.mk.inj hj).2
    _ = k.refs o ((k.table t).slots i).type :=
        (h.counted.exact _ (h.counted.pinned_live _ _ (holders_of_full hr hsel.1 ho))).symm

/-! ### Preservation -/

theorem held_zero (init : Bool) : held ({ CapabilityTable.zero with initialized := init }).names = 0 :=
  held_eq_zero.mpr fun _ => rfl

/-- A table that names nothing is registered or not: no holder changes. -/
theorem holders_of_empty {table : CapabilityTable} {x : Option TableRef}
    (htable : k'.table = update k.table t table)
    (htables : k'.tables = update k.tables r x) (hempty : ∀ j, k.holders (r, j) = none)
    (hnames : ∀ t' ∈ x, t' = t ∧ ∀ j, table.names j = none)
    (hother : ∀ r' ≠ r, k.tables r' ≠ some t) : k'.holders = k.holders := by
  funext ⟨r', j⟩
  rw [holders, htables, htable]
  by_cases hr : r' = r
  · subst hr
    rw [update_self, hempty]
    cases x with
    | none => rfl
    | some t' =>
      obtain ⟨rfl, hnone⟩ := hnames t' rfl
      rw [Option.bind_some, update_self, hnone]
  · rw [update_of_ne hr, holders]
    cases hr2 : k.tables r' with
    | none => rfl
    | some t' =>
      have htt : t' ≠ t := by
        rintro rfl
        exact hother r' hr hr2
      rw [Option.bind_some, Option.bind_some, update_of_ne htt]

theorem CapInv.tableInit (h : CapInv k) {x : CapabilityHandle}
    (he : CapEffect k (.tableInit t) (some x) k') : CapInv k' := by
  cases he with
  | @tableInit _ slot next hslot hdead hnext =>
  have hpos : ∀ j, 0 < next j ∧ next j ≤ capabilityGenerationMax + 1 := by
    intro j
    split_ifs at hnext with hinit
    · rw [hnext]
      exact h.issuers hinit j
    · rw [hnext]
      exact ⟨Nat.one_pos, Nat.succ_le_succ (Nat.zero_le _)⟩
  refine ⟨h.objects, Slots.nodup_put h.tables hdead, fun _ => hpos, fun _ _ => rfl,
    fun t' ht' => ?_, ?_⟩
  · rcases (Slots.live_put hslot).mp ht' with rfl | hlive
    · simp only [update_self]
      exact ⟨rfl, (held_zero true).symm, fun j => ⟨(hpos j).1, fun h0 => (by cases h0),
        fun _ => ⟨rfl, rfl, rfl, rfl⟩⟩⟩
    · have htt : t' ≠ t := by
        rintro rfl
        exact hdead hlive
      simp only [update_of_ne htt]
      rw [if_pos (h.started t' hlive)] at hnext
      subst hnext
      have hok := h.table t' hlive
      exact { hok with slots := fun j => (hok.slots j).transfer le_rfl fun _ _ _ hid => hid }
  · rw [holders_of_empty rfl rfl (fun j => by simp [holders, hslot]) ?_
      fun r' _ hr' => hdead ⟨r', hr'⟩]
    · exact h.counted
    · rintro t' ⟨⟩
      exact ⟨rfl, fun _ => rfl⟩

theorem CapInv.tableDestroy (h : CapInv k) {x : CapabilityHandle}
    (he : CapEffect k (.tableDestroy t) (some x) k') : CapInv k' := by
  cases he with
  | @tableDestroy _ slot hslot hcount =>
  have hempty : ∀ j, (k.table t).names j = none :=
    held_eq_zero.mp ((h.table t ⟨slot, hslot⟩).count ▸ hcount)
  have hne : ∀ {t'}, (k.tables.clear slot).Live t' → t' ≠ t ∧ k.TableLive t' :=
    fun ht' => (Slots.live_clear h.tables hslot).mp ht'
  refine ⟨h.objects, Slots.nodup_clear h.tables, h.issuers, fun t' ht' => h.started t' (hne ht').2,
    fun t' ht' => ?_, ?_⟩
  · obtain ⟨htt, hlive⟩ := hne ht'
    simp only [update_of_ne htt]
    have hok := h.table t' hlive
    exact { hok with slots := fun j => (hok.slots j).transfer le_rfl fun _ _ _ hid => hid }
  · rw [holders_of_empty (x := none) rfl rfl (fun j => (holders_of_slot hslot j).trans (hempty j)) nofun
      fun r' hr hr' => hr (h.tables r' slot t hr' hslot)]
    exact h.counted

/-- The objects may come and go as `Objects.Step` says. -/
theorem CapInv.objectStep (h : CapInv k) {objects : Objects} (hs : Objects.Step k.toObjects objects) :
    CapInv { k with toObjects := objects } := by
  have hev := hs.evolves h.objects
  have hlife := hev.lifecycle
  have hcounted : Counted objects.Live objects.refsOf k.holders := h.counted.lifecycle hlife
  refine ⟨hev.ok h.objects, h.tables, h.issuers, h.started, fun t ht => ?_, hcounted⟩
  have hok := h.table t ht
  obtain ⟨r, hr⟩ := ht
  refine ⟨hok.initialized, hok.count, fun i => (hok.slots i).transfer le_rfl fun x id hx hid => ?_⟩
  -- a named object is pinned, so it is still there with the same name
  have hpin : k.holders (r, i) = some x := (holders_of_slot hr i).trans hx
  obtain ⟨hlive, hname⟩ := Objects.objectIdentity_eq_some.mp hid
  have hlive' := hcounted.pinned_live _ _ hpin
  exact Objects.objectIdentity_eq_some.mpr
    ⟨hlive', ((hlife.kept x hlive hlive').2).trans hname⟩

/-! ### Runs -/

inductive CapLabel
  | call (c : CapCall) (result : Option CapabilityHandle)
  | objects

/-- A call, or a step of the objects. -/
inductive CapStep : CapState → CapLabel → CapState → Prop
  | call (k : CapState) (c : CapCall) : CapStep k (.call c (c.exec k).1) (c.exec k).2
  | objects {k : CapState} {objects : Objects} (h : Objects.Step k.toObjects objects) :
      CapStep k .objects { k with toObjects := objects }

/-- The static state before anything has been initialised: no objects and no tables. -/
structure CapBoot (k : CapState) : Prop where
  threads : k.sched.storage = Slots.empty
  spaces : k.spaces.storage = Slots.empty
  endpoints : k.endpoints.storage = Slots.empty
  resources : k.resources.storage = Slots.empty
  kernelSpace : (k.spaces.space k.spaces.kernelSpace).capabilityRefs = 0
  tables : k.tables = Slots.empty
  issuers : k.issuersInitialized = false

theorem CapBoot.not_live (h : CapBoot k) (x : Named) : ¬ k.Live x := by
  obtain ⟨ty, o⟩ := x
  cases ty with
  | none => exact fun hl => hl
  | thread => simp [Objects.Live, ThreadState.threadStorageLive, h.threads]
  | addressSpace => simp [Objects.Live, SpaceState.SpaceStorageLive, h.spaces]
  | endpoint => simp [Objects.Live, EndpointState.EndpointLive, h.endpoints]
  | deviceResource => simp [Objects.Live, h.resources]

theorem CapBoot.inv (h : CapBoot k) : CapInv k := by
  have hnone : ∀ p, k.holders p = none := by simp [holders, h.tables, Slots.empty]
  have hdead : ∀ t, ¬ k.TableLive t := by simp [TableLive, h.tables]
  refine ⟨⟨?_, ?_, ?_, ?_, fun x hx => absurd hx (h.not_live x), fun _ t => h.not_live (.thread, t),
    fun _ a => h.not_live (.addressSpace, a), fun _ => h.kernelSpace⟩, ?_, fun h0 => ?_,
    fun t ht => absurd ht (hdead t), fun t ht => absurd ht (hdead t),
    ⟨fun x hx => absurd hx (h.not_live x), fun p x hx => ?_⟩⟩
  · exact h.threads ▸ Slots.nodup_empty
  · exact h.spaces ▸ Slots.nodup_empty
  · exact h.endpoints ▸ Slots.nodup_empty
  · exact h.resources ▸ Slots.nodup_empty
  · exact h.tables ▸ Slots.nodup_empty
  · rw [h.issuers] at h0
    cases h0
  · rw [hnone] at hx
    cases hx

theorem CapInv.effect (h : CapInv k) {c : CapCall} {x : Option CapabilityHandle}
    (he : CapEffect k c x k') : CapInv k' := by
  cases he with
  | refused => exact h
  | tableInit hslot hdead hnext => exact h.tableInit (.tableInit hslot hdead hnext)
  | tableDestroy hslot hcount => exact h.tableDestroy (.tableDestroy hslot hcount)
  | insert ht hrights hall hid hi =>
    obtain ⟨hfree, hgen, -⟩ := insertIndex_spec hi
    exact h.fillSlot ht hfree hgen hrights hall (Objects.objectIdentity_of_inserting hid)
  | revoke hi =>
    obtain ⟨hlive, hocc, -⟩ := resolveSlot_spec hi
    exact h.deleteSlot hlive hocc
  | revokeAll ht | revokeObject ht => exact h.deleteLoop ht _ _

theorem CapInv.step {l : CapLabel} (h : CapInv k) (hs : CapStep k l k') : CapInv k' := by
  cases hs with
  | call c => exact h.effect (c.effect k)
  | objects ho => exact h.objectStep ho

theorem CapInv.of_run {k0 : CapState} {ls : List CapLabel} (hboot : CapBoot k0)
    (h : Run CapStep k0 ls k) : CapInv k :=
  h.invariant hboot.inv fun _ _ _ hi hs => hi.step hs

/-! ### Exact pins -/

/-- Pins are exact and do not dangle. -/
structure PinsExact (k : CapState) : Prop where
  /-- The counter of a live object is the number of full slots of registered tables that
  name it. -/
  refs : ∀ type o, k.Live (type, o) → k.refs o type = pins k.holders (type, o)
  /-- A full slot names a live object, whose identity it has recorded. -/
  slots : ∀ t, k.TableLive t → ∀ i, ((k.table t).slots i).occupied = true →
    ∃ o, ((k.table t).slots i).object = some o ∧ k.Live (((k.table t).slots i).type, o) ∧
      k.idOf (((k.table t).slots i).type, o) = ((k.table t).slots i).objectId
  count : ∀ t, k.TableLive t → (k.table t).count = occupied (k.table t)
  valid : ∀ t, k.TableLive t → k.TableValid t
  /-- An object that a capability names cannot be destroyed. -/
  pinned : ∀ t, k.TableLive t → ∀ i o, ((k.table t).slots i).occupied = true →
    ((k.table t).slots i).object = some o → k.DestroyRefused (((k.table t).slots i).type, o)
  /-- A call that returns false changes nothing. -/
  refused : ∀ c : CapCall, (c.exec k).1 = none → (c.exec k).2 = k

theorem CapInv.pinsExact (h : CapInv k) : PinsExact k := by
  refine ⟨fun type o hl => h.counted.exact (type, o) hl, fun t ht i hocc => ?_, fun t ht => ?_,
    fun t ht => h.tableValid ht, fun t ht i o hocc ho => ?_, fun c => c.exec_eq_of_none⟩
  · obtain ⟨-, -, -, o, ho, hid⟩ := ((h.table t ht).slots i).full hocc
    obtain ⟨hlive, hname⟩ := Objects.objectIdentity_eq_some.mp hid
    exact ⟨o, ho, hlive, Objects.idOf_of_nameOf hname⟩
  · rw [(h.table t ht).occupied_eq, (h.table t ht).count]
  · exact Objects.destroyRefused_of_refs (h.refs_ne_zero ht hocc ho)

/-- Along every run of capability calls and of creations and destructions of objects,
from a state without objects, capability pins are exact and never dangle. -/
theorem pins_exact_of_run {k₀ : CapState} {ls : List CapLabel} (hboot : CapBoot k₀)
    (h : Run CapStep k₀ ls k) : PinsExact k :=
  (CapInv.of_run hboot h).pinsExact

/-- A state in which nothing has been initialised. -/
def unbooted : CapState where
  sched := {
    thread := fun _ => .zero, currentThread := none, nextThreadId := 0, nextWaitId := 1,
    initialized := false, storage := Slots.empty, unpublishedStack := 0,
    unpublishedStackVirtual := 0, runHead := none, runTail := none, runCount := 0,
    schedInitialized := false, preemptionEnabled := false, idleStackPhysical := 0,
    idleStackBase := 0, idleStackTop := 0, idleContextReady := false, idleActive := false }
  spaces := {
    space := fun _ => ⟨0, .invalid, false, 0⟩, kernelSpace := 1, kernelReady := false, nextId := 0,
    storage := Slots.empty, unpublishedMap := .invalid }
  endpoints := {
    endpoint := fun _ => .zero, nextEndpointId := 0, initialized := false, storage := Slots.empty }
  resources := { resource := fun _ => .zero, nextId := 1, storage := Slots.empty }
  table := fun _ => .zero
  tables := Slots.empty
  nextGeneration := fun _ => 0
  issuersInitialized := false

theorem capBoot_unbooted : CapBoot unbooted := ⟨rfl, rfl, rfl, rfl, rfl, rfl, rfl⟩

/-- A device resource is created and two capabilities to it are inserted into one table. -/
def twoGrants : CapState :=
  let k := { unbooted with resources := (unbooted.resources.deviceResourceCreate 5 .display).2 }
  let k := ((CapCall.tableInit 9).exec k).2
  let k := ((CapCall.insert 9 5 .deviceResource 1).exec k).2
  ((CapCall.insert 9 5 .deviceResource 3).exec k).2

theorem run_twoGrants : ∃ ls, Run CapStep unbooted ls twoGrants :=
  ⟨_, .snoc (.snoc (.snoc (.single (.objects (.deviceResourceCreate 5 .display))) (.call _ _))
    (.call _ _)) (.call _ _)⟩

theorem pins_exact_twoGrants : PinsExact twoGrants ∧ twoGrants.Live (.deviceResource, 5) ∧
    twoGrants.refs 5 .deviceResource = 2 := by
  obtain ⟨ls, hrun⟩ := run_twoGrants
  exact ⟨pins_exact_of_run capBoot_unbooted hrun, by
    show Slots.Live _ _
    decide +kernel, by decide +kernel⟩

end CapState

end JcosKernel
