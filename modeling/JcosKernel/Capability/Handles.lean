import JcosKernel.Capability.Pins

/-!
# JcosKernel.Capability.Handles

Capability handles over whole runs. A grant is what a successful insert handed out; it
is active until a revocation covers it or its table is destroyed. `HandleInv` says that
the full slots of the registered tables are exactly the active grants, and that every
handle handed out lies below the issuer of its index, so no handle is issued twice and
none that has been deleted is ever found again.
-/

namespace JcosKernel

open Lib

/-! ### Handles -/

variable {P : Fin capabilityTableCapacity → Prop} {handle : CapabilityHandle}
  {type : CapabilityType} {required rights : CapabilityRights} {o : Nat}

section Layout

variable {g g' : Nat} {i j : Fin capabilityTableCapacity}

section

variable (hg : g ≤ capabilityGenerationMax)
include hg

theorem capabilityHandle_toNat : (capabilityHandle g i).toNat = g * 2 ^ 32 + i.val := by
  have hi : i.val < 64 := i.isLt
  unfold capabilityGenerationMax at hg
  rw [capabilityHandle, BitVec.toNat_ofNat]
  omega

theorem capabilityHandle_index : (capabilityHandle g i).toNat % 2 ^ 32 = i.val := by
  have hi : i.val < 64 := i.isLt
  rw [capabilityHandle_toNat hg]
  omega

theorem capabilityHandle_generation : (capabilityHandle g i).toNat / 2 ^ 32 = g := by
  have hi : i.val < 64 := i.isLt
  rw [capabilityHandle_toNat hg]
  omega

theorem capabilityHandle_inj (hg' : g' ≤ capabilityGenerationMax)
    (h : capabilityHandle g i = capabilityHandle g' j) : g = g' ∧ i = j := by
  constructor
  · rw [← capabilityHandle_generation hg, h, capabilityHandle_generation hg']
  · rw [Fin.ext_iff, ← capabilityHandle_index hg, h, capabilityHandle_index hg']

theorem capabilityHandle_ne_zero (hpos : 0 < g) : capabilityHandle g i ≠ 0 := by
  intro h
  have := capabilityHandle_generation (i := i) hg
  rw [h] at this
  simp at this
  omega

end

theorem capabilityHandle_of_parts (hg : g = handle.toNat / 2 ^ 32)
    (hi : i.val = handle.toNat % 2 ^ 32) : capabilityHandle g i = handle := by
  rw [capabilityHandle, hg, hi, Nat.div_add_mod', BitVec.ofNat_toNat, BitVec.setWidth_eq]

end Layout

/-! ### Grants -/

/-- What a successful insert handed out. -/
structure Grant where
  table : TableRef
  handle : CapabilityHandle
  object : Nat
  type : CapabilityType
  rights : CapabilityRights
  deriving DecidableEq

namespace CapState

/-- The grant that a step made. -/
def CapLabel.grant : CapLabel → Option Grant
  | .call (.insert t object type rights) (some handle) => some ⟨t, handle, object, type, rights⟩
  | _ => none

/-- The step deleted the slot of the grant, or ended its table. -/
def CapLabel.Deletes : CapLabel → Grant → Prop
  | .call (.tableDestroy t) (some _), g => g.table = t
  | .call (.revoke t handle) (some _), g => g.table = t ∧ g.handle = handle
  | .call (.revokeAll t) (some _), g => g.table = t
  | .call (.revokeObject t object type) (some _), g =>
    g.table = t ∧ g.object = object ∧ g.type = type
  | _, _ => False

/-- The handles that inserts have returned, in order. -/
def issuedHandles (ls : List CapLabel) : List CapabilityHandle :=
  ls.filterMap fun l => l.grant.map Grant.handle

/-- The grant was made and has not been deleted since. -/
def ActiveGrant (ls : List CapLabel) (g : Grant) : Prop :=
  Active (fun l g => l.grant = some g) CapLabel.Deletes ls g

/-- A full slot of a registered table carries the grant. -/
def Holds (k : CapState) (g : Grant) : Prop :=
  k.TableLive g.table ∧ ∃ i, ((k.table g.table).slots i).occupied = true ∧
    g.handle = capabilityHandle ((k.table g.table).slots i).generation i ∧
    ((k.table g.table).slots i).object = some g.object ∧
    ((k.table g.table).slots i).type = g.type ∧ ((k.table g.table).slots i).rights = g.rights

variable {k k' : CapState} {t : TableRef} {i : Fin capabilityTableCapacity} {g : Grant}

theorem CapInv.generation_le (h : CapInv k) (ht : k.TableLive t) (i : Fin capabilityTableCapacity) :
    ((k.table t).slots i).generation ≤ capabilityGenerationMax := by
  have hissued := ((h.table t ht).slots i).issued
  have hmax := (h.issuers (h.started t ht) i).2
  omega

/-! ### What the operations do to the slots -/

/-- Some slots of one table are cleared, the others stay. -/
structure Cleared (k k' : CapState) (t : TableRef) (P : Fin capabilityTableCapacity → Prop) :
    Prop where
  tables : k'.tables = k.tables
  nextGeneration : k'.nextGeneration = k.nextGeneration
  issuers : k'.issuersInitialized = k.issuersInitialized
  others : ∀ t', t' ≠ t → k'.table t' = k.table t'
  gone : ∀ i, P i → (k'.table t).slots i = cleared ((k.table t).slots i)
  kept : ∀ i, ¬ P i → (k'.table t).slots i = (k.table t).slots i

theorem deleteSlot_cleared (k : CapState) (t : TableRef) (i : Fin capabilityTableCapacity) :
    Cleared k (k.deleteSlot t i) t (· = i) := by
  refine ⟨rfl, rfl, rfl, fun t' ht' => ?_, fun j hj => ?_, fun j hj => ?_⟩
  · simp [deleteSlot, setTable, ht']
  · subst hj
    simp [deleteSlot, setTable, cleared]
  · simp [deleteSlot, setTable, hj]

/-- The loop of `delete_selected` clears the selected slots among those it visits. -/
theorem deleteLoop_cleared (k : CapState) (t : TableRef) (target : Option (Nat × CapabilityType))
    (is : List (Fin capabilityTableCapacity)) :
    Cleared k (k.deleteLoop t target is) t
      (fun i => i ∈ is ∧ Selected target ((k.table t).slots i)) := by
  induction is generalizing k with
  | nil => exact ⟨rfl, rfl, rfl, fun _ _ => rfl, fun _ hi => absurd hi.1 List.not_mem_nil,
      fun _ _ => rfl⟩
  | cons i is ih =>
    show Cleared k (CapState.deleteLoop (if _ then _ else _) t target is) t _
    split_ifs with hsel
    · have hstep := deleteSlot_cleared k t i
      have hrest := ih (k.deleteSlot t i)
      -- slot `i` is free now, so the rest of the loop leaves it alone
      have hfree : ∀ j, Selected target (((k.deleteSlot t i).table t).slots j) ↔
          j ≠ i ∧ Selected target ((k.table t).slots j) := by
        intro j
        by_cases hj : j = i
        · rw [hstep.gone j hj]
          simp [Selected, cleared, CapabilitySlot.zero, hj]
        · rw [hstep.kept j hj]
          simp [hj]
      refine ⟨hrest.tables, hrest.nextGeneration, hrest.issuers, fun t' ht' => ?_, fun j hj => ?_,
        fun j hj => ?_⟩
      · rw [hrest.others t' ht', hstep.others t' ht']
      · by_cases hji : j = i
        · rw [hrest.kept j (fun h => ((hfree j).mp h.2).1 hji), hstep.gone j hji]
        · have hmem : j ∈ is := (List.mem_cons.mp hj.1).resolve_left hji
          rw [hrest.gone j ⟨hmem, (hfree j).mpr ⟨hji, hj.2⟩⟩, hstep.kept j hji]
      · have hji : j ≠ i := fun h => hj ⟨h ▸ List.mem_cons_self, h ▸ hsel⟩
        rw [hrest.kept j fun h => hj ⟨List.mem_cons_of_mem i h.1, ((hfree j).mp h.2).2⟩,
          hstep.kept j hji]
    · have hrest := ih k
      refine ⟨hrest.tables, hrest.nextGeneration, hrest.issuers, hrest.others, fun j hj => ?_,
        fun j hj => ?_⟩
      · rcases List.mem_cons.mp hj.1 with rfl | hmem
        · exact absurd hj.2 hsel
        · exact hrest.gone j ⟨hmem, hj.2⟩
      · exact hrest.kept j fun h => hj ⟨List.mem_cons_of_mem i h.1, h.2⟩

/-- After a deletion the remaining grants are those of the other slots. -/
theorem Cleared.holds_iff (hc : Cleared k k' t P) (h : CapInv k) : k'.Holds g ↔ k.Holds g ∧
      ¬ (g.table = t ∧ ∃ i, P i ∧ g.handle = capabilityHandle ((k.table t).slots i).generation i) := by
  unfold Holds TableLive
  rw [hc.tables]
  by_cases htt : g.table = t
  · subst htt
    constructor
    · rintro ⟨hlive, i, hocc, hhandle, hrest⟩
      by_cases hP : P i
      · rw [hc.gone i hP] at hocc
        cases hocc
      · rw [hc.kept i hP] at hocc hhandle hrest
        refine ⟨⟨hlive, i, hocc, hhandle, hrest⟩, ?_⟩
        rintro ⟨-, j, hPj, hj⟩
        obtain ⟨-, rfl⟩ := capabilityHandle_inj (h.generation_le hlive i) (h.generation_le hlive j)
          (hhandle.symm.trans hj)
        exact hP hPj
    · rintro ⟨⟨hlive, i, hocc, hhandle, hrest⟩, hnot⟩
      have hP : ¬ P i := fun hP => hnot ⟨rfl, i, hP, hhandle⟩
      exact ⟨hlive, i, by rw [hc.kept i hP]; exact ⟨hocc, hhandle, hrest⟩⟩
  · rw [hc.others g.table htt]
    simp [htt]

theorem resolveSlot_eq_some (h : CapInv k) :
    k.resolveSlot t handle = some i ↔ k.TableLive t ∧ ((k.table t).slots i).occupied = true ∧
      handle = capabilityHandle ((k.table t).slots i).generation i := by
  constructor
  · intro hres
    obtain ⟨hlive, hocc, hindex, hgen⟩ := resolveSlot_spec hres
    exact ⟨hlive, hocc, (capabilityHandle_of_parts hgen hindex).symm⟩
  · rintro ⟨hlive, hocc, rfl⟩
    have hle := h.generation_le hlive i
    have hrefs := h.slotRefs hlive hocc
    have hpos : 0 < ((k.table t).slots i).generation := Nat.pos_of_ne_zero hrefs.2.1
    have hbad : ¬ (¬ k.TableLive t ∨ ¬ (k.table t).initialized = true ∨
        capabilityHandle ((k.table t).slots i).generation i = 0) := by
      simp only [not_or, not_not]
      exact ⟨hlive, (h.table t hlive).initialized, capabilityHandle_ne_zero hle hpos⟩
    unfold resolveSlot
    rw [if_neg hbad]
    simp only [capabilityHandle_index hle, capabilityHandle_generation hle]
    rw [dif_pos i.isLt, if_neg (by simp [hrefs, hpos.ne'])]

theorem rights_within (hall : rights &&& ~~~ capabilityRightAll = 0)
    (hsub : rights &&& required = required) :
    required &&& ~~~ capabilityRightAll = 0 := by
  rw [← hsub, BitVec.and_assoc, BitVec.and_comm required, ← BitVec.and_assoc, hall]
  exact BitVec.zero_and

/-- A lookup succeeds exactly on the grants that the slots carry. -/
theorem capabilityLookupRights_eq_some (h : CapInv k) :
    k.capabilityLookupRights t handle type required = some o ↔
      ∃ g, k.Holds g ∧ g.table = t ∧ g.handle = handle ∧ g.type = type ∧ g.object = o ∧
        g.rights &&& required = required := by
  unfold capabilityLookupRights
  constructor
  · intro hl
    split at hl
    · cases hl
    · rename_i i hi
      obtain ⟨hlive, hocc, hhandle⟩ := (resolveSlot_eq_some h).mp hi
      dsimp only at hl
      split at hl
      · cases hl
      · rename_i hok
        simp only [not_or, not_not] at hok
        exact ⟨⟨t, handle, o, type, ((k.table t).slots i).rights⟩,
          ⟨hlive, i, hocc, hhandle, hl, hok.2.2.1, rfl⟩, rfl, rfl, rfl, rfl, hok.2.2.2⟩
  · rintro ⟨g, ⟨hlive, i, hocc, hhandle, ho, htype, hrights⟩, rfl, rfl, rfl, rfl, hsub⟩
    obtain ⟨-, -, hall, o, ho', hid⟩ := ((h.table g.table hlive).slots i).full hocc
    rw [(resolveSlot_eq_some h).mpr ⟨hlive, hocc, hhandle⟩]
    rw [← hrights] at hsub
    have hvalid := valid_of_objectIdentity hid
    dsimp only
    rw [if_neg, ho]
    simp only [not_or, not_not]
    exact ⟨htype ▸ hvalid, rights_within hall hsub, htype, hsub⟩

/-! ### The history of grants -/

/-- The full slots are the active grants, and every handle handed out so far lies below
the issuer of its index. -/
structure HandleInv (ls : List CapLabel) (k : CapState) : Prop where
  inv : CapInv k
  issued : ∀ handle ∈ issuedHandles ls, k.issuersInitialized = true ∧
    ∃ gen i, 0 < gen ∧ gen < k.nextGeneration i ∧ handle = capabilityHandle gen i
  nodup : (issuedHandles ls).Nodup
  active : ∀ g, ActiveGrant ls g ↔ k.Holds g

theorem issuedHandles_snoc {ls : List CapLabel} {l : CapLabel} :
    issuedHandles (ls ++ [l]) = issuedHandles ls ++ (l.grant.map Grant.handle).toList := by
  rw [issuedHandles, issuedHandles]
  cases hl : l.grant <;> simp [hl]

variable {ls : List CapLabel} {l : CapLabel}

section

variable (h : HandleInv ls k)
include h

/-- A step that grants nothing keeps the history, if it keeps the issuers and the slots
that it does not delete. -/
theorem HandleInv.ungranted (hinv : CapInv k') (hl : l.grant = none)
    (hissuers : k.issuersInitialized = true →
      k'.issuersInitialized = true ∧ k'.nextGeneration = k.nextGeneration)
    (hholds : ∀ g, k'.Holds g ↔ k.Holds g ∧ ¬ l.Deletes g) : HandleInv (ls ++ [l]) k' := by
  have hsame : issuedHandles (ls ++ [l]) = issuedHandles ls := by
    simp [issuedHandles_snoc, hl]
  refine ⟨hinv, fun handle hmem => ?_, hsame ▸ h.nodup, fun g => ?_⟩
  · obtain ⟨hinit, gen, i, hpos, hlt, he⟩ := h.issued handle (hsame ▸ hmem)
    obtain ⟨hinit', hnext⟩ := hissuers hinit
    exact ⟨hinit', gen, i, hpos, hnext ▸ hlt, he⟩
  · rw [ActiveGrant, active_snoc, hholds, hl, ← h.active g]
    simp [ActiveGrant]

theorem HandleInv.cleared (hinv : CapInv k') (hl : l.grant = none) (hc : Cleared k k' t P)
    (hdel : ∀ g, k.Holds g → (l.Deletes g ↔ g.table = t ∧
      ∃ i, P i ∧ g.handle = capabilityHandle ((k.table t).slots i).generation i)) :
    HandleInv (ls ++ [l]) k' := by
  refine h.ungranted hinv hl (fun hinit => ⟨hc.issuers.trans hinit, hc.nextGeneration⟩) fun g => ?_
  rw [hc.holds_iff h.inv]
  exact and_congr_right fun hg => not_congr (hdel g hg).symm

omit h in
/-- An insert changes one slot. -/
theorem fillSlot_slots {o id : Nat} (t' : TableRef) (j : Fin capabilityTableCapacity) :
    ((k.fillSlot t i o id type rights).table t').slots j =
      if t' = t ∧ j = i then ⟨some o, id, rights, k.nextGeneration i, type, true⟩
      else (k.table t').slots j := by
  by_cases htt : t' = t
  · subst htt
    by_cases hj : j = i <;> simp [CapState.fillSlot, setTable, hj]
  · simp [CapState.fillSlot, setTable, htt]

/-- The grant of an insert is new, and its handle has not been issued before. -/
theorem HandleInv.fillSlot {o id : Nat} (hinv : CapInv (k.fillSlot t i o id type rights))
    (ht : k.TableLive t) (hfree : ((k.table t).slots i).occupied = false)
    (hgen : k.CanTakeGeneration i)
    (hl : l.grant = some ⟨t, capabilityHandle (k.nextGeneration i) i, o, type, rights⟩)
    (hdel : ∀ g, ¬ l.Deletes g) : HandleInv (ls ++ [l]) (k.fillSlot t i o id type rights) := by
  have hinit := h.inv.started t ht
  have hnext : (k.fillSlot t i o id type rights).nextGeneration =
      Function.update k.nextGeneration i (k.nextGeneration i + 1) := rfl
  have hmono : k.nextGeneration ≤ (k.fillSlot t i o id type rights).nextGeneration :=
    hnext ▸ le_update_self_iff.mpr (Nat.le_succ _)
  have hsnoc : issuedHandles (ls ++ [l]) =
      issuedHandles ls ++ [capabilityHandle (k.nextGeneration i) i] := by
    rw [issuedHandles_snoc, hl]
    rfl
  refine ⟨hinv, fun handle hmem => ?_, ?_, fun g => ?_⟩
  · rw [hsnoc, List.mem_append, List.mem_singleton] at hmem
    rcases hmem with hmem | rfl
    · obtain ⟨hinit', gen, j, hpos, hlt, he⟩ := h.issued handle hmem
      exact ⟨hinit', gen, j, hpos, hlt.trans_le (hmono j), he⟩
    · exact ⟨hinit, k.nextGeneration i, i, (h.inv.issuers hinit i).1, by simp [hnext], rfl⟩
  · rw [hsnoc, List.nodup_append]
    refine ⟨h.nodup, List.nodup_singleton _, fun a ha b hb hab => ?_⟩
    obtain ⟨-, gen, j, -, hlt, he⟩ := h.issued a ha
    have hbound := (h.inv.issuers hinit j).2
    rw [hab, List.mem_singleton.mp hb] at he
    -- every handle so far has a smaller generation at its slot
    obtain ⟨rfl, rfl⟩ := capabilityHandle_inj hgen.2 (by omega) he
    exact lt_irrefl _ hlt
  · rw [ActiveGrant, active_snoc, hl]
    constructor
    · rintro (hnew | ⟨hold, -⟩)
      · obtain rfl := Option.some.inj hnew
        refine ⟨ht, i, ?_⟩
        rw [fillSlot_slots, if_pos ⟨rfl, rfl⟩]
        exact ⟨rfl, rfl, rfl, rfl, rfl⟩
      · obtain ⟨hlive, j, hocc, hrest⟩ := (h.active g).mp hold
        have hne : ¬ (g.table = t ∧ j = i) := by
          rintro ⟨htt, rfl⟩
          rw [htt, hfree] at hocc
          cases hocc
        refine ⟨hlive, j, ?_⟩
        rw [fillSlot_slots, if_neg hne]
        exact ⟨hocc, hrest⟩
    · rintro ⟨hlive, j, hslot⟩
      rw [fillSlot_slots] at hslot
      split_ifs at hslot with hnew
      · obtain ⟨gt, gh, go, gty, gr⟩ := g
        obtain ⟨⟨rfl, rfl⟩, -, hhandle, ho, htype, hrights⟩ := And.intro hnew hslot
        simp only [Option.some.injEq] at hhandle ho htype hrights
        subst hhandle ho htype hrights
        exact .inl rfl
      · exact .inr ⟨(h.active g).mpr ⟨hlive, j, hslot⟩, hdel g⟩

/-- A revocation of selected slots deletes the grants that the slots carry. -/
theorem HandleInv.deleteLoop (ht : k.TableLive t) {target : Option (Nat × CapabilityType)}
    (hl : l.grant = none)
    (hdel : ∀ g, l.Deletes g ↔ g.table = t ∧ ∀ x, target = some x → g.object = x.1 ∧ g.type = x.2) :
    HandleInv (ls ++ [l]) (k.deleteLoop t target (List.finRange capabilityTableCapacity)) := by
  refine h.cleared (h.inv.deleteLoop ht _ _) hl (deleteLoop_cleared k t target _) fun g hg => ?_
  rw [hdel]
  refine and_congr_right fun htt => ?_
  obtain ⟨hlive, i, hocc, hhandle, ho, htype, -⟩ := hg
  rw [htt] at hocc hhandle ho htype hlive
  constructor
  · intro hsel
    refine ⟨i, ⟨List.mem_finRange i, hocc, fun x hx => ?_⟩, hhandle⟩
    rw [ho, htype, (hsel x hx).1, (hsel x hx).2]
    exact ⟨rfl, rfl⟩
  · rintro ⟨j, ⟨-, -, hsel⟩, hj⟩ x hx
    obtain ⟨-, rfl⟩ := capabilityHandle_inj (h.inv.generation_le hlive i)
      (h.inv.generation_le hlive j) (hhandle.symm.trans hj)
    obtain ⟨hso, hst⟩ := hsel x hx
    exact ⟨Option.some.inj (ho.symm.trans hso), htype.symm.trans hst⟩

theorem HandleInv.call {c : CapCall} {x : Option CapabilityHandle} (he : CapEffect k c x k') :
    HandleInv (ls ++ [.call c x]) k' := by
  have hinv := h.inv.effect he
  cases he with
  | refused =>
    refine h.ungranted hinv ?_ (fun hinit => ⟨hinit, rfl⟩) fun g => ?_
    · cases c <;> rfl
    · cases c <;> simp [CapLabel.Deletes]
  | @tableInit t slot next hslot hdead hnext =>
    refine h.ungranted hinv rfl (fun hinit => ⟨rfl, by simpa [hinit] using hnext⟩) fun g => ?_
    simp only [CapLabel.Deletes, not_false_eq_true, and_true]
    -- the new table has no full slot, and the others are as before
    unfold Holds TableLive
    simp only [Slots.live_put hslot]
    by_cases htt : g.table = t
    · subst htt
      simp only [Function.update_self]
      constructor
      · rintro ⟨-, i, hocc, -⟩
        cases hocc
      · rintro ⟨hlive, -⟩
        exact absurd hlive hdead
    · simp [htt]
  | @tableDestroy t slot hslot =>
    refine h.ungranted hinv rfl (fun hinit => ⟨hinit, rfl⟩) fun g => ?_
    simp only [CapLabel.Deletes]
    unfold Holds TableLive
    simp only [Slots.live_clear h.inv.tables hslot]
    by_cases htt : g.table = t <;> simp [htt]
  | insert ht _ _ _ hi =>
    obtain ⟨hfree, hgen, -⟩ := insertIndex_spec hi
    exact h.fillSlot hinv ht hfree hgen rfl fun g hd => hd
  | @revoke t handle i hi =>
    refine h.cleared hinv rfl (deleteSlot_cleared k t i) fun g _ => ?_
    obtain ⟨-, -, hhandle⟩ := (resolveSlot_eq_some h.inv).mp hi
    simp [CapLabel.Deletes, hhandle]
  | revokeAll ht | revokeObject ht => exact h.deleteLoop ht rfl fun g => by simp [CapLabel.Deletes]

theorem HandleInv.step (hs : CapStep k l k') : HandleInv (ls ++ [l]) k' := by
  cases hs with
  | call c => exact h.call (c.effect k)
  | objects ho =>
    refine h.ungranted (h.inv.objectStep ho) rfl (fun hinit => ⟨hinit, rfl⟩) fun g => ?_
    simp only [CapLabel.Deletes, not_false_eq_true, and_true]
    rfl

end

theorem HandleInv.of_run {k0 : CapState} (hboot : CapBoot k0) (h : Run CapStep k0 ls k) :
    HandleInv ls k := by
  refine h.history ⟨hboot.inv, fun _ hmem => absurd hmem List.not_mem_nil, List.nodup_nil,
    fun g => ⟨fun hg => absurd hg not_active_nil, ?_⟩⟩ fun _ _ _ _ hi hs => hi.step hs
  rintro ⟨hlive, -⟩
  rw [TableLive, hboot.tables] at hlive
  exact absurd hlive (Slots.not_live_empty _)

/-! ### Handles are never reissued and never resurrect -/

/-- What the handles handed out along a run are worth in the state it leads to. -/
structure HandlesFresh (ls : List CapLabel) (k : CapState) : Prop where
  distinct : (issuedHandles ls).Nodup
  nonzero : ∀ handle ∈ issuedHandles ls, handle ≠ 0
  /-- A handle whose slot has been deleted is found in no table. -/
  deleted : ∀ g ls₁ l ls₂ d ls₃, ls = ls₁ ++ l :: ls₂ ++ d :: ls₃ → l.grant = some g → d.Deletes g →
    ∀ t type required, k.capabilityLookupRights t g.handle type required = none
  /-- A lookup finds the active grants, with their type and within their rights. -/
  lookup : ∀ t handle type required o,
    k.capabilityLookupRights t handle type required = some o ↔
      ∃ g, ActiveGrant ls g ∧ g.table = t ∧ g.handle = handle ∧ g.type = type ∧ g.object = o ∧
        g.rights &&& required = required
  /-- An insert takes the first free slot whose index is not exhausted. -/
  skip : ∀ t o type rights handle, (k.capabilityInsert t o type rights).1 = some handle →
    ∃ i, handle = capabilityHandle (k.nextGeneration i) i ∧
      k.nextGeneration i ≤ capabilityGenerationMax ∧
      ((k.table t).slots i).occupied = false ∧
      ∀ j < i, ((k.table t).slots j).occupied = true ∨
        k.nextGeneration j = capabilityGenerationMax + 1
  /-- The issuers stop behind the last generation. -/
  limit : k.issuersInitialized = true → ∀ i, k.nextGeneration i ≤ capabilityGenerationMax + 1

/-- Two grants with one handle are one grant: the deleted grant is not active. -/
theorem HandleInv.not_active_of_deleted (h : HandleInv ls k) {ls1 ls2 ls3 : List CapLabel}
    {d : CapLabel} {g' : Grant} (hls : ls = ls1 ++ l :: ls2 ++ d :: ls3) (hl : l.grant = some g)
    (hd : d.Deletes g) (hhandle : g'.handle = g.handle) : ¬ ActiveGrant ls g' := by
  rintro ⟨ms1, m, ms2, hms, hm, hkeep⟩
  rw [List.append_assoc] at hls
  -- the two grants sit at the same place of the run, since no handle is issued twice
  have hnodup := h.nodup
  rw [hls] at hnodup
  obtain ⟨rfl, rfl, rfl⟩ := place_unique hnodup (by rw [hl]; rfl)
    (by rw [hm, Option.map_some, hhandle]) (hls.symm.trans hms)
  obtain rfl := Option.some.inj (hl.symm.trans hm)
  exact hkeep d (by simp) hd

/-- Along every run of capability calls, over any tables and any lives of the objects, no
handle is issued twice or found again after its deletion, and lookups succeed exactly on
the active grants. -/
theorem handles_fresh_of_run {k₀ : CapState} (hboot : CapBoot k₀) (h : Run CapStep k₀ ls k) :
    HandlesFresh ls k := by
  have hh := HandleInv.of_run hboot h
  have hlookup : ∀ t handle type required o,
      k.capabilityLookupRights t handle type required = some o ↔
        ∃ g, ActiveGrant ls g ∧ g.table = t ∧ g.handle = handle ∧ g.type = type ∧ g.object = o ∧
          g.rights &&& required = required := by
    intro t handle type required o
    simp only [capabilityLookupRights_eq_some hh.inv, hh.active]
  refine ⟨hh.nodup, fun handle hmem => ?_, ?_, hlookup, ?_, fun hinit i => (hh.inv.issuers hinit i).2⟩
  · obtain ⟨hinit, gen, i, hpos, hlt, rfl⟩ := hh.issued handle hmem
    have hmax := (hh.inv.issuers hinit i).2
    exact capabilityHandle_ne_zero (by omega) hpos
  · intro g ls₁ l ls₂ d ls₃ hls hl hd t type required
    rw [Option.eq_none_iff_forall_ne_some]
    intro o ho
    obtain ⟨g', hactive, -, hhandle, -⟩ := (hlookup t g.handle type required o).mp ho
    exact hh.not_active_of_deleted hls hl hd hhandle hactive
  · intro t o type rights handle hins
    have he := CapCall.effect k (.insert t o type rights)
    rw [CapCall.exec, hins] at he
    generalize (k.capabilityInsert t o type rights).2 = k' at he
    cases he with
    | @insert _ i _ _ _ _ ht _ _ _ hi =>
      obtain ⟨hfree, hgen, hskip⟩ := insertIndex_spec hi
      refine ⟨i, rfl, hgen.2, hfree, fun j hj => (hskip j hj).imp_right ?_⟩
      -- the issuer of an index is never zero, so an index that cannot issue is exhausted
      intro hexhausted
      obtain ⟨hpos, hmax⟩ := hh.inv.issuers (hh.inv.started t ht) j
      unfold CanTakeGeneration at hexhausted
      omega

/-- After `twoGrants` the first handle is revoked and a third capability inserted: it
reuses the slot under a new generation. -/
def regranted : CapState :=
  let k := ((CapCall.revoke 9 (capabilityHandle 1 0)).exec twoGrants).2
  ((CapCall.insert 9 5 .deviceResource 1).exec k).2

theorem run_regranted : ∃ ls, Run CapStep unbooted ls regranted := by
  obtain ⟨ls, hrun⟩ := run_twoGrants
  exact ⟨_, .snoc (.snoc hrun (.call _ (.revoke 9 (capabilityHandle 1 0))))
    (.call _ (.insert 9 5 .deviceResource 1))⟩

theorem handles_fresh_regranted : ∃ ls, HandlesFresh ls regranted ∧
    regranted.capabilityLookupRights 9 (capabilityHandle 1 0) .deviceResource 0 = none ∧
    regranted.capabilityLookupRights 9 (capabilityHandle 2 0) .deviceResource 1 = some 5 := by
  obtain ⟨ls, hrun⟩ := run_regranted
  refine ⟨ls, handles_fresh_of_run capBoot_unbooted hrun, ?_, ?_⟩
  · decide +kernel
  · decide +kernel

/-! ### Tearing a table down -/

theorem CapInv.capabilityRevokeAll_eq (h : CapInv k) (ht : k.TableLive t) :
    k.capabilityRevokeAll t =
      (true, k.deleteLoop t none (List.finRange capabilityTableCapacity)) := by
  have hok : ¬ (¬ k.TableValid t ∨ ¬ k.DeletionCovered t none) := by
    simp only [not_or, not_not]
    exact ⟨h.tableValid ht, h.deletionCovered ht none⟩
  unfold capabilityRevokeAll deleteSelected
  rw [if_neg hok]

theorem CapInv.capabilityTableDestroy_of_empty (h : CapInv k) (ht : k.TableLive t)
    (hempty : ∀ i, (k.table t).names i = none) : (k.capabilityTableDestroy t).1 = true := by
  have hcount : (k.table t).count = 0 := (h.table t ht).count.trans (held_eq_zero.mpr hempty)
  have hok : ¬ (¬ k.TableValid t ∨ (k.table t).count ≠ 0) := by
    simp only [not_or, not_not]
    exact ⟨h.tableValid ht, hcount⟩
  obtain ⟨slot, hslot⟩ := Slots.exists_find ht
  unfold capabilityTableDestroy
  simp only [hslot]
  rw [if_neg hok]

/-- A table can always be torn down: revoking all of its capabilities succeeds, and so does its
destruction afterwards. Objects that only this table named are referenced no more. -/
theorem table_teardown_of_run {k₀ : CapState} (hboot : CapBoot k₀) (hrun : Run CapStep k₀ ls k)
    (ht : k.TableLive t) :
    (k.capabilityRevokeAll t).1 = true ∧
    ((k.capabilityRevokeAll t).2.capabilityTableDestroy t).1 = true ∧
    ∀ x, (k.capabilityRevokeAll t).2.Live x →
      (∀ r i, k.holders (r, i) = some x → k.tables r = some t) →
      (k.capabilityRevokeAll t).2.refsOf x = 0 := by
  have h := CapInv.of_run hboot hrun
  have hc := deleteLoop_cleared k t none (List.finRange capabilityTableCapacity)
  have hinv := h.deleteLoop ht none (List.finRange capabilityTableCapacity)
  rw [h.capabilityRevokeAll_eq ht]
  generalize k.deleteLoop t none (List.finRange capabilityTableCapacity) = k' at hc hinv ⊢
  have hlive : k'.TableLive t := by
    rw [TableLive, hc.tables]
    exact ht
  have hempty : ∀ i, (k'.table t).names i = none := by
    refine fun i => named_of_free ?_
    by_cases hocc : ((k.table t).slots i).occupied = true
    · rw [hc.gone i ⟨List.mem_finRange i, hocc, fun _ hx => by cases hx⟩]
      rfl
    · rw [hc.kept i fun hsel => hocc hsel.2.1]
      simpa using hocc
  refine ⟨rfl, hinv.capabilityTableDestroy_of_empty hlive hempty, fun x hx honly => ?_⟩
  refine (hinv.counted.exact x hx).trans (pins_eq_zero.mpr ?_)
  rintro ⟨r, i⟩ hname
  obtain ⟨t', ht', hi⟩ := Option.bind_eq_some_iff.mp hname
  rw [hc.tables] at ht'
  by_cases htt : t' = t
  · rw [htt, hempty i] at hi
    cases hi
  · rw [hc.others t' htt] at hi
    have hholds : k.holders (r, i) = some x := Option.bind_eq_some_iff.mpr ⟨t', ht', hi⟩
    exact htt (Option.some.inj (ht'.symm.trans (honly r i hholds)))

theorem table_teardown_twoGrants : twoGrants.refsOf (.deviceResource, 5) = 2 ∧
    (twoGrants.capabilityRevokeAll 9).2.refsOf (.deviceResource, 5) = 0 := by
  obtain ⟨ls, hrun⟩ := run_twoGrants
  have hlive : twoGrants.TableLive 9 := by
    show Slots.Live _ _
    decide +kernel
  refine ⟨by decide +kernel, (table_teardown_of_run capBoot_unbooted hrun hlive).2.2 _ ?_ ?_⟩
  · show Slots.Live _ _
    decide +kernel
  · decide +kernel

end CapState

end JcosKernel
