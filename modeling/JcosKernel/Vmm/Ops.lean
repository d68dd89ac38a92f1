import JcosKernel.Vmm.Collect

/-!
# JcosKernel.Vmm.Ops

What each operation of `vmm.c` does, in terms of the entries of the map it works on.

A query reads one leaf (`vmmQueryPage_eq`). Mapping, unmapping and changing the WRITE bit store
one leaf when they succeed and are upkeep when they fail; collecting is always upkeep. Creating,
sharing and destroying change which maps there are; they keep the invariant and leave the
entries of the other maps alone.
-/

namespace JcosKernel

open Lib

namespace VmState

variable {R σ : Type} {A : Allocator Nat σ} {cpu : Cpu} {s s₁ s' s'' : VmState R σ} {k k' : R}
  {q p : List TableIndex} {i j : TableIndex} {a c f va frame : Nat} {b : Bool} {e : Pte}
  {flags : VmFlags}

/-! ### The way to a page -/

theorem length_tablePath : (tablePath va).length = 3 := rfl

/-- An entry that leads to a table, as the source checks it. -/
theorem existingTable_eq (h : VmInv A s) (hq : s.forest.Owned k (q ++ [i])) (hd : q.length ≤ 2)
    (ha : s.tableAt k q = some a) : s.existingTable a i = s.tableAt k (q ++ [i]) := by
  have hentry : s.entryAt k q i = s.table a i := entryAt_of_table ha
  unfold existingTable
  rcases h.inner k q i hq hd with hzero | he
  · rw [VmInv.tableAt_snoc, ← hentry, hzero, tableChild_zero, if_pos (.inl not_has_zero)]
  · have hto : s.tableAt k (q ++ [i]) = some (entryFrame (s.entryAt k q i)) := by
      rw [VmInv.tableAt_snoc, he.child]
    have hptr := (h.tables k _ _ hq (length_snoc_le hd) hto).2.pointer
    rw [hto, ← hentry, if_neg, hptr]
    simpa [he.notHuge, entryFrame_ne_invalid] using he.present

/-- The four tables on the way to an owned page. -/
structure TablesTo (s : VmState R σ) (k : R) (va pml4 pdpt pd pt : Nat) : Prop where
  pml4 : s.tableAt k [] = some pml4
  pdpt : s.tableAt k [pml4Index va] = some pdpt
  pd : s.tableAt k [pml4Index va, pdptIndex va] = some pd
  pt : s.tableAt k (tablePath va) = some pt

theorem existingTables_cases {root : Nat} (h : VmInv A s)
    (hown : (s.map k).OwnsPml4Index (pml4Index va)) (hroot : (s.map k).rootFrame = some root) :
    (s.existingTables root va = none ∧ s.tableAt k (tablePath va) = none) ∨
      ∃ pml4 pdpt pd pt, s.existingTables root va = some (pml4, pdpt, pd, pt) ∧
        s.TablesTo k va pml4 pdpt pd pt := by
  have h4 : s.tableAt k [] = some root := Forest.table_nil.trans hroot
  unfold existingTables
  rw [(h.root_mem hroot).2.pointer]
  simp only
  rw [existingTable_eq (q := []) h hown (by simp) h4]
  rcases h3 : s.tableAt k ([] ++ [pml4Index va]) with _ | pdpt
  · exact .inl ⟨rfl, tableAt_below_none h3⟩
  simp only
  rw [existingTable_eq (q := [pml4Index va]) h hown (by simp) h3]
  rcases h2 : s.tableAt k ([pml4Index va] ++ [pdptIndex va]) with _ | pd
  · exact .inl ⟨rfl, tableAt_below_none h2⟩
  simp only
  rw [existingTable_eq (q := [pml4Index va, pdptIndex va]) h hown (by simp) h2]
  rcases h1 : s.tableAt k ([pml4Index va, pdptIndex va] ++ [pdIndex va]) with _ | pt
  · exact .inl ⟨rfl, h1⟩
  · exact .inr ⟨root, pdpt, pd, pt, rfl, h4, h3, h2, h1⟩

/-! ### Queries -/

/-- What a leaf says about its page. -/
def leafView (e : Pte) : Option (Nat × VmFlags) :=
  if Has e ptePresent then some (entryFrame e, leafFlags e) else none

@[simp] theorem leafView_zero : leafView 0 = none := if_neg not_has_zero

theorem leafView_leafEntry {e : Pte} (he : LeafEntry e) :
    leafView e = some (entryFrame e, leafFlags e) := if_pos he.present

section

variable (h : VmInv A s) (hown : (s.map k).OwnsPml4Index (pml4Index va))
include h hown

/-- A user page is a user page in every table above it. -/
theorem TablesTo.user {pml4 pdpt pd pt : Nat} (ht : s.TablesTo k va pml4 pdpt pd pt)
    (hu : Has (s.table pt (ptIndex va)) pteUser) :
    Has (s.table pml4 (pml4Index va)) pteUser ∧ Has (s.table pdpt (pdptIndex va)) pteUser ∧
      Has (s.table pd (pdIndex va)) pteUser := by
  rw [← entryAt_of_table ht.pt] at hu
  have u2 := h.user k [pml4Index va, pdptIndex va] (pdIndex va) (ptIndex va) hown (by simp) hu
  have u3 := h.user k [pml4Index va] (pdptIndex va) (pdIndex va) hown (by simp) u2
  have u4 := h.user k [] (pml4Index va) (pdptIndex va) hown (by simp) u3
  rw [← entryAt_of_table ht.pml4, ← entryAt_of_table ht.pdpt,
    ← entryAt_of_table ht.pd]
  exact ⟨u4, u3, u2⟩

/-- The tables above a leaf permit what it permits. -/
theorem TablesTo.effectiveFlags {pml4 pdpt pd pt : Nat} (ht : s.TablesTo k va pml4 pdpt pd pt) :
    TableEntry (s.table pml4 (pml4Index va)) ∧ TableEntry (s.table pdpt (pdptIndex va)) ∧
      TableEntry (s.table pd (pdIndex va)) ∧
      effectiveFlags (s.table pml4 (pml4Index va)) (s.table pdpt (pdptIndex va))
        (s.table pd (pdIndex va)) (s.table pt (ptIndex va)) =
          leafFlags (s.entryAt k (tablePath va) (ptIndex va)) := by
  have htable : ∀ {q i a c}, s.forest.Owned k (q ++ [i]) → q.length ≤ 2 → s.tableAt k q = some a →
      s.tableAt k (q ++ [i]) = some c → TableEntry (s.table a i) := by
    intro q i a c hq hd ha hc
    rw [← entryAt_of_table ha]
    refine (h.inner k q i hq hd).resolve_left fun hzero => ?_
    rw [(h.entryAt_eq_zero hq hd).mp hzero] at hc
    cases hc
  have e4 := htable (q := []) hown (by simp) ht.pml4 ht.pdpt
  have e3 := htable (q := [_]) hown (by simp) ht.pdpt ht.pd
  have e2 := htable (q := [_, _]) hown (by simp) ht.pd ht.pt
  refine ⟨e4, e3, e2, ?_⟩
  rw [entryAt_of_table ht.pt]
  exact effectiveFlags_eq e4 e3 e2 (ht.user h hown)

theorem vmmQueryPage_eq (hal : PageAligned va) (hcan : VirtualAddressCanonical va) :
    s.vmmQueryPage k va = leafView (s.entryAt k (tablePath va) (ptIndex va)) := by
  unfold vmmQueryPage
  rcases hroot : (s.map k).rootFrame with _ | root
  · rw [entryAt_of_none (Forest.table_of_root_none hroot), leafView_zero]
  simp only
  rw [if_neg (by simp [hal, hcan])]
  rcases existingTables_cases h hown hroot with ⟨hnone, htab⟩ | ⟨pml4, pdpt, pd, pt, hsome, ht⟩
  · rw [hnone, entryAt_of_none htab, leafView_zero]
  · rw [hsome]
    simp only
    rw [(ht.effectiveFlags h hown).2.2.2, entryAt_of_table ht.pt, leafView]
    by_cases hp : Has (s.table pt (ptIndex va)) ptePresent
    · rw [if_neg (not_not_intro hp), if_pos hp]
    · rw [if_pos hp, if_neg hp]

end

/-- Outside of the owned range nothing is found unless an entry was shared. -/
theorem vmmQueryPage_of_zero (h : VmInv A s) (hzero : s.entryAt k [] (pml4Index va) = 0) :
    s.vmmQueryPage k va = none := by
  unfold vmmQueryPage
  rcases hroot : (s.map k).rootFrame with _ | root
  · rfl
  simp only
  split_ifs
  · rfl
  · have h4 : s.tableAt k [] = some root := Forest.table_nil.trans hroot
    rw [entryAt_of_table h4] at hzero
    unfold existingTables existingTable
    rw [(h.root_mem hroot).2.pointer]
    simp only [hzero]
    rw [if_pos (.inl not_has_zero)]

theorem vmmQueryPage_bad_address (hbad : ¬ PageAligned va ∨ ¬ VirtualAddressCanonical va) :
    s.vmmQueryPage k va = none := by
  unfold vmmQueryPage
  rcases (s.map k).rootFrame with _ | root
  · rfl
  · exact if_pos hbad

/-! ### Storing a leaf -/

/-- Work on the map `k` that stores the leaf of one page. -/
structure StoresLeaf (A : Allocator Nat σ) (k : R) (va : Nat) (e : Pte) (s s' : VmState R σ) : Prop
    extends Work A k s s' where
  store : s'.entryAt k (tablePath va) (ptIndex va) = e
  entry : ∀ p j, s.forest.Owned k p → p.length ≤ 3 →
    ¬ p ++ [j] <+: tablePath va ++ [ptIndex va] → s'.entryAt k p j = s.entryAt k p j

/-- The other leaves are as before. -/
theorem StoresLeaf.leaf (h : StoresLeaf A k va e s s') (hp : s.forest.Owned k p)
    (hd : p.length = 3) : s'.entryAt k p j =
      if p = tablePath va ∧ j = ptIndex va then e else s.entryAt k p j := by
  split_ifs with hhere
  · rw [hhere.1, hhere.2, h.store]
  · refine h.entry p j hp (by omega) fun hpre => hhere ?_
    have heq := hpre.eq_of_length (by simp [hd, length_tablePath])
    obtain ⟨hpath, hij⟩ := List.append_inj' heq rfl
    cases hij
    exact ⟨hpath, rfl⟩

/-- A leaf may be stored if the table entry above permits it. -/
theorem leafOk (he : e = 0 ∨ LeafEntry e)
    (hu : Has e pteUser → Has (s.entryAt k [pml4Index va, pdptIndex va] (pdIndex va)) pteUser) :
    VmInv.StoreOk A s k (tablePath va) i (s.table a i) e where
  splice h := absurd h (by simp [length_tablePath])
  child h := absurd h (by simp [length_tablePath])
  inner h := absurd h (by simp [length_tablePath])
  leaf _ := he
  userAbove p j hp hhas := by
    obtain ⟨rfl, hij⟩ := List.append_inj'
      (show [pml4Index va, pdptIndex va] ++ [pdIndex va] = p ++ [j] from hp) rfl
    cases hij
    exact hu hhas
  userBelow h := absurd h (by simp [length_tablePath])
  exported h := by cases h
  copied h := by cases h

theorem StoresLeaf.upkeep_before (u : UpkeepAt A k (· <+: tablePath va) s s₁)
    (h : StoresLeaf A k va e s₁ s') : StoresLeaf A k va e s s' where
  toWork := u.toWork.trans h.toWork
  store := h.store
  entry p j hp hd hnot := by
    rw [h.entry p j (u.forest ▸ hp) hd hnot, u.entry p j hp hd]
    exact fun hpre => hnot (hpre.trans (List.prefix_append _ _))

theorem StoresLeaf.upkeep_after (hown : (s.map k).OwnsPml4Index (pml4Index va))
    (h : StoresLeaf A k va e s s₁) (u : UpkeepAt A k (· <+: tablePath va) s₁ s') :
    StoresLeaf A k va e s s' where
  toWork := h.toWork.trans u.toWork
  store := by
    rw [u.leaf _ _ (by rw [h.forest]; exact hown) length_tablePath, h.store]
  entry p j hp hd hnot := by
    rw [u.entry p j (h.forest ▸ hp) hd, h.entry p j hp hd hnot]
    exact fun hpre => hnot (hpre.trans (List.prefix_append _ _))

variable [DecidableEq R]

section

variable {pt : Nat} (h : VmInv A s) (hown : (s.map k).OwnsPml4Index (pml4Index va))
  (hpt : s.tableAt k (tablePath va) = some pt) (he : e = 0 ∨ LeafEntry e)
  (hu : Has e pteUser → Has (s.entryAt k [pml4Index va, pdptIndex va] (pdIndex va)) pteUser)
include h hown hpt he hu

/-- Upkeep above the page, then the store. -/
theorem StoresLeaf.of_store : StoresLeaf A k va e s (s.setEntry pt (ptIndex va) e) := by
  have hq : s.forest.Owned k (tablePath va ++ [ptIndex va]) := hown
  obtain ⟨w, hent⟩ := Work.of_store_keep h hq (by simp [length_tablePath]) hpt (leafOk he hu)
    fun hd => absurd hd (by simp [length_tablePath])
  refine ⟨w, ?_, fun p j hp hd hnot => ?_⟩
  · rw [hent _ _ hq.init (by simp [length_tablePath]), if_pos ⟨rfl, rfl⟩]
  · rw [hent p j hp hd, if_neg]
    rintro ⟨rfl, rfl⟩
    exact hnot List.prefix_rfl

theorem tableAt_leaf_store (hp : s.forest.Owned k p) (hd : p.length ≤ 3) :
    (s.setEntry pt (ptIndex va) e).tableAt k p = s.tableAt k p := by
  rw [VmInv.tableAt_setEntry h (show s.forest.Owned k (tablePath va) from hown)
    (by simp [length_tablePath]) hpt (leafOk he hu) hp hd, if_neg]
  rintro ⟨-, rfl⟩
  simp [length_tablePath] at hd

end

/-! ### Mapping -/

/-- No page was mapped, and an inactive map has its tables back. -/
structure Undone (A : Allocator Nat σ) (cpu : Cpu) (k : R) (s s' : VmState R σ) : Prop
    extends Upkeep A k s s' where
  tableAt : ¬ (s.map k).Active cpu → (s.map k).sharedSource = false → A.FreesAllocated →
    s.NoFaults → ∀ p, s.forest.Owned k p → p.length ≤ 3 → s'.tableAt k p = s.tableAt k p

theorem rollbackCreatedTables_spec (cpu : Cpu) {created : List CreatedTable} (u : Upkeep A k s s₁)
    (hback : (s.map k).sharedSource = false → RollsBack A k s created s₁)
    (hr : s₁.rollbackCreatedTables A cpu k created = s') : Undone A cpu k s s' := by
  unfold rollbackCreatedTables at hr
  rw [u.map] at hr
  split_ifs at hr with hskip
  · subst hr
    exact ⟨u, fun hact hexp => absurd hskip (by simp [hact, hexp])⟩
  · simp only [not_or, Bool.not_eq_true] at hskip
    rcases heach : each (rollbackTable A k) created s₁ with ⟨b, s2⟩
    rw [heach] at hr
    subst hr
    obtain ⟨v, htab, hcalm⟩ := hback hskip.2 b s2 heach
    exact ⟨u.trans v, fun _ _ hA hn => htab (hcalm hA (u.calm hA hn))⟩

/-- What is known about an address, a frame and flags that the source accepts. -/
structure MapAccepted (s : VmState R σ) (k : R) (va frame : Nat) (flags : VmFlags) : Prop where
  aligned : PageAligned va
  canonical : VirtualAddressCanonical va
  frame : ValidMappingFrame frame
  flags : FlagsAccepted flags
  owns : (s.map k).OwnsPml4Index (pml4Index va)

omit [DecidableEq R] in
theorem mapAccepted_of_not_refused (h : ¬ s.MapRefused cpu k va frame flags) :
    s.MapAccepted k va frame flags := by
  simp only [MapRefused, not_or, not_not, not_and] at h
  obtain ⟨-, -, hal, hcan, hframe, -, hknown, hcache, hown⟩ := h
  exact ⟨hal, hcan, hframe, ⟨hknown, fun hc => (hcache hc.1).1 hc.2⟩, hown⟩

theorem vmmMapPage_cases (h : VmInv A s) (hr : s.vmmMapPage A cpu k va frame flags = (b, s')) :
    (b = false ∧ Undone A cpu k s s') ∨
    (b = true ∧ s.MapAccepted k va frame flags ∧
      s.entryAt k (tablePath va) (ptIndex va) = 0 ∧
      StoresLeaf A k va (framePte frame ||| leafBits flags) s s') := by
  have hrefl : Undone A cpu k s s := ⟨.refl h, fun _ _ _ _ _ _ _ => rfl⟩
  unfold vmmMapPage at hr
  split at hr
  · cases hr
    exact .inl ⟨rfl, hrefl⟩
  rename_i root hroot
  split at hr
  · cases hr
    exact .inl ⟨rfl, hrefl⟩
  rename_i hguard
  rw [(h.root_mem hroot).2.pointer] at hr
  have hacc := mapAccepted_of_not_refused (not_or.mp hguard).2
  simp only at hr
  rcases hct : createTables A k (decide (Has flags vmUser)) root (tablePath va) [] s with
    ⟨r, created, s₁⟩
  rw [hct] at hr
  obtain ⟨u, ⟨new, hnew, hback⟩, hend⟩ := createTables_spec h
    (show s.forest.Owned k ([] ++ tablePath va) from hacc.owns) (by simp [length_tablePath])
    (Forest.table_nil.trans hroot) (fun _ p j hp => absurd hp (by simp)) hct
  rw [List.append_nil] at hnew
  subst hnew
  cases r with
  | none =>
    cases hr
    exact .inl ⟨rfl, rollbackCreatedTables_spec cpu u.toUpkeep hback rfl⟩
  | some pt =>
    simp only at hr
    obtain ⟨hpt, huser⟩ := hend pt rfl
    have hleaf : s.entryAt k (tablePath va) (ptIndex va) = s₁.table pt (ptIndex va) := by
      rw [← u.leaf (tablePath va) _ hacc.owns length_tablePath]
      exact entryAt_of_table hpt
    split_ifs at hr with hused
    · cases hr
      exact .inl ⟨rfl, rollbackCreatedTables_spec cpu u.toUpkeep hback rfl⟩
    · cases hr
      refine .inr ⟨rfl, hacc, hleaf.trans (not_not.mp hused), .upkeep_before u ?_⟩
      refine .of_store u.inv (by rw [u.map]; exact hacc.owns) hpt
        (.inr (leafEntry_leaf hacc.frame flags)) fun hhas => ?_
      -- a user page: `createTables` has made the entries above it user entries
      refine huser ?_ [pml4Index va, pdptIndex va] (pdIndex va) rfl
      rcases has_or.mp hhas with hframe | hbits
      · exact absurd hframe (hacc.frame.2.2.not_has (by decide))
      · by_contra hno
        simp only [decide_eq_true_eq] at hno
        simp only [leafBits] at hbits
        revert hbits
        split_ifs <;> decide

/-! ### Unmapping -/

theorem vmmUnmapPage_cases {r : Option Nat} (h : VmInv A s)
    (hr : s.vmmUnmapPage A cpu k va = (r, s')) :
    (r = none ∧ s' = s) ∨
    (r = some (entryFrame (s.entryAt k (tablePath va) (ptIndex va))) ∧ PageAligned va ∧
      VirtualAddressCanonical va ∧ (s.map k).OwnsPml4Index (pml4Index va) ∧
      LeafEntry (s.entryAt k (tablePath va) (ptIndex va)) ∧ StoresLeaf A k va 0 s s' ∧
      (¬ (s.map k).Active cpu → (s.map k).sharedSource = false → A.FreesAllocated →
        s.NoFaults → s'.FullPath k (tablePath va))) := by
  unfold vmmUnmapPage at hr
  split at hr
  · cases hr
    exact .inl ⟨rfl, rfl⟩
  rename_i root hroot
  split_ifs at hr with hguard
  · cases hr
    exact .inl ⟨rfl, rfl⟩
  simp only [not_or, not_not] at hguard
  obtain ⟨-, -, -, hal, hcan, hown⟩ := hguard
  rcases existingTables_cases h hown hroot with ⟨hnone, -⟩ | ⟨pml4, pdpt, pd, pt, hsome, ht⟩
  · rw [hnone] at hr
    cases hr
    exact .inl ⟨rfl, rfl⟩
  rw [hsome] at hr
  simp only at hr
  rw [← entryAt_of_table ht.pt] at hr
  split_ifs at hr with habsent
  · cases hr
    exact .inl ⟨rfl, rfl⟩
  cases hr
  have hleaf : LeafEntry (s.entryAt k (tablePath va) (ptIndex va)) := by
    refine (h.leaf k (tablePath va) _ hown length_tablePath).resolve_left fun hzero => ?_
    rw [hzero] at habsent
    exact habsent (.inl not_has_zero)
  have hstore : StoresLeaf A k va 0 s (s.setEntry pt (ptIndex va) 0) :=
    .of_store h hown ht.pt (.inl rfl) fun hhas => absurd hhas not_has_zero
  have htab : ∀ p, s.forest.Owned k p → p.length ≤ 3 →
      (s.setEntry pt (ptIndex va) 0).tableAt k p = s.tableAt k p := fun p hp hd =>
    tableAt_leaf_store h hown ht.pt (.inl rfl) (fun hhas => absurd hhas not_has_zero) hp hd
  obtain ⟨u, hfull⟩ := pruneTables_spec cpu hstore.inv
    (by rw [hstore.forest]; exact hown) ((htab [] trivial (by simp)).trans ht.pml4)
    ((htab [_] hown (by simp)).trans ht.pdpt) ((htab [_, _] hown (by simp)).trans ht.pd)
    ((htab (tablePath va) hown (by simp [length_tablePath])).trans ht.pt) rfl
  exact .inr ⟨rfl, hal, hcan, hown, hleaf, hstore.upkeep_after hown u,
    fun hact hexp hA hn => hfull hact hexp hA (hstore.calm hA hn)⟩

/-! ### The WRITE bit -/

/-- What `vmm_set_writable` asks of the map, whatever the page. -/
structure WriteOpen (m : VmPageMap) (cpu : Cpu) : Prop where
  profile : cpu.ProfileSupported
  kept : ¬ m.destroyPending
  active : ¬ (m.sharedSource ∧ ¬ m.Active cpu)

/-- What `vmm_set_writable` asks for. -/
structure WriteAccepted (s : VmState R σ) (cpu : Cpu) (k : R) (va frame : Nat) (flags : VmFlags) :
    Prop extends WriteOpen (s.map k) cpu where
  aligned : PageAligned va
  canonical : VirtualAddressCanonical va
  owns : (s.map k).OwnsPml4Index (pml4Index va)
  query : s.vmmQueryPage k va = some (frame, flags)
  exec : ¬ Has flags vmExec
  device : ¬ (Has flags vmDevice ∧ ¬ s.VmmDeviceMemorySupported cpu)

theorem vmmSetWritable_cases {expected : Nat} {expectedFlags : VmFlags} {writable : Bool}
    (h : VmInv A s)
    (hr : s.vmmSetWritable cpu k va expected expectedFlags writable = (b, s')) :
    (b = false ∧ s' = s ∧ ¬ s.WriteAccepted cpu k va expected expectedFlags) ∨
    (b = true ∧ s.WriteAccepted cpu k va expected expectedFlags ∧
      LeafEntry (s.entryAt k (tablePath va) (ptIndex va)) ∧
      StoresLeaf A k va (withWrite (s.entryAt k (tablePath va) (ptIndex va)) writable) s s') := by
  unfold vmmSetWritable at hr
  split at hr
  · rename_i hguard
    cases hr
    refine .inl ⟨rfl, rfl, fun w => absurd hguard ?_⟩
    simpa [w.profile, w.kept, w.aligned, w.canonical, w.owns] using w.active
  rename_i hguard
  simp only [not_or, not_not] at hguard
  obtain ⟨hprofile, hkept, hal, hcan, hown, hactive⟩ := hguard
  split at hr
  · rename_i hnone
    cases hr
    exact .inl ⟨rfl, rfl, fun w => nomatch hnone.symm.trans w.query⟩
  rename_i actual permissions hquery
  split at hr
  · rename_i hcheck
    cases hr
    refine .inl ⟨rfl, rfl, fun w => absurd hcheck ?_⟩
    obtain ⟨rfl, rfl⟩ := Prod.mk.inj (Option.some.inj (hquery.symm.trans w.query))
    simpa [w.exec] using w.device
  rename_i hcheck
  simp only [not_or, not_not] at hcheck
  obtain ⟨rfl, rfl, hexec, hdevice⟩ := hcheck
  have hleaf : LeafEntry (s.entryAt k (tablePath va) (ptIndex va)) := by
    refine (h.leaf k (tablePath va) _ hown length_tablePath).resolve_left fun hzero => ?_
    rw [vmmQueryPage_eq h hown hal hcan, hzero] at hquery
    cases hquery
  obtain ⟨root, hroot⟩ : ∃ root, (s.map k).rootFrame = some root :=
    Option.ne_none_iff_exists'.mp fun hnone =>
      hleaf.ne_zero (entryAt_of_none (Forest.table_of_root_none hnone))
  rcases existingTables_cases h hown hroot with ⟨-, hnone⟩ | ⟨pml4, pdpt, pd, pt, hsome, ht⟩
  · exact absurd (entryAt_of_none hnone) hleaf.ne_zero
  rw [hroot, Option.bind_some, hsome] at hr
  have hentry : s.entryAt k (tablePath va) (ptIndex va) = s.table pt (ptIndex va) :=
    entryAt_of_table ht.pt
  obtain ⟨e4, e3, e2, -⟩ := ht.effectiveFlags h hown
  refine .inr ?_
  -- what is checked of the entries holds for every page that is found
  have hnx : Has (s.table pt (ptIndex va)) pteNx := by
    have hflags := hquery
    rw [vmmQueryPage_eq h hown hal hcan, leafView_leafEntry hleaf, hentry] at hflags
    obtain ⟨-, rfl⟩ := Prod.mk.inj (Option.some.inj hflags)
    by_contra hno
    refine hexec (has_or.mpr (.inl (has_or.mpr (.inr ?_))))
    rw [if_pos hno]
    decide
  have hbits : ¬ Has (s.table pt (ptIndex va)) (pteGlobal ||| pteHuge) := by
    rw [Has, BitVec.and_comm, ← Has, has_or, Has, Has, BitVec.and_comm, BitVec.and_comm pteHuge]
    exact hentry ▸ not_or.mpr ⟨hleaf.notGlobal, hleaf.notHuge⟩
  simp only [e4.write, e3.write, e2.write, hnx, hbits] at hr
  cases hr
  refine ⟨rfl, ⟨⟨hprofile, hkept, hactive⟩, hal, hcan, hown, hquery, hexec, hdevice⟩, hleaf, ?_⟩
  rw [hentry] at hleaf ⊢
  refine .of_store h hown ht.pt (.inr (hleaf.withWrite writable)) fun hhas => ?_
  refine h.user k [pml4Index va, pdptIndex va] (pdIndex va) (ptIndex va) hown (by simp) ?_
  change Has (s.entryAt k (tablePath va) (ptIndex va)) pteUser
  rw [hentry]
  exact (has_withWrite _ writable (by decide)).mp hhas

/-! ### Collecting -/

theorem vmmPageMapCollect_cases (h : VmInv A s) (hr : s.vmmPageMapCollect A cpu k = (b, s')) :
    Upkeep A k s s' ∧ (b = true → s'.Compact k) ∧
      (A.FreesAllocated → s.NoFaults → (s.map k).Reclaimable cpu → b = true) ∧
      (¬ (s.map k).Reclaimable cpu → b = false ∧ s' = s) := by
  unfold vmmPageMapCollect at hr
  split at hr
  · rename_i hroot
    cases hr
    exact ⟨.refl h, fun hb => absurd hb (by decide), fun _ _ hrec => absurd hroot hrec.1,
      fun _ => ⟨rfl, rfl⟩⟩
  rename_i root hroot
  split_ifs at hr with hrec
  swap
  · cases hr
    exact ⟨.refl h, fun hb => absurd hb (by decide), fun _ _ hr => absurd hr hrec,
      fun _ => ⟨rfl, rfl⟩⟩
  · have hcol := collectChildren_spec (q := []) h trivial rfl (Forest.table_nil.trans hroot)
      (by simpa using hrec.2.2.2.1) (fun i hi => mem_ownedIndices.mp hi) hr
    refine ⟨hcol.toUpkeep, ?_, fun hA hn _ => hcol.done hA hn, fun hnot => absurd hrec hnot⟩
    rintro rfl
    exact hcol.compact

end VmState

end JcosKernel
