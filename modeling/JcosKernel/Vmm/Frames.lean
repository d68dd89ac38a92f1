import JcosKernel.Vmm.Runs
import Mathlib.Order.CompletePartialOrder

/-!
# JcosKernel.Vmm.Frames

The frames that the tables of one page map take.

While a map is worked on, the frames outside of its tables are held as before (`Work.rest`), so
the allocated frames are always the rest and the tables. A map on which no table is empty takes
exactly the tables that its pages need (`tableAt_iff_leaf`): whatever was done in between, the
same pages take the same number of frames.
-/

namespace JcosKernel

open Lib

/-! ### Addresses and leaves -/

/-- Every leaf belongs to an address. -/
theorem exists_address (q : List TableIndex) (j : TableIndex) (hq : q.length = 3) :
    ∃ va, PageAligned va ∧ VirtualAddressCanonical va ∧ tablePath va = q ∧ ptIndex va = j := by
  obtain ⟨⟨a, ha⟩, ⟨b, hb⟩, ⟨c, hc⟩, rfl⟩ := List.length_eq_three.mp hq
  obtain ⟨d, hd⟩ := j
  simp only [pageTableEntries] at ha hb hc hd
  have hlow : a * 2 ^ 39 + b * 2 ^ 30 + c * 2 ^ 21 + d * 2 ^ 12 < 2 ^ 48 := by omega
  generalize hl : a * 2 ^ 39 + b * 2 ^ 30 + c * 2 ^ 21 + d * 2 ^ 12 = low at hlow
  -- the upper bits repeat bit 47
  refine ⟨(if 256 ≤ a then 0xFFFF else 0) * 2 ^ 48 + low, ?_, ?_, ?_, ?_⟩
  · unfold PageAligned
    split_ifs <;> omega
  · unfold VirtualAddressCanonical
    split_ifs <;> omega
  · simp only [tablePath, pml4Index, pdptIndex, pdIndex, tableIndex, pageTableEntries,
      List.cons.injEq, Fin.mk.injEq, and_true]
    split_ifs <;> omega
  · simp only [ptIndex, tableIndex, pageTableEntries, Fin.mk.injEq]
    split_ifs <;> omega

namespace VmState

variable {R σ : Type} {A : Allocator Nat σ} {cpu : Cpu} {s s₀ s₁ s' : VmState R σ} {k : R}
  {q p : List TableIndex} {i j : TableIndex} {a va : Nat} {b : Bool} {e : Pte}

/-- A page is mapped if its leaf is used. -/
theorem VmInv.isSome_query (h : VmInv A s) (hal : PageAligned va)
    (hcan : VirtualAddressCanonical va) (hown : (s.map k).OwnsPml4Index (pml4Index va)) :
    (s.vmmQueryPage k va).isSome ↔ s.entryAt k (tablePath va) (ptIndex va) ≠ 0 := by
  rw [vmmQueryPage_eq h hown hal hcan]
  rcases h.leaf k (tablePath va) (ptIndex va) hown length_tablePath with hz | hl
  · rw [hz, leafView_zero]
    simp
  · rw [leafView_leafEntry hl]
    exact iff_of_true rfl hl.ne_zero

theorem VmInv.noLeaves_iff (h : VmInv A s) : s.NoLeaves k ↔
    ∀ va, (s.map k).OwnsPml4Index (pml4Index va) → s.vmmQueryPage k va = none := by
  constructor
  · intro hl va hown
    by_cases hgood : PageAligned va ∧ VirtualAddressCanonical va
    · rw [vmmQueryPage_eq h hown hgood.1 hgood.2, hl (tablePath va) _ hown length_tablePath,
        leafView_zero]
    · exact vmmQueryPage_bad_address (not_and_or.mp hgood)
  · intro hall p j hp hd
    obtain ⟨va, hal, hcan, rfl, rfl⟩ := exists_address p j hd
    have hq := (h.isSome_query hal hcan hp).not
    rw [hall va hp] at hq
    exact not_not.mp (hq.mp (by simp))

/-! ### Compact maps -/

theorem StoresLeaf.fullPath (st : StoresLeaf A k va e s s') (he : e ≠ 0) :
    s'.FullPath k (tablePath va) := by
  rcases hpt : s'.tableAt k (tablePath va) with _ | pt
  · have := st.store
    rw [entryAt_of_none hpt] at this
    exact absurd this.symm he
  · have hfull : ¬ s'.TableEmpty pt := fun hempty => by
      rw [tableEmpty_iff hpt] at hempty
      exact he (st.store.symm.trans (hempty _))
    simpa using fullPath_of_last (v := []) hpt (fun _ => hfull) (by simp)

/-- A leaf may be stored in a compact map if no table on its path is empty afterwards. -/
theorem StoresLeaf.compact (st : StoresLeaf A k va e s s') (hfull : s'.FullPath k (tablePath va))
    (hc : s.Compact k) : s'.Compact k := by
  intro q a hq hne hd ha
  by_cases hpre : q <+: tablePath va
  · exact hfull q hpre hne a ha
  have hnot : ∀ t, ¬ q ++ t <+: tablePath va ++ [ptIndex va] := fun t ht =>
    hpre (List.prefix_of_prefix_length_le ((List.prefix_append q t).trans ht)
      (List.prefix_append _ _) (by rw [length_tablePath]; exact hd))
  have hq' : s.forest.Owned k q := st.forest ▸ hq
  have ha' : s.tableAt k q = some a := by
    rw [← ha]
    exact (tableAt_eq_of_entryAt_of_not (· <+: tablePath va ++ [ptIndex va]) st.map st.entry hq' hd
      (by simpa using hnot [])).symm
  have hold := hc q a hq' hne hd ha'
  rw [tableEmpty_iff ha'] at hold
  rw [tableEmpty_iff ha]
  refine fun hempty => hold fun j => ?_
  rw [← st.entry q j hq' hd (hnot [j]), hempty j]

theorem Upkeep.compact (h : VmInv A s) (u : Upkeep A k s s')
    (htab : ∀ p, s.forest.Owned k p → p.length ≤ 3 → s'.tableAt k p = s.tableAt k p)
    (hc : s.Compact k) : s'.Compact k := by
  intro q a hq hne hd ha
  have hq' : s.forest.Owned k q := u.forest ▸ hq
  have ha' : s.tableAt k q = some a := (htab q hq' hd).symm.trans ha
  rw [u.tableEmpty h htab hq' hd ha']
  exact hc q a hq' hne hd ha'

/-- In a compact map there is a table for every used leaf, and no other. -/
theorem VmInv.tableAt_iff_leaf (h : VmInv A s) (hc : s.Compact k) (hq : s.forest.Owned k q)
    (hne : q ≠ []) (hd : q.length ≤ 3) : (∃ a, s.tableAt k q = some a) ↔
      ∃ p j, p.length = 3 ∧ q <+: p ∧ s.entryAt k p j ≠ 0 := by
  constructor
  · rintro ⟨a, ha⟩
    exact h.exists_leaf hc hq hne hd ha
  · rintro ⟨p, j, -, ⟨t, rfl⟩, hleaf⟩
    rcases hp : s.tableAt k (q ++ t) with _ | c
    · exact absurd (entryAt_of_none hp) hleaf
    · exact exists_tableAt_of_append hp

/-! ### Counting tables -/

/-- The paths that lead to the tables of a map. -/
def tablePaths (s : VmState R σ) (k : R) : Set (List TableIndex) :=
  {q | s.forest.Owned k q ∧ q.length ≤ 3 ∧ ∃ a, s.tableAt k q = some a}

/-- Different paths lead to different tables. -/
theorem VmInv.ncard_tablesOf (h : VmInv A s) : (s.tablesOf k).ncard = (s.tablePaths k).ncard := by
  symm
  refine Set.ncard_congr (fun q _ => (s.tableAt k q).getD 0) ?_ ?_ ?_
  · rintro q ⟨hq, hd, a, ha⟩
    simp only [ha]
    exact mem_tablesOf hq hd ha
  · rintro q p ⟨hq, hd, a, ha⟩ ⟨hp, hpd, c, hc⟩ heq
    simp only [ha, hc] at heq
    subst heq
    exact (h.separated k q k p a hq hd hp hpd ha hc).2
  · rintro a ⟨q, hq, hd, ha⟩
    have ha' : s.tableAt k q = some a := ha
    exact ⟨q, ⟨hq, hd, a, ha⟩, by rw [ha', Option.getD_some]⟩

/-- Compact maps with the same pages have tables at the same paths. -/
theorem VmInv.tablePaths_eq (h : VmInv A s) (h0 : VmInv A s₀) (hc : s.Compact k)
    (hc0 : s₀.Compact k) (hown : s.forest.own k = s₀.forest.own k)
    (hroot : (s.map k).rootFrame ≠ none) (hroot0 : (s₀.map k).rootFrame ≠ none)
    (hpages : ∀ va, (s.map k).OwnsPml4Index (pml4Index va) →
      (s.vmmQueryPage k va).isSome = (s₀.vmmQueryPage k va).isSome) :
    s.tablePaths k = s₀.tablePaths k := by
  have howned : ∀ q, s.forest.Owned k q ↔ s₀.forest.Owned k q := fun _ => Forest.owned_congr hown
  have hleaf : ∀ p j, s.forest.Owned k p → p.length = 3 →
      (s.entryAt k p j ≠ 0 ↔ s₀.entryAt k p j ≠ 0) := by
    intro p j hp hd
    obtain ⟨va, hal, hcan, rfl, rfl⟩ := exists_address p j hd
    rw [← h.isSome_query hal hcan hp, hpages va hp, h0.isSome_query hal hcan ((howned _).mp hp)]
  ext q
  by_cases hq : s.forest.Owned k q
  swap
  · exact iff_of_false (fun h => hq h.1) fun h => hq ((howned q).mpr h.1)
  refine and_congr (howned q) (and_congr_right fun hd => ?_)
  by_cases hne : q = []
  · subst hne
    obtain ⟨r, hr⟩ := Option.ne_none_iff_exists'.mp hroot
    obtain ⟨r0, hr0⟩ := Option.ne_none_iff_exists'.mp hroot0
    exact iff_of_true ⟨r, Forest.table_nil.trans hr⟩ ⟨r0, Forest.table_nil.trans hr0⟩
  rw [h.tableAt_iff_leaf hc hq hne hd, h0.tableAt_iff_leaf hc0 ((howned q).mp hq) hne hd]
  refine exists₂_congr fun p j => and_congr_right fun hp => and_congr_right fun hpre => ?_
  obtain ⟨t, rfl⟩ := hpre
  exact hleaf _ j (hq.append_of_ne_nil hne t) hp

/-! ### Work on one inactive map -/

/-- What holds of an inactive map that nobody shares, between two faults. -/
structure Quiet (A : Allocator Nat σ) (k : R) (s : VmState R σ) : Prop where
  inv : VmInv A s
  calm : s.NoFaults
  exported : (s.map k).sharedSource = false

/-- What calls on the map `k` keep. -/
structure Tended (A : Allocator Nat σ) (k : R) (s s' : VmState R σ) : Prop where
  rest : s'.held A \ s'.tablesOf k = s.held A \ s.tablesOf k
  memory : ∀ f ∈ s.held A, f ∉ s.tablesOf k → s'.table f = s.table f
  range : (s'.map k).rootFrame = none ∨
    (s'.map k).rootFrame = (s.map k).rootFrame ∧ s'.forest.own k = s.forest.own k
  compact : s.Compact k → s'.Compact k

theorem Tended.refl (s : VmState R σ) : Tended A k s s :=
  ⟨rfl, fun _ _ _ => rfl, .inr ⟨rfl, rfl⟩, id⟩

theorem Tended.trans {s s₁ s' : VmState R σ} (t : Tended A k s s₁) (u : Tended A k s₁ s') :
    Tended A k s s' where
  rest := u.rest.trans t.rest
  memory f hf hk := by
    have hf' : f ∈ s₁.held A \ s₁.tablesOf k := t.rest ▸ ⟨hf, hk⟩
    rw [u.memory f hf'.1 hf'.2, t.memory f hf hk]
  range := by
    rcases u.range with hu | ⟨hu, hou⟩
    · exact .inl hu
    · rcases t.range with ht | ⟨ht, hot⟩
      · exact .inl (hu.trans ht)
      · exact .inr ⟨hu.trans ht, hou.trans hot⟩
  compact hc := u.compact (t.compact hc)

theorem Work.tended (w : Work A k s s') (hc : s.Compact k → s'.Compact k) : Tended A k s s' :=
  ⟨w.rest, w.memory, .inr ⟨by rw [w.map], by rw [w.forest]⟩, hc⟩

theorem Work.quiet (w : Work A k s s') (hA : A.FreesAllocated) (h : Quiet A k s) : Quiet A k s' :=
  ⟨w.inv, w.calm hA h.calm, by rw [w.map]; exact h.exported⟩

theorem NoFaults.held_eq (h : s.NoFaults) : s.held A = A.allocated s.pmm := by
  simp [held, h.unlinked]

/-- The frames in use are the rest and the tables. -/
theorem Quiet.allocated_eq (h : Quiet A k s) :
    A.allocated s.pmm = s.held A \ s.tablesOf k ∪ s.tablesOf k := by
  rw [← h.calm.held_eq, Set.sdiff_union_of_subset h.inv.tablesOf_subset]

theorem Quiet.freeCount_eq (h0 : Quiet A k s₀) (h : Quiet A k s) (t : Tended A k s₀ s)
    (C : A.Counted) (hc0 : s₀.Compact k) (hroot : (s.map k).rootFrame ≠ none)
    (hpages : ∀ va, (s.map k).OwnsPml4Index (pml4Index va) →
      (s.vmmQueryPage k va).isSome = (s₀.vmmQueryPage k va).isSome) :
    C.freeCount s.pmm = C.freeCount s₀.pmm := by
  obtain ⟨hsame, hown⟩ := t.range.resolve_left hroot
  have htables : (s.tablesOf k).ncard = (s₀.tablesOf k).ncard := by
    rw [h.inv.ncard_tablesOf, h0.inv.ncard_tablesOf,
      h.inv.tablePaths_eq h0.inv (t.compact hc0) hc0 hown hroot (hsame ▸ hroot) hpages]
  have hcard : ∀ {s : VmState R σ}, Quiet A k s → (A.allocated s.pmm).ncard =
      (s.held A \ s.tablesOf k).ncard + (s.tablesOf k).ncard := by
    intro s h
    have hfin := C.finite s.pmm
    rw [h.allocated_eq] at hfin ⊢
    exact Set.ncard_union_eq Set.disjoint_sdiff_left (hfin.subset Set.subset_union_left)
      (hfin.subset Set.subset_union_right)
  refine C.freeCount_eq ?_
  rw [hcard h, hcard h0, t.rest, htables]

theorem tablesOf_of_root_none (h : (s.map k).rootFrame = none) : s.tablesOf k = ∅ := by
  rw [Set.eq_empty_iff_forall_notMem]
  rintro f ⟨q, -, -, hf⟩
  exact absurd ((Forest.table_of_root_none h).symm.trans hf) (by simp)

section Steps

variable [DecidableEq R]

/-- The calls that work on the map `k`. -/
inductive OnMap (k : R) : VmmCall R → Prop
  | map (va frame : Nat) (flags : VmFlags) : OnMap k (.map k va frame flags)
  | unmap (va : Nat) : OnMap k (.unmap k va)
  | setWritable (va expected : Nat) (flags : VmFlags) (writable : Bool) :
      OnMap k (.setWritable k va expected flags writable)
  | collect : OnMap k (.collect k)
  | destroy : OnMap k (.destroy k)

/-- A call on the map `k` while it is not active. -/
inductive InactiveStep (A : Allocator Nat σ) (k : R) :
    VmState R σ → VmmEvent R → VmState R σ → Prop
  | call {s s' : VmState R σ} (cpu : Cpu) {c : VmmCall R} {r : VmmResult} (hc : OnMap k c)
      (hact : ¬ (s.map k).Active cpu) (hr : c.exec A cpu s = (r, s')) :
      InactiveStep A k s (.call cpu c r) s'

theorem InactiveStep.tended {e : VmmEvent R} (hA : A.FreesAllocated) (h : Quiet A k s)
    (hs : InactiveStep A k s e s') : Quiet A k s' ∧ Tended A k s s' := by
  obtain ⟨cpu, hc, hact, hr⟩ := hs
  cases hc with obtain ⟨b, hb, -⟩ := map_eq_mk hr
  | map va frame flags =>
    rcases vmmMapPage_cases h.inv hb with ⟨-, u, htab⟩ | ⟨-, acc, -, st⟩
    · exact ⟨u.quiet hA h, u.tended (u.compact h.inv (htab hact h.exported hA h.calm))⟩
    · exact ⟨st.quiet hA h,
        st.tended (st.compact (st.fullPath (leafEntry_leaf acc.frame flags).ne_zero))⟩
  | unmap va =>
    rcases vmmUnmapPage_cases h.inv hb with ⟨-, rfl⟩ | ⟨-, -, -, -, -, st, hfull⟩
    · exact ⟨h, .refl _⟩
    · exact ⟨st.quiet hA h, st.tended (st.compact (hfull hact h.exported hA h.calm))⟩
  | setWritable va expected flags writable =>
    rcases vmmSetWritable_cases h.inv hb with ⟨-, rfl, -⟩ | ⟨-, -, leaf, st⟩
    · exact ⟨h, .refl _⟩
    · exact ⟨st.quiet hA h,
        st.tended (st.compact (st.fullPath (leaf.withWrite writable).ne_zero))⟩
  | collect =>
    obtain ⟨u, hcompact, hdone, hskip⟩ := vmmPageMapCollect_cases h.inv hb
    by_cases hrec : (s.map k).Reclaimable cpu
    · exact ⟨u.quiet hA h, u.tended fun _ => hcompact (hdone hA h.calm hrec)⟩
    · obtain ⟨-, rfl⟩ := hskip hrec
      exact ⟨h, .refl _⟩
  | destroy =>
    obtain ⟨w, ⟨-, hfail⟩ | ⟨-, -, -, hroot, hexp, hheld⟩⟩ := vmmPageMapDestroy_cases h.inv hb
    · obtain ⟨rfl, -⟩ := hfail.calm hA h.calm
      exact ⟨h, .refl _⟩
    · refine ⟨⟨w.inv, w.calm hA h.calm, hexp⟩, ?_, w.memory, .inl hroot, fun _ => ?_⟩
      · rw [tablesOf_of_root_none hroot, Set.sdiff_empty, hheld]
      · intro q a _ _ _ ha
        exact absurd ((Forest.table_of_root_none hroot).symm.trans ha) (by simp)

theorem tended_of_run {es : List (VmmEvent R)} (hA : A.FreesAllocated) (h : Quiet A k s)
    (hrun : Run (InactiveStep A k) s es s') : Quiet A k s' ∧ Tended A k s s' :=
  ⟨hrun.invariant h fun _ _ _ h hs => (hs.tended hA h).1,
    hrun.between h (fun _ _ _ h hs => (hs.tended hA h).1) .refl (fun _ _ _ => .trans)
      fun _ _ _ h hs => (hs.tended hA h).2⟩

/-! ### The frames of an inactive map -/

/-- The accounts of the map `k` in a state `s` that calls on it led to from `s₀`. -/
structure TableFramesExact (A : Allocator Nat σ) (k : R) (s₀ s : VmState R σ) : Prop where
  /-- The frames in use are those that are no tables of the map, and its tables. -/
  allocated : A.allocated s.pmm = A.allocated s₀.pmm \ s₀.tablesOf k ∪ s.tablesOf k
  disjoint : Disjoint (A.allocated s₀.pmm \ s₀.tablesOf k) (s.tablesOf k)
  untouched : ∀ f ∈ A.allocated s₀.pmm \ s₀.tablesOf k, s.table f = s₀.table f
  /-- A failed `vmm_map_page` returns what it allocated. -/
  map_failed : ∀ cpu va frame flags s', ¬ (s.map k).Active cpu →
    s.vmmMapPage A cpu k va frame flags = (false, s') →
    A.allocated s'.pmm = A.allocated s.pmm ∧ s'.tablesOf k = s.tablesOf k
  /-- `vmm_unmap_page` leaves no empty table on the way to the page. -/
  unmapped : ∀ cpu va f s', ¬ (s.map k).Active cpu → s.vmmUnmapPage A cpu k va = (some f, s') →
    s'.FullPath k (tablePath va)
  /-- Without empty tables at the start, a table is there as long as a page below it is. -/
  needed : s₀.Compact k → ∀ q, s.forest.Owned k q → q ≠ [] → q.length ≤ 3 →
    ((∃ a, s.tableAt k q = some a) ↔ ∃ p j, p.length = 3 ∧ q <+: p ∧ s.entryAt k p j ≠ 0)
  collected : ∀ cpu s', s.vmmPageMapCollect A cpu k = (true, s') → s'.Compact k
  destroy_iff : ∀ cpu, ¬ (s.map k).Active cpu → cpu.ProfileSupported →
    (s.map k).rootFrame ≠ none → ((s.vmmPageMapDestroy A cpu k).1 = true ↔
      ∀ va, (s.map k).OwnsPml4Index (pml4Index va) → s.vmmQueryPage k va = none)
  destroyed : ∀ cpu s', s.vmmPageMapDestroy A cpu k = (true, s') →
    (s'.map k).rootFrame = none ∧ A.allocated s'.pmm = A.allocated s.pmm \ s.tablesOf k ∧
      ∀ f ∈ A.allocated s.pmm \ s.tablesOf k, s'.table f = s.table f
  /-- The same pages take the same number of frames. -/
  freeCount : ∀ C : A.Counted, s₀.Compact k → (s.map k).rootFrame ≠ none →
    (∀ va, (s.map k).OwnsPml4Index (pml4Index va) →
      (s.vmmQueryPage k va).isSome = (s₀.vmmQueryPage k va).isSome) →
    C.freeCount s.pmm = C.freeCount s₀.pmm

end Steps

end VmState

section Exact

open VmState

variable {R σ : Type} [DecidableEq R] {A : Allocator Nat σ} {b s₀ s : VmState R σ} {k : R}
  {es₀ es : List (VmmEvent R)}

/-- Whatever is called on an inactive map that nobody shares, its tables are the only frames
that come and go. -/
theorem table_frames_exact (hA : A.FreesAllocated) (hboot : VmmBoot b)
    (hreach : Run (VmmStep A) b es₀ s₀) (hcalm : s₀.NoFaults)
    (hexp : (s₀.map k).sharedSource = false) (hrun : Run (InactiveStep A k) s₀ es s) :
    TableFramesExact A k s₀ s := by
  have h₀ : Quiet A k s₀ := ⟨vmInv_of_run hboot hreach, hcalm, hexp⟩
  obtain ⟨h, t⟩ := tended_of_run hA h₀ hrun
  have hrest : s.held A \ s.tablesOf k = A.allocated s₀.pmm \ s₀.tablesOf k := by
    rw [t.rest, h₀.calm.held_eq]
  refine
    { allocated := by rw [h.allocated_eq, hrest]
      disjoint := hrest ▸ Set.disjoint_sdiff_left
      untouched := fun f hf => t.memory f (h₀.calm.held_eq ▸ hf.1) hf.2
      map_failed := fun cpu va frame flags s' hact hr => ?_
      unmapped := fun cpu va f s' hact hr => ?_
      needed := fun hc q hq hne hd => h.inv.tableAt_iff_leaf (t.compact hc) hq hne hd
      collected := fun cpu s' hr => (vmmPageMapCollect_cases h.inv hr).2.1 rfl
      destroy_iff := fun cpu hact hprofile hroot => ?_
      destroyed := fun cpu s' hr => ?_
      freeCount := fun C hc hroot hpages => h₀.freeCount_eq h t C hc hroot hpages }
  · rcases vmmMapPage_cases h.inv hr with ⟨-, u, htab⟩ | ⟨hb, -⟩
    · have htables : s'.tablesOf k = s.tablesOf k :=
        tablesOf_congr u.map (htab hact h.exported hA h.calm)
      rw [(u.quiet hA h).allocated_eq, h.allocated_eq, u.rest, htables]
      exact ⟨rfl, rfl⟩
    · cases hb
  · rcases vmmUnmapPage_cases h.inv hr with ⟨⟨⟩, -⟩ | ⟨-, -, -, -, -, -, hfull⟩
    exact hfull hact h.exported hA h.calm
  · rcases hd : s.vmmPageMapDestroy A cpu k with ⟨r, s'⟩
    rw [← h.inv.noLeaves_iff]
    have hrec : (s.map k).Reclaimable cpu :=
      ⟨hroot, (h.inv.range k hroot).1, (h.inv.range k hroot).2, by simp [h.exported], hact, hprofile⟩
    obtain ⟨-, ⟨rfl, hfail⟩ | ⟨rfl, hl, -⟩⟩ := vmmPageMapDestroy_cases h.inv hd
    · obtain ⟨-, hwhy⟩ := hfail.calm hA h.calm
      exact iff_of_false (by simp) (hwhy.resolve_left (not_not_intro hrec))
    · exact iff_of_true rfl hl
  · obtain ⟨w, ⟨⟨⟩, -⟩ | ⟨-, -, -, hroot, -, hheld⟩⟩ := vmmPageMapDestroy_cases h.inv hr
    rw [h.calm.held_eq, (w.calm hA h.calm).held_eq] at hheld
    exact ⟨hroot, hheld, fun f hf => w.memory f (h.calm.held_eq ▸ hf.1) hf.2⟩

/-- A new map has one table, which was not in use. -/
theorem Quiet.created {cpu : Cpu} {first last : Nat} (hA : A.FreesAllocated) (h : VmInv A s₀)
    (hcalm : s₀.NoFaults) (hnone : (s₀.map k).rootFrame = none)
    (hcreate : s₀.vmmPageMapCreateOwnedRange A cpu k first last = (true, s)) :
    Quiet A k s ∧ s.held A \ s.tablesOf k = s₀.held A ∧
      ∀ f ∈ s₀.held A, s.table f = s₀.table f := by
  obtain ⟨w, ⟨⟨⟩, -⟩ | ⟨-, root, hmap, -, -, hnew, hheld, htables, -⟩⟩ :=
    vmmPageMapCreateOwnedRange_cases h hnone hcreate
  refine ⟨⟨w.inv, w.calm hA hcalm, by rw [hmap]⟩, ?_, fun f hf => w.memory f hf ?_⟩
  · rw [htables, hheld, Set.insert_sdiff_self_of_notMem hnew]
  · simp [tablesOf_of_root_none hnone]

/-- What a page map has ever taken from the physical memory manager is back when the map is
destroyed, and no other frame in use has changed. -/
theorem page_map_returns_frames {base : PmmState} {b s₀ s₁ s : VmState R (PmmPool base)} {cpu : Cpu}
    {first last : Nat} (hboot : VmmBoot b) (hreach : Run (VmmStep (pmmFrames base)) b es₀ s₀)
    (hcalm : s₀.NoFaults) (hnone : (s₀.map k).rootFrame = none)
    (hcreate : s₀.vmmPageMapCreateOwnedRange (pmmFrames base) cpu k first last = (true, s₁))
    (hrun : Run (InactiveStep (pmmFrames base) k) s₁ es s) (hgone : (s.map k).rootFrame = none) :
    s.pmm.1.InUse = s₀.pmm.1.InUse ∧ s.pmm.1.freePages = s₀.pmm.1.freePages ∧
      ∀ f ∈ s₀.pmm.1.InUse, s.table f = s₀.table f := by
  have hA := pmmFrames_freesAllocated base
  obtain ⟨h₁, hrest₁, hmemory⟩ :=
    Quiet.created hA (vmInv_of_run hboot hreach) hcalm hnone hcreate
  obtain ⟨h, t⟩ := tended_of_run hA h₁ hrun
  have hrest := t.rest.trans hrest₁
  rw [tablesOf_of_root_none hgone, Set.sdiff_empty, h.calm.held_eq, hcalm.held_eq] at hrest
  refine ⟨hrest, (pmmFramesCounted base).freeCount_eq (congrArg _ hrest), fun f hf => ?_⟩
  have hf₀ : f ∈ s₀.held (pmmFrames base) := hcalm.held_eq ▸ hf
  have hf₁ := hrest₁ ▸ hf₀
  rw [t.memory f hf₁.1 hf₁.2, hmemory f hf₀]

/-- Calls on one map, executed one after another. -/
theorem inactiveRun_of_execVmmCalls {cs : List (Cpu × VmmCall R)} (h : ∀ c ∈ cs, OnMap k c.2)
    (hact : ∀ c ∈ cs, c.1.cr3 &&& pteAddressMask = 0) (hi : Quiet A k s₀)
    (hA : A.FreesAllocated) :
    Run (InactiveStep A k) s₀ (execAll (execVmmCall A) cs s₀).1 (execAll (execVmmCall A) cs s₀).2 := by
  refine .of_execAll hi fun c hc s hi => ?_
  have hinactive : ¬ (s.map k).Active c.1 := by
    rintro ⟨root, hroot, heq⟩
    -- no table is at physical address zero
    have hvalid := (hi.inv.root_mem hroot).2.valid
    rw [hact c hc] at heq
    have hnat := congrArg BitVec.toNat heq
    rw [framePte_toNat hvalid.2.1, ← (frameToPhys_eq hvalid.2.1).1] at hnat
    exact hvalid.2.1 hnat.symm
  have hstep : InactiveStep A k s (execVmmCall A c s).1 _ := .call c.1 (h c hc) hinactive rfl
  exact ⟨hstep, (hstep.tended hA hi).1⟩

end Exact

/-- A page, mapped and unmapped. -/
def mapAndUnmap : List (Cpu × VmmCall Unit) :=
  [(plainCpu, .map () 0x400000 0x500 vmWrite), (plainCpu, .unmap () 0x400000)]

/-- The three tables of the page are freed again; the root stays. -/
theorem table_frames_exact_mapAndUnmap :
    ∃ s₀ s : VmState Unit (PmmPool smallPmm), VmState.TableFramesExact (pmmFrames smallPmm) () s₀ s ∧
      s₀.pmm.1.freePages = 14 ∧ s.pmm.1.freePages = 14 := by
  let s₁ := ((VmmCall.create () 0 256).exec (pmmFrames smallPmm) plainCpu smallVm).2
  have hboot : VmmBoot smallVm := ⟨fun _ => rfl, rfl⟩
  have hcreate : Run (VmmStep (pmmFrames smallPmm)) smallVm
      [.call plainCpu (.create () 0 256) ((VmmCall.create () 0 256).exec (pmmFrames smallPmm)
        plainCpu smallVm).1] s₁ := .single (.call plainCpu rfl rfl)
  have hcalm : s₁.NoFaults := by
    refine ⟨fun fault => ?_, by decide +kernel⟩
    cases fault <;> decide +kernel
  have hexp : (s₁.map ()).sharedSource = false := by decide +kernel
  have hrun := inactiveRun_of_execVmmCalls (k := ())
    (show ∀ c ∈ mapAndUnmap, VmState.OnMap () c.2 by
      simp only [mapAndUnmap, List.mem_cons, List.not_mem_nil, or_false, forall_eq_or_imp, forall_eq]
      exact ⟨.map _ _ _, .unmap _⟩)
    (by simp [mapAndUnmap, plainCpu]) ⟨vmInv_of_run hboot hcreate, hcalm, hexp⟩
    (pmmFrames_freesAllocated smallPmm)
  refine ⟨s₁, _, table_frames_exact (pmmFrames_freesAllocated smallPmm) hboot hcreate hcalm hexp hrun,
    ?_, ?_⟩
  · decide +kernel
  · decide +kernel

/-- The page is mapped and unmapped, and the map destroyed. -/
def mapLife : List (Cpu × VmmCall Unit) := mapAndUnmap ++ [(plainCpu, .destroy ())]

theorem page_map_returns_frames_mapLife : ∃ s : VmState Unit (PmmPool smallPmm),
    (s.map ()).rootFrame = none ∧ s.pmm.1.InUse = smallVm.pmm.1.InUse := by
  have hfacts : let q := smallVm.vmmPageMapCreateOwnedRange (pmmFrames smallPmm) plainCpu () 0 256
      (q.1, ((execAll (execVmmCall (pmmFrames smallPmm)) mapLife q.2).2.map ()).rootFrame) =
        (true, none) := by
    decide +kernel
  rcases hcreate : smallVm.vmmPageMapCreateOwnedRange (pmmFrames smallPmm) plainCpu () 0 256 with
    ⟨r, s₁⟩
  simp only [hcreate, Prod.mk.injEq] at hfacts
  obtain ⟨rfl, hgone⟩ := hfacts
  have hA := pmmFrames_freesAllocated smallPmm
  have hboot : VmmBoot smallVm := ⟨fun _ => rfl, rfl⟩
  have hcalm : smallVm.NoFaults := ⟨fun _ => rfl, rfl⟩
  have hrun := inactiveRun_of_execVmmCalls
    (show ∀ c ∈ mapLife, VmState.OnMap () c.2 by
      simp only [mapLife, mapAndUnmap, List.cons_append, List.nil_append, List.mem_cons,
        List.not_mem_nil, or_false, forall_eq_or_imp, forall_eq]
      exact ⟨.map _ _ _, .unmap _, .destroy⟩)
    (by simp [mapLife, mapAndUnmap, plainCpu])
    (Quiet.created hA (vmInv_of_run hboot (.nil _)) hcalm rfl hcreate).1 hA
  exact ⟨_, hgone, (page_map_returns_frames hboot (.nil _) hcalm rfl hcreate hrun hgone).1⟩

end JcosKernel
