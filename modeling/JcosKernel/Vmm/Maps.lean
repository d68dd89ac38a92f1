import JcosKernel.Vmm.Ops

/-!
# JcosKernel.Vmm.Maps

The operations of `vmm.c` that change which page maps there are: creating one, sharing a PML4
entry, destroying one.

The record of a map decides where its tree starts. Two lemmas cover all changes of it: its flags
may change (`VmInv.setFlags`), and the map may lose its root or get a zeroed one
(`VmInv.setMap`). The other maps do not notice (`setMap_entryAt_of_ne`).
-/

namespace JcosKernel

open Lib

namespace VmState

variable {R σ : Type} {A : Allocator Nat σ} {cpu : Cpu} {s s₁ s' s'' : VmState R σ} {k k' : R}
  {q p : List TableIndex} {i j : TableIndex} {a c f r : Nat} {b : Bool} {e : Pte} {v : VmPageMap}

/-! ### The record of a map -/

theorem entryAt_congr (hf : s'.forest = s.forest) (ht : s'.table = s.table) :
    s'.entryAt k q i = s.entryAt k q i := by
  rw [entryAt, hf, ht]

theorem tablesOf_eq (hf : s'.forest = s.forest) (ht : s'.table = s.table) :
    s'.tablesOf k = s.tablesOf k := by
  rw [tablesOf, hf, ht]

section SetMap

variable [DecidableEq R]

@[simp] theorem setMap_map_self : (s.setMap k v).map k = v := Function.update_self ..
@[simp] theorem setMap_table : (s.setMap k v).table = s.table := rfl

section

variable (hk : k' ≠ k)
include hk

theorem setMap_map_of_ne : (s.setMap k v).map k' = s.map k' :=
  Function.update_of_ne hk ..

theorem setMap_root_of_ne : (s.setMap k v).forest.root k' = s.forest.root k' := by
  change ((s.setMap k v).map k').rootFrame = _
  rw [setMap_map_of_ne hk]
  rfl

theorem setMap_own_of_ne : (s.setMap k v).forest.own k' = s.forest.own k' := by
  change (fun i => ((s.setMap k v).map k').OwnsPml4Index i) = _
  rw [setMap_map_of_ne hk]
  rfl

theorem setMap_owned_of_ne : (s.setMap k v).forest.Owned k' q ↔ s.forest.Owned k' q :=
  Forest.owned_congr (setMap_own_of_ne hk)

theorem setMap_tableAt_of_ne : (s.setMap k v).tableAt k' q = s.tableAt k' q := by
  rw [tableAt, tableAt, Forest.table, setMap_root_of_ne hk]
  rfl

theorem setMap_entryAt_of_ne : (s.setMap k v).entryAt k' q i = s.entryAt k' q i :=
  entryAt_of_tableAt_eq (setMap_tableAt_of_ne hk) fun _ _ => rfl

end

/-- A map without a root, or with a zeroed one that is not a table yet. -/
structure NewMap (A : Allocator Nat σ) (s : VmState R σ) (k : R) (v : VmPageMap) : Prop where
  held : ∀ r, v.rootFrame = some r → r ∈ s.held A ∧ s.Usable r
  zero : ∀ r, v.rootFrame = some r → ∀ j, s.table r j = 0
  fresh : ∀ r, v.rootFrame = some r → ∀ k', k' ≠ k → r ∉ s.tablesOf k'
  range : v.rootFrame ≠ none → v.RangeValid

namespace NewMap

omit [DecidableEq R] in
theorem of_none (hv : v.rootFrame = none) : NewMap A s k v := by
  constructor <;> simp [hv]

theorem tableAt (n : NewMap A s k v) :
    (s.setMap k v).tableAt k q = if q = [] then v.rootFrame else none := by
  have hroot : (s.setMap k v).forest.root k = v.rootFrame := by
    change ((s.setMap k v).map k).rootFrame = _
    rw [setMap_map_self]
  rcases hr : v.rootFrame with _ | r
  · rw [ite_self]
    exact Forest.table_of_root_none (hroot.trans hr)
  · exact Forest.table_of_zero tableChild_zero (hroot.trans hr) (n.zero r hr)

theorem entryAt (n : NewMap A s k v) : (s.setMap k v).entryAt k q i = 0 := by
  rcases ht : (s.setMap k v).tableAt k q with _ | a
  · exact entryAt_of_none ht
  · rw [entryAt_of_table ht]
    rw [n.tableAt] at ht
    split_ifs at ht
    exact n.zero a ht i

theorem tablesOf (n : NewMap A s k v) :
    (s.setMap k v).tablesOf k = {r | v.rootFrame = some r} := by
  ext b
  constructor
  · rintro ⟨q, hq, hd, hb⟩
    change (s.setMap k v).tableAt k q = some b at hb
    rw [n.tableAt] at hb
    split_ifs at hb
    exact hb
  · intro hb
    refine ⟨[], trivial, Nat.zero_le _, ?_⟩
    change (s.setMap k v).tableAt k [] = some b
    rw [n.tableAt]
    exact hb

end NewMap

/-- A map may be replaced by a new one, unless others share its tables. -/
theorem VmInv.setMap (h : VmInv A s) (n : NewMap A s k v)
    (hsrc : (s.map k).rootFrame = none ∨ (s.map k).sharedSource = false) :
    VmInv A (s.setMap k v) := by
  have hat : ∀ {k' q a}, (s.setMap k v).forest.Owned k' q → (s.setMap k v).tableAt k' q = some a →
      k' = k ∧ q = [] ∧ v.rootFrame = some a ∨
        k' ≠ k ∧ s.forest.Owned k' q ∧ s.tableAt k' q = some a := by
    intro k' q a hq ha
    by_cases hk : k' = k
    · subst hk
      rw [n.tableAt] at ha
      split_ifs at ha with hnil
      exact .inl ⟨rfl, hnil, ha⟩
    · rw [setMap_tableAt_of_ne hk] at ha
      exact .inr ⟨hk, (setMap_owned_of_ne hk).mp hq, ha⟩
  refine
    { separated := fun k1 q1 k2 q2 a hq1 hd1 hq2 hd2 h1 h2 => ?_
      tables := fun k' q a hq hd ha => ?_
      inner := fun k' q i hq hd => ?_
      leaf := fun k' q i hq hd => ?_
      user := fun k' q i j hq hd hu => ?_
      shared := fun k' i hi => ?_
      unlinked := h.unlinked
      range := fun k' hr => ?_ }
  · rcases hat hq1 h1 with ⟨rfl, rfl, e1⟩ | ⟨hk1, hq1, h1⟩ <;>
      rcases hat hq2 h2 with ⟨hk, rfl, e2⟩ | ⟨hk2, hq2, h2⟩
    · exact ⟨hk.symm, rfl⟩
    · exact absurd (mem_tablesOf hq2 hd2 h2) (n.fresh a e1 k2 hk2)
    · exact absurd (mem_tablesOf hq1 hd1 h1) (n.fresh a e2 k1 hk1)
    · exact h.separated k1 q1 k2 q2 a hq1 hd1 hq2 hd2 h1 h2
  · rcases hat hq ha with ⟨-, -, ha⟩ | ⟨-, hq, ha⟩
    · exact ⟨(n.held a ha).1, (n.held a ha).2.pointer, (n.held a ha).2.valid⟩
    · obtain ⟨hheld, hu⟩ := h.tables k' q a hq hd ha
      exact ⟨hheld, hu.pointer, hu.valid⟩
  · by_cases hk : k' = k
    · subst hk
      exact .inl n.entryAt
    · rw [setMap_entryAt_of_ne hk]
      exact h.inner k' q i ((setMap_owned_of_ne hk).mp hq) hd
  · by_cases hk : k' = k
    · subst hk
      exact .inl n.entryAt
    · rw [setMap_entryAt_of_ne hk]
      exact h.leaf k' q i ((setMap_owned_of_ne hk).mp hq) hd
  · by_cases hk : k' = k
    · subst hk
      rw [n.entryAt] at hu
      exact absurd hu not_has_zero
    · rw [setMap_entryAt_of_ne hk] at hu ⊢
      exact h.user k' q i j ((setMap_owned_of_ne hk).mp hq) hd hu
  · by_cases hk : k' = k
    · subst hk
      exact .inl n.entryAt
    · rw [setMap_own_of_ne hk] at hi
      rw [setMap_entryAt_of_ne hk]
      refine (h.shared k' i hi).imp_right ?_
      rintro ⟨he, src, hs, hown, hc⟩
      -- the map that is replaced is no source of anybody
      have hne : src ≠ k := by
        rintro rfl
        rcases hsrc with hnone | hfalse
        · rw [he.child, entryAt_of_none (Forest.table_of_root_none hnone)] at hc
          cases hc
        · rw [hfalse] at hs
          cases hs
      refine ⟨he, src, ?_, ?_, ?_⟩
      · rw [setMap_map_of_ne hne]
        exact hs
      · rw [setMap_own_of_ne hne]
        exact hown
      · rw [setMap_entryAt_of_ne hne]
        exact hc
  · by_cases hk : k' = k
    · subst hk
      rw [setMap_map_self] at hr ⊢
      exact n.range hr
    · rw [setMap_map_of_ne hk] at hr ⊢
      exact h.range k' hr

end SetMap

/-! ### What the other maps see -/

/-- The work was on the map `k` or its record; the trees of the other maps are as before. -/
structure Apart (A : Allocator Nat σ) (k : R) (s s' : VmState R σ) : Prop where
  inv : VmInv A s'
  map : ∀ k', k' ≠ k → s'.map k' = s.map k'
  /-- Frames that are no tables of `k` stay held and keep their content. -/
  rest : s.held A \ s.tablesOf k ⊆ s'.held A
  memory : ∀ f ∈ s.held A, f ∉ s.tablesOf k → s'.table f = s.table f
  usePhysMap : s'.usePhysMap = s.usePhysMap
  nxEnabled : s'.nxEnabled = s.nxEnabled
  calm : A.FreesAllocated → s.NoFaults → s'.NoFaults

theorem Work.apart (w : Work A k s s') : Apart A k s s' :=
  { w with
    map := fun _ _ => by rw [w.map]
    rest := fun f hf => by
      rw [← w.rest] at hf
      exact hf.1 }

namespace Apart

theorem root (w : Apart A k s s') (hk : k' ≠ k) : s'.forest.root k' = s.forest.root k' :=
  congrArg VmPageMap.rootFrame (w.map k' hk)

theorem own (w : Apart A k s s') (hk : k' ≠ k) : s'.forest.own k' = s.forest.own k' :=
  congrArg VmPageMap.OwnsPml4Index (w.map k' hk)

section

variable (w : Apart A k s s') (h : VmInv A s) (hk : k' ≠ k) (hq : s.forest.Owned k' q)
  (hd : q.length ≤ 3)
include w h hk hq hd

theorem tableAt : s'.tableAt k' q = s.tableAt k' q := by
  have hroot : s'.tableAt k' q = s.forest.table tableChild s'.table k' q := by
    rw [VmState.tableAt, Forest.table, Forest.table, w.root hk]
  rw [hroot]
  refine Forest.table_congr (fun p b hp hpd hb => ?_) hq hd
  exact w.memory b (h.tables k' p b hp hpd hb).1 (h.not_mem_tablesOf hk hp hpd hb)

theorem entryAt : s'.entryAt k' q i = s.entryAt k' q i :=
  entryAt_of_tableAt_eq (w.tableAt h hk hq hd) fun a ht =>
    w.memory a (h.tables k' q a hq hd ht).1 (h.not_mem_tablesOf hk hq hd ht)

end

theorem trans (w : Apart A k s s₁) (hrest : s₁.held A \ s₁.tablesOf k = s.held A \ s.tablesOf k)
    (v : Apart A k s₁ s') : Apart A k s s' where
  inv := v.inv
  map k' hk := (v.map k' hk).trans (w.map k' hk)
  rest f hf := v.rest (hrest ▸ hf)
  memory f hf hk := by
    have hf' : f ∈ s₁.held A \ s₁.tablesOf k := hrest ▸ ⟨hf, hk⟩
    rw [v.memory f hf'.1 hf'.2, w.memory f hf hk]
  usePhysMap := v.usePhysMap.trans w.usePhysMap
  nxEnabled := v.nxEnabled.trans w.nxEnabled
  calm hA hn := v.calm hA (w.calm hA hn)

end Apart

/-! ### Maps without leaves -/

/-- In a compact map every table but the root has a leaf below it. -/
theorem VmInv.exists_leaf (h : VmInv A s) (hc : s.Compact k) (hq : s.forest.Owned k q)
    (hne : q ≠ []) (hd : q.length ≤ 3) (ha : s.tableAt k q = some a) :
    ∃ p j, p.length = 3 ∧ q <+: p ∧ s.entryAt k p j ≠ 0 := by
  -- downwards, by the distance to the leaves
  induction hn : 3 - q.length generalizing q a with
  | zero =>
    have hfull := hc q a hq hne hd ha
    rw [tableEmpty_iff ha] at hfull
    obtain ⟨j, hj⟩ := not_forall.mp hfull
    exact ⟨q, j, by omega, List.prefix_rfl, hj⟩
  | succ n ih =>
    have hfull := hc q a hq hne hd ha
    rw [tableEmpty_iff ha] at hfull
    obtain ⟨i, hi⟩ := not_forall.mp hfull
    have hqi : s.forest.Owned k (q ++ [i]) := hq.append_of_ne_nil hne [i]
    obtain ⟨c, hchild⟩ := Option.ne_none_iff_exists'.mp
      (mt (h.entryAt_eq_zero hqi (by omega)).mpr hi)
    obtain ⟨p, j, hp, hpre, hleaf⟩ := ih hqi (by simp) (length_snoc_le (by omega)) hchild
      (by simp only [List.length_append, List.length_singleton]; omega)
    exact ⟨p, j, hp, (List.prefix_append q [i]).trans hpre, hleaf⟩

/-- No page is mapped in the owned range. -/
def NoLeaves (s : VmState R σ) (k : R) : Prop :=
  ∀ p j, s.forest.Owned k p → p.length = 3 → s.entryAt k p j = 0

theorem VmInv.tablesOf_of_noLeaves (h : VmInv A s) (hc : s.Compact k) (hl : s.NoLeaves k)
    (hroot : (s.map k).rootFrame = some r) : s.tablesOf k = {r} := by
  ext b
  constructor
  · rintro ⟨q, hq, hd, hb⟩
    by_cases hne : q = []
    · subst hne
      exact Option.some.inj (hb.symm.trans (Forest.table_nil.trans hroot))
    · obtain ⟨p, j, hp, hpre, hleaf⟩ := h.exists_leaf hc hq hne hd hb
      obtain ⟨t, rfl⟩ := hpre
      exact absurd (hl _ j (hq.append_of_ne_nil hne t) hp) hleaf
  · rintro rfl
    exact ⟨[], trivial, Nat.zero_le _, Forest.table_nil.trans hroot⟩

theorem treeHasNoLeaves_root (h : VmInv A s) (hroot : (s.map k).rootFrame = some r) :
    s.treeHasNoLeaves 4 r (s.ownedIndices k) = true ↔ s.NoLeaves k := by
  rw [treeHasNoLeaves_iff (q := []) h trivial rfl (Forest.table_nil.trans hroot)
    fun i hi => mem_ownedIndices.mp hi]
  constructor
  · intro hall p j hp hlen
    cases p with
    | nil => cases hlen
    | cons i p => exact hall i (mem_ownedIndices.mpr hp) (i :: p) j hlen ⟨p ++ [j], rfl⟩
  · rintro hall i hi p j hlen ⟨t, ht⟩
    cases p with
    | nil => cases hlen
    | cons i' p =>
      simp only [List.nil_append, List.cons_append, List.cons.injEq] at ht
      refine hall (i' :: p) j ?_ hlen
      rw [← ht.1]
      exact mem_ownedIndices.mp hi

/-! ### The quarantine and the faults -/

theorem vmmReclaimUnlinkedTable_books (h : VmInv A s)
    (hr : s.vmmReclaimUnlinkedTable A = (b, s')) : Books A s s' ∧ s'.held A = s.held A := by
  unfold vmmReclaimUnlinkedTable at hr
  rcases hun : s.unlinkedTable with _ | f
  · rw [hun] at hr
    cases hr
    exact ⟨.refl h, rfl⟩
  rw [hun] at hr
  rcases hfree : A.free f s.pmm with ⟨t, pmm⟩
  simp only [frameFree, hfree] at hr
  cases t with
  | false =>
    cases hr
    exact Books.of_allocated h (A.free_false hfree) fun _ => rfl
  | true =>
    cases hr
    obtain ⟨-, hall⟩ := A.free_true hfree
    have hheld : VmState.held A { s with pmm := pmm, unlinkedTable := none } = s.held A := by
      simp only [held, hall, hun, Set.mem_sdiff, Set.mem_singleton_iff, ne_eq,
        Option.some.injEq, reduceCtorEq, not_false_eq_true, and_true, eq_comm]
    refine ⟨⟨rfl, rfl, rfl, fun _ _ => rfl, hheld.ge, fun g hg => absurd hg (by simp),
      fun _ hn => ?_⟩, hheld⟩
    exact absurd (hun.symm.trans hn.unlinked) (by simp)

theorem vmmTestFailOnce_same {fault : VmmTestFault} {skip : Nat}
    (hr : s.vmmTestFailOnce k fault skip = (b, s')) : ∃ fs, s' = { s with faults := fs } := by
  unfold vmmTestFailOnce at hr
  split_ifs at hr
  · cases hr
    exact ⟨s.faults, rfl⟩
  · cases hr
    exact ⟨_, rfl⟩

variable [DecidableEq R]

/-! ### Creating -/

theorem vmmPageMapCreateOwnedRange_cases {first last : Nat} (h : VmInv A s)
    (hroot : (s.map k).rootFrame = none)
    (hr : s.vmmPageMapCreateOwnedRange A cpu k first last = (b, s')) :
    Apart A k s s' ∧
      ((b = false ∧ (s'.map k).rootFrame = none ∧ (s'.map k = s.map k ∨ s'.map k = .invalid) ∧
          s'.held A = s.held A) ∨
        b = true ∧ ∃ root, s'.map k = ⟨some root, first, last, false, false⟩ ∧ first < last ∧
          last ≤ pageTableEntries ∧ root ∉ s.held A ∧ s'.held A = insert root (s.held A) ∧
          s'.tablesOf k = {root} ∧ ∀ q i, s'.entryAt k q i = 0) := by
  unfold vmmPageMapCreateOwnedRange at hr
  split at hr
  · cases hr
    exact ⟨(Work.refl h).apart, .inl ⟨rfl, hroot, .inl rfl, rfl⟩⟩
  rename_i hguard
  simp only [not_or, Nat.not_le, Nat.not_lt] at hguard
  have hn0 : NewMap A s k .invalid := .of_none rfl
  have h0 := h.setMap hn0 (.inl hroot)
  rcases hal : (s.setMap k .invalid).allocateTable A k with ⟨r, s₁⟩
  rw [hal] at hr
  rcases allocateTable_cases h0 hal with ⟨rfl, hb, hheld⟩ | ⟨root, rfl, hf⟩
  · cases hr
    have hsame := hb.sameTrees h0
    refine ⟨⟨h0.elsewhere hsame, fun k' hk => ?_, fun f hf => hb.held hf.1,
      fun f hf _ => hb.memory f hf, hb.usePhysMap, hb.nxEnabled, fun hA hn => hb.calm hA ⟨hn.1, hn.2⟩⟩,
      .inl ⟨rfl, ?_, .inr ?_, hheld⟩⟩
    · rw [hb.map, setMap_map_of_ne hk]
    · rw [hb.map, setMap_map_self]
      rfl
    · rw [hb.map, setMap_map_self]
  · cases hr
    have hb := hf.books
    have hsame := hb.sameTrees h0
    have h1 := h0.elsewhere hsame
    have htables : ∀ k', s₁.tablesOf k' = (s.setMap k .invalid).tablesOf k' := fun k' =>
      tablesOf_congr hsame.map fun _ => hsame.tableAt
    have hn1 : NewMap A s₁ k ⟨some root, first, last, false, false⟩ := by
      refine ⟨fun r hr => ?_, fun r hr => ?_, fun r hr k' hk => ?_, fun _ => hguard.2⟩
      · cases hr
        exact ⟨hf.held ▸ Set.mem_insert root _, hf.usable⟩
      · cases hr
        exact hf.zero
      · cases hr
        rw [htables]
        exact fun hmem => hf.new (h0.tablesOf_subset hmem)
    have hroot1 : (s₁.map k).rootFrame = none := by
      rw [hb.map, setMap_map_self]
      rfl
    refine ⟨⟨h1.setMap hn1 (.inl hroot1), fun k' hk => ?_,
      fun f hf => hb.held hf.1, fun f hf _ => hb.memory f hf, hb.usePhysMap, hb.nxEnabled,
      fun hA hn => ?_⟩, .inr ⟨rfl, root, setMap_map_self, hguard.2.1, hguard.2.2, hf.new, hf.held,
        ?_, fun q i => hn1.entryAt⟩⟩
    · rw [setMap_map_of_ne hk, hb.map, setMap_map_of_ne hk]
    · have hn' := hb.calm hA ⟨hn.1, hn.2⟩
      exact ⟨hn'.1, hn'.2⟩
    · rw [hn1.tablesOf]
      ext g
      exact ⟨fun h => (Option.some.inj h).symm, fun h => congrArg some h.symm⟩

/-! ### Destroying -/

/-! Flags of a map that do not concern its tree. -/

section Flags

variable {shared pending : Bool}
  (hs : s' = s.setMap k { s.map k with sharedSource := shared, destroyPending := pending })
include hs

theorem setFlags_map : s'.map k' =
    if k' = k then { s.map k with sharedSource := shared, destroyPending := pending }
    else s.map k' := by
  rw [hs]
  split_ifs with hk
  · rw [hk, setMap_map_self]
  · exact setMap_map_of_ne hk

theorem setFlags_forest : s'.forest = s.forest := by
  have hmap : ∀ k', (s'.map k').rootFrame = (s.map k').rootFrame ∧
      (s'.map k').OwnsPml4Index = (s.map k').OwnsPml4Index := by
    intro k'
    rw [setFlags_map hs]
    split_ifs with hk
    · exact hk ▸ ⟨rfl, rfl⟩
    · exact ⟨rfl, rfl⟩
  unfold forest
  simp only [hmap]

/-- They may change, but a shared source stays one. -/
theorem VmInv.setFlags (h : VmInv A s) (hsrc : (s.map k).sharedSource = true → shared = true) :
    VmInv A s' := by
  have hf := setFlags_forest hs
  have ht : s'.table = s.table := by rw [hs, setMap_table]
  have hentry : ∀ k q i, s'.entryAt k q i = s.entryAt k q i := fun _ _ _ => entryAt_congr hf ht
  exact
    { separated := by
        rw [hf, ht]
        exact h.separated
      tables := fun k q a hq hd ha => by
        rw [hf] at hq
        rw [tableAt, hf, ht] at ha
        obtain ⟨hmem, hu⟩ := h.tables k q a hq hd ha
        exact hs ▸ ⟨hmem, hu.pointer, hu.valid⟩
      inner := by
        simp only [hentry, hf]
        exact h.inner
      leaf := by
        simp only [hentry, hf]
        exact h.leaf
      user := by
        simp only [hentry, hf]
        exact h.user
      shared := fun k' i hi => by
        rw [hf] at hi
        simp only [hentry, hf]
        refine (h.shared k' i hi).imp_right ?_
        rintro ⟨he, src, hshared, hown, hc⟩
        refine ⟨he, src, ?_, hown, hc⟩
        rw [setFlags_map hs]
        split_ifs with hk
        · exact hsrc (hk ▸ hshared)
        · exact hshared
      unlinked := by
        rw [hs]
        exact h.unlinked
      range := fun k' => by
        rw [setFlags_map hs]
        split_ifs with hk
        · exact h.range k
        · exact h.range k' }

end Flags

/-- The map is marked, and its empty tables are collected. -/
theorem collect_marked (h : VmInv A s) (hroot : (s.map k).rootFrame = some r)
    (hexp : (s.map k).sharedSource = false)
    (hr : collectChildren A k 4 r
      ((s.setMap k { s.map k with destroyPending := true }).ownedIndices k)
      (s.setMap k { s.map k with destroyPending := true }) = (b, s')) :
    Apart A k s s' ∧ s'.map k = { s.map k with destroyPending := true } ∧
      s'.held A \ s'.tablesOf k = s.held A \ s.tablesOf k ∧
      (∀ q i, s.forest.Owned k q → q.length = 3 → s'.entryAt k q i = s.entryAt k q i) ∧
      (∀ i, ¬ s.forest.own k i → s'.entryAt k [] i = s.entryAt k [] i) ∧
      (b = true → s'.Compact k) ∧ (A.FreesAllocated → s.NoFaults → b = true) := by
  set s0 := s.setMap k { s.map k with destroyPending := true } with hs0
  have hmap0 : s0.map k = { s.map k with destroyPending := true } := setMap_map_self
  have hf0 : s0.forest = s.forest := setFlags_forest hs0
  have h0 : VmInv A s0 := h.setFlags hs0 id
  have hroot0 : (s0.map k).rootFrame = some r := by rw [hmap0, ← hroot]
  have hexp0 : (s0.map k).sharedSource = false := by rw [hmap0, ← hexp]
  have c := collectChildren_spec (q := []) h0 trivial rfl (Forest.table_nil.trans hroot0) hexp0
    (fun i hi => mem_ownedIndices.mp hi) hr
  have htables0 : s0.tablesOf k = s.tablesOf k := tablesOf_eq hf0 rfl
  have hrest : s'.held A \ s'.tablesOf k = s.held A \ s.tablesOf k := by
    rw [c.rest, htables0]
    rfl
  refine ⟨⟨c.inv, fun k' hk => ?_, fun f hf => ?_, fun f hf hk => ?_, c.usePhysMap,
    c.nxEnabled, fun hA hn => c.calm hA ⟨hn.1, hn.2⟩⟩, ?_, hrest,
    fun q i hq hd => ?_, fun i hi => ?_, ?_, fun hA hn => c.done hA ⟨hn.1, hn.2⟩⟩
  · rw [c.map, setMap_map_of_ne hk]
  · rw [← hrest] at hf
    exact hf.1
  · exact c.memory f hf (htables0 ▸ hk)
  · rw [c.map, hmap0]
  · exact (c.leaf q i (hf0 ▸ hq) hd).trans (entryAt_congr hf0 rfl)
  · exact (c.foreign i (hf0 ▸ hi)).trans (entryAt_congr hf0 rfl)
  · rintro rfl
    exact c.compact

/-- The root of a map without other tables is freed. -/
theorem free_root {pmm : σ} {fs : VmmTestFault → ArmedFault R} (h : VmInv A s)
    (hroot : (s.map k).rootFrame = some r) (hexp : (s.map k).sharedSource = false)
    (htables : s.tablesOf k = {r}) (hall : A.allocated pmm = A.allocated s.pmm \ {r})
    (hv : v.rootFrame = none) (hfs : s.NoFaults → fs = s.faults)
    (hs' : s' = VmState.setMap { s with pmm := pmm, faults := fs } k v) :
    Apart A k s s' ∧ s'.held A = s.held A \ {r} := by
  subst hs'
  have hnew : NewMap A s k v := .of_none hv
  have h1 := h.setMap hnew (.inr hexp)
  have hno : ∀ k', r ∉ (s.setMap k v).tablesOf k' := by
    intro k' hr
    by_cases hk : k' = k
    · subst hk
      rw [hnew.tablesOf] at hr
      exact absurd (hv.symm.trans hr) (by simp)
    · obtain ⟨q, hq, hd, hg⟩ := hr
      change (s.setMap k v).tableAt k' q = some r at hg
      rw [setMap_tableAt_of_ne hk] at hg
      exact h.not_mem_tablesOf hk ((setMap_owned_of_ne hk).mp hq) hd hg (htables ▸ rfl)
  obtain ⟨hsame, hheld⟩ := h1.free fs (h.root_mem hroot).1 hno hall
  refine ⟨⟨h1.elsewhere hsame, fun k' hk => setMap_map_of_ne hk, ?_, fun _ _ _ => rfl, rfl, rfl,
    fun _ hn => ?_⟩, hheld⟩
  · exact htables ▸ hheld.ge
  · obtain rfl := hfs hn
    exact ⟨hn.disarmed, hn.unlinked⟩

/-- What a failed destruction leaves. -/
structure DestroyFailed (A : Allocator Nat σ) (cpu : Cpu) (k : R) (s s' : VmState R σ) : Prop where
  map : s'.map k = s.map k ∨ s'.map k = { s.map k with destroyPending := true }
  leaf : ∀ q i, s.forest.Owned k q → q.length = 3 → s'.entryAt k q i = s.entryAt k q i
  foreign : ∀ i, ¬ s.forest.own k i → s'.entryAt k [] i = s.entryAt k [] i
  calm : A.FreesAllocated → s.NoFaults → s' = s ∧ (¬ (s.map k).Reclaimable cpu ∨ ¬ s.NoLeaves k)

theorem vmmPageMapDestroy_cases (h : VmInv A s) (hr : s.vmmPageMapDestroy A cpu k = (b, s')) :
    Apart A k s s' ∧
      (b = false ∧ DestroyFailed A cpu k s s' ∨
        b = true ∧ s.NoLeaves k ∧ (s.map k).rootFrame ≠ none ∧ (s'.map k).rootFrame = none ∧
          (s'.map k).sharedSource = false ∧ s'.held A = s.held A \ s.tablesOf k) := by
  have hrefl : ¬ (s.map k).Reclaimable cpu ∨ ¬ s.NoLeaves k → DestroyFailed A cpu k s s := fun hwhy =>
    ⟨.inl rfl, fun _ _ _ _ => rfl, fun _ _ => rfl, fun _ _ => ⟨rfl, hwhy⟩⟩
  unfold vmmPageMapDestroy at hr
  split at hr
  · rename_i hroot
    cases hr
    exact ⟨(Work.refl h).apart, .inl ⟨rfl, hrefl (.inl fun hrec => hrec.1 hroot)⟩⟩
  rename_i root hroot
  split at hr
  · rename_i hrec
    cases hr
    exact ⟨(Work.refl h).apart, .inl ⟨rfl, hrefl (.inl hrec)⟩⟩
  rename_i hrec
  split at hr
  · rename_i hl
    cases hr
    exact ⟨(Work.refl h).apart, .inl ⟨rfl, hrefl (.inr (mt (treeHasNoLeaves_root h hroot).mpr hl))⟩⟩
  rename_i hl
  rw [not_not] at hrec
  rw [not_not, treeHasNoLeaves_root h hroot] at hl
  have hexp : (s.map k).sharedSource = false := by simpa using hrec.2.2.2.1
  dsimp only at hr
  rcases hcol : collectChildren A k 4 root
    ((s.setMap k { s.map k with destroyPending := true }).ownedIndices k)
    (s.setMap k { s.map k with destroyPending := true }) with ⟨b1, s₁⟩
  rw [hcol] at hr
  obtain ⟨w, hmap1, hrest1, hleaf1, hforeign1, hcompact, hdone⟩ := collect_marked h hroot hexp hcol
  cases b1 with
  | false =>
    cases hr
    exact ⟨w, .inl ⟨rfl, .inr hmap1, hleaf1, hforeign1,
      fun hA hn => absurd (hdone hA hn) (by decide)⟩⟩
  | true =>
    simp only at hr
    have hroot1 : (s₁.map k).rootFrame = some root := by rw [hmap1, ← hroot]
    have hexp1 : (s₁.map k).sharedSource = false := by rw [hmap1, ← hexp]
    have hown1 : s₁.forest.own k = s.forest.own k := by
      change (s₁.map k).OwnsPml4Index = (s.map k).OwnsPml4Index
      rw [hmap1]
      rfl
    have hl1 : s₁.NoLeaves k := fun p j hp hd => by
      have hp' : s.forest.Owned k p := (Forest.owned_congr hown1).mp hp
      rw [hleaf1 p j hp' hd, hl p j hp' hd]
    have htables1 := w.inv.tablesOf_of_noLeaves (hcompact rfl) hl1 hroot1
    rcases hfree : s₁.freeTable A k root with ⟨t, s2⟩
    obtain ⟨pmm, fs, rfl, htrue, hfalse, hfs, hfdone⟩ := freeTable_cases hfree
    rw [hfree] at hr
    cases t with
    | false =>
      cases hr
      obtain ⟨hb, hheld⟩ := Books.of_allocated w.inv (hfalse rfl) hfs
      have u : Upkeep A k s₁ { s₁ with pmm := pmm, faults := fs } := hb.upkeep w.inv hheld
      refine ⟨w.trans hrest1 u.apart, .inl ⟨rfl, .inr hmap1, hleaf1, hforeign1, fun hA hn => ?_⟩⟩
      exact absurd (hfdone hA (w.calm hA hn) (w.inv.root_mem hroot1).1.1) (by decide)
    | true =>
      cases hr
      have hv : ({ s₁.map k with
          rootFrame := none, ownedPml4First := 0, ownedPml4End := 0,
          destroyPending := false } : VmPageMap).rootFrame = none := rfl
      obtain ⟨w', hheld⟩ := free_root w.inv hroot1 hexp1 htables1 (htrue rfl).2 hv hfs rfl
      refine ⟨w.trans hrest1 w', .inr ⟨rfl, hl, by simp [hroot], ?_, ?_, ?_⟩⟩
      · rw [setMap_map_self]
      · rw [setMap_map_self]
        exact hexp1
      · rw [hheld, ← htables1, hrest1]

/-! ### Sharing -/

/-- What sharing PML4 entry `i` of `src` with `dst` does. -/
structure Shares (A : Allocator Nat σ) (dst src : R) (i : TableIndex) (s s' : VmState R σ) :
    Prop where
  inv : VmInv A s'
  forest : s'.forest = s.forest
  entry : ∀ k q j, s.forest.Owned k q → q.length ≤ 3 → s'.entryAt k q j =
    if k = dst ∧ q = [] ∧ j = i then s.entryAt src [] i else s.entryAt k q j
  map : ∀ k, s'.map k = s.map k ∨ k = src ∧ s'.map k = { s.map k with sharedSource := true }

theorem vmmPageMapSharePml4Entry_cases {dst src : R} (h : VmInv A s)
    (hr : s.vmmPageMapSharePml4Entry cpu dst src i = (b, s')) :
    (b = false ∧ s' = s) ∨ b = true ∧ Shares A dst src i s s' := by
  unfold vmmPageMapSharePml4Entry at hr
  split at hr
  swap
  · cases hr
    exact .inl ⟨rfl, rfl⟩
  rename_i dstRoot srcRoot hdst hsrc
  split at hr
  · cases hr
    exact .inl ⟨rfl, rfl⟩
  rename_i hguard
  rw [(h.root_mem hdst).2.pointer, (h.root_mem hsrc).2.pointer] at hr
  simp only [not_or] at hguard
  obtain ⟨-, hne, -, -, -, hown⟩ := hguard
  have hdstat : s.tableAt dst [] = some dstRoot := Forest.table_nil.trans hdst
  have hsrcat : s.tableAt src [] = some srcRoot := Forest.table_nil.trans hsrc
  simp only at hr
  rw [← entryAt_of_table hdstat, ← entryAt_of_table hsrcat] at hr
  split at hr
  · cases hr
    exact .inl ⟨rfl, rfl⟩
  set e := s.entryAt src [] i with he
  -- the source's entry is its own or a copy itself
  have hentry : e = 0 ∨ TableEntry e ∧ ∃ src', ((s.map src').sharedSource = true ∨ src' = src) ∧
      s.forest.own src' i ∧ tableChild e = tableChild (s.entryAt src' [] i) := by
    by_cases hsown : s.forest.own src i
    · exact (h.inner src [] i hsown (by simp)).imp_right
        fun ht => ⟨ht, src, .inr rfl, hsown, rfl⟩
    · refine (h.shared src i hsown).imp_right ?_
      rintro ⟨ht, src', hs', hown', hc⟩
      exact ⟨ht, src', .inl hs', hown', hc⟩
  -- the flag first, then the store
  obtain ⟨shared, hr, hmono, hsrc1, hshared⟩ : ∃ shared, (b, s') = (true, VmState.setEntry
      (s.setMap src { s.map src with sharedSource := shared }) dstRoot i e) ∧
      ((s.map src).sharedSource = true → shared = true) ∧ (e = 0 ∨ shared = true) ∧
      (shared = true ∨ shared = (s.map src).sharedSource) := by
    by_cases hp : Has e ptePresent
    · simp only [hp] at hr
      exact ⟨true, hr.symm, fun _ => rfl, .inr rfl, .inl rfl⟩
    · simp only [hp, if_false] at hr
      refine ⟨(s.map src).sharedSource, hr.symm.trans ?_, id, .inl ?_, .inr rfl⟩
      · rw [setMap, Function.update_eq_self]
      · exact hentry.resolve_right fun ht => hp ht.1.present
  obtain ⟨rfl, rfl⟩ := Prod.mk.inj hr
  set s₁ := s.setMap src { s.map src with sharedSource := shared } with hs1
  have hf1 : s₁.forest = s.forest := setFlags_forest hs1
  have h1 : VmInv A s₁ := h.setFlags hs1 hmono
  have hat1 : s₁.tableAt dst [] = some dstRoot := by
    rw [tableAt, hf1]
    exact hdstat
  have hown1 : ¬ s₁.forest.own dst i := by
    rw [hf1]
    exact hown
  have hok : VmInv.StoreOk A s₁ dst [] i (s₁.table dstRoot i) e := by
    refine
      { splice := fun _ hq => absurd hq hown1
        child := fun _ hq => absurd hq hown1
        inner := fun _ hq => absurd hq hown1
        leaf := fun hd => absurd hd (by simp)
        userAbove := fun p j hp => absurd hp (by simp)
        userBelow := fun _ hq => absurd hq hown1
        exported := fun _ hq => absurd hq hown1
        copied := fun _ _ => ?_ }
    rcases hentry with hzero | ⟨ht, src', hs', hown', hc⟩
    · exact .inl hzero
    · refine .inr ⟨ht, src', ?_, hf1 ▸ hown', ?_⟩
      · rw [setFlags_map hs1]
        split_ifs with hk
        · exact hsrc1.resolve_left ht.ne_zero
        · exact hs'.resolve_right hk
      · rw [hc]
        exact congrArg tableChild (entryAt_congr hf1 rfl).symm
  have hnil : s₁.forest.Owned dst [] := trivial
  refine .inr ⟨rfl, h1.store hnil (by simp) hat1 hok, hf1, fun k q j hq hd => ?_, fun k => ?_⟩
  · rw [VmInv.entryAt_setEntry h1 hnil (by simp) hat1 hok (hf1 ▸ hq) hd, entryAt_congr hf1 rfl]
  · change s₁.map k = _ ∨ _ ∧ s₁.map k = _
    rw [setFlags_map hs1]
    split_ifs with hk
    · subst hk
      rcases hshared with rfl | rfl
      · exact .inr ⟨rfl, rfl⟩
      · exact .inl rfl
    · exact .inl rfl

end VmState

end JcosKernel
