import JcosKernel.Vmm.Inv

/-!
# JcosKernel.Vmm.Upkeep

What work on one page map leaves alone.

`Work k s s'` says that from `s` to `s'` nothing happened but work on the map `k`: every frame
that is no table of `k` is held as before and keeps its content, so the other maps are as they
were (`Work.others`). Between two stores into a leaf, all work is upkeep: it links fresh tables,
unlinks empty ones and lets the tables above a page permit more, and no leaf changes (`Upkeep`).

Three kinds of change make up all work. The books of the allocator change (`Books`), an entry
is stored (`Work.of_store`), and of the stores into tables above the leaves, one lemma each says
when they are allowed: `permitOk`, `linkOk`, `unlinkOk`.
-/

namespace JcosKernel

open Lib

namespace VmState

variable {R σ : Type}

/-- No fault is armed and no table is in quarantine. -/
structure NoFaults (s : VmState R σ) : Prop where
  disarmed : ∀ fault, (s.faults fault).armed = false
  unlinked : s.unlinkedTable = none

/-- Work on the map `k`. -/
structure Work (A : Allocator Nat σ) (k : R) (s s' : VmState R σ) : Prop where
  inv : VmInv A s'
  map : s'.map = s.map
  usePhysMap : s'.usePhysMap = s.usePhysMap
  nxEnabled : s'.nxEnabled = s.nxEnabled
  /-- Memory that holds no table of `k` is as before. -/
  memory : ∀ f ∈ s.held A, f ∉ s.tablesOf k → s'.table f = s.table f
  foreign : ∀ i, ¬ s.forest.own k i → s'.entryAt k [] i = s.entryAt k [] i
  /-- The frames that are no tables of `k` are held as before. -/
  rest : s'.held A \ s'.tablesOf k = s.held A \ s.tablesOf k
  calm : A.FreesAllocated → s.NoFaults → s'.NoFaults

/-- Work on the map `k` that changes no leaf. -/
structure Upkeep (A : Allocator Nat σ) (k : R) (s s' : VmState R σ) : Prop
    extends Work A k s s' where
  leaf : ∀ q i, s.forest.Owned k q → q.length = 3 → s'.entryAt k q i = s.entryAt k q i

variable {A : Allocator Nat σ} {s s₁ s' s'' : VmState R σ} {k k' : R} {q p : List TableIndex}
  {i j : TableIndex} {a c f : Nat} {e : Pte}

namespace Work

theorem forest (w : Work A k s s') : s'.forest = s.forest := forest_congr w.map

theorem refl (h : VmInv A s) : Work A k s s :=
  ⟨h, rfl, rfl, rfl, fun _ _ _ => rfl, fun _ _ => rfl, rfl, fun _ h => h⟩

theorem trans (w : Work A k s s') (v : Work A k s' s'') : Work A k s s'' where
  inv := v.inv
  map := v.map.trans w.map
  usePhysMap := v.usePhysMap.trans w.usePhysMap
  nxEnabled := v.nxEnabled.trans w.nxEnabled
  memory f hf hk := by
    have hf' : f ∈ s'.held A \ s'.tablesOf k := w.rest ▸ ⟨hf, hk⟩
    exact (v.memory f hf'.1 hf'.2).trans (w.memory f hf hk)
  foreign i hi := (v.foreign i (w.forest ▸ hi)).trans (w.foreign i hi)
  rest := v.rest.trans w.rest
  calm hA hs := v.calm hA (w.calm hA hs)

end Work

namespace Upkeep

theorem refl (h : VmInv A s) : Upkeep A k s s := ⟨.refl h, fun _ _ _ _ => rfl⟩

theorem trans (u : Upkeep A k s s') (v : Upkeep A k s' s'') : Upkeep A k s s'' where
  toWork := u.toWork.trans v.toWork
  leaf q i hq hd := (v.leaf q i (u.forest ▸ hq) hd).trans (u.leaf q i hq hd)

end Upkeep

/-! ### Tables and entries -/

theorem length_snoc_le (hd : q.length ≤ 2) : (q ++ [i]).length ≤ 3 := by
  rw [List.length_append, List.length_singleton]
  omega

theorem tablesOf_congr (hm : s'.map = s.map)
    (ht : ∀ q, s.forest.Owned k q → q.length ≤ 3 → s'.tableAt k q = s.tableAt k q) :
    s'.tablesOf k = s.tablesOf k := by
  have hf := forest_congr hm
  ext b
  constructor
  · rintro ⟨q, hq, hd, hb⟩
    rw [hf] at hq
    exact ⟨q, hq, hd, (ht q hq hd).symm.trans hb⟩
  · rintro ⟨q, hq, hd, hb⟩
    exact ⟨q, hf ▸ hq, hd, (ht q hq hd).trans hb⟩

theorem mem_tablesOf (hq : s.forest.Owned k q) (hd : q.length ≤ 3) (ha : s.tableAt k q = some a) :
    a ∈ s.tablesOf k := ⟨q, hq, hd, ha⟩

theorem VmInv.tablesOf_subset (h : VmInv A s) : s.tablesOf k ⊆ s.held A := by
  rintro b ⟨q, hq, hd, hb⟩
  exact (h.tables k q b hq hd hb).1

/-- No table of another map is a table of `k`. -/
theorem VmInv.not_mem_tablesOf (h : VmInv A s) (hk : k' ≠ k) (hq : s.forest.Owned k' q)
    (hd : q.length ≤ 3) (ha : s.tableAt k' q = some a) : a ∉ s.tablesOf k := by
  rintro ⟨p, hp, hpd, hpa⟩
  exact hk (h.separated k' q k p a hq hd hp hpd ha hpa).1

theorem tableAt_below (ha : s.tableAt k q = some a) :
    s.tableAt k (q ++ [i]) = tableChild (s.table a i) := by
  rw [VmInv.tableAt_snoc, entryAt_of_table ha]

/-- A table is empty if no entry is found in it. -/
theorem tableEmpty_iff (ha : s.tableAt k q = some a) :
    s.TableEmpty a ↔ ∀ i, s.entryAt k q i = 0 := by
  simp only [entryAt_of_table ha]
  exact Iff.rfl

/-! ### Books -/

/-- Nothing but the allocator, the quarantine, the armed faults and memory that was not held
has changed. -/
structure Books (A : Allocator Nat σ) (s s' : VmState R σ) : Prop where
  map : s'.map = s.map
  usePhysMap : s'.usePhysMap = s.usePhysMap
  nxEnabled : s'.nxEnabled = s.nxEnabled
  memory : ∀ f ∈ s.held A, s'.table f = s.table f
  held : s.held A ⊆ s'.held A
  unlinked : ∀ f, s'.unlinkedTable = some f → f ∈ A.allocated s'.pmm
  calm : A.FreesAllocated → s.NoFaults → s'.NoFaults

namespace Books

theorem refl (h : VmInv A s) : Books A s s :=
  ⟨rfl, rfl, rfl, fun _ _ => rfl, fun _ h => h, h.unlinked, fun _ h => h⟩

theorem sameTrees (b : Books A s s') (h : VmInv A s) : VmInv.SameTrees A s s' :=
  { b with
    memory := fun k q a hq hd ha => b.memory a (h.tables k q a hq hd ha).1
    held := fun k q a hq hd ha => b.held (h.tables k q a hq hd ha).1 }

/-- Books with the same frames held are upkeep. -/
theorem upkeep (b : Books A s s') (h : VmInv A s) (hheld : s'.held A = s.held A) :
    Upkeep A k s s' := by
  have hs := b.sameTrees h
  exact
    { hs with
      inv := h.elsewhere hs
      memory := fun f hf _ => b.memory f hf
      foreign := fun _ _ => hs.entryAt trivial (Nat.zero_le _)
      rest := by rw [hheld, tablesOf_congr hs.map fun _ => hs.tableAt]
      calm := b.calm
      leaf := fun _ _ hq hd => hs.entryAt hq (by omega) }

end Books

/-- The allocator refused, or was not asked. -/
theorem Books.of_allocated {pmm : σ} {fs : VmmTestFault → ArmedFault R} (h : VmInv A s)
    (hall : A.allocated pmm = A.allocated s.pmm) (hfs : s.NoFaults → fs = s.faults) :
    Books A s { s with pmm := pmm, faults := fs } ∧
      VmState.held A { s with pmm := pmm, faults := fs } = s.held A := by
  have hheld : VmState.held A { s with pmm := pmm, faults := fs } = s.held A := by
    simp only [VmState.held, hall]
  refine ⟨⟨rfl, rfl, rfl, fun _ _ => rfl, hheld.ge, fun g hg => hall ▸ h.unlinked g hg,
    fun _ hn => ?_⟩, hheld⟩
  obtain rfl := hfs hn
  exact ⟨hn.disarmed, hn.unlinked⟩

/-- A frame that is no table is freed. -/
theorem VmInv.free {pmm : σ} (fs : VmmTestFault → ArmedFault R) (h : VmInv A s)
    (hf : f ∈ s.held A) (hno : ∀ k, f ∉ s.tablesOf k)
    (hall : A.allocated pmm = A.allocated s.pmm \ {f}) :
    VmInv.SameTrees A s { s with pmm := pmm, faults := fs } ∧
      VmState.held A { s with pmm := pmm, faults := fs } = s.held A \ {f} := by
  have hheld : VmState.held A { s with pmm := pmm, faults := fs } = s.held A \ {f} := by
    ext g
    simp only [held, hall]
    exact and_right_comm
  refine ⟨⟨rfl, rfl, rfl, fun _ _ _ _ _ _ => rfl, fun k q g hq hd hg => ?_, fun g hg => ?_⟩, hheld⟩
  · rw [hheld]
    refine ⟨(h.tables k q g hq hd hg).1, ?_⟩
    rintro rfl
    exact hno k (mem_tablesOf hq hd hg)
  · refine hall ▸ ⟨h.unlinked g hg, ?_⟩
    rintro rfl
    exact hf.2 hg

/-! ### Entries above the leaves -/

theorem VmInv.entryAt_eq_zero (h : VmInv A s) (hq : s.forest.Owned k (q ++ [i]))
    (hd : q.length ≤ 2) : s.entryAt k q i = 0 ↔ s.tableAt k (q ++ [i]) = none := by
  rw [tableAt_snoc]
  rcases h.inner k q i hq hd with he | he
  · rw [he]
    exact iff_of_true rfl tableChild_zero
  · rw [he.child]
    exact iff_of_false he.ne_zero (by simp)

/-- Upkeep that leaves the tables where they are leaves the same entries empty. -/
theorem Upkeep.entryAt_eq_zero (h : VmInv A s) (u : Upkeep A k s s')
    (htab : ∀ p, s.forest.Owned k p → p.length ≤ 3 → s'.tableAt k p = s.tableAt k p)
    (hq : s.forest.Owned k q) (hd : q.length ≤ 3) :
    s'.entryAt k q i = 0 ↔ s.entryAt k q i = 0 := by
  by_cases h3 : q.length = 3
  · rw [u.leaf q i hq h3]
  by_cases hown : s.forest.Owned k (q ++ [i])
  · rw [u.inv.entryAt_eq_zero (u.forest ▸ hown) (by omega), h.entryAt_eq_zero hown (by omega),
      htab _ hown (length_snoc_le (by omega))]
  · -- only the root has entries that are not owned
    cases q with
    | nil => rw [u.foreign i hown]
    | cons l q => exact absurd hq hown

theorem Upkeep.tableEmpty (h : VmInv A s) (u : Upkeep A k s s')
    (htab : ∀ p, s.forest.Owned k p → p.length ≤ 3 → s'.tableAt k p = s.tableAt k p)
    (hq : s.forest.Owned k q) (hd : q.length ≤ 3) (ha : s.tableAt k q = some a) :
    s'.TableEmpty a ↔ s.TableEmpty a := by
  rw [tableEmpty_iff ((htab q hq hd).trans ha), tableEmpty_iff ha]
  exact forall_congr' fun i => u.entryAt_eq_zero h htab hq hd

/-- A table moves only if the entry that leads to it changes. -/
theorem tableAt_eq_of_entryAt_of_not (P : List TableIndex → Prop) (hm : s'.map = s.map)
    (he : ∀ p j, s.forest.Owned k p → p.length ≤ 3 → ¬ P (p ++ [j]) →
      s'.entryAt k p j = s.entryAt k p j)
    (hp : s.forest.Owned k p) (hd : p.length ≤ 3) (hnot : ¬ P p) :
    s'.tableAt k p = s.tableAt k p := by
  induction p using List.reverseRecOn with
  | nil => rw [tableAt, tableAt, forest_congr hm, Forest.table_nil, Forest.table_nil]
  | append_singleton p j _ =>
    rw [List.length_append] at hd
    rw [VmInv.tableAt_snoc, VmInv.tableAt_snoc, he p j hp.init (by omega) hnot]

/-- Upkeep at the paths in `P`: every other entry is as before. -/
structure UpkeepAt (A : Allocator Nat σ) (k : R) (P : List TableIndex → Prop) (s s' : VmState R σ) :
    Prop extends Upkeep A k s s' where
  entry : ∀ p j, s.forest.Owned k p → p.length ≤ 3 → ¬ P (p ++ [j]) →
    s'.entryAt k p j = s.entryAt k p j

namespace UpkeepAt

variable {P Q : List TableIndex → Prop}

theorem refl (h : VmInv A s) : UpkeepAt A k P s s := ⟨.refl h, fun _ _ _ _ _ => rfl⟩

theorem mono (u : UpkeepAt A k P s s') (h : ∀ x, P x → Q x) : UpkeepAt A k Q s s' :=
  ⟨u.toUpkeep, fun p j hp hd hnot => u.entry p j hp hd (mt (h _) hnot)⟩

theorem trans (u : UpkeepAt A k P s s₁) (v : UpkeepAt A k P s₁ s') : UpkeepAt A k P s s' :=
  ⟨u.toUpkeep.trans v.toUpkeep, fun p j hp hd hnot =>
    (v.entry p j (u.forest ▸ hp) hd hnot).trans (u.entry p j hp hd hnot)⟩

theorem tableAt (u : UpkeepAt A k P s s') (hp : s.forest.Owned k p) (hd : p.length ≤ 3)
    (hnot : ¬ P p) : s'.tableAt k p = s.tableAt k p :=
  tableAt_eq_of_entryAt_of_not P u.map u.entry hp hd hnot

end UpkeepAt

/-! ### Stores -/

/-- The entry of a table that exists already may permit more. -/
theorem permitOk (h : VmInv A s) (hq : s.forest.Owned k (q ++ [i])) (hd : q.length ≤ 2)
    (ha : s.tableAt k q = some a) (he : TableEntry (s.table a i)) (user : Bool)
    (hu : user = true → ∀ p j, q = p ++ [j] → Has (s.entryAt k p j) pteUser) :
    VmInv.StoreOk A s k q i (s.table a i) (s.table a i ||| permitBits user) := by
  have hentry : s.entryAt k q i = s.table a i := entryAt_of_table ha
  have hchild := he.child_permit user
  exact
    { splice := fun _ _ => .keep hchild
      child := fun _ hown c hc => h.tables k (q ++ [i]) c hown (length_snoc_le hd)
        ((tableAt_below ha).trans (hchild.symm.trans hc))
      inner := fun _ _ => .inr (he.permit user)
      leaf := fun h3 => by omega
      userAbove := fun p j hqp hhas => by
        rcases has_or.mp hhas with hold | hnew
        · subst hqp
          rw [List.length_append] at hd
          refine h.user k p j i hq.init (by omega) ?_
          rw [hentry]
          exact hold
        · refine hu ?_ p j hqp
          cases user
          · exact absurd hnew (by decide)
          · rfl
      userBelow := fun _ hown j hhas => by
        refine has_or.mpr (.inl ?_)
        rw [← hentry]
        exact h.user k q i j hown hd hhas
      exported := fun _ _ _ c hc => hchild.trans hc
      copied := fun hnil hnot => by
        subst hnil
        exact absurd hq hnot }

/-- A zeroed frame may be linked as a table. -/
theorem linkOk (hq : s.forest.Owned k (q ++ [i])) (hd : q.length ≤ 2)
    (ha : s.tableAt k q = some a) (hold : s.table a i = 0) (he : TableEntry e)
    (hchild : tableChild e = some f) (hheld : f ∈ s.held A) (husable : s.Usable f)
    (hzero : ∀ j, s.table f j = 0) (hfresh : ∀ k, f ∉ s.tablesOf k)
    (hu : Has e pteUser → ∀ p j, q = p ++ [j] → Has (s.entryAt k p j) pteUser) :
    VmInv.StoreOk A s k q i (s.table a i) e := by
  have hbelow : s.tableAt k (q ++ [i]) = none := by
    rw [tableAt_below ha, hold, tableChild_zero]
  exact
    { splice := fun _ _ => .link f (by rw [hold, tableChild_zero]) hchild hzero hfresh
      child := fun _ _ c hc => by
        obtain rfl : f = c := Option.some.inj (hchild.symm.trans hc)
        exact ⟨hheld, husable⟩
      inner := fun _ _ => .inr he
      leaf := fun h3 => by omega
      userAbove := fun p j hqp hhas => hu hhas p j hqp
      userBelow := fun _ _ j hhas => by
        rw [entryAt_of_none hbelow] at hhas
        exact absurd hhas not_has_zero
      exported := fun _ _ _ c hc => by
        rw [hold] at hc
        cases hc
      copied := fun hnil hnot => by
        subst hnil
        exact absurd hq hnot }

/-- An entry that leads to an empty table may be cleared. -/
theorem unlinkOk (ha : s.tableAt k q = some a) (hchild : tableChild (s.table a i) = some f)
    (hempty : s.TableEmpty f) (hexp : (s.map k).sharedSource = false) :
    VmInv.StoreOk A s k q i (s.table a i) 0 := by
  have hbelow : s.tableAt k (q ++ [i]) = some f :=
    (tableAt_below ha).trans hchild
  exact
    { splice := fun _ _ => .unlink f hchild tableChild_zero hempty
      child := fun _ _ c hc => by
        cases hc
      inner := fun _ _ => .inl rfl
      leaf := fun _ => .inl rfl
      userAbove := fun _ _ _ hhas => absurd hhas not_has_zero
      userBelow := fun _ _ j hhas => by
        rw [entryAt_of_table hbelow, hempty j] at hhas
        exact absurd hhas not_has_zero
      exported := fun _ _ hs => by
        rw [hexp] at hs
        cases hs
      copied := fun _ _ => .inl rfl }

/-- A store above the leaves. -/
theorem UpkeepAt.of_store {e : Pte} (hq : s.forest.Owned k (q ++ [i])) (hd : q.length ≤ 2)
    (w : Work A k s s' ∧ ∀ p j, s.forest.Owned k p → p.length ≤ 3 →
      s'.entryAt k p j = if p = q ∧ j = i then e else s.entryAt k p j) :
    UpkeepAt A k (· = q ++ [i]) s s' ∧ s'.entryAt k q i = e := by
  obtain ⟨w, hent⟩ := w
  have hne : ∀ p j, s.forest.Owned k p → p.length ≤ 3 → p ++ [j] ≠ q ++ [i] →
      s'.entryAt k p j = s.entryAt k p j := by
    intro p j hp hpd hpj
    rw [hent p j hp hpd, if_neg]
    rintro ⟨rfl, rfl⟩
    exact hpj rfl
  refine ⟨⟨⟨w, fun p j hp hpd => hne p j hp (by omega) fun h => ?_⟩, hne⟩, ?_⟩
  · have hlen := congrArg List.length h
    simp only [List.length_append, List.length_singleton] at hlen
    omega
  · rw [hent q i hq.init (by omega), if_pos ⟨rfl, rfl⟩]

section Store

variable [DecidableEq R]

/-- The books change, an entry is stored, and then the allocator may take back a frame that is
no longer a table. -/
theorem Work.of_store (h : VmInv A s) (b : Books A s s₁) (hq : s.forest.Owned k (q ++ [i]))
    (hd : q.length ≤ 3) (ha : s.tableAt k q = some a)
    (hok : VmInv.StoreOk A s₁ k q i (s₁.table a i) e)
    (hs : VmInv.SameTrees A (s₁.setEntry a i e) s') (hmem : s'.table = (s₁.setEntry a i e).table)
    (hrest : s'.held A \ s'.tablesOf k = s.held A \ s.tablesOf k)
    (hcalm : A.FreesAllocated → s₁.NoFaults → s'.NoFaults) :
    Work A k s s' ∧ ∀ p j, s.forest.Owned k p → p.length ≤ 3 →
      s'.entryAt k p j = if p = q ∧ j = i then e else s.entryAt k p j := by
  have hb := b.sameTrees h
  have h1 := h.elsewhere hb
  have hf1 := forest_congr b.map
  have ha1 : s₁.tableAt k q = some a := (hb.tableAt hq.init hd).trans ha
  have hq1 : s₁.forest.Owned k (q ++ [i]) := hf1 ▸ hq
  have hentry : ∀ p j, s.forest.Owned k p → p.length ≤ 3 →
      s'.entryAt k p j = if p = q ∧ j = i then e else s.entryAt k p j := by
    intro p j hp hpd
    rw [hs.entryAt (hf1 ▸ hp) hpd,
      VmInv.entryAt_setEntry h1 hq1.init hd ha1 hok (hf1 ▸ hp) hpd, hb.entryAt hp hpd]
    simp
  refine ⟨?_, hentry⟩
  exact
    { inv := (h1.store hq1.init hd ha1 hok).elsewhere hs
      map := hs.map.trans b.map
      usePhysMap := hs.usePhysMap.trans b.usePhysMap
      nxEnabled := hs.nxEnabled.trans b.nxEnabled
      memory := fun f hf hk => by
        have hfa : f ≠ a := by
          rintro rfl
          exact hk (mem_tablesOf hq.init hd ha)
        rw [hmem, setEntry_table_of_ne hfa, b.memory f hf]
      foreign := fun j hj => by
        rw [hentry [] j trivial (Nat.zero_le _), if_neg]
        rintro ⟨rfl, rfl⟩
        exact hj hq
      rest := hrest
      calm := fun hA hs => hcalm hA (b.calm hA hs) }

/-- The store is all that happens, and the tables stay where they are. -/
theorem Work.of_store_keep (h : VmInv A s) (hq : s.forest.Owned k (q ++ [i])) (hd : q.length ≤ 3)
    (ha : s.tableAt k q = some a) (hok : VmInv.StoreOk A s k q i (s.table a i) e)
    (hkeep : q.length ≤ 2 → tableChild e = tableChild (s.table a i)) :
    Work A k s (s.setEntry a i e) ∧ ∀ p j, s.forest.Owned k p → p.length ≤ 3 →
      (s.setEntry a i e).entryAt k p j = if p = q ∧ j = i then e else s.entryAt k p j := by
  have h1 := h.store hq.init hd ha hok
  refine Work.of_store h (.refl h) hq hd ha hok (.refl h1) rfl ?_ fun _ hs => ⟨hs.disarmed, hs.unlinked⟩
  have htables : (s.setEntry a i e).tablesOf k = s.tablesOf k := by
    refine tablesOf_congr rfl fun p hp hpd => ?_
    rw [VmInv.tableAt_setEntry h hq.init hd ha hok hp hpd]
    split_ifs with hhere
    · obtain ⟨-, rfl⟩ := hhere
      rw [List.length_append, List.length_singleton] at hpd
      rw [hkeep (by omega), tableAt_below ha]
    · rfl
  rw [setEntry_held, htables]

section

variable (h : VmInv A s) (hq : s.forest.Owned k (q ++ [i])) (hd : q.length ≤ 2)
  (ha : s.tableAt k q = some a)
include h hq hd ha

/-- The tables after a store into an entry of a table that is not a leaf. -/
theorem mem_tablesOf_setEntry {b : Nat} (hok : VmInv.StoreOk A s k q i (s.table a i) e) :
    b ∈ (s.setEntry a i e).tablesOf k ↔
      (∃ p, s.forest.Owned k p ∧ p.length ≤ 3 ∧ p ≠ q ++ [i] ∧ s.tableAt k p = some b) ∨
        tableChild e = some b := by
  have htab : ∀ {p}, s.forest.Owned k p → p.length ≤ 3 → (s.setEntry a i e).tableAt k p =
      if p = q ++ [i] then tableChild e else s.tableAt k p := by
    intro p hp hpd
    rw [VmInv.tableAt_setEntry h hq.init (by omega) ha hok hp hpd]
    simp
  constructor
  · rintro ⟨p, hp, hpd, hb⟩
    change (s.setEntry a i e).tableAt k p = some b at hb
    rw [htab hp hpd] at hb
    split_ifs at hb with hhere
    · exact .inr hb
    · exact .inl ⟨p, hp, hpd, hhere, hb⟩
  · rintro (⟨p, hp, hpd, hne, hb⟩ | hb)
    · refine ⟨p, hp, hpd, ?_⟩
      change (s.setEntry a i e).tableAt k p = some b
      rw [htab hp hpd, if_neg hne, hb]
    · refine ⟨q ++ [i], hq, length_snoc_le hd, ?_⟩
      change (s.setEntry a i e).tableAt k (q ++ [i]) = some b
      rw [htab hq (length_snoc_le hd), if_pos rfl, hb]

theorem tablesOf_link (hold : s.table a i = 0) (hok : VmInv.StoreOk A s k q i (s.table a i) e)
    (hchild : tableChild e = some f) :
    (s.setEntry a i e).tablesOf k = insert f (s.tablesOf k) := by
  have hbelow : s.tableAt k (q ++ [i]) = none := by
    rw [tableAt_below ha, hold, tableChild_zero]
  ext b
  rw [mem_tablesOf_setEntry h hq hd ha hok, hchild, Option.some.injEq]
  constructor
  · rintro (⟨p, hp, hpd, -, hb⟩ | rfl)
    · exact .inr ⟨p, hp, hpd, hb⟩
    · exact .inl rfl
  · rintro (rfl | ⟨p, hp, hpd, hb⟩)
    · exact .inr rfl
    · refine .inl ⟨p, hp, hpd, ?_, hb⟩
      rintro rfl
      exact absurd (hbelow.symm.trans hb) (by simp)

theorem tablesOf_unlink (hok : VmInv.StoreOk A s k q i (s.table a i) 0)
    (hchild : tableChild (s.table a i) = some f) :
    (s.setEntry a i 0).tablesOf k = s.tablesOf k \ {f} := by
  have hbelow : s.tableAt k (q ++ [i]) = some f :=
    (tableAt_below ha).trans hchild
  ext b
  rw [mem_tablesOf_setEntry h hq hd ha hok, tableChild_zero, Set.mem_sdiff]
  simp only [reduceCtorEq, or_false]
  constructor
  · rintro ⟨p, hp, hpd, hne, hb⟩
    refine ⟨⟨p, hp, hpd, hb⟩, ?_⟩
    rintro rfl
    exact hne (h.separated k p k (q ++ [i]) b hp hpd hq (length_snoc_le hd) hb hbelow).2
  · rintro ⟨⟨p, hp, hpd, hb⟩, hbf⟩
    refine ⟨p, hp, hpd, ?_, hb⟩
    rintro rfl
    exact hbf (Option.some.inj (hb.symm.trans hbelow))

end

end Store

end VmState

end JcosKernel
