import JcosKernel.Vmm.Entry

/-!
# JcosKernel.Vmm.Inv

The invariant of all page maps, and the stores that keep it.

The page maps are trees in physical memory (`Lib.Forest`): map `k` starts at its root frame
and owns the PML4 slots of its range. `VmInv` says that no table has two places, that every
table is allocated and can be reached, that entries have the form in which the VMM writes
them, and that a user page is a user page at every level above it. PML4 entries outside of
the owned range lead to a table of a map that is marked as a shared source.

Whatever the VMM stores into a table goes through `VmInv.store`; what it does to the frame
allocator, and what others do to memory that is not a table, through `VmInv.elsewhere`.
-/

namespace JcosKernel

open Lib

/-- The owned range of PML4 slots is a range. -/
def VmPageMap.RangeValid (map : VmPageMap) : Prop :=
  map.ownedPml4First < map.ownedPml4End ∧ map.ownedPml4End ≤ pageTableEntries

namespace VmState

variable {R σ : Type}

/-- The page maps as trees in memory. -/
def forest (s : VmState R σ) : Forest R Nat TableIndex where
  root k := (s.map k).rootFrame
  own k i := (s.map k).OwnsPml4Index i

/-- The table at the end of a path. -/
abbrev tableAt (s : VmState R σ) (k : R) (q : List TableIndex) : Option Nat :=
  s.forest.table tableChild s.table k q

/-- The entry at an index of the table at the end of a path. -/
abbrev entryAt (s : VmState R σ) (k : R) (q : List TableIndex) (i : TableIndex) : Pte :=
  s.forest.entry tableChild s.table k q i

/-- The tables of a map, its root included. -/
abbrev tablesOf (s : VmState R σ) (k : R) : Set Nat := s.forest.tables tableChild s.table 3 k

/-- The allocated frames, without the one in quarantine. -/
def held (A : Allocator Nat σ) (s : VmState R σ) : Set Nat :=
  {f | f ∈ A.allocated s.pmm ∧ s.unlinkedTable ≠ some f}

/-- A frame that can serve as a table. -/
structure Usable (s : VmState R σ) (a : Nat) : Prop where
  pointer : s.tablePointer a = some a
  valid : ValidMappingFrame a

structure VmInv (A : Allocator Nat σ) (s : VmState R σ) : Prop where
  separated : s.forest.Separated tableChild s.table 3
  tables : ∀ k q a, s.forest.Owned k q → q.length ≤ 3 → s.tableAt k q = some a →
    a ∈ s.held A ∧ s.Usable a
  inner : ∀ k q i, s.forest.Owned k (q ++ [i]) → q.length ≤ 2 →
    s.entryAt k q i = 0 ∨ TableEntry (s.entryAt k q i)
  leaf : ∀ k q i, s.forest.Owned k q → q.length = 3 →
    s.entryAt k q i = 0 ∨ LeafEntry (s.entryAt k q i)
  user : ∀ k q i j, s.forest.Owned k (q ++ [i]) → q.length ≤ 2 →
    Has (s.entryAt k (q ++ [i]) j) pteUser → Has (s.entryAt k q i) pteUser
  shared : ∀ k i, ¬ s.forest.own k i → s.entryAt k [] i = 0 ∨
    TableEntry (s.entryAt k [] i) ∧ ∃ src, (s.map src).sharedSource = true ∧ s.forest.own src i ∧
      tableChild (s.entryAt k [] i) = tableChild (s.entryAt src [] i)
  unlinked : ∀ f, s.unlinkedTable = some f → f ∈ A.allocated s.pmm
  range : ∀ k, (s.map k).rootFrame ≠ none → (s.map k).RangeValid

variable {A : Allocator Nat σ} {s s' : VmState R σ} {k k' : R} {q p : List TableIndex}
  {i j : TableIndex} {a c : Nat} {e : Pte}

theorem forest_congr (h : s'.map = s.map) : s'.forest = s.forest := by
  unfold forest
  rw [h]

@[simp] theorem setEntry_held : (s.setEntry a i e).held A = s.held A := rfl
@[simp] theorem setEntry_tablePointer (f : Nat) :
    (s.setEntry a i e).tablePointer f = s.tablePointer f := rfl

theorem setEntry_table_of_ne {f : Nat} (hf : f ≠ a) : (s.setEntry a i e).table f = s.table f :=
  funext fun _ => Forest.set_of_ne fun h => hf h.1

theorem usable_setEntry {f : Nat} : (s.setEntry a i e).Usable f ↔ s.Usable f :=
  ⟨fun h => ⟨h.pointer, h.valid⟩, fun h => ⟨h.pointer, h.valid⟩⟩

theorem entryAt_of_table (h : s.tableAt k q = some a) : s.entryAt k q i = s.table a i :=
  Forest.entry_of_table h

theorem entryAt_of_none (h : s.tableAt k q = none) : s.entryAt k q i = 0 :=
  Forest.entry_of_none h

/-- The same table has the same entries. -/
theorem entryAt_of_tableAt_eq (ht : s'.tableAt k' q = s.tableAt k q)
    (hm : ∀ a, s.tableAt k q = some a → s'.table a = s.table a) :
    s'.entryAt k' q i = s.entryAt k q i := by
  rcases hq : s.tableAt k q with _ | a
  · rw [entryAt_of_none hq, entryAt_of_none (ht.trans hq)]
  · rw [entryAt_of_table hq, entryAt_of_table (ht.trans hq), hm a hq]

/-! ### Stores into tables -/

namespace VmInv

/-- An entry on an owned path leads to the next table. -/
theorem tableAt_snoc (k : R) (q : List TableIndex) (i : TableIndex) :
    s.tableAt k (q ++ [i]) = tableChild (s.entryAt k q i) :=
  Forest.table_snoc_entry tableChild_zero

theorem root_mem {r : Nat} (h : VmInv A s) (hr : (s.map k).rootFrame = some r) :
    r ∈ s.held A ∧ s.Usable r :=
  h.tables k [] r trivial (by decide) (Forest.table_nil.trans hr)

section Store

variable [DecidableEq R]

/-- What a store at index `i` of the table at the end of `q` has to respect. -/
structure StoreOk (A : Allocator Nat σ) (s : VmState R σ) (k : R) (q : List TableIndex)
    (i : TableIndex) (old e : Pte) : Prop where
  splice : q.length < 3 → s.forest.Owned k (q ++ [i]) →
    Forest.Splice s.forest tableChild s.table 3 old e
  /-- The child of the new entry can be a table. -/
  child : q.length ≤ 2 → s.forest.Owned k (q ++ [i]) → ∀ c, tableChild e = some c →
    c ∈ s.held A ∧ s.Usable c
  inner : q.length ≤ 2 → s.forest.Owned k (q ++ [i]) → e = 0 ∨ TableEntry e
  leaf : q.length = 3 → e = 0 ∨ LeafEntry e
  userAbove : ∀ p j, q = p ++ [j] → Has e pteUser → Has (s.entryAt k p j) pteUser
  userBelow : q.length ≤ 2 → s.forest.Owned k (q ++ [i]) → ∀ j,
    Has (s.entryAt k (q ++ [i]) j) pteUser → Has e pteUser
  /-- An entry that others share keeps its child. -/
  exported : q = [] → s.forest.own k i → (s.map k).sharedSource = true →
    ∀ c, tableChild old = some c → tableChild e = some c
  /-- An entry outside of the owned range is a copy of a shared one. -/
  copied : q = [] → ¬ s.forest.own k i → e = 0 ∨ TableEntry e ∧ ∃ src,
    (s.map src).sharedSource = true ∧ s.forest.own src i ∧
      tableChild e = tableChild (s.entryAt src [] i)

variable (h : VmInv A s) (hq : s.forest.Owned k q) (hd : q.length ≤ 3)
  (ha : s.tableAt k q = some a) (hok : StoreOk A s k q i (s.table a i) e)

include h hq hd ha hok in
theorem entryAt_setEntry (hp : s.forest.Owned k' p) (hpd : p.length ≤ 3) :
    (s.setEntry a i e).entryAt k' p j =
      if k' = k ∧ p = q ∧ j = i then e else s.entryAt k' p j :=
  Forest.entry_set tableChild_zero h.separated hq hd ha hok.splice hp hpd

include h hq hd ha hok in
theorem tableAt_setEntry (hp : s.forest.Owned k' p) (hpd : p.length ≤ 3) :
    (s.setEntry a i e).tableAt k' p =
      if k' = k ∧ p = q ++ [i] then tableChild e else s.tableAt k' p :=
  Forest.table_set tableChild_zero h.separated hq hd ha hok.splice hp hpd

include h hq hd ha hok in
theorem store : VmInv A (s.setEntry a i e) := by
  have hentry : ∀ {k' p j}, s.forest.Owned k' p → p.length ≤ 3 →
      (s.setEntry a i e).entryAt k' p j =
        if k' = k ∧ p = q ∧ j = i then e else s.entryAt k' p j :=
    fun hp hpd => entryAt_setEntry h hq hd ha hok hp hpd
  refine
    { separated := Forest.separated_set tableChild_zero h.separated hq hd ha hok.splice
      tables := fun k' p b hp hpd hb => ?_
      inner := fun k' p j hp hpd => ?_
      leaf := fun k' p j hp hpd => ?_
      user := fun k' p j l hp hpd hu => ?_
      shared := fun k' j hj => ?_
      unlinked := h.unlinked
      range := h.range }
  · rw [tableAt_setEntry h hq hd ha hok hp hpd] at hb
    rw [usable_setEntry]
    split_ifs at hb with hhere
    · obtain ⟨rfl, rfl⟩ := hhere
      rw [List.length_append, List.length_singleton] at hpd
      exact hok.child (by omega) hp b hb
    · exact h.tables k' p b hp hpd hb
  · rw [hentry hp.init (by omega)]
    split_ifs with hhere
    · obtain ⟨rfl, rfl, rfl⟩ := hhere
      exact hok.inner hpd hp
    · exact h.inner k' p j hp hpd
  · rw [hentry hp (by omega)]
    split_ifs with hhere
    · obtain ⟨rfl, rfl, rfl⟩ := hhere
      exact hok.leaf hpd
    · exact h.leaf k' p j hp hpd
  · have hlen : (p ++ [j]).length ≤ 3 := by
      rw [List.length_append, List.length_singleton]
      omega
    rw [hentry hp hlen] at hu
    rw [hentry hp.init (by omega)]
    by_cases hhere : k' = k ∧ p = q ∧ j = i
    · -- the entry above was stored
      obtain ⟨rfl, rfl, rfl⟩ := hhere
      rw [if_pos ⟨rfl, rfl, rfl⟩]
      rw [if_neg (by simp)] at hu
      exact hok.userBelow hpd hp l hu
    · rw [if_neg hhere]
      split_ifs at hu with hbelow
      · obtain ⟨rfl, hpq, rfl⟩ := hbelow
        exact hok.userAbove p j hpq.symm hu
      · exact h.user k' p j l hp hpd hu
  · have hroot : ∀ k', (s.setEntry a i e).entryAt k' [] j =
        if k' = k ∧ [] = q ∧ j = i then e else s.entryAt k' [] j :=
      fun k' => hentry trivial (Nat.zero_le _)
    rw [hroot]
    by_cases hhere : k' = k ∧ [] = q ∧ j = i
    · obtain ⟨rfl, rfl, rfl⟩ := hhere
      rw [if_pos ⟨rfl, rfl, rfl⟩]
      rcases hok.copied rfl hj with he | ⟨he, src, hsrc, hown, hchild⟩
      · exact .inl he
      · refine .inr ⟨he, src, hsrc, hown, ?_⟩
        rw [hroot, if_neg]
        · exact hchild
        · rintro ⟨rfl, -, -⟩
          exact hj hown
    · rw [if_neg hhere]
      rcases h.shared k' j hj with he | ⟨he, src, hsrc, hown, hchild⟩
      · exact .inl he
      · refine .inr ⟨he, src, hsrc, hown, ?_⟩
        rw [hroot]
        split_ifs with hsrc'
        · obtain ⟨rfl, rfl, rfl⟩ := hsrc'
          rw [he.child, entryAt_of_table ha] at hchild
          rw [he.child, hok.exported rfl hown hsrc _ hchild.symm]
        · exact hchild

end Store

/-! ### Changes elsewhere -/

/-- The maps and their tables are as before; other memory, the allocator and the quarantine
may have changed. -/
structure SameTrees (A : Allocator Nat σ) (s s' : VmState R σ) : Prop where
  map : s'.map = s.map
  usePhysMap : s'.usePhysMap = s.usePhysMap
  nxEnabled : s'.nxEnabled = s.nxEnabled
  memory : ∀ k q a, s.forest.Owned k q → q.length ≤ 3 → s.tableAt k q = some a →
    s'.table a = s.table a
  held : ∀ k q a, s.forest.Owned k q → q.length ≤ 3 → s.tableAt k q = some a → a ∈ s'.held A
  unlinked : ∀ f, s'.unlinkedTable = some f → f ∈ A.allocated s'.pmm

theorem SameTrees.tableAt (h : SameTrees A s s') (hq : s.forest.Owned k q)
    (hd : q.length ≤ 3) : s'.tableAt k q = s.tableAt k q := by
  rw [VmState.tableAt, forest_congr h.map]
  exact Forest.table_congr (h.memory k) hq hd

theorem SameTrees.entryAt (h : SameTrees A s s') (hq : s.forest.Owned k q)
    (hd : q.length ≤ 3) : s'.entryAt k q i = s.entryAt k q i := by
  rw [VmState.entryAt, forest_congr h.map]
  exact Forest.entry_congr (h.memory k) hq hd

theorem SameTrees.faults (h : VmInv A s) (fs : VmmTestFault → ArmedFault R) :
    SameTrees A s { s with faults := fs } :=
  ⟨rfl, rfl, rfl, fun _ _ _ _ _ _ => rfl, fun k q a hq hd ha => (h.tables k q a hq hd ha).1,
    h.unlinked⟩

theorem SameTrees.refl (h : VmInv A s) : SameTrees A s s := .faults h s.faults

theorem elsewhere (h : VmInv A s) (hs : SameTrees A s s') : VmInv A s' := by
  have hf := forest_congr hs.map
  refine
    { separated := fun k q k' q' a hq hd hq' hd' ha ha' => ?_
      tables := fun k q a hq hd ha => ?_
      inner := fun k q i hq hd => ?_
      leaf := fun k q i hq hd => ?_
      user := fun k q i j hq hd hu => ?_
      shared := fun k i hi => ?_
      unlinked := hs.unlinked
      range := hs.map ▸ h.range }
  · rw [hf] at hq hq'
    change s'.tableAt k q = some a at ha
    change s'.tableAt k' q' = some a at ha'
    rw [hs.tableAt hq hd] at ha
    rw [hs.tableAt hq' hd'] at ha'
    exact h.separated k q k' q' a hq hd hq' hd' ha ha'
  · rw [hf] at hq
    rw [hs.tableAt hq hd] at ha
    have hu := (h.tables k q a hq hd ha).2
    refine ⟨hs.held k q a hq hd ha, ?_, hu.valid⟩
    rw [← hu.pointer, tablePointer, tablePointer, hs.usePhysMap]
  · rw [hf] at hq
    rw [hs.entryAt hq.init (by omega)]
    exact h.inner k q i hq hd
  · rw [hf] at hq
    rw [hs.entryAt hq (by omega)]
    exact h.leaf k q i hq hd
  · rw [hf] at hq
    have hlen : (q ++ [i]).length ≤ 3 := by
      rw [List.length_append, List.length_singleton]
      omega
    rw [hs.entryAt hq hlen] at hu
    rw [hs.entryAt hq.init (by omega)]
    exact h.user k q i j hq hd hu
  · rw [hf] at hi ⊢
    have hroot : ∀ k, s'.entryAt k [] i = s.entryAt k [] i :=
      fun k => hs.entryAt trivial (Nat.zero_le _)
    simp only [hroot, hs.map]
    exact h.shared k i hi

end VmInv

end VmState

end JcosKernel
