import JcosKernel.Vmm.Runs
import Mathlib.Logic.Equiv.Basic

/-!
# JcosKernel.Vmm.Shared

PML4 entries that one page map has copied from another.

Behind a copied entry both maps walk through the same tables, so a query through the copy finds
what a query through the source finds (`vmmQueryPage_shared`), short of the permissions that the
copy itself lacks. Page maps may also change their address (`VmInv.rename`); what is known
about them moves along.
-/

namespace JcosKernel

open Lib

/-- What is seen through a copied PML4 entry of what its source maps. -/
def throughEntry (e : Pte) (page : Option (Nat × VmFlags)) : Option (Nat × VmFlags) :=
  if Has e ptePresent then
    page.map fun (frame, flags) => (frame, if Has e pteUser then flags else flags &&& ~~~vmUser)
  else none

/-- A top entry of its own takes at most the USER flag away. -/
theorem effectiveFlags_throughEntry {e pml4e pdpte pde pte : Pte} (he : TableEntry e)
    (h4 : TableEntry pml4e) (h3 : TableEntry pdpte) (h2 : TableEntry pde)
    (hu : Has pte pteUser → Has pml4e pteUser ∧ Has pdpte pteUser ∧ Has pde pteUser) :
    effectiveFlags e pdpte pde pte =
      if Has e pteUser then effectiveFlags pml4e pdpte pde pte
      else effectiveFlags pml4e pdpte pde pte &&& ~~~vmUser := by
  rw [effectiveFlags_eq h4 h3 h2 hu]
  split_ifs with hue
  · exact effectiveFlags_eq he h3 h2 fun hpte => ⟨hue, (hu hpte).2⟩
  · have hw : (Has e pteWrite ∧ Has pdpte pteWrite ∧ Has pde pteWrite ∧ Has pte pteWrite) ↔
        Has pte pteWrite :=
      ⟨fun h => h.2.2.2, fun h => ⟨he.write, h3.write, h2.write, h⟩⟩
    have hx : Has (e ||| pdpte ||| pde ||| pte) pteNx ↔ Has pte pteNx := by
      rw [has_or, has_or, has_or]
      simp [he.exec, h3.exec, h2.exec]
    simp only [effectiveFlags, leafFlags, hw, hx, hue, false_and, if_false]
    split_ifs <;> decide

namespace VmState

variable {R σ : Type} {A : Allocator Nat σ} {s s₁ s' : VmState R σ} {k src : R} {va : Nat}
  {q : List TableIndex} {i : TableIndex}

/-! ### Queries through a copied entry -/

/-- Two roots whose entries for an address lead to the same table. -/
theorem existingTables_of_child {root root' : Nat} (hp : s.tablePointer root = some root)
    (hp' : s.tablePointer root' = some root') (he : TableEntry (s.table root (pml4Index va)))
    (he' : TableEntry (s.table root' (pml4Index va)))
    (hchild : tableChild (s.table root (pml4Index va)) = tableChild (s.table root' (pml4Index va))) :
    s.existingTables root va =
      (s.existingTables root' va).map fun (_, pdpt, pd, pt) => (root, pdpt, pd, pt) := by
  have hframe : entryFrame (s.table root (pml4Index va)) = entryFrame (s.table root' (pml4Index va)) := by
    rw [he.child, he'.child] at hchild
    exact Option.some.inj hchild
  have hsame : s.existingTable root (pml4Index va) = s.existingTable root' (pml4Index va) := by
    unfold existingTable
    simp [he.present, he.notHuge, he'.present, he'.notHuge, hframe]
  unfold existingTables
  rw [hp, hp']
  simp only [hsame]
  rcases s.existingTable root' (pml4Index va) with _ | pdpt
  · rfl
  simp only
  rcases s.existingTable pdpt (pdptIndex va) with _ | pd
  · rfl
  simp only
  rcases s.existingTable pd (pdIndex va) with _ | pt <;> rfl

theorem vmmQueryPage_of_child (h : VmInv A s) (hk : (s.map k).rootFrame ≠ none)
    (hown : s.forest.own src (pml4Index va))
    (he : TableEntry (s.entryAt k [] (pml4Index va)))
    (hchild : tableChild (s.entryAt k [] (pml4Index va)) =
      tableChild (s.entryAt src [] (pml4Index va))) :
    s.vmmQueryPage k va =
      throughEntry (s.entryAt k [] (pml4Index va)) (s.vmmQueryPage src va) := by
  rw [throughEntry, if_pos he.present]
  obtain ⟨root, hroot⟩ := Option.ne_none_iff_exists'.mp hk
  have hat : s.tableAt k [] = some root := Forest.table_nil.trans hroot
  -- the source has a root too, since it has the child
  have hown' : s.forest.Owned src ([] ++ [pml4Index va]) := hown
  have hsrc : TableEntry (s.entryAt src [] (pml4Index va)) := by
    refine (h.inner src [] (pml4Index va) hown' (by simp)).resolve_left fun hzero => ?_
    rw [he.child, hzero] at hchild
    cases hchild
  rcases hroot' : (s.map src).rootFrame with _ | root'
  · refine absurd (entryAt_of_none (Forest.table_of_root_none hroot')) hsrc.ne_zero
  have hat' : s.tableAt src [] = some root' := Forest.table_nil.trans hroot'
  rw [entryAt_of_table hat] at he hchild ⊢
  rw [entryAt_of_table hat'] at hsrc hchild
  unfold vmmQueryPage
  rw [hroot, hroot']
  simp only
  by_cases hgood : ¬ PageAligned va ∨ ¬ VirtualAddressCanonical va
  · rw [if_pos hgood, if_pos hgood]
    rfl
  rw [if_neg hgood, if_neg hgood, existingTables_of_child (h.root_mem hroot).2.pointer
    (h.root_mem hroot').2.pointer he hsrc hchild]
  rcases existingTables_cases h hown hroot' with ⟨hnone, -⟩ | ⟨pml4, pdpt, pd, pt, hsome, ht⟩
  · rw [hnone]
    rfl
  obtain ⟨h4, h3, h2, -⟩ := ht.effectiveFlags h hown
  rw [hsome]
  simp only [Option.map_some]
  by_cases hp : Has (s.table pt (ptIndex va)) ptePresent
  · rw [if_neg (not_not_intro hp), if_neg (not_not_intro hp), Option.map_some,
      effectiveFlags_throughEntry he h4 h3 h2 (ht.user h hown)]
  · rw [if_pos hp, if_pos hp]
    rfl

/-- A page outside of the owned range is seen through the copied entry, whatever that is. -/
theorem vmmQueryPage_shared (h : VmInv A s) (hk : (s.map k).rootFrame ≠ none)
    (hone : ∀ k', (s.map k').sharedSource = true → k' = src)
    (hown : ¬ s.forest.own k (pml4Index va)) :
    s.vmmQueryPage k va =
      throughEntry (s.entryAt k [] (pml4Index va)) (s.vmmQueryPage src va) := by
  rcases h.shared k (pml4Index va) hown with hzero | ⟨he, src', hshared, hown', hchild⟩
  · rw [hzero]
    exact vmmQueryPage_of_zero h hzero
  · obtain rfl := hone src' hshared
    exact vmmQueryPage_of_child h hk hown' he hchild

/-! ### Maps that keep their pages -/

/-- The map has its root, its copied entries and its own pages as before. -/
structure MapKept (k : R) (s s' : VmState R σ) : Prop extends SameRoot k s s' where
  pages : s'.ownView k = s.ownView k

namespace MapKept

theorem refl : MapKept k s s := ⟨⟨rfl, rfl, fun _ _ => rfl⟩, rfl⟩

theorem trans (w : MapKept k s s₁) (v : MapKept k s₁ s') : MapKept k s s' :=
  ⟨w.toSameRoot.trans v.toSameRoot, v.pages.trans w.pages⟩

end MapKept

theorem Apart.kept {k' : R} (w : Apart A k' s s') (h : VmInv A s) (hk : k ≠ k') : MapKept k s s' :=
  ⟨w.sameRoot h hk, w.ownView h hk⟩

theorem VmInv.SameTrees.kept (w : VmInv.SameTrees A s s') (h : VmInv A s) : MapKept k s s' :=
  ⟨w.sameRoot, w.ownView h⟩

theorem Shares.kept [DecidableEq R] {dst : R} (sh : Shares A dst src i s s') (h : VmInv A s)
    (hk : k ≠ dst) : MapKept k s s' :=
  ⟨sh.sameRoot hk, sh.ownView h⟩

/-- Overwriting the record of a map that has no root. -/
theorem VmInv.apart_setMap [DecidableEq R] {v : VmPageMap} (h : VmInv A s)
    (hroot : (s.map k).rootFrame = none) (hv : v.rootFrame = none) : Apart A k s (s.setMap k v) where
  inv := h.setMap (.of_none hv) (.inl hroot)
  map _ hk := setMap_map_of_ne hk
  rest _ hf := hf.1
  memory _ _ _ := rfl
  usePhysMap := rfl
  nxEnabled := rfl
  calm _ hn := ⟨hn.disarmed, hn.unlinked⟩

/-! ### Maps that change their address -/

/-- The maps of `s'` are those of `s`, at other addresses. -/
structure Renames (π : Equiv.Perm R) (s s' : VmState R σ) : Prop where
  map : ∀ k, s'.map k = s.map (π k)
  table : s'.table = s.table
  pmm : s'.pmm = s.pmm
  unlinkedTable : s'.unlinkedTable = s.unlinkedTable
  usePhysMap : s'.usePhysMap = s.usePhysMap

namespace Renames

variable {π : Equiv.Perm R}

variable (r : Renames π s s')
include r

theorem root (k : R) : s'.forest.root k = s.forest.root (π k) :=
  congrArg VmPageMap.rootFrame (r.map k)

theorem own (k : R) : s'.forest.own k = s.forest.own (π k) :=
  congrArg VmPageMap.OwnsPml4Index (r.map k)

theorem owned : s'.forest.Owned k q ↔ s.forest.Owned (π k) q := Forest.owned_congr (r.own k)

theorem tableAt : s'.tableAt k q = s.tableAt (π k) q := by
  unfold VmState.tableAt Forest.table
  rw [r.root, r.table]

theorem entryAt : s'.entryAt k q i = s.entryAt (π k) q i :=
  entryAt_of_tableAt_eq r.tableAt fun _ _ => by rw [r.table]

theorem held : s'.held A = s.held A := by
  unfold VmState.held
  rw [r.pmm, r.unlinkedTable]

theorem usable {a : Nat} (h : s.Usable a) : s'.Usable a := by
  refine ⟨?_, h.valid⟩
  have hp := h.pointer
  unfold VmState.tablePointer at hp ⊢
  rw [r.usePhysMap]
  exact hp

theorem query : s'.vmmQueryPage k va = s.vmmQueryPage (π k) va := by
  unfold vmmQueryPage existingTables existingTable VmState.tablePointer
  rw [r.map, r.table, r.usePhysMap]

theorem ownView : s'.ownView k = s.ownView (π k) := by
  funext va
  unfold VmState.ownView
  rw [r.query, r.map]

/-- The maps that keep their address are as before. -/
theorem kept (hk : π k = k) : MapKept k s s' := by
  refine ⟨⟨?_, ?_, fun i _ => ?_⟩, ?_⟩
  · rw [r.map, hk]
  · rw [r.own, hk]
  · rw [r.entryAt, hk]
  · rw [r.ownView, hk]

end Renames

theorem VmInv.rename {π : Equiv.Perm R} (h : VmInv A s) (r : Renames π s s') : VmInv A s' where
  separated k q k' q' a hq hd hq' hd' ha ha' := by
    obtain ⟨hk, hqq⟩ := h.separated (π k) q (π k') q' a (r.owned.mp hq) hd (r.owned.mp hq') hd'
      (r.tableAt.symm.trans ha) (r.tableAt.symm.trans ha')
    exact ⟨π.injective hk, hqq⟩
  tables k q a hq hd ha := by
    obtain ⟨hheld, huse⟩ := h.tables (π k) q a (r.owned.mp hq) hd (r.tableAt.symm.trans ha)
    rw [r.held]
    exact ⟨hheld, r.usable huse⟩
  inner k q i hq hd := by
    rw [r.entryAt]
    exact h.inner (π k) q i (r.owned.mp hq) hd
  leaf k q i hq hd := by
    rw [r.entryAt]
    exact h.leaf (π k) q i (r.owned.mp hq) hd
  user k q i j hq hd hu := by
    rw [r.entryAt] at hu ⊢
    exact h.user (π k) q i j (r.owned.mp hq) hd hu
  shared k i hown := by
    rw [r.own] at hown
    rw [r.entryAt]
    refine (h.shared (π k) i hown).imp_right fun ⟨he, src, hs, ho, hc⟩ => ⟨he, π.symm src, ?_, ?_, ?_⟩
    · rw [r.map, Equiv.apply_symm_apply]
      exact hs
    · rw [r.own, Equiv.apply_symm_apply]
      exact ho
    · rw [r.entryAt, Equiv.apply_symm_apply]
      exact hc
  unlinked f hf := by
    rw [r.pmm]
    exact h.unlinked f (r.unlinkedTable ▸ hf)
  range k hk := by
    rw [r.map] at hk ⊢
    exact h.range (π k) hk

end VmState

end JcosKernel
