import Mathlib.Order.Interval.Finset.Nat
import JcosKernel.Lib.Allocator
import JcosKernel.Pmm.Runs

/-!
# JcosKernel.Pmm.Allocator

The physical memory manager keeps the contract of `Lib.Allocator`.

A pool is the state of the PMM after its initialisation: its bookkeeping is exact, what is
fixed at boot is as `base` has it, and no fault is armed. The frames in use are the managed
frames whose bit is set, without the bitmap itself.
-/

namespace JcosKernel

open Lib

structure PmmState.PoolOf (base p : PmmState) : Prop where
  inv : PmmInv p
  static : PmmState.Static base p
  total : p.totalPages = (p.ranges.map PmmRange.pages).sum
  noFault : p.freeFault = none

abbrev PmmPool (base : PmmState) := { p : PmmState // base.PoolOf p }

namespace PmmState

variable {base p p' : PmmState} {frame i : Nat}

/-- The frames that the allocator can ever hand out. -/
def Usable (p : PmmState) (frame : Nat) : Prop :=
  p.FrameManaged frame ∧ ¬ p.FrameIsBitmap frame ∧ p.baseFrame ≤ frame ∧
    frame < p.baseFrame + p.bitmapBits

/-- The frames in use. -/
def InUse (p : PmmState) : Set Nat :=
  {frame | p.Usable frame ∧ p.bitmap.used (frame - p.baseFrame) = true}

theorem Static.usable (h : Static base p) : p.Usable frame ↔ base.Usable frame := by
  simp only [Usable, FrameManaged, FrameIsBitmap, h.ranges, h.baseFrame, h.bitmapBits,
    h.bitmapFirstFrame, h.bitmapPageCount]

theorem Reserved.inUse (h : PmmInv p) (hr : Reserved p p' i 1) :
    p.baseFrame + i ∉ p.InUse ∧ p'.InUse = insert (p.baseFrame + i) p.InUse := by
  have hfits := hr.fits
  have hfree := hr.free i le_rfl (by omega)
  have hclear := h.clear i (by omega) hfree
  refine ⟨fun hmem => ?_, ?_⟩
  · have hused := hmem.2
    rw [Nat.add_sub_cancel_left, hfree] at hused
    cases hused
  · have hstatic := hr.static
    ext f
    simp only [InUse, Set.mem_ofPred_eq, hstatic.usable, hstatic.baseFrame]
    have hused : p'.bitmap.used (f - p.baseFrame) =
        (decide (i ≤ f - p.baseFrame ∧ f - p.baseFrame < i + 1) || p.bitmap.used (f - p.baseFrame)) := by
      rw [hr.state]
      exact Bitmap.used_setRange
    rw [hused, Bool.or_eq_true, decide_eq_true_eq]
    constructor
    · rintro ⟨hu, hi | hused⟩
      · have := hu.2.2.1
        exact .inl (by omega)
      · exact .inr ⟨hu, hused⟩
    · rintro (rfl | ⟨hu, hused⟩)
      · exact ⟨⟨hclear.1, hclear.2, by omega, by omega⟩, .inl (by omega)⟩
      · exact ⟨hu, .inr hused⟩

theorem Released.inUse (hb : p.baseFrame ≤ frame) (hr : Released p p' (frame - p.baseFrame) 1) :
    frame ∈ p.InUse ∧ p'.InUse = p.InUse \ {frame} := by
  have hfits := hr.fits
  have hmanaged := hr.managed _ le_rfl (by omega)
  rw [show p.baseFrame + (frame - p.baseFrame) = frame by omega] at hmanaged
  have hused := hr.used _ le_rfl (by omega)
  refine ⟨⟨⟨hmanaged.1, hmanaged.2, hb, by omega⟩, hused⟩, ?_⟩
  have hstatic := hr.static
  ext f
  simp only [InUse, Set.mem_sdiff, Set.mem_singleton_iff, Set.mem_ofPred_eq, hstatic.usable,
    hstatic.baseFrame]
  have hbit : p'.bitmap.used (f - p.baseFrame) =
      (!decide (frame - p.baseFrame ≤ f - p.baseFrame ∧
        f - p.baseFrame < frame - p.baseFrame + 1) && p.bitmap.used (f - p.baseFrame)) := by
    rw [hr.state]
    exact Bitmap.used_clearRange
  rw [hbit, Bool.and_eq_true, Bool.not_eq_true', decide_eq_false_iff_not]
  constructor
  · rintro ⟨hu, hne, hf⟩
    refine ⟨⟨hu, hf⟩, ?_⟩
    rintro rfl
    exact hne ⟨le_rfl, by omega⟩
  · rintro ⟨⟨hu, hf⟩, hne⟩
    refine ⟨hu, fun heq => hne ?_, hf⟩
    have := hu.2.2.1
    omega

/-! ### The operations keep a pool -/

theorem PoolOf.frameAlloc (h : base.PoolOf p) : base.PoolOf p.frameAlloc.2 := by
  rcases frameAlloc_spec h.inv.toPmmLayout with ⟨heq, -⟩ | ⟨i, p', heq, hr⟩
  · rw [heq]
    exact h
  · rw [heq]
    refine ⟨(hr.inv h.inv.toPmmLayout).2 h.inv, h.static.trans _ _ _ hr.static, ?_, ?_⟩
    · rw [hr.state]
      exact h.total
    · rw [hr.state]
      exact h.noFault

theorem PoolOf.frameFree (h : base.PoolOf p) : base.PoolOf (p.frameFree frame).2 := by
  unfold PmmState.frameFree
  rcases frameFreeRange_spec p frame 1 with ⟨fault, heq⟩ | ⟨p', heq, -, hr⟩
  · have hfault : fault = p.freeFault := by
      have hstate := congrArg (fun r => r.2.freeFault) heq
      simp only [frameFreeRange, h.noFault, reduceCtorEq, if_false] at hstate
      rw [h.noFault, ← hstate]
      split_ifs
      · rfl
      · exact h.noFault
    rw [heq, hfault]
    exact h
  · rw [heq]
    refine ⟨(hr.inv h.inv.toPmmLayout).2 h.inv, h.static.trans _ _ _ hr.static, ?_, ?_⟩
    · rw [hr.state]
      exact h.total
    · rw [hr.state]
      exact h.noFault

/-! ### Counting -/

theorem finite_usable (p : PmmState) : {f | p.Usable f}.Finite :=
  (Set.finite_Ico p.baseFrame (p.baseFrame + p.bitmapBits)).subset fun _ h => ⟨h.2.2.1, h.2.2.2⟩

theorem inUse_subset (p : PmmState) : p.InUse ⊆ {f | p.Usable f} := fun _ h => h.1

/-- Every usable frame is free or in use. -/
theorem freePages_add_inUse (h : PmmInv p) :
    p.freePages + p.InUse.ncard = {f | p.Usable f}.ncard := by
  have hfree : {f | p.Usable f} \ p.InUse =
      (((Finset.range p.bitmapBits).filter fun i => p.bitmap.used i = false).image
        (p.baseFrame + ·) : Finset Nat) := by
    ext f
    simp only [InUse, Set.mem_sdiff, Set.mem_ofPred_eq, not_and, Bool.not_eq_true, Finset.coe_image,
      Finset.coe_filter, Finset.mem_range, Set.mem_image]
    constructor
    · rintro ⟨hu, hf⟩
      have h1 := hu.2.2.1
      have h2 := hu.2.2.2
      exact ⟨f - p.baseFrame, ⟨by omega, hf hu⟩, by omega⟩
    · rintro ⟨i, ⟨hi, hf⟩, rfl⟩
      have hclear := h.clear i hi hf
      refine ⟨⟨hclear.1, hclear.2, by omega, by omega⟩, fun _ => ?_⟩
      rw [Nat.add_sub_cancel_left, hf]
  have hcard : ({f | p.Usable f} \ p.InUse).ncard = p.freePages := by
    rw [hfree, Set.ncard_coe_finset,
      Finset.card_image_of_injective _ (add_right_injective p.baseFrame), h.count, Bitmap.freeCount]
  rw [← hcard]
  exact Set.ncard_sdiff_add_ncard_of_subset p.inUse_subset p.finite_usable

/-- A frame in use can be freed. -/
theorem PoolOf.frameFree_inUse (h : base.PoolOf p) (hf : frame ∈ p.InUse) :
    (p.frameFree frame).1 = true := by
  refine (h.inv.toPmmLayout.freeRangeExact frame 1).accepts.mpr
    ⟨⟨Nat.one_pos, fun i hi => ?_⟩, by simp [h.noFault]⟩
  obtain rfl : i = 0 := by omega
  exact ⟨hf.1.1, hf.1.2.1, hf.2⟩

end PmmState

/-! ### The allocator -/

/-- `frame_alloc` and `frame_free` as an allocator. -/
def pmmFrames (base : PmmState) : Allocator Nat (PmmPool base) where
  alloc p := (if p.1.frameAlloc.1 = frameInvalid then none else some p.1.frameAlloc.1,
    ⟨p.1.frameAlloc.2, p.2.frameAlloc⟩)
  free frame p := ((p.1.frameFree frame).1, ⟨(p.1.frameFree frame).2, p.2.frameFree⟩)
  allocated p := p.1.InUse
  alloc_none := by
    rintro p p' h
    obtain ⟨hfst, rfl⟩ := Prod.mk.inj h
    rcases PmmState.frameAlloc_spec p.2.inv.toPmmLayout with ⟨heq, -⟩ | ⟨i, q, heq, hr⟩
    · simp only [heq]
    · rw [heq, if_neg (hr.ne_frameInvalid p.2.inv.toPmmLayout)] at hfst
      cases hfst
  alloc_some := by
    rintro p a p' h
    obtain ⟨hfst, rfl⟩ := Prod.mk.inj h
    rcases PmmState.frameAlloc_spec p.2.inv.toPmmLayout with ⟨heq, -⟩ | ⟨i, q, heq, hr⟩
    · rw [heq, if_pos rfl] at hfst
      cases hfst
    · simp only [heq] at hfst ⊢
      split_ifs at hfst
      cases hfst
      exact hr.inUse p.2.inv
  free_false := by
    rintro a p p' h
    obtain ⟨hfst, rfl⟩ := Prod.mk.inj h
    simp only [PmmState.frameFree] at hfst ⊢
    rcases PmmState.frameFreeRange_spec p.1 a 1 with ⟨fault, heq⟩ | ⟨q, heq, -⟩
    · simp only [heq]
      rfl
    · rw [heq] at hfst
      cases hfst
  free_true := by
    rintro a p p' h
    obtain ⟨hfst, rfl⟩ := Prod.mk.inj h
    simp only [PmmState.frameFree] at hfst ⊢
    rcases PmmState.frameFreeRange_spec p.1 a 1 with ⟨fault, heq⟩ | ⟨q, heq, hb, hr⟩
    · rw [heq] at hfst
      cases hfst
    · simp only [heq]
      exact hr.inUse hb

theorem pmmFrames_freesAllocated (base : PmmState) : (pmmFrames base).FreesAllocated :=
  fun _ p hf => p.2.frameFree_inUse hf

/-- The count of free pages is the allocator's free count. -/
noncomputable def pmmFramesCounted (base : PmmState) : (pmmFrames base).Counted where
  freeCount p := p.1.freePages
  total := {f | base.Usable f}.ncard
  finite p := p.1.finite_usable.subset p.1.inUse_subset
  balance p := by
    have hsame : {f | p.1.Usable f} = {f | base.Usable f} :=
      Set.ext fun _ => p.2.static.usable
    rw [← hsame]
    exact PmmState.freePages_add_inUse p.2.inv

/-- `pmm_init` leaves a pool. -/
theorem pmmInit_pool {fuel : Nat} {boot : BootMemoryMap} {s s' : PmmState}
    {ds : List BootMemoryDescriptor} (hds : boot.descriptors fuel 0 = some ds)
    (hmap : NonOverlapping ds) (h : pmmInit fuel boot s = some s') : s'.PoolOf s' := by
  have hinv := (pmmInit_inv hds hmap h).1
  unfold pmmInit at h
  split at h
  · cases h
  unfold pmmInitRanges at h
  simp only at h
  have hfields : s'.totalPages = (s'.ranges.map PmmRange.pages).sum ∧ s'.freeFault = none := by
    repeat' split at h
    all_goals first | (cases h; exact ⟨rfl, rfl⟩) | cases h
  exact ⟨hinv, .refl s', hfields.1, hfields.2⟩

end JcosKernel
