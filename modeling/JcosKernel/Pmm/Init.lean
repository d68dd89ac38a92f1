import JcosKernel.Pmm.Model
import Mathlib.Algebra.BigOperators.Group.List.Basic
import Mathlib.Data.List.Pairwise

/-!
# JcosKernel.Pmm.Init

What `pmm_init` establishes. On every memory map that it accepts, the bitmap has a clear
bit for each frame of the collected ranges except those that hold the bitmap itself
(`PmmLayout`). Firmware is trusted for one thing more: the conventional descriptors of its
memory map do not overlap (`NonOverlapping`). Then the collected ranges are disjoint sets of
whole conventional pages above the first MiB, and the number of free pages is the number of
clear bits (`PmmInv`).
-/

namespace JcosKernel

open Lib

variable {rs : List PmmRange} {ds : List BootMemoryDescriptor} {r : PmmRange} {acc : Nat × Nat}
  {b : Bitmap} {s s' : PmmState} {frame n : Nat}

namespace BootMemoryDescriptor

variable (d : BootMemoryDescriptor)

/-- The byte at `address` belongs to this conventional-memory descriptor. -/
def Covers (address : Nat) : Prop :=
  d.type = efiConventionalMemory ∧ d.physicalStart ≤ address ∧
    address < d.physicalStart + d.numberOfPages * frameSize

/-- All of page `frame` belongs to this conventional-memory descriptor. -/
def CoversFrame (frame : Nat) : Prop :=
  d.type = efiConventionalMemory ∧ d.physicalStart ≤ frame * frameSize ∧
    (frame + 1) * frameSize ≤ d.physicalStart + d.numberOfPages * frameSize

theorem CoversFrame.covers (h : d.CoversFrame frame) : d.Covers (frame * frameSize) := by
  obtain ⟨ht, hlow, hhigh⟩ := h
  refine ⟨ht, hlow, lt_of_lt_of_le ?_ hhigh⟩
  rw [Nat.add_mul]
  exact Nat.lt_add_of_pos_right (by decide)

end BootMemoryDescriptor

/-- No byte belongs to two conventional descriptors of the map. -/
def NonOverlapping (ds : List BootMemoryDescriptor) : Prop :=
  ds.Pairwise fun d d' => ∀ address, ¬ (d.Covers address ∧ d'.Covers address)

namespace PmmRange

/-- Frames above the first MiB that have an address. -/
structure Good (r : PmmRange) : Prop where
  nonempty : r.first < r.last
  above : minUsableAddress / frameSize ≤ r.first
  below : r.last ≤ 2 ^ 52

def Disjoint (r r' : PmmRange) : Prop := ∀ frame, ¬ (r.Contains frame ∧ r'.Contains frame)

/-- Two adjacent ranges are one. -/
theorem contains_merge {r r' : PmmRange} (hr : r.first < r.last) (hr' : r'.first < r'.last)
    (h : r.last = r'.first) :
    (⟨r.first, r'.last⟩ : PmmRange).Contains frame ↔ r.Contains frame ∨ r'.Contains frame := by
  simp only [Contains]
  omega

end PmmRange

theorem physToFrame_eq {a : Nat} (h : a % frameSize = 0) : physToFrame a = a / frameSize :=
  if_neg (not_not_intro h)

/-- A descriptor contributes whole pages of its own, above the first MiB. -/
theorem BootMemoryDescriptor.range_spec {d : BootMemoryDescriptor} (h : d.range = some r) :
    r.Good ∧ ∀ frame, r.Contains frame → d.CoversFrame frame := by
  unfold BootMemoryDescriptor.range at h
  dsimp only at h
  split_ifs at h with h1 h2 h3 h4
  split at h
  · cases h
  rename_i start hstart
  rw [not_not] at h1
  have hup : start = (d.physicalStart + frameSize - 1) / frameSize * frameSize := by
    unfold alignUpPage at hstart
    split_ifs at hstart
    exact (Option.some.inj hstart).symm
  generalize hlow : (if start < minUsableAddress then minUsableAddress else start) = low at h
  have hmod : low % frameSize = 0 := by
    rw [← hlow]
    split_ifs
    · rfl
    · rw [hup, Nat.mul_mod_left]
  have hge : minUsableAddress ≤ low ∧ start ≤ low := by
    rw [← hlow]
    split_ifs
    all_goals omega
  have hend : alignDownPage (d.physicalStart + d.numberOfPages * frameSize) % frameSize = 0 := by
    rw [alignDownPage, Nat.mul_mod_left]
  rw [physToFrame_eq hmod, physToFrame_eq hend] at h
  split_ifs at h with h5 h6
  obtain rfl := (Option.some.inj h).symm
  simp only [not_or, not_le] at h6
  clear h hlow hstart hend
  simp only [alignDownPage, frameSize, minUsableAddress, max64] at *
  refine ⟨⟨h6.2.2, by simp only [minUsableAddress, frameSize]; omega, by simp only; omega⟩,
    fun frame hc => ⟨h1, ?_, ?_⟩⟩
  all_goals
    simp only [PmmRange.Contains, frameSize] at hc ⊢
    omega

/-! ### Collecting the ranges -/

/-- Pairwise disjoint good ranges. -/
structure RangesOk (rs : List PmmRange) : Prop where
  good : ∀ r ∈ rs, r.Good
  disjoint : rs.Pairwise PmmRange.Disjoint

/-- Frames of a list of ranges. -/
def InRanges (rs : List PmmRange) (frame : Nat) : Prop := ∃ r ∈ rs, r.Contains frame

theorem inRanges_cons : InRanges (r :: rs) frame ↔ r.Contains frame ∨ InRanges rs frame := by
  simp [InRanges]

theorem inRanges_snoc : InRanges (rs ++ [r]) frame ↔ InRanges rs frame ∨ r.Contains frame := by
  simp [InRanges]

/-- A range is added, dropped, or joined to the last one. -/
theorem addRange_cases (rs : List PmmRange) (n : Nat) (r : PmmRange) :
    (addRange (rs, n) r).1 = rs ++ [r] ∨ (addRange (rs, n) r).1 = rs ∨
      ∃ init prev, rs = init ++ [prev] ∧ prev.last = r.first ∧
        (addRange (rs, n) r).1 = init ++ [⟨prev.first, r.last⟩] := by
  unfold addRange
  split
  · rename_i hl
    obtain rfl : rs = [] := by simpa using hl
    exact .inl rfl
  · rename_i prev hl
    obtain ⟨init, rfl⟩ := List.getLast?_eq_some_iff.mp hl
    split_ifs with hadj hfull
    · exact .inr (.inr ⟨init, prev, rfl, hadj, by rw [List.dropLast_concat]⟩)
    · exact .inr (.inl rfl)
    · exact .inl rfl

theorem addRange_good (h : ∀ r ∈ rs, r.Good) (hr : r.Good) :
    ∀ r' ∈ (addRange (rs, n) r).1, r'.Good := by
  rcases addRange_cases rs n r with heq | heq | ⟨init, prev, rfl, hadj, heq⟩ <;> rw [heq]
  · exact List.forall_mem_append.mpr ⟨h, List.forall_mem_singleton.mpr hr⟩
  · exact h
  · obtain ⟨hinit, hprev⟩ := List.forall_mem_append.mp h
    have hprev := List.forall_mem_singleton.mp hprev
    exact List.forall_mem_append.mpr ⟨hinit, List.forall_mem_singleton.mpr
      ⟨hprev.nonempty.trans (hadj ▸ hr.nonempty), hprev.above, hr.below⟩⟩

/-- Whatever the descriptors are, the collected ranges are good. -/
theorem collectRanges_good (ds : List BootMemoryDescriptor) :
    ∀ r ∈ (collectRanges ds).1, r.Good := by
  have hall : ∀ r ∈ ds.filterMap BootMemoryDescriptor.range, r.Good := by
    intro r hm
    obtain ⟨d, -, hd⟩ := List.mem_filterMap.mp hm
    exact (BootMemoryDescriptor.range_spec hd).1
  refine List.foldlRecOn (motive := fun acc : List PmmRange × Nat => ∀ r ∈ acc.1, r.Good) _ _ (by simp) ?_
  exact fun acc hacc r hr => addRange_good hacc (hall r hr)

theorem addRange_spec (h : RangesOk rs) (hr : r.Good) (hd : ∀ r' ∈ rs, r'.Disjoint r) :
    RangesOk (addRange (rs, n) r).1 ∧
      ∀ frame, InRanges (addRange (rs, n) r).1 frame → InRanges rs frame ∨ r.Contains frame := by
  suffices hsuff : (addRange (rs, n) r).1.Pairwise PmmRange.Disjoint ∧
      ∀ frame, InRanges (addRange (rs, n) r).1 frame → InRanges rs frame ∨ r.Contains frame from
    ⟨⟨addRange_good h.good hr, hsuff.1⟩, hsuff.2⟩
  rcases addRange_cases rs n r with heq | heq | ⟨init, prev, rfl, hadj, heq⟩ <;> rw [heq]
  · refine ⟨List.pairwise_append.mpr ⟨h.disjoint, List.pairwise_singleton _ _, ?_⟩,
      fun frame => inRanges_snoc.mp⟩
    exact fun a ha => List.forall_mem_singleton.mpr (hd a ha)
  · exact ⟨h.disjoint, fun frame => .inl⟩
  · -- the last range grows
    have hmerge : ∀ frame, (⟨prev.first, r.last⟩ : PmmRange).Contains frame ↔
        prev.Contains frame ∨ r.Contains frame := fun frame =>
      PmmRange.contains_merge (h.good prev (by simp)).nonempty hr.nonempty hadj
    obtain ⟨hinit, -, hlast⟩ := List.pairwise_append.mp h.disjoint
    refine ⟨List.pairwise_append.mpr ⟨hinit, List.pairwise_singleton _ _, fun a ha =>
      List.forall_mem_singleton.mpr fun frame hc => ?_⟩, fun frame hf => ?_⟩
    · rcases (hmerge frame).mp hc.2 with hp | hp
      · exact hlast a ha prev (by simp) frame ⟨hc.1, hp⟩
      · exact hd a (by simp [ha]) frame ⟨hc.1, hp⟩
    · rw [inRanges_snoc, hmerge] at hf
      rwa [inRanges_snoc, or_assoc]

/-- The loop keeps the ranges disjoint and adds no frame of its own. -/
theorem foldl_addRange_spec {todo rs : List PmmRange} {n : Nat} (h : RangesOk rs)
    (ht : RangesOk todo) (hd : ∀ r ∈ rs, ∀ r' ∈ todo, r.Disjoint r') :
    RangesOk (todo.foldl addRange (rs, n)).1 ∧
      ∀ frame, InRanges (todo.foldl addRange (rs, n)).1 frame →
        InRanges rs frame ∨ InRanges todo frame := by
  induction todo generalizing rs n with
  | nil => exact ⟨h, fun frame hf => .inl hf⟩
  | cons r todo ih =>
    obtain ⟨hrest, hpair⟩ := List.pairwise_cons.mp ht.disjoint
    obtain ⟨hstep, hframes⟩ := addRange_spec h (ht.good r (by simp))
      fun r' hm => hd r' hm r (by simp)
    have htodo : RangesOk todo := ⟨fun r' hm => ht.good r' (by simp [hm]), hpair⟩
    have hd' : ∀ a ∈ (addRange (rs, n) r).1, ∀ b ∈ todo, a.Disjoint b := by
      intro a ha b hb frame hc
      rcases hframes frame ⟨a, ha, hc.1⟩ with hold | hnew
      · obtain ⟨r', hm, hc'⟩ := hold
        exact hd r' hm b (by simp [hb]) frame ⟨hc', hc.2⟩
      · exact hrest b hb frame ⟨hnew, hc.2⟩
    obtain ⟨hok, hall⟩ := @ih (addRange (rs, n) r).1 (addRange (rs, n) r).2 hstep htodo hd'
    refine ⟨hok, fun frame hf => ?_⟩
    rw [inRanges_cons, ← or_assoc]
    exact (hall frame hf).imp_left (hframes frame)

theorem collectRanges_spec (h : NonOverlapping ds) :
    RangesOk (collectRanges ds).1 ∧
      ∀ frame, InRanges (collectRanges ds).1 frame → ∃ d ∈ ds, d.CoversFrame frame := by
  have htodo : RangesOk (ds.filterMap BootMemoryDescriptor.range) := by
    refine ⟨fun r hm => ?_, ?_⟩
    · obtain ⟨d, -, hd⟩ := List.mem_filterMap.mp hm
      exact (BootMemoryDescriptor.range_spec hd).1
    · refine List.Pairwise.filterMap _ (fun d d' hdd r hr r' hr' frame hc => ?_) h
      have hc1 := (BootMemoryDescriptor.range_spec hr).2 frame hc.1
      have hc2 := (BootMemoryDescriptor.range_spec hr').2 frame hc.2
      exact hdd _ ⟨hc1.covers, hc2.covers⟩
  obtain ⟨hok, hall⟩ := @foldl_addRange_spec _ [] 0 ⟨by simp, by simp⟩ htodo (by simp)
  refine ⟨hok, fun frame hf => ?_⟩
  obtain ⟨r, hm, hc⟩ := (hall frame hf).resolve_left (by simp [InRanges])
  obtain ⟨d, hd, hr⟩ := List.mem_filterMap.mp hm
  exact ⟨d, hd, (BootMemoryDescriptor.range_spec hr).2 frame hc⟩

/-! ### The bitmap -/

theorem foldl_span_le :
    let span := rs.foldl (fun acc r => (min acc.1 r.first, max acc.2 r.last)) acc
    span.1 ≤ acc.1 ∧ acc.2 ≤ span.2 ∧ ∀ r ∈ rs, span.1 ≤ r.first ∧ r.last ≤ span.2 := by
  induction rs generalizing acc with
  | nil => simp
  | cons r rs ih =>
    obtain ⟨h1, h2, h3⟩ := @ih (min acc.1 r.first, max acc.2 r.last)
    simp only [List.foldl_cons, List.mem_cons, forall_eq_or_imp]
    exact ⟨by omega, by omega, ⟨by omega, by omega⟩, h3⟩

theorem foldl_span_bounds {low high : Nat} (ha : low ≤ acc.1 ∧ acc.2 ≤ high)
    (h : ∀ r ∈ rs, low ≤ r.first ∧ r.last ≤ high) :
    let span := rs.foldl (fun acc r => (min acc.1 r.first, max acc.2 r.last)) acc
    low ≤ span.1 ∧ span.2 ≤ high := by
  induction rs generalizing acc with
  | nil => exact ha
  | cons r rs ih =>
    have hr := h r (by simp)
    exact @ih (min acc.1 r.first, max acc.2 r.last) ⟨by simp only; omega, by simp only; omega⟩
      fun r' hm => h r' (by simp [hm])

/-- All ranges lie in the frames that the bitmap covers. -/
def SpannedBy (base bits : Nat) (rs : List PmmRange) : Prop :=
  ∀ r ∈ rs, base ≤ r.first ∧ r.first < r.last ∧ r.last ≤ base + bits

theorem clearRanges_cons {base : Nat} : clearRanges base b (r :: rs) =
    clearRanges base (b.clearRange (r.first - base) r.pages) rs := rfl

theorem contains_base_add {base i : Nat} (h : base ≤ r.first) (hlt : r.first < r.last) :
    r.Contains (base + i) ↔ r.first - base ≤ i ∧ i < r.first - base + r.pages := by
  simp only [PmmRange.Contains, PmmRange.pages]
  omega

theorem clearRanges_used {base bits i : Nat} (h : SpannedBy base bits rs) :
    (clearRanges base b rs).used i = false ↔ b.used i = false ∨ InRanges rs (base + i) := by
  induction rs generalizing b with
  | nil => simp [clearRanges, InRanges]
  | cons r rs ih =>
    have hr := h r (by simp)
    rw [clearRanges_cons, ih fun r' hm => h r' (by simp [hm]), inRanges_cons, Bitmap.used_clearRange,
      Bool.and_eq_false_iff, Bool.not_eq_false', decide_eq_true_eq, contains_base_add hr.1 hr.2.1]
    tauto

/-- Clearing disjoint ranges frees exactly their frames. -/
theorem freeCount_clearRanges {base bits : Nat} (h : SpannedBy base bits rs)
    (hd : rs.Pairwise PmmRange.Disjoint) (hu : ∀ i, InRanges rs (base + i) → b.used i = true) :
    (clearRanges base b rs).freeCount bits = b.freeCount bits + (rs.map PmmRange.pages).sum := by
  induction rs generalizing b with
  | nil => simp [clearRanges]
  | cons r rs ih =>
    have hr := h r (by simp)
    obtain ⟨hrest, hpair⟩ := List.pairwise_cons.mp hd
    have hcontains := fun i => (contains_base_add (i := i) hr.1 hr.2.1).mpr
    have hone : (b.clearRange (r.first - base) r.pages).freeCount bits =
        b.freeCount bits + r.pages := by
      refine Bitmap.freeCount_clearRange ?_ fun i h1 h2 => hu i ⟨r, by simp, hcontains i ⟨h1, h2⟩⟩
      simp only [PmmRange.pages]
      omega
    rw [clearRanges_cons, ih (fun r' hm => h r' (by simp [hm])) hpair]
    · simp only [List.map_cons, List.sum_cons]
      omega
    · -- the frames of the other ranges are still marked used
      intro i hi
      obtain ⟨r', hm, hc⟩ := hi
      rw [Bitmap.used_clearRange, hu i ⟨r', by simp [hm], hc⟩, Bool.and_true, Bool.not_eq_true',
        decide_eq_false_iff_not]
      exact fun hin => hrest r' hm _ ⟨hcontains i hin, hc⟩

section InitBitmap

variable {home : PmmRange} {base bits pages i : Nat} (h : SpannedBy base bits rs)
  (hbits : bits ≤ pages * frameSize * 8)
include h hbits

theorem clearRanges_fill_used (hi : i < bits) :
    (clearRanges base (b.fill (pages * frameSize)) rs).used i = false ↔ InRanges rs (base + i) := by
  have hfill : (b.fill (pages * frameSize)).used i = true := Bitmap.used_fill (by omega)
  rw [clearRanges_used h, hfill]
  simp

/-- The bitmap that `pmm_init` builds: a clear bit for every frame of the ranges but
the first `pages` of `home`, where the bitmap itself is. -/
theorem initBitmap_used (hhome : home ∈ rs) (hi : i < bits) :
    ((clearRanges base (b.fill (pages * frameSize)) rs).setRange (home.first - base) pages).used i =
        false ↔
      InRanges rs (base + i) ∧ ¬ (home.first ≤ base + i ∧ base + i - home.first < pages) := by
  have hbase := h home hhome
  rw [Bitmap.used_setRange, Bool.or_eq_false_iff, decide_eq_false_iff_not,
    clearRanges_fill_used h hbits hi, and_comm]
  exact and_congr_right fun _ => by omega

/-- Of disjoint ranges it counts every frame once. -/
theorem initBitmap_freeCount (hok : RangesOk rs) (hhome : home ∈ rs) (hpages : pages ≤ home.pages) :
    ((clearRanges base (b.fill (pages * frameSize)) rs).setRange (home.first - base) pages).freeCount
      bits + pages = (rs.map PmmRange.pages).sum := by
  have hbase := h home hhome
  have hfill : ∀ i < bits, (b.fill (pages * frameSize)).used i = true := fun i hi =>
    Bitmap.used_fill (by omega)
  have hzero : (b.fill (pages * frameSize)).freeCount bits = 0 := Bitmap.freeCount_eq_zero.mpr hfill
  have hcleared := freeCount_clearRanges h hok.disjoint
    fun i ⟨r, hm, hc⟩ => hfill i (by
      have := h r hm
      simp only [PmmRange.Contains] at hc
      omega)
  have hset := Bitmap.freeCount_setRange (b := clearRanges base (b.fill (pages * frameSize)) rs)
    (i := home.first - base) (c := pages) (n := bits)
    (by simp only [PmmRange.pages] at hpages; omega)
    fun j h1 h2 => by
      simp only [PmmRange.pages] at hpages
      exact (clearRanges_fill_used h hbits (by omega)).mpr ⟨home, hhome, by omega, by omega⟩
  omega

end InitBitmap

/-! ### The allocator invariant -/

/-- The number of frames that can ever be free: the managed ones without those of the bitmap. -/
def PmmState.usableCount (s : PmmState) : Nat :=
  ((Finset.range s.bitmapBits).filter fun i =>
    s.FrameManaged (s.baseFrame + i) ∧ ¬ s.FrameIsBitmap (s.baseFrame + i)).card

/-- Every usable frame is free. -/
theorem PmmState.usableCount_eq (h : ∀ i < s.bitmapBits, s.bitmap.used i = false ↔
    s.FrameManaged (s.baseFrame + i) ∧ ¬ s.FrameIsBitmap (s.baseFrame + i)) :
    s.usableCount = s.bitmap.freeCount s.bitmapBits :=
  congrArg Finset.card (Finset.filter_congr fun i hi => (h i (Finset.mem_range.mp hi)).symm)

/-- What holds on every memory map. -/
structure PmmLayout (s : PmmState) : Prop where
  initialized : s.initialized
  address : s.bitmapAddress ≠ 0
  base_ge : minUsableAddress / frameSize ≤ s.baseFrame
  top_le : s.baseFrame + s.bitmapBits ≤ 2 ^ 52
  spanned : SpannedBy s.baseFrame s.bitmapBits s.ranges
  hint : s.nextHint < s.bitmapBits
  clear : ∀ i < s.bitmapBits, s.bitmap.used i = false →
    s.FrameManaged (s.baseFrame + i) ∧ ¬ s.FrameIsBitmap (s.baseFrame + i)
  -- `total_pages - free_pages` counts the frames in use, and the bitmap's own
  balance : s.totalPages + s.bitmap.freeCount s.bitmapBits =
    s.freePages + s.usableCount + s.bitmapPageCount

/-- The allocator's bookkeeping is exact. -/
structure PmmInv (s : PmmState) : Prop extends PmmLayout s where
  ranges : RangesOk s.ranges
  count : s.freePages = s.bitmap.freeCount s.bitmapBits

theorem pmmInitRanges_layout (h : ∀ r ∈ rs, r.Good) (hi : pmmInitRanges s rs n = some s') :
    PmmLayout s' ∧ s'.ranges = rs ∧
      (RangesOk rs → s'.freePages = s'.bitmap.freeCount s'.bitmapBits) := by
  cases rs with
  | nil => cases hi
  | cons r rest =>
    unfold pmmInitRanges at hi
    dsimp only at hi
    have hle := @foldl_span_le (r :: rest) (r.first, r.last)
    have hbounds := @foldl_span_bounds (r :: rest) (r.first, r.last)
      (minUsableAddress / frameSize) (2 ^ 52)
      ⟨(h r (by simp)).above, (h r (by simp)).below⟩
      fun r' hm => ⟨(h r' hm).above, (h r' hm).below⟩
    -- the span covers every range; the seven checks follow in the order of the source
    generalize hspan : frameSpan r (r :: rest) = span at hi
    rw [frameSpan] at hspan
    rw [hspan] at hle hbounds
    generalize r :: rest = rs at *
    generalize hpages : ((span.2 - span.1 + 7) / 8 + frameSize - 1) / frameSize = pages at hi
    split at hi
    · cases hi
    split at hi
    · cases hi
    split at hi
    · cases hi
    split at hi
    · cases hi
    split at hi
    · cases hi
    rename_i home hhome
    split at hi
    · cases hi
    rename_i h5
    split at hi
    · cases hi
    have hwithin : SpannedBy span.1 (span.2 - span.1) rs := fun r' hm =>
      ⟨(hle.2.2 r' hm).1, (h r' hm).nonempty, by have := (hle.2.2 r' hm).2; omega⟩
    have hmem := List.mem_of_find?_eq_some hhome
    have hfit : pages ≤ home.pages := by simpa using List.find?_some hhome
    -- the bitmap has a bit for every frame of the span
    have hcover : span.2 - span.1 ≤ pages * frameSize * 8 := by
      simp only [frameSize] at hpages ⊢
      omega
    have hbelow := (h home hmem).below
    have hfirst : home.first ≠ frameInvalid := by
      simp only [frameInvalid, max64]
      have := (h home hmem).nonempty
      omega
    obtain rfl := (Option.some.inj hi).symm
    have hused := fun i hi => (initBitmap_used (b := s.bitmap) (i := i) hwithin hcover hmem hi).trans
      (and_congr_right fun _ => not_congr (and_iff_right hfirst).symm)
    refine ⟨⟨rfl, fun h0 => h5 (.inl h0), hbounds.1, ?_, hwithin, ?_,
      fun i hi => (hused i hi).mp, ?_⟩, rfl, fun hok => ?_⟩
    · show span.1 + (span.2 - span.1) ≤ 2 ^ 52
      omega
    · show 0 < span.2 - span.1
      omega
    · rw [PmmState.usableCount_eq hused]
      simp only
      omega
    · have hcount := initBitmap_freeCount (b := s.bitmap) hwithin hcover hok hmem hfit
      simp only
      omega

/-- On every memory map that `pmm_init` accepts. -/
theorem pmmInit_layout {fuel : Nat} {boot : BootMemoryMap} (h : pmmInit fuel boot s = some s') :
    PmmLayout s' := by
  unfold pmmInit at h
  split at h
  · cases h
  split at h
  · cases h
  · exact (pmmInitRanges_layout (collectRanges_good _) h).1

/-- After a successful `pmm_init` the bookkeeping is exact and every managed frame is
a whole page of conventional memory. -/
theorem pmmInit_inv {fuel : Nat} {boot : BootMemoryMap} (hds : boot.descriptors fuel 0 = some ds)
    (hmap : NonOverlapping ds) (h : pmmInit fuel boot s = some s') :
    PmmInv s' ∧ ∀ frame, s'.FrameManaged frame → ∃ d ∈ ds, d.CoversFrame frame := by
  unfold pmmInit at h
  split at h
  · cases h
  rw [hds] at h
  obtain ⟨hok, hframes⟩ := collectRanges_spec hmap
  obtain ⟨hlayout, hranges, hcount⟩ := pmmInitRanges_layout hok.good h
  refine ⟨⟨hlayout, hranges ▸ hok, hcount hok⟩, fun frame hm => hframes frame ?_⟩
  unfold PmmState.FrameManaged at hm
  rwa [hranges] at hm

end JcosKernel
