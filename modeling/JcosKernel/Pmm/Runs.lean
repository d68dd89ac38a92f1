import JcosKernel.Lib.Run
import JcosKernel.Pmm.Init

/-!
# JcosKernel.Pmm.Runs

The frame allocator over whole runs. Every operation either changes nothing that
matters, hands out a run of free frames (`Reserved`) or takes one back (`Released`);
the invariant and the history argument rest on these two effects.
-/

namespace JcosKernel

open Lib

namespace PmmState

variable {s s' : PmmState} {start count : Nat}

/-- `count` free bits from `start` on have been set. -/
structure Reserved (s s' : PmmState) (start count : Nat) : Prop where
  fits : start + count ≤ s.bitmapBits
  free : s.bitmap.FreeRun start count
  enough : count ≤ s.freePages
  hint : s'.nextHint < s.bitmapBits
  state : s' = { s with
    bitmap := s.bitmap.setRange start count, freePages := s.freePages - count,
    nextHint := s'.nextHint }

/-- `count` set bits of managed frames from `start` on have been cleared. -/
structure Released (s s' : PmmState) (start count : Nat) : Prop where
  fits : start + count ≤ s.bitmapBits
  nonempty : 0 < count
  used : ∀ j, start ≤ j → j < start + count → s.bitmap.used j = true
  managed : ∀ j, start ≤ j → j < start + count →
    s.FrameManaged (s.baseFrame + j) ∧ ¬ s.FrameIsBitmap (s.baseFrame + j)
  state : s' = { s with
    bitmap := s.bitmap.clearRange start count, freePages := s.freePages + count,
    nextHint := start }

/-- The bitmap changes, and the count of the free pages with it. -/
theorem rebooked {bitmap : Bitmap} {freePages hint : Nat} (h : PmmLayout s)
    (hhint : hint < s.bitmapBits)
    (hclear : ∀ i < s.bitmapBits, bitmap.used i = false →
      s.FrameManaged (s.baseFrame + i) ∧ ¬ s.FrameIsBitmap (s.baseFrame + i))
    (hcount : bitmap.freeCount s.bitmapBits + s.freePages =
      s.bitmap.freeCount s.bitmapBits + freePages) :
    PmmLayout { s with bitmap := bitmap, freePages := freePages, nextHint := hint } ∧
      (PmmInv s → PmmInv { s with bitmap := bitmap, freePages := freePages, nextHint := hint }) := by
  have hbalance := h.balance
  have hlayout : PmmLayout { s with bitmap := bitmap, freePages := freePages, nextHint := hint } := by
    refine { h with hint := hhint, clear := hclear, balance := ?_ }
    show s.totalPages + bitmap.freeCount s.bitmapBits = freePages + s.usableCount + s.bitmapPageCount
    omega
  refine ⟨hlayout, fun hi => ⟨hlayout, hi.ranges, ?_⟩⟩
  have hfree := hi.count
  show freePages = bitmap.freeCount s.bitmapBits
  omega

theorem Reserved.inv (h : PmmLayout s) (hr : Reserved s s' start count) :
    PmmLayout s' ∧ (PmmInv s → PmmInv s') := by
  have hcount := Bitmap.freeCount_setRange hr.fits hr.free
  have henough := hr.enough
  rw [hr.state]
  refine rebooked h hr.hint (fun i hi hu => ?_) (by omega)
  rw [Bitmap.used_setRange, Bool.or_eq_false_iff] at hu
  exact h.clear i hi hu.2

theorem Released.clear (h : PmmLayout s) (hr : Released s s' start count) :
    ∀ i < s'.bitmapBits, s'.bitmap.used i = false →
      s'.FrameManaged (s'.baseFrame + i) ∧ ¬ s'.FrameIsBitmap (s'.baseFrame + i) := by
  rw [hr.state]
  intro i hi hu
  rw [Bitmap.used_clearRange, Bool.and_eq_false_iff, Bool.not_eq_false', decide_eq_true_eq] at hu
  rcases hu with hu | hu
  · exact hr.managed i hu.1 hu.2
  · exact h.clear i hi hu

theorem Released.inv (h : PmmLayout s) (hr : Released s s' start count) :
    PmmLayout s' ∧ (PmmInv s → PmmInv s') := by
  have hcount := Bitmap.freeCount_clearRange hr.fits hr.used
  have hpos := hr.nonempty
  have hfits := hr.fits
  have hclear := hr.clear h
  rw [hr.state] at hclear ⊢
  exact rebooked h (by omega) hclear (by omega)

/-! ### The operations -/

/-- `frame_alloc` hands out a free frame, and fails only when none is counted or there is
none. -/
theorem frameAlloc_spec (h : PmmLayout s) :
    (s.frameAlloc = (frameInvalid, s) ∧
      (s.freePages ≠ 0 → ∀ i < s.bitmapBits, s.bitmap.used i = true)) ∨
    ∃ i s', s.frameAlloc = (s.baseFrame + i, s') ∧ Reserved s s' i 1 := by
  unfold frameAlloc
  have hbits : s.bitmapBits ≠ 0 := by have := h.hint; omega
  by_cases hzero : s.freePages = 0
  · rw [if_pos (by simp [hzero])]
    exact .inl ⟨rfl, fun hne => absurd hzero hne⟩
  · rw [if_neg (by simp [h.initialized, h.address, hbits, hzero])]
    rcases Bitmap.scan_all h.hint with ⟨i, hi, hs, hf⟩ | ⟨hs, hall⟩ <;> rw [hs]
    swap
    · exact .inl ⟨rfl, fun _ => hall⟩
    · refine .inr ⟨i, _, rfl, hi, fun j h1 h2 => ?_, by omega, ?_, rfl⟩
      · obtain rfl : j = i := by omega
        exact hf
      · simp only
        split_ifs <;> omega

/-- `pmm_alloc_pages` hands out the lowest run of free frames, and fails only when too few
are counted or there is none. -/
theorem pmmAllocPages_spec (h : PmmLayout s) (hpos : 0 < count) :
    (s.pmmAllocPages count = (0, s) ∧ (count ≤ s.freePages →
      ∀ a, a + count ≤ s.bitmapBits → ¬ s.bitmap.FreeRun a count)) ∨
    ∃ a s', s.pmmAllocPages count = (frameToPhys (s.baseFrame + a), s') ∧ Reserved s s' a count ∧
      ∀ a' < a, ¬ s.bitmap.FreeRun a' count := by
  unfold pmmAllocPages
  by_cases hmany : s.freePages < count ∨ s.bitmapBits < count
  · rw [if_pos (by tauto)]
    exact .inl ⟨rfl, fun hle a ha _ => by omega⟩
  · rw [if_neg (by
      simp only [h.initialized, not_true_eq_false, false_or]
      omega)]
    rcases @Bitmap.findRun_spec s.bitmap _ s.bitmapBits _ _ _ (Bitmap.runInv_start hpos) with
      ⟨a, hf, hfit, hrun, hlow⟩ | ⟨hf, hnone⟩
    · rw [hf]
      refine .inr ⟨a, _, rfl, ⟨by omega, hrun, by omega, ?_, rfl⟩, hlow⟩
      simp only
      split_ifs <;> omega
    · rw [hf]
      exact .inl ⟨rfl, fun _ a ha => hnone a (by omega)⟩

/-- On a map without overlaps every free frame is counted. -/
theorem all_used (h : PmmInv s)
    (hall : s.freePages ≠ 0 → ∀ i < s.bitmapBits, s.bitmap.used i = true) :
    ∀ i < s.bitmapBits, s.bitmap.used i = true := by
  by_cases hzero : s.freePages = 0
  · exact Bitmap.freeCount_eq_zero.mp (h.count ▸ hzero)
  · exact hall hzero

/-- So is every run. -/
theorem le_freePages {a : Nat} (h : PmmInv s) (ha : a + count ≤ s.bitmapBits)
    (hr : s.bitmap.FreeRun a count) : count ≤ s.freePages := by
  have := Bitmap.freeCount_setRange ha hr
  have := h.count
  omega

/-- `frame_free_range` refuses and leaves the bitmap alone, or releases the span. -/
theorem frameFreeRange_spec (s : PmmState) (first count : Nat) :
    (∃ fault, s.frameFreeRange first count = (false, { s with freeFault := fault })) ∨
    ∃ s', s.frameFreeRange first count = (true, s') ∧ s.baseFrame ≤ first ∧
      Released s s' (first - s.baseFrame) count := by
  unfold frameFreeRange
  by_cases hv : s.FreeRangeValid first count
  case neg =>
    rw [if_pos hv]
    exact .inl ⟨s.freeFault, rfl⟩
  split_ifs with hfault
  · exact .inl ⟨none, rfl⟩
  · obtain ⟨-, -, hc, -, hbase, -, -, hin, hfit, -, -, hall⟩ := hv
    refine .inr ⟨_, rfl, hbase, by omega, Nat.pos_of_ne_zero hc, fun j h1 h2 => ?_,
      fun j h1 h2 => ?_, rfl⟩
    · have := (hall (j - (first - s.baseFrame)) (by omega)).2.2
      rwa [show first - s.baseFrame + (j - (first - s.baseFrame)) = j by omega] at this
    · have hj := hall (j - (first - s.baseFrame)) (by omega)
      rw [show first + (j - (first - s.baseFrame)) = s.baseFrame + j by omega] at hj
      exact ⟨hj.1, hj.2.1⟩

theorem freeCount_le_usableCount (h : ∀ i < s.bitmapBits, s.bitmap.used i = false →
    s.FrameManaged (s.baseFrame + i) ∧ ¬ s.FrameIsBitmap (s.baseFrame + i)) :
    s.bitmap.freeCount s.bitmapBits ≤ s.usableCount :=
  Finset.card_le_card (Finset.monotone_filter_right _ fun i hi hu => h i (Finset.mem_range.mp hi) hu)

/-- The frame is managed, does not hold the bitmap, and is handed out. -/
def Allocated (s : PmmState) (frame : Nat) : Prop :=
  s.FrameManaged frame ∧ ¬ s.FrameIsBitmap frame ∧ s.bitmap.used (frame - s.baseFrame) = true

/-- The guards of `free_range_valid` refuse no span of allocated frames. -/
theorem freeRangeValid_iff {first : Nat} (h : PmmLayout s) :
    s.FreeRangeValid first count ↔ 0 < count ∧ ∀ i < count, s.Allocated (first + i) := by
  constructor
  · rintro ⟨-, -, hc, -, hbase, -, -, -, -, -, -, hall⟩
    refine ⟨Nat.pos_of_ne_zero hc, fun i hi => ?_⟩
    obtain ⟨hm, hb, hu⟩ := hall i hi
    exact ⟨hm, hb, by rwa [Nat.sub_add_comm hbase]⟩
  · rintro ⟨hpos, hall⟩
    have hspan : ∀ i < count, s.baseFrame ≤ first + i ∧ first + i < s.baseFrame + s.bitmapBits := by
      intro i hi
      obtain ⟨r, hr, hc⟩ := (hall i hi).1
      have := h.spanned r hr
      simp only [PmmRange.Contains] at hc
      omega
    have hlow := (hspan 0 hpos).1
    have hhigh := (hspan (count - 1) (by omega)).2
    have htop := h.top_le
    have hused : ∀ i < count, s.bitmap.used (first - s.baseFrame + i) = true := by
      intro i hi
      rw [← Nat.sub_add_comm (by omega)]
      exact (hall i hi).2.2
    -- clearing them would leave no more free frames than there are usable ones
    have hr : Released s { s with
        bitmap := s.bitmap.clearRange (first - s.baseFrame) count, freePages := s.freePages + count,
        nextHint := first - s.baseFrame } (first - s.baseFrame) count := by
      refine ⟨by omega, hpos, fun j h1 h2 => ?_, fun j h1 h2 => ?_, rfl⟩
      · have := hused (j - (first - s.baseFrame)) (by omega)
        rwa [show first - s.baseFrame + (j - (first - s.baseFrame)) = j by omega] at this
      · have hj := hall (s.baseFrame + j - first) (by omega)
        rw [show first + (s.baseFrame + j - first) = s.baseFrame + j by omega] at hj
        exact ⟨hj.1, hj.2.1⟩
    have hle : (s.bitmap.clearRange (first - s.baseFrame) count).freeCount s.bitmapBits ≤
        s.usableCount := freeCount_le_usableCount (hr.clear h)
    rw [Bitmap.freeCount_clearRange hr.fits hr.used] at hle
    have hbalance := h.balance
    refine ⟨h.initialized, h.address, by omega, ?_, by omega, ?_, ?_, by omega, by omega, by omega,
      by omega, fun i hi => ⟨(hall i hi).1, (hall i hi).2.1, hused i hi⟩⟩
    · simp only [frameInvalid, max64]
      omega
    · simp only [max64, frameSize]
      omega
    · simp only [max64, frameSize]
      omega

end PmmState

/-! ### Runs -/

/-- A call with what it returned. -/
inductive PmmEvent
  | frameAlloc (frame : Nat)
  | allocPage (physical : Nat)
  | allocPages (count physical : Nat)
  | free (frame : Nat) (returned : Bool)
  | freeRange (first count : Nat) (returned : Bool)
  deriving Repr, DecidableEq

inductive PmmStep : PmmState → PmmEvent → PmmState → Prop
  | frameAlloc (s : PmmState) : PmmStep s (.frameAlloc s.frameAlloc.1) s.frameAlloc.2
  | allocPage (s : PmmState) : PmmStep s (.allocPage s.pmmAllocPage.1) s.pmmAllocPage.2
  | allocPages (s : PmmState) (count : Nat) :
      PmmStep s (.allocPages count (s.pmmAllocPages count).1) (s.pmmAllocPages count).2
  | free (s : PmmState) (frame : Nat) :
      PmmStep s (.free frame (s.frameFree frame).1) (s.frameFree frame).2
  | freeRange (s : PmmState) (first count : Nat) :
      PmmStep s (.freeRange first count (s.frameFreeRange first count).1)
        (s.frameFreeRange first count).2

namespace PmmEvent

/-- The call handed out `frame`. -/
def Takes (frame : Nat) : PmmEvent → Prop
  | frameAlloc f => f ≠ frameInvalid ∧ frame = f
  | allocPage physical => physical ≠ 0 ∧ frame = physical / frameSize
  | allocPages count physical =>
    physical ≠ 0 ∧ physical / frameSize ≤ frame ∧ frame < physical / frameSize + count
  | _ => False

/-- The call took `frame` back. -/
def Frees (frame : Nat) : PmmEvent → Prop
  | free f returned => returned ∧ frame = f
  | freeRange first count returned => returned ∧ first ≤ frame ∧ frame < first + count
  | _ => False

end PmmEvent

namespace PmmState

variable {s s' : PmmState} {e : PmmEvent}

/-- The frame is free. -/
def FrameFree (s : PmmState) (frame : Nat) : Prop :=
  s.baseFrame ≤ frame ∧ frame < s.baseFrame + s.bitmapBits ∧
    s.bitmap.used (frame - s.baseFrame) = false

/-- Only the bitmap, the count, the hint and the test fault ever change. -/
structure Static (s s' : PmmState) : Prop where
  ranges : s'.ranges = s.ranges
  baseFrame : s'.baseFrame = s.baseFrame
  bitmapBits : s'.bitmapBits = s.bitmapBits
  bitmapFirstFrame : s'.bitmapFirstFrame = s.bitmapFirstFrame
  bitmapPageCount : s'.bitmapPageCount = s.bitmapPageCount

theorem Static.refl (s : PmmState) : Static s s := ⟨rfl, rfl, rfl, rfl, rfl⟩

theorem Static.trans (a b c : PmmState) (h : Static a b) (g : Static b c) : Static a c :=
  ⟨g.ranges.trans h.ranges, g.baseFrame.trans h.baseFrame, g.bitmapBits.trans h.bitmapBits,
    g.bitmapFirstFrame.trans h.bitmapFirstFrame, g.bitmapPageCount.trans h.bitmapPageCount⟩

theorem Reserved.static {start count : Nat} (hr : Reserved s s' start count) : Static s s' := by
  rw [hr.state]
  exact ⟨rfl, rfl, rfl, rfl, rfl⟩

theorem Released.static {start count : Nat} (hr : Released s s' start count) : Static s s' := by
  rw [hr.state]
  exact ⟨rfl, rfl, rfl, rfl, rfl⟩

/-- What a step does to the free frames: it takes free ones and frees others. -/
structure StepEffect (s : PmmState) (e : PmmEvent) (s' : PmmState) : Prop where
  layout : PmmLayout s'
  inv : PmmInv s → PmmInv s'
  static : Static s s'
  takes : ∀ frame, e.Takes frame → s.FrameFree frame
  free_iff : ∀ frame, s'.FrameFree frame → ¬ e.Takes frame ∧ (s.FrameFree frame ∨ e.Frees frame)

theorem frameToPhys_div {frame : Nat} (h : frame < 2 ^ 52) :
    frameToPhys frame = frame * frameSize ∧ frameToPhys frame / frameSize = frame := by
  have heq : frameToPhys frame = frame * frameSize := by
    rw [frameToPhys, if_neg (by simp only [frameInvalid, max64]; omega),
      if_neg (by simp only [max64, frameSize]; omega)]
  exact ⟨heq, by rw [heq]; exact Nat.mul_div_cancel _ (by decide)⟩

/-- A refused call. -/
theorem StepEffect.refused (h : PmmLayout s) {fault : Option (Nat × Nat)}
    (ht : ∀ frame, ¬ e.Takes frame) : StepEffect s e { s with freeFault := fault } where
  layout := { h with }
  inv hi := { hi with }
  static := ⟨rfl, rfl, rfl, rfl, rfl⟩
  takes frame htk := absurd htk (ht frame)
  free_iff frame hf := ⟨ht frame, .inl hf⟩

theorem StepEffect.reserved {start count : Nat} (h : PmmLayout s) (hr : Reserved s s' start count)
    (ht : ∀ frame, e.Takes frame ↔
      s.baseFrame + start ≤ frame ∧ frame < s.baseFrame + start + count) : StepEffect s e s' where
  layout := (hr.inv h).1
  inv := (hr.inv h).2
  static := hr.static
  takes frame htk := by
    have := (ht frame).mp htk
    have := hr.fits
    exact ⟨by omega, by omega, hr.free _ (by omega) (by omega)⟩
  free_iff frame hf := by
    rw [hr.state] at hf
    obtain ⟨h1, h2, h3⟩ := hf
    simp only at h1 h2 h3
    rw [Bitmap.used_setRange, Bool.or_eq_false_iff, decide_eq_false_iff_not] at h3
    exact ⟨fun htk => h3.1 (by have := (ht frame).mp htk; omega), .inl ⟨h1, h2, h3.2⟩⟩

theorem StepEffect.released {first count : Nat} (h : PmmLayout s) (hb : s.baseFrame ≤ first)
    (hr : Released s s' (first - s.baseFrame) count) (ht : ∀ frame, ¬ e.Takes frame)
    (hfr : ∀ frame, first ≤ frame → frame < first + count → e.Frees frame) : StepEffect s e s' where
  layout := (hr.inv h).1
  inv := (hr.inv h).2
  static := hr.static
  takes frame htk := absurd htk (ht frame)
  free_iff frame hf := by
    rw [hr.state] at hf
    obtain ⟨h1, h2, h3⟩ := hf
    simp only at h1 h2 h3
    rw [Bitmap.used_clearRange, Bool.and_eq_false_iff, Bool.not_eq_false', decide_eq_true_eq] at h3
    refine ⟨ht frame, ?_⟩
    rcases h3 with h3 | h3
    · exact .inr (hfr frame (by omega) (by omega))
    · exact .inl ⟨h1, h2, h3⟩

/-- What is handed out has an address. -/
theorem Reserved.addressable {start count : Nat} (h : PmmLayout s) (hr : Reserved s s' start count)
    (hpos : 0 < count) : s.baseFrame + start < 2 ^ 52 ∧ frameToPhys (s.baseFrame + start) ≠ 0 := by
  have htop := h.top_le
  have hbase := h.base_ge
  have hfits := hr.fits
  have hlt : s.baseFrame + start < 2 ^ 52 := by omega
  rw [(frameToPhys_div hlt).1]
  simp only [minUsableAddress, frameSize] at hbase ⊢
  omega

theorem Reserved.ne_frameInvalid {start : Nat} (h : PmmLayout s) (hr : Reserved s s' start 1) :
    s.baseFrame + start ≠ frameInvalid := by
  have hlt := (hr.addressable h Nat.one_pos).1
  rw [frameInvalid, max64]
  omega

theorem stepEffect_of_step (h : PmmLayout s) (hs : PmmStep s e s') : StepEffect s e s' := by
  cases hs with
  | frameAlloc =>
    rcases frameAlloc_spec h with ⟨heq, -⟩ | ⟨i, s', heq, hr⟩
    · rw [heq]
      exact .refused h fun frame ht => ht.1 rfl
    · have hi := hr.addressable h Nat.one_pos
      rw [heq]
      refine .reserved h hr fun frame => ?_
      simp only [PmmEvent.Takes, frameInvalid, max64]
      omega
  | allocPage =>
    unfold pmmAllocPage
    rcases frameAlloc_spec h with ⟨heq, -⟩ | ⟨i, s', heq, hr⟩
    · rw [heq]
      exact .refused h fun frame ht => ht.1 rfl
    · have hi := hr.addressable h Nat.one_pos
      rw [heq]
      simp only [if_neg (hr.ne_frameInvalid h)]
      refine .reserved h hr fun frame => ?_
      simp only [PmmEvent.Takes, (frameToPhys_div hi.1).2]
      omega
  | allocPages count =>
    by_cases hpos : 0 < count
    · rcases pmmAllocPages_spec h hpos with ⟨heq, -⟩ | ⟨a, s', heq, hr, -⟩
      · rw [heq]
        exact .refused h fun frame ht => ht.1 rfl
      · have hi := hr.addressable h hpos
        rw [heq]
        refine .reserved h hr fun frame => ?_
        simp only [PmmEvent.Takes, (frameToPhys_div hi.1).2]
        omega
    · have heq : s.pmmAllocPages count = (0, s) := by
        rw [pmmAllocPages, if_pos (by omega)]
      rw [heq]
      exact .refused h fun frame ht => ht.1 rfl
  | free frame =>
    unfold frameFree
    rcases frameFreeRange_spec s frame 1 with ⟨fault, heq⟩ | ⟨s', heq, hb, hr⟩
    · rw [heq]
      exact .refused h fun _ ht => ht
    · rw [heq]
      exact .released h hb hr (fun _ ht => ht) fun g h1 h2 => ⟨rfl, by omega⟩
  | freeRange first count =>
    rcases frameFreeRange_spec s first count with ⟨fault, heq⟩ | ⟨s', heq, hb, hr⟩
    · rw [heq]
      exact .refused h fun _ ht => ht
    · rw [heq]
      exact .released h hb hr (fun _ ht => ht) fun g h1 h2 => ⟨rfl, h1, h2⟩

theorem pmmRun_inv {es : List PmmEvent} (hrun : Run PmmStep s es s') (h : PmmInv s) : PmmInv s' :=
  hrun.invariant h fun _ _ _ hi hs => (stepEffect_of_step hi.toPmmLayout hs).inv hi

theorem pmmRun_static {es : List PmmEvent} (hrun : Run PmmStep s es s') (h : PmmLayout s) :
    Static s s' :=
  hrun.between h (fun _ _ _ hi hs => (stepEffect_of_step hi hs).layout) .refl .trans
    fun _ _ _ hi hs => (stepEffect_of_step hi hs).static

/-- A frame that is free again after it was handed out has been freed since. -/
theorem pmmRun_freed_since {es : List PmmEvent} {frame : Nat} (hrun : Run PmmStep s es s')
    (h : PmmLayout s) (hf : s'.FrameFree frame) {es1 es2 : List PmmEvent} {a : PmmEvent}
    (hes : es = es1 ++ a :: es2) (ha : a.Takes frame) : ∃ e ∈ es2, e.Frees frame := by
  by_contra hno
  refine (hrun.history (P := fun es s => PmmLayout s ∧ (s.FrameFree frame →
    ¬ Active (fun e f => e.Takes f) (fun e f => e.Frees f) es frame))
    ⟨h, fun _ => not_active_nil⟩ ?_).2 hf ⟨es1, a, es2, hes, ha, fun e he hfr => hno ⟨e, he, hfr⟩⟩
  intro es s e s' hP hs
  have heff := stepEffect_of_step hP.1 hs
  refine ⟨heff.layout, fun hfree => ?_⟩
  obtain ⟨hnot, hor⟩ := heff.free_iff frame hfree
  rw [active_snoc]
  rintro (ht | ⟨hact, hkept⟩)
  · exact hnot ht
  · exact hor.elim (fun hold => hP.2 hold hact) hkept

end PmmState

/-- The allocator after the calls `es` on the memory map `ds`. -/
structure PmmExact (ds : List BootMemoryDescriptor) (es : List PmmEvent) (s : PmmState) : Prop where
  count : s.freePages = s.bitmap.freeCount s.bitmapBits
  hint : s.nextHint < s.bitmapBits
  /-- A clear bit is a managed frame: a whole conventional page above the first MiB
  that does not hold the bitmap. -/
  clear : ∀ i < s.bitmapBits, s.bitmap.used i = false →
    s.FrameManaged (s.baseFrame + i) ∧ (∃ d ∈ ds, d.CoversFrame (s.baseFrame + i)) ∧
      minUsableAddress ≤ (s.baseFrame + i) * frameSize ∧ ¬ s.FrameIsBitmap (s.baseFrame + i)
  /-- Holes and the bitmap's own frames are never free. -/
  reserved : ∀ i < s.bitmapBits,
    ¬ s.FrameManaged (s.baseFrame + i) ∨ s.FrameIsBitmap (s.baseFrame + i) →
      s.bitmap.used i = true
  /-- The next call hands out free frames only, and none that was handed out before
  and not freed since. -/
  takes : ∀ e s' frame, PmmStep s e s' → e.Takes frame →
    s.FrameFree frame ∧ ∀ es₁ a es₂, es = es₁ ++ a :: es₂ → a.Takes frame →
      ∃ e' ∈ es₂, e'.Frees frame
  frameAlloc_fails : s.frameAlloc.1 = frameInvalid → ∀ i < s.bitmapBits, s.bitmap.used i = true
  allocPage_fails : s.pmmAllocPage.1 = 0 → ∀ i < s.bitmapBits, s.bitmap.used i = true
  /-- A request for at least one page fails only if there is no such run. -/
  allocPages_fails : ∀ count, 0 < count → (s.pmmAllocPages count).1 = 0 →
    ∀ a, a + count ≤ s.bitmapBits → ¬ s.bitmap.FreeRun a count
  /-- Otherwise it returns the lowest one. -/
  allocPages_lowest : ∀ count, (s.pmmAllocPages count).1 ≠ 0 →
    ∃ a, (s.pmmAllocPages count).1 = (s.baseFrame + a) * frameSize ∧
      a + count ≤ s.bitmapBits ∧ s.bitmap.FreeRun a count ∧ ∀ a' < a, ¬ s.bitmap.FreeRun a' count

/-- **The frame allocator is exact over whole runs**, on every memory map whose
conventional descriptors do not overlap and which `pmm_init` accepts. -/
theorem pmm_exact_of_run {fuel : Nat} {boot : BootMemoryMap} {ds : List BootMemoryDescriptor}
    {s₀ s₁ s : PmmState} {es : List PmmEvent} (hds : boot.descriptors fuel 0 = some ds)
    (hmap : NonOverlapping ds) (hinit : pmmInit fuel boot s₀ = some s₁)
    (hrun : Run PmmStep s₁ es s) : PmmExact ds es s := by
  obtain ⟨hinv₁, hcover⟩ := pmmInit_inv hds hmap hinit
  have hinv := PmmState.pmmRun_inv hrun hinv₁
  have hlayout := hinv.toPmmLayout
  have hstatic := PmmState.pmmRun_static hrun hinv₁.toPmmLayout
  have hmanaged : ∀ frame, s.FrameManaged frame → ∃ d ∈ ds, d.CoversFrame frame := by
    intro frame hm
    unfold PmmState.FrameManaged at hm
    rw [hstatic.ranges] at hm
    exact hcover frame hm
  -- ranges never change, so what the map covered at the start is what is managed now
  have hpages := fun {count : Nat} (hpos : 0 < count) => PmmState.pmmAllocPages_spec hlayout hpos
  refine
    { count := hinv.count
      hint := hinv.hint
      clear := fun i hi hu => ?_
      reserved := fun i hi hor => ?_
      takes := fun e s' frame hs ht => ?_
      frameAlloc_fails := fun hf => ?_
      allocPage_fails := fun hf => ?_
      allocPages_fails := fun count hpos hf => ?_
      allocPages_lowest := fun count hf => ?_ }
  · obtain ⟨hm, hb⟩ := hinv.clear i hi hu
    refine ⟨hm, hmanaged _ hm, ?_, hb⟩
    have := hinv.base_ge
    simp only [minUsableAddress, frameSize] at this ⊢
    omega
  · by_contra hu
    obtain ⟨hm, hb⟩ := hinv.clear i hi (by simpa using hu)
    exact hor.elim (fun hn => hn hm) hb
  · have hfree := (PmmState.stepEffect_of_step hlayout hs).takes frame ht
    exact ⟨hfree, fun es₁ a es₂ hes ha =>
      PmmState.pmmRun_freed_since hrun hinv₁.toPmmLayout hfree hes ha⟩
  · rcases PmmState.frameAlloc_spec hlayout with ⟨-, hall⟩ | ⟨i, s', heq, hr⟩
    · exact PmmState.all_used hinv hall
    · rw [heq] at hf
      exact absurd hf (hr.ne_frameInvalid hlayout)
  · rcases PmmState.frameAlloc_spec hlayout with ⟨-, hall⟩ | ⟨i, s', heq, hr⟩
    · exact PmmState.all_used hinv hall
    · rw [PmmState.pmmAllocPage, heq] at hf
      simp only [if_neg (hr.ne_frameInvalid hlayout)] at hf
      exact absurd hf (hr.addressable hlayout Nat.one_pos).2
  · rcases hpages hpos with ⟨-, hnone⟩ | ⟨a, s', heq, hr, -⟩
    · exact fun a ha hrun => hnone (PmmState.le_freePages hinv ha hrun) a ha hrun
    · have hi := hr.addressable hlayout hpos
      rw [heq] at hf
      exact absurd hf hi.2
  · by_cases hpos : 0 < count
    · rcases hpages hpos with ⟨heq, -⟩ | ⟨a, s', heq, hr, hlow⟩
      · rw [heq] at hf
        exact absurd rfl hf
      · have hi := hr.addressable hlayout hpos
        rw [heq]
        exact ⟨a, (PmmState.frameToPhys_div hi.1).1, hr.fits, hr.free, hlow⟩
    · rw [PmmState.pmmAllocPages, if_pos (by omega)] at hf
      exact absurd rfl hf

/-! ### Freeing a span -/

/-- The calls, and the arming of the test fault. -/
inductive PmmTestStep : PmmState → Option PmmEvent → PmmState → Prop
  | call {s s' : PmmState} {e : PmmEvent} : PmmStep s e s' → PmmTestStep s (some e) s'
  | arm (s : PmmState) (first count : Nat) :
      PmmTestStep s none (s.pmmTestFailFreeRangeOnce first count).2

theorem PmmTestStep.layout {s s' : PmmState} {e : Option PmmEvent} (hs : PmmTestStep s e s')
    (h : PmmLayout s) : PmmLayout s' := by
  cases hs with
  | call hs => exact (PmmState.stepEffect_of_step h hs).layout
  | arm first count =>
    unfold PmmState.pmmTestFailFreeRangeOnce
    split_ifs
    · exact { h with }
    · exact h

/-- `frame_free_range` on `count` frames from `first` on. -/
structure FreeRangeExact (s : PmmState) (first count : Nat) : Prop where
  /-- It accepts exactly the spans of allocated frames, unless a fault is armed for the span. -/
  accepts : (s.frameFreeRange first count).1 = true ↔
    (0 < count ∧ ∀ i < count, s.Allocated (first + i)) ∧ s.freeFault ≠ some (first, count)
  /-- Exactly their bits are cleared, and they are counted. -/
  frees : (s.frameFreeRange first count).1 = true → ∃ bitmap : Bitmap,
    (s.frameFreeRange first count).2 = { s with
      bitmap := bitmap, freePages := s.freePages + count, nextHint := first - s.baseFrame } ∧
    ∀ i, bitmap.used i =
      (!decide (first ≤ s.baseFrame + i ∧ s.baseFrame + i < first + count) && s.bitmap.used i)
  /-- A refusal leaves everything alone, apart from the fault that caused it. -/
  refuses : (s.frameFreeRange first count).1 = false →
    (s.frameFreeRange first count).2 = s ∨
      s.freeFault = some (first, count) ∧
        (s.frameFreeRange first count).2 = { s with freeFault := none }

theorem PmmLayout.freeRangeExact {s : PmmState} (h : PmmLayout s) (first count : Nat) :
    FreeRangeExact s first count := by
  have hiff : s.FreeRangeValid first count ↔ _ := PmmState.freeRangeValid_iff h
  by_cases hv : s.FreeRangeValid first count
  · have hbase := hv.2.2.2.2.1
    constructor
    all_goals
      rw [PmmState.frameFreeRange]
      split_ifs with hfault
    · exact iff_of_false id fun h => h.2 hfault
    · exact iff_of_true rfl ⟨hiff.mp hv, hfault⟩
    · exact False.elim
    · refine fun _ => ⟨_, rfl, fun i => ?_⟩
      rw [Bitmap.used_clearRange]
      congr 2
      exact decide_eq_decide.mpr (by omega)
    · exact fun _ => .inr ⟨hfault, rfl⟩
    · exact False.elim
  · constructor
    all_goals rw [PmmState.frameFreeRange, if_pos hv]
    · exact iff_of_false Bool.false_ne_true fun h => hiff.not.mp hv h.1
    · exact fun ht => absurd ht Bool.false_ne_true
    · exact fun _ => .inl rfl

/-- **`frame_free_range` is exact and atomic** in every state that the allocator reaches, on
every memory map that `pmm_init` accepts. -/
theorem frame_free_range_exact {fuel : Nat} {boot : BootMemoryMap} {s₀ s₁ s : PmmState}
    {es : List (Option PmmEvent)} (hinit : pmmInit fuel boot s₀ = some s₁)
    (hrun : Run PmmTestStep s₁ es s) (first count : Nat) : FreeRangeExact s first count :=
  (hrun.invariant (pmmInit_layout hinit) fun _ _ _ h hs => hs.layout h).freeRangeExact first count

/-! ### A run on sixteen pages -/

/-- One conventional descriptor of 16 pages from 1 MiB on. -/
def smallMap : BootMemoryMap where
  memoryMap := 0x8000
  memoryMapSize := 40
  memoryMapDescriptorSize := 40
  descriptorAt := fun _ => ⟨7, 0x100000, 16⟩

def emptyPmm : PmmState where
  ranges := []
  totalPages := 0
  freePages := 0
  bitmapPhysical := 0
  bitmapPages := 0
  discardedRanges := 0
  bitmap := fun _ => 0
  bitmapAddress := 0
  baseFrame := 0
  bitmapBits := 0
  bitmapFirstFrame := 0
  bitmapPageCount := 0
  nextHint := 0
  initialized := false
  freeFault := none

/-- The state that `pmm_init` leaves for `smallMap`. -/
def smallPmm : PmmState := (pmmInit 2 smallMap emptyPmm).get (by decide +kernel)

theorem pmmInit_smallMap : pmmInit 2 smallMap emptyPmm = some smallPmm := (Option.some_get _).symm

/-- A frame, a run of three, the frame returned: 12 of the 15 usable frames are free
and the next single frame is the one returned. -/
theorem pmm_exact_after_free :
    ∃ s es, PmmExact [⟨7, 0x100000, 16⟩] es s ∧ s.freePages = 12 ∧ s.frameAlloc.1 = 0x101 := by
  have hrun := ((Run.single (PmmStep.frameAlloc smallPmm)).snoc (.allocPages _ 3)).snoc
    (.free _ 0x101)
  exact ⟨_, _, pmm_exact_of_run (by rfl) (by simp [NonOverlapping]) pmmInit_smallMap hrun,
    by decide +kernel, by decide +kernel⟩

/-- The run of three, with a fault armed for it: the first call is refused, the second one
frees it. -/
theorem frame_free_range_exact_retried :
    ∃ s, FreeRangeExact s 0x101 3 ∧ s.freePages = 12 ∧ (s.frameFreeRange 0x101 3).1 = false ∧
      ((s.frameFreeRange 0x101 3).2.frameFreeRange 0x101 3).1 = true := by
  have hrun := (Run.single (PmmTestStep.call (.allocPages smallPmm 3))).snoc (.arm _ 0x101 3)
  exact ⟨_, frame_free_range_exact pmmInit_smallMap hrun _ _, by decide +kernel, by decide +kernel,
    by decide +kernel⟩

end JcosKernel
