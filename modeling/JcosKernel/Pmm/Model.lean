import JcosKernel.Lib.Bitmap

/-!
# JcosKernel.Pmm.Model

The physical frame allocator of `kernel/pmm.c`.

Frame numbers, counts and addresses are natural numbers; where the source guards
an addition or a multiplication against overflow the guard is kept, so that no
product or sum below exceeds `u64`. The one addition that is not guarded, the
offset into the firmware's memory map, is taken modulo `2 ^ 64`, and the loop over
the map takes the number of iterations as fuel (`none` when it is not enough).

The bitmap lives in physical memory; its bytes are the field `bitmap`.
-/

namespace JcosKernel

open Lib

/-- The largest `u64`, which is also `FRAME_INVALID`. -/
def max64 : Nat := 2 ^ 64 - 1

/-- `FRAME_SIZE`. -/
def frameSize : Nat := 4096

/-- `FRAME_INVALID`. -/
def frameInvalid : Nat := max64

/-- `EFI_CONVENTIONAL_MEMORY`. -/
def efiConventionalMemory : Nat := 7

/-- `PMM_MAX_RANGES`. -/
def pmmMaxRanges : Nat := 128

/-- `MIN_USABLE_ADDRESS`. -/
def minUsableAddress : Nat := 0x100000

/-- `sizeof(BootMemoryDescriptor)`. -/
def bootMemoryDescriptorSize : Nat := 40

/-- The fields of `BootMemoryDescriptor` that are read. -/
structure BootMemoryDescriptor where
  type : Nat
  physicalStart : Nat
  numberOfPages : Nat
  deriving Repr, DecidableEq

/-- The memory map of `BootInfo`. `descriptorAt offset` is what memory holds at
`memory_map + offset`. -/
structure BootMemoryMap where
  memoryMap : Nat
  memoryMapSize : Nat
  memoryMapDescriptorSize : Nat
  descriptorAt : Nat → BootMemoryDescriptor

/-- `PmmRange`: frames from `first` on, `last` excluded (`end` in the source). -/
structure PmmRange where
  first : Nat
  last : Nat
  deriving Repr, DecidableEq

/-- The static variables of `pmm.c`. `g_ranges` holds `range_count` entries. -/
structure PmmState where
  ranges : List PmmRange
  totalPages : Nat
  freePages : Nat
  bitmapPhysical : Nat
  bitmapPages : Nat
  discardedRanges : Nat
  /-- The bytes behind `g_bitmap`. -/
  bitmap : Bitmap
  /-- The pointer `g_bitmap` itself. -/
  bitmapAddress : Nat
  baseFrame : Nat
  bitmapBits : Nat
  bitmapFirstFrame : Nat
  bitmapPageCount : Nat
  nextHint : Nat
  initialized : Bool
  /-- The armed one-shot fault of `pmm_test_fail_free_range_once`. -/
  freeFault : Option (Nat × Nat)

/-- `align_up_page`. -/
def alignUpPage (value : Nat) : Option Nat :=
  if max64 - (frameSize - 1) < value then none
  else some ((value + frameSize - 1) / frameSize * frameSize)

/-- `align_down_page`. -/
def alignDownPage (value : Nat) : Nat := value / frameSize * frameSize

/-- `frame_to_phys`. -/
def frameToPhys (frame : Nat) : Nat :=
  if frame = frameInvalid then 0
  else if max64 / frameSize < frame then 0
  else frame * frameSize

/-- `phys_to_frame`. -/
def physToFrame (physical : Nat) : Nat :=
  if physical % frameSize ≠ 0 then frameInvalid else physical / frameSize

namespace PmmRange

def Contains (r : PmmRange) (frame : Nat) : Prop := r.first ≤ frame ∧ frame < r.last

instance (r : PmmRange) (frame : Nat) : Decidable (r.Contains frame) :=
  inferInstanceAs (Decidable (_ ∧ _))

def pages (r : PmmRange) : Nat := r.last - r.first

end PmmRange

/-! ### Initialisation -/

namespace BootMemoryMap

variable (boot : BootMemoryMap)

/-- The descriptors that the first loop of `pmm_init` visits, from `offset` on. -/
def descriptors : Nat → Nat → Option (List BootMemoryDescriptor)
  | 0, _ => none
  | fuel + 1, offset =>
    if (offset + bootMemoryDescriptorSize) % 2 ^ 64 ≤ boot.memoryMapSize then
      (descriptors fuel ((offset + boot.memoryMapDescriptorSize) % 2 ^ 64)).map
        (boot.descriptorAt offset :: ·)
    else some []

end BootMemoryMap

/-- The frames of a descriptor that the allocator can own, if there are any. -/
def BootMemoryDescriptor.range (d : BootMemoryDescriptor) : Option PmmRange :=
  if d.type ≠ efiConventionalMemory then none
  else if d.numberOfPages = 0 then none
  else if max64 / frameSize < d.numberOfPages then none
  else
    let bytes := d.numberOfPages * frameSize
    if max64 - bytes < d.physicalStart then none
    else
      let rawEnd := d.physicalStart + bytes
      match alignUpPage d.physicalStart with
      | none => none
      | some start =>
        let last := alignDownPage rawEnd
        -- the first MiB stays out of the allocator
        let start := if start < minUsableAddress then minUsableAddress else start
        if last ≤ start then none
        else
          let first := physToFrame start
          let last := physToFrame last
          if first = frameInvalid ∨ last = frameInvalid ∨ last ≤ first then none
          else some ⟨first, last⟩

/-- What a loop iteration does with a range: extend the last one, drop it when the
table is full, or append it. -/
def addRange (acc : List PmmRange × Nat) (r : PmmRange) : List PmmRange × Nat :=
  match acc.1.getLast? with
  | none => ([r], acc.2)
  | some prev =>
    if prev.last = r.first then (acc.1.dropLast ++ [⟨prev.first, r.last⟩], acc.2)
    else if pmmMaxRanges ≤ acc.1.length then (acc.1, acc.2 + 1)
    else (acc.1 ++ [r], acc.2)

/-- The first loop of `pmm_init`: the ranges, and the number of discarded ones. -/
def collectRanges (ds : List BootMemoryDescriptor) : List PmmRange × Nat :=
  (ds.filterMap BootMemoryDescriptor.range).foldl addRange ([], 0)

/-- The lowest first and the highest end of the ranges. -/
def frameSpan (r : PmmRange) (rs : List PmmRange) : Nat × Nat :=
  rs.foldl (fun acc r => (min acc.1 r.first, max acc.2 r.last)) (r.first, r.last)

/-- Mark the frames of the ranges free. -/
def clearRanges (base : Nat) (b : Bitmap) (rs : List PmmRange) : Bitmap :=
  rs.foldl (fun b r => b.clearRange (r.first - base) r.pages) b

/-- `pmm_init`, once the map has been walked. -/
def pmmInitRanges (s : PmmState) (rs : List PmmRange) (discarded : Nat) : Option PmmState :=
  match rs with
  | [] => none
  | r :: _ =>
    let span := frameSpan r rs
    let total := (rs.map PmmRange.pages).sum
    if span.2 ≤ span.1 then none
    else
      let bits := span.2 - span.1
      if max64 - 7 < bits then none
      else
        let bytes := (bits + 7) / 8
        if bytes = 0 ∨ max64 - (frameSize - 1) < bytes then none
        else
          let pageCount := (bytes + frameSize - 1) / frameSize
          if pageCount = 0 then none
          else
            match rs.find? (fun r => pageCount ≤ r.pages) with
            | none => none
            | some home =>
              let physical := frameToPhys home.first
              if physical = 0 ∨ max64 / frameSize < pageCount then none
              else
                let filled := s.bitmap.fill (pageCount * frameSize)
                let cleared := clearRanges span.1 filled rs
                let reserved := cleared.setRange (home.first - span.1) pageCount
                if total < pageCount then none
                else
                  some
                    { ranges := rs, totalPages := total, freePages := total - pageCount,
                      bitmapPhysical := physical, bitmapPages := pageCount,
                      discardedRanges := discarded, bitmap := reserved, bitmapAddress := physical,
                      baseFrame := span.1, bitmapBits := bits, bitmapFirstFrame := home.first,
                      bitmapPageCount := pageCount, nextHint := 0, initialized := true,
                      freeFault := none }

/-- `pmm_init`: the state it leaves when it returns true. `fuel` bounds the walk
over the memory map. -/
def pmmInit (fuel : Nat) (boot : BootMemoryMap) (s : PmmState) : Option PmmState :=
  if boot.memoryMap = 0 ∨ boot.memoryMapSize = 0 ∨
      boot.memoryMapDescriptorSize < bootMemoryDescriptorSize then none
  else
    match boot.descriptors fuel 0 with
    | none => none
    | some ds => pmmInitRanges s (collectRanges ds).1 (collectRanges ds).2

/-! ### Allocation and release -/

namespace PmmState

variable (s : PmmState)

/-- `frame_managed`. -/
def FrameManaged (frame : Nat) : Prop := ∃ r ∈ s.ranges, r.Contains frame

instance (frame : Nat) : Decidable (s.FrameManaged frame) :=
  inferInstanceAs (Decidable (∃ r ∈ s.ranges, r.Contains frame))

/-- `frame_is_bitmap`. -/
def FrameIsBitmap (frame : Nat) : Prop :=
  s.bitmapFirstFrame ≠ frameInvalid ∧ s.bitmapFirstFrame ≤ frame ∧
    frame - s.bitmapFirstFrame < s.bitmapPageCount

instance (frame : Nat) : Decidable (s.FrameIsBitmap frame) :=
  inferInstanceAs (Decidable (_ ∧ _))

/-- `frame_alloc`: the frame, or `FRAME_INVALID`. -/
def frameAlloc : Nat × PmmState :=
  if ¬ s.initialized ∨ s.bitmapAddress = 0 ∨ s.bitmapBits = 0 ∨ s.freePages = 0 then
    (frameInvalid, s)
  else
    match s.bitmap.scan s.bitmapBits s.bitmapBits s.nextHint with
    | none => (frameInvalid, s)
    | some index =>
      (s.baseFrame + index, { s with
        bitmap := s.bitmap.set index
        freePages := s.freePages - 1
        nextHint := if s.bitmapBits ≤ index + 1 then 0 else index + 1 })

/-- `pmm_alloc_page`: the physical address, or zero. -/
def pmmAllocPage : Nat × PmmState :=
  match s.frameAlloc with
  | (frame, s') => (if frame = frameInvalid then 0 else frameToPhys frame, s')

/-- `pmm_alloc_pages`: the physical address of the run, or zero. -/
def pmmAllocPages (count : Nat) : Nat × PmmState :=
  if ¬ s.initialized ∨ count = 0 ∨ s.freePages < count ∨ s.bitmapBits < count then (0, s)
  else
    match s.bitmap.findRun count s.bitmapBits 0 0 0 with
    | none => (0, s)
    | some start =>
      (frameToPhys (s.baseFrame + start), { s with
        bitmap := s.bitmap.setRange start count
        freePages := s.freePages - count
        nextHint := if s.bitmapBits ≤ start + count then 0 else start + count })

/-- `free_range_valid`. -/
def FreeRangeValid (first count : Nat) : Prop :=
  s.initialized ∧ s.bitmapAddress ≠ 0 ∧ count ≠ 0 ∧ first ≠ frameInvalid ∧
    s.baseFrame ≤ first ∧ first ≤ max64 / frameSize ∧ count - 1 ≤ max64 / frameSize - first ∧
    first - s.baseFrame < s.bitmapBits ∧ count ≤ s.bitmapBits - (first - s.baseFrame) ∧
    s.freePages ≤ s.totalPages ∧ count ≤ s.totalPages - s.freePages ∧
    ∀ i < count, s.FrameManaged (first + i) ∧ ¬ s.FrameIsBitmap (first + i) ∧
      s.bitmap.used (first - s.baseFrame + i) = true

instance (first count : Nat) : Decidable (s.FreeRangeValid first count) :=
  inferInstanceAs (Decidable (_ ∧ _))

/-- `frame_free_range`. -/
def frameFreeRange (first count : Nat) : Bool × PmmState :=
  if ¬ s.FreeRangeValid first count then (false, s)
  else if s.freeFault = some (first, count) then (false, { s with freeFault := none })
  else
    (true, { s with
      bitmap := s.bitmap.clearRange (first - s.baseFrame) count
      freePages := s.freePages + count
      nextHint := first - s.baseFrame })

/-- `frame_free`. -/
def frameFree (frame : Nat) : Bool × PmmState := s.frameFreeRange frame 1

/-- `pmm_test_fail_free_range_once`. -/
def pmmTestFailFreeRangeOnce (first count : Nat) : Bool × PmmState :=
  if s.freeFault = none ∧ s.FreeRangeValid first count then
    (true, { s with freeFault := some (first, count) })
  else (false, s)

end PmmState

end JcosKernel
