import JcosKernel.Pmm.Model

/-!
# JcosKernel.Framebuffer.Model

The active output of `kernel/framebuffer.c` and the lease of `kernel/display.c`
that decides who may draw on it.

Words are `BitVec`s of the width the source gives them, so every sum below wraps
where the source's does. The functions here run with interrupts disabled (or, in
the case of `framebuffer_init`, before they are first enabled), so each of them is
one indivisible step.

The terminal's rendering flag is the terminal's: where `display.c` reads it the
value read is an argument.
-/

namespace JcosKernel

open Lib

/-- `FramebufferInfo`. -/
structure FramebufferInfo where
  physicalBase : BitVec 64
  size : BitVec 64
  mappingPhysicalBase : BitVec 64
  mappingSize : BitVec 64
  pageOffset : BitVec 64
  memoryType : Nat
  directMapSafe : Bool
  width : BitVec 32
  height : BitVec 32
  pixelsPerScanline : BitVec 32
  pixelFormat : BitVec 32
  redMask : BitVec 32
  greenMask : BitVec 32
  blueMask : BitVec 32
  reservedMask : BitVec 32
  deriving Repr, DecidableEq, Inhabited

/-- `FramebufferOutputKind`. -/
inductive FramebufferOutputKind
  | none | firmware | native | rescue | quarantined
  deriving Repr, DecidableEq

/-- `FramebufferScanoutState`. -/
inductive FramebufferScanoutState
  | unavailable | firmware | retiring | retired
  deriving Repr, DecidableEq

/-- `DisplayLeaseState`. -/
inductive DisplayLeaseState
  | kernel | handoff | user | reclaim
  deriving Repr, DecidableEq

/-- The fields of `BootInfo` that `framebuffer_init` reads. -/
structure BootFramebuffer where
  base : BitVec 64
  size : BitVec 64
  width : BitVec 32
  height : BitVec 32
  pixelsPerScanline : BitVec 32
  pixelFormat : BitVec 32
  redMask : BitVec 32
  greenMask : BitVec 32
  blueMask : BitVec 32
  reservedMask : BitVec 32
  map : BootMemoryMap

/-! ### What the memory map says about the framebuffer -/

/-- `EFI_RESERVED_MEMORY_TYPE`. -/
def efiReservedMemoryType : Nat := 0

/-- `EFI_MEMORY_MAPPED_IO`. -/
def efiMemoryMappedIo : Nat := 11

/-- `FRAMEBUFFER_MEMORY_TYPE_MIXED`. -/
def framebufferMemoryTypeMixed : Nat := 0xFFFFFFFE

/-- `FRAMEBUFFER_MEMORY_TYPE_UNDESCRIBED`. -/
def framebufferMemoryTypeUndescribed : Nat := 0xFFFFFFFF

/-- The end of the bytes a descriptor describes; `none` for one that both loops skip. -/
def BootMemoryDescriptor.limit? (d : BootMemoryDescriptor) : Option Nat :=
  if d.numberOfPages = 0 ∨ max64 / frameSize < d.numberOfPages then none
  else if max64 - d.numberOfPages * frameSize < d.physicalStart then none
  else some (d.physicalStart + d.numberOfPages * frameSize)

namespace BootMemoryMap

variable (map : BootMemoryMap)

/-- A loop over the descriptors of the map from `offset` on, of at most `fuel` turns. A turn goes on
with a new accumulator or breaks the loop with its result. -/
def walk {α β : Type} (turn : α → BootMemoryDescriptor → α ⊕ β) (done : α → β) :
    Nat → Nat → α → Option β
  | 0, _, _ => none
  | fuel + 1, offset, acc =>
    if (offset + bootMemoryDescriptorSize) % 2 ^ 64 ≤ map.memoryMapSize then
      match turn acc (map.descriptorAt offset) with
      | .inl acc => walk turn done fuel ((offset + map.memoryMapDescriptorSize) % 2 ^ 64) acc
      | .inr b => some b
    else some (done acc)

/-- A turn of the inner loop of `direct_span_is_mmio`: it breaks at a descriptor that contains
`cursor`. -/
def coverTurn (cursor : Nat) (_ : Unit) (d : BootMemoryDescriptor) :
    Unit ⊕ Option (BootMemoryDescriptor × Nat) :=
  match d.limit? with
  | none => .inl ()
  | some limit =>
    if cursor < d.physicalStart ∨ limit ≤ cursor then .inl () else .inr (some (d, limit))

/-- The outer loop of `direct_span_is_mmio`. -/
def mmioLoop (fuel last : Nat) : Nat → Nat → Option Bool
  | 0, _ => none
  | left + 1, cursor =>
    if cursor < last then
      match map.walk (coverTurn cursor) (fun _ => none) fuel 0 () with
      | none => none
      | some none => some false
      | some (some (d, limit)) =>
        if d.type ≠ efiMemoryMappedIo then some false
        else if min limit last ≤ cursor then some false
        else mmioLoop fuel last left (min limit last)
    else some (cursor = last)

/-- A map that either of the two checks below is ready to walk. -/
def Walkable : Prop :=
  map.memoryMap ≠ 0 ∧ map.memoryMapSize ≠ 0 ∧
    bootMemoryDescriptorSize ≤ map.memoryMapDescriptorSize

instance : Decidable map.Walkable := inferInstanceAs (Decidable (_ ∧ _ ∧ _))

/-- `direct_span_is_mmio`; on success every byte is of the type that is then reported. -/
def directSpanIsMmio (fuel start size : Nat) : Option Bool :=
  if start = 0 ∨ size = 0 ∨ ¬ map.Walkable ∨ max64 - size < start then some false
  else map.mmioLoop fuel (start + size) fuel start

/-- A turn of the loop of `direct_span_is_safe` over the descriptors that overlap the mapping; the
accumulator is the type seen so far. -/
def overlapTurn (base limit : Nat) (observed : Option Nat) (d : BootMemoryDescriptor) :
    Option Nat ⊕ Option Nat :=
  match d.limit? with
  | none => .inl observed
  | some dlimit =>
    if dlimit ≤ base ∨ limit ≤ d.physicalStart then .inl observed
    else if d.type ≠ efiReservedMemoryType ∧ d.type ≠ efiMemoryMappedIo then .inr none
    else
      match observed with
      | none => .inl (some d.type)
      | some t => .inl (some (if t ≠ d.type then framebufferMemoryTypeMixed else t))

/-- `direct_span_is_safe`: the memory type when direct mapping is safe. -/
def directSpanIsSafe (fuel base size mappingBase mappingSize : Nat) : Option (Option Nat) :=
  (map.directSpanIsMmio fuel mappingBase mappingSize).bind fun mmio =>
    if mmio then some (some efiMemoryMappedIo)
    else if base ≠ mappingBase ∨ size ≠ mappingSize ∨ ¬ map.Walkable ∨
        max64 - mappingSize < mappingBase then some none
    else
      map.walk (overlapTurn mappingBase (mappingBase + mappingSize))
        (fun observed => some (observed.getD framebufferMemoryTypeUndescribed)) fuel 0 none

end BootMemoryMap

/-! ### The output -/

/-- The static variables of `framebuffer.c` and those of `display.c` that govern the
direct lease. -/
structure ScanoutState where
  framebuffer : FramebufferInfo
  output : FramebufferInfo
  outputKind : FramebufferOutputKind
  outputIdentity : BitVec 64
  nextOutputIdentity : BitVec 64
  outputValid : Bool
  ready : Bool
  scanout : FramebufferScanoutState
  kernelWriters : BitVec 32
  /-- `device_resource_valid(&g_display)`. -/
  displayValid : Bool
  ownerProcessId : Nat
  directState : DisplayLeaseState
  directOwnerProcessId : Nat
  restoreTerminalRender : Bool
  directOutputIdentity : BitVec 64
  deriving Repr, DecidableEq

/-- The statics as the kernel image holds them. -/
def ScanoutState.boot : ScanoutState where
  framebuffer := default
  output := default
  outputKind := .none
  outputIdentity := 0
  nextOutputIdentity := 1
  outputValid := false
  ready := false
  scanout := .unavailable
  kernelWriters := 0
  displayValid := false
  ownerProcessId := 0
  directState := .kernel
  directOwnerProcessId := 0
  restoreTerminalRender := false
  directOutputIdentity := 0

/-- The geometry that `framebuffer_init` accepts. -/
def BootFramebuffer.Accepted (boot : BootFramebuffer) : Prop :=
  boot.base ≠ 0 ∧ boot.width ≠ 0 ∧ boot.height ≠ 0 ∧ boot.pixelsPerScanline ≠ 0 ∧
    boot.width ≤ boot.pixelsPerScanline ∧ boot.pixelFormat ≤ 2 ∧
    ¬ (boot.pixelFormat = 2 ∧ boot.redMask ||| boot.greenMask ||| boot.blueMask = 0) ∧
    -- last_pixel
    (boot.height - 1).setWidth 64 * boot.pixelsPerScanline.setWidth 64 + boot.width.setWidth 64 ≤
      boot.size / 4 ∧
    boot.base ≤ BitVec.allOnes 64 - (boot.size - 1)

instance (boot : BootFramebuffer) : Decidable boot.Accepted :=
  inferInstanceAs (Decidable (_ ∧ _))

namespace BootFramebuffer

variable (boot : BootFramebuffer)

def pageOffset : BitVec 64 := boot.base &&& 4095

def mappingBase : BitVec 64 := boot.base - boot.pageOffset

def mappingSize : BitVec 64 := (boot.size + boot.pageOffset + 4095) &&& ~~~4095

/-- The page-rounded span does not wrap. -/
def Mappable : Prop :=
  boot.size ≤ BitVec.allOnes 64 - boot.pageOffset ∧
    boot.size + boot.pageOffset ≤ BitVec.allOnes 64 - 4095 ∧
    boot.mappingSize ≠ 0 ∧ boot.mappingBase ≤ BitVec.allOnes 64 - (boot.mappingSize - 1)

instance : Decidable boot.Mappable := inferInstanceAs (Decidable (_ ∧ _))

/-- The descriptor that `framebuffer_init` records; `safe` is the result of
`direct_span_is_safe`. -/
def info (safe : Option Nat) : FramebufferInfo :=
  { physicalBase := boot.base
    size := boot.size
    mappingPhysicalBase := boot.mappingBase
    mappingSize := boot.mappingSize
    pageOffset := boot.pageOffset
    memoryType := safe.getD 0
    directMapSafe := safe.isSome
    width := boot.width
    height := boot.height
    pixelsPerScanline := boot.pixelsPerScanline
    pixelFormat := boot.pixelFormat
    redMask := boot.redMask
    greenMask := boot.greenMask
    blueMask := boot.blueMask
    reservedMask := boot.reservedMask }

end BootFramebuffer

namespace ScanoutState

variable (s : ScanoutState)

/-- `framebuffer_init`; a null `boot` is `none`. It does not return within `fuel` turns of its loops
when the result is `none`. -/
def framebufferInit (fuel : Nat) (boot : Option BootFramebuffer) : Option (Bool × ScanoutState) :=
  if s.ready then some (false, s)
  else
    let s := { s with ready := false, framebuffer := default }
    match boot with
    | none => some (false, s)
    | some boot =>
      if ¬ boot.Accepted then some (false, s)
      else if ¬ boot.Mappable then some (false, s)
      else
        (boot.map.directSpanIsSafe fuel boot.base.toNat boot.size.toNat boot.mappingBase.toNat
            boot.mappingSize.toNat).map fun safe =>
          (true,
            { s with
              framebuffer := boot.info safe
              ready := true
              scanout := .firmware
              output := boot.info safe
              outputKind := .firmware
              outputValid := true })

/-- `framebuffer_firmware_valid`. -/
def framebufferFirmwareValid : Bool := s.scanout = .firmware

/-- `framebuffer_output_matches`. -/
def framebufferOutputMatches (identity : BitVec 64) : Bool :=
  s.outputValid ∧ s.outputIdentity = identity

/-- `framebuffer_writers_idle`. -/
def framebufferWritersIdle : Bool := s.kernelWriters = 0

/-- `display_kernel_framebuffer_writable`. -/
def displayKernelFramebufferWritable : Bool :=
  s.directState = .kernel ∨ s.directState = .reclaim

/-- `framebuffer_write_begin`. -/
def framebufferWriteBegin : Bool × ScanoutState :=
  if s.outputValid ∧ s.displayKernelFramebufferWritable ∧ s.kernelWriters ≠ BitVec.allOnes 32 then
    (true, { s with kernelWriters := s.kernelWriters + 1 })
  else (false, s)

/-- The writer count after one more `framebuffer_write_end`. -/
def dropWriter (n : BitVec 32) : BitVec 32 := if n ≠ 0 then n - 1 else n

/-- `framebuffer_write_end`. -/
def framebufferWriteEnd : ScanoutState :=
  { s with
    kernelWriters := dropWriter s.kernelWriters
    scanout :=
      if dropWriter s.kernelWriters = 0 ∧ s.scanout = .retiring then .retired else s.scanout }

/-- `framebuffer_firmware_retire`, first half: admission is closed. -/
def closeFirmware : ScanoutState :=
  if s.scanout = .firmware then
    { s with scanout := .retiring, outputValid := false, outputKind := .none }
  else s

/-- `framebuffer_firmware_retire`. -/
def framebufferFirmwareRetire : Bool × ScanoutState :=
  let s := s.closeFirmware
  let s := if s.scanout = .retiring ∧ s.kernelWriters = 0 then { s with scanout := .retired } else s
  (s.scanout = .retired, s)

/-- `display_retire_firmware_scanout`. -/
def displayRetireFirmwareScanout : Bool × ScanoutState :=
  if s.outputIdentity ≠ 0 ∨ s.directState ≠ .kernel ∨ s.scanout = .unavailable then (false, s)
  else s.framebufferFirmwareRetire

/-- `retained_output_valid`. -/
def RetainedOutputValid (info : FramebufferInfo) : Prop :=
  s.ready ∧ s.framebuffer.directMapSafe ∧
    info.physicalBase = s.framebuffer.physicalBase ∧ info.size = s.framebuffer.size ∧
    info.mappingPhysicalBase = s.framebuffer.mappingPhysicalBase ∧
    info.mappingSize = s.framebuffer.mappingSize ∧ info.pageOffset = s.framebuffer.pageOffset ∧
    info.memoryType = s.framebuffer.memoryType ∧ info.directMapSafe ∧
    info.pixelFormat = s.framebuffer.pixelFormat ∧ info.pixelFormat ≤ 1 ∧
    info.redMask = s.framebuffer.redMask ∧ info.greenMask = s.framebuffer.greenMask ∧
    info.blueMask = s.framebuffer.blueMask ∧ info.reservedMask = s.framebuffer.reservedMask ∧
    info.width = s.framebuffer.width ∧ info.height = s.framebuffer.height ∧
    info.pixelsPerScanline = s.framebuffer.pixelsPerScanline ∧
    info.width ≠ 0 ∧ info.height ≠ 0 ∧ info.width ≤ info.pixelsPerScanline ∧
    info.pixelsPerScanline.setWidth 64 ≤ info.size / 4 / info.height.setWidth 64

instance (info : FramebufferInfo) : Decidable (s.RetainedOutputValid info) :=
  inferInstanceAs (Decidable (_ ∧ _))

/-- The conditions under which `framebuffer_native_install` publishes an output. -/
def Installable (info : FramebufferInfo) : Prop :=
  s.nextOutputIdentity ≠ 0 ∧ s.scanout = .retired ∧ s.outputValid = false ∧
    s.kernelWriters = 0 ∧ s.directState = .kernel ∧ s.RetainedOutputValid info

instance (info : FramebufferInfo) : Decidable (s.Installable info) :=
  inferInstanceAs (Decidable (_ ∧ _))

/-- `framebuffer_native_install`: the identity of the output when one is installed. A null
`info` is `none`. -/
def framebufferNativeInstall (info : Option FramebufferInfo) (rescue : Bool) :
    Option (BitVec 64) × ScanoutState :=
  match info with
  | none => (none, s)
  | some info =>
    if s.Installable info then
      (some s.nextOutputIdentity,
        { s with
          output := info
          outputIdentity := s.nextOutputIdentity
          nextOutputIdentity := s.nextOutputIdentity + 1
          outputKind := if rescue then .rescue else .native
          outputValid := true })
    else (none, s)

/-- `framebuffer_output_revoke`. -/
def framebufferOutputRevoke (expected : BitVec 64) : Bool × ScanoutState :=
  if expected = 0 then (false, s)
  else if s.outputIdentity = expected ∧
      (s.outputKind = .native ∨ s.outputKind = .rescue ∨ s.outputKind = .quarantined) then
    (true, { s with outputValid := false, outputKind := .quarantined })
  else (false, s)

/-! ### The direct lease -/

/-- `display_init`; `created` is the outcome of `device_resource_create`. -/
def displayInit (created : Bool) : Bool × ScanoutState :=
  if ¬ s.framebufferFirmwareValid ∨ s.ready = false ∨ s.output.width = 0 ∨ s.output.height = 0 ∨
      created = false then (false, s)
  else
    (true,
      { s with
        displayValid := true
        ownerProcessId := 0
        directOwnerProcessId := 0
        restoreTerminalRender := false
        directState := .kernel })

/-- The part of `prepare_output` that runs with interrupts disabled; what comes before it
only refuses. `render` is `terminal_render_enabled()`. -/
def prepareOutput (identity : BitVec 64) (render : Bool) : Bool × ScanoutState :=
  if s.directState ≠ .kernel ∨ s.framebufferOutputMatches identity = false ∨
      s.framebufferWritersIdle = false then (false, s)
  else
    (true,
      { s with
        directState := .handoff
        directOutputIdentity := identity
        directOwnerProcessId := 0
        ownerProcessId := 0
        restoreTerminalRender := render })

/-- `display_direct_commit`; `process` is the id of a live user process, `none` when the
process offered is not one. -/
def displayDirectCommit (process : Option Nat) : Bool × ScanoutState :=
  match process with
  | none => (false, s)
  | some id =>
    if s.directState = .handoff ∧ s.framebufferOutputMatches s.directOutputIdentity then
      (true, { s with directOwnerProcessId := id, directState := .user })
    else (false, s)

/-- `display_direct_restore_kernel` up to its first `display_irq_restore`; on success the
rendering flag to restore. -/
def restoreKernelBegin (expected : DisplayLeaseState) (owner : Nat) :
    Option Bool × ScanoutState :=
  if s.directState ≠ expected ∨
      (expected = .user ∧ (owner = 0 ∨ s.directOwnerProcessId ≠ owner)) then (none, s)
  else
    (some s.restoreTerminalRender,
      { s with
        directState := .reclaim
        directOutputIdentity := 0
        directOwnerProcessId := 0
        ownerProcessId := 0
        restoreTerminalRender := false })

/-- The rest of `display_direct_restore_kernel`, after the terminal has been told to
render again. -/
def restoreKernelEnd : Bool × ScanoutState :=
  if s.directState ≠ .reclaim then (false, s)
  else (true, { s with directState := .kernel })

end ScanoutState

end JcosKernel
