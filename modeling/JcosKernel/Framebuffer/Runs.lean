import Mathlib.Data.List.Pairwise
import JcosKernel.Framebuffer.Drawing
import JcosKernel.Lib.Run

/-!
# JcosKernel.Framebuffer.Runs

**The scanout over whole runs.** A `ScanoutWorld` is the state of the output together
with its active writers: kernel threads between a successful `framebuffer_write_begin`
and the matching `framebuffer_write_end`, some of them inside a drawing function. A writer
remembers the output that admitted it; nothing reads that field.

Everything rests on one invariant, `ScanoutInv`: the counter counts the writers, every
writer's output is still the active one, and the flags of `framebuffer.c` agree with the
scanout state. An output is replaced only when the counter is zero, which is why an
admitted writer never sees the replacement.
-/

namespace JcosKernel

open Lib
open Relation (ReflTransGen)

/-- A kernel thread between `framebuffer_write_begin` and `framebuffer_write_end`. -/
structure Writer where
  /-- The output at the time of admission. -/
  output : FramebufferInfo
  /-- The drawing function the thread is in, if it has entered one. -/
  job : Option Drawing

structure ScanoutWorld where
  state : ScanoutState
  writers : List Writer
  /-- The words behind the framebuffer pointer. -/
  memory : BitVec 64 → BitVec 32

/-- The operations that run with interrupts disabled. -/
inductive ScanoutCall
  | init (fuel : Nat) (boot : Option BootFramebuffer)
  | retire
  | install (info : Option FramebufferInfo) (rescue : Bool)
  | revoke (expected : BitVec 64)
  | displayInit (created : Bool)
  | prepare (identity : BitVec 64) (render : Bool)
  | commit (process : Option Nat)
  | abort
  | reclaim (owner : Nat)
  | restoreEnd

namespace ScanoutCall

/-- The state after a call, and the identity of the output it installed. -/
def exec (s : ScanoutState) : ScanoutCall → Option (BitVec 64) × ScanoutState
  -- a call that does not return changes nothing for the others: interrupts are off
  | init fuel boot => (none, ((s.framebufferInit fuel boot).map (·.2)).getD s)
  | retire => (none, s.displayRetireFirmwareScanout.2)
  | install info rescue => s.framebufferNativeInstall info rescue
  | revoke expected => (none, (s.framebufferOutputRevoke expected).2)
  | displayInit created => (none, (s.displayInit created).2)
  | prepare identity render => (none, (s.prepareOutput identity render).2)
  | commit process => (none, (s.displayDirectCommit process).2)
  | abort => (none, (s.restoreKernelBegin .handoff 0).2)
  | reclaim owner => (none, (s.restoreKernelBegin .user owner).2)
  | restoreEnd => (none, s.restoreKernelEnd.2)

end ScanoutCall

inductive ScanoutEvent
  | call (c : ScanoutCall) (installed : Option (BitVec 64))
  /-- A writer is admitted by `out`, to make a drawing call or for itself. -/
  | enter (out : FramebufferInfo) (call : Option DrawCall)
  | refuse
  /-- A writer that `out` admitted makes a store. -/
  | store (out : FramebufferInfo) (st : PixelStore)
  | move
  | leave

namespace ScanoutEvent

/-- The identity of a newly installed native or rescue output. -/
def identity? : ScanoutEvent → Option (BitVec 64)
  | call _ installed => installed
  | _ => none

end ScanoutEvent

/-- What memory holds after a store. -/
def PixelStore.write (memory : BitVec 64 → BitVec 32) : Option PixelStore → BitVec 64 → BitVec 32
  | none => memory
  | some st =>
    let memory := Function.update memory st.address st.value
    if st.wide then Function.update memory (st.address + 4) st.value else memory

/-- The label of a drawing step. -/
def Writer.event (wr : Writer) : Option PixelStore → ScanoutEvent
  | none => .move
  | some st => .store wr.output st

theorem Writer.identity?_event (wr : Writer) (st : Option PixelStore) :
    (wr.event st).identity? = none := by
  cases st <;> rfl

inductive ScanoutStep : ScanoutWorld → ScanoutEvent → ScanoutWorld → Prop
  | call {w : ScanoutWorld} (c : ScanoutCall) :
      ScanoutStep w (.call c (c.exec w.state).1) { w with state := (c.exec w.state).2 }
  /-- `framebuffer_write_begin` succeeds; no caller draws a rectangle that wraps. -/
  | enter {w : ScanoutWorld} {s' : ScanoutState} (call : Option DrawCall)
      (hcall : ∀ c, call = some c → ¬ c.Empty ∧ ¬ c.Wraps w.state.output)
      (h : w.state.framebufferWriteBegin = (true, s')) :
      ScanoutStep w (.enter w.state.output call)
        { w with
          state := s'
          writers := ⟨w.state.output, call.map .entered⟩ :: w.writers }
  /-- It fails, or a drawing function returns before it asks. -/
  | refuse {w : ScanoutWorld} : ScanoutStep w .refuse w
  | draw {w : ScanoutWorld} {wr : Writer} {d : Drawing} (i : Nat) (hi : w.writers[i]? = some wr)
      (hd : wr.job = some d) :
      ScanoutStep w (wr.event (d.step w.state w.memory).1)
        { w with
          writers := w.writers.set i { wr with job := some (d.step w.state w.memory).2 }
          memory := PixelStore.write w.memory (d.step w.state w.memory).1 }
  /-- `framebuffer_write_end`. -/
  | leave {w : ScanoutWorld} {wr : Writer} (i : Nat) (hi : w.writers[i]? = some wr)
      (hd : wr.job = none ∨ wr.job = some .leaving) :
      ScanoutStep w .leave
        { w with
          state := w.state.framebufferWriteEnd
          writers := w.writers.eraseIdx i }

/-- The kernel before `framebuffer_init`. -/
def ScanoutWorld.boot (memory : BitVec 64 → BitVec 32) : ScanoutWorld :=
  ⟨ScanoutState.boot, [], memory⟩

/-- The order of the scanout states. -/
inductive FramebufferScanoutState.Next : FramebufferScanoutState → FramebufferScanoutState → Prop
  | boot : Next .unavailable .firmware
  | close : Next .firmware .retiring
  | drain : Next .retiring .retired

/-- Agreement of the flags of `framebuffer.c` with the scanout state and the writers. -/
structure ScanoutInv (w : ScanoutWorld) : Prop where
  count : w.state.kernelWriters.toNat = w.writers.length
  admitted : ∀ wr ∈ w.writers, wr.output = w.state.output
  sound : w.state.ready = true → w.state.framebuffer.Sound ∧ w.state.output.Sound
  unready : w.state.ready = false → w.state.scanout = .unavailable ∧ w.state.outputValid = false ∧
    w.writers = [] ∧ w.state.directState = .kernel ∧ w.state.outputIdentity = 0
  ready : w.state.ready = true → w.state.scanout ≠ .unavailable
  firmware : w.state.scanout = .firmware → w.state.outputKind = .firmware ∧ w.state.outputIdentity = 0
  retiring : w.state.scanout = .retiring → w.state.outputValid = false ∧ w.writers ≠ []
  retired : w.state.scanout = .retired → w.state.outputValid = true →
    (w.state.outputKind = .native ∨ w.state.outputKind = .rescue) ∧ w.state.outputIdentity ≠ 0

/-! ### The sound geometries -/

/-- The pixels that `framebuffer_init` accepts fit into the framebuffer. -/
theorem BootFramebuffer.Accepted.fits {boot : BootFramebuffer} (h : boot.Accepted) :
    4 * ((boot.height.toNat - 1) * boot.pixelsPerScanline.toNat + boot.width.toNat) ≤
      boot.size.toNat ∧ boot.base.toNat + boot.size.toNat ≤ 2 ^ 64 := by
  obtain ⟨-, hne, hheight, -, -, -, -, hlast, hbase⟩ := h
  have hall : (BitVec.allOnes 64).toNat = 2 ^ 64 - 1 := BitVec.toNat_allOnes
  have hmul : (boot.height - 1).toNat * boot.pixelsPerScanline.toNat ≤
      (2 ^ 32 - 1) * (2 ^ 32 - 1) := Nat.mul_le_mul (by omega) (by omega)
  have hrow : (boot.height - 1).toNat = boot.height.toNat - 1 := by bv_omega
  have hsize : ((boot.height - 1).setWidth 64 * boot.pixelsPerScanline.setWidth 64 +
      boot.width.setWidth 64).toNat ≤ boot.size.toNat / 4 := hlast
  have hbase' : boot.base.toNat ≤ (BitVec.allOnes 64 - (boot.size - 1)).toNat := hbase
  rw [BitVec.toNat_add, BitVec.toNat_mul, BitVec.toNat_setWidth, BitVec.toNat_setWidth,
    BitVec.toNat_setWidth, Nat.mod_eq_of_lt (show (boot.height - 1).toNat < 2 ^ 64 by omega),
    Nat.mod_eq_of_lt (show boot.pixelsPerScanline.toNat < 2 ^ 64 by omega)] at hsize
  rw [BitVec.toNat_sub] at hbase'
  rw [hrow] at hmul hsize
  have hone : (boot.size - 1).toNat = boot.size.toNat - 1 := by bv_omega
  omega

/-- `framebuffer_init` accepts sound geometries only. -/
theorem BootFramebuffer.Accepted.sound {boot : BootFramebuffer} (h : boot.Accepted)
    (safe : Option Nat) : (boot.info safe).Sound := by
  obtain ⟨hlast, hend⟩ := h.fits
  obtain ⟨-, -, -, -, hwidth, -⟩ := h
  exact ⟨hwidth, (Nat.add_le_add_left hlast _).trans hend⟩

variable {s s' : ScanoutState} {wr : Writer} {out : FramebufferInfo} {e : ScanoutEvent} {i : Nat}

/-- The retained output has the geometry of the boot framebuffer. -/
theorem ScanoutState.RetainedOutputValid.sound {info : FramebufferInfo}
    (h : s.RetainedOutputValid info) (hs : s.framebuffer.Sound) : info.Sound := by
  obtain ⟨-, -, hbase, -, -, -, -, -, -, -, -, -, -, -, -, hwidth, hheight, hpitch, -⟩ := h
  refine ⟨?_, ?_⟩
  · rw [hwidth, hpitch]
    exact hs.width_le
  · rw [hbase, hheight, hpitch, hwidth]
    exact hs.fits

/-! ### What a call can do -/

namespace ScanoutState

/-- A change that concerns the lease only. -/
structure LeaseOnly (s s' : ScanoutState) : Prop where
  framebuffer : s'.framebuffer = s.framebuffer
  output : s'.output = s.output
  outputKind : s'.outputKind = s.outputKind
  outputIdentity : s'.outputIdentity = s.outputIdentity
  nextOutputIdentity : s'.nextOutputIdentity = s.nextOutputIdentity
  outputValid : s'.outputValid = s.outputValid
  ready : s'.ready = s.ready
  scanout : s'.scanout = s.scanout
  kernelWriters : s'.kernelWriters = s.kernelWriters
  /-- Without an output the kernel's lease is not given up. -/
  kernel : s.outputValid = false → s.directState = .kernel → s'.directState = .kernel

theorem LeaseOnly.refl (s : ScanoutState) : LeaseOnly s s :=
  ⟨rfl, rfl, rfl, rfl, rfl, rfl, rfl, rfl, rfl, fun _ h => h⟩

theorem displayInit_leaseOnly (created : Bool) : LeaseOnly s (s.displayInit created).2 := by
  unfold displayInit
  split_ifs
  · exact .refl s
  · exact { LeaseOnly.refl s with kernel := fun _ _ => rfl }

theorem prepareOutput_leaseOnly (identity : BitVec 64) (render : Bool) :
    LeaseOnly s (s.prepareOutput identity render).2 := by
  unfold prepareOutput
  split_ifs with h
  · exact .refl s
  · refine { LeaseOnly.refl s with kernel := fun hvalid _ => ?_ }
    simp [framebufferOutputMatches, hvalid] at h

theorem displayDirectCommit_leaseOnly (process : Option Nat) :
    LeaseOnly s (s.displayDirectCommit process).2 := by
  cases process with
  | none => exact .refl s
  | some id =>
    simp only [displayDirectCommit]
    split_ifs with h
    · refine { LeaseOnly.refl s with kernel := fun _ hkernel => ?_ }
      rw [hkernel] at h
      cases h.1
    · exact .refl s

theorem restoreKernelBegin_leaseOnly {expected : DisplayLeaseState} (hne : expected ≠ .kernel)
    (owner : Nat) : LeaseOnly s (s.restoreKernelBegin expected owner).2 := by
  unfold restoreKernelBegin
  split_ifs with h
  · exact .refl s
  · refine { LeaseOnly.refl s with kernel := fun _ hkernel => ?_ }
    rw [hkernel] at h
    exact absurd (.inl hne.symm) h

theorem restoreKernelEnd_leaseOnly : LeaseOnly s s.restoreKernelEnd.2 := by
  unfold restoreKernelEnd
  split_ifs
  · exact .refl s
  · exact { LeaseOnly.refl s with kernel := fun _ _ => rfl }

/-- The state after a successful `framebuffer_init`. -/
def withFirmware (s : ScanoutState) (info : FramebufferInfo) : ScanoutState :=
  { s with
    framebuffer := info
    ready := true
    scanout := .firmware
    output := info
    outputKind := .firmware
    outputValid := true }

/-- The state after a successful `framebuffer_native_install`. -/
def withNative (s : ScanoutState) (info : FramebufferInfo) (kind : FramebufferOutputKind) :
    ScanoutState :=
  { s with
    output := info
    outputIdentity := s.nextOutputIdentity
    nextOutputIdentity := s.nextOutputIdentity + 1
    outputKind := kind
    outputValid := true }

/-- A successful `framebuffer_init`. -/
theorem framebufferInit_true {fuel : Nat} {boot : BootFramebuffer}
    (h : s.framebufferInit fuel (some boot) = some (true, s')) :
    boot.Accepted ∧ boot.Mappable ∧ ∃ safe, boot.map.directSpanIsSafe fuel boot.base.toNat
      boot.size.toNat boot.mappingBase.toNat boot.mappingSize.toNat = some safe ∧
      s' = s.withFirmware (boot.info safe) := by
  unfold framebufferInit at h
  dsimp only at h
  split_ifs at h with _ hacc hmap <;> try cases h
  obtain ⟨safe, hsafe, heq⟩ := Option.map_eq_some_iff.mp h
  exact ⟨hacc, hmap, safe, hsafe, (Prod.mk.inj heq).2.symm⟩

/-- `framebuffer_init` fails, with the framebuffer unset if it was not ready, or succeeds. -/
theorem framebufferInit_cases {fuel : Nat} {boot : Option BootFramebuffer} {b : Bool}
    (h : s.framebufferInit fuel boot = some (b, s')) :
    s' = s ∨ s.ready = false ∧ (s' = { s with framebuffer := default } ∨
      ∃ info, info.Sound ∧ s' = s.withFirmware info) := by
  by_cases hready : s.ready = true
  · rw [framebufferInit, if_pos hready] at h
    exact .inl (Prod.mk.inj (Option.some.inj h)).2.symm
  have hfalse : s.ready = false := by simpa using hready
  have hunset : ({ s with ready := false, framebuffer := default } : ScanoutState) =
      { s with framebuffer := default } := by rw [hfalse]
  refine .inr ⟨hfalse, ?_⟩
  rw [framebufferInit, if_neg hready] at h
  cases boot with
  | none =>
    cases h
    exact .inl hunset
  | some boot =>
    dsimp only at h
    split_ifs at h with hacc hmap
    · obtain ⟨safe, -, heq⟩ := Option.map_eq_some_iff.mp h
      exact .inr ⟨_, hacc.sound safe, (Prod.mk.inj heq).2.symm⟩
    · cases h
      exact .inl hunset
    · cases h
      exact .inl hunset

end ScanoutState

open ScanoutState

/-- What a call can do, and the identity of the output it installed. -/
inductive ScanoutEffect (s : ScanoutState) : Option (BitVec 64) → ScanoutState → Prop
  | lease {s' : ScanoutState} (h : LeaseOnly s s') : ScanoutEffect s none s'
  | unset (hr : s.ready = false) : ScanoutEffect s none { s with framebuffer := default }
  | firmware {info : FramebufferInfo} (hr : s.ready = false) (hinfo : info.Sound) :
      ScanoutEffect s none (s.withFirmware info)
  | close (hs : s.scanout = .firmware) (hw : s.kernelWriters ≠ 0) : ScanoutEffect s none
      { s with scanout := .retiring, outputValid := false, outputKind := .none }
  | retire (hs : s.scanout = .firmware) (hw : s.kernelWriters = 0) : ScanoutEffect s none
      { s with scanout := .retired, outputValid := false, outputKind := .none }
  | drain (hs : s.scanout = .retiring) (hw : s.kernelWriters = 0) :
      ScanoutEffect s none { s with scanout := .retired }
  | install {info : FramebufferInfo} {kind : FramebufferOutputKind} (h : s.Installable info)
      (hkind : kind = .native ∨ kind = .rescue) :
      ScanoutEffect s (some s.nextOutputIdentity) (s.withNative info kind)
  | revoke (hid : s.outputIdentity ≠ 0) :
      ScanoutEffect s none { s with outputValid := false, outputKind := .quarantined }

theorem framebufferFirmwareRetire_effect (s : ScanoutState) :
    ScanoutEffect s none s.framebufferFirmwareRetire.2 := by
  unfold framebufferFirmwareRetire closeFirmware
  by_cases hf : s.scanout = .firmware
  · by_cases hw : s.kernelWriters = 0
    · simpa [hf, hw] using ScanoutEffect.retire hf hw
    · simp only [if_pos hf, if_neg (fun h => hw (And.right h))]
      exact .close hf hw
  · by_cases hr : s.scanout = .retiring ∧ s.kernelWriters = 0
    · simpa [hr.1, hr.2] using ScanoutEffect.drain hr.1 hr.2
    · simp only [if_neg hf, if_neg hr]
      exact .lease (.refl s)

theorem ScanoutCall.effect (s : ScanoutState) (c : ScanoutCall) :
    ScanoutEffect s (c.exec s).1 (c.exec s).2 := by
  have hrefl : ScanoutEffect s none s := .lease (.refl s)
  cases c with
  | init fuel boot =>
    rw [exec]
    rcases h : s.framebufferInit fuel boot with _ | ⟨b, s'⟩
    · exact hrefl
    · obtain rfl | ⟨hr, rfl | ⟨info, hinfo, rfl⟩⟩ := framebufferInit_cases h
      · exact hrefl
      · exact .unset hr
      · exact .firmware hr hinfo
  | retire =>
    simp only [exec, displayRetireFirmwareScanout]
    split_ifs
    · exact hrefl
    · exact framebufferFirmwareRetire_effect s
  | install info rescue =>
    cases info with
    | none => exact hrefl
    | some info =>
      simp only [exec, framebufferNativeInstall]
      split_ifs with h
      · exact .install h (.inr rfl)
      · exact .install h (.inl rfl)
      · exact hrefl
  | revoke expected =>
    simp only [exec, framebufferOutputRevoke]
    split_ifs with h0 h
    · exact hrefl
    · exact .revoke (h.1.trans_ne h0)
    · exact hrefl
  | displayInit created => exact .lease (displayInit_leaseOnly created)
  | prepare identity render => exact .lease (prepareOutput_leaseOnly identity render)
  | commit process => exact .lease (displayDirectCommit_leaseOnly process)
  | abort => exact .lease (restoreKernelBegin_leaseOnly (by decide) 0)
  | reclaim owner => exact .lease (restoreKernelBegin_leaseOnly (by decide) owner)
  | restoreEnd => exact .lease restoreKernelEnd_leaseOnly

/-! ### The writers -/

theorem ScanoutState.framebufferWriteBegin_cases (h : s.framebufferWriteBegin = (true, s')) :
    s.outputValid = true ∧ s' = { s with kernelWriters := s.kernelWriters + 1 } ∧
      (s.kernelWriters + 1).toNat = s.kernelWriters.toNat + 1 := by
  unfold framebufferWriteBegin at h
  split_ifs at h with hok
  · obtain ⟨hvalid, -, hmax⟩ := hok
    refine ⟨hvalid, (Prod.mk.inj h).2.symm, ?_⟩
    have hne : s.kernelWriters.toNat ≠ 2 ^ 32 - 1 := fun heq =>
      hmax (BitVec.eq_of_toNat_eq (by rw [heq, BitVec.toNat_allOnes]))
    bv_omega
  · cases (Prod.mk.inj h).1

theorem ScanoutState.toNat_dropWriter {n : BitVec 32} (h : 0 < n.toNat) :
    (dropWriter n).toNat = n.toNat - 1 := by
  unfold dropWriter
  rw [if_pos (by bv_omega)]
  bv_omega

namespace ScanoutInv

variable {w w' : ScanoutWorld} {memory : BitVec 64 → BitVec 32}

theorem boot : ScanoutInv (.boot memory) where
  count := rfl
  admitted := nofun
  sound := nofun
  unready _ := ⟨rfl, rfl, rfl, rfl, rfl⟩
  ready := nofun
  firmware := nofun
  retiring := nofun
  retired := nofun

section

variable (h : ScanoutInv w)
include h

theorem idle : w.state.kernelWriters = 0 ↔ w.writers = [] := by
  rw [← List.length_eq_zero_iff, ← h.count]
  exact ⟨fun h0 => by rw [h0]; rfl, fun h0 => BitVec.eq_of_toNat_eq h0⟩

theorem ready_of_valid (hv : w.state.outputValid = true) : w.state.ready = true := by
  by_contra hr
  have := (h.unready (by simpa using hr)).2.1
  rw [hv] at this
  cases this

theorem ready_of_writer (hwr : wr ∈ w.writers) : w.state.ready = true := by
  by_contra hr
  rw [(h.unready (by simpa using hr)).2.2.1] at hwr
  cases hwr

theorem leaseOnly (hs : LeaseOnly w.state s') : ScanoutInv { w with state := s' } where
  count := hs.kernelWriters ▸ h.count
  admitted := hs.output ▸ h.admitted
  sound hr := hs.framebuffer ▸ hs.output ▸ h.sound (hs.ready ▸ hr)
  unready hr := by
    obtain ⟨h1, h2, h3, h4, h5⟩ := h.unready (hs.ready ▸ hr)
    exact ⟨hs.scanout.trans h1, hs.outputValid.trans h2, h3, hs.kernel h2 h4,
      hs.outputIdentity.trans h5⟩
  ready hr := hs.scanout ▸ h.ready (hs.ready ▸ hr)
  firmware hf := hs.outputKind ▸ hs.outputIdentity ▸ h.firmware (hs.scanout ▸ hf)
  retiring hf := hs.outputValid ▸ h.retiring (hs.scanout ▸ hf)
  retired hf hv := hs.outputKind ▸ hs.outputIdentity ▸ h.retired (hs.scanout ▸ hf)
    (hs.outputValid ▸ hv)

theorem call {installed : Option (BitVec 64)} (he : ScanoutEffect w.state installed s') :
    ScanoutInv { w with state := s' } := by
  have hready : w.state.scanout ≠ .unavailable → w.state.ready ≠ false := fun hs hr =>
    hs (h.unready hr).1
  cases he with
  | lease hs => exact h.leaseOnly hs
  | unset hr =>
    exact { h with sound := fun h' => absurd (hr.symm.trans h') nofun }
  | firmware hr hinfo =>
    -- before the first output there is no writer
    obtain ⟨-, -, hnil, -, hzero⟩ := h.unready hr
    exact ⟨h.count, by rw [hnil]; exact nofun, fun _ => ⟨hinfo, hinfo⟩, nofun, fun _ => nofun,
      fun _ => ⟨rfl, hzero⟩, nofun, nofun⟩
  | close hs hw =>
    exact ⟨h.count, h.admitted, h.sound, fun hr => absurd hr (hready (by simp [hs])), fun _ => nofun,
      nofun, fun _ => ⟨rfl, fun hnil => hw (h.idle.mpr hnil)⟩, nofun⟩
  | retire hs hw =>
    exact ⟨h.count, h.admitted, h.sound, fun hr => absurd hr (hready (by simp [hs])), fun _ => nofun,
      nofun, nofun, fun _ => nofun⟩
  | drain hs hw =>
    exact ⟨h.count, h.admitted, h.sound, fun hr => absurd hr (hready (by simp [hs])), fun _ => nofun,
      nofun, nofun, fun _ hv => absurd ((h.retiring hs).1.symm.trans hv) nofun⟩
  | install hok hkind =>
    obtain ⟨hnext, hscan, -, hidle, -, hretained⟩ := hok
    have hnil := h.idle.mp hidle
    exact ⟨h.count, by rw [hnil]; exact nofun, fun hr => ⟨(h.sound hr).1,
      hretained.sound (h.sound hr).1⟩, fun hr => absurd (hretained.1.symm.trans hr) nofun, h.ready,
      fun hf => absurd (hscan.symm.trans hf) nofun, fun hf => absurd (hscan.symm.trans hf) nofun,
      fun _ _ => ⟨hkind, hnext⟩⟩
  | revoke hid =>
    exact ⟨h.count, h.admitted, h.sound, fun hr => absurd (h.unready hr).2.2.2.2 hid, h.ready,
      fun hf => absurd (h.firmware hf).2 hid, fun hf => ⟨rfl, (h.retiring hf).2⟩, fun _ => nofun⟩

theorem enter (call : Option DrawCall) (hb : w.state.framebufferWriteBegin = (true, s')) :
    ScanoutInv { w with
      state := s'
      writers := ⟨w.state.output, call.map .entered⟩ :: w.writers } := by
  obtain ⟨hvalid, rfl, hcount⟩ := framebufferWriteBegin_cases hb
  have hready := h.ready_of_valid hvalid
  refine ⟨?_, List.forall_mem_cons.mpr ⟨rfl, h.admitted⟩, h.sound,
    fun hr => absurd (hready.symm.trans hr) nofun, h.ready, h.firmware,
    fun hf => ⟨(h.retiring hf).1, List.cons_ne_nil _ _⟩, h.retired⟩
  rw [hcount, h.count, List.length_cons]

theorem draw (hi : w.writers[i]? = some wr) (d : Option Drawing) (m : BitVec 64 → BitVec 32) :
    ScanoutInv { w with writers := w.writers.set i { wr with job := d }, memory := m } := by
  refine ⟨by rw [List.length_set]; exact h.count, ?_, h.sound, fun hr => ?_, h.ready, h.firmware,
    fun hf => ⟨(h.retiring hf).1, fun hnil => (h.retiring hf).2 (by simpa using hnil)⟩,
    h.retired⟩
  · intro wr' hwr'
    rcases List.mem_or_eq_of_mem_set hwr' with hmem | rfl
    · exact h.admitted wr' hmem
    · exact h.admitted wr (List.mem_of_getElem? hi)
  · obtain ⟨h1, h2, h3, h4⟩ := h.unready hr
    exact ⟨h1, h2, by rw [h3]; rfl, h4⟩

theorem leave (hi : w.writers[i]? = some wr) :
    ScanoutInv { w with
      state := w.state.framebufferWriteEnd
      writers := w.writers.eraseIdx i } := by
  have hmem := List.mem_of_getElem? hi
  have hready := h.ready_of_writer hmem
  have hlen : i < w.writers.length := (List.getElem?_eq_some_iff.mp hi).1
  have hcount : (dropWriter w.state.kernelWriters).toNat = (w.writers.eraseIdx i).length := by
    rw [toNat_dropWriter (by rw [h.count]; omega), h.count, List.length_eraseIdx_of_lt hlen]
  by_cases hdrain : dropWriter w.state.kernelWriters = 0 ∧ w.state.scanout = .retiring
  · have hend : w.state.framebufferWriteEnd = { w.state with
        kernelWriters := dropWriter w.state.kernelWriters, scanout := .retired } := by
      unfold framebufferWriteEnd
      rw [if_pos hdrain]
    have hinvalid := (h.retiring hdrain.2).1
    rw [hend]
    exact ⟨hcount, fun wr hwr => h.admitted wr (List.mem_of_mem_eraseIdx hwr), h.sound,
      fun hr => absurd (hready.symm.trans hr) nofun, fun _ => nofun, nofun, nofun,
      fun _ hv => absurd (hinvalid.symm.trans hv) nofun⟩
  · have hend : w.state.framebufferWriteEnd = { w.state with
        kernelWriters := dropWriter w.state.kernelWriters } := by
      unfold framebufferWriteEnd
      rw [if_neg hdrain]
    rw [hend]
    refine ⟨hcount, fun wr hwr => h.admitted wr (List.mem_of_mem_eraseIdx hwr), h.sound,
      fun hr => absurd (hready.symm.trans hr) nofun, h.ready, h.firmware, fun hf => ?_, h.retired⟩
    refine ⟨(h.retiring hf).1, fun hnil => hdrain ⟨BitVec.eq_of_toNat_eq ?_, hf⟩⟩
    rw [hcount, show w.writers.eraseIdx i = [] from hnil]
    rfl

theorem step (hs : ScanoutStep w e w') : ScanoutInv w' := by
  cases hs with
  | call c => exact h.call (c.effect w.state)
  | enter call _ hb => exact h.enter call hb
  | refuse => exact h
  | draw i hi _ => exact h.draw hi _ _
  | leave i hi _ => exact h.leave hi

end

end ScanoutInv

/-! ### What one step may change -/

/-- The rules that every step of the system obeys. -/
structure ScanoutRules (w : ScanoutWorld) (e : ScanoutEvent) (w' : ScanoutWorld) : Prop where
  /-- The scanout state moves forward only. -/
  order : ReflTransGen FramebufferScanoutState.Next w.state.scanout w'.state.scanout
  /-- When it becomes RETIRED nobody is drawing any more. -/
  drained : w'.state.scanout = .retired → w.state.scanout ≠ .retired → w'.writers = []
  /-- An output becomes valid only when there is none, nobody draws and the kernel has the
  lease; it is the firmware's only at boot. -/
  published : w'.state.outputValid = true → w.state.outputValid = false →
    w.writers = [] ∧ w.state.directState = .kernel ∧
      (w.state.scanout = .unavailable ∨
        w.state.scanout = .retired ∧ e.identity? = some w'.state.outputIdentity)
  /-- So is every native or rescue output. -/
  installed : ∀ id, e.identity? = some id → w.writers = [] ∧ w.state.outputValid = false ∧
    w.state.directState = .kernel ∧ w'.state.outputValid = true ∧ w'.state.outputIdentity = id

namespace ScanoutInv

variable {w w' : ScanoutWorld} {memory : BitVec 64 → BitVec 32} {es : List ScanoutEvent}

/-- A step that keeps the scanout state and publishes nothing. -/
theorem rules_of_same (hs : w'.state.scanout = w.state.scanout)
    (hv : w'.state.outputValid = true → w.state.outputValid = true) (he : e.identity? = none) :
    ScanoutRules w e w' where
  order := hs ▸ .refl
  drained h1 h2 := absurd (hs ▸ h1) h2
  published h1 h2 := absurd (h2.symm.trans (hv h1)) nofun
  installed _ hid := absurd (he.symm.trans hid) nofun

theorem rules_call (h : ScanoutInv w) (c : ScanoutCall) {installed : Option (BitVec 64)}
    (he : ScanoutEffect w.state installed s') :
    ScanoutRules w (.call c installed) { w with state := s' } := by
  cases he with
  | lease hs => exact rules_of_same hs.scanout (hs.outputValid ▸ id) rfl
  | unset => exact rules_of_same rfl id rfl
  | firmware hr =>
    obtain ⟨hscan, -, hnil, hlease, -⟩ := h.unready hr
    exact ⟨hscan ▸ .single .boot, nofun, fun _ _ => ⟨hnil, hlease, .inl hscan⟩, nofun⟩
  | close hs => exact ⟨hs ▸ .single .close, nofun, nofun, nofun⟩
  | retire hs hw => exact ⟨hs ▸ .head .close (.single .drain), fun _ _ => h.idle.mp hw, nofun, nofun⟩
  | drain hs hw =>
    exact ⟨hs ▸ .single .drain, fun _ _ => h.idle.mp hw,
      fun h1 h2 => absurd (h2.symm.trans h1) nofun, nofun⟩
  | install hok =>
    obtain ⟨-, hscan, hvalid, hidle, hlease, -⟩ := hok
    have hnil := h.idle.mp hidle
    exact ⟨.refl, fun _ hne => absurd hscan hne, fun _ _ => ⟨hnil, hlease, .inr ⟨hscan, rfl⟩⟩,
      fun id hid => ⟨hnil, hvalid, hlease, rfl, Option.some.inj hid⟩⟩
  | revoke => exact rules_of_same rfl nofun rfl

theorem rules_leave (h : ScanoutInv w) (hi : w.writers[i]? = some wr) :
    ScanoutRules w .leave { w with
      state := w.state.framebufferWriteEnd
      writers := w.writers.eraseIdx i } := by
  have hinv := h.leave hi
  by_cases hdrain : dropWriter w.state.kernelWriters = 0 ∧ w.state.scanout = .retiring
  · have hscan : w.state.framebufferWriteEnd.scanout = .retired := if_pos hdrain
    refine ⟨?_, fun _ _ => hinv.idle.mp hdrain.1, fun h1 h2 => ?_, nofun⟩
    · rw [hscan, hdrain.2]
      exact .single .drain
    · exact absurd (h2.symm.trans h1) nofun
  · exact rules_of_same (if_neg hdrain) id rfl

theorem rules (h : ScanoutInv w) (hs : ScanoutStep w e w') : ScanoutRules w e w' := by
  cases hs with
  | call c => exact h.rules_call c (c.effect w.state)
  | enter call _ hb =>
    obtain ⟨-, rfl, -⟩ := framebufferWriteBegin_cases hb
    exact rules_of_same rfl id rfl
  | refuse => exact rules_of_same rfl id rfl
  | @draw wr d i hi hd =>
    exact rules_of_same rfl id (wr.identity?_event _)
  | leave i hi _ => exact h.rules_leave hi

theorem of_run (h : Run ScanoutStep (.boot memory) es w) : ScanoutInv w :=
  h.invariant boot fun _ _ _ hw hs => hw.step hs

end ScanoutInv

/-! ### Whole runs -/

section WholeRuns

variable {w w' : ScanoutWorld} {memory : BitVec 64 → BitVec 32} {es : List ScanoutEvent}

/-- Identities are given out in increasing order, and the next one is larger still. -/
structure IdentitiesIssued (es : List ScanoutEvent) (w : ScanoutWorld) : Prop where
  increasing : (es.filterMap ScanoutEvent.identity?).Pairwise (· < ·)
  next : w.state.nextOutputIdentity ≠ 0 →
    ∀ id ∈ es.filterMap ScanoutEvent.identity?, id < w.state.nextOutputIdentity

/-- `nextOutputIdentity` after a step. -/
theorem nextOutputIdentity_step (hs : ScanoutStep w e w') :
    (e.identity? = none ∧ w'.state.nextOutputIdentity = w.state.nextOutputIdentity) ∨
    (w.state.nextOutputIdentity ≠ 0 ∧ e.identity? = some w.state.nextOutputIdentity ∧
      w'.state.nextOutputIdentity = w.state.nextOutputIdentity + 1) := by
  cases hs with
  | call c =>
    have he := c.effect w.state
    generalize c.exec w.state = r at he
    obtain ⟨installed, s'⟩ := r
    cases he with
    | lease hs => exact .inl ⟨rfl, hs.nextOutputIdentity⟩
    | install hok => exact .inr ⟨hok.1, rfl, rfl⟩
    | _ => exact .inl ⟨rfl, rfl⟩
  | enter call _ hb =>
    obtain ⟨-, rfl, -⟩ := framebufferWriteBegin_cases hb
    exact .inl ⟨rfl, rfl⟩
  | refuse | leave i hi _ => exact .inl ⟨rfl, rfl⟩
  | @draw wr d i hi hd =>
    exact .inl ⟨wr.identity?_event _, rfl⟩

theorem issued_of_run (h : Run ScanoutStep (.boot memory) es w) : IdentitiesIssued es w := by
  refine h.history ⟨.nil, nofun⟩ ?_
  intro es w e w' ih hs
  obtain ⟨he, hnext⟩ | ⟨hne, he, hnext⟩ := nextOutputIdentity_step hs
  · have hsame : (es ++ [e]).filterMap ScanoutEvent.identity? =
        es.filterMap ScanoutEvent.identity? := by simp [he]
    exact ⟨hsame ▸ ih.increasing, by rw [hsame, hnext]; exact ih.next⟩
  · have hmore : (es ++ [e]).filterMap ScanoutEvent.identity? =
        es.filterMap ScanoutEvent.identity? ++ [w.state.nextOutputIdentity] := by simp [he]
    refine ⟨?_, ?_⟩
    · rw [hmore, List.pairwise_append]
      exact ⟨ih.increasing, List.pairwise_singleton _ _, fun a ha b hb =>
        List.mem_singleton.mp hb ▸ ih.next hne a ha⟩
    · rw [hmore, hnext]
      intro hne'
      -- the counter did not wrap, or installing would have stopped
      have hlt : w.state.nextOutputIdentity < w.state.nextOutputIdentity + 1 := by bv_omega
      exact List.forall_mem_append.mpr ⟨fun id hid => BitVec.lt_trans (ih.next hne id hid) hlt,
        List.forall_mem_singleton.mpr hlt⟩

/-- Every drawing function stands at a good place. -/
def ScanoutWorld.JobsOk (w : ScanoutWorld) : Prop :=
  ∀ wr ∈ w.writers, ∀ d, wr.job = some d → d.Ok wr.output

theorem entered_ok {call : DrawCall} (hcall : ¬ call.Empty ∧ ¬ call.Wraps out) :
    (Drawing.entered call).Ok out := by
  cases call with
  | fillRect x y width height color => exact ⟨fun h0 => hcall.1 (.inl h0), hcall.2⟩
  | pixel | fill | scrollUp | blitRgb332Row => trivial

/-- A step keeps the drawing functions at good places, and makes good stores. -/
theorem ScanoutWorld.JobsOk.step (h : w.JobsOk) (hinv : ScanoutInv w) (hs : ScanoutStep w e w') :
    w'.JobsOk ∧ ∀ out st, e = .store out st → st.InRows out := by
  cases hs with
  | call c | refuse => exact ⟨h, nofun⟩
  | enter call hcall hb =>
    refine ⟨?_, nofun⟩
    intro wr hwr d hd
    rcases List.mem_cons.mp hwr with rfl | hwr
    · obtain ⟨c, rfl, rfl⟩ := Option.map_eq_some_iff.mp hd
      exact entered_ok (hcall c rfl)
    · exact h wr hwr d hd
  | @draw wr d i hi hd =>
    have hmem := List.mem_of_getElem? hi
    have hout := hinv.admitted wr hmem
    have hok : d.Ok w.state.output := hout ▸ h wr hmem d hd
    have hgood : Drawing.Good w.state.output (d.step w.state w.memory) :=
      hok.step (hinv.sound (hinv.ready_of_writer hmem)).2
    refine ⟨?_, fun out st he => ?_⟩
    · intro wr' hwr' d' hd'
      rcases List.mem_or_eq_of_mem_set hwr' with hmem' | rfl
      · exact h wr' hmem' d' hd'
      · obtain rfl := Option.some.inj hd'
        exact hout ▸ hgood.2
    · cases hst : (d.step w.state w.memory).1 with
      | none => rw [hst] at he; cases he
      | some st' =>
        rw [hst] at he
        obtain ⟨rfl, rfl⟩ := ScanoutEvent.store.inj he
        exact hout ▸ hgood.1 _ hst
  | leave i hi _ => exact ⟨fun wr hwr => h wr (List.mem_of_mem_eraseIdx hwr), nofun⟩

theorem stores_inRows (h : Run ScanoutStep (.boot memory) es w) :
    ∀ out st, .store out st ∈ es → st.InRows out := by
  refine (h.history (P := fun es w => ScanoutInv w ∧ w.JobsOk ∧
    ∀ out st, .store out st ∈ es → st.InRows out) ⟨.boot, nofun, nofun⟩ ?_).2.2
  rintro es w e w' ⟨hinv, hjobs, hstores⟩ hs
  obtain ⟨hjobs', hstore⟩ := hjobs.step hinv hs
  refine ⟨hinv.step hs, hjobs', fun out st hmem => ?_⟩
  rcases List.mem_append.mp hmem with hmem | hmem
  · exact hstores out st hmem
  · exact hstore out st (List.mem_singleton.mp hmem).symm

/-- Once the firmware's output is being retired, only native and rescue outputs are ever
valid. -/
theorem firmware_stays_retired (hinv : ScanoutInv w)
    (hret : w.state.scanout = .retiring ∨ w.state.scanout = .retired)
    (hrun : Run ScanoutStep w es w') :
    w'.state.outputValid = true →
      (w'.state.outputKind = .native ∨ w'.state.outputKind = .rescue) ∧
        w'.state.outputIdentity ≠ 0 := by
  have hlast : ScanoutInv w' ∧ (w'.state.scanout = .retiring ∨ w'.state.scanout = .retired) := by
    refine hrun.invariant (P := fun w => ScanoutInv w ∧
      (w.state.scanout = .retiring ∨ w.state.scanout = .retired)) ⟨hinv, hret⟩ ?_
    intro w e w' hw hs
    refine ⟨hw.1.step hs, ?_⟩
    have horder := (hw.1.rules hs).order
    generalize w'.state.scanout = s' at horder
    induction horder with
    | refl => exact hw.2
    | tail _ hnext ih =>
      cases hnext with
      | boot | close => exact absurd ih (by simp)
      | drain => exact .inr rfl
  intro hv
  obtain hs | hs := hlast.2
  · exact absurd ((hlast.1.retiring hs).1.symm.trans hv) nofun
  · exact hlast.1.retired hs hv

/-- **Life of the scanout, and safety of its writers.** Every further step obeys the rules;
after retirement only native and rescue outputs are valid; identities grow; every active
writer still has the output that admitted it; and all stores go to pixels of the output that
admitted their writer. -/
theorem scanout_lifecycle (h : Run ScanoutStep (.boot memory) es w) :
    (∀ e w', ScanoutStep w e w' → ScanoutRules w e w') ∧
    ((w.state.scanout = .retiring ∨ w.state.scanout = .retired) →
      ∀ es' w', Run ScanoutStep w es' w' → w'.state.outputValid = true →
        (w'.state.outputKind = .native ∨ w'.state.outputKind = .rescue) ∧
          w'.state.outputIdentity ≠ 0) ∧
    (es.filterMap ScanoutEvent.identity?).Pairwise (· < ·) ∧
    (w.state.kernelWriters.toNat = w.writers.length ∧
      ∀ wr ∈ w.writers, wr.output = w.state.output) ∧
    ∀ out st, .store out st ∈ es → st.InRows out := by
  have hinv := ScanoutInv.of_run h
  exact ⟨fun e w' hs => hinv.rules hs, fun hret es' w' hrun => firmware_stays_retired hinv hret hrun,
    (issued_of_run h).increasing, ⟨hinv.count, hinv.admitted⟩, stores_inRows h⟩

end WholeRuns

/-- A framebuffer of 16 pages. -/
def pageExact (map : BootMemoryMap) : BootFramebuffer :=
  ⟨0x80000000, 0x10000, 64, 256, 64, 0, 0, 0, 0, 0, map⟩

namespace NativePixel

/-- The framebuffer in a map with one empty descriptor. -/
def boot : BootFramebuffer := pageExact ⟨0x1000, 40, 40, fun _ => ⟨0, 0, 0⟩⟩

def info : FramebufferInfo := boot.info (some framebufferMemoryTypeUndescribed)

/-- The firmware's output with `n` writers. -/
def firmware (n : BitVec 32) : ScanoutState :=
  { ScanoutState.boot.withFirmware info with kernelWriters := n }

/-- A writer that entered before the firmware's output was closed is still drawing. -/
def retiring : ScanoutState :=
  { firmware 1 with scanout := .retiring, outputValid := false, outputKind := .none }

/-- The native output with `n` writers. -/
def native (n : BitVec 32) : ScanoutState :=
  { firmware n with
    scanout := .retired, outputKind := .native, outputIdentity := 1, nextOutputIdentity := 2 }

def stores : List PixelStore := [⟨0x80000004, false, 7⟩, ⟨0x80000108, false, 9⟩]

variable {ws : List Writer} {d : Drawing} {memory : BitVec 64 → BitVec 32}

theorem call_step (c : ScanoutCall) {r : Option (BitVec 64)} (h : c.exec s = (r, s')) :
    ScanoutStep ⟨s, ws, memory⟩ (.call c r) ⟨s', ws, memory⟩ := by
  have hstep := ScanoutStep.call (w := ⟨s, ws, memory⟩) c
  rwa [h] at hstep

theorem draw_step (st : PixelStore) (h : d.step s memory = (some st, .leaving)) :
    ScanoutStep ⟨s, [⟨out, some d⟩], memory⟩ (.store out st)
      ⟨s, [⟨out, some .leaving⟩], PixelStore.write memory (some st)⟩ := by
  have hstep := ScanoutStep.draw (w := ⟨s, [⟨out, some d⟩], memory⟩) 0 rfl rfl
  rwa [h] at hstep

end NativePixel

open NativePixel in
/-- A writer draws on while the firmware's output is retired; a native output follows, with a
writer of its own. -/
theorem scanout_lifecycle_nativePixel : ∃ es w, Run ScanoutStep (.boot fun _ => 0) es w ∧
    w.state = native 1 ∧ es.filterMap ScanoutEvent.identity? = [1] ∧
    ∀ st ∈ stores, .store info st ∈ es ∧ st.InRows info := by
  have hready : Run ScanoutStep (.boot fun _ => 0) _ ⟨firmware 0, [], fun _ => 0⟩ :=
    .single (call_step (.init 2 (some boot)) (show _ = (none, _) by decide +kernel))
  have hentered := hready.snoc (.enter (some (.pixel 1 0 7))
    (by simp [DrawCall.Empty, DrawCall.Wraps]) (show _ = (true, firmware 1) by decide +kernel))
  have hretiring := hentered.snoc
    (call_step .retire (show _ = (none, retiring) by decide +kernel))
  have hdrawn := hretiring.snoc (draw_step ⟨0x80000004, false, 7⟩ (by rfl))
  have hretired := hdrawn.snoc (.leave 0 rfl (.inr rfl))
  have hnative := hretired.snoc
    (call_step (.install (some info) false) (show _ = (some 1, native 0) by decide +kernel))
  have hopen := hnative.snoc (.enter (some (.pixel 2 1 9))
    (by simp [DrawCall.Empty, DrawCall.Wraps]) (show _ = (true, native 1) by decide +kernel))
  have hrun := hopen.snoc (draw_step ⟨0x80000108, false, 9⟩ (by rfl))
  have hrows := (scanout_lifecycle hrun).2.2.2.2 info
  refine ⟨_, _, hrun, rfl, rfl, fun st hst => (and_iff_left_of_imp (hrows st)).mpr ?_⟩
  obtain rfl | rfl := List.mem_pair.mp hst <;> simp [firmware, native, withFirmware]

end JcosKernel
