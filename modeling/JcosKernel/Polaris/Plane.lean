import Mathlib.Algebra.Ring.Nat
import Mathlib.Data.List.FinRange
import JcosKernel.Lib.Loop

/-!
# JcosKernel.Polaris.Plane

**The recipe preview of one Polaris plane** (`kernel/polaris_plane.c`,
`include/polaris_plane_protocol.h`) and the plan built on it (`PolarisProgramPlan`).

The Ring 3 driver proposes five tagged values. The kernel compares each with the value it
derives itself from the retained surface: an accepted plan proposes the surface address and
nothing else (`PlanAccepted.high`, `PlanAccepted.low`), and its two witness samples agree on the
flip control (`PlanAccepted.flip`).
-/

namespace JcosKernel.Polaris

open Lib

/-! ## Registers -/

/-- `PolarisDisplayRegister`. -/
inductive DisplayRegister where
  | crtcControl
  | crtcBlank
  | crtcInterlace
  | grphEnable
  | grphControl
  | grphSwap
  | primaryLow
  | primaryHigh
  | pitch
  | offsetX
  | offsetY
  | xStart
  | yStart
  | xEnd
  | yEnd
deriving DecidableEq, Repr

/-- The enumerators in the order of the source. -/
def DisplayRegister.all : List DisplayRegister :=
  [.crtcControl, .crtcBlank, .crtcInterlace, .grphEnable, .grphControl, .grphSwap, .primaryLow,
    .primaryHigh, .pitch, .offsetX, .offsetY, .xStart, .yStart, .xEnd, .yEnd]

/-- The number of an enumerator. -/
def DisplayRegister.number (r : DisplayRegister) : Nat := DisplayRegister.all.idxOf r

/-- `PolarisPlaneWitnessRegister`. -/
inductive WitnessRegister where
  | update
  | flipControl
  | frameCount
deriving DecidableEq, Repr

/-- The enumerators in the order of the source. -/
def WitnessRegister.all : List WitnessRegister := [.update, .flipControl, .frameCount]

/-- The number of an enumerator. -/
def WitnessRegister.number (r : WitnessRegister) : Nat := WitnessRegister.all.idxOf r

/-- `POLARIS_DISPLAY_PIPE_COUNT`. -/
def displayPipeCount : Nat := 6

def crtcFrameCountMask : BitVec 32 := 0xFFFFFF
def grphModeUpdatePendingMask : BitVec 32 := 0x1
def grphModeUpdateTakenMask : BitVec 32 := 0x2
def grphSurfaceUpdatePendingMask : BitVec 32 := 0x4
def grphSurfaceUpdateTakenMask : BitVec 32 := 0x8
def grphSurfaceUpdatePendingModeMask : BitVec 32 := 0x20

/-- `taken`, as each of the three programs computes it. -/
def updateTaken : BitVec 32 := grphModeUpdateTakenMask ||| grphSurfaceUpdateTakenMask

/-- `pending`: an update that has not been taken yet. -/
def updatePending : BitVec 32 := grphModeUpdatePendingMask ||| grphSurfaceUpdatePendingMask

/-- `~0U`, what a device that does not answer reads as. -/
def absentValue : BitVec 32 := 0xFFFFFFFF

/-! ## Witnesses -/

instance neZero_samples : NeZero 2 := ⟨by decide⟩
instance neZero_steps : NeZero 5 := ⟨by decide⟩

/-- `PolarisPlaneWitness`: two samples of the three witness registers. -/
structure PlaneWitness where
  values : Fin 2 → WitnessRegister → BitVec 32

/-- The bits of `polaris_plane_blockers`. -/
inductive PlaneBlocker where
  | absent
  | update
  | flip
  | progress
deriving DecidableEq, Repr

/-- What the body of the loop over the samples finds in sample `s`. -/
def PlaneWitness.sampleBlockers (w : PlaneWitness) (s : Fin 2) : List PlaneBlocker :=
  (if WitnessRegister.all.any fun f => w.values s f == absentValue then [.absent] else []) ++
  (if w.values s .update &&& ~~~updateTaken ≠ 0 then [.update] else []) ++
  (if w.values s .flipControl &&& ~~~grphSurfaceUpdatePendingModeMask ≠ 0 then [.flip] else []) ++
  (if w.values s .frameCount &&& ~~~crtcFrameCountMask ≠ 0 then [.progress] else [])

/-- The frames between the two samples. -/
def PlaneWitness.frames (w : PlaneWitness) : BitVec 32 :=
  (w.values 1 .frameCount - w.values 0 .frameCount) &&& crtcFrameCountMask

/-- `polaris_plane_blockers`: the mask is the list of its bits. -/
def polarisPlaneBlockers (w : PlaneWitness) : List PlaneBlocker :=
  w.sampleBlockers 0 ++ w.sampleBlockers 1 ++
  (if w.values 0 .flipControl ≠ w.values 1 .flipControl then [.flip] else []) ++
  (if w.frames = 0 ∨ w.frames > 512 then [.progress] else [])

/-! ## The preview -/

/-- `PolarisPlanePreview`. -/
structure PlanePreview where
  incarnation : BitVec 64 := 0
  observationId : BitVec 64 := 0
  gpuAddress : BitVec 64 := 0
  pipe : BitVec 32 := 0
  frameCount : BitVec 32 := 0
  next : Nat := 0
  closed : Bool := true

/-- The range a surface address must lie in. -/
def surfaceRefused (gpu : BitVec 64) : Prop :=
  gpu &&& 255 ≠ 0 ∨ gpu > (1 <<< 40) - 0x300000

instance (gpu : BitVec 64) : Decidable (surfaceRefused gpu) :=
  inferInstanceAs (Decidable (_ ∨ _))

/-- `polaris_plane_preview_init`; `none` when it returns false. -/
def polarisPlanePreviewInit (incarnation observationId gpu : BitVec 64) (pipe : BitVec 32)
    (w : PlaneWitness) : Option PlanePreview :=
  if incarnation = 0 ∨ observationId = 0 ∨ displayPipeCount ≤ pipe.toNat ∨ surfaceRefused gpu ∨
      polarisPlaneBlockers w ≠ [] then none
  else some
    { incarnation, observationId, gpuAddress := gpu, pipe,
      frameCount := w.values 1 .frameCount, closed := false }

/-- `jcos_polaris_plane_tag`. -/
def jcosPolarisPlaneTag (index operation : Nat) (pipe : BitVec 32) (field : Nat) : BitVec 64 :=
  if 5 ≤ index ∨ displayPipeCount ≤ pipe.toNat ∨ operation = 0 ∨ 4 < operation ∨
      (if operation ≤ 2 then DisplayRegister.all.length else WitnessRegister.all.length) ≤ field
  then 0
  else
    (1 <<< 56) ||| (BitVec.ofNat 64 index <<< 40) ||| (BitVec.ofNat 64 operation <<< 32) |||
      (pipe.setWidth 64 <<< 16) ||| BitVec.ofNat 64 field

/-- The `operation` table of `polaris_plane_preview_accept`. -/
def recipeOperation : Nat → Nat
  | 0 => 1
  | 1 => 1
  | 2 => 2
  | 3 => 3
  | _ => 4

/-- The `field` table of `polaris_plane_preview_accept`. -/
def recipeField : Nat → Nat
  | 0 => DisplayRegister.primaryHigh.number
  | 1 => DisplayRegister.primaryLow.number
  | 2 => DisplayRegister.primaryLow.number
  | 3 => WitnessRegister.update.number
  | _ => WitnessRegister.frameCount.number

/-- The value the kernel derives for the next step of the recipe. -/
def PlanePreview.expected (p : PlanePreview) : BitVec 32 :=
  if p.next = 0 then (p.gpuAddress >>> 32).setWidth 32
  else if p.next ≤ 2 then p.gpuAddress.setWidth 32
  else if p.next = 3 then 0
  else p.frameCount

/-- `polaris_plane_preview_accept`. -/
def polarisPlanePreviewAccept (p : PlanePreview) (incarnation observationId tag value : BitVec 64) :
    Bool × PlanePreview :=
  if p.closed then (false, p)
  else if p.incarnation = 0 ∨ p.observationId = 0 ∨ displayPipeCount ≤ p.pipe.toNat ∨
      surfaceRefused p.gpuAddress ∨ p.frameCount > crtcFrameCountMask ∨ 5 ≤ p.next ∨
      p.incarnation ≠ incarnation ∨ p.observationId ≠ observationId then
    (false, { p with closed := true })
  else if tag ≠ jcosPolarisPlaneTag p.next (recipeOperation p.next) p.pipe (recipeField p.next) ∨
      value ≠ p.expected.setWidth 64 then
    (false, { p with closed := true })
  else (true, { p with next := p.next + 1, closed := p.next + 1 == 5 })

/-! ## Plans -/

/-- `PolarisProgramPlan`. -/
structure ProgramPlan where
  incarnation : BitVec 64
  observationId : BitVec 64
  gpuAddress : BitVec 64
  tags : Fin 5 → BitVec 64
  values : Fin 5 → BitVec 64
  witness : PlaneWitness
  pipe : BitVec 32
  crtc : BitVec 32
  consumed : Bool

/-- The only surface a plan may name. -/
def retainedSurface : BitVec 64 := 0xF400000000

/-- The only CRTC setting a plan may name. -/
def retainedCrtc : BitVec 32 := 0x80410311

/-- Turn `i` of the loop over the proposals. -/
def ProgramPlan.propose (p : ProgramPlan) (i : Fin 5) (v : PlanePreview) : Bool × PlanePreview :=
  polarisPlanePreviewAccept v p.incarnation p.observationId (p.tags i) (p.values i)

/-- The checks `polaris_program_execute` and `polaris_program_gate_init` both make of a plan
before anything else happens: the named surface, then the preview of all five proposals. -/
def ProgramPlan.accepted (p : ProgramPlan) : Bool :=
  if p.pipe ≠ 0 ∨ p.gpuAddress ≠ retainedSurface ∨ p.crtc ≠ retainedCrtc then false
  else
    match polarisPlanePreviewInit p.incarnation p.observationId p.gpuAddress p.pipe p.witness with
    | none => false
    | some v => (each p.propose (List.finRange 5) v).1

/-- What the programs rely on in an accepted plan. -/
structure PlanAccepted (p : ProgramPlan) : Prop where
  surface : p.gpuAddress = retainedSurface
  crtc : p.crtc = retainedCrtc
  high : (p.values 0).setWidth 32 = 0xF4
  low : (p.values 1).setWidth 32 = 0
  flip : p.witness.values 0 .flipControl = p.witness.values 1 .flipControl

theorem polarisPlanePreviewAccept_true {p p' : PlanePreview} {i o tag value : BitVec 64}
    (h : polarisPlanePreviewAccept p i o tag value = (true, p')) :
    value = p.expected.setWidth 64 ∧ p'.next = p.next + 1 ∧ p'.gpuAddress = p.gpuAddress := by
  unfold polarisPlanePreviewAccept at h
  split at h
  · cases h
  · split at h
    · cases h
    · split at h
      · cases h
      · next hne =>
        cases h
        exact ⟨not_not.mp fun hv => hne (.inr hv), rfl, rfl⟩

theorem polarisPlanePreviewInit_some {i o g : BitVec 64} {pipe : BitVec 32} {w : PlaneWitness}
    {v : PlanePreview} (h : polarisPlanePreviewInit i o g pipe w = some v) :
    v.next = 0 ∧ v.gpuAddress = g ∧ w.values 0 .flipControl = w.values 1 .flipControl := by
  unfold polarisPlanePreviewInit at h
  split at h
  · cases h
  · next hno =>
    cases h
    refine ⟨rfl, rfl, not_not.mp fun hne => hno ?_⟩
    -- a difference of the two samples would be one of the blockers
    simp [polarisPlaneBlockers, hne]

theorem ProgramPlan.accepted_spec {p : ProgramPlan} (h : p.accepted = true) : PlanAccepted p := by
  unfold ProgramPlan.accepted at h
  split at h
  · cases h
  · next hplan =>
    simp only [not_or, not_not] at hplan
    obtain ⟨-, hsurface, hcrtc⟩ := hplan
    split at h
    · cases h
    · next v hv =>
      obtain ⟨hnext, hgpu, hflip⟩ := polarisPlanePreviewInit_some hv
      have hrange : List.finRange 5 = 0 :: 1 :: [2, 3, 4] := by decide
      rw [hrange] at h
      rcases h0 : p.propose 0 v with ⟨_ | _, v1⟩
      · rw [each_cons_false h0] at h
        cases h
      · rw [each_cons_true h0] at h
        rcases h1 : p.propose 1 v1 with ⟨_ | _, v2⟩
        · rw [each_cons_false h1] at h
          cases h
        · obtain ⟨hval0, hnext1, hgpu1⟩ := polarisPlanePreviewAccept_true h0
          obtain ⟨hval1, -, -⟩ := polarisPlanePreviewAccept_true h1
          refine ⟨hsurface, hcrtc, ?_, ?_, hflip⟩
          · rw [hval0, PlanePreview.expected, if_pos hnext, hgpu, hsurface]
            decide
          · rw [hval1, PlanePreview.expected, if_neg (by omega), if_pos (by omega), hgpu1,
              hgpu, hsurface]
            decide

end JcosKernel.Polaris
