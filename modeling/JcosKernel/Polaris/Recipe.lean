import JcosKernel.Polaris.Plane

/-!
# JcosKernel.Polaris.Recipe

**One recipe, computed twice.** The driver in Ring 3 derives the five tagged values of a recipe
(`user/drivers/amd_polaris_plane.c`); the preview of the kernel (`Polaris.Plane`) derives them again
and accepts nothing else, in no other order.

The two sides check a witness differently: the kernel collects blockers and looks for absent
registers, the driver returns at the first mask that fails and has no such check. An absent register
reads as all ones, and each of the masks refuses that (`sampleBlockers_eq_nil`).
-/

namespace JcosKernel.Polaris

/-- `PolarisDisplayObservation`. -/
structure DisplayObservation where
  surfaceGpuAddress : BitVec 64
  linearSpanBytes : BitVec 64
  surfaceWidth : BitVec 32
  surfaceHeight : BitVec 32
  pitchPixels : BitVec 32
  depth : BitVec 32
  format : BitVec 32
  arrayMode : BitVec 32
  restrictions : BitVec 32

/-- The observation is not the one profile the driver programs. -/
def DisplayObservation.Refused (o : DisplayObservation) : Prop :=
  o.restrictions ≠ 0 ∨ o.depth ≠ 2 ∨ o.format ≠ 0 ∨ o.arrayMode > 1 ∨ o.surfaceWidth ≠ 1024 ∨
    o.surfaceHeight ≠ 768 ∨ o.pitchPixels ≠ 1024 ∨ o.linearSpanBytes ≠ 0x300000 ∨
    o.surfaceGpuAddress &&& 255 ≠ 0 ∨ o.surfaceGpuAddress > (1 <<< 40) - o.linearSpanBytes

instance (o : DisplayObservation) : Decidable o.Refused := inferInstanceAs (Decidable (_ ∨ _))

/-- What the driver refuses in a sample. -/
def PlaneWitness.SampleRefused (w : PlaneWitness) (s : Fin 2) : Prop :=
  w.values s .update &&& ~~~updateTaken ≠ 0 ∨
    w.values s .flipControl &&& ~~~grphSurfaceUpdatePendingModeMask ≠ 0 ∨
    w.values s .frameCount &&& ~~~crtcFrameCountMask ≠ 0

instance (w : PlaneWitness) (s : Fin 2) : Decidable (w.SampleRefused s) :=
  inferInstanceAs (Decidable (_ ∨ _))

/-- Operation, field and value of a step. -/
def recipeContent (o : DisplayObservation) (w : PlaneWitness) (index : Nat) :
    Nat × Nat × BitVec 32 :=
  if index < 2 then
    (1, if index ≠ 0 then DisplayRegister.primaryLow.number else DisplayRegister.primaryHigh.number,
      if index ≠ 0 then o.surfaceGpuAddress.setWidth 32
      else (o.surfaceGpuAddress >>> 32).setWidth 32)
  else if index = 2 then
    (2, DisplayRegister.primaryLow.number, o.surfaceGpuAddress.setWidth 32)
  else if index = 3 then (3, WitnessRegister.update.number, 0)
  else (4, WitnessRegister.frameCount.number, w.values 1 .frameCount)

/-- `polaris_plane_recipe_step`: tag and value, if it succeeds. -/
def polarisPlaneRecipeStep (o : DisplayObservation) (w : PlaneWitness) (pipe : BitVec 32)
    (index : Nat) : Option (BitVec 64 × BitVec 32) :=
  if displayPipeCount ≤ pipe.toNat ∨ 5 ≤ index ∨ o.Refused then none
  else if w.SampleRefused 0 ∨ w.SampleRefused 1 then none
  else if w.values 0 .flipControl ≠ w.values 1 .flipControl then none
  else if w.frames = 0 ∨ w.frames > 512 then none
  else
    let (operation, field, value) := recipeContent o w index
    let tag := jcosPolarisPlaneTag index operation pipe field
    if tag = 0 then none else some (tag, value)

/-- The 1024x768 linear 32-bit surface at an address, in one of the two linear array modes. -/
def linearProfile (gpu : BitVec 64) (mode : BitVec 32) : DisplayObservation where
  surfaceGpuAddress := gpu
  linearSpanBytes := 0x300000
  surfaceWidth := 1024
  surfaceHeight := 768
  pitchPixels := 1024
  depth := 2
  format := 0
  arrayMode := mode
  restrictions := 0

/-- The arguments of one `polaris_plane_preview_accept`. -/
structure Proposal where
  incarnation : BitVec 64
  observationId : BitVec 64
  tag : BitVec 64
  value : BitVec 64
deriving DecidableEq

/-- What the preview answers to one proposal after another. -/
def PlanePreview.answers : PlanePreview → List Proposal → List Bool
  | _, [] => []
  | v, p :: ps =>
    let (ok, v') := polarisPlanePreviewAccept v p.incarnation p.observationId p.tag p.value
    ok :: v'.answers ps

/-! ## The two checks of a witness -/

variable {v : PlanePreview} {w : PlaneWitness} {index n : Nat}

theorem sampleBlockers_eq_nil {s : Fin 2} : w.sampleBlockers s = [] ↔ ¬ w.SampleRefused s := by
  have habsent : ¬ w.SampleRefused s →
      WitnessRegister.all.any (fun f => w.values s f == absentValue) = false := by
    intro h
    simp only [PlaneWitness.SampleRefused, not_or] at h
    obtain ⟨hu, hf, hc⟩ := h
    rw [List.any_eq_false]
    intro f _ hbeq
    have hones : w.values s f = absentValue := eq_of_beq hbeq
    cases f with
    | update => rw [hones] at hu; exact absurd hu (by decide)
    | flipControl => rw [hones] at hf; exact absurd hf (by decide)
    | frameCount => rw [hones] at hc; exact absurd hc (by decide)
  constructor
  · intro h
    simp only [PlaneWitness.sampleBlockers, List.append_eq_nil_iff, ite_eq_right_iff, reduceCtorEq] at h
    simp only [PlaneWitness.SampleRefused, not_or]
    exact ⟨h.1.1.2, h.1.2, h.2⟩
  · intro h
    have hall := h
    simp only [PlaneWitness.SampleRefused, not_or] at hall
    simp only [PlaneWitness.sampleBlockers, habsent h, if_neg hall.1, if_neg hall.2.1,
      if_neg hall.2.2, Bool.false_eq_true, if_false, List.append_nil]

theorem polarisPlaneBlockers_eq_nil :
    polarisPlaneBlockers w = [] ↔ ¬ (w.SampleRefused 0 ∨ w.SampleRefused 1) ∧
      w.values 0 .flipControl = w.values 1 .flipControl ∧ ¬ (w.frames = 0 ∨ w.frames > 512) := by
  simp only [polarisPlaneBlockers, List.append_eq_nil_iff, sampleBlockers_eq_nil, not_or,
    ite_eq_right_iff, reduceCtorEq, imp_false, not_not, and_assoc]

variable {incarnation observationId gpu : BitVec 64} {pipe mode : BitVec 32}

theorem linearProfile_refused (hm : mode ≤ 1) :
    (linearProfile gpu mode).Refused ↔ surfaceRefused gpu := by
  have hmode : ¬ mode > 1 := BitVec.not_lt.mpr hm
  simp only [DisplayObservation.Refused, linearProfile, hmode, ne_eq, not_true_eq_false, false_or]
  rfl

/-- The tag of a step is never zero. -/
theorem planeTag_ne_zero (hp : pipe.toNat < displayPipeCount) (hi : index < 5) :
    jcosPolarisPlaneTag index (recipeOperation index) pipe (recipeField index) ≠ 0 := by
  have hcases : ∀ p < 6, ∀ i < 5,
      jcosPolarisPlaneTag i (recipeOperation i) (BitVec.ofNat 32 p) (recipeField i) ≠ 0 := by decide
  have h := hcases pipe.toNat hp index hi
  rwa [BitVec.ofNat_toNat] at h

/-- The proposal the preview waits for at a step. -/
def PlanePreview.proposal (v : PlanePreview) (n : Nat) : Proposal where
  incarnation := v.incarnation
  observationId := v.observationId
  tag := jcosPolarisPlaneTag n (recipeOperation n) v.pipe (recipeField n)
  value := ({ v with next := n } : PlanePreview).expected.setWidth 64

/-- The preview before step `n`. -/
def PlanePreview.before (v : PlanePreview) (n : Nat) : PlanePreview :=
  { v with next := n, closed := n == 5 }

/-- What `polaris_plane_preview_init` has checked. -/
structure PlanePreview.Checked (v : PlanePreview) : Prop where
  incarnation : v.incarnation ≠ 0
  observationId : v.observationId ≠ 0
  pipe : v.pipe.toNat < displayPipeCount
  surface : ¬ surfaceRefused v.gpuAddress
  frame : ¬ v.frameCount > crtcFrameCountMask

/-- A word with no bit outside of the mask is not above it. -/
theorem not_gt_frameCountMask {x : BitVec 32} (h : x &&& ~~~crtcFrameCountMask = 0) :
    ¬ x > crtcFrameCountMask := by
  have hx : x = x &&& crtcFrameCountMask := by
    have hsplit : x = (x &&& crtcFrameCountMask) ||| (x &&& ~~~crtcFrameCountMask) := by
      have hall : crtcFrameCountMask ||| ~~~crtcFrameCountMask = BitVec.allOnes 32 := by decide
      rw [← BitVec.and_or_distrib_left, hall, BitVec.and_allOnes]
    rw [h] at hsplit
    exact hsplit.trans BitVec.or_zero
  have hle : (x &&& crtcFrameCountMask).toNat ≤ crtcFrameCountMask.toNat := by
    exact Nat.and_le_right
  rw [← hx] at hle
  exact BitVec.not_lt.mpr hle

theorem polarisPlanePreviewInit_eq (hi : incarnation ≠ 0) (ho : observationId ≠ 0) :
    polarisPlanePreviewInit incarnation observationId gpu pipe w =
      if displayPipeCount ≤ pipe.toNat ∨ surfaceRefused gpu ∨ polarisPlaneBlockers w ≠ [] then none
      else some { incarnation, observationId, gpuAddress := gpu, pipe,
                  frameCount := w.values 1 .frameCount, closed := false } := by
  simp only [polarisPlanePreviewInit, hi, ho, false_or]

/-- The branches of the driver are the tables of the kernel. -/
theorem recipeContent_eq (hf : v.frameCount = w.values 1 .frameCount) (hx : index < 5) :
    recipeContent (linearProfile v.gpuAddress mode) w index =
      (recipeOperation index, recipeField index,
        ({ v with next := index } : PlanePreview).expected) := by
  obtain rfl | rfl | rfl | rfl | rfl :
      index = 0 ∨ index = 1 ∨ index = 2 ∨ index = 3 ∨ index = 4 := by omega
  · rfl
  · rfl
  · rfl
  · rfl
  · exact congrArg (fun value => (_, _, value)) hf.symm

/-- The driver's step in the kernel's terms. -/
theorem polarisPlaneRecipeStep_eq (hi : incarnation ≠ 0) (ho : observationId ≠ 0) (hm : mode ≤ 1)
    (hx : index < 5) :
    polarisPlaneRecipeStep (linearProfile gpu mode) w pipe index =
      (polarisPlanePreviewInit incarnation observationId gpu pipe w).map fun v =>
        ((v.proposal index).tag, ({ v with next := index } : PlanePreview).expected) := by
  rw [polarisPlanePreviewInit_eq hi ho]
  unfold polarisPlaneRecipeStep
  simp only [linearProfile_refused hm, Nat.not_le.mpr hx, false_or]
  by_cases hbad : displayPipeCount ≤ pipe.toNat ∨ surfaceRefused gpu
  · rw [if_pos hbad, if_pos (hbad.imp id .inl)]
    rfl
  rw [if_neg hbad]
  by_cases hblock : polarisPlaneBlockers w = []
  · obtain ⟨hs, hf, hfr⟩ := polarisPlaneBlockers_eq_nil.mp hblock
    simp only [not_or] at hbad
    have hp : pipe.toNat < displayPipeCount := Nat.not_le.mp hbad.1
    have hinit : ¬ (displayPipeCount ≤ pipe.toNat ∨ surfaceRefused gpu ∨
        polarisPlaneBlockers w ≠ []) := by
      simp only [not_or, not_not]
      exact ⟨hbad.1, hbad.2, hblock⟩
    rw [if_neg hs, if_neg (not_not.mpr hf), if_neg hfr, if_neg hinit,
      recipeContent_eq (v :=
        ⟨incarnation, observationId, gpu, pipe, w.values 1 .frameCount, 0, false⟩) rfl hx]
    exact if_neg (planeTag_ne_zero hp hx)
  · have hinit : displayPipeCount ≤ pipe.toNat ∨ surfaceRefused gpu ∨ polarisPlaneBlockers w ≠ [] :=
      .inr (.inr hblock)
    split
    · rfl
    · split
      · rfl
      · split
        · rfl
        · next hs hf hfr =>
          exact absurd (polarisPlaneBlockers_eq_nil.mpr ⟨hs, not_not.mp hf, hfr⟩) hblock

/-! ## What the preview accepts -/

theorem polarisPlanePreviewInit_checked (hi : incarnation ≠ 0) (ho : observationId ≠ 0)
    (h : polarisPlanePreviewInit incarnation observationId gpu pipe w = some v) :
    v.Checked ∧ v = v.before 0 ∧ v.incarnation = incarnation ∧ v.observationId = observationId := by
  rw [polarisPlanePreviewInit_eq hi ho] at h
  split at h
  · cases h
  · next hok =>
    cases h
    simp only [not_or, not_not] at hok
    obtain ⟨hp, hs, hb⟩ := hok
    have hframe : ¬ w.SampleRefused 1 := fun h =>
      (polarisPlaneBlockers_eq_nil.mp hb).1 (.inr h)
    simp only [PlaneWitness.SampleRefused, not_or, not_not] at hframe
    exact ⟨⟨hi, ho, Nat.not_le.mp hp, hs, not_gt_frameCountMask hframe.2.2⟩, rfl, rfl, rfl⟩

theorem accept_before (hv : v.Checked) (hn : n < 5) (p : Proposal) :
    polarisPlanePreviewAccept (v.before n) p.incarnation p.observationId p.tag p.value =
      if p = v.proposal n then (true, v.before (n + 1))
      else (false, { v.before n with closed := true }) := by
  have hopen : (v.before n).closed = false := by
    simp only [PlanePreview.before, beq_eq_false_iff_ne]
    omega
  have hsound : ¬ (v.incarnation = 0 ∨ v.observationId = 0 ∨ displayPipeCount ≤ v.pipe.toNat ∨
      surfaceRefused v.gpuAddress ∨ v.frameCount > crtcFrameCountMask ∨ 5 ≤ n) := by
    simp only [not_or, Nat.not_le]
    exact ⟨hv.incarnation, hv.observationId, hv.pipe, hv.surface, hv.frame, hn⟩
  simp only [not_or] at hsound
  obtain ⟨i, o, t, x⟩ := p
  unfold polarisPlanePreviewAccept
  rw [hopen]
  simp only [PlanePreview.before, hsound, false_or, Bool.false_eq_true, if_false,
    PlanePreview.proposal, Proposal.mk.injEq]
  by_cases hid : v.incarnation = i ∧ v.observationId = o
  · obtain ⟨rfl, rfl⟩ := hid
    simp only [ne_eq, not_true_eq_false, or_self, if_false, true_and]
    by_cases hval : t = jcosPolarisPlaneTag n (recipeOperation n) v.pipe (recipeField n) ∧
        x = ({ v with next := n } : PlanePreview).expected.setWidth 64
    · rw [if_pos hval]
      exact if_neg fun h => h.elim (· hval.1) (· hval.2)
    · rw [if_neg hval]
      exact if_pos (not_and_or.mp hval)
  · rw [if_pos (not_and_or.mp hid), if_neg fun h => hid ⟨h.1.symm, h.2.1.symm⟩]

theorem answers_closed (hv : v.closed = true) (ps : List Proposal) (k : Nat) :
    (v.answers ps)[k]? ≠ some true := by
  induction ps generalizing k with
  | nil => simp [PlanePreview.answers]
  | cons p ps ih =>
    have hstep : polarisPlanePreviewAccept v p.incarnation p.observationId p.tag p.value =
        (false, v) := by
      unfold polarisPlanePreviewAccept
      rw [if_pos hv]
    simp only [PlanePreview.answers, hstep]
    cases k with
    | zero => simp
    | succ k => simpa using ih k

/-- From step `n` on, a proposal is accepted as long as all of them are the awaited ones. -/
theorem answers_before (hv : v.Checked) (hn : n ≤ 5) (ps : List Proposal) (k : Nat) :
    ((v.before n).answers ps)[k]? = some true ↔
      n + k < 5 ∧ ∀ j ≤ k, ps[j]? = some (v.proposal (n + j)) := by
  induction ps generalizing n k with
  | nil => simpa [PlanePreview.answers] using fun _ => ⟨0, Nat.zero_le k⟩
  | cons p ps ih =>
    rcases Nat.lt_or_eq_of_le hn with hlt | rfl
    swap
    · exact iff_of_false (answers_closed rfl _ _) fun h => by omega
    simp only [PlanePreview.answers, accept_before hv hlt]
    by_cases hp : p = v.proposal n
    · rw [if_pos hp]
      cases k with
      | zero => simp [hp, hlt]
      | succ k =>
        rw [List.getElem?_cons_succ, ih hlt k]
        refine and_congr (by omega) ⟨fun h j hj => ?_, fun h j hj => ?_⟩
        · cases j with
          | zero => simp [hp]
          | succ j =>
            rw [List.getElem?_cons_succ, h j (by omega), Nat.succ_add_eq_add_succ]
        · rw [← List.getElem?_cons_succ, h (j + 1) (by omega)]
          congr 2
          omega
    · rw [if_neg hp]
      refine iff_of_false ?_ fun h => hp (Option.some.inj (h.2 0 (Nat.zero_le k)))
      cases k with
      | zero => simp
      | succ k => exact answers_closed rfl ps k

/-- Driver and kernel accept the same surfaces, pipes and witnesses, at one step as at any other;
and of any proposals, in any order, the kernel accepts the driver's five as long as they come one
after another, and nothing after anything else. -/
theorem plane_recipe_agrees (hi : incarnation ≠ 0) (ho : observationId ≠ 0) (hm : mode ≤ 1)
    (gpu : BitVec 64) (pipe : BitVec 32) (w : PlaneWitness) :
    (∀ index < 5, (polarisPlaneRecipeStep (linearProfile gpu mode) w pipe index).isSome =
      (polarisPlanePreviewInit incarnation observationId gpu pipe w).isSome) ∧
    ∀ v, polarisPlanePreviewInit incarnation observationId gpu pipe w = some v →
      ∀ (ps : List Proposal) k,
      (v.answers ps)[k]? = some true ↔ k < 5 ∧ ∀ j ≤ k, ∃ tag value,
        polarisPlaneRecipeStep (linearProfile gpu mode) w pipe j = some (tag, value) ∧
        ps[j]? = some ⟨incarnation, observationId, tag, value.setWidth 64⟩ := by
  refine ⟨fun index hx => ?_, fun v hv ps k => ?_⟩
  · rw [polarisPlaneRecipeStep_eq hi ho hm hx, Option.isSome_map]
  · obtain ⟨hc, hstart, rfl, rfl⟩ := polarisPlanePreviewInit_checked hi ho hv
    have hanswers := answers_before hc (Nat.zero_le 5) ps k
    rw [← hstart, Nat.zero_add] at hanswers
    rw [hanswers]
    refine and_congr_right fun hk => forall₂_congr fun j hj => ?_
    rw [polarisPlaneRecipeStep_eq hi ho hm (by omega), hv, Nat.zero_add]
    constructor
    · exact fun h => ⟨_, _, rfl, h⟩
    · rintro ⟨tag, value, h, hps⟩
      cases h
      exact hps

/-- Two samples one frame apart. -/
def oneFrame : PlaneWitness where
  values s f := if f = .frameCount then BitVec.ofNat 32 s else 0

theorem plane_recipe_agrees_retained :
    (polarisPlanePreviewInit 1 7 retainedSurface 0 oneFrame).isSome = true ∧
      ∀ index < 5, (polarisPlaneRecipeStep (linearProfile retainedSurface 1) oneFrame 0
        index).isSome = true := by
  have hinit : (polarisPlanePreviewInit 1 7 retainedSurface 0 oneFrame).isSome = true := by decide
  have hagree := plane_recipe_agrees (show (1 : BitVec 64) ≠ 0 by decide)
    (show (7 : BitVec 64) ≠ 0 by decide) (show (1 : BitVec 32) ≤ 1 by decide) retainedSurface 0
    oneFrame
  exact ⟨hinit, fun index hx => (hagree.1 index hx).trans hinit⟩

end JcosKernel.Polaris
