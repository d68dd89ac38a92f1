import JcosKernel.Space.Runs

/-!
# JcosKernel.Space.Coherence

How far user address spaces see what the kernel maps.

The kernel half of the address range is PML4 slot 0 and the slots from 256 on. A user address
space gets the kernel's PML4 entries for these slots when it is created, and nothing updates
them. So it sees the kernel's pages, also later ones, exactly through the entries of that moment
(`kernel_half_through_entries`): a slot that was empty then stays empty, and one that was not
open to users then stays closed to them.
-/

namespace JcosKernel

open Lib VmState SpaceVm

/-- The address lies in a slot that user address spaces share with the kernel. -/
def KernelAddress (va : Nat) : Prop :=
  (pml4Index va).val = 0 ∨ userPml4End ≤ (pml4Index va).val

instance (va : Nat) : Decidable (KernelAddress va) := inferInstanceAs (Decidable (_ ∨ _))

variable {σ : Type} {P : FramePool σ} {cpu : Cpu} {s s₀ s₁ s₂ : SpaceVm σ} {a : SpaceRef} {va : Nat}
  {es es₀ : List SpaceEvent}

namespace SpaceVm

/-- The kernel's PML4 entry for an address. -/
def kernelEntry (s : SpaceVm σ) (va : Nat) : Pte := s.vm.entryAt s.kernelMap [] (pml4Index va)

/-- Every address space translates the kernel half as the kernel's does. -/
def KernelHalfCoherent (s : SpaceVm σ) : Prop :=
  ∀ a va, s.SpaceStorageLive a → KernelAddress va →
    s.addressSpaceQueryPage a va = s.addressSpaceQueryPage s.kernelSpace va

theorem SpaceInv.not_own_of_kernelAddress (h : SpaceInv P s) (ha : s.SpaceStorageLive a)
    (hne : a ≠ s.kernelSpace) (hva : KernelAddress va) :
    ¬ s.vm.forest.own (.space a) (pml4Index va) := by
  intro hown
  have hrange := h.userRange a ha hne
  have hlt : userPml4First ≤ (pml4Index va).val ∧ (pml4Index va).val < userPml4End := by
    rw [← hrange.1, ← hrange.2]
    exact hown
  simp only [userPml4First, KernelAddress] at hlt hva
  omega

/-- In any state, the kernel half is seen through the entries that the map has. -/
theorem SpaceInv.query_kernelAddress (h : SpaceInv P s) (ha : s.SpaceStorageLive a)
    (hne : a ≠ s.kernelSpace) (hk : s.SpaceStorageLive s.kernelSpace) (hva : KernelAddress va) :
    s.addressSpaceQueryPage a va =
      throughEntry (s.vm.entryAt (.space a) [] (pml4Index va))
        (s.addressSpaceQueryPage s.kernelSpace va) := by
  unfold addressSpaceQueryPage
  rw [if_neg (not_not_intro ha), if_neg (not_not_intro hk)]
  exact vmmQueryPage_shared h.vm (h.live a ha) h.source (h.not_own_of_kernelAddress ha hne hva)

end SpaceVm

/-- An entry that is present and grants what its source grants hides nothing. -/
theorem throughEntry_eq_self {e : Pte} {page : Option (Nat × VmFlags)} (he : Has e ptePresent)
    (hu : ∀ p ∈ page, Has p.2 vmUser → Has e pteUser) : throughEntry e page = page := by
  rw [throughEntry, if_pos he]
  rcases page with _ | ⟨frame, flags⟩
  · rfl
  · simp only [Option.map_some, Option.some.injEq, Prod.mk.injEq, true_and]
    split_ifs with hue
    · rfl
    · have hnot : ¬ Has flags vmUser := fun hf => hue (hu _ rfl hf)
      have hzero : flags &&& vmUser = 0 := not_not.mp hnot
      ext i hi
      have hbit := congrArg (·[i]) hzero
      grind

/-- From its creation on, and as long as it is not destroyed, a user address space translates
the kernel half as the kernel's does, through the PML4 entries that the kernel had at its
creation. -/
theorem kernel_half_through_entries (h₀ : SpaceBoot s₀) (hrun₀ : Run (SpaceStep P) s₀ es₀ s₁)
    (hcreate : SpaceStep P s₁ (.call cpu (.create a) (.done true)) s₂)
    (hrun : Run (SpaceStep P) s₂ es s) (hes : ∀ e ∈ es, e.Spares a) :
    ∀ va, KernelAddress va →
      s.addressSpaceQueryPage a va =
          throughEntry (s₁.kernelEntry va) (s.addressSpaceQueryPage s.kernelSpace va) ∧
        (Has (s₁.kernelEntry va) ptePresent →
          (∀ p ∈ s.addressSpaceQueryPage s.kernelSpace va,
            Has p.2 vmUser → Has (s₁.kernelEntry va) pteUser) →
          s.addressSpaceQueryPage a va = s.addressSpaceQueryPage s.kernelSpace va) := by
  intro va hva
  obtain ⟨h₁, hk₁⟩ := spaceInv_of_run (.boot h₀) hrun₀
  have w := (hcreate.effect h₁).touches
  -- what creation left
  have created : Created a s₁ s₂ := by
    cases hcreate with
    | call cpu hr =>
      rw [SpaceCall.exec] at hr
      obtain ⟨r, hb, hdone⟩ := map_eq_mk hr
      cases hdone
      obtain ⟨-, ⟨⟨⟩, -⟩ | ⟨-, created⟩⟩ := addressSpaceCreate_cases h₁ hb
      exact created
  obtain ⟨h, hk⟩ := spaceInv_of_run w.inv hrun
  obtain ⟨ha, hroot⟩ := spared_of_run w.inv created.live hrun hes
  have hkernel : s.kernelSpace = s₁.kernelSpace := hk.trans w.kernelSpace
  have hne : a ≠ s.kernelSpace := hkernel ▸ created.user
  -- the kernel was there before, and it is never destroyed
  have hready₁ : s₁.SpaceStorageLive s₁.kernelSpace := h₁.ready.mp created.ready
  have hready₂ : s₂.SpaceStorageLive s₁.kernelSpace :=
    (w.live _ (by simpa [SpaceEvent.target, SpaceCall.target] using created.user)).mpr hready₁
  have hready : s.SpaceStorageLive s.kernelSpace := by
    rw [hk]
    exact kernel_of_run w.inv (w.kernelSpace.symm ▸ hready₂) hrun
  have hown : ¬ s₂.vm.forest.own (.space a) (pml4Index va) := by
    rw [← hroot.own]
    exact h.not_own_of_kernelAddress ha hne hva
  have hquery := h.query_kernelAddress ha hne hready hva
  rw [hroot.entry _ hown, created.entry _ hva] at hquery
  refine ⟨hquery, fun hp hu => ?_⟩
  rw [hquery]
  exact throughEntry_eq_self hp hu

/-! ### A run on sixteen pages of memory -/

/-- A call and its event. -/
def execSpaceCall (P : FramePool σ) (c : Cpu × SpaceCall) (s : SpaceVm σ) : SpaceEvent × SpaceVm σ :=
  (.call c.1 c.2 (c.2.exec P c.1 s).1, (c.2.exec P c.1 s).2)

theorem run_of_execSpaceCalls (cs : List (Cpu × SpaceCall)) :
    Run (SpaceStep P) s (execAll (execSpaceCall P) cs s).1 (execAll (execSpaceCall P) cs s).2 :=
  .of_execAll (P := fun _ => True) trivial fun c _ _ _ => ⟨.call c.1 rfl, trivial⟩

theorem step_of_create (h : (s.addressSpaceCreate P cpu a).1 = true) :
    SpaceStep P s (.call cpu (.create a) (.done true)) (s.addressSpaceCreate P cpu a).2 := by
  rcases hr : s.addressSpaceCreate P cpu a with ⟨r, s'⟩
  rw [hr] at h
  cases h
  refine .call cpu ?_
  rw [SpaceCall.exec, hr]
  rfl

/-- The frames of `smallMap`; no failure is ever armed. -/
def smallFrames : FramePool (PmmPool smallPmm) where
  toAllocator := pmmFrames smallPmm
  freeFailureArmed _ := false
  failFreeOnce _ pool := pool
  failFreeOnce_allocated _ _ := rfl

/-- No address space yet; the kernel's will be at 0. -/
def smallSpaces : SpaceVm (PmmPool smallPmm) where
  vm := {
    map := fun _ => .invalid
    table := fun _ _ => 0
    pmm := smallPool
    unlinkedTable := none
    faults := fun _ => .clear
    usePhysMap := false
    nxEnabled := true }
  space _ := ⟨0, false, 0⟩
  kernelSpace := 0
  kernelReady := false
  nextId := 0
  storage := Slots.empty
  createFault := none

theorem smallSpaces_boot : SpaceBoot smallSpaces :=
  ⟨⟨fun _ => rfl, rfl⟩, fun _ => rfl, rfl, rfl⟩

/-- The kernel's map is active. -/
def kernelCpu : Cpu := { plainCpu with cr3 := framePte 0x101 }

/-- The kernel maps a page in slot 0. -/
def kernelPage : List (Cpu × SpaceCall) :=
  [(plainCpu, .kernelInit), (kernelCpu, .map 0 0x400000 0x500 vmWrite)]

/-- With a user address space around, the kernel maps one more page there and one in slot 288. -/
def kernelPages : List (Cpu × SpaceCall) :=
  [(kernelCpu, .map 0 0x401000 0x501 vmWrite), (kernelCpu, .map 0 0xFFFF900000000000 0x502 vmWrite)]

/-- The user address space at 1 is created in between. -/
def spacesBefore : List SpaceEvent × SpaceVm (PmmPool smallPmm) :=
  execAll (execSpaceCall smallFrames) kernelPage smallSpaces
def spacesCreate : Bool × SpaceVm (PmmPool smallPmm) :=
  spacesBefore.2.addressSpaceCreate smallFrames kernelCpu 1
def spacesAfter : List SpaceEvent × SpaceVm (PmmPool smallPmm) :=
  execAll (execSpaceCall smallFrames) kernelPages spacesCreate.2

theorem spacesAfter_eval :
    (spacesCreate.1 = true ∧ (spacesAfter.2.vm.map (.space 0)).Active kernelCpu ∧
      spacesAfter.2.SpaceStorageLive 1 ∧ spacesAfter.2.kernelSpace = 0) ∧
    spacesAfter.2.addressSpaceQueryPage 0 0x401000 = some (0x501, vmWrite) ∧
      spacesAfter.2.addressSpaceQueryPage 1 0xFFFF900000000000 = none ∧
      spacesAfter.2.addressSpaceQueryPage 0 0xFFFF900000000000 = some (0x502, vmWrite) := by
  decide +kernel

theorem spacesBefore_run : Run (SpaceStep smallFrames) smallSpaces spacesBefore.1 spacesBefore.2 :=
  run_of_execSpaceCalls kernelPage

theorem spacesCreate_step : SpaceStep smallFrames spacesBefore.2
    (.call kernelCpu (.create 1) (.done true)) spacesCreate.2 :=
  step_of_create spacesAfter_eval.1.1

theorem spacesAfter_run : Run (SpaceStep smallFrames) spacesCreate.2 spacesAfter.1 spacesAfter.2 :=
  run_of_execSpaceCalls kernelPages

/-- The second page in slot 0 is seen. -/
theorem kernel_half_through_entries_spacesAfter :
    spacesAfter.2.addressSpaceQueryPage 1 0x401000 = some (0x501, vmWrite) := by
  have hspares : ∀ e ∈ spacesAfter.1, e.Spares 1 :=
    forall_mem_execAll (by simp [kernelPages, execSpaceCall, SpaceEvent.Spares])
  have hquery := (kernel_half_through_entries smallSpaces_boot spacesBefore_run spacesCreate_step
    spacesAfter_run hspares 0x401000 (by decide)).2 (by decide +kernel)
  rw [spacesAfter_eval.1.2.2.2, spacesAfter_eval.2.1] at hquery
  exact hquery fun p hp hu => absurd hu (by cases hp; decide)

/-- The slot of the kernel's last page was empty when the address space was created. -/
theorem kernel_half_incoherent :
    Run (SpaceStep smallFrames) smallSpaces
        (spacesBefore.1 ++ .call kernelCpu (.create 1) (.done true) :: spacesAfter.1) spacesAfter.2 ∧
      (spacesAfter.2.vm.map (.space 0)).Active kernelCpu ∧ ¬ spacesAfter.2.KernelHalfCoherent := by
  refine ⟨spacesBefore_run.append ((Run.single spacesCreate_step).append spacesAfter_run),
    spacesAfter_eval.1.2.1, fun hcoherent => ?_⟩
  have heq := hcoherent 1 0xFFFF900000000000 spacesAfter_eval.1.2.2.1 (by decide)
  rw [spacesAfter_eval.1.2.2.2, spacesAfter_eval.2.2.1, spacesAfter_eval.2.2.2] at heq
  cases heq

end JcosKernel
