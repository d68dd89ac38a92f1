import JcosKernel.Space.Model
import JcosKernel.Vmm.Shared

/-!
# JcosKernel.Space.Inv

The invariant of the address spaces, and what each call does to their page maps.

The kernel's map owns all PML4 slots and is the only one that others copy entries from; the map
of a user address space owns the slots 1 to 255. A call touches the map of one address space
(`Touches`); those of the others keep their pages. Creating an address space is the only call
that shares entries, all from the kernel's map and all before the new map is published
(`addressSpaceCreate_cases`).
-/

namespace JcosKernel

open Lib VmState

/-- The map owns the slots of a user address space. -/
def VmPageMap.UserRange (map : VmPageMap) : Prop :=
  map.ownedPml4First = userPml4First ∧ map.ownedPml4End = userPml4End

/-- The records agree on the root and on the owned slots. -/
structure VmPageMap.SameShape (map map' : VmPageMap) : Prop where
  rootFrame : map'.rootFrame = map.rootFrame
  first : map'.ownedPml4First = map.ownedPml4First
  last : map'.ownedPml4End = map.ownedPml4End

theorem VmPageMap.SameShape.refl {map : VmPageMap} : map.SameShape map := ⟨rfl, rfl, rfl⟩

namespace SpaceVm

variable {σ : Type} {P : FramePool σ} {cpu : Cpu} {s s₁ s' : SpaceVm σ} {a b : SpaceRef}
  {vm vm₁ vm' : VmState MapRef σ} {k km : MapRef} {i j : TableIndex} {r : Bool}

structure SpaceInv (P : FramePool σ) (s : SpaceVm σ) : Prop where
  vm : VmInv P.toAllocator s.vm
  nodup : s.storage.Nodup
  source : ∀ k, (s.vm.map k).sharedSource = true → k = s.kernelMap
  dead : ∀ a, ¬ s.SpaceStorageLive a → (s.vm.map (.space a)).rootFrame = none
  live : ∀ a, s.SpaceStorageLive a → (s.vm.map (.space a)).rootFrame ≠ none
  kernel : ∀ a, s.SpaceStorageLive a → ((s.space a).kernel = true ↔ a = s.kernelSpace)
  ready : s.kernelReady = true ↔ s.SpaceStorageLive s.kernelSpace
  notReady : s.kernelReady = false → s.storage = Slots.empty
  kernelRange : s.SpaceStorageLive s.kernelSpace → ∀ i, s.vm.forest.own s.kernelMap i
  userRange : ∀ a, s.SpaceStorageLive a → a ≠ s.kernelSpace → (s.vm.map (.space a)).UserRange
  unpublished : (s.vm.map .unpublished).rootFrame ≠ none → (s.vm.map .unpublished).UserRange

/-- The static variables are as before, short of the numbers that only calls count. -/
structure SameRegistry (s s' : SpaceVm σ) : Prop where
  kernel : ∀ a, s.SpaceStorageLive a → (s'.space a).kernel = (s.space a).kernel
  kernelSpace : s'.kernelSpace = s.kernelSpace
  kernelReady : s'.kernelReady = s.kernelReady
  storage : s'.storage = s.storage

theorem SameRegistry.refl : SameRegistry s s := ⟨fun _ _ => rfl, rfl, rfl, rfl⟩

theorem SameRegistry.of_vm : SameRegistry s { s with vm := vm } := ⟨fun _ _ => rfl, rfl, rfl, rfl⟩

theorem SameRegistry.live (reg : SameRegistry s s') :
    s'.SpaceStorageLive a ↔ s.SpaceStorageLive a := by
  unfold SpaceStorageLive
  rw [reg.storage]

theorem SameRegistry.trans (reg : SameRegistry s s₁) (reg' : SameRegistry s₁ s') : SameRegistry s s' where
  kernel a ha := (reg'.kernel a (reg.live.mpr ha)).trans (reg.kernel a ha)
  kernelSpace := reg'.kernelSpace.trans reg.kernelSpace
  kernelReady := reg'.kernelReady.trans reg.kernelReady
  storage := reg'.storage.trans reg.storage

/-- The invariant reads little of the page maps. -/
theorem SpaceInv.of_registry (h : SpaceInv P s) (reg : SameRegistry s s')
    (hvm : VmInv P.toAllocator s'.vm)
    (hsource : ∀ k, (s'.vm.map k).sharedSource = true → k = s.kernelMap)
    (hdead : ∀ a, ¬ s.SpaceStorageLive a → (s'.vm.map (.space a)).rootFrame = none)
    (hshape : ∀ a, s.SpaceStorageLive a → (s.vm.map (.space a)).SameShape (s'.vm.map (.space a)))
    (hun : (s'.vm.map .unpublished).rootFrame ≠ none → (s'.vm.map .unpublished).UserRange) :
    SpaceInv P s' := by
  have hk : s'.kernelMap = s.kernelMap := congrArg MapRef.space reg.kernelSpace
  refine ⟨hvm, reg.storage ▸ h.nodup, fun k => by rw [hk]; exact hsource k,
    fun a ha => hdead a (mt reg.live.mpr ha), fun a ha => ?_, fun a ha => ?_, ?_, fun hr => ?_,
    fun ha i => ?_, fun a ha hne => ?_, hun⟩
  · have ha := reg.live.mp ha
    rw [(hshape a ha).rootFrame]
    exact h.live a ha
  · have ha := reg.live.mp ha
    rw [reg.kernel a ha, reg.kernelSpace]
    exact h.kernel a ha
  · rw [reg.kernelReady, reg.live, reg.kernelSpace]
    exact h.ready
  · rw [reg.storage]
    exact h.notReady (reg.kernelReady ▸ hr)
  · have ha := reg.live.mp (reg.kernelSpace ▸ ha)
    have hown := h.kernelRange ha i
    change _ ≤ _ ∧ _ < _
    rw [hk, (hshape _ ha).first, (hshape _ ha).last]
    exact hown
  · have ha := reg.live.mp ha
    have hrange := h.userRange a ha (reg.kernelSpace ▸ hne)
    exact ⟨(hshape a ha).first.trans hrange.1, (hshape a ha).last.trans hrange.2⟩

theorem SpaceInv.of_map (h : SpaceInv P s) (reg : SameRegistry s s') (hvm : VmInv P.toAllocator s'.vm)
    (hmap : s'.vm.map = s.vm.map) : SpaceInv P s' := by
  refine h.of_registry reg hvm ?_ ?_ (fun _ _ => ?_) ?_ <;> rw [hmap]
  exacts [h.source, h.dead, .refl, h.unpublished]

/-- The call works on the map of at most one address space; the others keep their pages. -/
structure Touches (P : FramePool σ) (t : Option SpaceRef) (s s' : SpaceVm σ) : Prop where
  inv : SpaceInv P s'
  kernelSpace : s'.kernelSpace = s.kernelSpace
  live : ∀ b, t ≠ some b → (s'.SpaceStorageLive b ↔ s.SpaceStorageLive b)
  kept : ∀ b, t ≠ some b → MapKept (.space b) s.vm s'.vm

theorem Touches.refl {t : Option SpaceRef} (h : SpaceInv P s) : Touches P t s s :=
  ⟨h, rfl, fun _ _ => Iff.rfl, fun _ _ => .refl⟩

theorem Touches.trans {t : Option SpaceRef} (w : Touches P t s s₁) (v : Touches P t s₁ s') :
    Touches P t s s' where
  inv := v.inv
  kernelSpace := v.kernelSpace.trans w.kernelSpace
  live b hb := (v.live b hb).trans (w.live b hb)
  kept b hb := (w.kept b hb).trans (v.kept b hb)

theorem Touches.of_none {t : Option SpaceRef} (w : Touches P none s s') : Touches P t s s' :=
  ⟨w.inv, w.kernelSpace, fun b _ => w.live b (by simp), fun b _ => w.kept b (by simp)⟩

/-! ### Calls on one page map -/

/-- Work on the pages of an address space. -/
theorem SpaceInv.work (h : SpaceInv P s) (w : Work P.toAllocator (.space a) s.vm vm) :
    Touches P (some a) s { s with vm := vm } where
  inv := h.of_map .of_vm w.inv w.map
  kernelSpace := rfl
  live _ _ := Iff.rfl
  kept b hb := w.apart.kept h.vm fun hk => hb (by cases hk; rfl)

/-- Other code changes memory that holds no table; references to address spaces come and go. -/
theorem SpaceInv.elsewhere (h : SpaceInv P s) (reg : SameRegistry s s')
    (w : VmInv.SameTrees P.toAllocator s.vm s'.vm) : Touches P none s s' where
  inv := h.of_map reg (h.vm.elsewhere w) w.map
  kernelSpace := reg.kernelSpace
  live _ _ := reg.live
  kept _ _ := w.kept h.vm

end SpaceVm

end JcosKernel
