import JcosKernel.Space.Create

/-!
# JcosKernel.Space.Runs

The address spaces as a system: the calls of `address_space.h`, the VMM calls that other code
makes on their page maps, and work elsewhere in memory, in any order.

A step touches the map of at most one address space (`SpaceStep.touches`), and an address space
that is not destroyed keeps the root of its map and the entries it was created with
(`SpaceStep.sameRoot`).
-/

namespace JcosKernel

open Lib VmState

inductive SpaceCall
  | kernelInit
  | create (a : SpaceRef)
  | destroy (a : SpaceRef)
  | reclaim
  | map (a : SpaceRef) (va frame : Nat) (flags : VmFlags)
  | unmap (a : SpaceRef) (va : Nat)
  | setWritable (a : SpaceRef) (va expected : Nat) (expectedFlags : VmFlags) (writable : Bool)
  | failCreate (a : SpaceRef) (fault : SpaceCreateTestFault) (failRollback : Bool)
  | failOnce (k : MapRef) (fault : VmmTestFault) (skip : Nat)
  | reclaimTable
  deriving DecidableEq

inductive SpaceEvent
  | call (cpu : Cpu) (c : SpaceCall) (result : VmmResult)
  | elsewhere

variable {σ : Type}

namespace SpaceCall

/-- Run a call. -/
def exec (P : FramePool σ) (cpu : Cpu) (s : SpaceVm σ) : SpaceCall → VmmResult × SpaceVm σ
  | .kernelInit => (s.addressSpaceKernelInit P cpu).map .done id
  | .create a => (s.addressSpaceCreate P cpu a).map .done id
  | .destroy a => (s.addressSpaceDestroy P cpu a).map .done id
  | .reclaim => (s.addressSpaceReclaimUnpublished P cpu).map .done id
  | .map a va frame flags => (s.addressSpaceMapPage P cpu a va frame flags).map .done id
  | .unmap a va => (s.addressSpaceUnmapPage P cpu a va).map .unmapped id
  | .setWritable a va expected expectedFlags writable =>
    (s.setWritable cpu a va expected expectedFlags writable).map .done id
  | .failCreate a fault failRollback =>
    (s.addressSpaceTestFailCreateOnce P a fault failRollback).map .done id
  | .failOnce k fault skip =>
    (s.vm.vmmTestFailOnce k fault skip).map .done fun vm => { s with vm := vm }
  | .reclaimTable =>
    (s.vm.vmmReclaimUnlinkedTable P.toAllocator).map .done fun vm => { s with vm := vm }

/-- The address space whose map a call works on. -/
def target (kernelSpace : SpaceRef) : SpaceCall → Option SpaceRef
  | .kernelInit => some kernelSpace
  | .create a => some a
  | .destroy a => some a
  | .map a _ _ _ => some a
  | .unmap a _ => some a
  | .setWritable a _ _ _ _ => some a
  | .reclaim | .failCreate _ _ _ | .failOnce _ _ _ | .reclaimTable => none

end SpaceCall

/-- The address space whose map a step works on. -/
def SpaceEvent.target (kernelSpace : SpaceRef) : SpaceEvent → Option SpaceRef
  | .call _ c _ => c.target kernelSpace
  | .elsewhere => none

namespace SpaceVm

/-- Other code changes memory that holds no table, allocates and frees other frames, and takes
and drops references to address spaces. -/
structure Elsewhere (P : FramePool σ) (s s' : SpaceVm σ) : Prop extends SameRegistry s s' where
  trees : VmInv.SameTrees P.toAllocator s.vm s'.vm

/-- No address space has been created yet. -/
structure SpaceBoot (s : SpaceVm σ) : Prop where
  vm : VmmBoot s.vm
  source : ∀ k, (s.vm.map k).sharedSource = false
  kernelReady : s.kernelReady = false
  storage : s.storage = Slots.empty

end SpaceVm

open SpaceVm

inductive SpaceStep (P : FramePool σ) : SpaceVm σ → SpaceEvent → SpaceVm σ → Prop
  | call {s s' : SpaceVm σ} (cpu : Cpu) {c : SpaceCall} {r : VmmResult}
      (hr : c.exec P cpu s = (r, s')) : SpaceStep P s (.call cpu c r) s'
  | elsewhere {s s' : SpaceVm σ} (h : SpaceVm.Elsewhere P s s') : SpaceStep P s .elsewhere s'

namespace SpaceVm

variable {P : FramePool σ} {cpu : Cpu} {s s' s₀ : SpaceVm σ} {a b : SpaceRef} {va frame : Nat}
  {flags : VmFlags} {r : Bool} {e : SpaceEvent} {es : List SpaceEvent}

theorem SpaceInv.boot (h : SpaceBoot s) : SpaceInv P s := by
  have hnot : ∀ a, ¬ s.SpaceStorageLive a := by
    simpa only [SpaceStorageLive, h.storage] using Slots.not_live_empty
  exact
    { vm := .boot h.vm
      nodup := h.storage ▸ Slots.nodup_empty
      source := fun k hk => absurd ((h.source k).symm.trans hk) nofun
      dead := fun _ _ => h.vm.map _
      live := fun a ha => absurd ha (hnot a)
      kernel := fun a ha => absurd ha (hnot a)
      ready := iff_of_false (by simp [h.kernelReady]) (hnot _)
      notReady := fun _ => h.storage
      kernelRange := fun ha => absurd ha (hnot _)
      userRange := fun a ha => absurd ha (hnot a)
      unpublished := fun hr => absurd (h.vm.map _) hr }

/-! ### Calls on pages -/

/-- What mapping, unmapping and changing the WRITE bit have in common. -/
structure PagesOf (P : FramePool σ) (a : SpaceRef) (s s' : SpaceVm σ) : Prop where
  touches : Touches P (some a) s s'
  registry : SameRegistry s s'
  sameRoot : SameRoot (.space a) s.vm s'.vm

theorem PagesOf.refl (h : SpaceInv P s) : PagesOf P a s s :=
  ⟨.refl h, .refl, ⟨rfl, rfl, fun _ _ => rfl⟩⟩

theorem PagesOf.of_work {vm : VmState MapRef σ} (h : SpaceInv P s)
    (w : Work P.toAllocator (.space a) s.vm vm) : PagesOf P a s { s with vm := vm } :=
  ⟨h.work w, .of_vm, w.sameRoot⟩

/-- A VMM call on the pages of an address space, in terms of these pages. -/
theorem SpaceInv.exec_ownView {c : VmmCall MapRef} {res : VmmResult} {vm : VmState MapRef σ}
    (h : SpaceInv P s) (hr : c.exec P.toAllocator cpu s.vm = (res, vm)) (hc : c.Allowed s.vm)
    (hk : (VmmEvent.call cpu c res).Keeps (.space a)) :
    vm.ownView (.space a) = (VmmEvent.call cpu c res).applyTo (.space a) (s.vm.ownView (.space a)) ∧
      (VmmEvent.call cpu c res).Agrees (.space a) (s.vm.ownView (.space a)) :=
  ((VmmStep.call cpu hc hr).effect h.vm).refines h.vm hk

/-- The flags that a page of the address space gets, if the request is accepted. -/
def pageFlags (s : SpaceVm σ) (a : SpaceRef) (va : Nat) (flags : VmFlags) : Option VmFlags :=
  if (s.space a).kernel then some flags
  else if ¬ UserVirtualAddress va then none else userMapFlags flags

theorem addressSpaceMapPage_cases (h : SpaceInv P s)
    (hr : s.addressSpaceMapPage P cpu a va frame flags = (r, s')) :
    PagesOf P a s s' ∧
      (r = false ∧ s'.vm.ownView (.space a) = s.vm.ownView (.space a) ∨
        r = true ∧ s.SpaceStorageLive a ∧ s.vm.ownView (.space a) va = none ∧
          ∃ flags', s.pageFlags a va flags = some flags' ∧
            s'.vm.ownView (.space a) =
              Function.update (s.vm.ownView (.space a)) va (some (frame, flags'))) := by
  unfold addressSpaceMapPage at hr
  split at hr
  · cases hr
    exact ⟨.refl h, .inl ⟨rfl, rfl⟩⟩
  rename_i ha
  split at hr
  · cases hr
    exact ⟨.refl h, .inl ⟨rfl, rfl⟩⟩
  rename_i flags' hf
  rcases hm : s.vm.vmmMapPage P.toAllocator cpu (.space a) va frame flags' with ⟨r1, vm1⟩
  obtain ⟨hview, hagree⟩ := h.exec_ownView (a := a) (c := .map ..)
    (congrArg (Prod.map VmmResult.done id) hm) trivial trivial
  rw [hm] at hr
  cases hr
  rcases vmmMapPage_cases h.vm hm with ⟨rfl, u, -⟩ | ⟨rfl, acc, -, st⟩
  · exact ⟨.of_work h u.toWork, .inl ⟨rfl, hview⟩⟩
  · exact ⟨.of_work h st.toWork, .inr ⟨rfl, not_not.mp ha, (hagree rfl).1, flags', hf,
      hview.trans (if_pos rfl)⟩⟩

theorem addressSpaceUnmapPage_cases {old : Option Nat} (h : SpaceInv P s)
    (hr : s.addressSpaceUnmapPage P cpu a va = (old, s')) :
    PagesOf P a s s' ∧
      (old = none ∧ s'.vm.ownView (.space a) = s.vm.ownView (.space a) ∨
        s.SpaceStorageLive a ∧ ((s.space a).kernel = true ∨ UserVirtualAddress va) ∧
          ∃ frame flags, old = some frame ∧ s.vm.ownView (.space a) va = some (frame, flags) ∧
            s'.vm.ownView (.space a) = Function.update (s.vm.ownView (.space a)) va none) := by
  unfold addressSpaceUnmapPage at hr
  split at hr
  · cases hr
    exact ⟨.refl h, .inl ⟨rfl, rfl⟩⟩
  rename_i ha
  split at hr
  · cases hr
    exact ⟨.refl h, .inl ⟨rfl, rfl⟩⟩
  rename_i hguard
  rw [not_and_or, not_not, not_not] at hguard
  rcases hu : s.vm.vmmUnmapPage P.toAllocator cpu (.space a) va with ⟨old1, vm1⟩
  obtain ⟨hview, hagree⟩ := h.exec_ownView (a := a) (c := .unmap ..)
    (congrArg (Prod.map VmmResult.unmapped id) hu) trivial trivial
  rw [hu] at hr
  cases hr
  rcases vmmUnmapPage_cases h.vm hu with ⟨rfl, rfl⟩ | ⟨rfl, -, -, -, -, st, -⟩
  · exact ⟨.refl h, .inl ⟨rfl, rfl⟩⟩
  · obtain ⟨flags, hold⟩ := hagree rfl
    exact ⟨.of_work h st.toWork, .inr ⟨not_not.mp ha, hguard, _, flags, rfl, hold,
      hview.trans (if_pos rfl)⟩⟩

theorem setWritable_cases {expected : Nat} {expectedFlags : VmFlags} {writable : Bool}
    (h : SpaceInv P s)
    (hr : s.setWritable cpu a va expected expectedFlags writable = (r, s')) :
    PagesOf P a s s' ∧
      (r = false ∧ s' = s ∧ ¬ s.vm.WriteAccepted cpu (.space a) va expected expectedFlags ∨
        r = true ∧ s.vm.WriteAccepted cpu (.space a) va expected expectedFlags ∧
          s'.vm.map = s.vm.map ∧ s'.vm.ownView (.space a) = Function.update (s.vm.ownView (.space a)) va (some (expected,
            if writable then expectedFlags ||| vmWrite else expectedFlags &&& ~~~vmWrite))) := by
  unfold setWritable at hr
  rcases hw : s.vm.vmmSetWritable cpu (.space a) va expected expectedFlags writable with ⟨r1, vm1⟩
  obtain ⟨hview, hagree⟩ := h.exec_ownView (a := a) (c := .setWritable ..)
    (congrArg (Prod.map VmmResult.done id) hw) trivial trivial
  rw [hw] at hr
  cases hr
  rcases vmmSetWritable_cases h.vm hw with ⟨rfl, rfl, hno⟩ | ⟨rfl, acc, -, st⟩
  · exact ⟨.refl h, .inl ⟨rfl, rfl, hno⟩⟩
  · refine ⟨.of_work h st.toWork, .inr ⟨rfl, acc, st.map, ?_⟩⟩
    refine hview.trans ((if_pos rfl).trans ?_)
    rw [(hagree rfl).1]
    rfl

/-! ### Calls that change no map -/

theorem addressSpaceTestFailCreateOnce_cases {fault : SpaceCreateTestFault} {failRollback : Bool}
    (hr : s.addressSpaceTestFailCreateOnce P a fault failRollback = (r, s')) :
    ∃ f, s' = { s with createFault := f } := by
  unfold addressSpaceTestFailCreateOnce at hr
  split_ifs at hr <;> cases hr
  all_goals exact ⟨_, rfl⟩

end SpaceVm

/-! ### Steps and runs -/

section Steps

variable {P : FramePool σ} {cpu : Cpu} {s s' s₀ : SpaceVm σ} {a b : SpaceRef} {e : SpaceEvent}
  {es : List SpaceEvent}

/-- The address space `a` is not destroyed. -/
def SpaceEvent.Spares (a : SpaceRef) : SpaceEvent → Prop
  | .call _ (.destroy b) (.done true) => b ≠ a
  | _ => True

/-- What a step does, whatever the call. -/
structure SpaceEffect (P : FramePool σ) (s : SpaceVm σ) (e : SpaceEvent) (s' : SpaceVm σ) : Prop where
  touches : Touches P (e.target s.kernelSpace) s s'
  /-- An address space that is not destroyed lives on with its root. -/
  spared : ∀ a, e.Spares a → s.SpaceStorageLive a →
    s'.SpaceStorageLive a ∧ SameRoot (.space a) s.vm s'.vm

theorem SpaceEffect.of_touches (w : Touches P (e.target s.kernelSpace) s s')
    (h : ∀ a, e.target s.kernelSpace = some a → e.Spares a → s.SpaceStorageLive a →
      s'.SpaceStorageLive a ∧ SameRoot (.space a) s.vm s'.vm) : SpaceEffect P s e s' where
  touches := w
  spared a hs ha := by
    by_cases ht : e.target s.kernelSpace = some a
    · exact h a ht hs ha
    · exact ⟨(w.live a ht).mpr ha, (w.kept a ht).toSameRoot⟩

theorem SpaceEffect.of_pages (he : e.target s.kernelSpace = some a) (w : PagesOf P a s s') :
    SpaceEffect P s e s' := by
  refine .of_touches (he ▸ w.touches) fun b hb _ hlive => ?_
  rw [he] at hb
  cases hb
  exact ⟨w.registry.live.mpr hlive, w.sameRoot⟩

theorem SpaceEffect.of_none (he : e.target s.kernelSpace = none) (w : Touches P none s s') :
    SpaceEffect P s e s' := by
  refine .of_touches (he ▸ w) fun b hb => ?_
  rw [he] at hb
  cases hb

theorem SpaceStep.effect (h : SpaceInv P s) (hs : SpaceStep P s e s') : SpaceEffect P s e s' := by
  cases hs with
  | elsewhere w => exact .of_none rfl (h.elsewhere w.toSameRegistry w.trees)
  | call cpu hr =>
    rename_i c res
    rw [SpaceCall.exec.eq_def] at hr
    cases c with
    | kernelInit =>
      obtain ⟨r, hb, rfl⟩ := map_eq_mk hr
      obtain ⟨w, hdone⟩ := addressSpaceKernelInit_cases h hb
      refine .of_touches w fun b hb _ hlive => ?_
      cases hb
      rcases hdone with rfl | hdead
      · exact ⟨hlive, rfl, rfl, fun _ _ => rfl⟩
      · exact absurd hlive hdead
    | create a =>
      obtain ⟨r, hb, rfl⟩ := map_eq_mk hr
      obtain ⟨w, ⟨-, rfl | ⟨hdead, -⟩⟩ | ⟨-, created⟩⟩ := addressSpaceCreate_cases h hb
      · refine .of_touches w fun b hb _ hlive => ⟨hlive, rfl, rfl, fun _ _ => rfl⟩
      · refine .of_touches w fun b hb _ hlive => ?_
        cases hb
        exact absurd hlive hdead
      · refine .of_touches w fun b hb _ hlive => ?_
        cases hb
        exact absurd hlive created.fresh
    | destroy a =>
      obtain ⟨r, hb, rfl⟩ := map_eq_mk hr
      obtain ⟨w, ⟨-, hlive', hroot, -⟩ | ⟨rfl, -, -⟩⟩ := addressSpaceDestroy_cases h hb
      · refine .of_touches w fun b hb _ hlive => ?_
        cases hb
        exact ⟨hlive'.mpr hlive, hroot⟩
      · refine .of_touches w fun b hb hspare _ => ?_
        cases hb
        exact absurd rfl hspare
    | reclaim =>
      obtain ⟨r, hb, rfl⟩ := map_eq_mk hr
      exact .of_none rfl ((addressSpaceReclaimUnpublished_cases h hb).touches h)
    | map a va frame flags =>
      obtain ⟨r, hb, rfl⟩ := map_eq_mk hr
      exact .of_pages rfl (addressSpaceMapPage_cases h hb).1
    | unmap a va =>
      obtain ⟨r, hb, rfl⟩ := map_eq_mk hr
      exact .of_pages rfl (addressSpaceUnmapPage_cases h hb).1
    | setWritable a va expected expectedFlags writable =>
      obtain ⟨r, hb, rfl⟩ := map_eq_mk hr
      exact .of_pages rfl (setWritable_cases h hb).1
    | failCreate a fault failRollback =>
      obtain ⟨r, hb, rfl⟩ := map_eq_mk hr
      obtain ⟨f, rfl⟩ := addressSpaceTestFailCreateOnce_cases hb
      exact .of_none rfl (h.elsewhere ⟨fun _ _ => rfl, rfl, rfl, rfl⟩ (.refl h.vm))
    | failOnce k fault skip =>
      rcases hb : s.vm.vmmTestFailOnce k fault skip with ⟨r, vm⟩
      simp only [hb] at hr
      cases hr
      obtain ⟨fs, rfl⟩ := vmmTestFailOnce_same hb
      exact .of_none rfl (h.elsewhere .of_vm (.faults h.vm fs))
    | reclaimTable =>
      rcases hb : s.vm.vmmReclaimUnlinkedTable P.toAllocator with ⟨r, vm⟩
      simp only [hb] at hr
      cases hr
      exact .of_none rfl (h.elsewhere .of_vm ((vmmReclaimUnlinkedTable_books h.vm hb).1.sameTrees h.vm))

/-- The kernel's address space cannot be destroyed. -/
theorem SpaceStep.spares_kernel (h : SpaceInv P s) (hs : SpaceStep P s e s') :
    e.Spares s.kernelSpace := by
  cases hs with
  | elsewhere w => trivial
  | call cpu hr =>
    rename_i c res
    cases c with
    | destroy a =>
      rw [SpaceCall.exec] at hr
      obtain ⟨r, hb, rfl⟩ := map_eq_mk hr
      obtain ⟨-, ⟨rfl, -⟩ | ⟨rfl, hne, -⟩⟩ := addressSpaceDestroy_cases h hb
      · trivial
      · exact hne
    | _ => trivial

/-- The invariant holds in every state that is reached, and the kernel's address space stays
where it is. -/
theorem spaceInv_of_run (h : SpaceInv P s₀) (hrun : Run (SpaceStep P) s₀ es s) :
    SpaceInv P s ∧ s.kernelSpace = s₀.kernelSpace :=
  hrun.invariant (P := fun s => SpaceInv P s ∧ s.kernelSpace = s₀.kernelSpace) ⟨h, rfl⟩
    fun _ _ _ ⟨h, hk⟩ hs =>
      have w := (hs.effect h).touches
      ⟨w.inv, w.kernelSpace.trans hk⟩

/-- An address space that is never destroyed keeps its root and what was shared into it. -/
theorem spared_of_run (h : SpaceInv P s₀) (ha : s₀.SpaceStorageLive a)
    (hrun : Run (SpaceStep P) s₀ es s) (hes : ∀ e ∈ es, e.Spares a) :
    s.SpaceStorageLive a ∧ SameRoot (.space a) s₀.vm s.vm := by
  refine ((hrun.history (P := fun es s => SpaceInv P s ∧ ((∀ e ∈ es, e.Spares a) →
    s.SpaceStorageLive a ∧ SameRoot (.space a) s₀.vm s.vm))
    ⟨h, fun _ => ⟨ha, rfl, rfl, fun _ _ => rfl⟩⟩) fun es t e t' ⟨ht, hist⟩ hstep => ?_).2 hes
  have heff := hstep.effect ht
  refine ⟨heff.touches.inv, fun hall => ?_⟩
  obtain ⟨hlive, hroot⟩ := hist fun e he => hall e (List.mem_append_left _ he)
  obtain ⟨hlive', hroot'⟩ := heff.spared a (hall e (by simp)) hlive
  exact ⟨hlive', hroot.trans hroot'⟩

theorem kernel_of_run (h : SpaceInv P s₀) (hk : s₀.SpaceStorageLive s₀.kernelSpace)
    (hrun : Run (SpaceStep P) s₀ es s) : s.SpaceStorageLive s₀.kernelSpace := by
  refine (hrun.invariant (P := fun s => SpaceInv P s ∧ s.kernelSpace = s₀.kernelSpace ∧
    s.SpaceStorageLive s₀.kernelSpace) ⟨h, rfl, hk⟩ fun t e t' ⟨ht, hsame, hlive⟩ hstep => ?_).2.2
  have heff := hstep.effect ht
  have hspare := hsame ▸ hstep.spares_kernel ht
  exact ⟨heff.touches.inv, heff.touches.kernelSpace.trans hsame, (heff.spared _ hspare hlive).1⟩

end Steps

end JcosKernel
