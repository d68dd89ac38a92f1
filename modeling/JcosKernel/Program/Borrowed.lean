import JcosKernel.Space.Coherence
import JcosKernel.Thread.State

/-!
# JcosKernel.Program.Borrowed

The physical range that a program borrows (`kernel/program.c`), and the change of its WRITE bit.

All pages are looked at before the first one is changed. Of a page that passes,
`vmm_set_writable` asks nothing that depends on the page (`WriteOpen`), so the loop fails at its
first page or not at all.
-/

namespace JcosKernel

open Lib VmState

structure ProgramBorrowedMappingSpec where
  physicalBase : Nat
  size : Nat
  virtualBase : Nat
  flags : VmFlags

/-- `program_borrowed_geometry`: the first physical page and the number of pages. -/
def programBorrowedGeometry (m : ProgramBorrowedMappingSpec) : Option (Nat × Nat) :=
  if m.physicalBase = 0 ∧ m.size = 0 ∧ m.virtualBase = 0 ∧ m.flags = 0 then some (0, 0)
  else if m.physicalBase = 0 ∨ m.size = 0 ∨ ¬ PageAligned m.virtualBase ∨
      ¬ UserVirtualAddress m.virtualBase ∨ ¬ Within m.flags (vmWrite ||| vmUncached) then none
  else
    let offset := m.physicalBase % 4096
    let firstPhysical := m.physicalBase - offset
    if firstPhysical = 0 ∨ m.size > 2 ^ 64 - 1 - offset then none
    else
      let bytes := m.size + offset
      if bytes > 2 ^ 64 - 1 - 4095 then none
      else
        let pageCount := (bytes + 4095) / 4096
        if pageCount = 0 ∨ pageCount > 0xFFFFFFFF ∨
            pageCount > (addressSpaceUserLimit - m.virtualBase) / 4096 then none
        else if firstPhysical > 2 ^ 64 - 1 - (pageCount * 4096 - 1) then none
        else some (firstPhysical, pageCount)

/-- What `program_borrowed_set_writable` reads of a `ProgramInstance`. -/
structure ProgramInstance where
  published : Bool
  processCreated : Bool
  processId : Nat
  /-- `process_storage_in_use`. -/
  processInUse : Bool
  processKernel : Bool
  /-- `process_address_space`. -/
  addressSpace : Option SpaceRef
  threadCreated : Bool
  threadState : ThreadRunState
  onRunQueue : Bool
  borrowedVirtualBase : Nat
  borrowedFirstFrame : Nat
  borrowedPageCount : Nat

namespace ProgramInstance

/-- Address of a borrowed page. -/
def borrowedPage (p : ProgramInstance) (i : Nat) : Nat := p.borrowedVirtualBase + i * 4096

/-- What `program_launch_locked` leaves: it counts the pages as it maps them. `program_release`
counts them down again, and nothing else writes these fields. -/
structure Borrows (p : ProgramInstance) (m : ProgramBorrowedMappingSpec) : Prop where
  base : p.borrowedVirtualBase = m.virtualBase
  pages : ∃ first count, programBorrowedGeometry m = some (first, count) ∧
    p.borrowedFirstFrame = physToFrame first ∧ p.borrowedPageCount ≤ count

variable {p : ProgramInstance} {m : ProgramBorrowedMappingSpec} {i j : Nat}

/-- The borrowed pages are user pages. -/
theorem Borrows.user (h : p.Borrows m) (hi : i < p.borrowedPageCount) :
    UserVirtualAddress (p.borrowedPage i) := by
  obtain ⟨first, count, hg, -, hcount⟩ := h.pages
  unfold programBorrowedGeometry at hg
  dsimp only at hg
  rw [borrowedPage, h.base, UserVirtualAddress]
  split_ifs at hg with hnone hbad hfirst hbytes hpages hspan
  · cases hg
    omega
  · cases hg
    simp only [UserVirtualAddress] at hbad hpages
    omega

theorem borrowedPage_injective : Function.Injective p.borrowedPage := fun i j h => by
  simp only [borrowedPage] at h
  omega

end ProgramInstance

/-- The flags of a page whose WRITE permission is set or taken away. -/
def withWriteFlag (writable : Bool) (flags : VmFlags) : VmFlags :=
  if writable then flags ||| vmWrite else flags &&& ~~~vmWrite

namespace SpaceVm

variable {σ : Type} {P : FramePool σ} {cpu : Cpu} {s s₀ s₁ s' : SpaceVm σ} {a b : SpaceRef}
  {p : ProgramInstance} {m : ProgramBorrowedMappingSpec} {writable r : Bool} {i pid va : Nat}
  {l : List Nat} {es : List SpaceEvent}

/-- The whole-range preflight, for one page. -/
def borrowedPageOk (s : SpaceVm σ) (a : SpaceRef) (p : ProgramInstance) (i : Nat) : Bool :=
  (s.addressSpaceQueryPage a (p.borrowedPage i)).any fun (frame, flags) =>
    frame = p.borrowedFirstFrame + i ∧ Has flags vmUser ∧
      Within flags (vmUser ||| vmWrite ||| vmUncached)

/-- One turn of the loop that changes the pages. -/
def setBorrowedPage (cpu : Cpu) (a : SpaceRef) (p : ProgramInstance) (writable : Bool) (i : Nat)
    (s : SpaceVm σ) : Bool × SpaceVm σ :=
  match s.addressSpaceQueryPage a (p.borrowedPage i) with
  | none => (false, s)
  | some (_, flags) =>
    s.setWritable cpu a (p.borrowedPage i) (p.borrowedFirstFrame + i) flags writable

/-- `program_borrowed_set_writable`. -/
def programBorrowedSetWritable (cpu : Cpu) (s : SpaceVm σ) (p : ProgramInstance) (pid : Nat)
    (writable : Bool) : Bool × SpaceVm σ :=
  if pid = 0 ∨ ¬ p.published ∨ ¬ p.processCreated ∨ p.processId ≠ pid ∨ ¬ p.processInUse ∨
      p.processKernel ∨ ¬ p.threadCreated ∨ p.threadState ≠ .blocked ∨ p.onRunQueue ∨
      p.borrowedPageCount = 0 then (false, s)
  else
    match p.addressSpace with
    | none => (false, s)
    | some a =>
      if (s.space a).kernel ∨ ¬ (List.range p.borrowedPageCount).all (s.borrowedPageOk a p) then
        (false, s)
      else each (setBorrowedPage cpu a p writable) (List.range p.borrowedPageCount) s

/-! ### What is seen of the pages -/

theorem PagesOf.trans (w : PagesOf P a s s₁) (v : PagesOf P a s₁ s') : PagesOf P a s s' where
  touches := w.touches.trans v.touches
  registry := w.registry.trans v.registry
  sameRoot := w.sameRoot.trans v.sameRoot

/-- A user address space whose pages change: any other page of any address space is as before. -/
theorem PagesOf.query_eq (h : SpaceInv P s) (w : PagesOf P a s s') (ha : a ≠ s.kernelSpace)
    (hview : b = a → s'.vm.ownView (.space a) va = s.vm.ownView (.space a) va) :
    s'.addressSpaceQueryPage b va = s.addressSpaceQueryPage b va := by
  have hkept : ∀ c, (c = a → s'.vm.ownView (.space a) va = s.vm.ownView (.space a) va) →
      SameRoot (.space c) s.vm s'.vm ∧ s'.vm.ownView (.space c) va = s.vm.ownView (.space c) va := by
    intro c hc
    by_cases hca : c = a
    · exact hca ▸ ⟨w.sameRoot, hc hca⟩
    · have hk := w.touches.kept c fun heq => hca (Option.some.inj heq).symm
      exact ⟨hk.toSameRoot, congrFun hk.pages va⟩
  unfold addressSpaceQueryPage
  simp only [w.registry.live]
  split_ifs with hb
  · obtain ⟨hroot, hpage⟩ := hkept b hview
    by_cases hown : s.vm.forest.own (.space b) (pml4Index va)
    · rw [← ownView_of_own hown, ← ownView_of_own (hroot.own ▸ hown), hpage]
    · -- the page is seen through the kernel's tables
      have hready : s.SpaceStorageLive s.kernelSpace := h.ready.mp <| by
        by_contra hno
        rw [SpaceStorageLive, h.notReady (Bool.eq_false_iff.mpr hno)] at hb
        exact Slots.not_live_empty b hb
      have hkernel := h.kernelRange hready (pml4Index va)
      obtain ⟨kroot, kpage⟩ := hkept s.kernelSpace fun heq => absurd heq.symm ha
      have hsource := w.touches.inv.source
      rw [kernelMap, w.touches.kernelSpace] at hsource
      rw [vmmQueryPage_shared h.vm (h.live b hb) h.source hown, vmmQueryPage_shared w.touches.inv.vm
        (hroot.root ▸ h.live b hb) hsource (hroot.own ▸ hown), hroot.entry _ hown,
        ← ownView_of_own hkernel, ← ownView_of_own (kroot.own ▸ hkernel), kpage]
  · rfl

/-! ### The loop -/

/-- A borrowed page that passed the preflight. -/
def Passed (s : SpaceVm σ) (a : SpaceRef) (p : ProgramInstance) (i : Nat) : Prop :=
  s.vm.forest.own (.space a) (pml4Index (p.borrowedPage i)) ∧ ∃ flags,
    s.vm.ownView (.space a) (p.borrowedPage i) = some (p.borrowedFirstFrame + i, flags) ∧
      Within flags (vmUser ||| vmWrite ||| vmUncached)

/-- The pages of the list have the WRITE permission asked for; the rest is as before. -/
structure Rewrites (P : FramePool σ) (a : SpaceRef) (p : ProgramInstance) (writable : Bool)
    (l : List Nat) (s s' : SpaceVm σ) : Prop extends PagesOf P a s s' where
  map : s'.vm.map = s.vm.map
  view : s'.vm.ownView (.space a) = fun va =>
    if va ∈ l.map p.borrowedPage then
      (s.vm.ownView (.space a) va).map (Prod.map id (withWriteFlag writable))
    else s.vm.ownView (.space a) va

theorem setBorrowedPage_cases (h : SpaceInv P s) (ha : s.SpaceStorageLive a) (hi : s.Passed a p i)
    (hr : setBorrowedPage cpu a p writable i s = (r, s')) :
    r = false ∧ s' = s ∧ ¬ WriteOpen (s.vm.map (.space a)) cpu ∨
      r = true ∧ WriteOpen (s.vm.map (.space a)) cpu ∧ Rewrites P a p writable [i] s s' := by
  obtain ⟨hown, flags, hold, hflags⟩ := hi
  have hquery := (ownView_of_own hown).symm.trans hold
  have hfound : s.addressSpaceQueryPage a (p.borrowedPage i) =
      some (p.borrowedFirstFrame + i, flags) := (if_neg (not_not_intro ha)).trans hquery
  unfold setBorrowedPage at hr
  rw [hfound] at hr
  obtain ⟨w, ⟨rfl, rfl, hno⟩ | ⟨rfl, acc, hmap, hview⟩⟩ := setWritable_cases h hr
  · refine .inl ⟨rfl, rfl, fun o => hno ?_⟩
    have hgood : PageAligned (p.borrowedPage i) ∧ VirtualAddressCanonical (p.borrowedPage i) := by
      by_contra hbad
      cases (vmmQueryPage_bad_address (not_and_or.mp hbad)).symm.trans hquery
    exact ⟨o, hgood.1, hgood.2, hown, hquery, hflags.not_has (by decide),
      fun hdev => hflags.not_has (by decide) hdev.1⟩
  · refine .inr ⟨rfl, acc.toWriteOpen, w, hmap, ?_⟩
    rw [hview]
    funext va
    by_cases hva : va = p.borrowedPage i
    · simp [hva, hold, withWriteFlag]
    · simp [hva]

/-- The loop fails at its first page or not at all. -/
theorem each_setBorrowedPage (h : SpaceInv P s) (ha : s.SpaceStorageLive a) (hl : l.Nodup)
    (hpass : ∀ i ∈ l, s.Passed a p i) (hr : each (setBorrowedPage cpu a p writable) l s = (r, s')) :
    r = false ∧ s' = s ∧ ¬ WriteOpen (s.vm.map (.space a)) cpu ∨
      r = true ∧ Rewrites P a p writable l s s' := by
  induction l generalizing s with
  | nil =>
    cases hr
    exact .inr ⟨rfl, .refl h, rfl, by simp⟩
  | cons i l ih =>
    obtain ⟨hil, hl⟩ := List.nodup_cons.mp hl
    rcases hone : setBorrowedPage cpu a p writable i s with ⟨b, s₁⟩
    rcases setBorrowedPage_cases h ha (hpass i List.mem_cons_self) hone with
      ⟨rfl, rfl, hno⟩ | ⟨rfl, hopen, w⟩
    · rw [each_cons_false hone] at hr
      cases hr
      exact .inl ⟨rfl, rfl, hno⟩
    rw [each_cons_true hone] at hr
    have hpass1 : ∀ j ∈ l, s₁.Passed a p j := fun j hj => by
      have hne : p.borrowedPage j ≠ p.borrowedPage i := fun heq =>
        hil (ProgramInstance.borrowedPage_injective heq ▸ hj)
      rw [Passed, w.view, w.sameRoot.own]
      simpa [hne, Passed] using hpass j (List.mem_cons_of_mem _ hj)
    rcases ih w.touches.inv (w.registry.live.mpr ha) hl hpass1 hr with ⟨-, -, hno⟩ | ⟨rfl, v⟩
    · exact absurd (w.map ▸ hopen) hno
    · refine .inr ⟨rfl, w.toPagesOf.trans v.toPagesOf, v.map.trans w.map, ?_⟩
      rw [v.view, w.view]
      funext va
      by_cases hva : va = p.borrowedPage i
      · have hnot : p.borrowedPage i ∉ l.map p.borrowedPage :=
          mt (List.mem_map_of_injective ProgramInstance.borrowedPage_injective).mp hil
        simp [hva, hnot]
      · simp [hva]

/-- **The WRITE permission of a borrowed range changes as a whole**, in every state that is
reached: of all its pages and of no other, or of none. -/
theorem borrowed_writable_atomic (h₀ : SpaceBoot s₀) (hrun : Run (SpaceStep P) s₀ es s)
    (hp : p.Borrows m) (hr : s.programBorrowedSetWritable cpu p pid writable = (r, s')) :
    (r = true → ∃ a, p.addressSpace = some a ∧
      (∀ i < p.borrowedPageCount, ∃ flags,
        s.addressSpaceQueryPage a (p.borrowedPage i) = some (p.borrowedFirstFrame + i, flags) ∧
        s'.addressSpaceQueryPage a (p.borrowedPage i) =
          some (p.borrowedFirstFrame + i, withWriteFlag writable flags)) ∧
      ∀ b va, ¬ (b = a ∧ ∃ i < p.borrowedPageCount, va = p.borrowedPage i) →
        s'.addressSpaceQueryPage b va = s.addressSpaceQueryPage b va) ∧
    (r = false → s' = s) := by
  have h := (spaceInv_of_run (.boot h₀) hrun).1
  unfold programBorrowedSetWritable at hr
  split at hr
  · cases hr
    exact ⟨nofun, fun _ => rfl⟩
  rename_i hguard
  split at hr
  · cases hr
    exact ⟨nofun, fun _ => rfl⟩
  rename_i a ha
  split at hr
  · cases hr
    exact ⟨nofun, fun _ => rfl⟩
  rename_i hcheck
  simp only [not_or, not_not, List.all_eq_true, List.mem_range] at hguard hcheck
  obtain ⟨hkernel, hok⟩ := hcheck
  -- the check before the loop has seen every page
  have hpage : ∀ i < p.borrowedPageCount, s.SpaceStorageLive a ∧ ∃ flags,
      s.vm.vmmQueryPage (.space a) (p.borrowedPage i) = some (p.borrowedFirstFrame + i, flags) ∧
        Within flags (vmUser ||| vmWrite ||| vmUncached) := fun i hi => by
    have hi := hok i hi
    rw [borrowedPageOk, addressSpaceQueryPage] at hi
    split_ifs at hi with hlive
    · rcases hq : s.vm.vmmQueryPage (.space a) (p.borrowedPage i) with _ | ⟨frame, flags⟩
      · simp [hq] at hi
      · simp only [hq, Option.any_some, decide_eq_true_eq] at hi
        exact ⟨hlive, flags, by rw [hi.1], hi.2.2⟩
    · cases hi
  have hlive := (hpage 0 (Nat.pos_of_ne_zero hguard.2.2.2.2.2.2.2.2.2)).1
  have hne : a ≠ s.kernelSpace := fun heq => hkernel ((h.kernel a hlive).mpr heq)
  -- user pages are in slots the address space owns, so no other one sees a change
  have hown : ∀ i < p.borrowedPageCount, s.vm.forest.own (.space a) (pml4Index (p.borrowedPage i)) := by
    intro i hi
    have hu := hp.user hi
    have hrange := h.userRange a hlive hne
    change _ ≤ _ / 2 ^ 39 % 512 ∧ _ / 2 ^ 39 % 512 < _
    rw [hrange.1, hrange.2]
    simp only [UserVirtualAddress, addressSpaceUserBase, addressSpaceUserLimit, userPml4First,
      userPml4End] at hu ⊢
    omega
  have hpass : ∀ i ∈ List.range p.borrowedPageCount, s.Passed a p i := fun i hi => by
    have hi := List.mem_range.mp hi
    obtain ⟨-, flags, hq, hf⟩ := hpage i hi
    exact ⟨hown i hi, flags, (ownView_of_own (hown i hi)).trans hq, hf⟩
  rcases each_setBorrowedPage h hlive List.nodup_range hpass hr with ⟨rfl, rfl, -⟩ | ⟨rfl, w⟩
  · exact ⟨nofun, fun _ => rfl⟩
  refine ⟨fun _ => ⟨a, ha, fun i hi => ?_, fun b va hva => w.query_eq h hne fun hb => ?_⟩,
    (absurd · Bool.false_ne_true.symm)⟩
  · obtain ⟨-, flags, hq, -⟩ := hpage i hi
    have hlive' := w.registry.live.mpr hlive
    refine ⟨flags, (if_neg (not_not_intro hlive)).trans hq, ?_⟩
    rw [addressSpaceQueryPage, if_neg (not_not_intro hlive'),
      ← ownView_of_own (w.sameRoot.own ▸ hown i hi), w.view]
    dsimp only
    rw [if_pos (List.mem_map_of_mem (List.mem_range.mpr hi)), ownView_of_own (hown i hi), hq]
    rfl
  · refine (congrFun w.view va).trans (if_neg fun hmem => ?_)
    obtain ⟨i, hi, rfl⟩ := List.mem_map.mp hmem
    exact hva ⟨hb, i, List.mem_range.mp hi, rfl⟩

/-- A process that borrows two pages, and its address space. -/
def borrowedSpaces : SpaceVm (PmmPool smallPmm) :=
  (execAll (execSpaceCall smallFrames) [(plainCpu, .kernelInit), (kernelCpu, .create 1),
    (kernelCpu, .map 1 0x8000000000 0x500 (vmUser ||| vmWrite)),
    (kernelCpu, .map 1 0x8000001000 0x501 (vmUser ||| vmWrite))] smallSpaces).2

def borrower : ProgramInstance :=
  ⟨true, true, 7, true, false, some 1, true, .blocked, false, 0x8000000000, 0x500, 2⟩

/-- Both pages become read-only. -/
theorem borrowed_writable_atomic_twoPages :
    (borrowedSpaces.programBorrowedSetWritable kernelCpu borrower 7 false).1 = true ∧
    ∀ i < 2, ∃ flags,
      borrowedSpaces.addressSpaceQueryPage 1 (borrower.borrowedPage i) = some (0x500 + i, flags) ∧
      (borrowedSpaces.programBorrowedSetWritable kernelCpu borrower 7 false).2.addressSpaceQueryPage
        1 (borrower.borrowedPage i) = some (0x500 + i, withWriteFlag false flags) := by
  have htrue : (borrowedSpaces.programBorrowedSetWritable kernelCpu borrower 7 false).1 = true := by
    decide +kernel
  obtain ⟨a, ha, hpages, -⟩ := (borrowed_writable_atomic
    (m := ⟨0x500000, 0x2000, 0x8000000000, vmWrite⟩) smallSpaces_boot (run_of_execSpaceCalls _)
    ⟨rfl, 0x500000, 2, by decide, by decide, le_rfl⟩ Prod.mk.eta.symm).1 htrue
  obtain rfl : 1 = a := Option.some.inj ha
  exact ⟨htrue, hpages⟩

end SpaceVm

end JcosKernel
