import JcosKernel.Space.Inv

/-!
# JcosKernel.Space.Create

How an address space comes to be and goes.

`address_space_create` builds a map at `g_unpublished_map`, step by step; each step works on that
map only, except that sharing an entry marks the kernel's map as a source (`Builds`). What has
been built then changes its address, which is a renaming of the maps. A failed attempt is
destroyed again or stays in `g_unpublished_map`.
-/

namespace JcosKernel

open Lib VmState Function

namespace SpaceVm

variable {σ : Type} {P : FramePool σ} {cpu : Cpu} {s s₁ s' : SpaceVm σ} {a b : SpaceRef}
  {vm vm₁ vm' : VmState MapRef σ} {k km : MapRef} {i j : TableIndex} {r : Bool}

/-! ### Building -/

/-- The step works on the unpublished map; the kernel's map may become a source. -/
structure Builds (A : Allocator Nat σ) (km : MapRef) (vm vm' : VmState MapRef σ) : Prop where
  inv : VmInv A vm'
  map : ∀ k, k ≠ .unpublished →
    vm'.map k = vm.map k ∨ k = km ∧ vm'.map k = { vm.map k with sharedSource := true }
  entry : ∀ k, k ≠ .unpublished → ∀ i, vm'.entryAt k [] i = vm.entryAt k [] i
  kept : ∀ k, k ≠ .unpublished → MapKept k vm vm'

namespace Builds

variable {A : Allocator Nat σ}

theorem trans (w : Builds A km vm vm₁) (v : Builds A km vm₁ vm') : Builds A km vm vm' where
  inv := v.inv
  map k hk := by
    rcases w.map k hk with hw | ⟨rfl, hw⟩
    · exact hw ▸ v.map k hk
    · refine .inr ⟨rfl, ?_⟩
      rcases v.map k hk with hv | ⟨-, hv⟩
      · exact hv.trans hw
      · rw [hv, hw]
  entry k hk i := (v.entry k hk i).trans (w.entry k hk i)
  kept k hk := (w.kept k hk).trans (v.kept k hk)

theorem of_apart (h : VmInv A vm) (w : Apart A .unpublished vm vm') : Builds A km vm vm' where
  inv := w.inv
  map k hk := .inl (w.map k hk)
  entry _ hk _ := w.entryAt h hk trivial (Nat.zero_le _)
  kept _ hk := w.kept h hk

theorem of_sameTrees (h : VmInv A vm) (w : VmInv.SameTrees A vm vm') : Builds A km vm vm' where
  inv := h.elsewhere w
  map _ _ := .inl (by rw [w.map])
  entry _ _ _ := w.entryAt trivial (Nat.zero_le _)
  kept _ _ := w.kept h

theorem of_shares (h : VmInv A vm) (sh : Shares A .unpublished km i vm vm') : Builds A km vm vm' where
  inv := sh.inv
  map k _ := sh.map k
  entry k hk j := by rw [sh.entry k [] j trivial (Nat.zero_le _), if_neg fun hh => hk hh.1]
  kept _ hk := sh.kept h hk

theorem refl (h : VmInv A vm) : Builds A km vm vm := of_apart h (Work.refl h).apart

theorem shape (w : Builds A km vm vm') (a : SpaceRef) :
    (vm.map (.space a)).SameShape (vm'.map (.space a)) := by
  rcases w.map (.space a) (by simp) with heq | ⟨-, heq⟩
  · rw [heq]
    exact .refl
  · rw [heq]
    exact ⟨rfl, rfl, rfl⟩

theorem source (w : Builds A km vm vm') (hk : k ≠ .unpublished)
    (hs : (vm'.map k).sharedSource = true) : (vm.map k).sharedSource = true ∨ k = km := by
  rcases w.map k hk with heq | ⟨rfl, -⟩
  · rw [heq] at hs
    exact .inl hs
  · exact .inr rfl

end Builds

/-- Storing in the allocator which frame is to fail changes no tree. -/
theorem sameTrees_failFreeOnce (h : VmInv P.toAllocator vm) (frame : Nat) :
    VmInv.SameTrees P.toAllocator vm { vm with pmm := P.failFreeOnce frame vm.pmm } := by
  have hheld : VmState.held P.toAllocator { vm with pmm := P.failFreeOnce frame vm.pmm } =
      vm.held P.toAllocator := by
    unfold VmState.held
    rw [P.failFreeOnce_allocated]
  refine ⟨rfl, rfl, rfl, fun _ _ _ _ _ _ => rfl, fun k q f hq hd hf => ?_, fun f hf => ?_⟩
  · rw [hheld]
    exact (h.tables k q f hq hd hf).1
  · rw [P.failFreeOnce_allocated]
    exact h.unlinked f hf

theorem spaceCreateFault_cases {fault : SpaceCreateTestFault} (h : VmInv P.toAllocator s.vm)
    (hr : s.spaceCreateFault P a fault = (r, s')) :
    VmInv.SameTrees P.toAllocator s.vm s'.vm ∧ s'.space = s.space ∧ SameRegistry s s' := by
  have hrefl : VmInv.SameTrees P.toAllocator s.vm s.vm := .refl h
  unfold spaceCreateFault at hr
  split at hr
  · cases hr
    exact ⟨hrefl, rfl, .refl⟩
  split at hr
  · cases hr
    exact ⟨hrefl, rfl, .refl⟩
  dsimp only at hr
  split at hr
  · rename_i root _ _
    cases hr
    exact ⟨sameTrees_failFreeOnce h root, rfl, ⟨fun _ _ => rfl, rfl, rfl, rfl⟩⟩
  · cases hr
    exact ⟨hrefl, rfl, ⟨fun _ _ => rfl, rfl, rfl, rfl⟩⟩

/-- Steps that build leave the static variables alone. -/
structure Building (P : FramePool σ) (s s' : SpaceVm σ) : Prop where
  builds : Builds P.toAllocator s.kernelMap s.vm s'.vm
  space : s'.space = s.space
  registry : SameRegistry s s'

theorem Building.kernelMap (w : Building P s s') : s'.kernelMap = s.kernelMap :=
  congrArg MapRef.space w.registry.kernelSpace

theorem Building.trans (w : Building P s s₁) (v : Building P s₁ s') : Building P s s' where
  builds := w.builds.trans (w.kernelMap ▸ v.builds)
  space := v.space.trans w.space
  registry := w.registry.trans v.registry

/-- The kernel's entries `l` are copied into the unpublished map. -/
structure Copies (P : FramePool σ) (l : List TableIndex) (s s' : SpaceVm σ) : Prop
    extends Building P s s' where
  record : s'.vm.map .unpublished = s.vm.map .unpublished
  pages : s'.vm.ownView .unpublished = s.vm.ownView .unpublished
  copied : ∀ j, s'.vm.entryAt .unpublished [] j =
    if j ∈ l then s.vm.entryAt s.kernelMap [] j else s.vm.entryAt .unpublished [] j

section Copies

variable {l l' : List TableIndex}

theorem Copies.trans (c : Copies P l s s₁) (d : Copies P l' s₁ s') : Copies P (l ++ l') s s' where
  toBuilding := c.toBuilding.trans d.toBuilding
  record := d.record.trans c.record
  pages := d.pages.trans c.pages
  copied j := by
    rw [d.copied, c.copied, c.kernelMap, c.builds.entry _ (by simp)]
    by_cases hj : j ∈ l' <;> simp [hj]

theorem Copies.of_sameTrees (h : VmInv P.toAllocator s.vm)
    (w : VmInv.SameTrees P.toAllocator s.vm s'.vm) (hspace : s'.space = s.space)
    (reg : SameRegistry s s') : Copies P [] s s' where
  toBuilding := ⟨.of_sameTrees h w, hspace, reg⟩
  record := by rw [w.map]
  pages := w.ownView h
  copied _ := w.entryAt trivial (Nat.zero_le _)

theorem spaceCreateFault_copies {fault : SpaceCreateTestFault} (h : VmInv P.toAllocator s.vm)
    (hr : s.spaceCreateFault P a fault = (r, s')) : Copies P [] s s' := by
  obtain ⟨w, hspace, reg⟩ := spaceCreateFault_cases h hr
  exact .of_sameTrees h w hspace reg

theorem shareKernelEntry_copies (h : VmInv P.toAllocator s.vm)
    (hr : shareKernelEntry cpu s.kernelMap i s.vm = (r, vm')) :
    Copies P (if r then [i] else []) s { s with vm := vm' } := by
  rcases vmmPageMapSharePml4Entry_cases h hr with ⟨rfl, rfl⟩ | ⟨rfl, sh⟩
  · exact ⟨⟨.refl h, rfl, .refl⟩, rfl, rfl, fun _ => rfl⟩
  · refine ⟨⟨.of_shares h sh, rfl, .of_vm⟩, ?_, sh.ownView h, fun j => ?_⟩
    · exact (sh.map .unpublished).resolve_right fun heq => nomatch heq.1
    · rw [sh.entry .unpublished [] j trivial (Nat.zero_le _)]
      by_cases hj : j = i <;> simp [hj]

/-- A loop that ends early has copied some of the entries. -/
theorem each_shareKernelEntry (h : VmInv P.toAllocator s.vm)
    (hr : each (shareKernelEntry cpu s.kernelMap) l s.vm = (r, vm')) :
    ∃ l', Copies P l' s { s with vm := vm' } ∧ (r = true → l' = l) := by
  induction l generalizing s with
  | nil =>
    cases hr
    exact ⟨[], ⟨⟨.refl h, rfl, .refl⟩, rfl, rfl, fun _ => rfl⟩, fun _ => rfl⟩
  | cons i l ih =>
    rcases hone : shareKernelEntry cpu s.kernelMap i s.vm with ⟨b, vm₁⟩
    have c := shareKernelEntry_copies h hone
    cases b with
    | false =>
      rw [each_cons_false hone] at hr
      cases hr
      exact ⟨_, c, nofun⟩
    | true =>
      rw [each_cons_true hone] at hr
      obtain ⟨l', d, hl⟩ := ih c.builds.inv hr
      exact ⟨[i] ++ l', c.trans d, fun ht => congrArg (i :: ·) (hl ht)⟩

theorem mem_indexRange {first last : Nat} : i ∈ indexRange first last ↔ first ≤ i.val ∧ i.val < last := by
  simp [indexRange]

/-- What building leaves, whether it came to its end or not. -/
structure Unpublished (P : FramePool σ) (s s' : SpaceVm σ) : Prop extends Building P s s' where
  source : (s'.vm.map .unpublished).sharedSource = false
  range : (s'.vm.map .unpublished).rootFrame ≠ none → (s'.vm.map .unpublished).UserRange

/-- The finished map: no page of its own, and the kernel's entries outside of its range. -/
structure Finished (s s' : SpaceVm σ) : Prop where
  root : (s'.vm.map .unpublished).rootFrame ≠ none
  pages : s'.vm.ownView .unpublished = fun _ => none
  entry : ∀ i : TableIndex, i.val = 0 ∨ userPml4End ≤ i.val →
    s'.vm.entryAt .unpublished [] i = s.vm.entryAt s.kernelMap [] i

theorem buildUnpublished_cases (h : VmInv P.toAllocator s.vm)
    (hroot : (s.vm.map .unpublished).rootFrame = none)
    (hsource : (s.vm.map .unpublished).sharedSource = false)
    (hr : s.buildUnpublished P cpu a = (r, s')) :
    Unpublished P s s' ∧ (r = true → Finished s s') := by
  unfold buildUnpublished at hr
  rcases hcreate : s.vm.vmmPageMapCreateOwnedRange P.toAllocator cpu .unpublished userPml4First
    userPml4End with ⟨r1, vm₁⟩
  rw [hcreate] at hr
  obtain ⟨w, hcases⟩ := vmmPageMapCreateOwnedRange_cases h hroot hcreate
  have wb : Building P s { s with vm := vm₁ } := ⟨.of_apart h w, rfl, .of_vm⟩
  rcases hcases with ⟨rfl, hnone, hmap, -⟩ | ⟨rfl, root, hmap, -, -, -, -, -, hzero⟩
  · cases hr
    refine ⟨⟨wb, ?_, fun hne => absurd hnone hne⟩, nofun⟩
    rcases hmap with hmap | hmap
    · exact (congrArg VmPageMap.sharedSource hmap).trans hsource
    · exact congrArg VmPageMap.sharedSource hmap
  -- from here on, entries are copied
  obtain ⟨l, c, hl⟩ : ∃ l, Copies P l { s with vm := vm₁ } s' ∧
      (r = true → ∀ i : TableIndex, i.val = 0 ∨ userPml4End ≤ i.val → i ∈ l) := by
    dsimp only at hr
    split at hr
    · rename_i hf
      cases hr
      exact ⟨_, spaceCreateFault_copies w.inv hf, nofun⟩
    rename_i s2 hf
    have c2 := spaceCreateFault_copies w.inv hf
    split at hr
    · rename_i hshare
      cases hr
      exact ⟨_, c2.trans (shareKernelEntry_copies c2.builds.inv hshare), nofun⟩
    rename_i vm3 hshare
    have c3 := c2.trans (shareKernelEntry_copies c2.builds.inv hshare)
    split at hr
    · rename_i hf
      cases hr
      exact ⟨_, c3.trans (spaceCreateFault_copies c3.builds.inv hf), nofun⟩
    rename_i s4 hf
    have c4 := c3.trans (spaceCreateFault_copies c3.builds.inv hf)
    obtain ⟨rfl, rfl⟩ := Prod.mk.inj hr
    obtain ⟨l', d, hl⟩ := each_shareKernelEntry c4.builds.inv Prod.mk.eta.symm
    refine ⟨_, c4.trans d, fun ht i hi => ?_⟩
    rw [hl ht]
    simpa [mem_indexRange] using hi.imp_left fun h0 => Fin.ext h0
  refine ⟨⟨wb.trans c.toBuilding, ?_, ?_⟩, fun ht => ⟨?_, ?_, fun i hi => ?_⟩⟩
  · rw [c.record]
    exact congrArg VmPageMap.sharedSource hmap
  · rw [c.record]
    exact fun _ => hmap ▸ ⟨rfl, rfl⟩
  · rw [c.record]
    simp [hmap]
  · rw [c.pages]
    funext va
    unfold ownView
    rw [vmmQueryPage_of_zero w.inv (hzero [] _), ite_self]
  · rw [c.copied, if_pos (hl ht i hi)]
    exact wb.builds.entry _ (by simp) i

end Copies

/-- An attempt that failed, seen from the address spaces. -/
theorem Unpublished.touches (h : SpaceInv P s) (u : Unpublished P s s') : Touches P none s s' where
  inv := by
    refine h.of_registry u.registry u.builds.inv (fun k hk => ?_) (fun b hb => ?_)
      (fun b _ => u.builds.shape b) u.range
    swap
    · rw [(u.builds.shape b).rootFrame]
      exact h.dead b hb
    by_cases hun : k = .unpublished
    · subst hun
      rw [u.source] at hk
      cases hk
    · exact (u.builds.source hun hk).elim (h.source k) id
  kernelSpace := u.registry.kernelSpace
  live _ _ := u.registry.live
  kept b _ := u.builds.kept _ (by simp)

theorem addressSpaceReclaimUnpublished_cases (h : SpaceInv P s)
    (hr : s.addressSpaceReclaimUnpublished P cpu = (r, s')) : Unpublished P s s' := by
  have hsource : (s.vm.map .unpublished).sharedSource = false :=
    Bool.eq_false_iff.mpr fun hs => nomatch h.source _ hs
  unfold addressSpaceReclaimUnpublished at hr
  split_ifs at hr with hnone
  · cases hr
    exact ⟨⟨.refl h.vm, rfl, .refl⟩, hsource, h.unpublished⟩
  rcases hd : s.vm.vmmPageMapDestroy P.toAllocator cpu .unpublished with ⟨r1, vm₁⟩
  rw [hd] at hr
  cases hr
  obtain ⟨w, ⟨-, df⟩ | ⟨-, -, -, hroot, hsrc, -⟩⟩ := vmmPageMapDestroy_cases h.vm hd
  · refine ⟨⟨.of_apart h.vm w, rfl, .of_vm⟩, ?_, fun hne => ?_⟩
    · rcases df.map with hm | hm <;> exact (congrArg VmPageMap.sharedSource hm).trans hsource
    · rcases df.map with hm | hm
      all_goals
        rw [hm] at hne ⊢
        exact h.unpublished hne
  · exact ⟨⟨.of_apart h.vm w, rfl, .of_vm⟩, hsrc, fun hne => absurd hroot hne⟩

/-! ### Publishing -/

/-- Moving a map to where there is none swaps the two records. -/
theorem publish_renames (slot : Fin addressSpaceStorageCapacity)
    (hinvalid : s.vm.map (.space a) = .invalid) :
    Renames (Equiv.swap (.space a) .unpublished) s.vm (s.publish a slot).vm where
  map k := by
    simp only [publish, setMap]
    by_cases hun : k = .unpublished
    · rw [hun, update_self, Equiv.swap_apply_right, hinvalid]
    · rw [update_of_ne hun]
      by_cases hk : k = .space a
      · rw [hk, update_self, Equiv.swap_apply_left]
      · rw [update_of_ne hk, Equiv.swap_apply_of_ne_of_ne hk hun]
  table := rfl
  pmm := rfl
  unlinkedTable := rfl
  usePhysMap := rfl

/-- The new address space: no page of its own, and the kernel's PML4 entries of the moment. -/
structure Created (a : SpaceRef) (s s' : SpaceVm σ) : Prop where
  ready : s.kernelReady = true
  fresh : ¬ s.SpaceStorageLive a
  live : s'.SpaceStorageLive a
  user : a ≠ s.kernelSpace
  pages : s'.vm.ownView (.space a) = fun _ => none
  entry : ∀ i : TableIndex, i.val = 0 ∨ userPml4End ≤ i.val →
    s'.vm.entryAt (.space a) [] i = s.vm.entryAt s.kernelMap [] i

theorem publish_touches {slot : Fin addressSpaceStorageCapacity} (h : SpaceInv P s)
    (hready : s.kernelReady = true) (ha : ¬ s.SpaceStorageLive a) (hslot : s.storage slot = none)
    (hinvalid : s.vm.map (.space a) = .invalid) (hkernel : (s.space a).kernel = false)
    (hroot : (s.vm.map .unpublished).rootFrame ≠ none) :
    Touches P (some a) s (s.publish a slot) ∧ (s.publish a slot).SpaceStorageLive a ∧
      a ≠ s.kernelSpace := by
  have hne : a ≠ s.kernelSpace := by
    rintro rfl
    exact ha (h.ready.mp hready)
  have rn := publish_renames slot hinvalid
  set π := Equiv.swap (MapRef.space a) .unpublished with hπ
  have hfix : ∀ b, b ≠ a → π (.space b) = .space b := fun b hb => by
    rw [Equiv.swap_apply_of_ne_of_ne (by simpa using hb) (by simp)]
  have hlive : ∀ b, (s.publish a slot).SpaceStorageLive b ↔ b = a ∨ s.SpaceStorageLive b :=
    fun b => Slots.live_put hslot
  have hspace : ∀ b, ((s.publish a slot).space b).kernel = (s.space b).kernel := fun b => by
    simp only [publish]
    by_cases hb : b = a
    · rw [hb, update_self]
    · rw [update_of_ne hb]
  have hmapa : (s.publish a slot).vm.map (.space a) = s.vm.map .unpublished := by
    rw [rn.map, Equiv.swap_apply_left]
  have hmapb : ∀ b, b ≠ a → (s.publish a slot).vm.map (.space b) = s.vm.map (.space b) :=
    fun b hb => by rw [rn.map, hfix b hb]
  refine ⟨⟨?_, rfl, fun b hb => ?_, fun b hb => rn.kept (hfix b fun hba => hb (hba ▸ rfl))⟩,
    (hlive a).mpr (.inl rfl), hne⟩
  · refine
      { vm := h.vm.rename rn
        nodup := Slots.nodup_put h.nodup ha
        source := fun k hk => ?_
        dead := fun b hb => ?_
        live := fun b hb => ?_
        kernel := fun b hb => ?_
        ready := ?_
        notReady := fun hr => absurd hready (by rw [show s.kernelReady = false from hr]; decide)
        kernelRange := fun _ i => ?_
        userRange := fun b hb hbk => ?_
        unpublished := fun hr => absurd ?_ hr }
    · rw [rn.map] at hk
      exact π.injective ((h.source _ hk).trans (hfix _ (Ne.symm hne)).symm)
    · rw [hlive, not_or] at hb
      rw [hmapb b hb.1]
      exact h.dead b hb.2
    · by_cases hba : b = a
      · rw [hba, hmapa]
        exact hroot
      · rw [hmapb b hba]
        exact h.live b (((hlive b).mp hb).resolve_left hba)
    · rw [hspace]
      by_cases hba : b = a
      · rw [hba, hkernel]
        exact ⟨nofun, fun hk => absurd hk hne⟩
      · exact h.kernel b (((hlive b).mp hb).resolve_left hba)
    · rw [hlive]
      exact ⟨fun hr => .inr (h.ready.mp hr), fun _ => hready⟩
    · rw [rn.own]
      change s.vm.forest.own (π (.space s.kernelSpace)) i
      rw [hfix _ (Ne.symm hne)]
      exact h.kernelRange (h.ready.mp hready) i
    · by_cases hba : b = a
      · rw [hba, hmapa]
        exact h.unpublished hroot
      · rw [hmapb b hba]
        exact h.userRange b (((hlive b).mp hb).resolve_left hba) hbk
    · rfl
  · rw [hlive]
    exact or_iff_right fun hba => hb (hba ▸ rfl)

/-- What the invariant says about an address space that is alive. -/
structure LiveAt (s : SpaceVm σ) (b : SpaceRef) : Prop where
  root : (s.vm.map (.space b)).rootFrame ≠ none
  kernel : (s.space b).kernel = true ↔ b = s.kernelSpace
  kernelRange : b = s.kernelSpace → ∀ i, s.vm.forest.own (.space b) i
  userRange : b ≠ s.kernelSpace → (s.vm.map (.space b)).UserRange

/-- A call on the map and the storage of one address space: what is left to show is about that
address space. -/
theorem SpaceInv.apart (h : SpaceInv P s) (w : Apart P.toAllocator (.space a) s.vm s'.vm)
    (hk : s'.kernelSpace = s.kernelSpace) (hnodup : s'.storage.Nodup)
    (hother : ∀ b, b ≠ a → (s'.SpaceStorageLive b ↔ s.SpaceStorageLive b) ∧
      (s'.space b).kernel = (s.space b).kernel)
    (hready : s'.kernelReady = true ↔ s'.SpaceStorageLive s.kernelSpace)
    (hempty : s'.kernelReady = false → s'.storage = Slots.empty)
    (hsource : (s'.vm.map (.space a)).sharedSource = true → a = s.kernelSpace)
    (hdead : ¬ s'.SpaceStorageLive a → (s'.vm.map (.space a)).rootFrame = none)
    (hlive : s'.SpaceStorageLive a → s'.LiveAt a) : Touches P (some a) s s' := by
  have hmap : ∀ b, b ≠ a → s'.vm.map (.space b) = s.vm.map (.space b) := fun b hb =>
    w.map _ (by simpa using hb)
  have hall : ∀ b, s'.SpaceStorageLive b → s'.LiveAt b := fun b hb => by
    by_cases hba : b = a
    · subst hba
      exact hlive hb
    · have hb' := (hother b hba).1.mp hb
      refine ⟨?_, ?_, fun hbk => ?_, fun hbk => ?_⟩
      · rw [hmap b hba]
        exact h.live b hb'
      · rw [(hother b hba).2, hk]
        exact h.kernel b hb'
      · rw [w.own (by simpa using hba), hbk, hk]
        exact h.kernelRange (hk ▸ hbk ▸ hb')
      · rw [hmap b hba]
        exact h.userRange b hb' (hk ▸ hbk)
  refine ⟨⟨w.inv, hnodup, fun k hs => ?_, fun b hb => ?_, fun b hb => (hall b hb).root,
    fun b hb => (hall b hb).kernel, hk ▸ hready, hempty, fun hl => (hall _ hl).kernelRange rfl,
    fun b hb => (hall b hb).userRange, ?_⟩, hk,
    fun b hb => (hother b fun hba => hb (hba ▸ rfl)).1,
    fun b hb => w.kept h.vm fun hka => hb (by cases hka; rfl)⟩
  · refine Eq.trans ?_ (congrArg MapRef.space hk.symm)
    by_cases hka : k = .space a
    · subst hka
      exact congrArg MapRef.space (hsource hs)
    · rw [w.map k hka] at hs
      exact h.source k hs
  · by_cases hba : b = a
    · subst hba
      exact hdead hb
    · rw [hmap b hba]
      exact h.dead b (mt (hother b hba).1.mpr hb)
  · rw [w.map _ (by simp)]
    exact h.unpublished

theorem wipe_map_self : (s.wipe a).vm.map (.space a) = .invalid := setMap_map_self

theorem SpaceInv.wipe (h : SpaceInv P s) (ha : ¬ s.SpaceStorageLive a) :
    Touches P (some a) s (s.wipe a) := by
  refine h.apart (h.vm.apart_setMap (h.dead a ha) rfl) rfl h.nodup
    (fun b hb => ⟨Iff.rfl, ?_⟩) h.ready h.notReady ?_ ?_ fun hl => absurd hl ha
  · change (update s.space a _ b).kernel = _
    rw [update_of_ne hb]
  · rw [wipe_map_self]
    exact nofun
  · rw [wipe_map_self]
    exact fun _ => rfl

theorem addressSpaceCreate_cases (h : SpaceInv P s) (hr : s.addressSpaceCreate P cpu a = (r, s')) :
    Touches P (some a) s s' ∧
      (r = false ∧ (s' = s ∨ ¬ s.SpaceStorageLive a ∧ ¬ s'.SpaceStorageLive a) ∨
        r = true ∧ Created a s s') := by
  unfold addressSpaceCreate at hr
  split at hr
  · cases hr
    exact ⟨.refl h, .inl ⟨rfl, .inl rfl⟩⟩
  rename_i ha
  have w0 := h.wipe ha
  simp only at hr
  have ha0 : ¬ (s.wipe a).SpaceStorageLive a := ha
  have hinvalid0 : (s.wipe a).vm.map (.space a) = .invalid := wipe_map_self
  have hkernel0 : ((s.wipe a).space a).kernel = false := by simp [SpaceVm.wipe]
  have hready0 : (s.wipe a).kernelReady = s.kernelReady := rfl
  have hentry0 : ∀ k i, k ≠ .space a → (s.wipe a).vm.entryAt k [] i = s.vm.entryAt k [] i :=
    fun k i hk => setMap_entryAt_of_ne hk
  generalize s.wipe a = s0 at hr w0 ha0 hinvalid0 hkernel0 hready0 hentry0
  split at hr
  · cases hr
    exact ⟨w0, .inl ⟨rfl, .inr ⟨ha, ha0⟩⟩⟩
  rename_i hguard
  simp only [not_or, not_not] at hguard
  obtain ⟨hready, -, hroot⟩ := hguard
  split at hr
  · cases hr
    exact ⟨w0, .inl ⟨rfl, .inr ⟨ha, ha0⟩⟩⟩
  rename_i slot hslot
  rcases hf1 : s0.spaceCreateFault P a .allocate with ⟨r1, s₁⟩
  rw [hf1] at hr
  obtain ⟨same1, hspace1, reg1⟩ := spaceCreateFault_cases w0.inv.vm hf1
  have w1 : Touches P (some a) s s₁ := w0.trans (w0.inv.elsewhere reg1 same1).of_none
  have ha1 : ¬ s₁.SpaceStorageLive a := mt reg1.live.mp ha0
  cases r1 with
  | true =>
    cases hr
    exact ⟨w1, .inl ⟨rfl, .inr ⟨ha, ha1⟩⟩⟩
  | false =>
    simp only at hr
    have hmap1 : s₁.vm.map = s0.vm.map := same1.map
    have hsource1 : (s₁.vm.map .unpublished).sharedSource = false :=
      Bool.eq_false_iff.mpr fun hs => nomatch w1.inv.source _ hs
    rcases hb : s₁.buildUnpublished P cpu a with ⟨r2, s2⟩
    rw [hb] at hr
    obtain ⟨u, hfin⟩ := buildUnpublished_cases w1.inv.vm (by rw [hmap1]; exact hroot) hsource1 hb
    have w2 : Touches P (some a) s s2 := w1.trans (u.touches w1.inv).of_none
    have ha2 : ¬ s2.SpaceStorageLive a := mt u.registry.live.mp ha1
    cases r2 with
    | false =>
      cases hr
      have v := addressSpaceReclaimUnpublished_cases w2.inv
        (show s2.addressSpaceReclaimUnpublished P cpu = (_, _) from rfl)
      exact ⟨w2.trans (v.touches w2.inv).of_none,
        .inl ⟨rfl, .inr ⟨ha, mt v.registry.live.mp ha2⟩⟩⟩
    | true =>
      cases hr
      have fin := hfin rfl
      have hready2 : s2.kernelReady = true := by
        rw [u.registry.kernelReady, reg1.kernelReady]
        exact hready
      have hslot2 : s2.storage slot = none := by
        rw [u.registry.storage, reg1.storage]
        exact Slots.get_of_firstEmpty hslot
      have hinvalid2 : s2.vm.map (.space a) = .invalid := by
        rcases u.builds.map (.space a) (by simp) with heq | ⟨heq, -⟩
        · rw [heq, hmap1, hinvalid0]
        · exfalso
          have hk : s₁.kernelReady = true := by
            rw [reg1.kernelReady]
            exact hready
          have hk := w1.inv.ready.mp hk
          cases heq
          exact ha1 hk
      have hkernel2 : (s2.space a).kernel = false := by rw [u.space, hspace1, hkernel0]
      obtain ⟨w3, hlive3, hne⟩ :=
        publish_touches w2.inv hready2 ha2 hslot2 hinvalid2 hkernel2 fin.root
      have rn := publish_renames slot hinvalid2
      have hk1 : s₁.kernelMap = s.kernelMap := congrArg MapRef.space w1.kernelSpace
      refine ⟨w2.trans w3, .inr ⟨rfl, hready0 ▸ hready, ha, hlive3, w2.kernelSpace ▸ hne, ?_, fun i hi => ?_⟩⟩
      · rw [rn.ownView, Equiv.swap_apply_left, fin.pages]
      · have hne0 : s.kernelMap ≠ .space a := fun heq => by
          cases heq
          exact hne w2.kernelSpace.symm
        rw [rn.entryAt, Equiv.swap_apply_left, fin.entry i hi, hk1, ← hentry0 _ _ hne0]
        exact same1.entryAt trivial (Nat.zero_le _)

/-! ### The other calls -/

/-- The kernel's address space: all slots are its own. -/
theorem addressSpaceKernelInit_cases (h : SpaceInv P s)
    (hr : s.addressSpaceKernelInit P cpu = (r, s')) :
    Touches P (some s.kernelSpace) s s' ∧ (s' = s ∨ ¬ s.SpaceStorageLive s.kernelSpace) := by
  unfold addressSpaceKernelInit at hr
  split at hr
  · cases hr
    exact ⟨.refl h, .inl rfl⟩
  rename_i hready
  have hempty := h.notReady (Bool.eq_false_iff.mpr hready)
  have hnot : ∀ b, ¬ s.SpaceStorageLive b := fun b hb => by
    unfold SpaceStorageLive at hb
    rw [hempty] at hb
    exact Slots.not_live_empty b hb
  simp only at hr
  rcases hcreate : s.vm.vmmPageMapCreateOwnedRange P.toAllocator cpu (.space s.kernelSpace) 0
    pageTableEntries with ⟨r1, vm₁⟩
  rw [hcreate] at hr
  obtain ⟨w, hcases⟩ := vmmPageMapCreateOwnedRange_cases h.vm (h.dead _ (hnot _)) hcreate
  have hother : ∀ (info : SpaceInfo) b, b ≠ s.kernelSpace →
      (update s.space s.kernelSpace info b).kernel = (s.space b).kernel :=
    fun _ b hb => by rw [update_of_ne hb]
  rcases hcases with ⟨rfl, hnone, -, -⟩ | ⟨rfl, root, hmap, -, -, -, -, -, -⟩
  · cases hr
    exact ⟨h.apart w rfl h.nodup (fun b hb => ⟨Iff.rfl, hother _ b hb⟩) h.ready h.notReady
      (fun _ => rfl) (fun _ => hnone) fun hl => absurd hl (hnot _), .inr (hnot _)⟩
  · cases hr
    have hlive : ∀ b, (s.storage.put ⟨0, by decide⟩ s.kernelSpace).Live b ↔ b = s.kernelSpace := fun b => by
      rw [Slots.live_put (by rw [hempty]; rfl)]
      exact or_iff_left (hnot b)
    refine ⟨h.apart w rfl (Slots.nodup_put h.nodup (hnot _))
      (fun b hb => ⟨iff_of_false (mt (hlive b).mp hb) (hnot b), hother _ b hb⟩)
      (iff_of_true rfl ((hlive _).mpr rfl)) nofun (fun _ => rfl)
      (fun hl => absurd ((hlive _).mpr rfl) hl)
      fun _ => ⟨?_, by simp, fun _ i => ?_, fun hne => absurd rfl hne⟩, .inr (hnot _)⟩
    · rw [hmap]
      simp
    · change _ ≤ _ ∧ _ < _
      rw [hmap]
      exact ⟨Nat.zero_le _, i.isLt⟩

theorem addressSpaceDestroy_cases (h : SpaceInv P s) (hr : s.addressSpaceDestroy P cpu a = (r, s')) :
    Touches P (some a) s s' ∧
      (r = false ∧ (s'.SpaceStorageLive a ↔ s.SpaceStorageLive a) ∧ SameRoot (.space a) s.vm s'.vm ∧
          s'.vm.ownView (.space a) = s.vm.ownView (.space a) ∨
        r = true ∧ a ≠ s.kernelSpace ∧ ¬ s'.SpaceStorageLive a) := by
  unfold addressSpaceDestroy at hr
  split at hr
  · cases hr
    exact ⟨.refl h, .inl ⟨rfl, Iff.rfl, ⟨rfl, rfl, fun _ _ => rfl⟩, rfl⟩⟩
  rename_i slot hfind
  split at hr
  · cases hr
    exact ⟨.refl h, .inl ⟨rfl, Iff.rfl, ⟨rfl, rfl, fun _ _ => rfl⟩, rfl⟩⟩
  rename_i hguard
  simp only [not_or] at hguard
  have hslot : s.storage slot = some a := Slots.get_of_find hfind
  have ha : s.SpaceStorageLive a := ⟨slot, hslot⟩
  rcases hd : s.vm.vmmPageMapDestroy P.toAllocator cpu (.space a) with ⟨r1, vm₁⟩
  rw [hd] at hr
  obtain ⟨w, hcases⟩ := vmmPageMapDestroy_cases h.vm hd
  rcases hcases with ⟨rfl, df⟩ | ⟨rfl, -, -, hroot, hsrc, -⟩
  · cases hr
    have hshape : (s.vm.map (.space a)).SameShape (vm₁.map (.space a)) := by
      rcases df.map with hm | hm <;> rw [hm] <;> exact ⟨rfl, rfl, rfl⟩
    have hown : vm₁.forest.own (.space a) = s.vm.forest.own (.space a) := by
      funext i
      change (_ ≤ _ ∧ _ < _) = (_ ≤ _ ∧ _ < _)
      rw [hshape.first, hshape.last]
    refine ⟨h.apart w rfl h.nodup (fun _ _ => ⟨Iff.rfl, rfl⟩) h.ready h.notReady (fun hs => ?_)
      (fun hl => absurd ha hl) fun _ => ⟨hshape.rootFrame ▸ h.live a ha, h.kernel a ha,
        fun hk => absurd hk hguard.1, fun hne => ?_⟩,
      .inl ⟨rfl, Iff.rfl, ⟨hshape.rootFrame, hown, df.foreign⟩,
        ownView_congr h.vm w.inv hown df.leaf⟩⟩
    · refine MapRef.space.inj (h.source _ ?_)
      rcases df.map with hm | hm <;> rw [hm] at hs <;> exact hs
    · have hrange := h.userRange a ha hne
      exact ⟨hshape.first.trans hrange.1, hshape.last.trans hrange.2⟩
  · cases hr
    have hlive : ∀ b, (s.storage.clear slot).Live b ↔ b ≠ a ∧ s.storage.Live b := fun b =>
      Slots.live_clear h.nodup hslot
    have hgone : ¬ (s.storage.clear slot).Live a := fun hl => ((hlive a).mp hl).1 rfl
    refine ⟨h.apart w rfl (Slots.nodup_clear h.nodup)
      (fun b hb => ⟨(hlive b).trans (and_iff_right hb), ?_⟩)
      (h.ready.trans ((hlive _).trans (and_iff_right (Ne.symm hguard.1))).symm) (fun hready => ?_)
      (fun hs => absurd (hsrc.symm.trans hs) nofun) (fun _ => hroot) fun hl => absurd hl hgone,
      .inr ⟨rfl, hguard.1, hgone⟩⟩
    · change (update s.space a _ b).kernel = _
      rw [update_of_ne hb]
    · have hempty := h.notReady hready
      rw [hempty] at hslot
      cases hslot

end SpaceVm

end JcosKernel
