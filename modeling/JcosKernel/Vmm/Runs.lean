import JcosKernel.Pmm.Allocator
import JcosKernel.Vmm.Maps

/-!
# JcosKernel.Vmm.Runs

The VMM as a system: any calls on any page maps, in any order, while other code works
elsewhere in memory and with the frame allocator.

The abstract counterpart of a page map is a function from addresses to frames and flags
(`PageView`), and each call has its meaning on it (`VmmEvent.applyTo`). One step of the system
refines one step of the abstract map (`VmmStep.view`), hence so do whole runs.
-/

namespace JcosKernel

open Lib Function

variable {R σ : Type}

/-! ### The system -/

/-- The calls of `vmm.h`. -/
inductive VmmCall (R : Type)
  | map (k : R) (va frame : Nat) (flags : VmFlags)
  | unmap (k : R) (va : Nat)
  | setWritable (k : R) (va expected : Nat) (expectedFlags : VmFlags) (writable : Bool)
  | collect (k : R)
  | create (k : R) (first last : Nat)
  | destroy (k : R)
  | share (destination source : R) (index : TableIndex)
  | failOnce (k : R) (fault : VmmTestFault) (skip : Nat)
  | reclaim
  deriving DecidableEq

/-- What a call returns: `vmm_unmap_page` also stores a frame. -/
inductive VmmResult
  | done (result : Bool)
  | unmapped (frame : Option Nat)
  deriving DecidableEq

inductive VmmEvent (R : Type)
  | call (cpu : Cpu) (c : VmmCall R) (result : VmmResult)
  | elsewhere

/-- A function from page addresses to frames and flags. -/
abbrev PageView := Nat → Option (Nat × VmFlags)

section Exec

variable [DecidableEq R]

/-- Run a call. -/
def VmmCall.exec (A : Allocator Nat σ) (cpu : Cpu) (s : VmState R σ) :
    VmmCall R → VmmResult × VmState R σ
  | .map k va frame flags => (s.vmmMapPage A cpu k va frame flags).map .done id
  | .unmap k va => (s.vmmUnmapPage A cpu k va).map .unmapped id
  | .setWritable k va expected expectedFlags writable =>
    (s.vmmSetWritable cpu k va expected expectedFlags writable).map .done id
  | .collect k => (s.vmmPageMapCollect A cpu k).map .done id
  | .create k first last => (s.vmmPageMapCreateOwnedRange A cpu k first last).map .done id
  | .destroy k => (s.vmmPageMapDestroy A cpu k).map .done id
  | .share destination source index =>
    (s.vmmPageMapSharePml4Entry cpu destination source index).map .done id
  | .failOnce k fault skip => (s.vmmTestFailOnce k fault skip).map .done id
  | .reclaim => (s.vmmReclaimUnlinkedTable A).map .done id

/-- A page map is created only where there is none. -/
def VmmCall.Allowed (s : VmState R σ) : VmmCall R → Prop
  | .create k _ _ => (s.map k).rootFrame = none
  | _ => True

instance (s : VmState R σ) (c : VmmCall R) : Decidable (c.Allowed s) := by
  cases c <;> unfold VmmCall.Allowed <;> infer_instance

inductive VmmStep (A : Allocator Nat σ) : VmState R σ → VmmEvent R → VmState R σ → Prop
  | call {s s' : VmState R σ} (cpu : Cpu) {c : VmmCall R} {r : VmmResult} (h : c.Allowed s)
      (hr : c.exec A cpu s = (r, s')) : VmmStep A s (.call cpu c r) s'
  /-- Other code changes memory that holds no table, and allocates and frees other frames. -/
  | elsewhere {s s' : VmState R σ} (h : VmState.VmInv.SameTrees A s s') : VmmStep A s .elsewhere s'

/-- There is no page map yet. -/
structure VmmBoot (s : VmState R σ) : Prop where
  map : ∀ k, (s.map k).rootFrame = none
  unlinked : s.unlinkedTable = none

end Exec

variable {cs : List (Cpu × VmmCall R)} {i : TableIndex} {dst k' src : R}

namespace VmState

variable {A : Allocator Nat σ} {cpu : Cpu} {s s' s₀ : VmState R σ} {k : R} {va : Nat}
  {es : List (VmmEvent R)} {e : VmmEvent R}

/-- The pages of a map. -/
def view (s : VmState R σ) (k : R) : PageView := fun va => s.vmmQueryPage k va

/-- Nothing is shared into the map. -/
def Closed (s : VmState R σ) (k : R) : Prop := ∀ i, ¬ s.forest.own k i → s.entryAt k [] i = 0

theorem VmInv.boot (h : VmmBoot s) : VmInv A s := by
  have htab : ∀ k q, s.tableAt k q = none := fun k q => Forest.table_of_root_none (h.map k)
  have hentry : ∀ k q i, s.entryAt k q i = 0 := fun k q i => entryAt_of_none (htab k q)
  refine ⟨fun k q _ _ a _ _ _ _ ha => ?_, fun k q a _ _ ha => ?_, fun k q i _ _ => .inl (hentry k q i),
    fun k q i _ _ => .inl (hentry k q i), fun k q i j _ _ hu => ?_,
    fun k i _ => .inl (hentry k [] i), fun f hf => ?_, fun k hk => absurd (h.map k) hk⟩
  · change s.tableAt k q = some a at ha
    rw [htab] at ha
    cases ha
  · rw [htab] at ha
    cases ha
  · rw [hentry] at hu
    exact absurd hu not_has_zero
  · rw [h.unlinked] at hf
    cases hf

/-! ### One map -/

/-- The pages of a map that lie in its own tables. -/
def ownView (s : VmState R σ) (k : R) : PageView := fun va =>
  if (s.map k).OwnsPml4Index (pml4Index va) then s.vmmQueryPage k va else none

theorem ownView_of_own (h : s.forest.own k (pml4Index va)) : s.ownView k va = s.vmmQueryPage k va :=
  if_pos h

theorem ownView_of_not_own (h : ¬ s.forest.own k (pml4Index va)) : s.ownView k va = none :=
  if_neg h

/-- If nothing is shared into a map, it has no other pages. -/
theorem Closed.view_eq (h : VmInv A s) (hc : s.Closed k) : s.view k = s.ownView k := by
  funext va
  by_cases ho : s.forest.own k (pml4Index va)
  · exact (ownView_of_own ho).symm
  · rw [ownView_of_not_own ho]
    exact vmmQueryPage_of_zero h (hc _ ho)

/-- A page is decided by its leaf. -/
theorem ownView_congr_at (h : VmInv A s) (h' : VmInv A s') (hown : s'.forest.own k = s.forest.own k)
    (hleaf : s.forest.own k (pml4Index va) → PageAligned va → VirtualAddressCanonical va →
      s'.entryAt k (tablePath va) (ptIndex va) = s.entryAt k (tablePath va) (ptIndex va)) :
    s'.ownView k va = s.ownView k va := by
  by_cases ho : s.forest.own k (pml4Index va)
  swap
  · rw [ownView_of_not_own ho, ownView_of_not_own (by rw [hown]; exact ho)]
  have ho' : s'.forest.own k (pml4Index va) := hown ▸ ho
  rw [ownView_of_own ho, ownView_of_own ho']
  by_cases hgood : PageAligned va ∧ VirtualAddressCanonical va
  · rw [vmmQueryPage_eq h' ho' hgood.1 hgood.2, vmmQueryPage_eq h ho hgood.1 hgood.2,
      hleaf ho hgood.1 hgood.2]
  · rw [vmmQueryPage_bad_address (not_and_or.mp hgood),
      vmmQueryPage_bad_address (not_and_or.mp hgood)]

theorem ownView_congr (h : VmInv A s) (h' : VmInv A s') (hown : s'.forest.own k = s.forest.own k)
    (hleaf : ∀ q i, s.forest.Owned k q → q.length = 3 → s'.entryAt k q i = s.entryAt k q i) :
    s'.ownView k = s.ownView k := by
  funext va
  exact ownView_congr_at h h' hown fun ho _ _ => hleaf _ _ ho length_tablePath

theorem Upkeep.ownView (h : VmInv A s) (u : Upkeep A k s s') : s'.ownView k = s.ownView k :=
  ownView_congr h u.inv (by rw [u.forest]) u.leaf

/-- Storing a leaf changes one page. -/
theorem StoresLeaf.ownView {x : Pte} (h : VmInv A s) (st : StoresLeaf A k va x s s')
    (hal : PageAligned va) (hcan : VirtualAddressCanonical va)
    (hown : (s.map k).OwnsPml4Index (pml4Index va)) :
    s'.ownView k = update (s.ownView k) va (leafView x) := by
  have hmap : s'.forest.own k = s.forest.own k := by rw [st.forest]
  have hown' : s'.forest.own k (pml4Index va) := hmap ▸ hown
  funext va'
  by_cases hva : va' = va
  · rw [hva, update_self, ownView_of_own hown', vmmQueryPage_eq st.inv hown' hal hcan, st.store]
  · rw [update_of_ne hva]
    refine ownView_congr_at h st.inv hmap fun ho hal' hcan' => ?_
    rw [st.leaf (p := tablePath va') ho length_tablePath, if_neg]
    rintro ⟨hpath, hpt⟩
    exact hva (address_unique hal' hal hcan' hcan hpath hpt)

theorem Apart.ownView (w : Apart A k' s s') (h : VmInv A s) (hk : k ≠ k') :
    s'.ownView k = s.ownView k :=
  ownView_congr h w.inv (w.own hk) fun _ _ hq hd => w.entryAt h hk hq (by omega)

theorem VmInv.SameTrees.ownView (w : VmInv.SameTrees A s s') (h : VmInv A s) :
    s'.ownView k = s.ownView k :=
  ownView_congr h (h.elsewhere w) (by rw [forest_congr w.map]) fun _ _ hq hd => w.entryAt hq (by omega)

/-- The root of a map and the entries that it does not own are as before. -/
structure SameRoot (k : R) (s s' : VmState R σ) : Prop where
  root : (s'.map k).rootFrame = (s.map k).rootFrame
  own : s'.forest.own k = s.forest.own k
  entry : ∀ i, ¬ s.forest.own k i → s'.entryAt k [] i = s.entryAt k [] i

theorem SameRoot.trans {s1 : VmState R σ} (r : SameRoot k s s1) (r' : SameRoot k s1 s') :
    SameRoot k s s' where
  root := r'.root.trans r.root
  own := r'.own.trans r.own
  entry i hi := (r'.entry i (r.own ▸ hi)).trans (r.entry i hi)

theorem SameRoot.closed (r : SameRoot k s s') (hc : s.Closed k) : s'.Closed k := fun i hi => by
  rw [r.own] at hi
  rw [r.entry i hi, hc i hi]

theorem Work.sameRoot (w : Work A k s s') : SameRoot k s s' :=
  ⟨by rw [w.map], by rw [w.forest], w.foreign⟩

theorem Apart.sameRoot (w : Apart A k' s s') (h : VmInv A s) (hk : k ≠ k') : SameRoot k s s' :=
  ⟨w.root hk, w.own hk, fun _ _ => w.entryAt h hk trivial (Nat.zero_le _)⟩

theorem Work.sameRoot_of_inv (w : Work A k' s s') (h : VmInv A s) : SameRoot k s s' := by
  by_cases hk : k = k'
  · subst hk
    exact w.sameRoot
  · exact w.apart.sameRoot h hk

theorem VmInv.SameTrees.sameRoot (w : VmInv.SameTrees A s s') : SameRoot k s s' :=
  ⟨by rw [w.map], by rw [forest_congr w.map],
    fun _ _ => w.entryAt trivial (Nat.zero_le _)⟩

theorem Shares.sameRoot [DecidableEq R] (sh : Shares A dst src i s s') (hk : k ≠ dst) :
    SameRoot k s s' := by
  refine ⟨?_, by rw [sh.forest], fun j _ => ?_⟩
  · exact congrFun (congrArg Forest.root sh.forest) k
  · rw [sh.entry k [] j trivial (Nat.zero_le _), if_neg fun hh => hk hh.1]

theorem Shares.ownView [DecidableEq R] (sh : Shares A dst src i s s') (h : VmInv A s) :
    s'.ownView k = s.ownView k := by
  refine ownView_congr h sh.inv (by rw [sh.forest]) fun q j hq hd => ?_
  rw [sh.entry k q j hq (by omega), if_neg]
  rintro ⟨-, rfl, -⟩
  cases hd

end VmState

/-! ### The abstract map -/

namespace VmmEvent

variable [DecidableEq R]

/-- What an event means for the pages of the map `k`. -/
def applyTo (k : R) (m : PageView) : VmmEvent R → PageView
  | .call _ (.map k' va frame flags) (.done true) =>
    if k' = k then update m va (some (frame, flags)) else m
  | .call _ (.unmap k' va) (.unmapped (some _)) => if k' = k then update m va none else m
  | .call _ (.setWritable k' va _ _ writable) (.done true) =>
    if k' = k then
      update m va ((m va).map fun (frame, flags) =>
        (frame, if writable then flags ||| vmWrite else flags &&& ~~~vmWrite))
    else m
  | _ => m

/-- What the result of a call on the map `k` says about the pages before it. -/
def Agrees (k : R) (m : PageView) : VmmEvent R → Prop
  | .call _ (.map k' va _ _) (.done true) =>
    k' = k → m va = none ∧ PageAligned va ∧ VirtualAddressCanonical va
  | .call _ (.unmap k' va) (.unmapped (some frame)) => k' = k → ∃ flags, m va = some (frame, flags)
  | .call _ (.setWritable k' va expected expectedFlags _) (.done true) =>
    k' = k → m va = some (expected, expectedFlags) ∧ ¬ Has expectedFlags vmExec
  | _ => True

/-- The map `k` is not created or destroyed, and nothing is shared into it. -/
def Keeps (k : R) : VmmEvent R → Prop
  | .call _ (.create k' _ _) _ => k' ≠ k
  | .call _ (.destroy k') _ => k' ≠ k
  | .call _ (.share destination _ _) _ => destination ≠ k
  | _ => True

/-- The pages that a new map has after some events. -/
def pages (k : R) (es : List (VmmEvent R)) : PageView := es.foldl (applyTo k) fun _ => none

end VmmEvent

section Steps

open VmState

variable [DecidableEq R] {A : Allocator Nat σ} {s s' s₀ : VmState R σ} {k : R}
  {es : List (VmmEvent R)} {e : VmmEvent R}

/-- An event that changes no page of the map. -/
def VmmEvent.Quiet (e : VmmEvent R) (k : R) : Prop := ∀ m, e.applyTo k m = m ∧ e.Agrees k m

/-- One step refines the abstract map. -/
def VmmEvent.Refines (e : VmmEvent R) (k : R) (s s' : VmState R σ) : Prop :=
  s'.ownView k = e.applyTo k (s.ownView k) ∧ e.Agrees k (s.ownView k)

theorem VmmEvent.Quiet.refines (he : e.Quiet k) (hview : s'.ownView k = s.ownView k) :
    e.Refines k s s' :=
  ⟨hview.trans (he _).1.symm, (he _).2⟩

/-- What a step can do. -/
inductive VmmEffect (A : Allocator Nat σ) (s s' : VmState R σ) (e : VmmEvent R) : Prop
  | work (k : R) (w : Work A k s s') (here : e.Refines k s s') (he : ∀ k', k' ≠ k → e.Quiet k')
  | record (k : R) (he : ∀ k, e.Quiet k) (hk : ¬ e.Keeps k) (w : Apart A k s s')
  | shared (dst src : R) (i : TableIndex) (he : ∀ k, e.Quiet k) (hk : ¬ e.Keeps dst)
      (sh : Shares A dst src i s s')
  | elsewhere (he : ∀ k, e.Quiet k) (w : VmInv.SameTrees A s s')

theorem VmmEffect.upkeep (h : VmInv A s) (he : ∀ k, e.Quiet k) (u : Upkeep A k s s') :
    VmmEffect A s s' e :=
  .work k u.toWork ((he k).refines (u.ownView h)) fun k' _ => he k'

/-- The result of a call that pairs what it returned with the state it left. -/
theorem map_eq_mk {α β γ : Type} {f : α → β} {x : α × γ} {r : β} {c : γ}
    (h : x.map f id = (r, c)) : ∃ a, x = (a, c) ∧ r = f a := by
  obtain ⟨a, c⟩ := x
  cases h
  exact ⟨a, rfl, rfl⟩

theorem VmmStep.effect (h : VmInv A s) (hs : VmmStep A s e s') : VmmEffect A s s' e := by
  have hquiet : ∀ {cpu c} (k : R), (VmmEvent.call cpu c (.done false)).Quiet k := by
    intro cpu c k m
    cases c <;> exact ⟨rfl, trivial⟩
  cases hs with
  | elsewhere w => exact .elsewhere (fun _ _ => ⟨rfl, trivial⟩) w
  | call cpu hal hr =>
    rename_i c r
    cases c with obtain ⟨b, hb, rfl⟩ := map_eq_mk hr
    | map k va frame flags =>
      rcases vmmMapPage_cases h hb with ⟨rfl, u, -⟩ | ⟨rfl, acc, old, st⟩
      · exact .upkeep h hquiet u
      have hview := st.ownView h acc.aligned acc.canonical acc.owns
      rw [leafView_leafEntry (leafEntry_leaf acc.frame flags), leafFlags_leaf acc.frame acc.flags,
        entryFrame_framePte acc.frame (leafBits_and_mask flags)] at hview
      refine .work k st.toWork ⟨hview.trans (if_pos rfl).symm, fun _ => ⟨?_, acc.aligned, acc.canonical⟩⟩
        fun _ hk _ => ⟨if_neg hk.symm, fun hk' => absurd hk' hk.symm⟩
      rw [ownView_of_own acc.owns, vmmQueryPage_eq h acc.owns acc.aligned acc.canonical, old,
        leafView_zero]
    | unmap k va =>
      rcases vmmUnmapPage_cases h hb with ⟨rfl, rfl⟩ | ⟨rfl, hal, hcan, hown, leaf, st, -⟩
      · exact .upkeep (k := k) h (fun _ _ => ⟨rfl, trivial⟩) (.refl h)
      refine .work k st.toWork ⟨(st.ownView h hal hcan hown).trans ?_, fun _ => ?_⟩
        fun _ hk _ => ⟨if_neg hk.symm, fun hk' => absurd hk' hk.symm⟩
      · rw [leafView_zero, VmmEvent.applyTo, if_pos rfl]
      · rw [ownView_of_own hown, vmmQueryPage_eq h hown hal hcan, leafView_leafEntry leaf]
        exact ⟨_, rfl⟩
    | setWritable k va expected flags writable =>
      rcases vmmSetWritable_cases h hb with ⟨rfl, rfl, -⟩ | ⟨rfl, acc, leaf, st⟩
      · exact .upkeep (k := k) h hquiet (.refl h)
      -- the entry was the expected one, so only its WRITE bit differs
      have hold : s.ownView k va = some (expected, flags) := (ownView_of_own acc.owns).trans acc.query
      have hquery := acc.query
      rw [vmmQueryPage_eq h acc.owns acc.aligned acc.canonical, leafView_leafEntry leaf] at hquery
      obtain ⟨hframe, hflags⟩ := Prod.mk.inj (Option.some.inj hquery)
      refine .work k st.toWork ⟨?_, fun _ => ⟨hold, acc.exec⟩⟩
        fun _ hk _ => ⟨if_neg hk.symm, fun hk' => absurd hk' hk.symm⟩
      rw [st.ownView h acc.aligned acc.canonical acc.owns, leafView_leafEntry (leaf.withWrite writable),
        entryFrame_withWrite, leafFlags_withWrite, hframe, hflags, VmmEvent.applyTo, if_pos rfl, hold]
      rfl
    | collect k =>
      exact .upkeep h (fun _ _ => ⟨rfl, trivial⟩) (vmmPageMapCollect_cases h hb).1
    | create k first last =>
      exact .record k (fun _ _ => ⟨rfl, trivial⟩) (fun hk => hk rfl)
        (vmmPageMapCreateOwnedRange_cases h hal hb).1
    | destroy k =>
      exact .record k (fun _ _ => ⟨rfl, trivial⟩) (fun hk => hk rfl)
        (vmmPageMapDestroy_cases h hb).1
    | share dst src i =>
      rcases vmmPageMapSharePml4Entry_cases h hb with ⟨rfl, rfl⟩ | ⟨rfl, sh⟩
      · exact .upkeep (k := dst) h hquiet (.refl h)
      · exact .shared dst src i (fun _ _ => ⟨rfl, trivial⟩) (fun hk => hk rfl) sh
    | failOnce k fault skip =>
      obtain ⟨fs, rfl⟩ := vmmTestFailOnce_same hb
      exact .elsewhere (fun _ _ => ⟨rfl, trivial⟩) (.faults h fs)
    | reclaim =>
      exact .elsewhere (fun _ _ => ⟨rfl, trivial⟩)
        ((vmmReclaimUnlinkedTable_books h hb).1.sameTrees h)

theorem VmmEffect.inv (h : VmInv A s) (he : VmmEffect A s s' e) : VmInv A s' := by
  cases he with
  | work k w here he => exact w.inv
  | record k he hk w => exact w.inv
  | shared dst src i he hk sh => exact sh.inv
  | elsewhere he w => exact h.elsewhere w

/-- The invariant holds in every state that the VMM reaches. -/
theorem vmInv_of_run (h0 : VmmBoot s₀) (hrun : Run (VmmStep A) s₀ es s) : VmInv A s :=
  hrun.invariant (VmInv.boot h0) fun _ _ _ h hs => (hs.effect h).inv h

/-- A step that keeps a map leaves its root. -/
theorem VmmEffect.sameRoot (h : VmInv A s) (hk : e.Keeps k) (he : VmmEffect A s s' e) :
    SameRoot k s s' := by
  cases he with
  | work k' w here he => exact w.sameRoot_of_inv h
  | record k' he hk' w => exact w.sameRoot h fun heq => hk' (heq ▸ hk)
  | shared dst src i he hk' sh => exact sh.sameRoot fun heq => hk' (heq ▸ hk)
  | elsewhere he w => exact w.sameRoot

theorem VmmEffect.refines (h : VmInv A s) (hk : e.Keeps k) (he : VmmEffect A s s' e) :
    e.Refines k s s' := by
  cases he with
  | work k' w here he =>
    by_cases hkk : k = k'
    · subst hkk
      exact here
    · exact (he k hkk).refines (w.apart.ownView h hkk)
  | record k' he hk' w => exact (he k).refines (w.ownView h fun heq => hk' (heq ▸ hk))
  | shared dst src i he hk' sh => exact (he k).refines (sh.ownView h)
  | elsewhere he w => exact (he k).refines (w.ownView h)

/-- If nothing is shared into the map, this is so for all of its pages. -/
theorem VmmEffect.view (h : VmInv A s) (hc : s.Closed k) (hk : e.Keeps k)
    (he : VmmEffect A s s' e) :
    s'.view k = e.applyTo k (s.view k) ∧ e.Agrees k (s.view k) ∧ s'.Closed k := by
  have hc' := (he.sameRoot h hk).closed hc
  rw [hc.view_eq h, hc'.view_eq (he.inv h)]
  exact ⟨(he.refines h hk).1, (he.refines h hk).2, hc'⟩

/-! ### Whole runs -/

/-- The calls on a map, from its creation on, have the effect they have on the abstract map. -/
theorem page_tables_implement_map {es₀ : List (VmmEvent R)} {cpu : Cpu} {first last : Nat}
    (h₀ : VmmBoot s₀)
    (hrun : Run (VmmStep A) s₀ (es₀ ++ .call cpu (.create k first last) (.done true) :: es) s)
    (hk : ∀ e ∈ es, e.Keeps k) :
    (∀ va, s.vmmQueryPage k va = VmmEvent.pages k es va) ∧
      ∀ fs e gs, es = fs ++ e :: gs → e.Agrees k (VmmEvent.pages k fs) := by
  obtain ⟨s₁, hrun₁, hrest⟩ := hrun.split
  obtain ⟨s₂, hcreate, hrun₂⟩ := hrest.head
  have h₁ := vmInv_of_run h₀ hrun₁
  have h₂ := (hcreate.effect h₁).inv h₁
  -- the new map is empty
  have hzero : ∀ q i, s₂.entryAt k q i = 0 := by
    cases hcreate with
    | call cpu hal hr =>
      obtain ⟨b, hb, hdone⟩ := map_eq_mk hr
      cases hdone
      rcases vmmPageMapCreateOwnedRange_cases h₁ hal hb with
        ⟨-, ⟨hb, -⟩ | ⟨-, root, -, -, -, -, -, -, hz⟩⟩
      · cases hb
      · exact hz
  have hist : VmInv A s ∧ ((∀ e ∈ es, e.Keeps k) → s.Closed k ∧ s.view k = VmmEvent.pages k es ∧
      ∀ fs e gs, es = fs ++ e :: gs → e.Agrees k (VmmEvent.pages k fs)) := by
    refine hrun₂.history (P := fun es t => VmInv A t ∧ ((∀ e ∈ es, e.Keeps k) →
      t.Closed k ∧ t.view k = VmmEvent.pages k es ∧
        ∀ fs e gs, es = fs ++ e :: gs → e.Agrees k (VmmEvent.pages k fs)))
      ⟨h₂, fun _ => ⟨fun i _ => hzero [] i, ?_, by simp⟩⟩ ?_
    · funext va
      exact vmmQueryPage_of_zero h₂ (hzero [] _)
    · rintro es t e t' ⟨ht, hes⟩ hstep
      have heff := hstep.effect ht
      refine ⟨heff.inv ht, fun hkeep => ?_⟩
      obtain ⟨hc, hview, hagree⟩ := hes fun e he => hkeep e (List.mem_append_left _ he)
      obtain ⟨hview', hagree', hc'⟩ := heff.view ht hc (hkeep e (by simp))
      refine ⟨hc', ?_, fun fs e' gs hsplit => ?_⟩
      · rw [hview', hview, VmmEvent.pages, VmmEvent.pages, List.foldl_append]
        rfl
      · rcases List.eq_nil_or_concat gs with rfl | ⟨gs, e'', rfl⟩
        · obtain ⟨rfl, he⟩ := List.append_inj' hsplit rfl
          cases he
          rw [← hview]
          exact hagree'
        · rw [List.concat_eq_append, ← List.cons_append, ← List.append_assoc] at hsplit
          exact hagree fs e' gs (List.append_inj' hsplit rfl).1
  obtain ⟨-, hview, hagree⟩ := hist.2 hk
  exact ⟨fun va => congrFun hview va, hagree⟩

/-! ### A run on sixteen pages of memory -/

/-- A call and its event. -/
def execVmmCall (A : Allocator Nat σ) (c : Cpu × VmmCall R) (s : VmState R σ) :
    VmmEvent R × VmState R σ :=
  ((.call c.1 c.2 (c.2.exec A c.1 s).1), (c.2.exec A c.1 s).2)

end Steps

def smallPool : PmmPool smallPmm :=
  ⟨smallPmm, @pmmInit_pool 2 smallMap emptyPmm smallPmm [⟨7, 0x100000, 16⟩] rfl
    (by simp [NonOverlapping]) (Option.some_get _).symm⟩

/-- No page map, and the frames of `smallMap`. -/
def smallVm : VmState Unit (PmmPool smallPmm) where
  map _ := .invalid
  table _ _ := 0
  pmm := smallPool
  unlinkedTable := none
  faults _ := .clear
  usePhysMap := false
  nxEnabled := true

def plainCpu : Cpu := ⟨0, 0, 0, 0, 0⟩

/-- Two neighbouring pages, of which the user page is then made read-only; the other one is
mapped once more, in vain, and unmapped. -/
def twoPages : List (Cpu × VmmCall Unit) :=
  [(plainCpu, .map () 0x400000 0x500 (vmWrite ||| vmUser)),
   (plainCpu, .map () 0x401000 0x501 vmExec),
   (plainCpu, .setWritable () 0x400000 0x500 (vmWrite ||| vmUser) false),
   (plainCpu, .map () 0x401000 0x502 vmExec),
   (plainCpu, .unmap () 0x401000)]

theorem page_tables_implement_map_twoPages :
    ∃ s : VmState Unit (PmmPool smallPmm),
      s.vmmQueryPage () 0x400000 = some (0x500, vmUser) ∧ s.vmmQueryPage () 0x401000 = none := by
  let s₁ := ((VmmCall.create () 0 256).exec (pmmFrames smallPmm) plainCpu smallVm).2
  have hcreate : VmmStep (pmmFrames smallPmm) smallVm
      (.call plainCpu (.create () 0 256) (.done true)) s₁ :=
    .call plainCpu rfl (Prod.ext (by decide +kernel) rfl)
  have hrun : Run (VmmStep (pmmFrames smallPmm)) s₁
      (execAll (execVmmCall (pmmFrames smallPmm)) twoPages s₁).1
      (execAll (execVmmCall (pmmFrames smallPmm)) twoPages s₁).2 :=
    .of_execAll (P := fun _ => True) trivial fun c hc s _ =>
      ⟨.call c.1 (by revert c; simp [twoPages, VmmCall.Allowed]) rfl, trivial⟩
  have hall : Run (VmmStep (pmmFrames smallPmm)) smallVm
      ([] ++ .call plainCpu (.create () 0 256) (.done true) ::
        (execAll (execVmmCall (pmmFrames smallPmm)) twoPages s₁).1) _ := (Run.single hcreate).append hrun
  have hpages := (page_tables_implement_map ⟨fun _ => rfl, rfl⟩ hall
    (forall_mem_execAll (by simp [twoPages, execVmmCall, VmmEvent.Keeps]))).1
  refine ⟨_, (hpages 0x400000).trans ?_, (hpages 0x401000).trans ?_⟩
  · decide +kernel
  · decide +kernel

end JcosKernel
