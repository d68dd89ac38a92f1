import JcosKernel.Vmm.Tables

/-!
# JcosKernel.Vmm.Collect

The recursive walks of `vmm.c` over the tables of a map, and the pruning after an unmap.

`treeHasNoLeaves` looks for leaves (`treeHasNoLeaves_iff`). `collectChildren` removes what is
empty, bottom up: each turn of its loop stays below one entry, so the turns do not spoil each
other's work, and a finished loop leaves no empty table behind (`collectChildren_spec`).
Pruning does the same along one path (`pruneTables_spec`).
-/

namespace JcosKernel

open Lib

namespace VmState

variable {R σ : Type} {A : Allocator Nat σ} {s s₁ s' s'' : VmState R σ} {k : R}
  {q p : List TableIndex} {i j : TableIndex} {a c f : Nat} {b : Bool} {l : List TableIndex}

/-! ### Below an entry -/

/-- Below an entry that leads nowhere there is no table. -/
theorem tableAt_below_none {t : List TableIndex} (h : s.tableAt k (q ++ [i]) = none) :
    s.tableAt k (q ++ i :: t) = none := by
  have hassoc : q ++ i :: t = (q ++ [i]) ++ t := by simp
  rw [hassoc, tableAt, Forest.table_append]
  change (s.tableAt k (q ++ [i])).bind _ = none
  rw [h, Option.bind_none]

theorem prefix_snoc_inj {t : List TableIndex} : q ++ [j] <+: q ++ i :: t ↔ j = i := by
  simp

theorem not_prefix_self : ¬ q ++ [i] <+: q := by
  intro h
  have := h.length_le
  rw [List.length_append, List.length_singleton] at this
  omega

/-- Leaves below `q`, one entry at a time. -/
theorem treeHasNoLeaves_iff {level : Nat} (h : VmInv A s) (hq : s.forest.Owned k q)
    (hd : q.length + level = 3) (ha : s.tableAt k q = some a)
    (hown : ∀ i ∈ l, s.forest.Owned k (q ++ [i])) :
    s.treeHasNoLeaves (level + 1) a l = true ↔
      ∀ i ∈ l, ∀ p j, p.length = 3 → q ++ [i] <+: p ++ [j] → s.entryAt k p j = 0 := by
  induction level generalizing q a l with
  | zero =>
    have hptr := (h.tables k q a hq (by omega) ha).2.pointer
    rw [treeHasNoLeaves, hptr]
    simp only [Option.isSome_some, Bool.true_and, List.all_eq_true]
    refine forall₂_congr fun i hi => ?_
    rw [← entryAt_of_table ha]
    simp only [ne_eq, not_true_eq_false, false_and, decide_false, Bool.false_and, Bool.or_false,
      decide_eq_true_eq]
    constructor
    · intro hzero p j hp hpre
      have heq := hpre.eq_of_length (by simp; omega)
      obtain ⟨rfl, hij⟩ := List.append_inj' heq rfl
      cases hij
      exact hzero
    · exact fun hall => hall q i (by omega) List.prefix_rfl
  | succ level ih =>
    have hptr := (h.tables k q a hq (by omega) ha).2.pointer
    rw [treeHasNoLeaves, hptr]
    simp only [Option.isSome_some, Bool.true_and, List.all_eq_true]
    refine forall₂_congr fun i hi => ?_
    have hqi := hown i hi
    rw [← entryAt_of_table ha]
    -- no table below: no leaf; a table: its own entries, one level down
    rcases h.inner k q i hqi (by omega) with hzero | he
    · have hnone := (h.entryAt_eq_zero hqi (by omega)).mp hzero
      refine iff_of_true (by simp [hzero]) fun p j hp hpre => entryAt_of_none ?_
      obtain ⟨t, ht⟩ : ∃ t, p = q ++ i :: t := by
        have hpp : q ++ [i] <+: p :=
          List.prefix_of_prefix_length_le hpre (List.prefix_append p [j]) (by simp; omega)
        obtain ⟨t, ht⟩ := hpp
        exact ⟨t, by rw [← ht]; simp⟩
      rw [ht]
      exact tableAt_below_none hnone
    · have hto : s.tableAt k (q ++ [i]) = some (entryFrame (s.entryAt k q i)) := by
        rw [VmInv.tableAt_snoc, he.child]
      have hne : entryFrame (s.entryAt k q i) ≠ a := by
        intro heq
        have hpath := (h.separated k (q ++ [i]) k q a hqi (length_snoc_le (by omega)) hq (by omega)
          (heq ▸ hto) ha).2
        simp at hpath
      have hlen : (q ++ [i]).length + level = 3 := by
        rw [List.length_append, List.length_singleton]
        omega
      have hrec := ih (l := List.finRange pageTableEntries) hqi hlen hto fun j _ => by
        simpa using hqi.append [j]
      simp only [he.ne_zero, decide_false, Bool.false_or, ne_eq, Nat.add_eq_zero_iff,
        Nat.succ_ne_self, and_false, not_false_eq_true, he.present, he.notHuge, hne, and_self,
        decide_true, Bool.true_and, hrec, List.mem_finRange, forall_const]
      constructor
      · intro hall p j hp hpre
        obtain ⟨t, ht⟩ := hpre
        obtain ⟨i', t', rfl⟩ : ∃ i' t', t = i' :: t' := by
          cases t with
          | nil =>
            have := congrArg List.length ht
            simp at this
            omega
          | cons i' t' => exact ⟨i', t', rfl⟩
        refine hall i' p j hp ⟨t', ?_⟩
        rw [← ht]
        simp
      · exact fun hall i' p j hp hpre =>
          hall p j hp ((List.prefix_append (q ++ [i]) [i']).trans hpre)

/-- A table above another one is not empty. -/
theorem not_tableEmpty_of_child (ha : s.tableAt k q = some a)
    (hc : s.tableAt k (q ++ [i]) = some c) : ¬ s.TableEmpty a := by
  intro hempty
  rw [VmInv.tableAt_snoc, entryAt_of_table ha, hempty i] at hc
  cases hc

/-- The map has no empty table on a path, apart from the root. -/
def FullPath (s : VmState R σ) (k : R) (path : List TableIndex) : Prop :=
  ∀ p, p <+: path → p ≠ [] → ∀ c, s.tableAt k p = some c → ¬ s.TableEmpty c

theorem exists_tableAt_of_append (h : s.tableAt k (p ++ q) = some a) :
    ∃ c, s.tableAt k p = some c := by
  rw [tableAt, Forest.table_append] at h
  obtain ⟨c, hc, -⟩ := Option.bind_eq_some_iff.mp h
  exact ⟨c, hc⟩

/-- The last table on a path decides about the tables above it. -/
theorem fullPath_of_last {u v : List TableIndex} (ha : s.tableAt k u = some a)
    (hfull : u ≠ [] → ¬ s.TableEmpty a)
    (hlast : ∀ i t, v = i :: t → s.tableAt k (u ++ [i]) = none) : s.FullPath k (u ++ v) := by
  intro p hp hne c hc
  rcases List.prefix_or_prefix_of_prefix hp (List.prefix_append u v) with hpu | ⟨t, rfl⟩
  · obtain ⟨t, rfl⟩ := hpu
    cases t with
    | nil =>
      rw [List.append_nil] at ha hfull
      rw [ha] at hc
      cases hc
      exact hfull hne
    | cons i t =>
      have hassoc : p ++ i :: t = (p ++ [i]) ++ t := by simp
      rw [hassoc] at ha
      obtain ⟨d, hd⟩ := exists_tableAt_of_append ha
      exact not_tableEmpty_of_child hc hd
  · cases t with
    | nil =>
      rw [List.append_nil] at hc hne
      rw [ha] at hc
      cases hc
      exact hfull hne
    | cons i t =>
      obtain ⟨v', rfl⟩ := (List.prefix_append_right_inj u).mp hp
      rw [tableAt_below_none (hlast i (t ++ v') rfl)] at hc
      cases hc

/-! ### Collecting -/

/-- What a walk over the entries `l` of the table at the end of `q` has done. -/
structure Collected (A : Allocator Nat σ) (k : R) (q l : List TableIndex) (s : VmState R σ)
    (b : Bool) (s' : VmState R σ) : Prop
    extends UpkeepAt A k (fun x => ∃ i ∈ l, q ++ [i] <+: x) s s' where
  full : b = true → ∀ i ∈ l, ∀ t c, (q ++ i :: t).length ≤ 3 →
    s'.tableAt k (q ++ i :: t) = some c → ¬ s'.TableEmpty c
  done : A.FreesAllocated → s.NoFaults → b = true

namespace Collected

/-- The table whose entries are walked stays. -/
theorem tableAt_self (h : Collected A k q l s b s') (hq : s.forest.Owned k q)
    (hd : q.length ≤ 3) : s'.tableAt k q = s.tableAt k q :=
  h.tableAt hq hd fun ⟨_, _, hpre⟩ => not_prefix_self hpre

theorem nil (h : VmInv A s) : Collected A k q [] s true s :=
  ⟨.refl h, fun _ _ hi => absurd hi (by simp), fun _ _ => rfl⟩

/-- A turn that failed ends the walk. -/
theorem stop (h : Collected A k q [i] s false s') : Collected A k q (i :: l) s false s' where
  toUpkeepAt := h.mono fun _ ⟨i', hi', hpre⟩ =>
    ⟨i', List.mem_cons.mpr (.inl (List.mem_singleton.mp hi')), hpre⟩
  full h := absurd h (by decide)
  done := h.done

/-- The walk goes on after a turn. -/
theorem cons (hown : ∀ j ∈ i :: l, s.forest.Owned k (q ++ [j]))
    (h : Collected A k q [i] s true s₁) (hl : Collected A k q l s₁ b s') :
    Collected A k q (i :: l) s b s' where
  toUpkeepAt := (h.mono fun _ ⟨i', hi', hpre⟩ =>
    ⟨i', List.mem_cons.mpr (.inl (List.mem_singleton.mp hi')), hpre⟩).trans
    (hl.mono fun _ ⟨i', hi', hpre⟩ => ⟨i', List.mem_cons_of_mem _ hi', hpre⟩)
  full hb i' hi' t c hd hc := by
    by_cases hmem : i' ∈ l
    · exact hl.full hb i' hmem t c hd hc
    -- the later turns stay below other entries
    obtain rfl : i' = i := (List.mem_cons.mp hi').resolve_right hmem
    have hother : ∀ u, ¬ ∃ j ∈ l, q ++ [j] <+: q ++ i' :: u := by
      rintro u ⟨j, hj, hpre⟩
      exact hmem (prefix_snoc_inj.mp hpre ▸ hj)
    have hown' : s₁.forest.Owned k (q ++ i' :: t) := by
      rw [h.forest]
      exact (hown i' hi').append t
    have hc1 : s₁.tableAt k (q ++ i' :: t) = some c := by
      rw [← hl.tableAt hown' hd (hother t), hc]
    have hfull := h.full rfl i' (List.mem_singleton_self i') t c hd hc1
    rw [tableEmpty_iff hc1] at hfull
    rw [tableEmpty_iff hc]
    intro hempty
    refine hfull fun j => ?_
    rw [← hempty j]
    refine (hl.entry (q ++ i' :: t) j hown' hd ?_).symm
    simpa using hother (t ++ [j])
  done hA hn := hl.done hA (h.calm hA hn)

end Collected

theorem mem_ownedIndices : i ∈ s.ownedIndices k ↔ (s.map k).OwnsPml4Index i := by
  simp [ownedIndices, indexRange, VmPageMap.OwnsPml4Index]

/-- No table of the map is empty, apart from the root. -/
def Compact (s : VmState R σ) (k : R) : Prop :=
  ∀ q a, s.forest.Owned k q → q ≠ [] → q.length ≤ 3 → s.tableAt k q = some a → ¬ s.TableEmpty a

theorem Collected.compact (h : Collected A k [] (s.ownedIndices k) s true s') : s'.Compact k := by
  intro q a hq hne hd ha
  cases q with
  | nil => exact absurd rfl hne
  | cons i t =>
    refine h.full rfl i (mem_ownedIndices.mpr ?_) t a hd ha
    rw [h.forest] at hq
    exact hq

variable [DecidableEq R]

/-- The table below an entry is empty and is released. -/
theorem releaseEmptyChild_step (h : VmInv A s) (hq : s.forest.Owned k (q ++ [i]))
    (hd : q.length ≤ 2) (ha : s.tableAt k q = some a) (hexp : (s.map k).sharedSource = false)
    (hc : s.tableAt k (q ++ [i]) = some c) (hempty : s.TableEmpty c)
    (hr : s.releaseEmptyChild A k a i = (b, s')) :
    UpkeepAt A k (· = q ++ [i]) s s' ∧
      (∀ p, p <+: q → s'.tableAt k p = s.tableAt k p) ∧
      (b = true → s'.tableAt k (q ++ [i]) = none) ∧
      (A.FreesAllocated → s.NoFaults → b = true) := by
  obtain ⟨u, hcase⟩ := releaseEmptyChild_cases h hq hd ha hexp hr
  refine ⟨u, fun p hp => ?_, fun hb => ?_, fun hA hn => ?_⟩
  · have hlen := hp.length_le
    refine u.tableAt ?_ (by omega) ?_
    · obtain ⟨t, rfl⟩ := hp
      exact hq.init.init
    · rintro rfl
      exact not_prefix_self hp
  · rcases hcase with ⟨-, hcleared⟩ | ⟨rfl, -, -⟩
    · rw [VmInv.tableAt_snoc, hcleared, tableChild_zero]
    · exact absurd hb (by decide)
  · rcases hcase with ⟨rfl, -⟩ | ⟨-, -, hfull⟩
    · rfl
    · exact absurd hempty (hfull hA hn c hc)

/-- One turn, given what the walk below the entry's table does. -/
theorem collectTurn_spec {below : Nat → VmState R σ → Bool × VmState R σ} (h : VmInv A s)
    (hqi : s.forest.Owned k (q ++ [i])) (hd : q.length ≤ 2) (ha : s.tableAt k q = some a)
    (hexp : (s.map k).sharedSource = false)
    (hbelow : ∀ c b s', s.tableAt k (q ++ [i]) = some c → below c s = (b, s') →
      Collected A k (q ++ [i]) (List.finRange pageTableEntries) s b s')
    (hr : collectTurn A k below a i s = (b, s')) : Collected A k q [i] s b s' := by
  have hnone : ∀ {s' : VmState R σ}, s'.tableAt k (q ++ [i]) = none → ∀ i' ∈ [i], ∀ t c,
      (q ++ i' :: t).length ≤ 3 → s'.tableAt k (q ++ i' :: t) = some c → ¬ s'.TableEmpty c := by
    intro s' hn i' hi' t c _ hc
    rw [List.mem_singleton.mp hi', tableAt_below_none hn] at hc
    cases hc
  have hentry : s.entryAt k q i = s.table a i := entryAt_of_table ha
  unfold collectTurn at hr
  rcases h.inner k q i hqi hd with hzero | he
  · rw [← hentry, if_pos hzero] at hr
    cases hr
    exact ⟨.refl h, fun _ => hnone ((h.entryAt_eq_zero hqi hd).mp hzero),
      fun _ _ => rfl⟩
  have hto : s.tableAt k (q ++ [i]) = some (entryFrame (s.table a i)) := by
    rw [VmInv.tableAt_snoc, he.child, hentry]
  rw [hentry] at he
  -- a table is not its own child, so the turn goes down to it
  have hne : entryFrame (s.table a i) ≠ a := by
    intro heq
    have hpath := (h.separated k (q ++ [i]) k q a hqi (length_snoc_le hd) hqi.init (by omega)
      (heq ▸ hto) ha).2
    simp at hpath
  rw [if_neg he.ne_zero, if_neg (by simpa [he.notHuge] using he.present), if_neg hne] at hr
  generalize entryFrame (s.table a i) = c at hto hr
  rcases hb : below c s with ⟨b1, s₁⟩
  have hcol := hbelow c b1 s₁ hto hb
  rw [hb] at hr
  have v : UpkeepAt A k (fun x => ∃ i' ∈ [i], q ++ [i'] <+: x) s s₁ :=
    hcol.mono fun _ ⟨i', _, hpre⟩ =>
      ⟨i, List.mem_singleton_self i, (List.prefix_append _ [i']).trans hpre⟩
  cases b1 with
  | false =>
    cases hr
    exact ⟨v, fun h => absurd h (by decide), hcol.done⟩
  | true =>
    have hqi1 : s₁.forest.Owned k (q ++ [i]) := hcol.forest ▸ hqi
    have hto1 : s₁.tableAt k (q ++ [i]) = some c :=
      (hcol.tableAt_self hqi (length_snoc_le hd)).trans hto
    have ha1 : s₁.tableAt k q = some a := by
      rw [hcol.tableAt hqi.init (by omega), ha]
      rintro ⟨i', -, hpre⟩
      exact not_prefix_self ((List.prefix_append _ [i']).trans hpre)
    have hptr := (hcol.inv.tables k _ c hqi1 (length_snoc_le hd) hto1).2.pointer
    simp only [hptr, Option.mem_some_iff, exists_eq_left'] at hr
    -- what is left below is full; only the child itself may have become empty
    by_cases hempty : s₁.TableEmpty c
    · rw [if_pos hempty] at hr
      obtain ⟨u, -, hgone, hcalm⟩ := releaseEmptyChild_step hcol.inv hqi1 hd ha1
        (by rw [hcol.map]; exact hexp) hto1 hempty hr
      exact ⟨v.trans (u.mono fun _ heq => ⟨i, List.mem_singleton_self i, heq ▸ List.prefix_rfl⟩),
        fun hb => hnone (hgone hb), fun hA hn => hcalm hA (hcol.calm hA hn)⟩
    · rw [if_neg hempty] at hr
      cases hr
      refine ⟨v, fun _ i' hi' t c' hlen hc' => ?_, fun _ _ => rfl⟩
      rw [List.mem_singleton.mp hi'] at hlen hc'
      cases t with
      | nil =>
        rw [hto1] at hc'
        cases hc'
        exact hempty
      | cons i'' t =>
        have hassoc : q ++ i :: i'' :: t = (q ++ [i]) ++ i'' :: t := by simp
        rw [hassoc] at hlen hc'
        exact hcol.full rfl i'' (List.mem_finRange i'') t c' hlen hc'

theorem collectChildren_spec {level : Nat} (h : VmInv A s) (hq : s.forest.Owned k q)
    (hd : q.length + level = 3) (ha : s.tableAt k q = some a)
    (hexp : (s.map k).sharedSource = false) (hown : ∀ i ∈ l, s.forest.Owned k (q ++ [i]))
    (hr : collectChildren A k (level + 1) a l s = (b, s')) : Collected A k q l s b s' := by
  induction level generalizing q a l s b s' with
  | zero =>
    rw [collectChildren, (h.tables k q a hq (by omega) ha).2.pointer,
      if_pos rfl] at hr
    cases hr
    refine ⟨.refl h, fun _ i _ t c hlen => ?_, fun _ _ => rfl⟩
    rw [List.length_append, List.length_cons] at hlen
    omega
  | succ level ih =>
    rw [collectChildren, (h.tables k q a hq (by omega) ha).2.pointer,
      if_neg (Nat.succ_ne_zero level)] at hr
    -- the loop over the entries
    induction l generalizing s with
    | nil =>
      cases hr
      exact .nil h
    | cons i l ihl =>
      have hqi := hown i List.mem_cons_self
      rcases hturn : collectTurn A k (fun child => collectChildren A k (level + 1) child
        (List.finRange pageTableEntries)) a i s with ⟨b1, s₁⟩
      have hcol : Collected A k q [i] s b1 s₁ := by
        refine collectTurn_spec h hqi (by omega) ha hexp (fun c b s' hc hb => ?_) hturn
        refine ih h hqi ?_ hc hexp (fun j _ => by simpa using hqi.append [j]) hb
        rw [List.length_append, List.length_singleton]
        omega
      cases b1 with
      | false =>
        rw [each_cons_false hturn] at hr
        cases hr
        exact hcol.stop
      | true =>
        rw [each_cons_true hturn] at hr
        have hforest := hcol.forest
        refine .cons hown hcol (ihl hcol.inv (hforest ▸ hq) ?_ ?_ ?_ hr)
        · rw [hcol.tableAt_self hq (by omega), ha]
        · rw [hcol.map]
          exact hexp
        · intro j hj
          rw [hforest]
          exact hown j (List.mem_cons_of_mem _ hj)

/-! ### Pruning -/

theorem pruneTables_spec (cpu : Cpu) {va pml4 pdpt pd pt : Nat} (h : VmInv A s)
    (hown : s.forest.Owned k (tablePath va)) (h4 : s.tableAt k [] = some pml4)
    (h3 : s.tableAt k [pml4Index va] = some pdpt)
    (h2 : s.tableAt k [pml4Index va, pdptIndex va] = some pd)
    (h1 : s.tableAt k (tablePath va) = some pt)
    (hr : s.pruneTables A cpu k va pml4 pdpt pd pt = s') :
    UpkeepAt A k (· <+: tablePath va) s s' ∧
      (¬ (s.map k).Active cpu → (s.map k).sharedSource = false → A.FreesAllocated → s.NoFaults →
        s'.FullPath k (tablePath va)) := by
  unfold pruneTables at hr
  by_cases hstop : (s.map k).Active cpu ∨ (s.map k).sharedSource = true ∨ ¬ s.TableEmpty pt
  · rw [if_pos hstop] at hr
    subst hr
    refine ⟨.refl h, fun hact hexp _ _ => ?_⟩
    have hpt : ¬ s.TableEmpty pt := by simpa [hact, hexp] using hstop
    simpa using fullPath_of_last (v := []) h1 (fun _ => hpt) (by simp)
  rw [if_neg hstop] at hr
  simp only [not_or, not_not, Bool.not_eq_true] at hstop
  obtain ⟨hact, hexp, hpt⟩ := hstop
  -- the page table
  rcases hr1 : s.releaseEmptyChild A k pd (pdIndex va) with ⟨b1, s₁⟩
  rw [hr1] at hr
  obtain ⟨u1, htab1, hnone1, hcalm1⟩ := releaseEmptyChild_step
    h hown (by simp) h2 hexp h1 hpt hr1
  replace u1 : UpkeepAt A k (· <+: tablePath va) s s₁ := u1.mono fun _ heq => heq ▸ List.prefix_rfl
  cases b1 with
  | false =>
    subst hr
    exact ⟨u1, fun _ _ hA hn => absurd (hcalm1 hA hn) (by decide)⟩
  | true =>
    by_cases hpd : s₁.TableEmpty pd
    swap
    · simp only [hpd] at hr
      subst hr
      refine ⟨u1, fun _ _ _ _ => ?_⟩
      exact fullPath_of_last (v := [pdIndex va])
        ((htab1 _ List.prefix_rfl).trans h2) (fun _ => hpd) fun i t hit => by
          cases hit
          exact hnone1 rfl
    -- the page directory
    simp only [hpd, not_true_eq_false, if_false] at hr
    have hown1 : s₁.forest.Owned k [pml4Index va, pdptIndex va] := by
      rw [u1.forest]
      exact hown
    have hexp1 : (s₁.map k).sharedSource = false := by
      rw [u1.map]
      exact hexp
    rcases hr2 : s₁.releaseEmptyChild A k pdpt (pdptIndex va) with ⟨b2, s2⟩
    rw [hr2] at hr
    obtain ⟨u2, htab2, hnone2, hcalm2⟩ := releaseEmptyChild_step u1.inv
      hown1 (by simp) ((htab1 _ ⟨[pdptIndex va], rfl⟩).trans h3) hexp1
      ((htab1 _ List.prefix_rfl).trans h2) hpd hr2
    have u := u1.trans (u2.mono fun _ heq => heq ▸ ⟨[pdIndex va], rfl⟩)
    cases b2 with
    | false =>
      subst hr
      exact ⟨u, fun _ _ hA hn =>
        absurd (hcalm2 hA (u1.calm hA hn)) (by decide)⟩
    | true =>
      by_cases hpdpt : s2.TableEmpty pdpt
      swap
      · simp only [hpdpt, not_false_eq_true, if_true] at hr
        subst hr
        refine ⟨u, fun _ _ _ _ => ?_⟩
        refine fullPath_of_last (v := [pdptIndex va, pdIndex va])
          ?_ (fun _ => hpdpt) fun i t hit => by
            cases hit
            exact hnone2 rfl
        rw [htab2 _ List.prefix_rfl, htab1 _ ⟨[pdptIndex va], rfl⟩, h3]
      -- the page directory pointer table
      simp only [hpdpt] at hr
      rcases hr3 : s2.releaseEmptyChild A k pml4 (pml4Index va) with ⟨b3, s3⟩
      rw [hr3] at hr
      have hown2 : s2.forest.Owned k [pml4Index va] := by
        rw [u2.forest, u1.forest]
        exact hown
      have hroot2 : s2.tableAt k [] = some pml4 := by
        rw [htab2 _ List.nil_prefix, htab1 _ List.nil_prefix, h4]
      obtain ⟨u3, htab3, hnone3, hcalm3⟩ := releaseEmptyChild_step u2.inv hown2
        (by simp) hroot2 (by rw [u2.map]; exact hexp1)
        ((htab2 _ List.prefix_rfl).trans ((htab1 _ ⟨[pdptIndex va], rfl⟩).trans h3)) hpdpt hr3
      subst hr
      refine ⟨u.trans (u3.mono fun _ heq => heq ▸ ⟨[pdptIndex va, pdIndex va], rfl⟩),
        fun _ _ hA hn => ?_⟩
      have hb := hcalm3 hA (u.calm hA hn)
      refine fullPath_of_last ((htab3 _ List.prefix_rfl).trans hroot2)
        (fun h => absurd rfl h) fun i t hit => ?_
      cases hit
      exact hnone3 hb

end VmState

end JcosKernel
