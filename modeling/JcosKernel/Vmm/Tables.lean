import JcosKernel.Vmm.Upkeep

/-!
# JcosKernel.Vmm.Tables

The helpers of `vmm.c` that create and release page tables.

Each has one lemma that says what it can do: `allocateTable_cases`, `createOrGetTable_cases`,
`releaseEmptyChild_cases`. Two loops are made of them. `createTables` walks down to the last
table, and what it created can be rolled back (`createTables_spec`); `collectChildren` removes
every empty table below one (`collectChildren_spec`).
-/

namespace JcosKernel

open Lib

namespace VmState

variable {R σ : Type} [DecidableEq R] {A : Allocator Nat σ} {s s₁ s' s'' : VmState R σ} {k : R}
  {q p : List TableIndex} {i j : TableIndex} {a c f : Nat} {b user : Bool}

/-! ### Frames -/

theorem testFault_cases {fault : VmmTestFault} (h : s.testFault k fault = (b, s')) :
    ∃ fs, s' = { s with faults := fs } ∧ (s.NoFaults → b = false ∧ fs = s.faults) := by
  unfold testFault at h
  simp only at h
  split_ifs at h with h1 h2 <;> cases h
  · exact ⟨s.faults, rfl, fun _ => ⟨rfl, rfl⟩⟩
  all_goals
    exact ⟨_, rfl, fun hn => absurd (hn.disarmed fault) (by simpa using fun h => (not_or.mp h1).1 h)⟩

theorem freeTable_cases (h : s.freeTable A k f = (b, s')) :
    ∃ pmm fs, s' = { s with pmm := pmm, faults := fs } ∧
      (b = true → f ∈ A.allocated s.pmm ∧ A.allocated pmm = A.allocated s.pmm \ {f}) ∧
      (b = false → A.allocated pmm = A.allocated s.pmm) ∧ (s.NoFaults → fs = s.faults) ∧
      (A.FreesAllocated → s.NoFaults → f ∈ A.allocated s.pmm → b = true) := by
  unfold freeTable at h
  rcases ht : s.testFault k .free with ⟨t, s₁⟩
  obtain ⟨fs, rfl, hfs⟩ := testFault_cases ht
  rw [ht] at h
  cases t with
  | true =>
    cases h
    exact ⟨s.pmm, fs, rfl, by simp, fun _ => rfl, fun hn => (hfs hn).2,
      fun _ hn => absurd (hfs hn).1 (by simp)⟩
  | false =>
    rcases hfree : A.free f s.pmm with ⟨r, pmm⟩
    simp only [frameFree, hfree] at h
    cases h
    refine ⟨pmm, fs, rfl, ?_, ?_, fun hn => (hfs hn).2, fun hA _ hf => ?_⟩
    · rintro rfl
      exact A.free_true hfree
    · rintro rfl
      exact A.free_false hfree
    · have := hA f s.pmm hf
      rwa [hfree] at this

/-- A new frame that cannot be used goes back, or into quarantine. -/
theorem refuseTable_cases {held : Set Nat} (hun : s.unlinkedTable = none)
    (halloc : A.allocated s.pmm = insert f held) (hnew : f ∉ held) :
    ∃ pmm fs un, s.refuseTable A k f = { s with pmm := pmm, faults := fs, unlinkedTable := un } ∧
      (∀ g, (g ∈ A.allocated pmm ∧ un ≠ some g) ↔ g ∈ held) ∧
      (∀ g, un = some g → g ∈ A.allocated pmm) ∧
      (A.FreesAllocated → s.NoFaults → fs = s.faults ∧ un = none) := by
  unfold refuseTable
  rcases ht : s.freeTable A k f with ⟨t, s₁⟩
  obtain ⟨pmm, fs, rfl, htrue, hfalse, hfs, hcalm⟩ := freeTable_cases ht
  cases t with
  | true =>
    refine ⟨pmm, fs, none, by rw [← hun], fun g => ?_, by simp, fun _ hn => ⟨hfs hn, rfl⟩⟩
    rw [(htrue rfl).2, halloc, Set.insert_sdiff_self_of_notMem hnew]
    simp
  | false =>
    refine ⟨pmm, fs, some f, rfl, fun g => ?_, ?_, fun hA hn => ?_⟩
    · rw [hfalse rfl, halloc]
      grind
    · rintro g hg
      cases hg
      rw [hfalse rfl, halloc]
      exact Set.mem_insert f held
    · exact absurd (hcalm hA hn (halloc ▸ Set.mem_insert f held)) (by simp)

/-- A zeroed frame that nobody held before. -/
structure FreshTable (A : Allocator Nat σ) (s s' : VmState R σ) (f : Nat) : Prop where
  books : Books A s s'
  new : f ∉ s.held A
  held : s'.held A = insert f (s.held A)
  usable : s'.Usable f
  zero : ∀ i, s'.table f i = 0

theorem allocateTable_cases {r : Option Nat} (hi : VmInv A s)
    (h : s.allocateTable A k = (r, s')) :
    (r = none ∧ Books A s s' ∧ s'.held A = s.held A) ∨
      ∃ f, r = some f ∧ FreshTable A s s' f := by
  unfold allocateTable at h
  split at h
  · cases h
    exact .inl ⟨rfl, .refl hi, rfl⟩
  rename_i hun
  rw [not_not] at hun
  have hheld : s.held A = A.allocated s.pmm := by
    simp [held, hun]
  rcases ht : s.testFault k .alloc with ⟨t, s₁⟩
  obtain ⟨fs, rfl, hfs⟩ := testFault_cases ht
  rw [ht] at h
  cases t with
  | true =>
    cases h
    refine .inl ⟨rfl, ⟨rfl, rfl, rfl, fun _ _ => rfl, fun _ hg => hg, hi.unlinked, ?_⟩, rfl⟩
    exact fun _ hn => absurd (hfs hn).1 (by simp)
  | false =>
    simp only at h
    rcases halloc : A.alloc s.pmm with ⟨frame | frame, pmm⟩
    · rw [halloc] at h
      cases h
      exact .inl ⟨rfl, Books.of_allocated hi (A.alloc_none halloc) fun hn => (hfs hn).2⟩
    · rw [halloc] at h
      simp only at h
      obtain ⟨hnew, hall⟩ := A.alloc_some halloc
      rw [← hheld] at hnew hall
      -- whether the frame is refused or not, only the armed faults change before that
      rcases hacc : (if ValidMappingFrame frame then
          testFault { s with faults := fs, pmm := pmm } k .access
        else (true, { s with faults := fs, pmm := pmm })) with ⟨refused, s2⟩
      rw [hacc] at h
      obtain ⟨fs2, rfl, hfs2, hvalid⟩ : ∃ fs2, s2 = { s with faults := fs2, pmm := pmm } ∧
          (s.NoFaults → fs2 = s.faults) ∧ (refused = false → ValidMappingFrame frame) := by
        split_ifs at hacc with hv
        · obtain ⟨fs2, rfl, hfs2⟩ := testFault_cases hacc
          refine ⟨fs2, rfl, fun hn => ?_, fun _ => hv⟩
          obtain ⟨-, rfl⟩ := hfs hn
          exact (hfs2 ⟨hn.disarmed, hn.unlinked⟩).2
        · cases hacc
          exact ⟨fs, rfl, fun hn => (hfs hn).2, by simp⟩
      have hrefuse : ∀ {s'}, refuseTable A { s with faults := fs2, pmm := pmm } k frame = s' →
          Books A s s' ∧ s'.held A = s.held A := by
        rintro s' rfl
        obtain ⟨pmm', fs', un, heq, hmem, hunok, hcalm⟩ :=
          refuseTable_cases (s := { s with faults := fs2, pmm := pmm }) hun hall hnew
        rw [heq]
        have hsame : VmState.held A { s with faults := fs', pmm := pmm', unlinkedTable := un } =
            s.held A := Set.ext hmem
        refine ⟨⟨rfl, rfl, rfl, fun _ _ => rfl, hsame.ge, hunok, fun hA hn => ?_⟩, hsame⟩
        obtain rfl := hfs2 hn
        obtain ⟨rfl, rfl⟩ := hcalm hA ⟨hn.disarmed, hun⟩
        exact ⟨hn.disarmed, rfl⟩
      cases refused with
      | true =>
        cases h
        exact .inl ⟨rfl, hrefuse rfl⟩
      | false =>
        simp only at h
        rcases hptr : tablePointer { s with faults := fs2, pmm := pmm } frame with _ | table
        · rw [hptr] at h
          cases h
          exact .inl ⟨rfl, hrefuse rfl⟩
        · rw [hptr] at h
          obtain rfl : frame = table := by
            unfold tablePointer at hptr
            split_ifs at hptr
            exact Option.some.inj hptr
          cases h
          have hheld' : VmState.held A { s with
              table := Function.update s.table frame fun _ => 0, faults := fs2, pmm := pmm } =
              insert frame (s.held A) := by
            rw [← hall]
            simp [held, hun]
          refine .inr ⟨frame, rfl, ⟨rfl, rfl, rfl, fun g hg => ?_, ?_, ?_, fun _ hn => ?_⟩, hnew,
            hheld', ⟨hptr, hvalid rfl⟩, fun i => by simp⟩
          · have hgf : g ≠ frame := by
              rintro rfl
              exact hnew hg
            exact Function.update_of_ne hgf _ _
          · rw [hheld']
            exact Set.subset_insert _ _
          · intro g hg
            exact absurd (hun.symm.trans hg) (by simp)
          · obtain rfl := hfs2 hn
            exact ⟨hn.disarmed, hun⟩

section

variable (h : VmInv A s) (hq : s.forest.Owned k (q ++ [i])) (hd : q.length ≤ 2)
  (ha : s.tableAt k q = some a)
include h hq hd ha

theorem createOrGetTable_cases {r : Option (Option Nat × Nat)}
    (hu : user = true → ∀ p j, q = p ++ [j] → Has (s.entryAt k p j) pteUser)
    (hr : s.createOrGetTable A k a i user = (r, s')) :
    UpkeepAt A k (· = q ++ [i]) s s' ∧
      (r = none ∧ s'.entryAt k q i = s.entryAt k q i ∨ (user = true → Has (s'.entryAt k q i) pteUser) ∧
        ((∃ c, r = some (none, c) ∧ s.tableAt k (q ++ [i]) = some c ∧
            s'.tableAt k (q ++ [i]) = some c) ∨
          ∃ f, r = some (some f, f) ∧ s.tableAt k (q ++ [i]) = none ∧
            s'.tableAt k (q ++ [i]) = some f ∧ s'.TableEmpty f)) := by
  have hentry : s.entryAt k q i = s.table a i := entryAt_of_table ha
  have hinner := h.inner k q i hq hd
  rw [hentry] at hinner
  unfold createOrGetTable at hr
  simp only at hr
  rcases hinner with hzero | he
  · -- the entry is empty: a new table is linked
    have hbelow : s.tableAt k (q ++ [i]) = none :=
      (h.entryAt_eq_zero hq hd).mp (hentry.trans hzero)
    rw [hzero, if_neg (not_not_intro rfl)] at hr
    rcases hal : s.allocateTable A k with ⟨r1, s₁⟩
    rw [hal] at hr
    rcases allocateTable_cases h hal with ⟨rfl, hb, hheld⟩ | ⟨f, rfl, hf⟩
    · cases hr
      exact ⟨⟨hb.upkeep h hheld, fun p j hp hpd _ => (hb.sameTrees h).entryAt hp hpd⟩,
        .inl ⟨rfl, (hb.sameTrees h).entryAt hq.init (by omega)⟩⟩
    · have hb := hf.books.sameTrees h
      have hforest := forest_congr hf.books.map
      have hq1 : s₁.forest.Owned k (q ++ [i]) := hforest ▸ hq
      have ha1 : s₁.tableAt k q = some a := (hb.tableAt hq.init (by omega)).trans ha
      have hzero1 : s₁.table a i = 0 := by
        rw [← entryAt_of_table ha1, hb.entryAt hq.init (by omega), hentry, hzero]
      have hfresh : ∀ k, f ∉ s₁.tablesOf k := by
        intro k' hmem
        rw [tablesOf_congr hb.map fun _ => hb.tableAt] at hmem
        exact hf.new (h.tablesOf_subset hmem)
      have hchild := tableChild_link hf.usable.valid user
      have hok : VmInv.StoreOk A s₁ k q i (s₁.table a i) (framePte f ||| tableBits user) := by
        refine linkOk hq1 hd ha1 hzero1 (tableEntry_link hf.usable.valid user) hchild
          (hf.held ▸ Set.mem_insert f _) hf.usable hf.zero hfresh fun hhas p j hqp => ?_
        subst hqp
        rw [List.length_append] at hd
        rw [hb.entryAt hq.init.init (by omega)]
        refine hu ?_ p j rfl
        rcases has_or.mp hhas with hframe | hbits
        · exact absurd hframe (hf.usable.valid.2.2.not_has (by decide))
        · cases user
          · exact absurd hbits (by decide)
          · rfl
      have h1 := h.elsewhere hb
      have hstore := h1.store hq1.init (by omega) ha1 hok
      have htables := tablesOf_link h1 hq1 hd ha1 hzero1 hok hchild
      rw [tablesOf_congr hb.map fun _ => hb.tableAt] at htables
      obtain ⟨u, hself⟩ := UpkeepAt.of_store hq hd <| Work.of_store h hf.books hq (by omega) ha hok
        (.refl hstore) rfl (by
          rw [setEntry_held, hf.held, htables, Set.insert_sdiff_of_mem _ (Set.mem_insert ..),
            Set.sdiff_insert_of_notMem hf.new])
        fun _ hn => ⟨hn.disarmed, hn.unlinked⟩
      cases hr
      refine ⟨u, .inr ⟨fun huser => ?_, .inr ⟨f, rfl, hbelow, ?_, ?_⟩⟩⟩
      · rw [hself, huser]
        exact has_or.mpr (.inr (by decide))
      · rw [VmInv.tableAt_snoc, hself, hchild]
      · intro j
        rw [setEntry_table_of_ne, hf.zero]
        rintro rfl
        exact hfresh k (mem_tablesOf hq1.init (by omega) ha1)
  · -- the entry leads to a table, which is made to permit more
    have hto : s.tableAt k (q ++ [i]) = some (entryFrame (s.table a i)) :=
      (tableAt_below ha).trans he.child
    have husable := (h.tables k _ _ hq (length_snoc_le hd) hto).2
    rw [if_pos he.present, if_neg he.notHuge, or_permitBits,
      if_neg (entryFrame_ne_invalid _), entryFrame_or (permitBits_and_mask user),
      setEntry_tablePointer, husable.pointer] at hr
    cases hr
    obtain ⟨u, hself⟩ := UpkeepAt.of_store hq hd <| Work.of_store_keep h hq (by omega) ha
      (permitOk h hq hd ha he user hu) fun _ => he.child_permit user
    refine ⟨u, .inr ⟨fun huser => ?_, .inl ⟨_, rfl, hto, ?_⟩⟩⟩
    · rw [hself, huser]
      exact has_or.mpr (.inr (by decide))
    · rw [VmInv.tableAt_snoc, hself, he.child_permit user, he.child]

theorem releaseEmptyChild_cases (hexp : (s.map k).sharedSource = false)
    (hr : s.releaseEmptyChild A k a i = (b, s')) :
    UpkeepAt A k (· = q ++ [i]) s s' ∧
      (b = true ∧ s'.entryAt k q i = 0 ∨
        b = false ∧ s'.entryAt k q i = s.entryAt k q i ∧
          (A.FreesAllocated → s.NoFaults → ∀ f, s.tableAt k (q ++ [i]) = some f →
            ¬ s.TableEmpty f)) := by
  have hentry : s.entryAt k q i = s.table a i := entryAt_of_table ha
  unfold releaseEmptyChild at hr
  rcases h.inner k q i hq hd with hzero | he
  · rw [hentry] at hzero
    rw [hzero] at hr
    cases hr
    refine ⟨.refl h, .inr ⟨rfl, rfl, fun _ _ f hf => ?_⟩⟩
    rw [tableAt_below ha, hzero] at hf
    cases hf
  rw [hentry] at he
  have hto : s.tableAt k (q ++ [i]) = some (entryFrame (s.table a i)) :=
    (tableAt_below ha).trans he.child
  obtain ⟨hfheld, husable⟩ := h.tables k _ _ hq (length_snoc_le hd) hto
  rw [if_neg (by simpa [he.notHuge] using he.present), husable.pointer] at hr
  simp only at hr
  set f := entryFrame (s.table a i) with hfdef
  split at hr
  · rename_i hfull
    cases hr
    refine ⟨.refl h, .inr ⟨rfl, rfl, fun _ _ g hg => ?_⟩⟩
    rw [hto] at hg
    cases hg
    exact hfull
  rename_i hempty
  rw [not_not] at hempty
  have hchild : tableChild (s.table a i) = some f := he.child
  have hok : VmInv.StoreOk A s k q i (s.table a i) 0 := unlinkOk ha hchild hempty hexp
  rcases hfree : (s.setEntry a i 0).freeTable A k f with ⟨t, s₁⟩
  obtain ⟨pmm, fs, rfl, htrue, hfalse, hfs, hcalm⟩ := freeTable_cases hfree
  rw [hfree] at hr
  have hn1 : s.NoFaults → (s.setEntry a i 0).NoFaults := fun hn => ⟨hn.disarmed, hn.unlinked⟩
  cases t with
  | false =>
    cases hr
    -- the entry is put back
    have hback : VmState.setEntry { s.setEntry a i 0 with pmm := pmm, faults := fs } a i
        (s.table a i) = { s with pmm := pmm, faults := fs } := by
      have := Forest.set_restore s.table a i 0
      simp only [setEntry, this]
    obtain ⟨hbooks, hheld⟩ := Books.of_allocated h (hfalse rfl) fun hn => hfs (hn1 hn)
    rw [hback]
    have hsame := hbooks.sameTrees h
    refine ⟨⟨hbooks.upkeep h hheld, fun p j hp hpd _ => hsame.entryAt hp hpd⟩,
      .inr ⟨rfl, hsame.entryAt hq.init (by omega), fun hA hn => ?_⟩⟩
    exact absurd (hcalm hA (hn1 hn) hfheld.1) (by decide)
  | true =>
    cases hr
    obtain ⟨-, hall⟩ := htrue rfl
    have htables := tablesOf_unlink h hq hd ha hok hchild
    have hfk : f ∈ s.tablesOf k := mem_tablesOf hq (length_snoc_le hd) hto
    have hno : ∀ k', f ∉ (s.setEntry a i 0).tablesOf k' := by
      rintro k' ⟨p, hp, hpd, hg⟩
      change (s.setEntry a i 0).tableAt k' p = some f at hg
      rw [VmInv.tableAt_setEntry h hq.init (by omega) ha hok hp hpd] at hg
      split_ifs at hg with hhere
      · cases hg
      · exact hhere (h.separated k' p k (q ++ [i]) _ hp hpd hq (length_snoc_le hd) hg hto)
    obtain ⟨hsame, hheld⟩ := (h.store hq.init (by omega) ha hok).free fs hfheld hno hall
    obtain ⟨u, hself⟩ := UpkeepAt.of_store hq hd <| Work.of_store h (.refl h) hq (by omega) ha hok
      hsame rfl (by
        change VmState.held A { s.setEntry a i 0 with pmm := pmm, faults := fs } \
          (s.setEntry a i 0).tablesOf k = _
        rw [hheld, setEntry_held, htables,
          sdiff_sdiff_sdiff_cancel_right (Set.singleton_subset_iff.mpr hfk)])
      fun _ hn => by
        obtain rfl := hfs (hn1 hn)
        exact ⟨hn.disarmed, hn.unlinked⟩
    exact ⟨u, .inl ⟨rfl, hself⟩⟩

end

/-! ### Creating the tables of a path -/

/-- Rolling back `created` in `s'` is upkeep, and when it is done the tables are where they were
in `s`. -/
def RollsBack (A : Allocator Nat σ) (k : R) (s : VmState R σ) (created : List CreatedTable)
    (s' : VmState R σ) : Prop :=
  ∀ b s'', each (rollbackTable A k) created s' = (b, s'') → Upkeep A k s' s'' ∧
    (b = true → ∀ p, s.forest.Owned k p → p.length ≤ 3 → s''.tableAt k p = s.tableAt k p) ∧
    (A.FreesAllocated → s'.NoFaults → b = true)

/-- A table that was just linked can be rolled back after all that were linked below it. -/
theorem RollsBack.snoc {created : List CreatedTable} (u : UpkeepAt A k (· = q ++ [i]) s s₁)
    (v : Upkeep A k s₁ s') (hq : s.forest.Owned k (q ++ [i])) (hd : q.length ≤ 2)
    (ha : s.tableAt k q = some a) (hexp : (s.map k).sharedSource = false)
    (hnone : s.tableAt k (q ++ [i]) = none) (hf : s₁.tableAt k (q ++ [i]) = some f)
    (hempty : s₁.TableEmpty f) (hback : RollsBack A k s₁ created s') :
    RollsBack A k s (created ++ [⟨a, i, f⟩]) s' := by
  intro b s'' heach
  rcases hfirst : each (rollbackTable A k) created s' with ⟨b1, s2⟩
  obtain ⟨u2, htab2, hcalm2⟩ := hback b1 s2 hfirst
  rw [each_append, hfirst] at heach
  cases b1 with
  | false =>
    cases heach
    exact ⟨u2, fun h => absurd h (by decide), hcalm2⟩
  | true =>
    have hforest := u.forest
    have htab : ∀ p, s₁.forest.Owned k p → p.length ≤ 3 → s2.tableAt k p = s₁.tableAt k p :=
      htab2 rfl
    have hq1 : s₁.forest.Owned k (q ++ [i]) := hforest ▸ hq
    have hf2 : s2.tableAt k (q ++ [i]) = some f := (htab _ hq1 (length_snoc_le hd)).trans hf
    have hempty2 : s2.TableEmpty f :=
      ((v.trans u2).tableEmpty u.inv htab hq1 (length_snoc_le hd) hf).mpr hempty
    have hqne : q ≠ q ++ [i] := by simp
    have ha2 : s2.tableAt k q = some a := by
      rw [htab q hq1.init (by omega), u.tableAt hq.init (by omega) hqne, ha]
    have hchild2 : tableChild (s2.table a i) = some f := (tableAt_below ha2).symm.trans hf2
    have hframe : entryFrame (s2.table a i) = f := by
      unfold tableChild at hchild2
      split_ifs at hchild2
      exact Option.some.inj hchild2
    have hmap2 : s2.map = s.map := u2.map.trans (v.map.trans u.map)
    have hq2 : s2.forest.Owned k (q ++ [i]) := by rw [forest_congr hmap2]; exact hq
    -- the loop's last turn
    rcases hrel : s2.releaseEmptyChild A k a i with ⟨b3, s3⟩
    have hturn : rollbackTable A k ⟨a, i, f⟩ s2 = (b3, s3) := by
      unfold rollbackTable
      rw [if_neg (not_not_intro hframe)]
      exact hrel
    have hend : each (rollbackTable A k) [⟨a, i, f⟩] s2 = (b3, s3) := by
      cases b3 with
      | true => rw [each_cons_true hturn, each_nil]
      | false => rw [each_cons_false hturn]
    rw [hend] at heach
    cases heach
    obtain ⟨u3, ⟨rfl, hcleared⟩ | ⟨rfl, -, hfull⟩⟩ := releaseEmptyChild_cases u2.inv hq2
      hd ha2 (by rw [hmap2]; exact hexp) hrel
    · refine ⟨u2.trans u3.toUpkeep, fun _ p hp hpd => ?_, fun _ _ => rfl⟩
      have hp2 : s2.forest.Owned k p := by rw [forest_congr hmap2]; exact hp
      have hp1 : s₁.forest.Owned k p := hforest ▸ hp
      by_cases hpq : p = q ++ [i]
      · rw [hpq, hnone, VmInv.tableAt_snoc, hcleared, tableChild_zero]
      · rw [u3.tableAt hp2 hpd hpq, htab p hp1 hpd, u.tableAt hp hpd hpq]
    · refine ⟨u2.trans u3.toUpkeep, fun h => absurd h (by decide), fun hA hn => ?_⟩
      exact absurd hempty2 (hfull hA (u2.calm hA hn) f hf2)

/-- The loop of `map_page_locked`, from the table at the end of `q` on. -/
theorem createTables_spec {path : List TableIndex} {created created' : List CreatedTable}
    {r : Option Nat} (h : VmInv A s) (hq : s.forest.Owned k (q ++ path))
    (hd : (q ++ path).length ≤ 3) (ha : s.tableAt k q = some a)
    (hu : user = true → ∀ p j, q = p ++ [j] → Has (s.entryAt k p j) pteUser)
    (hr : createTables A k user a path created s = (r, created', s')) :
    UpkeepAt A k (· <+: q ++ path) s s' ∧
      (∃ new, created' = new ++ created ∧
        ((s.map k).sharedSource = false → RollsBack A k s new s')) ∧
      ∀ pt, r = some pt → s'.tableAt k (q ++ path) = some pt ∧
        (user = true → ∀ p j, q ++ path = p ++ [j] → Has (s'.entryAt k p j) pteUser) := by
  induction path generalizing s q a created with
  | nil =>
    cases hr
    rw [List.append_nil]
    refine ⟨.refl h, ⟨[], rfl, fun _ => ?_⟩, ?_⟩
    · rintro b s'' heach
      cases heach
      exact ⟨.refl h, fun _ _ _ _ => rfl, fun _ _ => rfl⟩
    · rintro pt hpt
      cases hpt
      exact ⟨ha, hu⟩
  | cons i path ih =>
    have hqi : s.forest.Owned k (q ++ [i]) := hq.snoc_of_append
    have hd1 : q.length ≤ 2 := by
      rw [List.length_append, List.length_cons] at hd
      omega
    have hassoc : q ++ i :: path = (q ++ [i]) ++ path := by simp
    rw [createTables] at hr
    rcases hget : s.createOrGetTable A k a i user with ⟨r1, s₁⟩
    rw [hget] at hr
    obtain ⟨u, hcases⟩ := createOrGetTable_cases h hqi hd1 ha hu hget
    have u' : UpkeepAt A k (· <+: q ++ i :: path) s s₁ := u.mono fun _ heq => heq ▸ ⟨path, by simp⟩
    have htab : ∀ p, s.forest.Owned k p → p.length ≤ 3 →
        s₁.tableAt k (q ++ [i]) = s.tableAt k (q ++ [i]) → s₁.tableAt k p = s.tableAt k p := by
      intro p hp hpd hqi
      by_cases hpq : p = q ++ [i]
      · rw [hpq, hqi]
      · exact u.tableAt hp hpd hpq
    -- from the next table on, by induction
    have hnext : ∀ {c created1}, s₁.tableAt k (q ++ [i]) = some c →
        (user = true → Has (s₁.entryAt k q i) pteUser) →
        createTables A k user c path created1 s₁ = (r, created', s') → _ := fun hc huser hrec =>
      ih u.inv (by rw [u.forest, ← hassoc]; exact hq) (by rw [← hassoc]; exact hd) hc
        (fun hus p j hqp => by
          obtain ⟨rfl, hij⟩ := List.append_inj' hqp rfl
          cases hij
          exact huser hus) hrec
    rcases hcases with ⟨rfl, hsame⟩ | ⟨huser, ⟨c, rfl, hold, hc⟩ | ⟨f, rfl, hnone, hf, hempty⟩⟩
    · cases hr
      refine ⟨u', ⟨[], rfl, fun _ => ?_⟩, fun _ h => absurd h (by simp)⟩
      rintro b s'' heach
      cases heach
      refine ⟨.refl u.inv, fun _ p hp hpd => htab p hp hpd ?_, fun _ _ => rfl⟩
      rw [VmInv.tableAt_snoc, VmInv.tableAt_snoc, hsame]
    · obtain ⟨v, ⟨new, hnew, hback⟩, hend⟩ := hnext hc huser hr
      rw [← hassoc] at v hend
      refine ⟨u'.trans v, ⟨new, hnew, fun hexp b s'' heach => ?_⟩, hend⟩
      obtain ⟨u2, htab2, hcalm⟩ := hback (by rw [u.map]; exact hexp) b s'' heach
      refine ⟨u2, fun hb p hp hpd => ?_, hcalm⟩
      rw [htab2 hb p (u.forest ▸ hp) hpd, htab p hp hpd (hc.trans hold.symm)]
    · obtain ⟨v, ⟨new, hnew, hback⟩, hend⟩ := hnext hf huser hr
      rw [← hassoc] at v hend
      refine ⟨u'.trans v, ⟨new ++ [⟨a, i, f⟩], ?_, fun hexp => ?_⟩, hend⟩
      · rw [hnew]
        simp
      · exact .snoc u v.toUpkeep hqi hd1 ha hexp hnone hf hempty (hback (by rw [u.map]; exact hexp))

end VmState

end JcosKernel
