import Mathlib.Data.List.Induction
import Mathlib.Data.Set.Insert
import Mathlib.Logic.Function.Basic

/-!
# JcosKernel.Lib.Forest

**Trees of tables in memory.** A memory `m : A → I → E` holds at every address a table of
entries; an entry may name a child table. Several trees hang in one memory: tree `k` starts
at `F.root k`, and its first step may take the indices that `F.own k` allows. Other entries of
a root are stored there as well, but they lead to tables that belong to somebody else.

The content of a tree is `F.entry`, a function of paths: a table that does not exist reads as
zero everywhere. `Separated` says that no table has two places. Under it the three ways to
store an entry (change it without changing the child, link a zeroed table, unlink a zeroed
table) change `F.entry` at one place only (`entry_set`), and that place is the only one whose
table can change (`table_set`).
-/

namespace JcosKernel.Lib

open Function

/-- Where the trees start, and which of the first steps are theirs. -/
structure Forest (K A I : Type*) where
  root : K → Option A
  own : K → I → Prop

namespace Forest

variable {K A I E : Type*}

/-! ### Walking -/

section Walk

variable (child : E → Option A) (m : A → I → E)

/-- The table that a path leads to. -/
def walk : A → List I → Option A
  | a, [] => some a
  | a, i :: q => (child (m a i)).bind fun b => walk b q

@[simp] theorem walk_nil (a : A) : walk child m a [] = some a := rfl

theorem walk_cons (a : A) (i : I) (q : List I) :
    walk child m a (i :: q) = (child (m a i)).bind fun b => walk child m b q := rfl

theorem walk_append (a : A) (p q : List I) :
    walk child m a (p ++ q) = (walk child m a p).bind fun b => walk child m b q := by
  induction p generalizing a with
  | nil => rfl
  | cons i p ih =>
    rw [List.cons_append, walk_cons, walk_cons]
    cases child (m a i) with
    | none => rfl
    | some b => exact ih b

/-- Store the entry `e` at index `i` of the table at `a`. -/
def set [DecidableEq A] [DecidableEq I] (a : A) (i : I) (e : E) : A → I → E :=
  update m a (update (m a) i e)

variable [DecidableEq A] [DecidableEq I] {m}

@[simp] theorem set_self (a : A) (i : I) (e : E) : set m a i e a i = e := by simp [set]

theorem set_of_ne {a b : A} {i j : I} {e : E} (h : ¬ (b = a ∧ j = i)) :
    set m a i e b j = m b j := by
  by_cases hb : b = a
  · subst hb
    rw [set, update_self, update_of_ne fun hj => h ⟨rfl, hj⟩]
  · rw [set, update_of_ne hb]

/-- Storing back what was there undoes a store. -/
theorem set_restore (m : A → I → E) (a : A) (i : I) (e : E) : set (set m a i e) a i (m a i) = m := by
  funext b j
  by_cases h : b = a ∧ j = i
  · rw [h.1, h.2, set_self]
  · rw [set_of_ne h, set_of_ne h]

/-- A walk that does not read the entry is not changed by a store into it. -/
theorem walk_set {a : A} {i : I} {e : E} {b : A} {q : List I}
    (h : ∀ u t, q = u ++ i :: t → walk child m b u ≠ some a) :
    walk child (set m a i e) b q = walk child m b q := by
  induction q generalizing b with
  | nil => rfl
  | cons j q ih =>
    have hread : set m a i e b j = m b j := by
      refine set_of_ne fun hbj => ?_
      obtain ⟨rfl, rfl⟩ := hbj
      exact h [] q rfl rfl
    rw [walk_cons, walk_cons, hread]
    cases hc : child (m b j) with
    | none => rfl
    | some c =>
      refine ih fun u t hq hu => h (j :: u) t (by rw [hq]; rfl) ?_
      rw [walk_cons, hc]
      exact hu

end Walk

/-! ### Trees -/

variable (F : Forest K A I) (child : E → Option A) (m : A → I → E)

/-- The first step of the path is one of the tree's own. -/
def Owned (k : K) : List I → Prop
  | [] => True
  | i :: _ => F.own k i

/-- The table at the end of a path. -/
def table (k : K) (q : List I) : Option A := (F.root k).bind fun r => walk child m r q

/-- The entry at index `i` of the table at the end of `q`. -/
def entry [Zero E] (k : K) (q : List I) (i : I) : E := (F.table child m k q).elim 0 fun a => m a i

/-- `a` is one of the tables of tree `k`, at depth at most `d`. -/
def IsTable (d : Nat) (k : K) (a : A) : Prop :=
  ∃ q, F.Owned k q ∧ q.length ≤ d ∧ F.table child m k q = some a

/-- The tables of tree `k`. -/
def tables (d : Nat) (k : K) : Set A := {a | F.IsTable child m d k a}

/-- No table has two places. -/
def Separated (d : Nat) : Prop :=
  ∀ k q k' q' a, F.Owned k q → q.length ≤ d → F.Owned k' q' → q'.length ≤ d →
    F.table child m k q = some a → F.table child m k' q' = some a → k = k' ∧ q = q'

variable {F child m} {k k' : K} {q q' p : List I} {i j : I} {a c : A} {d : Nat} {e : E}

theorem Owned.append (h : F.Owned k (q ++ [i])) (t : List I) : F.Owned k (q ++ i :: t) := by
  cases q with
  | nil => exact h
  | cons j q => exact h

theorem Owned.snoc_of_append {t : List I} (h : F.Owned k (q ++ i :: t)) :
    F.Owned k (q ++ [i]) := by
  cases q with
  | nil => exact h
  | cons j q => exact h

/-- The path up to the last step is owned too. -/
theorem Owned.init (h : F.Owned k (q ++ q')) : F.Owned k q := by
  cases q with
  | nil => exact trivial
  | cons i q => exact h

/-- Below its first step a path may go anywhere. -/
theorem Owned.append_of_ne_nil (h : F.Owned k q) (hne : q ≠ []) (t : List I) :
    F.Owned k (q ++ t) := by
  cases q with
  | nil => exact absurd rfl hne
  | cons i q => exact h

theorem owned_congr {F' : Forest K A I} (h : F'.own k' = F.own k) :
    F'.Owned k' q ↔ F.Owned k q := by
  cases q with
  | nil => exact Iff.rfl
  | cons i q => exact iff_of_eq (congrFun h i)

theorem table_nil : F.table child m k [] = F.root k := by
  cases h : F.root k <;> simp [table, h]

theorem table_append : F.table child m k (p ++ q) =
    (F.table child m k p).bind fun b => walk child m b q := by
  unfold table
  cases F.root k with
  | none => rfl
  | some r => exact walk_append child m r p q

theorem table_snoc : F.table child m k (p ++ [i]) =
    (F.table child m k p).bind fun b => child (m b i) := by
  rw [table_append]
  congr 1
  funext b
  rw [walk_cons]
  cases child (m b i) <;> rfl

section Zero

variable [Zero E]

theorem entry_of_table (h : F.table child m k q = some a) : F.entry child m k q i = m a i := by
  rw [entry, h]
  rfl

theorem entry_of_none (h : F.table child m k q = none) : F.entry child m k q i = 0 := by
  rw [entry, h]
  rfl

/-- The next table is the child of the entry. -/
theorem table_snoc_entry (h0 : child (0 : E) = none) : F.table child m k (q ++ [i]) =
    child (F.entry child m k q i) := by
  rw [table_snoc]
  cases hq : F.table child m k q with
  | none => rw [entry_of_none hq, h0]; rfl
  | some a => rw [entry_of_table hq]; rfl

end Zero

/-! ### Storing an entry -/

/-- A path that reads an entry of the table at `a` goes through the place of that table. -/
theorem eq_of_reads {u t : List I} {r : A} (hsep : F.Separated child m d) (hp : F.Owned k p)
    (hd : p.length ≤ d) (ha : F.table child m k p = some a) (hq : F.Owned k' (u ++ t))
    (hu : u.length ≤ d) (hr : F.root k' = some r) (hw : walk child m r u = some a) :
    k' = k ∧ u = p := by
  refine hsep k' u k p a hq.init hu hp hd ?_ ha
  rw [table, hr]
  exact hw

section Set

variable [DecidableEq K] [DecidableEq A] [DecidableEq I] [Zero E]

/-- What a store into an entry may do to its child: nothing, link a zeroed table that has no
place yet, or unlink a zeroed table. -/
inductive Splice (F : Forest K A I) (child : E → Option A) (m : A → I → E) (d : Nat)
    (old new : E) : Prop
  | keep : child new = child old → Splice F child m d old new
  | link (c : A) : child old = none → child new = some c → (∀ j, m c j = 0) →
      (∀ k, ¬ F.IsTable child m d k c) → Splice F child m d old new
  | unlink (c : A) : child old = some c → child new = none → (∀ j, m c j = 0) →
      Splice F child m d old new

variable (h0 : child (0 : E) = none) (hsep : F.Separated child m d)
  (hp : F.Owned k p) (hd : p.length ≤ d) (ha : F.table child m k p = some a)
  (hsplice : p.length < d → F.Owned k (p ++ [i]) → Splice F child m d (m a i) e)

omit [DecidableEq K] [Zero E] in
include hsep hp hd ha in
/-- The walk to a table that is not below the entry is not changed. -/
theorem table_set_of_not_below (hq : F.Owned k' q) (hqd : q.length ≤ d)
    (hb : ¬ ∃ t, k' = k ∧ q = p ++ i :: t) :
    F.table child (set m a i e) k' q = F.table child m k' q := by
  unfold table
  cases hr : F.root k' with
  | none => rfl
  | some r =>
    refine walk_set child fun u t hut hw => hb ⟨t, ?_⟩
    have hlen : u.length ≤ d := by
      rw [hut, List.length_append] at hqd
      omega
    obtain ⟨hk, hup⟩ := eq_of_reads hsep hp hd ha (hut ▸ hq) hlen hr hw
    exact ⟨hk, hup ▸ hut⟩

include h0 hsep hp hd ha hsplice in
/-- Only the table at the entry can change. -/
theorem table_set (hq : F.Owned k' q) (hqd : q.length ≤ d) :
    F.table child (set m a i e) k' q =
      if k' = k ∧ q = p ++ [i] then child e else F.table child m k' q := by
  by_cases hb : ∃ t, k' = k ∧ q = p ++ i :: t
  swap
  · rw [table_set_of_not_below hsep hp hd ha hq hqd hb, if_neg]
    rintro ⟨rfl, rfl⟩
    exact hb ⟨[], rfl, rfl⟩
  obtain ⟨t, rfl, rfl⟩ := hb
  rw [List.length_append, List.length_cons] at hqd
  have hlt : p.length < d := by omega
  have hown : F.Owned k' (p ++ [i]) := hq.snoc_of_append
  have hself : F.table child (set m a i e) k' p = some a := by
    rw [table_set_of_not_below hsep hp hd ha hp hd, ha]
    rintro ⟨t', -, ht'⟩
    have := congrArg List.length ht'
    simp at this
  -- what lies below the entry, before and after
  have hnew : F.table child (set m a i e) k' (p ++ i :: t) =
      (child e).bind fun b => walk child (set m a i e) b t := by
    rw [table_append, hself, Option.bind_some, walk_cons, set_self]
  have hold : F.table child m k' (p ++ i :: t) =
      (child (m a i)).bind fun b => walk child m b t := by
    rw [table_append, ha, Option.bind_some, walk_cons]
  cases t with
  | nil =>
    rw [hnew, if_pos ⟨rfl, rfl⟩]
    cases child e <;> rfl
  | cons j t =>
    rw [if_neg (by simp), hnew, hold]
    cases hsplice hlt hown with
    | keep hc =>
      rw [hc]
      cases hb : child (m a i) with
      | none => rfl
      | some b =>
        refine walk_set child fun u t' hu hw => ?_
        -- the entry would be read a second time, deeper down
        have hdeep : F.table child m k' (p ++ i :: u) = some a := by
          rw [table_append, ha, Option.bind_some, walk_cons, hb]
          exact hw
        have hlen := congrArg List.length hu
        simp only [List.length_append, List.length_cons] at hlen hqd
        have heq := (hsep k' (p ++ i :: u) k' p a (hown.append u) (by
          simp only [List.length_append, List.length_cons]
          omega) hp hd hdeep ha).2
        have := congrArg List.length heq
        simp at this
    | link c hc hce hz hfresh =>
      have hca : c ≠ a := by
        rintro rfl
        exact hfresh k' ⟨p, hp, hd, ha⟩
      rw [hc, hce, Option.bind_some, walk_cons, set_of_ne (fun h => hca h.1), hz j, h0]
      rfl
    | unlink c hc hce hz =>
      rw [hc, hce, Option.bind_some, walk_cons, hz j, h0]
      rfl

include h0 hsep hp hd ha hsplice in
/-- The content changes at one place. -/
theorem entry_set (hq : F.Owned k' q) (hqd : q.length ≤ d) :
    F.entry child (set m a i e) k' q j =
      if k' = k ∧ q = p ∧ j = i then e else F.entry child m k' q j := by
  have htab := table_set h0 hsep hp hd ha hsplice hq hqd
  by_cases hbelow : k' = k ∧ q = p ++ [i]
  · -- the table below the entry reads as before: it is the same, or zeroed, or absent
    obtain ⟨rfl, rfl⟩ := hbelow
    rw [if_pos ⟨rfl, rfl⟩] at htab
    rw [if_neg (by simp)]
    have hlt : p.length < d := by
      simp only [List.length_append, List.length_cons, List.length_nil] at hqd
      omega
    have hold : F.table child m k' (p ++ [i]) = child (m a i) := by
      rw [table_snoc, ha]
      rfl
    cases hsplice hlt hq with
    | keep hc =>
      rw [hc] at htab
      cases hb : child (m a i) with
      | none => rw [entry_of_none (htab.trans hb), entry_of_none (hold.trans hb)]
      | some b =>
        have hba : b ≠ a := by
          rintro rfl
          have heq := (hsep k' (p ++ [i]) k' p b hq hqd hp hd (hold.trans hb) ha).2
          simp at heq
        rw [entry_of_table (htab.trans hb), entry_of_table (hold.trans hb),
          set_of_ne fun h => hba h.1]
    | link c hc hce hz hfresh =>
      have hca : c ≠ a := by
        rintro rfl
        exact hfresh k' ⟨p, hp, hd, ha⟩
      rw [entry_of_table (htab.trans hce), entry_of_none (hold.trans hc),
        set_of_ne fun h => hca h.1, hz j]
    | unlink c hc hce hz =>
      rw [entry_of_none (htab.trans hce), entry_of_table (hold.trans hc), hz j]
  · rw [if_neg hbelow] at htab
    unfold entry
    rw [htab]
    cases hb : F.table child m k' q with
    | none =>
      have hne : ¬ (k' = k ∧ q = p ∧ j = i) := by
        rintro ⟨rfl, rfl, -⟩
        rw [ha] at hb
        cases hb
      rw [if_neg hne]
      rfl
    | some b =>
      show set m a i e b j = _
      by_cases hba : b = a
      · subst hba
        obtain ⟨rfl, rfl⟩ := hsep k' q k p b hq hqd hp hd hb ha
        by_cases hj : j = i
        · subst hj
          rw [set_self, if_pos ⟨rfl, rfl, rfl⟩]
        · rw [set_of_ne fun h => hj h.2, if_neg fun h => hj h.2.2]
          rfl
      · rw [set_of_ne fun h => hba h.1, if_neg]
        · rfl
        · rintro ⟨rfl, rfl, -⟩
          exact hba (Option.some.inj (hb.symm.trans ha))

include h0 hsep hp hd ha hsplice in
theorem separated_set : F.Separated child (set m a i e) d := by
  intro k1 q1 k2 q2 b hq1 hd1 hq2 hd2 hb1 hb2
  rw [table_set h0 hsep hp hd ha hsplice hq1 hd1] at hb1
  rw [table_set h0 hsep hp hd ha hsplice hq2 hd2] at hb2
  -- the child of the new entry is the child of the old one, or has no other place
  have hnew : ∀ {k' q'}, F.Owned k' q' → q'.length ≤ d → ¬ (k' = k ∧ q' = p ++ [i]) →
      F.Owned k (p ++ [i]) → (p ++ [i]).length ≤ d → child e = some b →
      F.table child m k' q' ≠ some b := by
    intro k' q' hq' hd' hne hown hlen hce hb'
    have hlt : p.length < d := by
      simp only [List.length_append, List.length_cons, List.length_nil] at hlen
      omega
    cases hsplice hlt hown with
    | keep hc =>
      have hold : F.table child m k (p ++ [i]) = some b := by
        rw [table_snoc, ha, Option.bind_some, ← hc, hce]
      exact hne (hsep k' q' k (p ++ [i]) b hq' hd' hown hlen hb' hold)
    | link c hc hce' hz hfresh =>
      obtain rfl : b = c := Option.some.inj (hce.symm.trans hce')
      exact hfresh k' ⟨q', hq', hd', hb'⟩
    | unlink c hc hce' hz =>
      rw [hce'] at hce
      cases hce
  by_cases h1 : k1 = k ∧ q1 = p ++ [i] <;> by_cases h2 : k2 = k ∧ q2 = p ++ [i]
  · exact ⟨h1.1.trans h2.1.symm, h1.2.trans h2.2.symm⟩
  · rw [if_pos h1] at hb1
    rw [if_neg h2] at hb2
    obtain ⟨rfl, rfl⟩ := h1
    exact absurd hb2 (hnew hq2 hd2 h2 hq1 hd1 hb1)
  · rw [if_neg h1] at hb1
    rw [if_pos h2] at hb2
    obtain ⟨rfl, rfl⟩ := h2
    exact absurd hb1 (hnew hq1 hd1 h1 hq2 hd2 hb2)
  · rw [if_neg h1] at hb1
    rw [if_neg h2] at hb2
    exact hsep k1 q1 k2 q2 b hq1 hd1 hq2 hd2 hb1 hb2

end Set

/-! ### Stores elsewhere, and roots -/

section Frame

variable {m' : A → I → E}

section

variable (h : ∀ q a, F.Owned k q → q.length ≤ d → F.table child m k q = some a → m' a = m a)
  (hq : F.Owned k q) (hqd : q.length ≤ d)
include h hq hqd

/-- Memory that holds no table does not matter. -/
theorem table_congr : F.table child m' k q = F.table child m k q := by
  induction q using List.reverseRecOn with
  | nil => rw [table_nil, table_nil]
  | append_singleton q i ih =>
    have hinit := hq.init
    have hlen : q.length ≤ d := by
      rw [List.length_append] at hqd
      omega
    rw [table_snoc, table_snoc, ih hinit hlen]
    cases hb : F.table child m k q with
    | none => rfl
    | some b => rw [Option.bind_some, Option.bind_some, h q b hinit hlen hb]

theorem entry_congr [Zero E] : F.entry child m' k q i = F.entry child m k q i := by
  unfold entry
  rw [table_congr h hq hqd]
  cases hb : F.table child m k q with
  | none => rfl
  | some b => exact congrFun (h q b hq hqd hb) i

end

/-- A tree whose root is zeroed has no other table. -/
theorem table_of_zero [Zero E] (h0 : child (0 : E) = none) {r : A} (hr : F.root k = some r)
    (hz : ∀ j, m r j = 0) : F.table child m k q = if q = [] then some r else none := by
  cases q with
  | nil => rw [table_nil, hr, if_pos rfl]
  | cons i q =>
    rw [table, hr, Option.bind_some, walk_cons, hz i, h0]
    rfl

theorem table_of_root_none (hr : F.root k = none) : F.table child m k q = none := by
  rw [table, hr]
  rfl

end Frame

end Forest

end JcosKernel.Lib
