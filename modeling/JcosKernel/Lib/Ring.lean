import Mathlib.Data.List.Chain
import Mathlib.Data.List.Nodup
import Mathlib.Logic.Function.Basic

/-!
# JcosKernel.Lib.Ring

**Intrusive circular lists.** A ring is a set of cells linked by a `next` field
into one cycle. `Ring next l` says that the cells of `l`, in that order, form such
a cycle; the owner of the ring keeps a pointer to the first and to the last of
them.

A ring may be read from any of its cells (`Ring.rotate`), a bounded walk along `next` is a left-to-right search of
the list (`Ring.walk_eq_find?`), and the usual pointer writes insert a cell at the
end (`Ring.append`) and take one out (`Ring.unlink`).
-/

namespace JcosKernel.Lib

open Function

variable {α : Type*} {next next' : α → Option α} {l : List α} {a t : α}

/-- The cells of `l` are linked into one cycle by `next`. -/
def Ring (next : α → Option α) : List α → Prop
  | [] => True
  | a :: l => List.IsChain (fun x y => next x = some y) (a :: l ++ [a])

/-- Follow `next` from `start`, at most `fuel` cells, to a cell that satisfies `p`. -/
def walk (next : α → Option α) (p : α → Bool) : Nat → Option α → Option α
  | 0, _ => none
  | _ + 1, none => none
  | fuel + 1, some a => if p a then some a else walk next p fuel (next a)

/-- Each cell of the list leads to the one behind it. -/
abbrev Linked (next : α → Option α) (l : List α) : Prop :=
  l.IsChain fun x y => next x = some y

namespace Ring

theorem singleton (h : next a = some a) : Ring next [a] := by
  simp [Ring, h]

variable {post pre : List α} {p : α → Bool} {b q x : α}

/-- A ring of two halves: each half is a chain and each leads into the other. -/
theorem append_iff :
    Ring next (a :: pre ++ b :: post) ↔
      Linked next (a :: pre ++ [b]) ∧ Linked next (b :: post ++ [a]) := by
  have : a :: pre ++ b :: post ++ [a] = (a :: pre) ++ b :: (post ++ [a]) := by simp
  rw [show Ring next (a :: pre ++ b :: post) = Linked next (a :: pre ++ b :: post ++ [a]) from rfl,
    this]
  exact List.isChain_split

/-- A chain into `q` depends on the successors of the cells before it only. -/
theorem chain_congr {next' : α → Option α} (hsame : ∀ x ∈ pre, next' x = next x)
    (h : Linked next (pre ++ [q])) : Linked next' (pre ++ [q]) := by
  obtain ⟨h1, -, h3⟩ := List.isChain_append.mp h
  refine List.isChain_append.mpr ⟨?_, by simp, ?_⟩
  · refine List.IsChain.imp_of_mem_imp ?_ h1
    intro x y hx _ hxy
    rw [hsame x hx]
    exact hxy
  · intro x hx y hy
    rw [hsame x (List.mem_of_mem_getLast? hx)]
    exact h3 x hx y hy

/-- A ring may be read from any of its cells. -/
theorem rotate (h : Ring next (pre ++ post)) : Ring next (post ++ pre) := by
  cases pre with
  | nil => simpa using h
  | cons a pre =>
    cases post with
    | nil => simpa using h
    | cons b post =>
      obtain ⟨h1, h2⟩ := append_iff.mp h
      exact append_iff.mpr ⟨h2, h1⟩

theorem cons_cons (h : Ring next (a :: b :: l)) :
    next a = some b ∧ Linked next (b :: l ++ [a]) :=
  List.isChain_cons_cons.mp h

theorem next_of_cons_cons (h : Ring next (a :: b :: l)) : next a = some b :=
  h.cons_cons.1

/-- The last cell leads back to the first. -/
theorem next_last (h : Ring next (l ++ [t])) (ha : (l ++ [t]).head? = some a) :
    next t = some a := by
  have h' : Ring next (t :: l) := rotate h
  cases l with
  | nil =>
    obtain rfl : t = a := by simpa using ha
    simpa [Ring] using h'
  | cons b l =>
    obtain rfl : b = a := by simpa using ha
    exact next_of_cons_cons h'

/-- Every cell of a ring has a successor in the ring. -/
theorem next_mem (h : Ring next l) (ht : t ∈ l) : ∃ u ∈ l, next t = some u := by
  obtain ⟨pre, post, rfl⟩ := List.append_of_mem ht
  have h' : Ring next (t :: (post ++ pre)) := rotate h
  cases hr : post ++ pre with
  | nil =>
    rw [hr] at h'
    exact ⟨t, ht, by simpa [Ring] using h'⟩
  | cons b r =>
    rw [hr] at h'
    refine ⟨b, ?_, next_of_cons_cons h'⟩
    have : b ∈ post ++ pre := hr ▸ List.mem_cons_self
    simp only [List.mem_append] at this ⊢
    tauto

/-- Only the successors of the cells themselves matter. -/
theorem congr (h : Ring next l) (hc : ∀ x ∈ l, next' x = next x) : Ring next' l := by
  cases l with
  | nil => trivial
  | cons a l =>
    refine List.IsChain.imp_of_mem_imp ?_ h
    intro x y hx _ hxy
    rw [hc x ?_]
    · exact hxy
    · simpa [or_comm] using hx

/-- Only the last cell of a ring leads to its first. -/
theorem next_eq_first_iff (h : Ring next (t :: l)) (hnd : (t :: l).Nodup)
    (hq : (t :: l).getLast? = some q) (hx : x ∈ t :: l) : next x = some t ↔ x = q := by
  obtain ⟨pre, post, he⟩ := List.append_of_mem hx
  cases post with
  | nil =>
    obtain rfl : x = q := by
      rw [he, List.getLast?_concat] at hq
      exact Option.some.inj hq
    rw [he] at h
    exact iff_of_true (next_last h (by rw [← he]; rfl)) rfl
  | cons y post =>
    -- the successor of `x` is `y`, which is not the first cell, and `x` is not the last
    rw [he] at h hnd hq
    have hrot : Ring next (x :: y :: (post ++ pre)) := by simpa using rotate h
    have hxy : next x = some y := next_of_cons_cons hrot
    obtain ⟨-, hnd', hdisj⟩ := List.nodup_append.mp hnd
    have hyt : y ≠ t := by
      intro hyt
      cases pre with
      | nil =>
        obtain rfl : t = x := (List.cons.inj he).1
        simp [hyt] at hnd'
      | cons a pre =>
        obtain rfl : t = a := (List.cons.inj he).1
        exact hdisj t List.mem_cons_self y (by simp) hyt.symm
    have hxq : x ≠ q := by
      intro hxq
      have hq' : (y :: post).getLast? = some q := by simpa using hq
      exact (List.nodup_cons.mp hnd').1 (hxq ▸ List.mem_of_mem_getLast? hq')
    refine iff_of_false (fun hn => hyt ?_) hxq
    exact Option.some.inj (hxy.symm.trans hn)

/-! ### Walking along a ring -/

theorem walk_chain {xs : List α} (h : Linked next (x :: xs)) :
    walk next p (xs.length + 1) (some x) = (x :: xs).find? p := by
  induction xs generalizing x with
  | nil =>
    by_cases hp : p x
    · simp [walk]
    · simp [walk]
  | cons y ys ih =>
    obtain ⟨hxy, hys⟩ := List.isChain_cons_cons.mp h
    by_cases hp : p x
    · simp [walk, hp]
    · rw [List.length_cons, walk, if_neg hp, hxy, ih hys, List.find?_cons_of_neg hp]

/-- Walking once around the ring, from its first cell, searches the list. -/
theorem walk_eq_find? (h : Ring next l) : walk next p l.length l.head? = l.find? p := by
  cases l with
  | nil => rfl
  | cons a l =>
    have h' : Linked next ((a :: l) ++ [a]) := h
    simpa using walk_chain h'.left_of_append

/-- Walking on from a cell, over all the others, searches the rest of the ring. -/
theorem walk_next_eq_find? (h : Ring next (t :: l)) :
    walk next p l.length (next t) = l.find? p := by
  cases l with
  | nil => rfl
  | cons b l =>
    obtain ⟨htb, hrest⟩ := h.cons_cons
    rw [htb]
    simpa using walk_chain hrest.left_of_append

/-! ### Changing a ring -/

variable [DecidableEq α]

/-- Link a new cell in behind the last one. -/
theorem append {tail : α} (h : Ring next (l ++ [tail])) (hnd : (l ++ [tail]).Nodup)
    (ha : (l ++ [tail]).head? = some a) (ht : t ∉ l ++ [tail]) :
    Ring (update (update next t (some a)) tail (some t)) (l ++ [tail] ++ [t]) := by
  have htail : t ≠ tail := by
    intro he
    exact ht (by simp [he])
  -- read from its tail, the old ring is a chain from `a` to `tail`
  suffices h' : Ring (update (update next t (some a)) tail (some t))
      (tail :: ([t] ++ l)) by
    have hsplit : Ring (update (update next t (some a)) tail (some t))
        ([tail, t] ++ l) := h'
    simpa using rotate hsplit
  have hrot : Ring next (tail :: l) := rotate h
  have htl : tail ∉ l := by
    intro hm
    exact (List.nodup_append.mp hnd).2.2 _ hm _ (List.mem_singleton_self _) rfl
  cases l with
  | nil =>
    obtain rfl : tail = a := by simpa using ha
    simp [Ring, htail]
  | cons b l =>
    obtain rfl : b = a := by simpa using ha
    -- the cells before `tail` kept their successors
    have hsame : ∀ x ∈ b :: l, update (update next t (some b)) tail
        (some t) x = next x := by
      intro x hx
      have hxt : x ≠ tail := by
        intro he
        exact htl (he ▸ hx)
      have hxt' : x ≠ t := by
        intro he
        exact ht (he ▸ List.mem_append_left _ hx)
      rw [update_of_ne hxt, update_of_ne hxt']
    have hchain := chain_congr hsame hrot.cons_cons.2
    refine List.isChain_cons_cons.mpr ⟨by simp, List.isChain_cons_cons.mpr ⟨?_, hchain⟩⟩
    rw [update_of_ne htail, update_self]

/-- Take the first cell out: its predecessor, the last cell, is led past it. -/
theorem unlink_first (h : Ring next (t :: l)) (hnd : (t :: l).Nodup) (hq : l.getLast? = some q) :
    Ring (update next q (next t)) l := by
  cases l with
  | nil => trivial
  | cons b l =>
    obtain ⟨htb, hrest⟩ := h.cons_cons
    have hdl : (b :: l) = (b :: l).dropLast ++ [q] := by
      rw [List.dropLast_append_getLast?]
      exact hq
    have hqn : q ∉ (b :: l).dropLast := by
      intro hm
      have hnd' : ((b :: l).dropLast ++ [q]).Nodup := hdl ▸ (List.nodup_cons.mp hnd).2
      exact (List.nodup_append.mp hnd').2.2 _ hm _ (List.mem_singleton_self _) rfl
    refine List.isChain_append.mpr ⟨?_, by simp, ?_⟩
    · have hbl := hrest.left_of_append
      rw [hdl] at hbl ⊢
      have hsame : ∀ x ∈ (b :: l).dropLast, update next q (next t) x = next x := by
        intro x hx
        have hxq : x ≠ q := by
          intro he
          exact hqn (he ▸ hx)
        exact update_of_ne hxq _ _
      exact chain_congr hsame hbl
    · intro x hx y hy
      obtain rfl : q = x := by
        rw [hq] at hx
        simpa using hx
      obtain rfl : b = y := by simpa using hy
      rw [update_self]
      exact htb

/-- Take any cell out of a ring of at least two. -/
theorem unlink (h : Ring next (pre ++ t :: post)) (hnd : (pre ++ t :: post).Nodup)
    (hq : (post ++ pre).getLast? = some q) :
    Ring (update next q (next t)) (pre ++ post) := by
  have hrot : Ring next (t :: (post ++ pre)) := rotate h
  have hnd' : (t :: (post ++ pre)).Nodup := by
    have hp : (pre ++ t :: post).Perm (t :: (post ++ pre)) := by
      simpa using @List.perm_append_comm _ pre (t :: post)
    exact hp.nodup_iff.mp hnd
  exact rotate (unlink_first hrot hnd' hq)

/-- Searching a ring for the cell that leads to `t` finds the predecessor of `t`. -/
theorem find?_predecessor (h : Ring next (pre ++ t :: post)) (hnd : (pre ++ t :: post).Nodup)
    (hq : (t :: (post ++ pre)).getLast? = some q) :
    (pre ++ t :: post).find? (fun x => next x = some t) = some q := by
  have hp : (pre ++ t :: post).Perm (t :: (post ++ pre)) := by
    simpa using @List.perm_append_comm _ pre (t :: post)
  have hiff : ∀ x ∈ pre ++ t :: post, (next x = some t ↔ x = q) := fun x hx =>
    next_eq_first_iff (rotate h) (hp.nodup_iff.mp hnd) hq (hp.mem_iff.mp hx)
  have hqm : q ∈ pre ++ t :: post := hp.mem_iff.mpr (List.mem_of_mem_getLast? hq)
  cases hf : (pre ++ t :: post).find? (fun x => next x = some t) with
  | none =>
    have := List.find?_eq_none.mp hf q hqm
    simp [(hiff q hqm).mpr rfl] at this
  | some x =>
    have hx := List.find?_some hf
    rw [(hiff x (List.mem_of_find?_eq_some hf)).mp (by simpa using hx)]

end Ring

end JcosKernel.Lib
