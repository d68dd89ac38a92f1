import Mathlib.Data.List.Basic
import Mathlib.Logic.Function.Basic

/-!
# JcosKernel.Lib.Chain

**Singly linked lists in memory.** Every cell has a pointer to the next one, `none` at the end.
`Chain next a l` says that the cells from `a` on are those of `l`, in this order, and that there
the list ends. Loops over such a list are given a number of steps; what they compute does not
depend on it once it reaches the length of the list.
-/

namespace JcosKernel.Lib

variable {α : Type*}

/-- The cells from `a` on. -/
def Chain (next : α → Option α) : Option α → List α → Prop
  | a, [] => a = none
  | a, x :: l => a = some x ∧ Chain next (next x) l

/-- Walk from `a` on to the first cell that passes the test. -/
def chainFind (next : α → Option α) (p : α → Bool) : Nat → Option α → Option α
  | 0, _ => none
  | _, none => none
  | n + 1, some a => if p a then some a else chainFind next p n (next a)

/-- Walk from the cell `a` to the last one. -/
def chainLast (next : α → Option α) : Nat → α → α
  | 0, a => a
  | n + 1, a =>
    match next a with
    | none => a
    | some b => chainLast next n b

namespace Chain

variable {next : α → Option α} {a : Option α} {x y : α} {l : List α} {p : α → Bool} {n : Nat}

@[simp] theorem nil_iff : Chain next a [] ↔ a = none := Iff.rfl

theorem cons_iff : Chain next a (x :: l) ↔ a = some x ∧ Chain next (next x) l := Iff.rfl

theorem unique {l' : List α} (h : Chain next a l) (h' : Chain next a l') : l = l' := by
  induction l generalizing a l' with
  | nil =>
    cases l' with
    | nil => rfl
    | cons y l' => exact absurd (h.symm.trans h'.1) (by simp)
  | cons x l ih =>
    cases l' with
    | nil => exact absurd (h'.symm.trans h.1) (by simp)
    | cons y l' =>
      obtain rfl : x = y := Option.some.inj (h.1.symm.trans h'.1)
      rw [ih h.2 h'.2]

theorem find_eq (h : Chain next a l) (hn : l.length ≤ n) : chainFind next p n a = l.find? p := by
  induction l generalizing a n with
  | nil =>
    obtain rfl := h
    cases n <;> rfl
  | cons x l ih =>
    obtain ⟨rfl, hl⟩ := h
    cases n with
    | zero => simp at hn
    | succ n =>
      rw [chainFind, List.find?_cons, ih hl (by simpa using hn)]
      cases p x <;> rfl

theorem last_eq (h : Chain next a (x :: l)) (hn : l.length ≤ n) :
    chainLast next n x = (x :: l).getLast (by simp) := by
  induction l generalizing a x n with
  | nil =>
    obtain ⟨-, hnone⟩ := h
    cases n with
    | zero => rfl
    | succ n =>
      rw [chainLast, nil_iff.mp hnone]
      rfl
  | cons y l ih =>
    have htail := (cons_iff.mp h).2
    cases n with
    | zero => simp at hn
    | succ n =>
      rw [chainLast, (cons_iff.mp htail).1]
      simp only
      rw [ih htail (by simpa using hn)]
      exact (List.getLast_cons (by simp)).symm

/-- Pointers of cells that are not in the list do not matter. -/
theorem congr {next' : α → Option α} (h : Chain next a l) (heq : ∀ x ∈ l, next' x = next x) :
    Chain next' a l := by
  induction l generalizing a with
  | nil => exact h
  | cons x l ih =>
    refine ⟨h.1, ?_⟩
    rw [heq x List.mem_cons_self]
    exact ih h.2 fun y hy => heq y (List.mem_cons_of_mem _ hy)

/-- A cell is appended by storing it in the last pointer. -/
theorem append [DecidableEq α] (h : Chain next a (x :: l)) (hnd : (x :: l).Nodup)
    (hy : next y = none) (hnew : y ∉ x :: l) :
    Chain (Function.update next ((x :: l).getLast (by simp)) (some y)) a (x :: l ++ [y]) := by
  induction l generalizing a x with
  | nil =>
    have hne : y ≠ x := fun heq => hnew (by simp [heq])
    refine ⟨h.1, ?_, ?_⟩
    · simp
    · simp [Function.update_of_ne hne, hy]
  | cons z l ih =>
    have hlast : (x :: z :: l).getLast (by simp) = (z :: l).getLast (by simp) :=
      List.getLast_cons (by simp)
    refine ⟨h.1, ?_⟩
    have hxne : x ≠ (z :: l).getLast (by simp) := fun heq =>
      (List.nodup_cons.mp hnd).1 (heq ▸ List.getLast_mem (by simp))
    rw [hlast, Function.update_of_ne hxne]
    exact ih h.2 (List.nodup_cons.mp hnd).2 fun hmem => hnew (List.mem_cons_of_mem _ hmem)

end Chain

end JcosKernel.Lib
