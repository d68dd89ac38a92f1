import Mathlib.Data.List.Basic
import Mathlib.Data.Nat.ModEq
import Mathlib.Logic.Function.Basic

/-!
# JcosKernel.Lib.CycleRing

**Rings with a cycle mark.** A producer stores the entries of a log into a ring of `n` slots, one
after another, and marks each with the parity of its lap. A reader shares no counter with it: at its
own position it tells by the mark whether the slot holds the entry of this lap or a stale one
(`Holds.read`), as long as the producer is not more than a lap ahead.
-/

namespace JcosKernel.Lib.CycleRing

open Function

variable {α : Type*} {n k c : Nat} {mark : α → Bool} {slots slots' : Nat → α} {log : List α}

/-- The mark of position `k`: set on the first lap. -/
def lap (n k : Nat) : Bool := k / n % 2 == 0

/-- The ring holds the newest entries of the log, and nothing marked ahead of the first lap. -/
structure Holds (n : Nat) (mark : α → Bool) (slots : Nat → α) (log : List α) : Prop where
  marks : ∀ k x, log[k]? = some x → mark x = lap n k
  recent : ∀ k x, log[k]? = some x → log.length ≤ k + n → slots (k % n) = x
  blank : ∀ k < n, log.length ≤ k → mark (slots k) = false

theorem lap_of_lt (h : k < n) : lap n k = true := by
  rw [lap, Nat.div_eq_of_lt h]
  rfl

theorem lap_add (hn : 0 < n) (k : Nat) : lap n (k + n) = !lap n k := by
  rw [lap, lap, Nat.add_div_right k hn]
  rcases Nat.mod_two_eq_zero_or_one (k / n) with h | h
  · simp [Nat.add_mod, h]
  · simp [Nat.add_mod, h]

/-- The next position is in the next slot, or at the beginning of the next lap. -/
theorem next (hn : 0 < n) (k : Nat) :
    (k % n + 1 = n ∧ (k + 1) % n = 0 ∧ lap n (k + 1) = !lap n k) ∨
      (k % n + 1 < n ∧ (k + 1) % n = k % n + 1 ∧ lap n (k + 1) = lap n k) := by
  have hk := Nat.div_add_mod k n
  rcases Nat.lt_or_eq_of_le (Nat.mod_lt k hn) with hlt | heq
  · have hsame : (k + 1) / n = k / n :=
      Nat.div_eq_of_lt_le (by rw [Nat.mul_comm]; omega) (by rw [Nat.succ_mul, Nat.mul_comm]; omega)
    refine .inr ⟨hlt, ?_, by rw [lap, hsame, lap]⟩
    rw [← Nat.mod_add_mod, Nat.mod_eq_of_lt hlt]
  · have hlap : k + 1 = (k / n + 1) * n := by
      rw [Nat.succ_mul, Nat.mul_comm]
      omega
    refine .inl ⟨heq, by rw [hlap, Nat.mul_mod_left], ?_⟩
    rw [lap, hlap, Nat.mul_div_cancel _ hn, ← Nat.add_div_right k hn]
    exact lap_add hn k

/-- Positions less than a lap apart are in different slots. -/
theorem mod_ne_mod (h : k < c) (hc : c < k + n) : k % n ≠ c % n := by
  intro he
  have hdvd : n ∣ c - k := (Nat.modEq_iff_dvd' h.le).mp he
  have hle : n ≤ c - k := Nat.le_of_dvd (by omega) hdvd
  omega

namespace Holds

theorem nil (h : ∀ k < n, mark (slots k) = false) : Holds n mark slots [] :=
  ⟨nofun, nofun, fun k hk _ => h k hk⟩

/-- Slots beyond the ring do not matter. -/
theorem congr (hn : 0 < n) (h : Holds n mark slots log) (hs : ∀ k < n, slots' k = slots k) :
    Holds n mark slots' log where
  marks := h.marks
  recent k x hx hlen := by
    rw [hs _ (Nat.mod_lt k hn)]
    exact h.recent k x hx hlen
  blank k hk hlen := by
    rw [hs k hk]
    exact h.blank k hk hlen

theorem push (h : Holds n mark slots log) {x : α} (hx : mark x = lap n log.length) :
    Holds n mark (update slots (log.length % n) x) (log ++ [x]) := by
  have hentry : ∀ k y, (log ++ [x])[k]? = some y →
      (k < log.length ∧ log[k]? = some y) ∨ (k = log.length ∧ y = x) := by
    intro k y hy
    rcases Nat.lt_or_ge k log.length with hk | hk
    · rw [List.getElem?_append_left hk] at hy
      exact .inl ⟨hk, hy⟩
    · rw [List.getElem?_append_right hk, List.getElem?_singleton] at hy
      split at hy
      · exact .inr ⟨by omega, (Option.some.inj hy).symm⟩
      · cases hy
  refine ⟨fun k y hy => ?_, fun k y hy hlen => ?_, fun k hk hlen => ?_⟩
  · rcases hentry k y hy with ⟨-, hy⟩ | ⟨rfl, rfl⟩
    · exact h.marks k y hy
    · exact hx
  · rw [List.length_append, List.length_singleton] at hlen
    rcases hentry k y hy with ⟨hk, hy⟩ | ⟨rfl, rfl⟩
    · rw [update_of_ne (mod_ne_mod hk (by omega))]
      exact h.recent k y hy (by omega)
    · exact update_self ..
  · rw [List.length_append, List.length_singleton] at hlen
    rw [update_of_ne, h.blank k hk (by omega)]
    rw [Nat.mod_eq_of_lt (by omega)]
    omega

/-- At the end of the log the slot is stale. -/
theorem stale (hn : 0 < n) (h : Holds n mark slots log) :
    mark (slots (log.length % n)) = !lap n log.length := by
  rcases Nat.lt_or_ge log.length n with hlt | hge
  · rw [Nat.mod_eq_of_lt hlt, h.blank _ hlt (Nat.le_refl _), lap_of_lt hlt]
    rfl
  · obtain ⟨k, hk⟩ := Nat.exists_eq_add_of_le' hge
    have hget : log[k]? = some (log.get ⟨k, by omega⟩) := List.getElem?_eq_getElem _
    have hslot := h.recent k _ hget (by omega)
    rw [hk, Nat.add_mod_right, hslot, h.marks k _ hget, lap_add hn, Bool.not_not]

/-- What a reader finds at its position is the entry of the log, if there is one. -/
theorem read (hn : 0 < n) (h : Holds n mark slots log) (hc : c ≤ log.length)
    (hroom : log.length ≤ c + n) :
    (if mark (slots (c % n)) = lap n c then some (slots (c % n)) else none) = log[c]? := by
  rcases Nat.lt_or_eq_of_le hc with hlt | rfl
  · have hget := List.getElem?_eq_getElem hlt
    rw [h.recent c _ hget hroom, if_pos (h.marks c _ hget), hget]
  · rw [h.stale hn, if_neg (by simp), List.getElem?_eq_none (Nat.le_refl _)]

end Holds

end JcosKernel.Lib.CycleRing
