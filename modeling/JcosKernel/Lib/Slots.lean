import Mathlib.Data.Fin.Tuple.Basic
import Mathlib.Logic.Function.Basic

/-!
# JcosKernel.Lib.Slots

**Fixed arrays of object slots.** A registry of at most `n` live objects is an
array of `n` slots, each empty or holding one reference. Registering an object
fills the first empty slot; releasing it empties the slot that a left-to-right
search finds.

`Slots.Nodup` — no reference sits in two slots — is what makes membership and
release agree: emptying the slot that was found removes the object altogether.
-/

namespace JcosKernel.Lib

variable {α : Type*} {n : Nat}

/-- What a table with one new entry holds. -/
theorem update_eq_some {ι : Type*} [DecidableEq ι] {f : ι → Option α} {i j : ι} {x : Option α}
    {a : α} : Function.update f i x j = some a ↔ (j = i ∧ x = some a) ∨ (j ≠ i ∧ f j = some a) := by
  by_cases h : j = i
  · simp [h]
  · simp [h]

/-- An array of `n` slots; an empty slot is `none`. -/
abbrev Slots (α : Type*) (n : Nat) := Fin n → Option α

namespace Slots

/-- The array with every slot empty. -/
def empty : Slots α n := fun _ => none

/-- The reference `a` sits in some slot. -/
def Live (s : Slots α n) (a : α) : Prop := ∃ i, s i = some a

/-- No reference sits in two slots. -/
def Nodup (s : Slots α n) : Prop := ∀ i j a, s i = some a → s j = some a → i = j

/-- The first slot holding `a`. -/
def find [DecidableEq α] (s : Slots α n) (a : α) : Option (Fin n) :=
  Fin.find? fun i => s i = some a

/-- The first empty slot. -/
def firstEmpty (s : Slots α n) : Option (Fin n) :=
  Fin.find? fun i => (s i).isNone

/-- Store `a` in slot `i`. -/
def put (s : Slots α n) (i : Fin n) (a : α) : Slots α n := Function.update s i (some a)

/-- Empty slot `i`. -/
def clear (s : Slots α n) (i : Fin n) : Slots α n := Function.update s i none

section Find

variable [DecidableEq α] {s : Slots α n} {a b : α} {i : Fin n}

theorem get_of_find (h : s.find a = some i) : s i = some a := by
  have := (Fin.find?_eq_some_iff.mp h).1
  simpa using this

theorem find_isSome : (s.find a).isSome = true ↔ s.Live a := by
  rw [find]
  simp [Live]

theorem exists_find (h : s.Live a) : ∃ i, s.find a = some i :=
  Option.isSome_iff_exists.mp (find_isSome.mpr h)

instance (s : Slots α n) (a : α) : Decidable (s.Live a) :=
  decidable_of_iff _ find_isSome

end Find

variable {s : Slots α n} {i : Fin n} {a b : α}

theorem get_of_firstEmpty (h : s.firstEmpty = some i) : s i = none := by
  have := (Fin.find?_eq_some_iff.mp h).1
  simpa using this

theorem exists_firstEmpty (h : s i = none) : ∃ j, s.firstEmpty = some j :=
  Option.isSome_iff_exists.mp (Fin.isSome_find?_iff.mpr ⟨i, by simp [h]⟩)

@[simp] theorem not_live_empty (a : α) : ¬ (empty : Slots α n).Live a := by
  rintro ⟨i, hi⟩
  cases hi

theorem nodup_empty : (empty : Slots α n).Nodup := by
  intro i j a hi
  cases hi

theorem put_eq_some {j : Fin n} :
    s.put i a j = some b ↔ (j = i ∧ a = b) ∨ (j ≠ i ∧ s j = some b) :=
  update_eq_some.trans (by rw [Option.some.injEq])

theorem clear_eq_some {j : Fin n} : s.clear i j = some b ↔ j ≠ i ∧ s j = some b := by
  simp [clear, update_eq_some]

/-- Filling an empty slot makes exactly one more reference live. -/
theorem live_put (hi : s i = none) : (s.put i a).Live b ↔ b = a ∨ s.Live b := by
  constructor
  · rintro ⟨j, hj⟩
    rcases put_eq_some.mp hj with ⟨-, rfl⟩ | ⟨-, hj⟩
    · exact .inl rfl
    · exact .inr ⟨j, hj⟩
  · rintro (rfl | ⟨j, hj⟩)
    · exact ⟨i, by simp [put]⟩
    · refine ⟨j, put_eq_some.mpr (.inr ⟨?_, hj⟩)⟩
      rintro rfl
      cases hi.symm.trans hj

theorem nodup_put (hs : s.Nodup) (ha : ¬ s.Live a) : (s.put i a).Nodup := by
  intro j k b hj hk
  rcases put_eq_some.mp hj with ⟨hji, rfl⟩ | ⟨-, hj⟩ <;>
    rcases put_eq_some.mp hk with ⟨hki, hab⟩ | ⟨-, hk⟩
  · exact hji.trans hki.symm
  · exact absurd ⟨k, hk⟩ ha
  · exact absurd ⟨j, hab ▸ hj⟩ ha
  · exact hs j k b hj hk

/-- Emptying the slot of `a` releases `a` and nothing else. -/
theorem live_clear (hs : s.Nodup) (hi : s i = some a) : (s.clear i).Live b ↔ b ≠ a ∧ s.Live b := by
  constructor
  · rintro ⟨j, hj⟩
    obtain ⟨hji, hj⟩ := clear_eq_some.mp hj
    refine ⟨?_, j, hj⟩
    rintro rfl
    exact hji (hs j i b hj hi)
  · rintro ⟨hne, j, hj⟩
    refine ⟨j, clear_eq_some.mpr ⟨?_, hj⟩⟩
    rintro rfl
    exact hne (Option.some.inj (hj.symm.trans hi))

theorem nodup_clear (hs : s.Nodup) : (s.clear i).Nodup := fun j k b hj hk =>
  hs j k b (clear_eq_some.mp hj).2 (clear_eq_some.mp hk).2

end Slots

end JcosKernel.Lib
