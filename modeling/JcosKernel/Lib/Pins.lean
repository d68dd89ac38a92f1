import JcosKernel.Lib.Slots
import Mathlib.Data.Finset.Card
import Mathlib.Data.Fintype.Basic

/-!
# JcosKernel.Lib.Pins

**Counting references.** Finitely many holders each name at most one object, and the objects
count them (`Counted`). A holder may start naming a
live object if the count goes up (`Counted.acquire`), stop if it goes down
(`Counted.release`), and the objects may come and go as `Lifecycle` says: born
unreferenced, gone only when unreferenced (`Counted.lifecycle`). `PoolStep` is the
lifecycle of objects that live in memory and are registered in an array of slots.
-/

namespace JcosKernel.Lib

open Function

variable {ι κ ω : Type*} [Fintype ι] [Fintype κ]

/-- The number of holders that name `o`. -/
def pins [DecidableEq ω] (names : ι → Option ω) (o : ω) : Nat :=
  (Finset.univ.filter fun h => names h = some o).card

/-- The number of holders that name something. -/
def held (names : ι → Option ω) : Nat := (Finset.univ.filter fun h => (names h).isSome = true).card

variable {names : ι → Option ω} {o o' : ω} {h : ι}

section Held

theorem held_eq_zero : held names = 0 ↔ ∀ h, names h = none := by
  rw [held, Finset.card_eq_zero]
  simp

variable [DecidableEq ι]

/-- A free holder starts to name an object. -/
theorem held_update_some (hn : names h = none) :
    held (update names h (some o)) = held names + 1 := by
  have hset : (Finset.univ.filter fun x => (update names h (some o) x).isSome = true) =
      insert h (Finset.univ.filter fun x => (names x).isSome = true) := by
    ext x
    by_cases hx : x = h
    · subst hx
      simp
    · simp [hx]
  rw [held, held, hset, Finset.card_insert_of_notMem (by simp [hn])]

/-- A holder stops naming its object. -/
theorem held_update_none (hn : names h = some o) :
    held (update names h none) + 1 = held names := by
  rw [← held_update_some (update_self h none names), update_idem, ← hn,
    update_eq_self]

end Held

section Pins

variable [DecidableEq ω]

theorem pins_eq_zero : pins names o = 0 ↔ ∀ h, names h ≠ some o := by
  rw [pins, Finset.card_eq_zero]
  simp

theorem pins_pos (hn : names h = some o) : 0 < pins names o :=
  Nat.pos_of_ne_zero fun h0 => pins_eq_zero.mp h0 h hn

/-- Some of the holders name an object at most as often as all of them. -/
theorem pins_comp_le {f : κ → ι} (hf : Injective f) :
    pins (fun j => names (f j)) o ≤ pins names o := by
  refine Finset.card_le_card_of_injOn f (fun j hj => ?_) hf.injOn
  simpa using hj

variable [DecidableEq ι]

/-- A free holder starts to name `o`. -/
theorem pins_update_some (hn : names h = none) :
    pins (update names h (some o)) o' = pins names o' + if o' = o then 1 else 0 := by
  split_ifs with he
  · subst he
    have hset : (Finset.univ.filter fun x => update names h (some o') x = some o') =
        insert h (Finset.univ.filter fun x => names x = some o') := by
      ext x
      simp [update_eq_some, or_and_left, em]
    rw [pins, pins, hset, Finset.card_insert_of_notMem (by simp [hn])]
  · rw [pins, Nat.add_zero]
    congr 1
    ext x
    simp only [Finset.mem_filter_univ, update_eq_some, Option.some.injEq, Ne.symm he, and_false,
      false_or, and_iff_right_iff_imp]
    rintro hx rfl
    cases hn.symm.trans hx

/-- A holder stops naming `o`. -/
theorem pins_update_none (hn : names h = some o) :
    pins (update names h none) o' + (if o' = o then 1 else 0) = pins names o' := by
  rw [← pins_update_some (update_self h none names), update_idem, ← hn,
    update_eq_self]

end Pins

/-! ### Exact counts -/

/-- Every live object counts its pins, and only live objects are pinned. -/
structure Counted [DecidableEq ω] (live : ω → Prop) (refs : ω → Nat) (names : ι → Option ω) :
    Prop where
  exact : ∀ o, live o → refs o = pins names o
  pinned_live : ∀ h o, names h = some o → live o

/-- What may happen to the objects while no holder changes. `tag` is what a holder may
have recorded about the object it names, if the object is fit to be named. -/
structure Lifecycle {τ : Type*} (live live' : ω → Prop) (refs refs' : ω → Nat)
    (tag tag' : ω → Option τ) : Prop where
  kept : ∀ o, live o → live' o → refs' o = refs o ∧ tag' o = tag o
  born : ∀ o, ¬ live o → live' o → refs' o = 0 ∧ (tag' o).isSome = true
  gone : ∀ o, live o → ¬ live' o → refs o = 0

/-- Objects of several kinds live as those of each kind do. -/
theorem Lifecycle.of_fibres {α τ : Type*} {live live' : α × ω → Prop} {refs refs' : α × ω → Nat}
    {tag tag' : α × ω → Option τ}
    (h : ∀ a, Lifecycle (live ⟨a, ·⟩) (live' ⟨a, ·⟩) (refs ⟨a, ·⟩) (refs' ⟨a, ·⟩) (tag ⟨a, ·⟩)
      (tag' ⟨a, ·⟩)) : Lifecycle live live' refs refs' tag tag' :=
  ⟨fun x => (h x.1).kept x.2, fun x => (h x.1).born x.2, fun x => (h x.1).gone x.2⟩

/-- Live objects stay fit to be named. -/
theorem Lifecycle.tagged {τ : Type*} {live live' : ω → Prop} {refs refs' : ω → Nat}
    {tag tag' : ω → Option τ} (hl : Lifecycle live live' refs refs' tag tag')
    (ht : ∀ o, live o → (tag o).isSome = true) (ho : live' o) : (tag' o).isSome = true := by
  by_cases hlive : live o
  · rw [(hl.kept o hlive ho).2]
    exact ht o hlive
  · exact (hl.born o hlive ho).2

namespace Counted

variable [DecidableEq ω] {live live' : ω → Prop} {refs refs' : ω → Nat}

variable (hc : Counted live refs names)
include hc

theorem acquire [DecidableEq ι] (hn : names h = none) (ho : live o) :
    Counted live (update refs o (refs o + 1))
      (update names h (some o)) := by
  constructor
  · intro x hx
    rw [pins_update_some hn, ← hc.exact x hx]
    by_cases he : x = o
    · subst he
      simp
    · simp [he]
  · intro j x hj
    rcases update_eq_some.mp hj with ⟨-, hx⟩ | ⟨-, hj⟩
    · exact Option.some.inj hx ▸ ho
    · exact hc.pinned_live j x hj

theorem release [DecidableEq ι] (hn : names h = some o) :
    Counted live (update refs o (refs o - 1)) (update names h none) := by
  constructor
  · intro x hx
    have hpins : _ = pins names x := pins_update_none hn
    rw [← hc.exact x hx] at hpins
    by_cases he : x = o
    · subst he
      simp only [if_true] at hpins
      rw [update_self, ← hpins, Nat.add_sub_cancel]
    · rw [update_of_ne he, ← hpins, if_neg he, Nat.add_zero]
  · intro j x hj
    rcases update_eq_some.mp hj with ⟨-, hx⟩ | ⟨-, hj⟩
    · cases hx
    · exact hc.pinned_live j x hj

/-- A pinned object has a count that is not zero. -/
theorem refs_ne_zero (hn : names h = some o) : refs o ≠ 0 := by
  rw [hc.exact o (hc.pinned_live h o hn)]
  exact (pins_pos hn).ne'

theorem lifecycle {τ : Type*} {tag tag' : ω → Option τ}
    (hl : Lifecycle live live' refs refs' tag tag') : Counted live' refs' names := by
  have hstay : ∀ h o, names h = some o → live' o := by
    intro h o hn
    by_contra hgone
    exact hc.refs_ne_zero hn (hl.gone o (hc.pinned_live h o hn) hgone)
  refine ⟨fun o ho => ?_, hstay⟩
  by_cases hlive : live o
  · rw [(hl.kept o hlive ho).1, hc.exact o hlive]
  · rw [(hl.born o hlive ho).1, eq_comm, pins_eq_zero]
    intro h hn
    exact hlive (hc.pinned_live h o hn)

end Counted

/-! ### Objects in memory with a registry -/

/-- A lifecycle step of a pool: `mem` holds the objects, `reg` the references of the
live ones; `refs` and `tag` read the count and the tag off an object. -/
structure PoolStep {α β τ : Type*} {n : Nat} (refs : β → Nat) (tag : β → Option τ)
    (reg : Slots α n) (mem : α → β) (reg' : Slots α n) (mem' : α → β) : Prop where
  nodup : reg'.Nodup
  lifecycle : Lifecycle reg.Live reg'.Live (fun a => refs (mem a)) (fun a => refs (mem' a))
    (fun a => tag (mem a)) (fun a => tag (mem' a))

namespace PoolStep

variable {α β τ : Type*} {n : Nat} {refs : β → Nat} {tag : β → Option τ} {reg : Slots α n}
  {mem mem' : α → β} {a : α} {x : β} {i : Fin n}

/-- Stores that keep the count and the tag of every live object. -/
theorem same (hr : reg.Nodup)
    (hm : ∀ a, reg.Live a → refs (mem' a) = refs (mem a) ∧ tag (mem' a) = tag (mem a)) :
    PoolStep refs tag reg mem reg mem' :=
  ⟨hr, fun a ha _ => hm a ha, fun _ hdead hlive => absurd hlive hdead,
    fun _ hlive hdead => absurd hlive hdead⟩

theorem refl (hr : reg.Nodup) : PoolStep refs tag reg mem reg mem :=
  same hr fun _ _ => ⟨rfl, rfl⟩

variable [DecidableEq α]

/-- A store to memory that holds no live object. -/
theorem scribble (hr : reg.Nodup) (ha : ¬ reg.Live a) :
    PoolStep refs tag reg mem reg (update mem a x) := by
  refine same hr fun b hb => ?_
  have hne : b ≠ a := by
    rintro rfl
    exact ha hb
  rw [update_of_ne hne]
  exact ⟨rfl, rfl⟩

/-- A new object is stored and registered in an empty slot. -/
theorem create (hr : reg.Nodup) (ha : ¬ reg.Live a) (hi : reg i = none) (hx : refs x = 0)
    (ht : (tag x).isSome = true) :
    PoolStep refs tag reg mem (reg.put i a) (update mem a x) := by
  refine ⟨Slots.nodup_put hr ha, fun b hb _ => ?_, fun b hdead hlive => ?_, fun b hlive hdead => ?_⟩
  · have hne : b ≠ a := by
      rintro rfl
      exact ha hb
    rw [update_of_ne hne]
    exact ⟨rfl, rfl⟩
  · rcases (Slots.live_put hi).mp hlive with rfl | hlive
    · rw [update_self]
      exact ⟨hx, ht⟩
    · exact absurd hlive hdead
  · exact absurd ((Slots.live_put hi).mpr (.inr hlive)) hdead

/-- An unreferenced object leaves the registry. -/
theorem destroy (hr : reg.Nodup) (hi : reg i = some a) (ha : refs (mem a) = 0) :
    PoolStep refs tag reg mem (reg.clear i) (update mem a x) := by
  refine ⟨Slots.nodup_clear hr, fun b _ hb => ?_, fun b hdead hlive => ?_, fun b hlive hdead => ?_⟩
  · rw [update_of_ne ((Slots.live_clear hr hi).mp hb).1]
    exact ⟨rfl, rfl⟩
  · exact absurd ((Slots.live_clear hr hi).mp hlive).2 hdead
  · by_cases hba : b = a
    · rw [hba]
      exact ha
    · exact absurd ((Slots.live_clear hr hi).mpr ⟨hba, hlive⟩) hdead

end PoolStep

end JcosKernel.Lib
