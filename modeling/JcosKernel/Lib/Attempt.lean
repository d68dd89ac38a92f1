import Mathlib.Logic.Basic
import Mathlib.Control.Basic

/-!
# JcosKernel.Lib.Attempt

**Computations that may give up, and two of them side by side.** An `Attempt σ α` works on a
state and either returns a value or gives up; the state it leaves is kept in both cases.

* `Coupled pre c d post lost` relates two attempts: from states related by `pre` they return
  together, with values and states related by `post`, or give up together, in states related by
  `lost`. It is proved along the text of the two programs (`Coupled.bind` and the rules for a
  check that only one of them makes).
* `Ensures`, `Keeps`, `Frames` and `Fails` speak of one attempt.
-/

namespace JcosKernel.Lib

/-- A computation on a state that returns or gives up. -/
abbrev Attempt (σ : Type) := OptionT (StateM σ)

namespace Attempt

variable {σ τ α β γ δ : Type}

/-- Run the computation: what it returned, if it did, and the state it leaves. -/
def exec (c : Attempt σ α) (s : σ) : Option α × σ := Id.run (StateT.run (OptionT.run c) s)

/-- The computation given by a function on the state. -/
def step (f : σ → Option α × σ) : Attempt σ α := OptionT.mk fun s => pure (f s)

@[simp] theorem exec_step (f : σ → Option α × σ) (s : σ) : (step f).exec s = f s := rfl

variable {c : Attempt σ α} {k : α → Attempt σ β} {post : α → σ → Prop} {P mid : σ → Prop} {p : Prop}

theorem exec_bind (s : σ) : (c >>= k).exec s =
    match c.exec s with
    | (some a, s') => (k a).exec s'
    | (none, s') => (none, s') := by
  change Id.run (StateT.run (OptionT.run (c >>= k)) s) = _
  rw [OptionT.run_bind]
  rcases h : StateT.run (OptionT.run c) s with ⟨_ | a, s'⟩
  all_goals
    have h' : c.exec s = _ := h
    simp only [Option.elimM, StateT.run_bind, h, h']
    rfl

theorem exec_bind_some {s s' : σ} {a : α} (h : c.exec s = (some a, s')) :
    (c >>= k).exec s = (k a).exec s' := by
  rw [exec_bind, h]

theorem exec_bind_none {s s' : σ} (h : c.exec s = (none, s')) : (c >>= k).exec s = (none, s') := by
  rw [exec_bind, h]

theorem exec_guard_pos [Decidable p] (h : p) (s : σ) :
    exec (guard p : Attempt σ Unit) s = (some (), s) := by
  simp only [guard, if_pos h]
  rfl

theorem exec_guard_neg [Decidable p] (h : ¬ p) (s : σ) :
    exec (guard p : Attempt σ Unit) s = (none, s) := by
  simp only [guard, if_neg h]
  rfl

/-! ## Reading, writing and recovering -/

/-- Look at the state. -/
def look (f : σ → α) : Attempt σ α := step fun s => (some (f s), s)

/-- Change the state. -/
def update (f : σ → σ) : Attempt σ Unit := step fun s => (some (), f s)

/-- Run `c` and go on, whatever it came to. -/
def attempt (c : Attempt σ α) : Attempt σ (Option α) := step fun s =>
  ((some (c.exec s).1), (c.exec s).2)

/-- Run `c`; if it gives up, run `d` from where it stopped. -/
def otherwise (c d : Attempt σ α) : Attempt σ α := step fun s =>
  match c.exec s with
  | (some a, s') => (some a, s')
  | (none, s') => d.exec s'

@[simp] theorem exec_look (f : σ → α) (s : σ) : (look f).exec s = (some (f s), s) := rfl

@[simp] theorem exec_update (f : σ → σ) (s : σ) : (update f).exec s = (some (), f s) := rfl

@[simp] theorem exec_attempt (c : Attempt σ α) (s : σ) :
    (attempt c).exec s = (some (c.exec s).1, (c.exec s).2) := rfl

/-! ## What holds afterwards -/

/-- What is asked of an outcome: `post` of a value and the state, `lost` of the state alone. -/
def Outcome (post : α → σ → Prop) (lost : σ → Prop) : Option α × σ → Prop
  | (some a, s) => post a s
  | (none, s) => lost s

section Outcome

variable {r : Option α × σ} {lost : σ → Prop}

theorem outcome_same : Outcome (fun _ => P) P r ↔ P r.2 := by
  rcases r with ⟨_ | a, s⟩ <;> exact Iff.rfl

theorem Outcome.imp {post' : α → σ → Prop} {lost' : σ → Prop} (h : Outcome post lost r)
    (hp : ∀ a s, post a s → post' a s) (hl : ∀ s, lost s → lost' s) : Outcome post' lost' r := by
  rcases r with ⟨_ | a, s⟩
  · exact hl s h
  · exact hp a s h

end Outcome

/-- From a state in `pre` the computation returns in `post` or gives up in `lost`. -/
def Ensures (pre : σ → Prop) (c : Attempt σ α) (post : α → σ → Prop) (lost : σ → Prop) : Prop :=
  ∀ s, pre s → Outcome post lost (c.exec s)

/-- The same of one part of the state; giving up may say more. -/
abbrev EnsuresOn (f : σ → τ) (pre : τ → Prop) (c : Attempt σ α) (post : τ → Prop)
    (lost : σ → Prop) : Prop :=
  Ensures (fun s => pre (f s)) c (fun _ s => post (f s)) lost

section Ensures

variable {pre lost : σ → Prop}

theorem Ensures.pure {a : α} (h : ∀ s, pre s → post a s) :
    Ensures pre (pure a) post lost := h

theorem Ensures.bind {mid : α → σ → Prop} {post : β → σ → Prop} (hc : Ensures pre c mid lost)
    (hk : ∀ a, Ensures (mid a) (k a) post lost) : Ensures pre (c >>= k) post lost := by
  intro s hs
  have hm := hc s hs
  rcases he : c.exec s with ⟨_ | a, s'⟩
  · rw [he] at hm
    rw [exec_bind_none he]
    exact hm
  · rw [he] at hm
    rw [exec_bind_some he]
    exact hk a s' hm

/-- Go on with what was seen. -/
theorem Ensures.look_bind {f : σ → α} {post : β → σ → Prop}
    (h : ∀ a, Ensures (fun s => f s = a ∧ pre s) (k a) post lost) :
    Ensures pre (Attempt.look f >>= k) post lost :=
  have hl : Ensures pre (Attempt.look f) (fun a s => f s = a ∧ pre s) lost :=
    fun _ hs => ⟨rfl, hs⟩
  hl.bind h

/-- What was seen may not matter for what follows. -/
theorem Ensures.look_any {f : σ → α} {post : β → σ → Prop} (h : ∀ a, Ensures pre (k a) post lost) :
    Ensures pre (Attempt.look f >>= k) post lost :=
  .look_bind fun a s hs => h a s hs.2

/-- Go on after a check; giving up there is as good as the state before. -/
theorem Ensures.guard_bind [Decidable p] {k : Unit → Attempt σ β} {post : β → σ → Prop}
    (h : ∀ s, pre s → lost s) (hk : p → Ensures pre (k ()) post lost) :
    Ensures pre (guard p >>= k) post lost := by
  intro s hs
  by_cases hp : p
  · rw [exec_bind_some (exec_guard_pos hp s)]
    exact hk hp s hs
  · rw [exec_bind_none (exec_guard_neg hp s)]
    exact h s hs

/-- A check: afterwards it holds, and giving up there is as good as the state before. -/
theorem Ensures.guard [Decidable p] (h : ∀ s, pre s → lost s) :
    Ensures pre (guard p : Attempt σ Unit) (fun _ s => p ∧ pre s) lost := by
  intro s hs
  by_cases hp : p
  · rw [exec_guard_pos hp]
    exact ⟨hp, hs⟩
  · rw [exec_guard_neg hp]
    exact h s hs

/-- Go on from the new state. -/
theorem Ensures.update_bind {g : σ → σ} {k : Unit → Attempt σ β} {post : β → σ → Prop}
    (next : σ → Prop) (h : ∀ s, pre s → next (g s)) (hk : Ensures next (k ()) post lost) :
    Ensures pre (Attempt.update g >>= k) post lost :=
  have hu : Ensures pre (Attempt.update g) (fun _ => next) lost := h
  hu.bind fun _ => hk

theorem Ensures.of_pre {pre' : σ → Prop} (hc : Ensures pre c post lost)
    (h : ∀ s, pre' s → pre s) : Ensures pre' c post lost := fun s hs => hc s (h s hs)

theorem Ensures.to_post {post' : α → σ → Prop} (hc : Ensures pre c post lost)
    (h : ∀ a s, post a s → post' a s) : Ensures pre c post' lost :=
  fun s hs => (hc s hs).imp h fun _ => id

/-- Where the first gives up, the second takes over. -/
theorem Ensures.otherwise {c d : Attempt σ α} (hc : Ensures pre c post mid)
    (hd : Ensures mid d post lost) :
    Ensures pre (c.otherwise d) post lost := by
  intro s hs
  have hm := hc s hs
  change Outcome post lost (match c.exec s with
    | (some a, s') => (some a, s')
    | (none, s') => d.exec s')
  rcases he : c.exec s with ⟨_ | a, s'⟩
  · rw [he] at hm
    exact hd s' hm
  · rw [he] at hm
    exact hm

/-- Trying hands both outcomes on. -/
theorem Ensures.attempt (hc : Ensures pre c post mid) :
    Ensures pre (attempt c) (fun o s => Outcome post mid (o, s)) lost := hc

end Ensures

/-! ## Properties that every step keeps -/

/-- The states in `P` are not left, whether the computation returns or gives up. -/
def Keeps (P : σ → Prop) (c : Attempt σ α) : Prop := ∀ s, P s → P (c.exec s).2

section Keeps

variable {pre lost : σ → Prop}

/-- What is kept holds after either outcome. -/
theorem Ensures.of_keeps (hc : Keeps pre c) (h : ∀ s, pre s → lost s) :
    Ensures pre c (fun _ => pre) lost :=
  fun s hs => (outcome_same.mpr (hc s hs)).imp (fun _ _ => id) h

/-- What holds after either outcome is kept. -/
theorem Ensures.keeps (hc : Ensures pre c (fun _ => pre) pre) : Keeps pre c :=
  fun s hs => outcome_same.mp (hc s hs)

/-- Trying never gives up, so what is kept is all there is to say. -/
theorem Ensures.attempt_keeps (hc : Keeps pre c) :
    Ensures pre (Attempt.attempt c) (fun _ => pre) lost := hc

theorem Keeps.pure (a : α) : Keeps P (pure a : Attempt σ α) := fun _ h => h

theorem Keeps.failure : Keeps P (failure : Attempt σ α) := fun _ h => h

theorem Keeps.guard (p : Prop) [Decidable p] : Keeps P (guard p : Attempt σ Unit) :=
  ((Ensures.guard fun _ => id).to_post fun _ _ h => h.2).keeps

theorem Keeps.bind (hc : Keeps P c) (hk : ∀ a, Keeps P (k a)) : Keeps P (c >>= k) :=
  (Ensures.bind (.of_keeps hc fun _ => id) fun a => .of_keeps (hk a) fun _ => id).keeps

end Keeps

/-! ## What a computation leaves alone -/

/-- The part `f` of the state is the same afterwards, whether the computation returns or gives
up. -/
def Frames (f : σ → τ) (c : Attempt σ α) : Prop := ∀ s, f (c.exec s).2 = f s

section Frames

variable {f : σ → τ} {lost : σ → Prop}

/-- What is said about the part alone is kept. -/
theorem Frames.keeps (hc : Frames f c) (P : τ → Prop) : Keeps (fun s => P (f s)) c := by
  intro s h
  rw [hc s]
  exact h

theorem Frames.of_keeps (h : ∀ t, Keeps (fun s => f s = t) c) : Frames f c := fun s => h (f s) s rfl

theorem Frames.pure (a : α) : Frames f (pure a : Attempt σ α) := fun _ => rfl

theorem Frames.failure : Frames f (failure : Attempt σ α) := fun _ => rfl

theorem Frames.look (g : σ → α) : Frames f (look g) := fun _ => rfl

theorem Frames.update {g : σ → σ} (hg : ∀ s, f (g s) = f s) : Frames f (update g) := hg

theorem Frames.guard (p : Prop) [Decidable p] : Frames f (guard p : Attempt σ Unit) :=
  .of_keeps fun _ => .guard p

theorem Frames.bind (hc : Frames f c) (hk : ∀ a, Frames f (k a)) : Frames f (c >>= k) :=
  .of_keeps fun t => (hc.keeps (· = t)).bind fun a => (hk a).keeps (· = t)

/-- What is said about a part that is left alone holds after either outcome. -/
theorem Frames.ensures {f : σ → τ} (hc : Frames f c) (P : τ → Prop) (h : ∀ s, P (f s) → lost s) :
    Ensures (fun s => P (f s)) c (fun _ s => P (f s)) lost :=
  .of_keeps (hc.keeps P) h

end Frames

/-! ## Computations that always give up -/

/-- From every state the computation gives up. -/
def Fails (c : Attempt σ α) : Prop := ∀ s, (c.exec s).1 = none

theorem Fails.bind (hk : ∀ a, Fails (k a)) : Fails (c >>= k) := by
  intro s
  rcases he : c.exec s with ⟨_ | a, s'⟩
  · rw [exec_bind_none he]
  · rw [exec_bind_some he]
    exact hk a s'

theorem Fails.guard [Decidable p] {k : Unit → Attempt σ β} (hp : ¬ p) : Fails (guard p >>= k) := by
  intro s
  rw [exec_bind_none (exec_guard_neg hp s)]

/-! ## Two computations side by side -/

/-- Two outcomes of the same kind: both returned, or both gave up. -/
inductive Matched (post : α → β → σ → τ → Prop) (lost : σ → τ → Prop) :
    Option α × σ → Option β × τ → Prop
  | returned {a : α} {b : β} {s : σ} {t : τ} (h : post a b s t) :
      Matched post lost (some a, s) (some b, t)
  | gaveUp {s : σ} {t : τ} (h : lost s t) : Matched post lost (none, s) (none, t)

/-- From states related by `pre` the two computations have matched outcomes. -/
def Coupled (pre : σ → τ → Prop) (c : Attempt σ α) (d : Attempt τ β)
    (post : α → β → σ → τ → Prop) (lost : σ → τ → Prop) : Prop :=
  ∀ s t, pre s t → Matched post lost (c.exec s) (d.exec t)

variable {pre pre' : σ → τ → Prop} {lost : σ → τ → Prop}

/-- Both sides give up in their first part. -/
theorem Matched.bind_none {post : γ → δ → σ → τ → Prop} {d : Attempt τ β} {k : α → Attempt σ γ}
    {l : β → Attempt τ δ} {s s' : σ} {t t' : τ} (hc : c.exec s = (none, s'))
    (hd : d.exec t = (none, t')) (h : lost s' t') :
    Matched post lost ((c >>= k).exec s) ((d >>= l).exec t) := by
  rw [exec_bind_none hc, exec_bind_none hd]
  exact .gaveUp h

theorem Coupled.failure {post : α → β → σ → τ → Prop} (h : ∀ s t, pre s t → lost s t) :
    Coupled pre (failure : Attempt σ α) (failure : Attempt τ β) post lost :=
  fun s t hp => .gaveUp (h s t hp)

/-- Both sides start with the same computation, from the same state. -/
theorem Coupled.bind_same {post : γ → δ → σ → σ → Prop} {lost : σ → σ → Prop} {k : α → Attempt σ γ}
    {l : α → Attempt σ δ} (hlost : ∀ s, lost s s) (hk : ∀ a, Coupled Eq (k a) (l a) post lost) :
    Coupled Eq (c >>= k) (c >>= l) post lost := by
  intro s t hst
  subst hst
  rcases hc : c.exec s with ⟨_ | a, s'⟩
  · exact .bind_none hc hc (hlost s')
  · rw [exec_bind_some hc, exec_bind_some hc]
    exact hk a s' s' rfl

/-- A check that the relation before makes true does nothing. -/
theorem Coupled.guard_left {post : γ → δ → σ → τ → Prop} [Decidable p] {k : Unit → Attempt σ γ}
    {d : Attempt τ δ} (hp : ∀ s t, pre s t → p) (h : Coupled pre (k ()) d post lost) :
    Coupled pre (guard p >>= k) d post lost := by
  intro s t hs
  rw [exec_bind_some (exec_guard_pos (hp s t hs) s)]
  exact h s t hs

/-- The same check on both sides. -/
theorem Coupled.guard {post : γ → δ → σ → τ → Prop} {p q : Prop} [Decidable p] [Decidable q]
    {k : Unit → Attempt σ γ} {l : Unit → Attempt τ δ} (hpq : p ↔ q)
    (hlost : ∀ s t, pre s t → lost s t)
    (h : p → Coupled pre (k ()) (l ()) post lost) :
    Coupled pre (guard p >>= k) (guard q >>= l) post lost := by
  intro s t hs
  by_cases hp : p
  · rw [exec_bind_some (exec_guard_pos hp s), exec_bind_some (exec_guard_pos (hpq.mp hp) t)]
    exact h hp s t hs
  · exact .bind_none (exec_guard_neg hp s) (exec_guard_neg (fun hq => hp (hpq.mpr hq)) t) (hlost s t hs)

end Attempt

end JcosKernel.Lib
