import JcosKernel.Lib.Run
import JcosKernel.Thread.Wait

/-!
# JcosKernel.Thread.WaitHistory

**The first terminal event of a wait wins**, over whole runs.

A run is any sequence of the five wait operations, with arbitrary arguments, on
any threads, interleaved with arbitrary steps of the rest of the kernel
(`Elsewhere`: scheduling, thread creation and destruction), which never write the
wait fields of a live thread. IPC peers, the timer, a close, a forced termination and
the exit queue all complete waits by these operations.

Two facts carry everything. `WaitInv` ties the identities in use to the boot-wide
counter; `WaitAdvance` says what can become of an identity between two states of a run.
-/

namespace JcosKernel

open Lib

/-- The operations on waits, with their arguments. -/
inductive WaitOp
  | begin (t : ThreadRef) (kind : ThreadWaitKind) (object : WaitObject)
  | tryComplete (t : ThreadRef) (kind : ThreadWaitKind) (object : WaitObject) (waitId : Nat)
      (result : ThreadWaitResult)
  | cancel (t : ThreadRef) (kind : ThreadWaitKind) (object : WaitObject)
  | endWait (t : ThreadRef) (kind : ThreadWaitKind) (object : WaitObject)
  | abort (t : ThreadRef) (kind : ThreadWaitKind) (object : WaitObject)
  deriving Repr, DecidableEq

namespace WaitOp

/-- The thread argument. -/
def thread : WaitOp → ThreadRef
  | begin t _ _ | tryComplete t _ _ _ _ | cancel t _ _ | endWait t _ _ | abort t _ _ => t

/-- The call itself: what it returns and the state it leaves. -/
def apply (s : ThreadState) : WaitOp → Bool × ThreadState
  | begin t kind object => s.threadWaitBegin t kind object
  | tryComplete t kind object waitId result => s.threadWaitTryComplete t kind object waitId result
  | cancel t kind object => s.threadWaitCancel t kind object
  | endWait t kind object => s.threadWaitEnd t kind object
  | abort t kind object => s.threadWaitAbort t kind object

end WaitOp

/-- A step of the rest of the kernel. Live threads keep their wait fields, and a
thread that becomes live has been zeroed by `thread_create`; everything else
about the threads may change. -/
structure Elsewhere (s s' : ThreadState) : Prop where
  nextWaitId : s'.nextWaitId = s.nextWaitId
  kept : ∀ t, s.threadStorageLive t → s'.threadStorageLive t →
    (s'.thread t).wait = (s.thread t).wait
  created : ∀ t, ¬ s.threadStorageLive t → s'.threadStorageLive t → (s'.thread t).wait = .clear

/-- What a step was: a call, with what it returned and the `wait_id` its thread
holds afterwards, or a step of the rest of the kernel. -/
inductive WaitEvent
  | called (op : WaitOp) (returned : Bool) (waitId : Nat)
  | elsewhere
  deriving Repr, DecidableEq

inductive WaitStep : ThreadState → WaitEvent → ThreadState → Prop
  | call (s : ThreadState) (op : WaitOp) :
      WaitStep s (.called op (op.apply s).1 (((op.apply s).2.thread op.thread).waitId))
        (op.apply s).2
  | elsewhere {s s' : ThreadState} : Elsewhere s s' → WaitStep s .elsewhere s'

/-- The identity a step gave to a new wait. -/
def WaitEvent.begun : WaitEvent → Option Nat
  | called (.begin _ _ _) true w => some w
  | _ => none

/-- The identities of all waits begun in a run, in order. -/
def begunIds (es : List WaitEvent) : List Nat := es.filterMap WaitEvent.begun

/-- The wait counter has its initial value and no thread is waiting. -/
structure WaitBoot (s : ThreadState) : Prop where
  nextWaitId : s.nextWaitId = 1
  clear : ∀ t, s.threadStorageLive t → (s.thread t).wait = .clear

/-- `w` has been handed out. An exhausted counter reads zero. -/
def Issued (s : ThreadState) (w : Nat) : Prop :=
  w ≠ 0 ∧ w < 2 ^ 64 ∧ (s.nextWaitId = 0 ∨ w < s.nextWaitId)

/-- A wait in progress under an issued identity: pending, or with its terminal
result. -/
structure Wait.InProgress (s : ThreadState) (w : Wait) : Prop where
  kind : w.kind.Valid
  object : w.object ≠ none
  issued : Issued s w.id
  result : w.result = .pending ∨ w.result.Terminal

structure WaitInv (s : ThreadState) : Prop where
  next_lt : s.nextWaitId < 2 ^ 64
  shape : ∀ t, s.threadStorageLive t →
    (s.thread t).wait = .clear ∨ (s.thread t).wait.InProgress s
  unique : ∀ t t', s.threadStorageLive t → s.threadStorageLive t' →
    (s.thread t).waitId ≠ 0 → (s.thread t').waitId = (s.thread t).waitId → t' = t

/-- How the waits of a later state of a run relate to those of an earlier one. -/
structure WaitAdvance (s s' : ThreadState) : Prop where
  issued : ∀ w, Issued s w → Issued s' w
  held : ∀ t, s'.threadStorageLive t → Issued s (s'.thread t).waitId →
    s.threadStorageLive t ∧ (s.thread t).waitId = (s'.thread t).waitId ∧
      (s.thread t).waitKind = (s'.thread t).waitKind ∧
      (s.thread t).waitObject = (s'.thread t).waitObject ∧
      ((s.thread t).waitResult = .pending ∨
        (s'.thread t).waitResult = (s.thread t).waitResult)

theorem WaitAdvance.refl (s : ThreadState) : WaitAdvance s s :=
  ⟨fun _ h => h, fun _ hl _ => ⟨hl, rfl, rfl, rfl, .inr rfl⟩⟩

theorem WaitAdvance.trans (a b c : ThreadState) (h : WaitAdvance a b) (g : WaitAdvance b c) :
    WaitAdvance a c := by
  refine ⟨fun w hw => g.issued w (h.issued w hw), fun t hl hi => ?_⟩
  obtain ⟨hlb, hid, hk, ho, hr⟩ := g.held t hl (h.issued _ hi)
  obtain ⟨hla, hid', hk', ho', hr'⟩ := h.held t hlb (hid ▸ hi)
  refine ⟨hla, hid'.trans hid, hk'.trans hk, ho'.trans ho, ?_⟩
  rcases hr' with hr' | hr'
  · exact .inl hr'
  · rw [← hr']
    exact hr

/-! ### What one step keeps -/

variable {s s' : ThreadState} {es : List WaitEvent} {e : WaitEvent}

section Step

variable {t : ThreadRef}

theorem WaitInv.result_ne_none (h : WaitInv s) (hl : s.threadStorageLive t)
    (hid : (s.thread t).waitId ≠ 0) : (s.thread t).waitResult ≠ .none := by
  rcases h.shape t hl with hc | hp
  · exact absurd (congrArg Wait.id hc) hid
  · intro hr
    rcases hp.result with h | h
    · simp [hr] at h
    · simp [hr] at h

/-- Beginning a wait hands out the next identity, which nobody holds. -/
theorem not_issued_nextWaitId (hn : s.nextWaitId ≠ 0) : ¬ Issued s s.nextWaitId := by
  rintro ⟨-, -, h | h⟩
  · exact hn h
  · exact lt_irrefl _ h

theorem issued_succ (hlt : s.nextWaitId < 2 ^ 64) (hn : s.nextWaitId ≠ 0)
    (hs' : s'.nextWaitId = succ64 s.nextWaitId) {w : Nat} (hw : Issued s w ∨ w = s.nextWaitId) :
    Issued s' w := by
  have hlt' : w ≤ s.nextWaitId ∧ w ≠ 0 := by
    rcases hw with ⟨h0, -, h | h⟩ | rfl
    · exact absurd h hn
    · exact ⟨h.le, h0⟩
    · exact ⟨le_rfl, hn⟩
  refine ⟨hlt'.2, by omega, ?_⟩
  rw [hs', succ64]
  by_cases hmax : s.nextWaitId + 1 = 2 ^ 64
  · exact .inl (by rw [hmax, Nat.mod_self])
  · exact .inr (by omega)

section

variable (h : WaitInv s)
include h

/-- Rewriting the wait of one thread keeps the invariant, provided the new wait is
clear or in progress under an identity no other thread holds; for the relation
between the states it is enough to look at the rewritten thread. -/
theorem waitStep_rewrite {g : Thread → Thread} {n : Nat}
    (hs' : s' = { s.modify t g with nextWaitId := n }) (hnext : n < 2 ^ 64)
    (hiss : ∀ w, Issued s w → Issued s' w)
    (hnew : (g (s.thread t)).wait = .clear ∨ ((g (s.thread t)).wait.InProgress s' ∧
      ∀ u, u ≠ t → s.threadStorageLive u → (s.thread u).waitId ≠ (g (s.thread t)).waitId))
    (hheld : Issued s (g (s.thread t)).waitId → (s.thread t).waitId = (g (s.thread t)).waitId ∧
      (s.thread t).waitKind = (g (s.thread t)).waitKind ∧
      (s.thread t).waitObject = (g (s.thread t)).waitObject ∧
      (s.thread t).waitResult = .pending) :
    WaitInv s' ∧ WaitAdvance s s' := by
  have hst : ∀ u, s'.threadStorageLive u ↔ s.threadStorageLive u := fun u => by rw [hs']; rfl
  have hself : s'.thread t = g (s.thread t) := by subst hs'; simp
  have hth : ∀ u, u ≠ t → s'.thread u = s.thread u := by
    intro u hu
    subst hs'
    simp [hu]
  rw [← hself] at hnew hheld
  refine ⟨⟨by rw [hs']; exact hnext, fun u hu => ?_, fun u v hu hv hid heq => ?_⟩, hiss,
    fun u hu hi => ?_⟩
  · by_cases hut : u = t
    · subst hut
      exact hnew.imp_right And.left
    · rw [hth u hut]
      refine (h.shape u ((hst u).mp hu)).imp_right fun hp => ?_
      exact ⟨hp.kind, hp.object, hiss _ hp.issued, hp.result⟩
  · -- two holders of one identity: either both kept theirs, or one of them is `t`
    by_cases hut : u = t <;> by_cases hvt : v = t
    · rw [hut, hvt]
    · subst hut
      rw [hth v hvt] at heq
      rcases hnew with hc | ⟨-, hfresh⟩
      · exact absurd (congrArg Wait.id hc) hid
      · exact absurd heq (hfresh v hvt ((hst v).mp hv))
    · subst hvt
      rw [hth u hut] at heq hid
      rcases hnew with hc | ⟨-, hfresh⟩
      · exact absurd (heq.symm.trans (congrArg Wait.id hc)) hid
      · exact absurd heq.symm (hfresh u hut ((hst u).mp hu))
    · rw [hth u hut] at hid heq
      rw [hth v hvt] at heq
      exact h.unique u v ((hst u).mp hu) ((hst v).mp hv) hid heq
  · by_cases hut : u = t
    · subst hut
      obtain ⟨h1, h2, h3, h4⟩ := hheld hi
      exact ⟨(hst u).mp hu, h1, h2, h3, .inl h4⟩
    · rw [hth u hut]
      exact ⟨(hst u).mp hu, rfl, rfl, rfl, .inr rfl⟩

theorem waitStep_begin {kind : ThreadWaitKind} {object : WaitObject} (hk : kind.Valid)
    (hn : s.nextWaitId ≠ 0)
    (hs' : s' = { s.modify t (·.setWait (.begun kind object s.nextWaitId)) with
      nextWaitId := succ64 s.nextWaitId }) :
    WaitInv s' ∧ WaitAdvance s s' := by
  have hnext : s'.nextWaitId = succ64 s.nextWaitId := by rw [hs']
  refine waitStep_rewrite h hs' (Nat.mod_lt _ (Nat.two_pow_pos 64))
    (fun w hw => issued_succ h.next_lt hn hnext (.inl hw)) (.inr ⟨?_, fun u _ hl heq => ?_⟩)
    fun hi => absurd hi (not_issued_nextWaitId hn)
  · exact ⟨hk, by simp [Wait.begun], issued_succ h.next_lt hn hnext (.inr rfl), .inl rfl⟩
  · have hid : (s.thread u).waitId = s.nextWaitId := heq
    rcases h.shape u hl with hc | hp
    · exact hn (hid ▸ congrArg Wait.id hc)
    · exact not_issued_nextWaitId hn (hid ▸ hp.issued)

theorem waitStep_complete {result : ThreadWaitResult} (hl : s.threadStorageLive t)
    (hid : (s.thread t).waitId ≠ 0) (hr : result.Terminal) (hp : (s.thread t).waitResult = .pending)
    (hs' : s' = s.modify t (·.setWaitResult result)) :
    WaitInv s' ∧ WaitAdvance s s' := by
  have hiss : ∀ w, Issued s w → Issued s' w := fun w hw => by subst hs'; exact hw
  have hprog : (s.thread t).wait.InProgress s :=
    (h.shape t hl).resolve_left fun hc => hid (congrArg Wait.id hc)
  refine waitStep_rewrite (g := (·.setWaitResult result)) h hs' h.next_lt hiss
    (.inr ⟨?_, fun u hu hlu heq => hu ?_⟩)
    fun _ => ⟨rfl, rfl, rfl, hp⟩
  · exact ⟨hprog.kind, hprog.object, hiss _ hprog.issued, .inr hr⟩
  · exact h.unique t u hl hlu hid heq

theorem waitStep_clear (hs' : s' = s.modify t (·.setWait .clear)) :
    WaitInv s' ∧ WaitAdvance s s' :=
  waitStep_rewrite (g := (·.setWait .clear)) h hs' h.next_lt
    (fun w hw => by subst hs'; exact hw) (.inl rfl) fun hi => absurd rfl hi.1

/-- Every call either changes nothing or is one of the three rewrites. -/
theorem waitStep_call (op : WaitOp) : WaitInv (op.apply s).2 ∧ WaitAdvance s (op.apply s).2 := by
  have hrefused : ∀ {s'}, s' = s → WaitInv s' ∧ WaitAdvance s s' := by
    rintro s' rfl
    exact ⟨h, .refl _⟩
  cases op with
  | begin t kind object =>
    rcases ThreadState.threadWaitBegin_cases (Prod.eta _).symm with ⟨-, hs⟩ | hs
    · exact hrefused hs
    · obtain ⟨-, -, -, -, -, hk, hn, -, -, -, hs⟩ := hs
      exact waitStep_begin h hk hn hs
  | tryComplete t kind object waitId result =>
    rcases ThreadState.threadWaitTryComplete_cases (Prod.eta _).symm with ⟨-, hs⟩ | hs
    · exact hrefused hs
    · obtain ⟨-, hr, ⟨-, hm, -⟩, hp, -, hs⟩ := hs
      exact waitStep_complete h hm.2.1 hm.2.2.2.2.1 hr hp hs
  | cancel t kind object =>
    rcases ThreadState.threadWaitCancel_cases (Prod.eta _).symm with ⟨-, hs⟩ | hs
    · exact hrefused hs
    · obtain ⟨-, hm, hp, hs⟩ := hs
      exact waitStep_complete h hm.2.1 hm.2.2.2.2.1 (by decide) hp hs
  | endWait t kind object =>
    rcases ThreadState.threadWaitEnd_cases (Prod.eta _).symm with ⟨-, hs⟩ | hs
    · exact hrefused hs
    · exact waitStep_clear h hs.2.2.2.2.2
  | abort t kind object =>
    by_cases hm : s.ThreadWaitMatches t kind object
    · rcases ThreadState.threadWaitAbort_cases (Prod.eta _).symm
        (h.result_ne_none hm.2.1 hm.2.2.2.2.1) with ⟨-, hs⟩ | hs
      · exact hrefused hs
      · exact waitStep_clear h hs.2.2.2.2
    · refine hrefused ?_
      simp only [WaitOp.apply, ThreadState.threadWaitAbort, hm, not_false_eq_true, or_true,
        if_true]

theorem waitStep_elsewhere (he : Elsewhere s s') : WaitInv s' ∧ WaitAdvance s s' := by
  have hiss : ∀ w, Issued s w ↔ Issued s' w := fun w => by
    unfold Issued
    rw [he.nextWaitId]
  -- a live thread of `s'` with an identity was live in `s` and kept its wait
  have hback : ∀ t, s'.threadStorageLive t → (s'.thread t).waitId ≠ 0 →
      s.threadStorageLive t ∧ (s'.thread t).wait = (s.thread t).wait := by
    intro t hl hid
    by_cases hl0 : s.threadStorageLive t
    · exact ⟨hl0, he.kept t hl0 hl⟩
    · exact absurd (congrArg Wait.id (he.created t hl0 hl)) hid
  refine ⟨⟨he.nextWaitId ▸ h.next_lt, fun t hl => ?_, fun t u hl hlu hid heq => ?_⟩,
    fun w => (hiss w).mp, fun t hl hi => ?_⟩
  · by_cases hl0 : s.threadStorageLive t
    · rw [he.kept t hl0 hl]
      refine (h.shape t hl0).imp_right fun hp => ?_
      exact ⟨hp.kind, hp.object, (hiss _).mp hp.issued, hp.result⟩
    · exact .inl (he.created t hl0 hl)
  · obtain ⟨hlt, ht⟩ := hback t hl hid
    obtain ⟨hlu0, hu⟩ := hback u hlu (heq ▸ hid)
    have ht' : (s'.thread t).waitId = (s.thread t).waitId := congrArg Wait.id ht
    have hu' : (s'.thread u).waitId = (s.thread u).waitId := congrArg Wait.id hu
    exact h.unique t u hlt hlu0 (ht' ▸ hid) (by rw [← hu', heq, ht'])
  · obtain ⟨hl0, hw⟩ := hback t hl hi.1
    exact ⟨hl0, (congrArg Wait.id hw).symm, (congrArg Wait.kind hw).symm,
      (congrArg Wait.object hw).symm, .inr (congrArg Wait.result hw)⟩

theorem WaitStep.keeps (hstep : WaitStep s e s') : WaitInv s' ∧ WaitAdvance s s' := by
  cases hstep with
  | call op => exact waitStep_call h op
  | elsewhere he => exact waitStep_elsewhere h he

/-- A step that begins a wait records the identity it issued, which was not
issued before and is issued afterwards. -/
theorem WaitStep.begun_fresh {w : Nat} (hstep : WaitStep s e s') (hb : e.begun = some w) :
    ¬ Issued s w ∧ Issued s' w := by
  cases hstep with
  | elsewhere => simp [WaitEvent.begun] at hb
  | call op =>
    cases op with
    | begin t kind object =>
      rcases ThreadState.threadWaitBegin_cases
        (Prod.eta (s.threadWaitBegin t kind object)).symm with ⟨hf, -⟩ | hs
      · simp [WaitOp.apply, hf, WaitEvent.begun] at hb
      · obtain ⟨ht, -, -, -, -, -, hn, -, -, -, hs⟩ := hs
        have hw : s.nextWaitId = w := by
          simpa [WaitOp.apply, WaitOp.thread, ht, hs, WaitEvent.begun, Thread.setWait,
            Wait.begun] using hb
        subst hw
        exact ⟨not_issued_nextWaitId hn,
          issued_succ h.next_lt hn (by rw [WaitOp.apply, hs]) (.inr rfl)⟩
    | tryComplete | cancel | endWait | abort => simp [WaitEvent.begun] at hb

end

end Step

/-! ### Whole runs -/

theorem WaitBoot.inv (h : WaitBoot s) : WaitInv s := by
  refine ⟨by rw [h.nextWaitId]; exact Nat.one_lt_two_pow (by decide), fun t hl => .inl (h.clear t hl), ?_⟩
  intro t t' hl _ hid
  exact absurd (congrArg Wait.id (h.clear t hl)) hid

section

variable (h : Run WaitStep s es s') (h0 : WaitInv s)
include h h0

theorem waitRun_inv : WaitInv s' :=
  h.invariant h0 fun _ _ _ hi hs => (hs.keeps hi).1

theorem waitRun_advance : WaitAdvance s s' :=
  h.between h0 (fun _ _ _ hi hs => (hs.keeps hi).1) .refl .trans
    fun _ _ _ hi hs => (hs.keeps hi).2

/-- All identities begun are distinct, and all of them are issued at the end. -/
theorem waitRun_begunIds : (begunIds es).Nodup ∧ ∀ w ∈ begunIds es, Issued s' w := by
  have hinv : WaitInv s' ∧ (begunIds es).Nodup ∧ ∀ w ∈ begunIds es, Issued s' w := by
    refine h.history (P := fun es s => WaitInv s ∧ (begunIds es).Nodup ∧
      ∀ w ∈ begunIds es, Issued s w) ⟨h0, by simp [begunIds]⟩ ?_
    rintro es s e s' ⟨hi, hnd, hall⟩ hs
    obtain ⟨hi', hadv⟩ := hs.keeps hi
    refine ⟨hi', ?_⟩
    cases hb : e.begun with
    | none =>
      have : begunIds (es ++ [e]) = begunIds es := by simp [begunIds, hb]
      rw [this]
      exact ⟨hnd, fun w hw => hadv.issued w (hall w hw)⟩
    | some w =>
      obtain ⟨hfresh, hnow⟩ := hs.begun_fresh hi hb
      have : begunIds (es ++ [e]) = begunIds es ++ [w] := by simp [begunIds, hb]
      rw [this]
      constructor
      · refine List.nodup_append.mpr ⟨hnd, by simp, ?_⟩
        rintro a ha b hb' rfl
        exact hfresh (List.mem_singleton.mp hb' ▸ hall a ha)
      · exact List.forall_mem_append.mpr
          ⟨fun v hv => hadv.issued v (hall v hv), List.forall_mem_singleton.mpr hnow⟩
  exact hinv.2

end

/-- The thread is waiting under identity `w` and no terminal event has reached
that wait. -/
def WaitPending (s : ThreadState) (t : ThreadRef) (w : Nat) : Prop :=
  s.threadStorageLive t ∧ (s.thread t).waitId = w ∧ (s.thread t).waitResult = .pending

/-- **First terminal event wins.** Along every run from boot, split at any
intermediate state `s₁`:

* all waits begun in the run have different, non-zero identities and begin pending;
* a thread's wait result is pending or terminal as long as the wait exists, and
  an identity held in `s₁` that is still held in `s₂` is held by the same thread,
  for the same kind and object, with the same result unless that was pending;
* a completion that carries the identity of a wait that was already finished in
  `s₁` — completed, cancelled, closed, timed out, or cleared — changes nothing in
  `s₂`, whatever the thread is waiting for by then. -/
theorem first_terminal_event_wins {s₀ s₁ s₂ : ThreadState} {es es' : List WaitEvent}
    (hboot : WaitBoot s₀) (h₁ : Run WaitStep s₀ es s₁) (h₂ : Run WaitStep s₁ es' s₂) :
    ((begunIds (es ++ es')).Nodup ∧ 0 ∉ begunIds (es ++ es')) ∧
    (∀ t kind object s', s₁.threadWaitBegin t kind object = (true, s') →
      (s'.thread t).waitResult = .pending ∧ (s'.thread t).waitId ∉ begunIds es) ∧
    (∀ t, s₁.threadStorageLive t → (s₁.thread t).waitId ≠ 0 →
      (s₁.thread t).waitResult = .pending ∨ (s₁.thread t).waitResult.Terminal) ∧
    (∀ t t', s₁.threadStorageLive t → s₂.threadStorageLive t' → (s₁.thread t).waitId ≠ 0 →
      (s₂.thread t').waitId = (s₁.thread t).waitId →
      t' = t ∧ (s₂.thread t').waitKind = (s₁.thread t).waitKind ∧
        (s₂.thread t').waitObject = (s₁.thread t).waitObject ∧
        ((s₁.thread t).waitResult = .pending ∨
          (s₂.thread t').waitResult = (s₁.thread t).waitResult)) ∧
    (∀ w ∈ begunIds es, ∀ t, ¬ WaitPending s₁ t w → ∀ kind object result,
      s₂.threadWaitTryComplete t kind object w result = (false, s₂)) := by
  have hi₀ := hboot.inv
  have hi₁ := waitRun_inv h₁ hi₀
  have hadv := waitRun_advance h₂ hi₁
  obtain ⟨hnd, hall⟩ := waitRun_begunIds (h₁.append h₂) hi₀
  have hall₁ := (waitRun_begunIds h₁ hi₀).2
  refine ⟨⟨hnd, fun h0 => (hall 0 h0).1 rfl⟩, ?_, ?_, ?_, ?_⟩
  · intro t kind object s' hb
    rcases ThreadState.threadWaitBegin_cases hb with ⟨⟨⟩, -⟩ | hs
    obtain ⟨-, -, -, -, -, -, hn, -, -, -, rfl⟩ := hs
    refine ⟨by simp [Thread.setWait, Wait.begun], fun hmem => ?_⟩
    refine not_issued_nextWaitId hn (hall₁ _ ?_)
    simpa [Thread.setWait, Wait.begun] using hmem
  · intro t hl hid
    rcases hi₁.shape t hl with hc | hp
    · exact absurd (congrArg Wait.id hc) hid
    · exact hp.result
  · intro t t' hl hl' hid heq
    have hiss : Issued s₁ (s₂.thread t').waitId := by
      rw [heq]
      exact ((hi₁.shape t hl).resolve_left fun hc => hid (congrArg Wait.id hc)).issued
    obtain ⟨hl₁, hid', hk, ho, hr⟩ := hadv.held t' hl' hiss
    obtain rfl := hi₁.unique t t' hl hl₁ hid (hid'.trans heq)
    exact ⟨rfl, hk.symm, ho.symm, hr⟩
  · intro w hw t hnp kind object result
    rcases hc : s₂.threadWaitTryComplete t kind object w result with ⟨b, s'⟩
    rcases ThreadState.threadWaitTryComplete_cases hc with ⟨rfl, rfl⟩ | hs
    · rfl
    · -- a successful completion would need `w` pending in `s₂`, hence in `s₁`
      obtain ⟨-, -, ⟨-, hm, hid⟩, hp, -, -⟩ := hs
      obtain ⟨hl₁, hid', -, -, hr⟩ := hadv.held t hm.2.1 (hid ▸ hall₁ w hw)
      refine absurd ⟨hl₁, hid'.trans hid, ?_⟩ hnp
      rcases hr with hr | hr
      · exact hr
      · rw [← hr, hp]

/-- One running thread at boot. -/
def bootThreads : ThreadState where
  thread := fun _ => { Thread.zero with
    id := 1, state := .running, runNext := some 1, onRunQueue := true }
  currentThread := some 1
  nextThreadId := 2
  nextWaitId := 1
  initialized := true
  storage := Slots.empty.put 0 1
  unpublishedStack := 0
  unpublishedStackVirtual := 0

/-- The state after the given calls. -/
def afterCalls (s : ThreadState) (ops : List WaitOp) : ThreadState :=
  ops.foldl (fun s op => (op.apply s).2) s

/-- The thread sends, times out, gives up and sends again on the same endpoint;
the late completion of its first send does not reach the second. -/
theorem late_completion_of_first_send_refused :
    (afterCalls bootThreads [.begin 1 .ipcSend (.endpoint 7),
        .tryComplete 1 .ipcSend (.endpoint 7) 1 .timedOut, .endWait 1 .ipcSend (.endpoint 7),
        .begin 1 .ipcSend (.endpoint 7)]).threadWaitTryComplete 1 .ipcSend (.endpoint 7) 1
          .completed =
      (false, afterCalls bootThreads [.begin 1 .ipcSend (.endpoint 7),
        .tryComplete 1 .ipcSend (.endpoint 7) 1 .timedOut, .endWait 1 .ipcSend (.endpoint 7),
        .begin 1 .ipcSend (.endpoint 7)]) := by
  have hboot : WaitBoot bootThreads := ⟨rfl, fun _ _ => rfl⟩
  have h₁ : Run WaitStep bootThreads _ _ := Run.snoc (Run.snoc (Run.nil _)
    (WaitStep.call _ (.begin 1 .ipcSend (.endpoint 7))))
    (WaitStep.call _ (.tryComplete 1 .ipcSend (.endpoint 7) 1 .timedOut))
  have h₂ := Run.snoc (Run.snoc (Run.nil (afterCalls bootThreads
    [.begin 1 .ipcSend (.endpoint 7), .tryComplete 1 .ipcSend (.endpoint 7) 1 .timedOut]))
    (WaitStep.call _ (.endWait 1 .ipcSend (.endpoint 7))))
    (WaitStep.call _ (.begin 1 .ipcSend (.endpoint 7)))
  refine (first_terminal_event_wins hboot h₁ h₂).2.2.2.2 1 (by decide +kernel) 1 ?_ _ _ _
  intro h
  exact absurd h.2.2 (by decide +kernel)

end JcosKernel
