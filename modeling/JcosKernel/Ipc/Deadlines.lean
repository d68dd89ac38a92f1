import JcosKernel.Ipc.Runs

/-!
# JcosKernel.Ipc.Deadlines

When a timed wait is over: at the poll of its deadline and at no earlier one.

The deadline is stored once, when the call begins to wait, and its entry stays in the table for
as long as the call is inside its loop, whoever ends the wait.
-/

namespace JcosKernel

open Lib IpcState World

/-- A deadline less than half the range ahead is reached when it is there. -/
theorem ipcDeadlineReached_iff {start ticks j : Nat} (hmax : ticks ≤ ipcTimeoutMaxTicks)
    (hj : j ≤ ticks) :
    IpcDeadlineReached ((start + j) % 2 ^ 64) ((start + ticks) % 2 ^ 64) ↔ j = ticks := by
  unfold IpcDeadlineReached sub64
  unfold ipcTimeoutMaxTicks at hmax
  omega

/-- The thread has a timeout with this deadline. -/
def IpcState.TimedUntil (k : IpcState) (t : ThreadRef) (deadline : Nat) : Prop :=
  ∃ i v, k.timedWaits i = some v ∧ v.thread = t ∧ v.deadline = deadline

/-- The timeout of a blocking operation. -/
def IpcOp.timeout : IpcOp → Option Nat
  | sendBlocking _ _ _ timeout => timeout
  | receiveBlocking _ _ timeout => timeout
  | _ => none

variable {w w' w₁ w₂ : World} {env : IpcEnv} {t : ThreadRef} {n start ticks deadline : Nat}
  {c : ParkedCall} {notes : List IpcNote} {steps : List (List IpcNote)}

/-- A call that is inside its loop was so before, and keeps its deadline. -/
theorem Move.timedUntil (m : Move w notes w') : w.calls ≤ w'.calls ∧
    ∀ t n c, n < w.calls → w'.parked t = some (n, c) → (∃ c, w.parked t = some (n, c)) ∧
      ∀ deadline, w.kernel.TimedUntil t deadline → w'.kernel.TimedUntil t deadline := by
  have hsame : ∀ {k : IpcState} {calls}, k.timedWaits = w.kernel.timedWaits → w.calls ≤ calls →
      w.calls ≤ calls ∧ ∀ t n c, n < w.calls → w.parked t = some (n, c) →
        (∃ c, w.parked t = some (n, c)) ∧
          ∀ deadline, w.kernel.TimedUntil t deadline → k.TimedUntil t deadline := by
    intro k calls hk hle
    refine ⟨hle, fun t n c _ hp => ⟨⟨c, hp⟩, fun deadline hd => ?_⟩⟩
    rwa [TimedUntil, hk]
  have hreleased : ∀ {u timed}, w.kernel.WithoutTimed u timed → ∀ t n c, n < w.calls →
      Function.update w.parked u none t = some (n, c) → (∃ c, w.parked t = some (n, c)) ∧
        ∀ deadline, w.kernel.TimedUntil t deadline →
          ∃ i v, timed i = some v ∧ v.thread = t ∧ v.deadline = deadline := by
    intro u timed hout t n c _ hp
    obtain ⟨htu, hp⟩ := parked_of_unpark hp
    refine ⟨⟨c, hp⟩, ?_⟩
    rintro deadline ⟨i, v, hi, hv, hd⟩
    exact ⟨i, v, (hout i v).mpr ⟨hi, hv ▸ htu⟩, hv, hd⟩
  cases m with
  | quiet q => exact hsame q.timedWaits le_rfl
  | call | refused => exact hsame rfl (Nat.le_succ _)
  | nothing => exact hsame rfl le_rfl
  | put p => exact hsame p.relabel.timedWaits (Nat.le_succ _)
  | take p | promote p | settle p | close p => exact hsame p.relabel.timedWaits le_rfl
  | @reserve u =>
    refine ⟨Nat.le_succ _, fun t n c hn hp => ?_⟩
    rcases update_eq_some.mp hp with ⟨-, hnew⟩ | ⟨-, hp⟩
    · cases hnew
      exact absurd hn (lt_irrefl _)
    · exact ⟨⟨c, hp⟩, fun _ hd => hd⟩
  | @register k u m _ d hu r =>
    obtain ⟨slot, entry, hslot, rfl, -⟩ := r.stored
    refine ⟨le_rfl, fun t n c hn hp => ⟨?_, ?_⟩⟩
    · rcases update_eq_some.mp hp with ⟨rfl, hnew⟩ | ⟨-, hp⟩
      · cases hnew
        exact ⟨d, hu⟩
      · exact ⟨c, hp⟩
    · rintro deadline ⟨i, v, hi, hv⟩
      refine ⟨i, v, Slots.put_eq_some.mpr (.inr ⟨?_, hi⟩), hv⟩
      rintro rfl
      cases hslot.symm.trans hi
  | finish _ _ hout | release _ hout => exact ⟨le_rfl, hreleased hout⟩

/-- The deadline of a call stays for as long as the call is inside its loop. -/
theorem timedUntil_of_run (h : WorldInv w₁) (hr : Run IpcStep w₁ steps w₂) (hn : n < w₁.calls)
    (hp : w₂.parked t = some (n, c)) (hd : w₁.kernel.TimedUntil t deadline) :
    w₂.kernel.TimedUntil t deadline := by
  suffices hall : ∀ {w ms}, Run Move w₁ ms w → w₁.calls ≤ w.calls ∧
      ∀ c, w.parked t = some (n, c) → w.kernel.TimedUntil t deadline by
    obtain ⟨ms, hm, -⟩ := run_refines h hr
    exact (hall hm).2 c hp
  intro w ms hm
  induction hm with
  | nil => exact ⟨le_rfl, fun _ _ => hd⟩
  | snoc _ m ih =>
    obtain ⟨hle, hkeep⟩ := m.timedUntil
    refine ⟨ih.1.trans hle, fun c hp => ?_⟩
    obtain ⟨⟨c0, hp0⟩, hk⟩ := hkeep t n c (hn.trans_le ih.1) hp
    exact hk deadline (ih.2 c0 hp0)

theorem World.called_parked {α : Type} {note : Nat → α → IpcNote} {r : IpcReturn (Progress α)}
    (h : WorldInv w) (hp : (w.called note r).2.parked t = some (w.calls, c)) :
    (∃ call, r.value = .parked call) ∧ w.kernel.sched.threadCurrent = some t ∧
      (w.called note r).2.kernel = r.state := by
  have hold : ∀ u d, w.parked u ≠ some (w.calls, d) :=
    fun u d hu => lt_irrefl _ (h.number u _ d hu)
  unfold called at hp ⊢
  cases hv : r.value with
  | returned a =>
    rw [hv] at hp
    exact absurd hp (hold t c)
  | parked call =>
    rw [hv] at hp
    refine ⟨⟨call, rfl⟩, ?_, rfl⟩
    simp only [parkCurrent] at hp
    split at hp
    · exact absurd hp (hold t c)
    · rename_i u hu
      rcases update_eq_some.mp hp with ⟨rfl, -⟩ | ⟨-, hp⟩
      · exact hu
      · exact absurd hp (hold t c)

/-- A call returns at once, or registers its timeout where it waits. -/
theorem World.called_timedUntil {α : Type} {note : Nat → α → IpcNote} (refused : α)
    {q : Option (IpcReturn (Progress α))} {r : IpcReturn (Progress α)} (h : WorldInv w)
    (hq : (∃ v : Option (IpcReturn α), q = v.map (·.map .returned)) ∨ ∃ u e kind staged,
      w.kernel.Reserves env u e kind staged (some ticks) ∧
        q = (w.kernel.ipcReserve env u e kind staged (some ticks)).map (afterReserve refused))
    (hr : q = some r) (hnow : env.ticks = some start)
    (hp : (w.called note r).2.parked t = some (w.calls, c)) :
    (w.called note r).2.kernel.TimedUntil t ((start + ticks) % 2 ^ 64) ∧
      ticks ≤ ipcTimeoutMaxTicks := by
  obtain ⟨⟨call, hcall⟩, hcur, hk⟩ := called_parked h hp
  rcases hq with ⟨v, rfl⟩ | ⟨u, e, kind, staged, hres, rfl⟩
  · obtain ⟨v, -, rfl⟩ := Option.map_eq_some_iff.mp hr
    cases hcall
  obtain rfl := Option.some.inj (hres.current.symm.trans hcur)
  refine ⟨?_, Nat.le_of_not_lt fun hlt => hres.timeout (.inr (.inl hlt))⟩
  rw [hk]
  rcases hres.spec h.inv with ⟨-, heq⟩ | ⟨-, ⟨hto, -⟩ | ⟨_, now, k', hto, hnow', heq, hreg⟩⟩
  · rw [heq] at hr
    obtain rfl := Option.some.inj hr
    cases hcall
  · cases hto
  · rw [heq] at hr
    obtain rfl := Option.some.inj hr
    obtain rfl := Option.some.inj hto
    obtain rfl := Option.some.inj (hnow.symm.trans hnow')
    obtain ⟨slot, v, -, rfl, hv, -, -, -, -, -, hd⟩ := hreg.stored
    exact ⟨slot, v, by simp [afterReserve, Slots.put], hv, hd⟩

/-- A timed call that parks has its deadline in the table. -/
theorem IpcOp.exec_timedUntil {o : IpcOp} (h : WorldInv w) (ho : o.timeout = some ticks)
    (hnow : env.ticks = some start) (he : o.exec env w = some (notes, w₁))
    (hp : w₁.parked t = some (w.calls, c)) :
    w₁.kernel.TimedUntil t ((start + ticks) % 2 ^ 64) ∧ ticks ≤ ipcTimeoutMaxTicks := by
  cases o with
  | sendBlocking process handle message timeout =>
    obtain rfl : timeout = some ticks := ho
    obtain ⟨r, hr, heq⟩ := Option.map_eq_some_iff.mp he
    obtain rfl := congrArg Prod.snd heq
    refine called_timedUntil false h ?_ hr hnow hp
    rcases ipcSendBlocking_cases env process handle w.kernel message (some ticks) with
      hq | ⟨e, hq⟩ | ⟨u, e, hres, hq⟩
    · exact .inl ⟨some ⟨false, [], w.kernel⟩, hq⟩
    · exact .inl ⟨_, hq⟩
    · exact .inr ⟨u, e, _, _, hres, hq⟩
  | receiveBlocking process handle timeout =>
    obtain rfl : timeout = some ticks := ho
    obtain ⟨r, hr, heq⟩ := Option.map_eq_some_iff.mp he
    obtain rfl := congrArg Prod.snd heq
    refine called_timedUntil none h ?_ hr hnow hp
    rcases ipcReceiveBlocking_cases env process handle w.kernel (some ticks) with
      hq | ⟨u, e, -, hq | ⟨hres, hq⟩⟩
    · exact .inl ⟨some ⟨none, [], w.kernel⟩, hq⟩
    · exact .inl ⟨_, hq⟩
    · exact .inr ⟨u, e, _, _, hres, hq⟩
  | _ => cases ho

/-- Timed waits expire exactly at their deadline, and there is room for every one of them. -/
structure TimedWaitsExact (w : World) : Prop where
  /-- A timed call that parked at tick `start` and is still inside its loop: the poll at its
  deadline ends a pending wait, an earlier poll does not, and no poll changes a result. -/
  expires : ∀ {env env' : IpcEnv} {o : IpcOp} {start ticks now : Nat} {notes notes' : List IpcNote}
    {steps : List (List IpcNote)} {w₁ w₂ w₃ : World} {t : ThreadRef} {c c' : ParkedCall},
    o.timeout = some ticks → env.ticks = some start → o.exec env w = some (notes, w₁) →
    w₁.parked t = some (w.calls, c) → Run IpcStep w₁ steps w₂ →
    w₂.parked t = some (w.calls, c') → (IpcOp.timeoutPoll now).exec env' w₂ = some (notes', w₃) →
    ((w₂.kernel.sched.thread t).waitResult ≠ .pending →
      (w₃.kernel.sched.thread t).waitResult = (w₂.kernel.sched.thread t).waitResult) ∧
    ∀ j ≤ ticks, now = (start + j) % 2 ^ 64 → (w₃.kernel.sched.thread t).waitResult =
      if j = ticks ∧ (w₂.kernel.sched.thread t).waitResult = .pending then .timedOut
      else (w₂.kernel.sched.thread t).waitResult
  /-- Where a blocking operation comes to wait and its wait begins, its timeout is registered. -/
  room : ∀ {env : IpcEnv} {t : ThreadRef} {e : EndpointRef} {kind : ThreadWaitKind}
    {staged : Option IpcMessage} {ticks : Nat},
    w.kernel.Reserves env t e kind staged (some ticks) →
    (w.kernel.sched.threadWaitBegin t kind (.endpoint e)).1 →
    (∃ i, w.kernel.timedWaits i = none) ∧
      ∃ call k, w.kernel.ipcReserve env t e kind staged (some ticks) = some (some call, k)

/-- **In every reachable state timed waits expire exactly at their deadline, and the table has
room for every one of them.** -/
theorem timed_waits_exact_of_run {w w' : World} {steps : List (List IpcNote)} (hboot : IpcBoot w)
    (hrun : Run IpcStep w steps w') : TimedWaitsExact w' := by
  have h := hboot.inv.of_run hrun
  refine ⟨?_, ?_⟩
  · intro env env' o start ticks now notes notes' steps' w₁ w₂ w₃ t c c' ho hnow he hp hrun' hp' hpoll
    obtain ⟨r, hr, hserves⟩ := o.exec_refines env h
    obtain rfl := Option.some.inj (hr.symm.trans he)
    have h₁ : WorldInv w₁ := hserves.refines.inv h
    obtain ⟨hd, hmax⟩ := IpcOp.exec_timedUntil h ho hnow he hp
    obtain ⟨i, v, hi, rfl, hv⟩ := timedUntil_of_run h₁ hrun' (h₁.number t _ c hp) hp' hd
    obtain ⟨k, hk, -, hres⟩ := timeoutPoll_refines now (h₁.of_run hrun')
    rw [IpcOp.exec, hk] at hpoll
    obtain ⟨-, rfl⟩ := Prod.mk.inj (Option.some.inj hpoll)
    refine ⟨fun hn => ?_, fun j hj hjn => ?_⟩
    · rw [setKernel_kernel, hres i v hi, if_neg fun hdue => hn hdue.1]
    · subst hjn
      simp only [setKernel_kernel, hres i v hi, Due, hv, ipcDeadlineReached_iff hmax hj, and_comm]
  · intro env t e kind staged ticks hres hbegin
    refine ⟨h.inv.timed_room hres.valid hres.ipc hres.free, ?_⟩
    rcases hres.spec h.inv with ⟨hb, -⟩ | ⟨-, ⟨hto, -⟩ | ⟨_, _, k, -, -, heq, -⟩⟩
    · exact absurd hbegin (by simp [hb])
    · cases hto
    · exact ⟨_, k, heq⟩

/-- The timed send of `parkedSend`, made at tick 100 with 50 ticks to wait. -/
theorem timed_waits_exact_parkedSend : ∃ w, TimedWaitsExact w ∧
    ([149, 150].map fun now => (execSteps portEnv w
        (parkedSend.drop 1 ++ [.inl (.timeoutPoll now)])).map fun r =>
      (r.2.kernel.sched.thread 1).waitResult) = [some .pending, some .timedOut] := by
  have hexec : (execSteps portEnv portWorld (parkedSend.take 1)).isSome := by decide +kernel
  obtain ⟨⟨steps, w⟩, hw⟩ := Option.isSome_iff_exists.mp hexec
  have hfacts : ((execSteps portEnv portWorld (parkedSend.take 1)).map fun q =>
      [149, 150].map fun now => (execSteps portEnv q.2
        (parkedSend.drop 1 ++ [.inl (.timeoutPoll now)])).map fun r =>
          (r.2.kernel.sched.thread 1).waitResult) =
      some [some .pending, some .timedOut] := by decide +kernel
  rw [hw] at hfacts
  exact ⟨w, timed_waits_exact_of_run portWorld_boot
    (run_of_execSteps (by simp [parkedSend]) hw), Option.some.inj hfacts⟩

end JcosKernel
