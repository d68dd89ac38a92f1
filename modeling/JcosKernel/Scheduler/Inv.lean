import JcosKernel.Lib.Run
import JcosKernel.Scheduler.Queue

/-!
# JcosKernel.Scheduler.Inv

The invariant of the scheduler and its preservation by every operation and every
interrupt entry.

The conditions on a single thread are collected in `Thread.Settled`. While a
thread is being parked or killed it passes through combinations of state and queue
membership that are not settled, so the induction runs over `SchedInvBut`, which
exempts one thread; the small steps of the operations (`SchedInvBut.modify`,
`SchedInvBut.unlink`, `SchedInvBut.activate`) are proved for it once, and the
operations are compositions of them.
-/

namespace JcosKernel

open Lib

namespace Thread

/-- The recorded size of the kernel stack is the distance of its two ends. -/
def StackOk (th : Thread) : Prop :=
  th.kernelStackSize = th.kernelStackTop - th.kernelStackBase ∧ th.kernelStackTop < 2 ^ 64

instance (th : Thread) : Decidable th.StackOk := inferInstanceAs (Decidable (_ ∧ _))

/-- What the scheduler guarantees of the thread at `t`. -/
structure Settled (current : Option ThreadRef) (t : ThreadRef) (th : Thread) : Prop where
  running : th.state = .running ↔ current = some t
  onQueue : current = some t → th.onRunQueue
  queued : th.onRunQueue → current ≠ some t → th.state = .ready ∧ th.SavedContext
  blocked : th.state = .blocked → ¬ th.onRunQueue ∧ th.SavedContext ∧ th.runNext = none
  stack : th.StackOk

/-- A saved frame lies inside the kernel stack of its thread. -/
theorem SavedContext.inside {th : Thread} (h : th.SavedContext) (hs : th.StackOk) :
    th.kernelStackBase ≤ th.interruptRsp ∧ th.interruptRsp + contextSize ≤ th.kernelStackTop := by
  obtain ⟨-, -, -, -, -, hlt, hsize, hlow, hhigh⟩ := h
  obtain ⟨hs, htop⟩ := hs
  have hsub : sub64 th.kernelStackTop contextSize = th.kernelStackTop - contextSize := by
    unfold sub64
    rw [show th.kernelStackTop + 2 ^ 64 - contextSize = th.kernelStackTop - contextSize + 2 ^ 64 by
      omega, Nat.add_mod_right, Nat.mod_eq_of_lt (by omega)]
  exact ⟨hlow, by omega⟩

namespace Settled

variable {current : Option ThreadRef} {t : ThreadRef} {th : Thread}

/-- A thread that is off the queue, neither running nor blocked, is settled. -/
theorem of_off (hs : th.StackOk) (hc : current ≠ some t) (ho : ¬ th.onRunQueue)
    (hr : th.state ≠ .running) (hb : th.state ≠ .blocked) : Settled current t th where
  running := iff_of_false hr hc
  onQueue h := absurd h hc
  queued h := absurd h ho
  blocked h := absurd h hb
  stack := hs

theorem relink_of_on (h : Settled current t th) (ho : th.onRunQueue) (next : Option ThreadRef) :
    Settled current t (th.relink next true) where
  running := h.running
  onQueue _ := rfl
  queued _ hc := h.queued ho hc
  blocked hb := absurd ho (h.blocked hb).1
  stack := h.stack

/-- The context of the current thread is not constrained. -/
theorem of_current (h : Settled current t th) (hc : current = some t) {th' : Thread}
    (hst : th'.state = th.state) (hon : th'.onRunQueue = th.onRunQueue) (hs : th'.StackOk) :
    Settled current t th' where
  running := by rw [hst]; exact h.running
  onQueue _ := by rw [hon]; exact h.onQueue hc
  queued _ hn := absurd hc hn
  blocked hb := by
    have : th.state = .running := h.running.mpr hc
    rw [hst, this] at hb
    cases hb
  stack := hs

/-- A queued thread becomes the current one. -/
theorem start (hs : th.StackOk) (hon : th.onRunQueue) :
    Settled (some t) t (th.setState .running) where
  running := iff_of_true rfl rfl
  onQueue _ := hon
  queued _ hn := absurd rfl hn
  blocked hb := nomatch hb
  stack := hs

/-- The current thread changes, and is not this one before or after. -/
theorem other {current' : Option ThreadRef} (h : Settled current t th) (hc : current ≠ some t)
    (hc' : current' ≠ some t) : Settled current' t th where
  running := iff_of_false (fun hr => hc (h.running.mp hr)) hc'
  onQueue he := absurd he hc'
  queued ho _ := h.queued ho hc
  blocked := h.blocked
  stack := h.stack

end Settled

end Thread

namespace SchedState

/-- The scheduler invariant, with thread `x` exempt. -/
structure SchedInvBut (x : Option ThreadRef) (s : SchedState) : Prop where
  initialized : s.initialized
  schedInitialized : s.schedInitialized
  queue : ∃ l, QueueInv s l
  idle : s.currentThread = none ↔ s.idleActive
  threads : ∀ t, x ≠ some t → Thread.Settled s.currentThread t (s.thread t)
  stackOk : ∀ t, (s.thread t).StackOk

/-- The scheduler invariant. -/
abbrev SchedInv (s : SchedState) : Prop := SchedInvBut none s

variable {c d previous : ThreadRef} {b : Bool}

namespace SchedInvBut

variable {s s' : SchedState} {x : Option ThreadRef} {t : ThreadRef} {f : Thread → Thread}

theorem settled (h : SchedInv s) (t : ThreadRef) : Thread.Settled s.currentThread t (s.thread t) :=
  h.threads t nofun

theorem weaken (h : SchedInv s) : SchedInvBut x s :=
  { h with threads := fun t _ => h.settled t }

theorem threadCurrent (h : SchedInvBut x s) : s.threadCurrent = s.currentThread :=
  if_pos h.initialized

/-- A store that keeps the queue links, or that concerns a thread off the queue. -/
theorem modify (h : SchedInvBut x s)
    (hlink : ((f (s.thread t)).runNext = (s.thread t).runNext ∨ ¬ (s.thread t).onRunQueue) ∧
      (f (s.thread t)).onRunQueue = (s.thread t).onRunQueue)
    (hset : x ≠ some t → Thread.Settled s.currentThread t (f (s.thread t)))
    (hst : (f (s.thread t)).StackOk) : SchedInvBut x (s.modifyThread t f) :=
  { h with
    queue := h.queue.imp fun _ hl => hl.modify hlink
    threads := fun u hu => by
      by_cases hut : u = t
      · subst hut
        simpa using hset hu
      · simpa [hut] using h.threads u hu
    stackOk := fun u => by
      by_cases hut : u = t
      · subst hut
        simpa using hst
      · simpa [hut] using h.stackOk u }

/-- Once the exempt thread is settled again, the invariant holds. -/
theorem settle {u : ThreadRef} (h : SchedInvBut (some u) s)
    (hu : Thread.Settled s.currentThread u (s.thread u)) : SchedInv s :=
  { h with
    threads := fun t _ => by
      by_cases ht : t = u
      · exact ht ▸ hu
      · exact h.threads t fun he => ht (Option.some.inj he).symm }

/-- Outside the idle context the queue is not empty. -/
theorem idle_of_nil (h : SchedInv s) (hq : QueueInv s []) : s.idleActive := by
  refine h.idle.mp ?_
  cases hc : s.currentThread with
  | none => rfl
  | some c =>
    have := (hq.mem c).mpr ((h.settled c).onQueue hc)
    simp at this

/-! ### The small steps -/

/-- `scheduler_add` refuses without a trace, or appends. -/
theorem add_cases (h : SchedInv s) (hadd : s.schedulerAdd t = (b, s')) :
    (b = false ∧ s' = s ∧ ¬ s.Addable t) ∨ (b = true ∧ s.Addable t ∧
      ∃ l, QueueInv s l ∧ QueueInv s' (l ++ [t]) ∧ Relinked s s' (t :: l)) := by
  obtain ⟨l, hl⟩ := h.queue
  rcases schedulerAdd_spec hl (fun hn => idle_of_nil h (hn ▸ hl)) with
    ⟨hn, hf⟩ | ⟨ha, s1, hs1, hq, hr⟩
  · obtain ⟨rfl, rfl⟩ := Prod.mk.inj (hadd.symm.trans hf)
    exact .inl ⟨rfl, rfl, hn⟩
  · obtain ⟨rfl, rfl⟩ := Prod.mk.inj (hadd.symm.trans hs1)
    exact .inr ⟨rfl, ha, l, hl, hq, hr⟩

/-- Relinking the queue; what becomes of `t` is up to the caller. -/
theorem relinked {l l' m : List ThreadRef} (h : SchedInvBut x s) (hl : QueueInv s l)
    (hq : QueueInv s' l') (hr : Relinked s s' m) (hon : ∀ u ∈ m, u ≠ t → u ∈ l ∧ u ∈ l')
    (ht : x ≠ some t → Thread.Settled s.currentThread t (s'.thread t)) : SchedInvBut x s' := by
  refine ⟨hr.initialized ▸ h.initialized, hr.schedInitialized ▸ h.schedInitialized, ⟨_, hq⟩, ?_,
    fun u hxu => ?_, fun u => ?_⟩
  · rw [hr.currentThread, hr.idleActive]
    exact h.idle
  · rw [hr.currentThread]
    by_cases hut : u = t
    · subst hut
      exact ht hxu
    · rcases hr.links u with he | ⟨hu, next, on, he⟩
      · rw [he]
        exact h.threads u hxu
      · obtain rfl : on = true := by
          have := (hq.mem u).mp (hon u hu hut).2
          rwa [he] at this
        rw [he]
        exact (h.threads u hxu).relink_of_on ((hl.mem u).mp (hon u hu hut).1) next
  · rcases hr.links u with he | ⟨-, next, on, he⟩
    all_goals
      rw [he]
      exact h.stackOk u

theorem add (h : SchedInv s) (hadd : s.schedulerAdd t = (true, s')) : SchedInv s' := by
  rcases add_cases h hadd with ⟨⟨⟩, -⟩ | ⟨-, ⟨-, -, hoff, hst, hctx⟩, l, hl, hq, hr⟩
  refine relinked (t := t) h hl hq hr (fun u hu hut => ?_) fun _ => ?_
  · have hul : u ∈ l := by simpa [hut] using hu
    exact ⟨hul, List.mem_append_left _ hul⟩
  · have ht := h.settled t
    have hon := (hq.mem t).mp (by simp)
    rcases hr.links t with he | ⟨-, next, on, he⟩
    · exact absurd (he ▸ hon) hoff
    · rw [he] at hon ⊢
      exact
        { running := ht.running
          onQueue := fun _ => hon
          queued := fun _ _ => ⟨hst, hctx⟩
          blocked := fun hb => by simp [hst] at hb
          stack := ht.stack }

/-- `scheduler_unlink` refuses a thread that is not queued, without a trace, or takes it
off the queue. -/
theorem unlink_cases (h : SchedInvBut x s) (hu : s.schedulerUnlink t = (b, s')) :
    (b = false ∧ s' = s ∧ ¬ (s.thread t).onRunQueue) ∨ (b = true ∧ (s.thread t).onRunQueue ∧
      ∃ l, QueueInv s l ∧ QueueInv s' (l.erase t) ∧ Relinked s s' l ∧
        (s'.thread t).runNext = none) := by
  obtain ⟨l, hl⟩ := h.queue
  rcases schedulerUnlink_spec hl with ⟨hm, hf⟩ | ⟨hm, s1, hs1, hq, hr, hnone⟩
  · obtain ⟨rfl, rfl⟩ := Prod.mk.inj (hu.symm.trans hf)
    exact .inl ⟨rfl, rfl, fun ho => hm ((hl.mem t).mpr ho)⟩
  · obtain ⟨rfl, rfl⟩ := Prod.mk.inj (hu.symm.trans hs1)
    exact .inr ⟨rfl, (hl.mem t).mp hm, l, hl, hq, hr, hnone⟩

/-- Unlinking a thread other than the current one, or the exempt one. -/
theorem unlink (h : SchedInvBut x s) (hu : s.schedulerUnlink t = (true, s'))
    (hx : s.currentThread ≠ some t ∨ x = some t) :
    SchedInvBut x s' ∧ s'.thread t = (s.thread t).relink none false ∧ ∃ l, Relinked s s' l := by
  rcases unlink_cases h hu with ⟨⟨⟩, -⟩ | ⟨-, hon, l, hl, hq, hr, hnone⟩
  have hmem : ∀ u, u ∈ l.erase t ↔ u ≠ t ∧ u ∈ l := fun u => hl.nodup.mem_erase_iff
  have hoff : (s'.thread t).onRunQueue = false := by
    have := (hq.mem t).not.mp (by simp [hmem])
    simpa using this
  have hself : s'.thread t = (s.thread t).relink none false := by
    rcases hr.links t with he | ⟨-, next, on, he⟩
    · rw [he, hon] at hoff
      cases hoff
    · rw [he] at hnone hoff ⊢
      rw [← hnone, ← hoff]
      rfl
  refine ⟨relinked h hl hq hr (fun u hu hut => ⟨hu, (hmem u).mpr ⟨hut, hu⟩⟩) fun hxt => ?_,
    hself, l, hr⟩
  have hset := h.threads t hxt
  have hcur := hx.resolve_right hxt
  have hready := (hset.queued hon hcur).1
  rw [hself]
  exact .of_off hset.stack hcur (by simp) (by simp [hready]) (by simp [hready])

/-- A queued thread can always be unlinked. -/
theorem exists_unlink (h : SchedInvBut x s) (ht : (s.thread t).onRunQueue) :
    ∃ s', s.schedulerUnlink t = (true, s') := by
  rcases hu : s.schedulerUnlink t with ⟨b, s'⟩
  rcases unlink_cases h hu with ⟨-, -, hoff⟩ | ⟨rfl, -⟩
  · exact absurd ht hoff
  · exact ⟨s', rfl⟩

@[simp] theorem switchCurrent_currentThread (previous : ThreadRef) :
    (s.switchCurrent t previous).currentThread = some t := rfl

theorem switchCurrent_thread (hne : t ≠ previous) (u : ThreadRef) :
    (s.switchCurrent t previous).thread u =
      if u = t then (s.thread u).setState .running
      else if u = previous then (s.thread u).setState .ready else s.thread u := by
  show (Function.update (Function.update s.thread previous _) t _) u = _
  by_cases hu : u = t
  · subst hu
    simp [hne]
  · by_cases hu' : u = previous
    · subst hu'
      simp [hu]
    · simp [hu, hu']

/-- Switching to another queued thread leaves the previous one READY; whether it
has a context to return to is up to the caller. -/
theorem activate (h : SchedInv s) (hc : s.currentThread = some previous) (hne : t ≠ previous)
    (hon : (s.thread t).onRunQueue) :
    SchedInvBut (some previous) (s.switchCurrent t previous) := by
  have hidle : ¬ s.idleActive := fun hi => by simp [h.idle.mpr hi] at hc
  refine { h with
    queue := h.queue.imp fun _ hl => hl.switchCurrent previous t
    idle := iff_of_false (by simp) hidle
    threads := fun u hu => ?_
    stackOk := fun u => ?_ }
  · have hup : u ≠ previous := fun he => hu (he ▸ rfl)
    rw [switchCurrent_thread hne]
    split_ifs with hut
    · subst hut
      exact .start (h.stackOk u) hon
    · have hcu : s.currentThread ≠ some u := by
        rw [hc]
        exact fun he => hup (Option.some.inj he).symm
      exact (h.settled u).other hcu fun he => hut (Option.some.inj he).symm
  · rw [switchCurrent_thread hne]
    split_ifs <;> exact h.stackOk u

end SchedInvBut

/-- `thread_activate` of another thread refuses, or switches. -/
theorem threadActivate_cases {env : SpaceEnv} {s s' : SchedState}
    (h : s.threadActivate env d = (b, s')) (hc : s.currentThread = some c) (hdc : d ≠ c) :
    s' = if b then s.switchCurrent d c else s := by
  unfold threadActivate at h
  rw [hc] at h
  dsimp only at h
  split_ifs at h
  all_goals obtain ⟨rfl, rfl⟩ := h
  all_goals rfl

theorem Eligible.ne {s : SchedState} (h : s.Eligible (some c) d) : d ≠ c := fun he => h.1 (he ▸ rfl)

/-! ### The operations -/

section Operations

variable {env : SpaceEnv} {s s' : SchedState} {t : ThreadRef} {frame : Nat} {r : TrapReturn}

section

variable (h : SchedInv s)
include h

/-- READY and off the queue is a settled combination. -/
theorem SchedInvBut.setReady (hc : s.currentThread ≠ some t) (ho : ¬ (s.thread t).onRunQueue) :
    SchedInv (s.modifyThread t (·.setState .ready)) :=
  h.modify ⟨.inl rfl, rfl⟩
    (fun _ => .of_off (h.stackOk t) hc ho (by simp) (by simp)) (h.stackOk t)

/-- `scheduler_wake` refuses without a trace, or queues a blocked thread. -/
theorem schedulerWake_cases (hw : s.schedulerWake t = (b, s')) :
    (b = false ∧ s' = s) ∨
    (b = true ∧ (s.thread t).id ≠ 0 ∧ (s.thread t).state = .blocked ∧
      s.currentThread ≠ some t ∧
      (s.modifyThread t (·.setState .ready)).schedulerAdd t = (true, s')) := by
  unfold schedulerWake at hw
  dsimp only at hw
  split_ifs at hw with h1 h2
  · obtain ⟨rfl, rfl⟩ := hw
    exact .inl ⟨rfl, rfl⟩
  · simp only [not_or, not_not] at h1
    rw [h.threadCurrent] at h1
    have hc : s.currentThread ≠ some t := fun hc => h1.2.2.1 hc.symm
    split at hw
    · rename_i s1 hs1
      obtain ⟨rfl, rfl⟩ := hw
      exact .inr ⟨rfl, h1.2.1, h1.2.2.2.2.2.2.2, hc, hs1⟩
    · rename_i s1 hs1
      obtain ⟨rfl, rfl⟩ := hw
      -- a refused append changed nothing, so restoring BLOCKED restores the thread
      rcases (h.setReady hc h1.2.2.2.1).add_cases hs1 with
        ⟨-, rfl, -⟩ | ⟨hf, -⟩
      · have hst : (s.thread t).state = .blocked := h1.2.2.2.2.2.2.2
        have hth : ((s.thread t).setState .ready).setState .blocked = s.thread t := by
          rw [← hst]
          rfl
        simp [modifyThread, ThreadState.modify, hth]
      · cases hf
  · obtain ⟨rfl, rfl⟩ := hw
    exact .inl ⟨rfl, rfl⟩

/-- Every BLOCKED thread with an identity can be woken. -/
theorem exists_schedulerWake (hid : (s.thread t).id ≠ 0) (hb : (s.thread t).state = .blocked) :
    ∃ s', s.schedulerWake t = (true, s') := by
  have hset := h.settled t
  obtain ⟨hoff, ⟨hready, hrsp, hframe⟩, hnext⟩ := hset.blocked hb
  have hc : s.currentThread ≠ some t := fun hc => hoff (hset.onQueue hc)
  have hadd : (s.modifyThread t (·.setState .ready)).Addable t := by
    refine ⟨h.schedInitialized, ?_⟩
    simpa using ⟨hid, by simpa using hoff, hready, hrsp, hframe⟩
  rcases hs' : (s.modifyThread t (·.setState .ready)).schedulerAdd t with ⟨b, s'⟩
  rcases (h.setReady hc hoff).add_cases hs' with ⟨-, -, hn⟩ | ⟨rfl, -⟩
  · exact absurd hadd hn
  · have hcur : ¬ some t = s.threadCurrent := by
      rw [h.threadCurrent]
      exact fun he => hc he.symm
    simp [schedulerWake, h.schedInitialized, hid, hcur, hoff, hnext, hready, hrsp, hb, hframe, hs']

/-- DEAD and off the queue is a settled combination. -/
theorem SchedInvBut.kill (hc : s.currentThread ≠ some t) (ho : ¬ (s.thread t).onRunQueue) :
    SchedInv (s.modifyThread t Thread.kill) := by
  refine h.modify ⟨.inr ho, ?_⟩
    (fun _ => .of_off (h.stackOk t) hc (by simp [Thread.kill, Thread.setOnRunQueue])
      (by simp [Thread.kill, Thread.setRunNext, Thread.setOnRunQueue])
      (by simp [Thread.kill, Thread.setRunNext, Thread.setOnRunQueue]))
    (h.stackOk t)
  simpa [Thread.kill, Thread.setOnRunQueue] using ho

/-! ### The interrupt entries -/

/-- The context of the current thread may be saved and given up at any time. -/
theorem SchedInvBut.modifyCurrent {f : Thread → Thread} (hc : s.currentThread = some t)
    (hst : ∀ th, (f th).state = th.state) (hn : ∀ th, (f th).runNext = th.runNext)
    (ho : ∀ th, (f th).onRunQueue = th.onRunQueue) (hs : ∀ th, th.StackOk → (f th).StackOk) :
    SchedInv (s.modifyThread t f) :=
  h.modify ⟨.inl (hn _), ho _⟩
    (fun _ => (h.settled t).of_current hc (hst _) (ho _) (hs _ (h.stackOk t)))
    (hs _ (h.stackOk t))

end

theorem SchedInvBut.saveCurrent (frame : Nat) (h : SchedInv s) (hc : s.currentThread = some t) :
    SchedInv (s.modifyThread t (·.saveContext frame)) :=
  modifyCurrent h hc (fun _ => rfl) (fun _ => rfl) (fun _ => rfl) fun _ hs => hs

theorem SchedInvBut.dropCurrent (h : SchedInv s) (hc : s.currentThread = some t) :
    SchedInv (s.modifyThread t (·.dropContext)) :=
  modifyCurrent h hc (fun _ => rfl) (fun _ => rfl) (fun _ => rfl) fun _ hs => hs

/-- Save `frame` for the current thread `c` and switch to `d`; the context of `d`
is still there. -/
def saveAndSwitch (s : SchedState) (frame : Nat) (c d : ThreadRef) : SchedState :=
  (s.modifyThread c (·.saveContext frame)).switchCurrent d c

theorem saveAndSwitch_thread (hdc : d ≠ c) (u : ThreadRef) :
    (s.saveAndSwitch frame c d).thread u =
      if u = d then (s.thread u).setState .running
      else if u = c then ((s.thread u).saveContext frame).setState .ready else s.thread u := by
  rw [saveAndSwitch, SchedInvBut.switchCurrent_thread hdc]
  by_cases hu : u = c
  · subst hu
    simp [hdc.symm]
  · simp [hu]

theorem SchedInvBut.saveAndSwitch (h : SchedInv s) (hc : s.currentThread = some c)
    (hframe : SchedulerInterruptFrameValid (s.thread c) frame) (hd : s.Eligible (some c) d) :
    SchedInv (s.saveAndSwitch frame c d) := by
  have hdc := hd.ne
  have h1 := saveCurrent frame h hc
  have hact := activate h1 hc hdc (by simpa [hdc] using hd.2.1)
  refine hact.settle ?_
  show Thread.Settled (some d) c ((s.saveAndSwitch frame c d).thread c)
  have hon := (h.settled c).onQueue hc
  rw [saveAndSwitch_thread hdc, if_neg hdc.symm, if_pos rfl]
  exact
    { running := iff_of_false (by simp) fun he => hdc (Option.some.inj he)
      onQueue := fun _ => hon
      queued := fun _ _ => ⟨rfl, Thread.saveContext_savedContext _ hframe⟩
      blocked := fun hb => by cases hb
      stack := h.stackOk c }

/-- After the switch away from `c`, `c` is unlinked and BLOCKED. -/
theorem SchedInvBut.park (h : SchedInv s) (hc : s.currentThread = some c)
    (hframe : SchedulerInterruptFrameValid (s.thread c) frame) (hd : s.Eligible (some c) d)
    (hu : (s.saveAndSwitch frame c d).schedulerUnlink c = (true, s')) :
    SchedInv ((s'.modifyThread c (·.setState .blocked)).modifyThread d (·.dropContext)) := by
  have hdc := hd.ne
  have hne : (s.saveAndSwitch frame c d).currentThread ≠ some c :=
    fun he => hdc (Option.some.inj he)
  have h1 := saveAndSwitch h hc hframe hd
  obtain ⟨h2, hself, l, hr⟩ := unlink h1 hu (.inl hne)
  have hcur : s'.currentThread = some d := hr.currentThread
  have hoff : ¬ (s'.thread c).onRunQueue := by simp [hself]
  have hsaved : (s'.thread c).SavedContext := by
    rw [hself, saveAndSwitch_thread hdc, if_neg hdc.symm, if_pos rfl]
    exact Thread.saveContext_savedContext _ hframe
  refine dropCurrent (h2.modify ⟨.inl rfl, rfl⟩ (fun _ => ?_) (h2.stackOk c)) hcur
  rw [hcur]
  exact
    { running := iff_of_false (by simp) fun he => hdc (Option.some.inj he)
      onQueue := fun he => absurd (Option.some.inj he) hdc
      queued := fun ho => absurd ho hoff
      blocked := fun _ => ⟨hoff, hsaved, by simp [hself]⟩
      stack := h2.stackOk c }

/-- From the idle context a READY queued thread becomes the running one. -/
theorem SchedInvBut.resume (h : SchedInv s) (hidle : s.idleActive)
    (hon : (s.thread t).onRunQueue) :
    SchedInv { (s.modifyThread t (·.setState .running)).setCurrent (some t) with
      idleActive := false } := by
  have hnone : s.currentThread = none := h.idle.mpr hidle
  -- the store is one that keeps the queue, with the thread exempt
  have h1 := (weaken h).modify (f := (·.setState .running))
    ⟨.inl rfl, rfl⟩ (fun hn => absurd rfl hn) (h.stackOk t)
  refine { h1 with
    queue := h1.queue.imp fun _ hl => { hl with }
    idle := iff_of_false (by simp [setCurrent]) (by simp)
    threads := fun u _ => ?_ }
  show Thread.Settled (some t) u (Function.update s.thread t _ u)
  by_cases hu : u = t
  · subst hu
    rw [Function.update_self]
    exact .start (h.stackOk u) hon
  · rw [Function.update_of_ne hu]
    exact (h.settled u).other (by simp [hnone]) fun he => hu (Option.some.inj he).symm

/-- The last thread is gone: no thread is current and the idle context runs. -/
theorem SchedInvBut.enterIdle (h : SchedInvBut (some t) s) (hc : s.currentThread = some t)
    (hoff : ¬ (s.thread t).onRunQueue) (hdead : (s.thread t).state = .dead) :
    SchedInv { s.setCurrent none with idleActive := true } := by
  refine { h with
    queue := h.queue.imp fun _ hl => { hl with }
    idle := iff_of_true rfl rfl
    threads := fun u _ => ?_ }
  show Thread.Settled none u (s.thread u)
  by_cases hu : u = t
  · subst hu
    exact .of_off (h.stackOk u) (by simp) hoff (by simp [hdead]) (by simp [hdead])
  · have hne : some t ≠ some u := fun he => hu (Option.some.inj he).symm
    exact (h.threads u hne).other (hc ▸ hne) (by simp)

/-! ### What a call can do -/

/-- What a call does to the state; `lossy` is the licence to end or unqueue a thread that
may be waiting. -/
inductive Effect (lossy : Prop) (s : SchedState) : SchedState → Prop
  | stayed : Effect lossy s s
  | preemption (b : Bool) : Effect lossy s { s with preemptionEnabled := b }
  | added {t : ThreadRef} {s' : SchedState} : s.schedulerAdd t = (true, s') → Effect lossy s s'
  | woken {t : ThreadRef} {s' : SchedState} : (s.thread t).state = .blocked →
      s.currentThread ≠ some t →
      (s.modifyThread t (·.setState .ready)).schedulerAdd t = (true, s') → Effect lossy s s'
  | removed {t : ThreadRef} {s' : SchedState} : lossy → s.currentThread ≠ some t →
      s.schedulerUnlink t = (true, s') → Effect lossy s s'
  | killed {t : ThreadRef} : ¬ s.ThreadWaitActive t → s.currentThread ≠ some t →
      ¬ (s.thread t).onRunQueue → Effect lossy s (s.modifyThread t Thread.kill)
  /-- A READY thread is unlinked first. -/
  | unqueued {t : ThreadRef} {s' : SchedState} : ¬ s.ThreadWaitActive t →
      s.currentThread ≠ some t → s.schedulerUnlink t = (true, s') →
      Effect lossy s (s'.modifyThread t Thread.kill)
  /-- The context of the current thread is saved and given up again. -/
  | saved {c : ThreadRef} (frame : Nat) : s.currentThread = some c →
      Effect lossy s ((s.modifyThread c (·.saveContext frame)).modifyThread c (·.dropContext))
  | switched {c d : ThreadRef} {frame : Nat} : s.currentThread = some c →
      SchedulerInterruptFrameValid (s.thread c) frame → s.Eligible (some c) d →
      Effect lossy s ((s.saveAndSwitch frame c d).modifyThread d (·.dropContext))
  | parked {c d : ThreadRef} {s' : SchedState} {frame : Nat} : s.currentThread = some c →
      SchedulerInterruptFrameValid (s.thread c) frame → s.Eligible (some c) d →
      (s.saveAndSwitch frame c d).schedulerUnlink c = (true, s') →
      Effect lossy s ((s'.modifyThread c (·.setState .blocked)).modifyThread d (·.dropContext))
  /-- The idle context hands over to a queued thread. -/
  | resumed {d : ThreadRef} : s.idleActive → (s.thread d).onRunQueue →
      Effect lossy s { ((s.modifyThread d (·.setState .running)).setCurrent (some d)).modifyThread d
        (·.dropContext) with idleActive := false }
  /-- The last queued thread ends, and the idle context takes over. -/
  | ended {c : ThreadRef} {s' : SchedState} : lossy → s.currentThread = some c →
      s.schedulerUnlink c = (true, s') →
      Effect lossy s { (s'.modifyThread c (fun th => (th.setState .dead).dropContext)).setCurrent
        none with idleActive := true }
  /-- The current thread ends, and another queued one goes on. -/
  | left {c d : ThreadRef} {s' : SchedState} : lossy → s.currentThread = some c → d ≠ c →
      (s.thread d).onRunQueue → (s.switchCurrent d c).schedulerUnlink c = (true, s') →
      Effect lossy s ((s'.modifyThread c (fun th => (th.setState .dead).dropContext)).modifyThread d
        (·.dropContext))

variable {lossy : Prop}

theorem Effect.inv (he : Effect lossy s s') (h : SchedInv s) : SchedInv s' := by
  cases he with
  | stayed => exact h
  | preemption b =>
    exact { h with queue := h.queue.imp fun _ hl => { hl with } }
  | added ha => exact h.add ha
  | woken hb hc ha =>
    exact (h.setReady hc ((h.settled _).blocked hb).1).add ha
  | removed _ hc hu => exact (h.unlink hu (.inl hc)).1
  | killed _ hc ho => exact h.kill hc ho
  | unqueued _ hc hu =>
    obtain ⟨h', hself, l, hr⟩ := h.unlink hu (.inl hc)
    exact h'.kill (hr.currentThread ▸ hc) (by simp [hself])
  | saved frame hc => exact (SchedInvBut.saveCurrent frame h hc).dropCurrent hc
  | switched hc hframe hd =>
    exact (h.saveAndSwitch hc hframe hd).dropCurrent rfl
  | parked hc hframe hd hu => exact h.park hc hframe hd hu
  | resumed hidle hon => exact (h.resume hidle hon).dropCurrent rfl
  | @ended c s1 _ hc hu =>
    obtain ⟨h1, hself, l, hr⟩ :=
      SchedInvBut.unlink (SchedInvBut.weaken h) hu (.inr rfl)
    have hoff : (s1.thread c).onRunQueue = false := by simp [hself]
    refine SchedInvBut.enterIdle
      (h1.modify ⟨.inl rfl, rfl⟩ (fun hn => absurd rfl hn) (h1.stackOk c)) ?_ ?_ ?_
    · exact hr.currentThread.trans hc
    · simp [hoff]
    · simp
  | @left c d s2 _ hc hdc hon hu =>
    have hne : (s.switchCurrent d c).currentThread ≠ some c := fun hd => hdc (Option.some.inj hd)
    obtain ⟨h1, hself, l, hr⟩ :=
      (h.activate hc hdc hon).unlink hu (.inl hne)
    have hoff : (s2.thread c).onRunQueue = false := by simp [hself]
    have hcur : s2.currentThread = some d := hr.currentThread
    -- the thread left behind is settled again once it is dead
    have h2 := h1.modify (f := fun th => (th.setState .dead).dropContext)
      ⟨.inl rfl, rfl⟩ (fun hn => absurd rfl hn) (h1.stackOk c)
    refine (h2.settle ?_).dropCurrent hcur
    refine .of_off (h2.stackOk c) ?_ ?_ ?_ ?_
    · rw [modifyThread_currentThread, hcur]
      exact fun hd => hdc (Option.some.inj hd)
    · simp [hoff]
    · simp
    · simp

section

variable (h : SchedInv s)
include h

theorem schedulerAdd_effect : Effect lossy s (s.schedulerAdd t).2 := by
  rcases ha : s.schedulerAdd t with ⟨b, s'⟩
  rcases h.add_cases ha with ⟨-, rfl, -⟩ | ⟨rfl, -⟩
  · exact .stayed
  · exact .added ha

theorem schedulerRemove_effect (hl : lossy) : Effect lossy s (s.schedulerRemove t).2 := by
  unfold schedulerRemove
  split_ifs with h1 h2
  · exact .stayed
  · exact .stayed
  · rw [h.threadCurrent] at h2
    rcases hu : s.schedulerUnlink t with ⟨b, s'⟩
    rcases h.unlink_cases hu with ⟨-, rfl, -⟩ | ⟨rfl, -⟩
    · exact .stayed
    · exact .removed hl (fun hc => h2 hc.symm) hu

theorem schedulerWake_effect : Effect lossy s (s.schedulerWake t).2 := by
  rcases hw : s.schedulerWake t with ⟨b, s'⟩
  rcases schedulerWake_cases h hw with ⟨-, rfl⟩ | ⟨-, -, hb, hc, hadd⟩
  · exact .stayed
  · exact .woken hb hc hadd

theorem schedulerTerminateThread_effect : Effect lossy s (s.schedulerTerminateThread t).2 := by
  have hcur : s.SchedulerCanTerminateThread t → s.currentThread ≠ some t := fun h1 hc =>
    h1.2.1 (h.threadCurrent.trans hc).symm
  unfold schedulerTerminateThread
  split_ifs with h1 h2 h3
  · exact .stayed
  · obtain ⟨s1, hs1⟩ := h.exists_unlink h3.2
    rw [hs1]
    exact .unqueued h2 (hcur h1) hs1
  · refine .killed h2 (hcur h1) fun ho => h3 ⟨?_, ho⟩
    exact ((h.settled t).queued ho (hcur h1)).1
  · exact .stayed

/-- What the search finds is another queued thread that can run. -/
theorem schedulerFindNextInterruptThread_eligible (hc : (s.thread c).onRunQueue)
    (hd : s.schedulerFindNextInterruptThread c = some d) : s.Eligible (some c) d := by
  obtain ⟨l, hl⟩ := h.queue
  rcases schedulerFindNextInterruptThread_spec hl ((hl.mem c).mpr hc) with ⟨d', hd', -, hel⟩ | ⟨hn, -⟩
  · rw [hd] at hd'
    exact Option.some.inj hd' ▸ hel
  · rw [hd] at hn
    cases hn

/-- `scheduler_switch_ready_from_interrupt` stays with the current thread, or
switches to another queued one. -/
theorem schedulerSwitchReadyFromInterrupt_effect (env : SpaceEnv) (frame : Nat) (timer : Bool) :
    Effect lossy s (s.schedulerSwitchReadyFromInterrupt env frame timer).2 := by
  unfold schedulerSwitchReadyFromInterrupt
  split_ifs with h0
  · exact .stayed
  split
  · exact .stayed
  rename_i c hc
  rw [h.threadCurrent] at hc
  split_ifs with hrun hframe
  · split
    · exact .stayed
    · rename_i d hd
      have hel := schedulerFindNextInterruptThread_eligible h hrun.2.2.1 hd
      split
      · rename_i s1 hact
        obtain rfl := threadActivate_cases hact hc hel.ne
        exact .saved frame hc
      · rename_i s1 hact
        obtain rfl := threadActivate_cases hact hc hel.ne
        exact .switched hc hframe hel
  · exact .stayed
  · exact .stayed

/-- `scheduler_block_from_interrupt` never halts. It stays with the current thread
and reports zero, or parks it and reports one. -/
theorem schedulerBlockFromInterrupt_effect (env : SpaceEnv) (frame : Nat) :
    ∃ r s', s.schedulerBlockFromInterrupt env frame = some (r, s') ∧ Effect lossy s s' ∧
      (r.rax ≠ some 1 → s'.currentThread = s.currentThread) := by
  unfold schedulerBlockFromInterrupt
  split_ifs with h0 h1
  · exact ⟨_, _, rfl, .stayed, fun _ => rfl⟩
  · exact ⟨_, _, rfl, .stayed, fun _ => rfl⟩
  split
  · exact ⟨_, _, rfl, .stayed, fun _ => rfl⟩
  rename_i c hc
  rw [h.threadCurrent] at hc
  split_ifs with h2
  · exact ⟨_, _, rfl, .stayed, fun _ => rfl⟩
  simp only [not_or, not_not] at h2
  obtain ⟨hrun, hframe⟩ := h2
  split
  · exact ⟨_, _, rfl, .stayed, fun _ => rfl⟩
  rename_i d hd
  have hel := schedulerFindNextInterruptThread_eligible h hrun.2.2.1 hd
  split
  · rename_i s1 hact
    obtain rfl := threadActivate_cases hact hc hel.ne
    exact ⟨_, _, rfl, .saved frame hc, fun _ => rfl⟩
  · rename_i s1 hact
    obtain rfl : s1 = s.saveAndSwitch frame c d := threadActivate_cases hact hc hel.ne
    have hon : ((s.saveAndSwitch frame c d).thread c).onRunQueue := by
      rw [saveAndSwitch_thread hel.ne, if_neg hel.ne.symm, if_pos rfl]
      exact hrun.2.2.1
    obtain ⟨s2, hs2⟩ := (h.saveAndSwitch hc hframe hel).exists_unlink hon
    rw [hs2]
    exact ⟨_, _, rfl, .parked hc hframe hel hs2, fun hn => absurd rfl hn⟩

end

theorem threadSchedulerActivateFromIdle_cases
    (h : s.threadSchedulerActivateFromIdle env t = (b, s')) :
    (b = false ∧ s' = s) ∨ (b = true ∧ (s.thread t).onRunQueue ∧
      s' = (s.modifyThread t (·.setState .running)).setCurrent (some t)) := by
  unfold threadSchedulerActivateFromIdle at h
  dsimp only at h
  split_ifs at h with h1 h2
  · obtain ⟨rfl, rfl⟩ := h
    exact .inl ⟨rfl, rfl⟩
  · obtain ⟨rfl, rfl⟩ := h
    exact .inl ⟨rfl, rfl⟩
  · obtain ⟨rfl, rfl⟩ := h
    simp only [not_or, not_not] at h1
    exact .inr ⟨rfl, h1.2.2.2.2.2.2.1, rfl⟩

/-- `scheduler_resume_from_idle` returns to the idle loop, or resumes a queued
thread. -/
theorem schedulerResumeFromIdle_effect
    (hr : s.schedulerResumeFromIdle env frame = some (r, s')) : Effect lossy s s' := by
  unfold schedulerResumeFromIdle at hr
  split_ifs at hr with h1 h2 h3
  · obtain ⟨-, rfl⟩ := Prod.mk.inj (Option.some.inj hr)
    exact .stayed
  · obtain ⟨-, rfl⟩ := Prod.mk.inj (Option.some.inj hr)
    exact .stayed
  · simp only [not_or, not_not] at h1
    split at hr
    · cases hr
    split at hr
    · cases hr
    · rename_i d hd _ s1 hact
      obtain ⟨-, rfl⟩ := Prod.mk.inj (Option.some.inj hr)
      rcases threadSchedulerActivateFromIdle_cases hact with ⟨⟨⟩, -⟩ | ⟨-, hon, rfl⟩
      exact .resumed h1.2 hon

theorem threadSchedulerEnterIdle_cases {top : Nat}
    (h : s.threadSchedulerEnterIdle env top = (b, s')) :
    (b = false ∧ s' = s) ∨ (b = true ∧ s' = s.setCurrent none) := by
  unfold threadSchedulerEnterIdle at h
  split at h
  · obtain ⟨rfl, rfl⟩ := h
    exact .inl ⟨rfl, rfl⟩
  · dsimp only at h
    split_ifs at h
    all_goals obtain ⟨rfl, rfl⟩ := h
    all_goals first
      | exact .inl ⟨rfl, rfl⟩
      | exact .inr ⟨rfl, rfl⟩

/-- `scheduler_exit_from_interrupt` unlinks and kills the current thread, and enters the
idle context or switches to another queued thread. -/
theorem schedulerExitFromInterrupt_effect (h : SchedInv s) (hl : lossy)
    (he : s.schedulerExitFromInterrupt env frame = some (r, s')) : Effect lossy s s' := by
  unfold schedulerExitFromInterrupt at he
  split at he
  · cases he
  split at he
  · cases he
  rename_i c hc
  rw [h.threadCurrent] at hc
  split_ifs at he with h1 h2 h3
  · -- the last queued thread: the idle context takes over
    split at he
    · cases he
    split at he
    · cases he
    rename_i s1 hs1
    split at he
    · cases he
    rename_i s2 hs2
    obtain ⟨-, rfl⟩ := Prod.mk.inj (Option.some.inj he)
    rcases threadSchedulerEnterIdle_cases hs2 with ⟨⟨⟩, -⟩ | ⟨-, rfl⟩
    exact .ended hl hc hs1
  · simp only [not_or, not_not] at h1
    split at he
    · cases he
    rename_i d hd
    have hel := schedulerFindNextInterruptThread_eligible h h1.1.2.2.1 hd
    split at he
    · cases he
    rename_i s1 hact
    split at he
    · cases he
    rename_i s2 hs2
    obtain ⟨-, rfl⟩ := Prod.mk.inj (Option.some.inj he)
    obtain rfl := threadActivate_cases hact hc hel.ne
    exact .left hl hc hel.ne hel.2.1 hs2

theorem schedulerReschedule_effect {operation : Nat} (h : SchedInv s) (hl : operation = 3 → lossy)
    (hr : s.schedulerReschedule env frame operation = some (r, s')) : Effect lossy s s' := by
  unfold schedulerReschedule at hr
  split_ifs at hr with h0
  · obtain ⟨-, rfl⟩ := Prod.mk.inj (Option.some.inj hr)
    exact .stayed
  split at hr
  · have he : Effect lossy s _ := schedulerSwitchReadyFromInterrupt_effect h env frame false
    rwa [Option.some.inj hr] at he
  · obtain ⟨r', s'', hb, he, -⟩ := schedulerBlockFromInterrupt_effect h env frame
    obtain ⟨-, rfl⟩ := Prod.mk.inj (Option.some.inj (hr.symm.trans hb))
    exact he
  · exact schedulerExitFromInterrupt_effect h (hl rfl) hr
  · obtain ⟨-, rfl⟩ := Prod.mk.inj (Option.some.inj hr)
    exact .stayed

theorem schedulerPreempt_effect (h : SchedInv s)
    (hr : s.schedulerPreempt env frame = some (r, s')) : Effect lossy s s' := by
  unfold schedulerPreempt at hr
  split_ifs at hr with h0 h1
  · exact schedulerResumeFromIdle_effect hr
  · obtain ⟨-, rfl⟩ := Prod.mk.inj (Option.some.inj hr)
    exact .stayed
  · have he : Effect lossy s _ := schedulerSwitchReadyFromInterrupt_effect h env frame true
    rwa [Option.some.inj hr] at he

theorem schedulerPreemptionEnable_effect : Effect lossy s s.schedulerPreemptionEnable.2 := by
  unfold schedulerPreemptionEnable
  split
  · exact .stayed
  split
  · exact .stayed
  split_ifs
  · exact .stayed
  · exact .stayed
  · exact .preemption true

theorem schedulerPreemptionDisable_effect : Effect lossy s s.schedulerPreemptionDisable.2 := by
  unfold schedulerPreemptionDisable
  split
  · exact .stayed
  · exact .preemption false

end Operations

end SchedState

end JcosKernel
