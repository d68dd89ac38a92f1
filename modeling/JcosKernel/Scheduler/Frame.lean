import JcosKernel.Scheduler.Runs

/-!
# JcosKernel.Scheduler.Frame

What the scheduler leaves alone, for the components that park threads and wait for
them.

A thread is `Present` while it is parked or queued: it can then be made ready. The
scheduler never touches the wait of a thread, and the calls that are made on behalf
of other threads (`SchedCall.Bystander`) never lose a thread with an active wait.
-/

namespace JcosKernel

open Lib

/-- What a call may do to one thread whose wait is active if `waiting` holds. -/
structure Thread.Steady (waiting : Prop) (th th' : Thread) : Prop where
  id : th'.id = th.id
  wait : th'.wait = th.wait
  present : waiting → (th.state = .blocked ∨ th.onRunQueue) →
    (th'.state = .blocked ∨ th'.onRunQueue)

theorem Thread.Steady.refl (waiting : Prop) (th : Thread) : th.Steady waiting th :=
  ⟨rfl, rfl, fun _ h => h⟩

namespace SchedState

variable {env : SpaceEnv} {s s' s'' : SchedState} {t : ThreadRef} {frame : Nat}

/-- Parked, or on the run queue. -/
def Present (s : SchedState) (t : ThreadRef) : Prop :=
  (s.thread t).state = .blocked ∨ (s.thread t).onRunQueue

/-- Identities and waits are as before, and no thread with an active wait is lost. -/
structure Keeps (s s' : SchedState) : Prop where
  storage : s'.storage = s.storage
  initialized : s'.initialized = s.initialized
  threads : ∀ t, (s.thread t).Steady (s.ThreadWaitActive t) (s'.thread t)

variable {f : Thread → Thread} {r : TrapReturn} {x : Option ThreadRef} {c d : ThreadRef}

namespace Keeps

theorem refl (s : SchedState) : Keeps s s := ⟨rfl, rfl, fun _ => .refl _ _⟩

theorem threadWaitActive (h : Keeps s s') (t : ThreadRef) :
    s'.ThreadWaitActive t ↔ s.ThreadWaitActive t := by
  have hw := (h.threads t).wait
  simp only [Thread.wait, Wait.mk.injEq] at hw
  simp only [ThreadState.ThreadWaitActive, ThreadState.threadStorageLive, h.storage,
    h.initialized, (h.threads t).id, hw]

theorem trans (h : Keeps s s') (h' : Keeps s' s'') : Keeps s s'' where
  storage := h'.storage.trans h.storage
  initialized := h'.initialized.trans h.initialized
  threads t :=
    { id := (h'.threads t).id.trans (h.threads t).id
      wait := (h'.threads t).wait.trans (h.threads t).wait
      present := fun ha hp =>
        (h'.threads t).present ((h.threadWaitActive t).mpr ha) ((h.threads t).present ha hp) }

theorem present (h : Keeps s s') (ha : s.ThreadWaitActive t) (hp : s.Present t) : s'.Present t :=
  (h.threads t).present ha hp

/-- A store to one thread. -/
theorem modifyThread (h : (s.thread t).Steady (s.ThreadWaitActive t) (f (s.thread t))) :
    Keeps s (s.modifyThread t f) where
  storage := rfl
  initialized := rfl
  threads u := by
    by_cases hu : u = t
    · subst hu
      simpa using h
    · simpa [hu] using Thread.Steady.refl _ _

/-- A store that changes neither the state nor the queue membership of a thread. -/
theorem modifyContext (hid : ∀ th, (f th).id = th.id) (hw : ∀ th, (f th).wait = th.wait)
    (hst : ∀ th, (f th).state = th.state) (hon : ∀ th, (f th).onRunQueue = th.onRunQueue) :
    Keeps s (s.modifyThread t f) :=
  modifyThread ⟨hid _, hw _, fun _ h => by rwa [hst, hon]⟩

theorem saveContext (frame : Nat) : Keeps s (s.modifyThread t (·.saveContext frame)) :=
  modifyContext (fun _ => rfl) (fun _ => rfl) (fun _ => rfl) fun _ => rfl

theorem dropContext : Keeps s (s.modifyThread t (·.dropContext)) :=
  modifyContext (fun _ => rfl) (fun _ => rfl) (fun _ => rfl) fun _ => rfl

/-- The state of a queued thread may change. -/
theorem setState {st : ThreadRunState} (hon : (s.thread t).onRunQueue) :
    Keeps s (s.modifyThread t (·.setState st)) :=
  modifyThread ⟨rfl, rfl, fun _ _ => .inr hon⟩

theorem setCurrent (c : Option ThreadRef) : Keeps s (s.setCurrent c) :=
  ⟨rfl, rfl, fun _ => .refl _ _⟩

/-- Relinking keeps every thread that stays on the queue. -/
theorem of_relinked {l : List ThreadRef} (hr : Relinked s s' l)
    (hon : ∀ u, (s.thread u).onRunQueue → (s'.thread u).onRunQueue) : Keeps s s' where
  storage := hr.storage
  initialized := hr.initialized
  threads u := by
    have hu := hon u
    rcases hr.links u with he | ⟨-, next, on, he⟩
    · rw [he]
      exact .refl _ _
    · rw [he] at hu ⊢
      exact ⟨rfl, rfl, fun _ hp => hp.imp_right hu⟩

/-- A blocked thread that becomes READY is back on the queue. -/
theorem add (h : SchedInv s) (ha : s.schedulerAdd t = (true, s')) :
    Keeps s s' ∧ (s'.thread t).onRunQueue := by
  rcases h.add_cases ha with ⟨⟨⟩, -⟩ | ⟨-, -, l, hl, hq, hr⟩
  refine ⟨of_relinked hr fun u hu => ?_, (hq.mem t).mp (by simp)⟩
  exact (hq.mem u).mp (List.mem_append_left _ ((hl.mem u).mpr hu))

/-- Unlinking loses the unlinked thread only. -/
theorem unlink (h : SchedInvBut x s) (hu : s.schedulerUnlink t = (true, s')) :
    s'.storage = s.storage ∧ s'.initialized = s.initialized ∧
      (∀ u, (s'.thread u).id = (s.thread u).id ∧ (s'.thread u).wait = (s.thread u).wait ∧
        (s'.thread u).state = (s.thread u).state) ∧
      ∀ u, u ≠ t → ((s'.thread u).onRunQueue ↔ (s.thread u).onRunQueue) := by
  rcases h.unlink_cases hu with ⟨⟨⟩, -⟩ | ⟨-, -, l, hl, hq, hr, -⟩
  refine ⟨hr.storage, hr.initialized, fun u => ?_, fun u hut => ?_⟩
  · rcases hr.links u with he | ⟨-, next, on, he⟩
    all_goals
      rw [he]
      exact ⟨rfl, rfl, rfl⟩
  · rw [← hq.mem, ← hl.mem]
    simp [hut]

/-- Unlinking a thread and storing to it afterwards, when the store makes up for the
lost queue membership or no wait is active. -/
theorem unlink_modify (h : SchedInvBut x s) (hu : s.schedulerUnlink t = (true, s'))
    (hid : ∀ th, (f th).id = th.id) (hw : ∀ th, (f th).wait = th.wait)
    (hp : s.ThreadWaitActive t → (f (s'.thread t)).state = .blocked) :
    Keeps s (s'.modifyThread t f) := by
  obtain ⟨hstorage, hinit, hsame, hon⟩ := unlink h hu
  refine ⟨hstorage, hinit, fun u => ?_⟩
  by_cases hut : u = t
  · subst hut
    rw [modifyThread_thread, Function.update_self]
    exact ⟨(hid _).trans (hsame u).1, (hw _).trans (hsame u).2.1, fun ha _ => .inl (hp ha)⟩
  · rw [modifyThread_thread, Function.update_of_ne hut]
    refine ⟨(hsame u).1, (hsame u).2.1, fun _ hpres => ?_⟩
    rwa [(hsame u).2.2, hon u hut]

theorem switchCurrent (hc : (s.thread c).onRunQueue) (hd : (s.thread d).onRunQueue) (hdc : d ≠ c) :
    Keeps s (s.switchCurrent d c) := by
  have hd' : ((s.modifyThread c (·.setState .ready)).thread d).onRunQueue := by simpa [hdc] using hd
  exact ((setState hc).trans (setState hd')).trans (setCurrent _)

theorem saveAndSwitch (frame : Nat) (hc : (s.thread c).onRunQueue) (hd : (s.thread d).onRunQueue)
    (hdc : d ≠ c) : Keeps s (s.saveAndSwitch frame c d) := by
  refine (saveContext frame).trans (switchCurrent ?_ ?_ hdc)
  · simpa using hc
  · simpa [hdc] using hd

end Keeps

/-! ### The calls -/

/-- Without the licence no thread with an active wait is lost. -/
theorem Effect.keeps (he : Effect False s s') (h : SchedInv s) : Keeps s s' := by
  cases he with
  | stayed => exact .refl _
  | preemption b => exact ⟨rfl, rfl, fun _ => .refl _ _⟩
  | added ha => exact (Keeps.add h ha).1
  | @woken t _ hb hc hadd =>
    have h1 := h.setReady hc ((h.settled t).blocked hb).1
    obtain ⟨hk, hon⟩ := Keeps.add h1 hadd
    -- between the two stores the thread is READY and off the queue
    refine ⟨hk.storage, hk.initialized, fun u => ?_⟩
    have hu := hk.threads u
    by_cases hut : u = t
    · subst hut
      rw [modifyThread_thread, Function.update_self] at hu
      exact ⟨hu.id, hu.wait, fun _ _ => .inr hon⟩
    · rw [modifyThread_thread, Function.update_of_ne hut] at hu
      refine ⟨hu.id, hu.wait, fun ha hp => hu.present ?_ hp⟩
      simpa [ThreadState.ThreadWaitActive, ThreadState.threadStorageLive, hut] using ha
  | removed hl | ended hl | left hl => exact hl.elim
  | killed hw => exact Keeps.modifyThread ⟨rfl, rfl, fun ha => absurd ha hw⟩
  | unqueued hw _ hu =>
    exact Keeps.unlink_modify h hu (fun _ => rfl) (fun _ => rfl) fun ha => absurd ha hw
  | saved frame => exact (Keeps.saveContext frame).trans .dropContext
  | @switched c _ frame hc _ hd =>
    exact (Keeps.saveAndSwitch frame ((h.settled c).onQueue hc) hd.2.1
      hd.ne).trans .dropContext
  | @parked c _ _ frame hc hframe hd hu =>
    have hsw := Keeps.saveAndSwitch frame ((h.settled c).onQueue hc) hd.2.1
      hd.ne
    have hpark := Keeps.unlink_modify (f := (·.setState .blocked))
      (h.saveAndSwitch hc hframe hd) hu (fun _ => rfl) (fun _ => rfl) fun _ => rfl
    exact (hsw.trans hpark).trans .dropContext
  | @resumed d _ hon =>
    have hk : Keeps s (((s.modifyThread d (·.setState .running)).setCurrent (some d)).modifyThread d
      (·.dropContext)) := ((Keeps.setState hon).trans (.setCurrent _)).trans .dropContext
    exact ⟨hk.storage, hk.initialized, hk.threads⟩

/-- A call on behalf of other threads loses no thread with an active wait. -/
theorem schedCall_keeps {c : SchedCall} (h : SchedInv s) (hc : c.Bystander)
    (he : c.exec env s = some s') : Keeps s s' := by
  have heff := schedCall_effect h he
  rw [eq_false (not_not_intro hc)] at heff
  exact heff.keeps h

theorem schedulerWake_currentThread (h : SchedInv s) (hw : s.schedulerWake t = (true, s')) :
    s'.currentThread = s.currentThread := by
  rcases schedulerWake_cases h hw with ⟨⟨⟩, -⟩ | ⟨-, -, hb, hc, hadd⟩
  have h1 := h.setReady hc ((h.settled t).blocked hb).1
  rcases h1.add_cases hadd with ⟨⟨⟩, -⟩ | ⟨-, -, l, -, -, hr⟩
  exact hr.currentThread

/-! ### Waiting -/

/-- `scheduler_block_current` never halts; when it reports failure, the current thread
still runs. -/
theorem schedulerBlockCurrent_spec (env : SpaceEnv) (frame : Nat) (h : SchedInv s) :
    ∃ b s', s.schedulerBlockCurrent env frame = some (b, s') ∧ SchedInv s' ∧ Keeps s s' ∧
      (b = false → s'.currentThread = s.currentThread) := by
  unfold schedulerBlockCurrent
  split_ifs with h0
  · exact ⟨_, _, rfl, h, .refl _, fun _ => rfl⟩
  split
  · exact ⟨_, _, rfl, h, .refl _, fun _ => rfl⟩
  split_ifs with h1
  · unfold schedulerReschedule
    split_ifs
    · exact ⟨_, _, rfl, h, .refl _, fun _ => rfl⟩
    · obtain ⟨r, s', hr, he, hsame⟩ := schedulerBlockFromInterrupt_effect h env frame
      rw [hr]
      refine ⟨_, s', rfl, he.inv h, he.keeps h, fun hf => hsame fun h1 => ?_⟩
      -- a reported zero is not the one of a parked thread
      simp [h1] at hf
  · exact ⟨_, _, rfl, h, .refl _, fun _ => rfl⟩

/-- The same for `scheduler_wait_current`. -/
theorem schedulerWaitCurrent_spec (env : SpaceEnv) (frame : Nat) (h : SchedInv s) :
    ∃ b s', s.schedulerWaitCurrent env frame = some (b, s') ∧ SchedInv s' ∧ Keeps s s' ∧
      (b = false → s'.currentThread = s.currentThread) := by
  unfold schedulerWaitCurrent
  repeat' split
  all_goals first
    | exact schedulerBlockCurrent_spec env frame h
    | exact ⟨_, _, rfl, h, .refl _, fun _ => rfl⟩

end SchedState

end JcosKernel
