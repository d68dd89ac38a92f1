import JcosKernel.Scheduler.Inv

/-!
# JcosKernel.Scheduler.Runs

The scheduler over whole runs: `scheduler_init`, and then its operations and
interrupt entries in any order, interleaved with whatever the rest of the kernel
does to the threads (`SchedElsewhere`).
-/

namespace JcosKernel

open Lib

/-- The calls and interrupt entries of `scheduler.c`. -/
inductive SchedCall
  | add (t : ThreadRef)
  | remove (t : ThreadRef)
  | wake (t : ThreadRef)
  | terminateThread (t : ThreadRef)
  /-- The software trap; `operation` is YIELD, BLOCK, EXIT or anything else. -/
  | reschedule (frame operation : Nat)
  /-- The timer interrupt. -/
  | preempt (frame : Nat)
  /-- `scheduler_terminate_current_from_interrupt`. -/
  | terminateCurrent (frame : Nat)
  | preemptionEnable
  | preemptionDisable
  deriving Repr, DecidableEq

/-- The state that a call leaves; `none` when the machine halts. -/
def SchedCall.exec (env : SpaceEnv) (s : SchedState) : SchedCall → Option SchedState
  | add t => some (s.schedulerAdd t).2
  | remove t => some (s.schedulerRemove t).2
  | wake t => some (s.schedulerWake t).2
  | terminateThread t => some (s.schedulerTerminateThread t).2
  | reschedule frame operation => (s.schedulerReschedule env frame operation).map Prod.snd
  | preempt frame => (s.schedulerPreempt env frame).map Prod.snd
  | terminateCurrent frame => (s.schedulerExitFromInterrupt env frame).map Prod.snd
  | preemptionEnable => some s.schedulerPreemptionEnable.2
  | preemptionDisable => some s.schedulerPreemptionDisable.2

/-- The calls that do not end or unqueue a thread which may be waiting: all but
`scheduler_remove` and the two ways in which the current thread ends itself. -/
def SchedCall.Bystander : SchedCall → Prop
  | .remove _ => False
  | .terminateCurrent _ => False
  | .reschedule _ operation => operation ≠ 3
  | _ => True

namespace Thread

/-- Neither queued nor running nor blocked: created, removed from the queue, dead
or no thread at all. -/
def Inert (th : Thread) : Prop :=
  ¬ th.onRunQueue ∧ th.state ≠ .running ∧ th.state ≠ .blocked

/-- At most the wait fields and the capability count differ. -/
def SameContext (th th' : Thread) : Prop :=
  th' = { th.setWait th'.wait with capabilityRefs := th'.capabilityRefs }

end Thread

/-- What the rest of the kernel does between two scheduler entries. Waits and
capability counts may change at any time; everything else of a thread only while
it is inert, where it is created, prepared and destroyed. -/
structure SchedElsewhere (s s' : SchedState) : Prop where
  rest : s' = { s with toThreadState := s'.toThreadState }
  currentThread : s'.currentThread = s.currentThread
  initialized : s'.initialized = s.initialized
  threads : ∀ t, (s.thread t).SameContext (s'.thread t) ∨
    ((s.thread t).Inert ∧ (s'.thread t).Inert ∧ (s'.thread t).StackOk)

/-- One step: a call, with the address spaces as they are at that moment, or
something elsewhere. -/
inductive SchedStep : SchedState → Option SchedCall → SchedState → Prop
  | call {s s' : SchedState} (env : SpaceEnv) (c : SchedCall) :
      c.exec env s = some s' → SchedStep s (some c) s'
  | elsewhere {s s' : SchedState} : SchedElsewhere s s' → SchedStep s none s'

/-- The threads before `scheduler_init`: nothing is queued, nothing is blocked and
only the boot thread may be running. -/
structure SchedBoot (s : SchedState) : Prop where
  off : ∀ t, ¬ (s.thread t).onRunQueue
  running : ∀ t, (s.thread t).state = .running → s.currentThread = some t
  blocked : ∀ t, (s.thread t).state ≠ .blocked
  stackOk : ∀ t, (s.thread t).StackOk

/-- The run queue, the current thread and the thread states agree. -/
structure SchedConsistent (s : SchedState) : Prop where
  /-- From head to tail the queue is one circular list of `runCount` different
  threads: exactly those with `on_run_queue` set. -/
  queue : ∃ l : List ThreadRef, l.Nodup ∧ Ring (fun t => (s.thread t).runNext) l ∧
    s.runHead = l.head? ∧ s.runTail = l.getLast? ∧ s.runCount = l.length ∧
    ∀ t, t ∈ l ↔ (s.thread t).onRunQueue
  /-- Outside the idle context exactly one thread is RUNNING, the current one. -/
  active : ¬ s.idleActive → ∃ c, s.threadCurrent = some c ∧ (s.thread c).onRunQueue ∧
    ∀ t, (s.thread t).state = .running ↔ t = c
  idle : s.idleActive → s.threadCurrent = none ∧ ∀ t, (s.thread t).state ≠ .running
  /-- Every other queued thread is READY with a context inside its own stack. -/
  queued : ∀ t, (s.thread t).onRunQueue → s.threadCurrent ≠ some t →
    (s.thread t).state = .ready ∧ (s.thread t).interruptContextReady ∧
      (s.thread t).kernelStackBase ≤ (s.thread t).interruptRsp ∧
      (s.thread t).interruptRsp + contextSize ≤ (s.thread t).kernelStackTop
  blocked : ∀ t, (s.thread t).state = .blocked →
    ¬ (s.thread t).onRunQueue ∧ (s.thread t).runNext = none ∧
      (s.thread t).interruptContextReady ∧
      (s.thread t).kernelStackBase ≤ (s.thread t).interruptRsp ∧
      (s.thread t).interruptRsp + contextSize ≤ (s.thread t).kernelStackTop
  empty : s.runCount = 0 → s.idleActive

variable {stack : Option (Nat × Nat)} {env : SpaceEnv}

namespace SchedState

variable {s s' : SchedState}

section

variable (h : SchedInv s)
include h

theorem SchedInvBut.consistent : SchedConsistent s where
  queue := by
    obtain ⟨l, hl⟩ := h.queue
    exact ⟨l, hl.nodup, hl.ring, hl.head, hl.tail, hl.count, hl.mem⟩
  active hi := by
    cases hc : s.currentThread with
    | none => exact absurd (h.idle.mp hc) hi
    | some c =>
      refine ⟨c, h.threadCurrent.trans hc, (h.settled c).onQueue hc, fun t => ?_⟩
      rw [(h.settled t).running, hc, Option.some.injEq, eq_comm]
  idle hi := by
    have hnone := h.idle.mpr hi
    refine ⟨h.threadCurrent.trans hnone, fun t hr => ?_⟩
    simpa [hnone] using (h.settled t).running.mp hr
  queued t ho hc := by
    rw [h.threadCurrent] at hc
    obtain ⟨hready, hsaved⟩ := (h.settled t).queued ho hc
    exact ⟨hready, hsaved.1, hsaved.inside (h.stackOk t)⟩
  blocked t hb := by
    obtain ⟨hoff, hsaved, hnext⟩ := (h.settled t).blocked hb
    exact ⟨hoff, hnext, hsaved.1, hsaved.inside (h.stackOk t)⟩
  empty h0 := by
    obtain ⟨l, hl⟩ := h.queue
    exact h.idle_of_nil (hl.runCount_eq_zero.mp h0 ▸ hl)

/-- What a call does. -/
theorem schedCall_effect {c : SchedCall} (he : c.exec env s = some s') :
    Effect (¬ c.Bystander) s s' := by
  cases c with
  | add t => exact Option.some.inj he ▸ schedulerAdd_effect h
  | remove t => exact Option.some.inj he ▸ schedulerRemove_effect h id
  | wake t => exact Option.some.inj he ▸ schedulerWake_effect h
  | terminateThread t => exact Option.some.inj he ▸ schedulerTerminateThread_effect h
  | reschedule frame operation =>
    obtain ⟨⟨r, s1⟩, hr, rfl⟩ := Option.map_eq_some_iff.mp he
    exact schedulerReschedule_effect h (fun h3 hb => hb h3) hr
  | preempt frame =>
    obtain ⟨⟨r, s1⟩, hr, rfl⟩ := Option.map_eq_some_iff.mp he
    exact schedulerPreempt_effect h hr
  | terminateCurrent frame =>
    obtain ⟨⟨r, s1⟩, hr, rfl⟩ := Option.map_eq_some_iff.mp he
    exact schedulerExitFromInterrupt_effect h id hr
  | preemptionEnable => exact Option.some.inj he ▸ schedulerPreemptionEnable_effect
  | preemptionDisable => exact Option.some.inj he ▸ schedulerPreemptionDisable_effect

theorem schedCall_inv {c : SchedCall} (he : c.exec env s = some s') : SchedInv s' :=
  (schedCall_effect h he).inv h

theorem schedElsewhere_inv (he : SchedElsewhere s s') : SchedInv s' := by
  -- the threads that may change freely are off the queue, before and after
  have hlink : ∀ t, ((s'.thread t).runNext = (s.thread t).runNext ∨ ¬ (s.thread t).onRunQueue) ∧
      (s'.thread t).onRunQueue = (s.thread t).onRunQueue := by
    intro t
    rcases he.threads t with hs | ⟨hin, hin', -⟩
    · rw [hs]
      exact ⟨.inl rfl, rfl⟩
    · refine ⟨.inr hin.1, ?_⟩
      have h1 := hin.1
      have h2 := hin'.1
      simp only [Bool.not_eq_true] at h1 h2
      rw [h1, h2]
  obtain ⟨l, hl⟩ := h.queue
  have hrest := he.rest
  have hq : QueueInv s' l := by
    refine hl.congr (fun t => ?_) (fun t => (hlink t).2) (by rw [hrest]) (by rw [hrest])
      (by rw [hrest])
    rw [hl.mem]
    exact (hlink t).1
  refine ⟨he.initialized ▸ h.initialized, by rw [hrest]; exact h.schedInitialized, ⟨l, hq⟩, ?_,
    fun t _ => ?_, fun t => ?_⟩
  · have hi : s'.idleActive = s.idleActive := by rw [hrest]
    rw [he.currentThread, hi]
    exact h.idle
  · have hset := h.settled t
    rw [he.currentThread]
    rcases he.threads t with hs | ⟨hin, hin', hst⟩
    · rw [hs]
      exact { hset with }
    · have hc : s.currentThread ≠ some t := fun hc => hin.1 (hset.onQueue hc)
      exact .of_off hst hc hin'.1 hin'.2.1 hin'.2.2
  · rcases he.threads t with hs | ⟨-, -, hst⟩
    · rw [hs]
      exact h.stackOk t
    · exact hst

theorem schedStep_inv {e : Option SchedCall} (hs : SchedStep s e s') : SchedInv s' := by
  cases hs with
  | call env c he => exact schedCall_inv h he
  | elsewhere he => exact schedElsewhere_inv h he

end

/-- `scheduler_init` succeeds on a running boot thread and makes it the whole queue. -/
theorem schedulerInit_cases (h : s.schedulerInit env stack = (true, s')) :
    ∃ c, s.initialized ∧ s.currentThread = some c ∧ (s.thread c).state = .running ∧
      s'.toThreadState = s.toThreadState.modify c (·.relink (some c) true) ∧
      s'.runHead = some c ∧ s'.runTail = some c ∧ s'.runCount = 1 ∧ s'.schedInitialized ∧
      s'.idleActive = false := by
  unfold schedulerInit at h
  split at h
  · cases h
  split at h
  · cases h
  rename_i c hc
  have hinit : s.initialized := by
    by_contra hn
    simp [ThreadState.threadCurrent, hn] at hc
  have hcur : s.currentThread = some c := by simpa [ThreadState.threadCurrent, hinit] using hc
  split at h
  · cases h
  rename_i h1
  simp only [not_or, not_not] at h1
  split at h
  · cases h
  rename_i s1 hs1
  -- preparing the idle stack leaves the threads alone
  have hidle : s1.toThreadState = s.toThreadState := by
    unfold schedulerIdleStackInit at hs1
    split at hs1
    · cases hs1
    split at hs1
    · cases hs1
    dsimp only at hs1
    split_ifs at hs1
    · cases hs1
    · cases hs1
    · rw [← (Prod.mk.inj hs1).2]
  obtain ⟨-, rfl⟩ := Prod.mk.inj h
  refine ⟨c, hinit, hcur, h1.2.1, ?_, rfl, rfl, rfl, rfl, rfl⟩
  rw [← hidle]
  rfl

theorem schedulerInit_inv (h : SchedBoot s) (hi : s.schedulerInit env stack = (true, s')) :
    SchedInv s' := by
  obtain ⟨c, hinit, hcur, hrun, hthreads, hhead, htail, hcount, hsched, hactive⟩ :=
    schedulerInit_cases hi
  have hth : ∀ t, s'.thread t = if t = c then (s.thread t).relink (some c) true else s.thread t := by
    intro t
    rw [hthreads]
    by_cases ht : t = c
    · subst ht
      simp
    · simp [ht]
  have hcur' : s'.currentThread = some c := by
    rw [hthreads]
    exact hcur
  have hqueue : QueueInv s' [c] := by
    refine ⟨by simp, Ring.singleton (by simp [hth]), hhead, htail, hcount, fun t => ?_⟩
    by_cases ht : t = c
    · simp [hth, ht]
    · simpa [hth, ht] using h.off t
  refine ⟨?_, hsched, ⟨[c], hqueue⟩, by simp [hcur', hactive], fun t _ => ?_, fun t => ?_⟩
  · rw [hthreads]
    exact hinit
  · rw [hcur', hth]
    split_ifs with ht
    · subst ht
      exact
        { running := iff_of_true hrun rfl
          onQueue := fun _ => rfl
          queued := fun _ hn => absurd rfl hn
          blocked := fun hb => by simp [hrun] at hb
          stack := h.stackOk t }
    · have hne : some c ≠ some t := fun he => ht (Option.some.inj he).symm
      refine .of_off (h.stackOk t) hne (h.off t) (fun hr => hne ?_) (h.blocked t)
      rw [← hcur]
      exact h.running t hr
  · rw [hth]
    split_ifs
    · exact h.stackOk t
    · exact h.stackOk t

end SchedState

/-- **The scheduler is consistent in every reachable state**: after
`scheduler_init`, whatever is called, trapped and interrupted in whatever order. -/
theorem scheduler_consistent_of_run {env : SpaceEnv} {stack : Option (Nat × Nat)}
    {s₀ s₁ s : SchedState} {es : List (Option SchedCall)} (hboot : SchedBoot s₀)
    (hinit : s₀.schedulerInit env stack = (true, s₁)) (hrun : Run SchedStep s₁ es s) :
    SchedConsistent s := by
  have hinv : s.SchedInv :=
    hrun.invariant (SchedState.schedulerInit_inv hboot hinit) fun _ _ _ h hs =>
      SchedState.schedStep_inv h hs
  exact hinv.consistent

/-! ### A run on two threads -/

/-- Calls executed one after another. -/
def execCalls (env : SpaceEnv) (s : SchedState) (cs : List SchedCall) : Option SchedState :=
  cs.foldlM (fun s c => c.exec env s) s

theorem run_of_execCalls {cs : List SchedCall} {s s' : SchedState}
    (h : execCalls env s cs = some s') : Run SchedStep s (cs.map some) s' := by
  induction cs generalizing s with
  | nil =>
    obtain rfl : s = s' := by simpa [execCalls] using h
    exact .nil s
  | cons c cs ih =>
    simp only [execCalls, List.foldlM_cons, Option.bind_eq_bind, Option.bind_eq_some_iff] at h
    obtain ⟨s1, hc, hrest⟩ := h
    exact (Run.single (.call env c hc)).append (ih hrest)

/-- The boot thread `1` and a prepared thread `2` in a 16 KiB stack each. -/
def bootSched : SchedState where
  thread := fun t =>
    if t = 1 then { Thread.zero with
      id := 1, process := some 1, state := .running, kernelStackBase := 0x10000,
      kernelStackTop := 0x14000, kernelStackSize := 0x4000 }
    else if t = 2 then { Thread.zero with
      id := 2, process := some 1, state := .ready, kernelStackBase := 0x20000,
      kernelStackTop := 0x24000, kernelStackSize := 0x4000, interruptRsp := 0x23000,
      interruptContextReady := true }
    else Thread.zero
  currentThread := some 1
  nextThreadId := 3
  nextWaitId := 1
  initialized := true
  storage := fun i => if i.val = 0 then some 1 else if i.val = 1 then some 2 else none
  unpublishedStack := 0
  unpublishedStackVirtual := 0
  runHead := none
  runTail := none
  runCount := 0
  schedInitialized := false
  preemptionEnabled := false
  idleStackPhysical := 0
  idleStackBase := 0
  idleStackTop := 0
  idleContextReady := false
  idleActive := false

def oneSpace : SpaceEnv := ⟨fun _ => 0x1000, 0x1000, true⟩

theorem bootSched_boot : SchedBoot bootSched where
  off t := by
    simp only [bootSched]
    split_ifs <;> simp [Thread.zero]
  running t := by
    simp only [bootSched]
    split_ifs with h1 h2 <;> simp [Thread.zero, h1]
  blocked t := by
    simp only [bootSched]
    split_ifs <;> simp [Thread.zero]
  stackOk t := by
    simp only [bootSched]
    split_ifs <;> decide

/-- Thread `2` is queued and switched to, thread `1` exits, thread `2` exits: the
queue is empty and the idle context runs. -/
theorem scheduler_consistent_after_exits :
    ∃ s, SchedConsistent s ∧ s.idleActive = true ∧ s.runCount = 0 := by
  have hcalls : ∃ s, execCalls oneSpace (bootSched.schedulerInit oneSpace (some (0x5000, 0x30000))).2
      [.add 2, .reschedule 0x13000 1, .reschedule 0x22000 1, .reschedule 0x13000 3,
        .reschedule 0x22000 3] = some s ∧ s.idleActive = true ∧ s.runCount = 0 := by
    refine ⟨(execCalls oneSpace (bootSched.schedulerInit oneSpace (some (0x5000, 0x30000))).2
      [.add 2, .reschedule 0x13000 1, .reschedule 0x22000 1, .reschedule 0x13000 3,
        .reschedule 0x22000 3]).get (by decide +kernel), (Option.some_get _).symm, ?_, ?_⟩
    · decide +kernel
    · decide +kernel
  obtain ⟨s, hs, hidle, hcount⟩ := hcalls
  have hinit : bootSched.schedulerInit oneSpace (some (0x5000, 0x30000)) =
      (true, (bootSched.schedulerInit oneSpace (some (0x5000, 0x30000))).2) :=
    Prod.ext (by decide +kernel) rfl
  exact ⟨s, scheduler_consistent_of_run bootSched_boot hinit (run_of_execCalls hs), hidle, hcount⟩

/-! ### Round robin -/

namespace SchedState

variable {frame : Nat} {s s' : SchedState} {c d : ThreadRef} {l rest pre post es : List ThreadRef}

/-- What `thread_activate` asks of a READY thread. -/
def Activatable (s : SchedState) (env : SpaceEnv) (t : ThreadRef) : Prop :=
  s.threadStorageLive t ∧ (s.thread t).id ≠ 0 ∧ (s.thread t).process ≠ none ∧
    (s.thread t).kernelStackTop ≠ 0 ∧ (s.thread t).kernelStackTop % 16 = 0 ∧
    targetCr3 env (s.thread t) ≠ 0

instance (t : ThreadRef) : Decidable (s.Activatable env t) := inferInstanceAs (Decidable (_ ∧ _))

theorem activatable_of_activate (h : s.threadActivate env t = (true, s')) :
    s.Activatable env t := by
  unfold threadActivate at h
  unfold Activatable
  grind

/-- A YIELD trap, or a timer interrupt with preemption enabled, on the stack of the running
thread, while every thread of the queue `l` can be activated. -/
structure Trapped (l : List ThreadRef) (s : SchedState) (env : SpaceEnv) (frame : Nat)
    (call : SchedCall) : Prop where
  call : call = .reschedule frame 1 ∨ call = .preempt frame ∧ s.preemptionEnabled
  frame : ∃ c, s.currentThread = some c ∧ SchedulerInterruptFrameValid (s.thread c) frame
  activatable : ∀ t ∈ l, s.Activatable env t

/-- Such an interrupt, and the thread that is current behind it. -/
def Turn (l : List ThreadRef) (s : SchedState) (d : ThreadRef) (s' : SchedState) : Prop :=
  ∃ env frame call, Trapped l s env frame call ∧ call.exec env s = some s' ∧
    s'.currentThread = some d

/-- `c` runs, and `rest` is the queue `l` behind it. -/
structure Rotating (l : List ThreadRef) (s : SchedState) (c : ThreadRef) (rest : List ThreadRef) :
    Prop where
  inv : SchedInv s
  current : s.currentThread = some c
  queue : QueueInv s l
  split : ∃ pre post, l = pre ++ c :: post ∧ rest = post ++ pre

/-- The next thread of the queue is switched to. -/
theorem Rotating.next (h : Rotating l s c (d :: rest))
    (hframe : SchedulerInterruptFrameValid (s.thread c) frame) (hd : s.Eligible (some c) d) :
    Rotating l ((s.saveAndSwitch frame c d).modifyThread d (·.dropContext)) d (rest ++ [c]) := by
  have heff : Effect False s _ := .switched h.current hframe hd
  refine ⟨heff.inv h.inv, rfl,
    ((h.queue.modify ⟨.inl rfl, rfl⟩).switchCurrent c d).modify ⟨.inl rfl, rfl⟩, ?_⟩
  obtain ⟨pre, post, rfl, hrest⟩ := h.split
  cases post with
  | nil =>
    obtain rfl : d :: rest = pre := hrest
    exact ⟨[], rest ++ [c], rfl, by simp⟩
  | cons e post =>
    obtain ⟨rfl, rfl⟩ := List.cons.inj hrest
    exact ⟨pre ++ [c], post, by simp, by simp⟩

/-- The thread behind the running one has a saved context, and the search finds it. -/
theorem Rotating.eligible (h : Rotating l s c (d :: rest)) : (s.thread c).runNext = some d ∧
    s.schedulerFindNextInterruptThread c = some d ∧ s.Eligible (some c) d := by
  obtain ⟨pre, post, rfl, hrest⟩ := h.split
  have hq := h.queue
  have hdc : d ≠ c := fun he => (List.nodup_cons.mp (hrest ▸ hq.nodup_behind)).1 (by simp [he])
  have hd := hq.mem_behind.mpr (.inr (hrest ▸ List.mem_cons_self))
  have hdcur : s.currentThread ≠ some d := by simpa [h.current] using hdc.symm
  have hel : s.Eligible (some c) d := ⟨by simpa using hdc, hd, (h.inv.settled d).queued hd hdcur⟩
  have hring : Ring _ (c :: (post ++ pre)) := hq.ring.rotate
  rw [← hrest] at hring
  refine ⟨(List.isChain_cons_cons.mp hring).1, ?_, hel⟩
  rw [schedulerFindNextInterruptThread_eq hq, ← hrest]
  exact List.find?_cons_of_pos (decide_eq_true hel)

theorem Rotating.queued (h : Rotating l s c rest) : c ∈ l ∧ s.runCount = rest.length + 1 := by
  obtain ⟨pre, post, rfl, rfl⟩ := h.split
  exact ⟨by simp, h.queue.count_behind⟩

theorem Rotating.running (h : Rotating l s c rest) (hid : (s.thread c).id ≠ 0) :
    s.RunningCurrent c :=
  ⟨h.inv.threadCurrent.trans h.current, hid, (h.inv.settled c).onQueue h.current,
    (h.inv.settled c).running.mpr h.current, h.queue.runNext_ne_none h.queued.1⟩

/-- `thread_activate` switches to the next thread exactly when it is fit for that. -/
theorem Rotating.activate (h : Rotating l s c (d :: rest)) (env : SpaceEnv) (frame : Nat) :
    (s.modifyThread c (·.saveContext frame)).threadActivate env d =
      if s.Activatable env d then (true, s.saveAndSwitch frame c d)
      else (false, s.modifyThread c (·.saveContext frame)) := by
  obtain ⟨-, -, hel⟩ := h.eligible
  have hne := hel.ne
  have hready := hel.2.2.1
  have hrunning := (h.inv.settled c).running.mpr h.current
  split_ifs with hact
  · obtain ⟨hlive, hid, hproc, htop, halign, hcr3⟩ := hact
    have hlive' : (s.modifyThread c (·.saveContext frame)).threadStorageLive d := hlive
    simp [threadActivate, h.current, h.inv.initialized, hlive', hid, hproc, htop, halign, hcr3,
      hne, hready, hrunning, saveAndSwitch]
  · rcases hb : (s.modifyThread c (·.saveContext frame)).threadActivate env d with ⟨b, s1⟩
    obtain rfl := threadActivate_cases hb h.current hne
    cases b with
    | false => rfl
    | true =>
      have hd := activatable_of_activate hb
      simp only [Activatable, modifyThread_thread, Function.update_of_ne hne] at hd
      exact absurd hd hact

/-- The interrupt hands the processor to the next thread of the queue. -/
theorem Rotating.switch (h : Rotating l s c rest)
    (hframe : SchedulerInterruptFrameValid (s.thread c) frame)
    (hact : ∀ t ∈ l, s.Activatable env t) (timer : Bool) :
    ∃ d rest', rest ++ [c] = d :: rest' ∧
      Rotating l (s.schedulerSwitchReadyFromInterrupt env frame timer).2 d rest' := by
  obtain ⟨hc, hlen⟩ := h.queued
  have hne := List.ne_nil_of_mem hc
  unfold schedulerSwitchReadyFromInterrupt
  cases rest with
  | nil =>
    rw [if_pos (by simp [hlen])]
    exact ⟨c, [], rfl, h⟩
  | cons d rest =>
    obtain ⟨-, hfind, hel⟩ := h.eligible
    have hrun := h.running (hact c hc).2.1
    have hswitch := h.activate env frame
    rw [if_pos (hact d ((h.queue.mem d).mpr hel.2.1))] at hswitch
    rw [if_neg (by simp [hframe.1, h.inv.schedInitialized, h.queue.runHead_eq_none,
      h.queue.runTail_eq_none, hlen, hne]), hrun.1]
    simp only [hrun, hframe, hfind, hswitch]
    exact ⟨d, rest ++ [c], rfl, h.next hframe hel⟩

/-- The BLOCK trap with the context at `frame` cannot take the processor from the running thread:
others are queued, but the frame is not on its stack, or the thread behind it cannot be
activated. -/
def Unparkable (s : SchedState) (env : SpaceEnv) (frame : Nat) (c : ThreadRef) : Prop :=
  2 ≤ s.runCount ∧ frame ≠ 0 ∧ (¬ SchedulerInterruptFrameValid (s.thread c) frame ∨
    ∃ d, (s.thread c).runNext = some d ∧ ¬ s.Activatable env d)

/-- When `scheduler_wait_current` fails. -/
theorem schedulerWaitCurrent_false_iff (h : SchedInv s) (hc : s.currentThread = some c)
    (hid : (s.thread c).id ≠ 0) :
    (∃ s', s.schedulerWaitCurrent env frame = some (false, s')) ↔ s.Unparkable env frame c := by
  obtain ⟨l, hq⟩ := h.queue
  obtain ⟨pre, post, rfl⟩ := List.append_of_mem ((hq.mem c).mpr ((h.settled c).onQueue hc))
  have hrot : Rotating _ s c (post ++ pre) := ⟨h, hc, hq, pre, post, rfl, rfl⟩
  have hrun := hrot.running hid
  have hcount := hrot.queued.2
  have hhead : s.runHead ≠ none := by simp [hq.runHead_eq_none]
  have htail : s.runTail ≠ none := by simp [hq.runTail_eq_none]
  unfold schedulerWaitCurrent schedulerBlockCurrent schedulerReschedule schedulerBlockFromInterrupt
    Unparkable
  simp only [h.schedInitialized, hhead, htail, hrun.1, hrun]
  rcases hrest : post ++ pre with _ | ⟨d, rest⟩
  · -- alone on the queue it stays where it is
    obtain ⟨rfl, rfl⟩ := List.append_eq_nil_iff.mp hrest
    have hnext : (s.thread c).runNext = some c := (List.isChain_cons_cons.mp hq.ring).1
    simp [hcount, hq.head, hq.tail, hnext]
  · rw [hrest] at hrot hcount
    obtain ⟨hnext, hfind, -⟩ := hrot.eligible
    have htwo : 2 ≤ s.runCount := by simp [hcount]
    simp only [hfind, hrot.activate, hnext, htwo, Nat.not_lt.mpr htwo, Nat.lt_of_succ_le htwo,
      Nat.ne_of_gt (Nat.lt_of_succ_le (Nat.le_of_succ_le htwo))]
    by_cases hzero : frame = 0
    · simp [hzero]
    by_cases hframe : SchedulerInterruptFrameValid (s.thread c) frame
    · by_cases hact : s.Activatable env d
      · simp only [hzero, hframe, hact]
        rcases hb : (s.saveAndSwitch frame c d).schedulerUnlink c with ⟨_ | _, s₂⟩ <;> simp [hb, hact]
      · simp [hzero, hframe, hact]
    · simp [hzero, hframe]

/-- It returns, and the queue goes on behind the next thread. -/
theorem Rotating.turn {call : SchedCall} (h : Rotating l s c rest)
    (ht : Trapped l s env frame call) : ∃ s' d rest', call.exec env s = some s' ∧
      rest ++ [c] = d :: rest' ∧ Rotating l s' d rest' := by
  obtain ⟨c', hc, hframe⟩ := ht.frame
  obtain rfl : c' = c := Option.some.inj (hc.symm.trans h.current)
  have hawake : ¬ s.idleActive := fun hi => by simpa [hc] using h.inv.idle.mpr hi
  obtain ⟨timer, he⟩ : ∃ timer, call.exec env s =
      some (s.schedulerSwitchReadyFromInterrupt env frame timer).2 := by
    rcases ht.call with rfl | ⟨rfl, hon⟩
    · exact ⟨false, by simp [SchedCall.exec, schedulerReschedule, hframe.1]⟩
    · exact ⟨true, by simp [SchedCall.exec, schedulerPreempt, hframe.1, hawake, hon]⟩
  obtain ⟨d, rest', hd, h'⟩ := h.switch hframe ht.activatable timer
  exact ⟨_, d, rest', he, hd, h'⟩

theorem Rotating.of_turn (h : Rotating l s c rest) (ht : Turn l s d s') :
    ∃ rest', rest ++ [c] = d :: rest' ∧ Rotating l s' d rest' := by
  obtain ⟨env, frame, call, htrap, he, hd⟩ := ht
  obtain ⟨s1, d1, rest', he1, heq, h'⟩ := h.turn htrap
  obtain rfl := Option.some.inj (he.symm.trans he1)
  obtain rfl := Option.some.inj (hd.symm.trans h'.current)
  exact ⟨rest', heq, h'⟩

/-- In the first round the threads become current in the order of the queue. -/
theorem Rotating.round (h : Rotating l s c rest) (hrun : Run (Turn l) s es s')
    (hlen : es.length ≤ rest.length + 1) : es <+: rest ++ [c] := by
  induction es generalizing s c rest with
  | nil => exact List.nil_prefix
  | cons d es ih =>
    obtain ⟨m, ht, hrun⟩ := hrun.head
    obtain ⟨rest', heq, h'⟩ := h.of_turn ht
    have hl := congrArg List.length heq
    simp only [List.length_append, List.length_cons] at hl hlen
    have hes := ih h' hrun (by omega)
    rw [heq, List.cons_prefix_cons]
    exact ⟨rfl, List.prefix_of_prefix_length_le hes (List.prefix_append _ _) (by omega)⟩

/-- **Round robin.** The search takes the first eligible thread behind the current one. In a
consistent state whose queued threads can be activated, `n` traps or preemptions make the `n`
queued threads current, each once, in the order of the queue, and none of them halts. -/
theorem round_robin (hq : QueueInv s (pre ++ c :: post)) :
    s.schedulerFindNextInterruptThread c =
      (post ++ pre).find? (fun x => s.Eligible (some c) x) ∧
    (SchedInv s → s.currentThread = some c →
      ∀ es s', Run (Turn (pre ++ c :: post)) s es s' →
        (es.length = s.runCount → es = post ++ pre ++ [c]) ∧
        ∀ env frame call, Trapped (pre ++ c :: post) s' env frame call →
          ∃ s'' d, call.exec env s' = some s'' ∧ s''.currentThread = some d) := by
  refine ⟨schedulerFindNextInterruptThread_eq hq, fun h hc es s' hrun => ?_⟩
  have hrot : Rotating _ s c (post ++ pre) := ⟨h, hc, hq, pre, post, rfl, rfl⟩
  refine ⟨fun hlen => ?_, fun env frame call htrap => ?_⟩
  · rw [hq.count_behind] at hlen
    exact (hrot.round hrun hlen.le).eq_of_length (by simp [hlen, Nat.add_assoc])
  · obtain ⟨c', rest', h'⟩ : ∃ c' rest', Rotating (pre ++ c :: post) s' c' rest' :=
      hrun.invariant (P := fun s => ∃ c' rest, Rotating _ s c' rest) ⟨c, _, hrot⟩
        fun _ _ _ ⟨_, _, h⟩ ht => ⟨_, (h.of_turn ht).imp fun _ => And.right⟩
    obtain ⟨s'', d, _, he, -, h''⟩ := h'.turn htrap
    exact ⟨s'', d, he, h''.current⟩

/-- Both threads are queued, and thread `1` runs. -/
def twoQueued : SchedState :=
  ((bootSched.schedulerInit oneSpace (some (0x5000, 0x30000))).2.schedulerAdd 2).2

theorem twoQueued_inv : SchedInv twoQueued :=
  have hadd : (SchedCall.add 2).exec oneSpace _ = some twoQueued := rfl
  schedCall_inv (schedulerInit_inv bootSched_boot (Prod.ext (by decide +kernel) rfl)) hadd

/-- Two turns: thread `2`, and thread `1` again. -/
theorem round_robin_twoQueued :
    ∃ es s', Run (Turn [1, 2]) twoQueued es s' ∧ es.length = twoQueued.runCount ∧ es = [2, 1] := by
  obtain ⟨l, hl⟩ := twoQueued_inv.queue
  obtain ⟨a, b, rfl⟩ := List.length_eq_two.mp (hl.count.symm.trans (by decide +kernel))
  obtain rfl : 1 = a := Option.some.inj (Eq.trans (by decide +kernel) hl.head)
  obtain rfl : 2 = b := Option.some.inj (Eq.trans (by decide +kernel) hl.tail)
  have hrun : Run (Turn [1, 2]) twoQueued ([2] ++ [1]) (((execCalls oneSpace twoQueued
      [.reschedule 0x13000 1, .reschedule 0x22000 1])).get (by decide +kernel)) :=
    (Run.single ⟨oneSpace, 0x13000, .reschedule 0x13000 1, ⟨.inl rfl, ⟨1, by decide +kernel⟩,
      by decide +kernel⟩, (Option.some_get (by decide +kernel)).symm, by decide +kernel⟩).append
    (.single ⟨oneSpace, 0x22000, .reschedule 0x22000 1, ⟨.inl rfl, ⟨2, by decide +kernel⟩,
      by decide +kernel⟩, (Option.some_get (by decide +kernel)).symm, by decide +kernel⟩)
  have hlen : [2, 1].length = twoQueued.runCount := by decide +kernel
  have hq : QueueInv twoQueued ([] ++ 1 :: [2]) := hl
  exact ⟨_, _, hrun, hlen, ((round_robin hq).2 twoQueued_inv (by decide +kernel) _ _ hrun).1 hlen⟩

/-- The address space of thread `2` cannot be activated: a YIELD stays with thread `1`. -/
theorem yield_stays_without_space : SchedInv twoQueued ∧ twoQueued.currentThread = some 1 ∧
    SchedulerInterruptFrameValid (twoQueued.thread 1) 0x13000 ∧
    ((SchedCall.reschedule 0x13000 1).exec ⟨fun _ => 0, 0, true⟩ twoQueued).map
      (·.currentThread) = some (some 1) :=
  ⟨twoQueued_inv, by decide +kernel, by decide +kernel, by decide +kernel⟩

end SchedState

end JcosKernel
