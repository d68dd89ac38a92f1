import JcosKernel.Thread.State

/-!
# JcosKernel.Service.WaitReady

The bounded waits of the kernel for a service thread that goes back to its blocking RECEIVE:
`service_wait_ready` (`managed_service.c`), `supervisor_wait_ready` (`supervisor.c`) and
`system_console_wait_portal_idle`, `system_console_wait_archive_idle` and
`system_console_wait_app_ready` (`system_console.c`).

Interrupts are on in these loops, so the service thread can run between any two reads of
memory. A `Timeline` says what memory holds at each moment; turn `k` of a loop begins at moment
`turnLength * k`, and each of its reads has a moment of its own.

**A thread that blocks in the middle of a turn is taken for one that is stuck.** A turn first
asks whether the service is blocked in its RECEIVE and then whether it is runnable. If the
service blocks in between, both answers are no and the wait gives up on a healthy service
(`wait_gives_up`). `Undisturbed` says that no turn meets this, and
`wait_ready_iff_undisturbed` that a wait for a healthy service ends with true exactly then; the
loops that wait for a thread to die rule it out by taking both looks with interrupts off.
-/

namespace JcosKernel

/-- What a loop reads of the service thread and of its endpoints. -/
structure ServiceView where
  state : ThreadRunState
  onRunQueue : Bool
  interruptContextReady : Bool
  interruptRsp : Nat
  /-- `thread_wait_matches` for a RECEIVE on the endpoint. -/
  waitMatches : Bool
  /-- `endpoint_receiver_waiting` of the endpoint of the requests. -/
  receiverWaiting : Bool
  /-- `endpoint_message_ready` of the endpoint of the replies. -/
  replyReady : Bool
  /-- `endpoint_sender_waiting` of the endpoint of the replies. -/
  replySenderWaiting : Bool
  deriving Repr, DecidableEq

/-- The memory and the clock while the kernel thread waits. -/
structure Timeline where
  view : Nat → ServiceView
  /-- The process has left an exit record. -/
  terminated : Nat → Bool
  ticks : Nat → Nat
  /-- The result of `scheduler_yield`. -/
  yields : Nat → Bool
  /-- The thread and the endpoints of the service were created. -/
  created : Bool
  /-- `timer_ticks()` at the start of the wait. -/
  started : Nat
  /-- The timeout in ticks, zero without a timer. -/
  timeout : Nat

/-- The waits. -/
inductive WaitLoop
  | serviceWaitReady
  | supervisorWaitReady
  | waitPortalIdle
  | waitArchiveIdle
  | waitAppReady
  deriving Repr, DecidableEq

/-- The moments of one turn. -/
def turnLength : Nat := 16

/-- The first look of a turn at the state of the service. -/
def WaitLoop.firstLook : WaitLoop → Nat
  | .serviceWaitReady | .supervisorWaitReady => 1
  | .waitPortalIdle | .waitArchiveIdle | .waitAppReady => 2

/-- The last look of a turn at the service, which reads `on_run_queue`. -/
def WaitLoop.lastLook : WaitLoop → Nat
  | .serviceWaitReady | .supervisorWaitReady => 7
  | .waitPortalIdle => 9
  | .waitArchiveIdle => 12
  | .waitAppReady => 10

/-- The look of a turn at the clock. -/
def WaitLoop.clockLook : WaitLoop → Nat
  | .serviceWaitReady | .supervisorWaitReady | .waitAppReady => 8
  | .waitPortalIdle => 7
  | .waitArchiveIdle => 10

/-- `MANAGED_SERVICE_START_MAX_TURNS`. -/
def managedServiceStartMaxTurns : Nat := 64
/-- `SUPERVISOR_BOOT_START_MAX_TURNS`. -/
def supervisorBootStartMaxTurns : Nat := 64

/-- The bound on the turns of a wait that goes on without a timer. -/
def WaitLoop.maxTurns : WaitLoop → Option Nat
  | .serviceWaitReady => some managedServiceStartMaxTurns
  | .supervisorWaitReady => some supervisorBootStartMaxTurns
  | .waitPortalIdle | .waitArchiveIdle | .waitAppReady => none

namespace Timeline

variable (e : Timeline) (n : Nat)

/-- `state == BLOCKED && !on_run_queue && interrupt_context_ready && interrupt_rsp`, read one
after the other. -/
def Blocked : Prop :=
  (e.view n).state = .blocked ∧ (e.view (n + 1)).onRunQueue = false ∧
    (e.view (n + 2)).interruptContextReady = true ∧ (e.view (n + 3)).interruptRsp ≠ 0

instance : Decidable (e.Blocked n) := inferInstanceAs (Decidable (_ ∧ _))

/-- `state == READY && on_run_queue`, read one after the other. -/
def Runnable : Prop := (e.view n).state = .ready ∧ (e.view (n + 1)).onRunQueue = true

instance : Decidable (e.Runnable n) := inferInstanceAs (Decidable (_ ∧ _))

/-- `(u64)(timer_ticks() - started) >= timeout`. -/
def Expired : Prop := e.timeout ≤ (e.ticks n + 2 ^ 64 - e.started) % 2 ^ 64

instance : Decidable (e.Expired n) := inferInstanceAs (Decidable (_ ≤ _))

/-- `service_ready` and `supervisor_ready`. -/
def ServiceReady : Prop :=
  e.created = true ∧ e.Blocked n ∧ (e.view (n + 4)).receiverWaiting = true

instance : Decidable (e.ServiceReady n) := inferInstanceAs (Decidable (_ ∧ _))

/-- `console_portal_active` and `boot_archive_portal_active`. -/
def PortalActive : Prop := e.created = true ∧ (e.view n).state ≠ .dead

instance : Decidable (e.PortalActive n) := inferInstanceAs (Decidable (_ ∧ _))

/-- `console_portal_idle`. -/
def ConsolePortalIdle : Prop :=
  e.PortalActive n ∧ e.Blocked (n + 1) ∧ (e.view (n + 5)).receiverWaiting = true

instance : Decidable (e.ConsolePortalIdle n) := inferInstanceAs (Decidable (_ ∧ _))

/-- `boot_archive_portal_idle`. -/
def BootArchivePortalIdle : Prop :=
  e.PortalActive n ∧ e.Blocked (n + 1) ∧ (e.view (n + 5)).waitMatches = true ∧
    (e.view (n + 6)).receiverWaiting = true ∧ (e.view (n + 7)).replyReady = false ∧
    (e.view (n + 8)).replySenderWaiting = false

instance : Decidable (e.BootArchivePortalIdle n) := inferInstanceAs (Decidable (_ ∧ _))

/-- `system_console_app_ready`. -/
def AppReady : Prop :=
  e.created = true ∧ e.terminated n = false ∧ (e.view n).state ≠ .dead ∧ e.Blocked (n + 1) ∧
    (e.view (n + 5)).waitMatches = true ∧ (e.view (n + 6)).receiverWaiting = true

instance : Decidable (e.AppReady n) := inferInstanceAs (Decidable (_ ∧ _))

/-- The end of a turn. -/
def yieldOnce : Option Bool := if e.yields n then none else some false

/-- A turn of `service_wait_ready` and of `supervisor_wait_ready`; `none` when the loop goes
on. Without a timer the number of turns is bounded. -/
def readyTurn (maxTurns k : Nat) : Option Bool :=
  let n := turnLength * k
  if e.terminated n then some false
  else if e.ServiceReady (n + 1) then some true
  else if e.created = false ∨ ¬ e.Runnable (n + 6) then some false
  else if e.timeout ≠ 0 then
    if e.Expired (n + 8) then some false else e.yieldOnce (n + 9)
  else if maxTurns ≤ k then some false
  else e.yieldOnce (n + 9)

/-- A turn of `service_wait_ready`. -/
def serviceWaitReady : Nat → Option Bool := e.readyTurn managedServiceStartMaxTurns
/-- A turn of `supervisor_wait_ready`. -/
def supervisorWaitReady : Nat → Option Bool := e.readyTurn supervisorBootStartMaxTurns

/-- The part of a turn that the waits of `system_console.c` share. -/
def timerThenRunnable : Option Bool :=
  if e.Expired n then some false
  else if ¬ e.Runnable (n + 1) then some false
  else e.yieldOnce (n + 3)

/-- A turn of `system_console_wait_portal_idle`. -/
def waitPortalIdle (k : Nat) : Option Bool :=
  let n := turnLength * k
  if e.timeout = 0 then some false
  else if ¬ e.PortalActive n then some false
  else if e.ConsolePortalIdle (n + 1) then some true
  else e.timerThenRunnable (n + 7)

/-- A turn of `system_console_wait_archive_idle`. -/
def waitArchiveIdle (k : Nat) : Option Bool :=
  let n := turnLength * k
  if e.timeout = 0 then some false
  else if ¬ e.PortalActive n then some false
  else if e.BootArchivePortalIdle (n + 1) then some true
  else e.timerThenRunnable (n + 10)

/-- A turn of `system_console_wait_app_ready`. -/
def waitAppReady (k : Nat) : Option Bool :=
  let n := turnLength * k
  if e.timeout = 0 then some false
  else if e.AppReady (n + 1) then some true
  else e.timerThenRunnable (n + 8)

def turn : WaitLoop → Nat → Option Bool
  | .serviceWaitReady => e.serviceWaitReady
  | .supervisorWaitReady => e.supervisorWaitReady
  | .waitPortalIdle => e.waitPortalIdle
  | .waitArchiveIdle => e.waitArchiveIdle
  | .waitAppReady => e.waitAppReady

/-- At most `fuel` turns from turn `k` on; `none` when the loop has not ended by then. -/
def waitFrom (loop : WaitLoop) : Nat → Nat → Option Bool
  | 0, _ => none
  | fuel + 1, k =>
    match e.turn loop k with
    | some b => some b
    | none => waitFrom loop fuel (k + 1)

/-- The wait. -/
def wait (loop : WaitLoop) (fuel : Nat) : Option Bool := e.waitFrom loop fuel 0

end Timeline

/-! ### The end of a call -/

/-- `ManagedServiceState` and `SupervisorLifecycleState`. -/
inductive ServiceState
  | stopped
  | starting
  | running
  | closing
  | failed
  | reapPending
  deriving Repr, DecidableEq

/-- `service_refresh_terminal` and `supervisor_refresh_terminal`; `exit` says whether the exit
record of the process is a normal one. -/
def ServiceState.refreshTerminal (exit : Option Bool) (state : ServiceState) : ServiceState :=
  match exit with
  | none => state
  | some normal =>
    if state = .stopped then .stopped
    else if state = .closing ∧ normal = true then .reapPending
    else .failed

/-- What a call that fails behind its request does to the state. -/
def ServiceState.afterFailure (exit : Option Bool) (state : ServiceState) : ServiceState :=
  if state.refreshTerminal exit = .running then .failed else state.refreshTerminal exit

/-- `managed_service_call` and `supervisor_request_reply_unlocked` once a reply was received. -/
def Timeline.replyReceived (e : Timeline) (loop : WaitLoop) (fuel : Nat) (replyOk : Bool)
    (exit : Option Bool) (state : ServiceState) : Option (Bool × ServiceState) :=
  if replyOk then
    (e.wait loop fuel).map fun ready =>
      if ready then (true, state) else (false, state.afterFailure exit)
  else some (false, state.afterFailure exit)

/-! ### Healthy services -/

namespace Timeline

variable {e : Timeline} {loop : WaitLoop} {n k : Nat}

/-- The service thread is on the run queue. -/
def Queued (e : Timeline) (n : Nat) : Prop :=
  (e.view n).state = .ready ∧ (e.view n).onRunQueue = true

instance : Decidable (e.Queued n) := inferInstanceAs (Decidable (_ ∧ _))

/-- The service thread is blocked in its RECEIVE. -/
structure Waiting (e : Timeline) (n : Nat) : Prop where
  state : (e.view n).state = .blocked
  onRunQueue : (e.view n).onRunQueue = false
  interruptContextReady : (e.view n).interruptContextReady = true
  interruptRsp : (e.view n).interruptRsp ≠ 0
  waitMatches : (e.view n).waitMatches = true
  receiverWaiting : (e.view n).receiverWaiting = true

/-- The service does not terminate. Whenever the kernel thread looks, it is on the run queue or
blocked in its RECEIVE; it comes there before the time is over, and stays. Nothing is said about
its reply endpoint. -/
structure Healthy (e : Timeline) (loop : WaitLoop) : Prop where
  created : e.created = true
  alive : ∀ n, e.terminated n = false
  stands : ∀ n, e.Queued n ∨ e.Waiting n
  stays : ∀ n, e.Waiting n → e.Waiting (n + 1)
  settles : ∃ n, e.Waiting n
  inTime : ∀ n, e.timeout ≠ 0 → e.Expired n → e.Waiting n
  /-- Without a timer the turns are counted. -/
  untimed : e.timeout = 0 → ∃ max, loop.maxTurns = some max ∧ e.Waiting (turnLength * max)
  yields : ∀ n, e.yields n = true

/-- Turn `k` finds nothing in the reply endpoint, where it looks there:
`system_console_wait_archive_idle` is the only wait that does. -/
def RepliesTaken (e : Timeline) (loop : WaitLoop) (k : Nat) : Prop :=
  loop = .waitArchiveIdle → (e.view (turnLength * k + 8)).replyReady = false ∧
    (e.view (turnLength * k + 9)).replySenderWaiting = false

instance (k : Nat) : Decidable (e.RepliesTaken loop k) := inferInstanceAs (Decidable (_ → _))

/-- A turn that finds the service on the run queue at its first look finds it there at its last
look too, and time left. -/
def Steady (e : Timeline) (loop : WaitLoop) (k : Nat) : Prop :=
  e.Queued (turnLength * k + loop.lastLook) ∧
    (e.timeout ≠ 0 → ¬ e.Expired (turnLength * k + loop.clockLook))

instance (k : Nat) : Decidable (e.Steady loop k) := inferInstanceAs (Decidable (_ ∧ _))

/-- In no turn does the service leave the run queue between the first look and the last one, or
before a look at the clock that comes too late; and the turn that finds it in its RECEIVE finds no
reply left behind. -/
structure Undisturbed (e : Timeline) (loop : WaitLoop) : Prop where
  steady : ∀ k, e.Queued (turnLength * k + loop.firstLook) → e.Steady loop k
  taken : ∀ k, (∀ j < k, e.Queued (turnLength * j + loop.firstLook)) →
    e.Waiting (turnLength * k + loop.firstLook) → e.RepliesTaken loop k

theorem Queued.not_waiting (h : e.Queued n) : ¬ e.Waiting n :=
  fun hw => nomatch h.1.symm.trans hw.state

theorem Queued.not_blocked (h : e.Queued n) : ¬ e.Blocked n :=
  fun hb => nomatch h.1.symm.trans hb.1

section

variable (h : e.Healthy loop)
include h

theorem Healthy.waiting_of_le {m : Nat} (hn : e.Waiting n) (hle : n ≤ m) : e.Waiting m := by
  induction m, hle using Nat.le_induction with
  | base => exact hn
  | succ m _ ih => exact h.stays m ih

theorem Healthy.waiting_add (hn : e.Waiting n) (j : Nat) : e.Waiting (n + j) :=
  h.waiting_of_le hn (Nat.le_add_right n j)

theorem Healthy.queued_of_le {m : Nat} (hm : e.Queued m) (hle : n ≤ m) : e.Queued n :=
  (h.stands n).resolve_right fun hw => hm.not_waiting (h.waiting_of_le hw hle)

theorem Healthy.not_dead (n : Nat) : (e.view n).state ≠ .dead := by
  intro hd
  obtain hq | hw := h.stands n
  · cases hq.1.symm.trans hd
  · cases hw.state.symm.trans hd

theorem Healthy.portalActive (n : Nat) : e.PortalActive n :=
  ⟨h.created, h.not_dead n⟩

theorem Healthy.blocked (hn : e.Waiting n) : e.Blocked n :=
  ⟨hn.state, (h.waiting_add hn 1).onRunQueue, (h.waiting_add hn 2).interruptContextReady,
    (h.waiting_add hn 3).interruptRsp⟩

/-- The two reads of the runnable check are worth the second one. -/
theorem Healthy.runnable_iff : e.Runnable n ↔ e.Queued (n + 1) := by
  constructor
  · intro hr
    refine (h.stands (n + 1)).resolve_right fun hw => ?_
    cases hr.2.symm.trans hw.onRunQueue
  · intro hq
    exact ⟨(h.queued_of_le hq (Nat.le_succ n)).1, hq.2⟩

theorem Healthy.yieldOnce : e.yieldOnce n = none := by
  rw [Timeline.yieldOnce, if_pos (h.yields n)]

/-- A console wait needs a timer. -/
theorem Healthy.timeout_ne_zero (hl : loop.maxTurns = none) : e.timeout ≠ 0 := by
  intro h0
  obtain ⟨max, hmax, -⟩ := h.untimed h0
  rw [hl] at hmax
  cases hmax

theorem Healthy.timerThenRunnable (ht : e.timeout ≠ 0) : e.timerThenRunnable n =
    if e.Queued (n + 2) ∧ (e.timeout ≠ 0 → ¬ e.Expired n) then none else some false := by
  rw [Timeline.timerThenRunnable, h.yieldOnce]
  by_cases hx : e.Expired n
  · rw [if_pos hx, if_neg fun hs => hs.2 ht hx]
  · rw [if_neg hx]
    by_cases hr : e.Runnable (n + 1)
    · rw [if_neg (not_not.mpr hr), if_pos ⟨h.runnable_iff.mp hr, fun _ => hx⟩]
    · rw [if_pos hr, if_neg fun hs => hr (h.runnable_iff.mpr hs.1)]

theorem Healthy.readyTurn_of_waiting (max : Nat) (hw : e.Waiting (turnLength * k + 1)) :
    e.readyTurn max k = some true := by
  have hready : e.ServiceReady (turnLength * k + 1) :=
    ⟨h.created, h.blocked hw, (h.waiting_add hw 4).receiverWaiting⟩
  simp only [readyTurn]
  rw [if_neg (by simp [h.alive]), if_pos hready]

theorem Healthy.readyTurn_of_queued {max : Nat} (hmax : loop.maxTurns = some max)
    (hq : e.Queued (turnLength * k + 1)) : e.readyTurn max k =
      if e.Queued (turnLength * k + 7) ∧ (e.timeout ≠ 0 → ¬ e.Expired (turnLength * k + 8)) then
        none
      else some false := by
  have hready : ¬ e.ServiceReady (turnLength * k + 1) := fun hr => hq.not_blocked hr.2.1
  simp only [readyTurn]
  rw [if_neg (by simp [h.alive]), if_neg hready, h.yieldOnce]
  by_cases hr : e.Runnable (turnLength * k + 6)
  · have hlast : e.Queued (turnLength * k + 7) := h.runnable_iff.mp hr
    rw [if_neg (by simp [h.created, hr])]
    by_cases ht : e.timeout ≠ 0
    · rw [if_pos ht]
      by_cases hx : e.Expired (turnLength * k + 8)
      · rw [if_pos hx, if_neg fun hs => hs.2 ht hx]
      · rw [if_neg hx, if_pos ⟨hlast, fun _ => hx⟩]
    · -- the turns are not used up: at that turn the service waits
      have hk : ¬ max ≤ k := by
        intro hle
        obtain ⟨max', hmax', hw⟩ := h.untimed (not_not.mp ht)
        obtain rfl : max' = max := Option.some.inj (hmax'.symm.trans hmax)
        refine hq.not_waiting (h.waiting_of_le hw ?_)
        exact (Nat.mul_le_mul_left _ hle).trans (Nat.le_add_right _ _)
      rw [if_neg ht, if_neg hk, if_pos ⟨hlast, fun hne => absurd hne ht⟩]
  · rw [if_pos (.inr hr), if_neg fun hs => hr (h.runnable_iff.mpr hs.1)]

/-- A turn that finds the service in its RECEIVE is the last one. -/
theorem Healthy.turn_of_waiting (hw : e.Waiting (turnLength * k + loop.firstLook)) :
    e.turn loop k = some (decide (e.RepliesTaken loop k)) := by
  have htaken : loop ≠ .waitArchiveIdle → some true = some (decide (e.RepliesTaken loop k)) :=
    fun hne => congrArg some (decide_eq_true fun heq => absurd heq hne).symm
  cases loop with
  | serviceWaitReady | supervisorWaitReady =>
    exact (h.readyTurn_of_waiting _ hw).trans (htaken nofun)
  | waitPortalIdle =>
    have hidle : e.ConsolePortalIdle (turnLength * k + 1) :=
      ⟨h.portalActive _, h.blocked hw, (h.waiting_add hw 4).receiverWaiting⟩
    simp only [turn, waitPortalIdle]
    rw [if_neg (h.timeout_ne_zero rfl), if_neg (not_not.mpr (h.portalActive _)), if_pos hidle,
      htaken nofun]
  | waitArchiveIdle =>
    have hidle : e.BootArchivePortalIdle (turnLength * k + 1) ↔ e.RepliesTaken .waitArchiveIdle k :=
      ⟨fun hi _ => hi.2.2.2.2, fun hr => ⟨h.portalActive _, h.blocked hw,
        (h.waiting_add hw 4).waitMatches, (h.waiting_add hw 5).receiverWaiting, hr rfl⟩⟩
    -- with a reply left the turn goes on to the runnable check, and fails there
    have hlast : ¬ e.Queued (turnLength * k + 12) := fun hq => hq.not_waiting (h.waiting_add hw 10)
    simp only [turn, waitArchiveIdle]
    rw [if_neg (h.timeout_ne_zero rfl), if_neg (not_not.mpr (h.portalActive _))]
    by_cases hr : e.RepliesTaken .waitArchiveIdle k
    · rw [if_pos (hidle.mpr hr), decide_eq_true hr]
    · rw [if_neg fun hi => hr (hidle.mp hi), decide_eq_false hr,
        h.timerThenRunnable (h.timeout_ne_zero rfl), if_neg fun hs => hlast hs.1]
  | waitAppReady =>
    have hready : e.AppReady (turnLength * k + 1) :=
      ⟨h.created, h.alive _, h.not_dead _, h.blocked hw,
        (h.waiting_add hw 4).waitMatches, (h.waiting_add hw 5).receiverWaiting⟩
    simp only [turn, waitAppReady]
    rw [if_neg (h.timeout_ne_zero rfl), if_pos hready, htaken nofun]

/-- A turn that finds the service on the run queue never ends the wait with true. -/
theorem Healthy.turn_of_queued (hq : e.Queued (turnLength * k + loop.firstLook)) :
    e.turn loop k = if e.Steady loop k then none else some false := by
  cases loop with
  | serviceWaitReady | supervisorWaitReady => exact h.readyTurn_of_queued rfl hq
  | waitPortalIdle =>
    have hidle : ¬ e.ConsolePortalIdle (turnLength * k + 1) := fun hi => hq.not_blocked hi.2.1
    simp only [turn, waitPortalIdle]
    rw [if_neg (h.timeout_ne_zero rfl), if_neg (not_not.mpr (h.portalActive _)), if_neg hidle]
    exact h.timerThenRunnable (h.timeout_ne_zero rfl)
  | waitArchiveIdle =>
    have hidle : ¬ e.BootArchivePortalIdle (turnLength * k + 1) := fun hi => hq.not_blocked hi.2.1
    simp only [turn, waitArchiveIdle]
    rw [if_neg (h.timeout_ne_zero rfl), if_neg (not_not.mpr (h.portalActive _)), if_neg hidle]
    exact h.timerThenRunnable (h.timeout_ne_zero rfl)
  | waitAppReady =>
    have hready : ¬ e.AppReady (turnLength * k + 1) := fun hr => hq.not_blocked hr.2.2.2.1
    simp only [turn, waitAppReady]
    rw [if_neg (h.timeout_ne_zero rfl), if_neg hready]
    exact h.timerThenRunnable (h.timeout_ne_zero rfl)

/-- The waits have ended with true once the service waits at the first look of a turn. -/
theorem Healthy.waitFrom_eq_true (hu : e.Undisturbed loop) {last : Nat}
    (hlast : e.Waiting (turnLength * last)) (fuel : Nat)
    (hpast : ∀ j < k, e.Queued (turnLength * j + loop.firstLook)) (hk : k ≤ last)
    (hf : last < k + fuel) : e.waitFrom loop fuel k = some true := by
  induction fuel generalizing k with
  | zero => omega
  | succ fuel ih =>
    rw [waitFrom]
    obtain hq | hw := h.stands (turnLength * k + loop.firstLook)
    · rw [h.turn_of_queued hq, if_pos (hu.steady k hq)]
      have hne : k ≠ last := by
        rintro rfl
        exact hq.not_waiting (h.waiting_of_le hlast (Nat.le_add_right _ _))
      refine ih (fun j hj => ?_) (by omega) (by omega)
      obtain hlt | rfl := Nat.lt_succ_iff_lt_or_eq.mp hj
      · exact hpast j hlt
      · exact hq
    · rw [h.turn_of_waiting hw, decide_eq_true (hu.taken k hpast hw)]

/-- A turn that gives up ends the wait with false, unless one before it has done so. -/
theorem Healthy.waitFrom_eq_false {last : Nat} (hlast : e.turn loop last = some false) (fuel : Nat)
    (hpast : ∀ j < last, e.Queued (turnLength * j + loop.firstLook)) (hk : k ≤ last)
    (hf : last < k + fuel) : e.waitFrom loop fuel k = some false := by
  induction fuel generalizing k with
  | zero => omega
  | succ fuel ih =>
    rw [waitFrom]
    obtain rfl | hlt := Nat.eq_or_lt_of_le hk
    · rw [hlast]
    · rw [h.turn_of_queued (hpast k hlt)]
      by_cases hs : e.Steady loop k
      · rw [if_pos hs]
        exact ih (by omega) (by omega)
      · rw [if_neg hs]

end

/-- **A healthy service is found ready exactly when no turn is disturbed**, by every one of the
waits; a call whose reply was correct then succeeds and leaves the service in its state. -/
theorem wait_ready_iff_undisturbed (h : e.Healthy loop) :
    (∃ turns, ∀ fuel, turns ≤ fuel → e.wait loop fuel = some true ∧
      ∀ exit state, e.replyReceived loop fuel true exit state = some (true, state)) ↔
    e.Undisturbed loop := by
  constructor
  · rintro ⟨turns, hturns⟩
    -- a turn that gives up contradicts the result of the wait
    have hgives : ∀ k, (∀ j < k, e.Queued (turnLength * j + loop.firstLook)) →
        e.turn loop k ≠ some false := by
      intro k hpast hfalse
      have htrue := (hturns (max turns (k + 1)) (le_max_left _ _)).1
      have hwait := h.waitFrom_eq_false hfalse (max turns (k + 1)) hpast (Nat.zero_le k) (by omega)
      cases htrue.symm.trans hwait
    refine ⟨fun k hq => ?_, fun k hpast hw => ?_⟩
    · by_contra hs
      refine hgives k (fun j hj => h.queued_of_le hq ?_) ((h.turn_of_queued hq).trans (if_neg hs))
      exact Nat.add_le_add_right (Nat.mul_le_mul_left _ hj.le) _
    · by_contra hr
      exact hgives k hpast (by rw [h.turn_of_waiting hw, decide_eq_false hr])
  · intro hu
    obtain ⟨n, hn⟩ := h.settles
    have hlast : e.Waiting (turnLength * n) :=
      h.waiting_of_le hn (Nat.le_mul_of_pos_left n (by decide))
    refine ⟨n + 1, fun fuel hf => ?_⟩
    have hwait : e.wait loop fuel = some true :=
      h.waitFrom_eq_true hu hlast fuel (fun j hj => absurd hj j.not_lt_zero) (Nat.zero_le n)
        (by omega)
    refine ⟨hwait, fun exit state => ?_⟩
    rw [replyReceived, hwait]
    rfl

/-! ### The race -/

/-- On the run queue. -/
def queuedView : ServiceView := ⟨.ready, true, true, 1, false, false, false, false⟩
/-- Blocked in RECEIVE. -/
def waitingView : ServiceView := ⟨.blocked, false, true, 1, true, true, false, false⟩

/-- The service blocks at moment `m`; the clock stands still. -/
def blocksAt (m : Nat) : Timeline where
  view n := if n < m then queuedView else waitingView
  terminated _ := false
  ticks _ := 0
  yields _ := true
  created := true
  started := 0
  timeout := 200

theorem blocksAt_queued {m : Nat} (h : n < m) : (blocksAt m).Queued n := by
  simp [Queued, blocksAt, h, queuedView]

theorem blocksAt_waiting {m : Nat} (h : m ≤ n) : (blocksAt m).Waiting n := by
  have hv : (blocksAt m).view n = waitingView := if_neg (Nat.not_lt.mpr h)
  constructor <;> rw [hv] <;> decide

theorem blocksAt_healthy (m : Nat) (loop : WaitLoop) : (blocksAt m).Healthy loop where
  created := rfl
  alive _ := rfl
  stands n := by
    by_cases h : n < m
    · exact .inl (blocksAt_queued h)
    · exact .inr (blocksAt_waiting (Nat.not_lt.mp h))
  stays n hw := by
    refine blocksAt_waiting ?_
    by_contra h
    exact (blocksAt_queued (by omega)).not_waiting hw
  settles := ⟨m, blocksAt_waiting le_rfl⟩
  inTime _ _ hx := absurd hx (by simp [Expired, blocksAt])
  untimed h := nomatch h
  yields _ := rfl

/-- A service that blocks behind the last look of the first turn is found in the second one. -/
theorem wait_ready_iff_undisturbed_blocksAt : ∃ turns,
    (blocksAt 13).wait .waitArchiveIdle turns = some true := by
  have hqueued : ∀ k, (blocksAt 13).Queued (turnLength * k + 2) → k = 0 := by
    intro k hq
    by_contra hk
    refine hq.not_waiting (blocksAt_waiting ?_)
    simp only [turnLength]
    omega
  obtain ⟨turns, h⟩ := (wait_ready_iff_undisturbed (blocksAt_healthy 13 .waitArchiveIdle)).mpr
    { steady := fun k hq => by
        rw [hqueued k hq]
        exact ⟨blocksAt_queued (by decide), fun _ => by decide⟩
      taken := fun k _ hw _ => by
        have hk : 13 ≤ turnLength * k := by
          by_contra hlt
          have hk : k = 0 := by
            simp only [turnLength] at hlt
            omega
          subst hk
          exact (blocksAt_queued (by decide)).not_waiting hw
        constructor <;> simp only [blocksAt] <;> rw [if_neg (by omega)] <;> rfl }
  exact ⟨turns, (h turns le_rfl).1⟩

/-- A service that blocks between the two looks of a turn is given up by every loop, and the call
ends with the service marked as failed although its reply was correct. -/
theorem blocksAt_given_up (loop : WaitLoop) : (blocksAt 5).wait loop 1 = some false ∧
    (blocksAt 5).replyReceived loop 1 true none .running = some (false, .failed) := by
  cases loop <;> decide

/-- `service_wait_ready` gives up on a healthy service. -/
theorem wait_gives_up : (blocksAt 5).Healthy .serviceWaitReady ∧
    (blocksAt 5).wait .serviceWaitReady 1 = some false ∧
    (blocksAt 5).replyReceived .serviceWaitReady 1 true none .running = some (false, .failed) :=
  ⟨blocksAt_healthy 5 _, blocksAt_given_up _⟩

end Timeline

end JcosKernel
