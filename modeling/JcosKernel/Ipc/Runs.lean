import JcosKernel.Ipc.Refine

/-!
# JcosKernel.Ipc.Runs

The IPC bookkeeping over whole runs: from endpoints without waiters, through every
interleaving of IPC operations with scheduler calls and the rest of the kernel.
-/

namespace JcosKernel

open Lib IpcState World

/-- The scheduler was started and has been running since. -/
def SchedReachable (s : SchedState) : Prop :=
  ∃ env stack s₀ s₁ es, SchedBoot s₀ ∧ s₀.schedulerInit env stack = (true, s₁) ∧
    Run SchedStep s₁ es s

/-- Nobody waits, nothing is staged, and a closed endpoint is empty. -/
structure Endpoint.Unused (ep : Endpoint) : Prop where
  receiver : ep.waitingReceiver = none ∧ ep.waitingReceiverId = 0
  sender : ep.waitingSender = none ∧ ep.waitingSenderId = 0
  staged : ¬ ep.waitingSenderMessageReady
  closed : ep.closed → ¬ ep.messageReady

/-- A running system in which IPC has not been used for waiting yet. -/
structure IpcBoot (w : World) : Prop where
  sched : SchedReachable w.kernel.sched
  endpoints : ∀ e, w.kernel.IpcEndpointValid e →
    w.kernel.endpoints.initialized ∧ (w.kernel.endpoints.endpoint e).Unused
  threads : ∀ t, ¬ w.kernel.IpcWaiting t
  timedWaits : ∀ i, w.kernel.timedWaits i = none
  parked : ∀ t, w.parked t = none

/-- The wait of the live thread at `t` names the endpoint, the direction and the id. -/
def IpcState.WaitNames (k : IpcState) (t : ThreadRef) (kind : ThreadWaitKind) (e : EndpointRef)
    (id : Nat) : Prop :=
  k.sched.threadStorageLive t ∧ (k.sched.thread t).waitKind = kind ∧
    (k.sched.thread t).waitObject = some (.endpoint e) ∧ (k.sched.thread t).waitId = id ∧ id ≠ 0

/-- The four data structures of IPC agree. -/
structure IpcConsistent (k : IpcState) : Prop where
  /-- A side of an endpoint is taken exactly by the thread whose wait names it. -/
  linked : ∀ e, k.IpcEndpointValid e → ∀ kind : ThreadWaitKind, kind.Ipc → ∀ t,
    (k.endpoints.endpoint e).waiting kind = some t ↔
      k.WaitNames t kind e ((k.endpoints.endpoint e).waitingId kind)
  unlinked : ∀ e, k.IpcEndpointValid e → ∀ kind : ThreadWaitKind, kind.Ipc →
    (k.endpoints.endpoint e).waiting kind = none → (k.endpoints.endpoint e).waitingId kind = 0
  /-- No thread waits for IPC without being linked. -/
  waiting : ∀ t, k.IpcWaiting t → ∃ e, k.IpcEndpointValid e ∧
    (k.endpoints.endpoint e).waiting (k.sched.thread t).waitKind = some t
  staged : ∀ e, k.IpcEndpointValid e → ((k.endpoints.endpoint e).waitingSenderMessageReady ↔
    ∃ t, (k.endpoints.endpoint e).waitingSender = some t ∧
      (k.sched.thread t).waitResult = .pending)
  full : ∀ e, k.IpcEndpointValid e → (k.endpoints.endpoint e).waitingSenderMessageReady →
    (k.endpoints.endpoint e).messageReady
  closed : ∀ e, k.IpcEndpointValid e → (k.endpoints.endpoint e).closed →
    ¬ (k.endpoints.endpoint e).messageReady ∧
      ¬ (k.endpoints.endpoint e).waitingSenderMessageReady
  /-- Every timed wait is an active wait of a live thread, under the same id. -/
  timed : ∀ i w, k.timedWaits i = some w → k.IpcEndpointValid w.endpoint ∧ w.kind.Ipc ∧
    k.WaitNames w.thread w.kind w.endpoint w.waitId ∧ k.sched.ThreadWaitActive w.thread ∧
    (k.sched.thread w.thread).id = w.threadId ∧
    (k.endpoints.endpoint w.endpoint).id = w.endpointId
  once : ∀ i j w w', k.timedWaits i = some w → k.timedWaits j = some w' →
    w.thread = w'.thread → i = j

theorem SchedReachable.inv {s : SchedState} (h : SchedReachable s) : s.SchedInv := by
  obtain ⟨env, stack, s0, s1, es, hboot, hinit, hrun⟩ := h
  exact hrun.invariant (SchedState.schedulerInit_inv hboot hinit) fun _ _ _ h hs =>
    SchedState.schedStep_inv h hs

theorem Endpoint.Unused.waiting {ep : Endpoint} (h : ep.Unused) {kind : ThreadWaitKind}
    (hk : kind.Ipc) : ep.waiting kind = none ∧ ep.waitingId kind = 0 := by
  rcases hk with rfl | rfl
  · exact h.receiver
  · exact h.sender

theorem IpcBoot.inv {w : World} (h : IpcBoot w) : WorldInv w where
  inv :=
    { sched := h.sched.inv
      initialized := fun e hv => (h.endpoints e hv).1
      unlinked := fun e hv _ hk _ => ((h.endpoints e hv).2.waiting hk).2
      linked := fun e hv kind t hk hw => by
        rw [((h.endpoints e hv).2.waiting hk).1] at hw
        cases hw
      back := fun t ht => absurd ht (h.threads t)
      coherent := fun e hv => by
        have hu := (h.endpoints e hv).2
        refine ⟨iff_of_false hu.staged ?_, fun hs => absurd hs hu.staged,
          fun hs => absurd hs hu.staged, fun hc => ⟨hu.closed hc, hu.staged⟩, fun t ht => ?_⟩
        · rintro ⟨t, ht, -⟩
          rw [hu.sender.1] at ht
          cases ht
        · rw [hu.receiver.1] at ht
          cases ht
      timed := fun i v hi => by
        rw [h.timedWaits i] at hi
        cases hi
      once := fun i j v v' hi => by
        rw [h.timedWaits i] at hi
        cases hi }
  parked t n c hp := by
    rw [h.parked t] at hp
    cases hp
  covered e hv kind t hk hw := by
    rw [((h.endpoints e hv).2.waiting hk).1] at hw
    cases hw
  number t n c hp := by
    rw [h.parked t] at hp
    cases hp
  distinct t u n c d hp := by
    rw [h.parked t] at hp
    cases hp

theorem IpcState.Waits.names {k : IpcState} {t : ThreadRef} {kind : ThreadWaitKind}
    {e : EndpointRef} {id : Nat} (h : k.Waits t kind e id) : k.WaitNames t kind e id :=
  ⟨h.live, h.kind, h.object, h.waitId, h.idPos⟩

theorem IpcState.IpcInv.consistent {k : IpcState} (h : k.IpcInv) : IpcConsistent k where
  linked e hv kind hk t := by
    constructor
    · exact fun hw => (h.linked e hv kind t hk hw).names
    · rintro ⟨hlive, hkind, hobj, -, -⟩
      obtain ⟨e', hv', hw⟩ := h.back t ⟨hlive, hkind ▸ hk⟩
      rw [hkind] at hw
      have hobj' := (h.linked e' hv' kind t hk hw).object
      obtain rfl : e = e' := by simpa using hobj.symm.trans hobj'
      exact hw
  unlinked := h.unlinked
  waiting := h.back
  staged e hv := (h.coherent e hv).staged
  full e hv := (h.coherent e hv).full
  closed e hv := (h.coherent e hv).closed
  timed i w hi := by
    have ht := h.timed i w hi
    have hw := h.linked w.endpoint ht.valid w.kind w.thread ht.kind ht.waiting
    have hactive := (hw.ipcWaiting ht.kind).active h.sched hw.threadId
    rw [ht.waitingId] at hw
    exact ⟨ht.valid, ht.kind, hw.names, hactive, ht.threadId, ht.endpointId⟩
  once := h.once

/-- **The IPC bookkeeping is consistent in every reachable state, and no operation of `ipc.c`
halts there.** -/
theorem ipc_consistent_of_run {w w' : World} {steps : List (List IpcNote)} (hboot : IpcBoot w)
    (hrun : Run IpcStep w steps w') :
    IpcConsistent w'.kernel ∧ ∀ env (o : IpcOp), o.exec env w' ≠ none := by
  have h := hboot.inv.of_run hrun
  refine ⟨h.inv.consistent, fun env o => ?_⟩
  obtain ⟨r, hr, -⟩ := o.exec_refines env h
  rw [hr]
  exact Option.some_ne_none r

/-! ### A run on one endpoint -/

/-- An IPC operation or a scheduler call. -/
def execStep (env : IpcEnv) : IpcOp ⊕ SchedCall → World → Option (List IpcNote × World)
  | .inl o, w => o.exec env w
  | .inr c, w =>
    (c.exec env.spaces w.kernel.sched).map fun s => ([], w.setKernel (w.kernel.withSched s))

/-- IPC operations and scheduler calls executed one after another. -/
def execSteps (env : IpcEnv) (w : World) (cs : List (IpcOp ⊕ SchedCall)) :
    Option (List (List IpcNote) × World) :=
  execSome (execStep env) cs w

theorem run_of_execSteps {env : IpcEnv} {w w' : World} {cs : List (IpcOp ⊕ SchedCall)}
    {steps : List (List IpcNote)} (hb : ∀ c, .inr c ∈ cs → c.Bystander)
    (h : execSteps env w cs = some (steps, w')) : Run IpcStep w steps w' := by
  refine .of_execSome (fun c hc s e s' hr => ?_) h
  cases c with
  | inl o => exact .op env o hr
  | inr c =>
    obtain ⟨k, hk, heq⟩ := Option.map_eq_some_iff.mp hr
    obtain ⟨rfl, rfl⟩ := Prod.mk.inj heq
    exact .sched env.spaces c (hb c hc) hk

/-- Thread `1` runs and thread `2` is queued; process `1` holds a capability to the open
endpoint `5`. -/
def portWorld : World where
  kernel := {
    sched := ((bootSched.schedulerInit oneSpace (some (0x5000, 0x30000))).2.schedulerAdd 2).2
    spaces := {
      space := fun _ => ⟨0, .invalid, false, 0⟩, kernelSpace := 1, kernelReady := false,
      nextId := 0, storage := Slots.empty, unpublishedMap := .invalid }
    endpoints := {
      endpoint := fun e =>
        if e = 5 then { Endpoint.zero with id := 1, initialized := true, capabilityRefs := 1 }
        else .zero
      nextEndpointId := 2
      initialized := true
      storage := Slots.empty.put 0 5 }
    resources := { resource := fun _ => .zero, nextId := 1, storage := Slots.empty }
    table := fun _ =>
      { CapabilityTable.zero with
        slots := fun i =>
          if i = 0 then
            ⟨some 5, 1, capabilityRightSend ||| capabilityRightReceive, 1, .endpoint, true⟩
          else .zero
        count := 1
        initialized := true }
    tables := Slots.empty.put 0 9
    nextGeneration := fun _ => 2
    issuersInitialized := true
    timedWaits := Slots.empty }
  parked := fun _ => none
  calls := 0

def portEnv : IpcEnv := ⟨oneSpace, fun _ => some 9, some 100⟩

theorem portWorld_boot : IpcBoot portWorld where
  sched := by
    refine ⟨oneSpace, some (0x5000, 0x30000), bootSched, _, [some (.add 2)], bootSched_boot,
      Prod.ext (by decide +kernel) rfl, .single (.call oneSpace _ rfl)⟩
  endpoints e _ := by
    refine ⟨rfl, ?_⟩
    simp only [portWorld]
    split_ifs <;> exact ⟨⟨rfl, rfl⟩, ⟨rfl, rfl⟩, by decide, by decide⟩
  threads t ht := by
    have hinit : bootSched.schedulerInit oneSpace (some (0x5000, 0x30000)) =
        (true, (bootSched.schedulerInit oneSpace (some (0x5000, 0x30000))).2) :=
      Prod.ext (by decide +kernel) rfl
    have hinv := SchedState.schedulerInit_inv bootSched_boot hinit
    have hadd := (((SchedState.schedulerAdd_effect (t := 2) hinv).keeps hinv).threads t).wait
    obtain ⟨c, -, -, -, hthreads, -⟩ := SchedState.schedulerInit_cases hinit
    -- neither call touches a wait, and no boot thread has one
    have hnone : (portWorld.kernel.sched.thread t).waitKind = .none := by
      refine (congrArg Wait.kind hadd).trans ?_
      rw [hthreads]
      by_cases htc : t = c
      · subst htc
        simp only [ThreadState.modify_thread, Function.update_self, bootSched]
        split_ifs <;> rfl
      · simp only [ThreadState.modify_thread, Function.update_of_ne htc, bootSched]
        split_ifs <;> rfl
    rcases ht.2 with hk | hk <;> rw [hnone] at hk <;> cases hk
  timedWaits _ := rfl
  parked _ := rfl

/-- A message with one word. -/
def oneWord (x : Nat) : IpcMessage := ⟨fun i => if i = 0 then x else 0, 1⟩

/-- Thread `1` fills the mailbox and parks with a second message and a timeout. -/
def parkedSend : List (IpcOp ⊕ SchedCall) :=
  [.inl (.trySend 1 (capabilityHandle 1 0) (oneWord 7)),
    .inl (.sendBlocking 1 (capabilityHandle 1 0) (oneWord 8) (some 50)),
    .inl (.resume 0x13000)]

theorem ipc_consistent_with_parkedSend : ∃ w : World, IpcConsistent w.kernel ∧
    (w.kernel.endpoints.endpoint 5).waitingSender = some 1 ∧
    (w.kernel.sched.thread 1).state = .blocked ∧
    (w.kernel.endpoints.endpoint 5).waitingSenderMessage = oneWord 8 := by
  have hexec : (execSteps portEnv portWorld parkedSend).isSome := by decide +kernel
  obtain ⟨⟨steps, w⟩, hw⟩ := Option.isSome_iff_exists.mp hexec
  have hfacts : ((execSteps portEnv portWorld parkedSend).map fun r =>
      ((r.2.kernel.endpoints.endpoint 5).waitingSender, (r.2.kernel.sched.thread 1).state,
        (r.2.kernel.endpoints.endpoint 5).waitingSenderMessage)) =
      some (some 1, .blocked, oneWord 8) := by decide +kernel
  rw [hw] at hfacts
  simp only [Option.map_some, Option.some.injEq, Prod.mk.injEq] at hfacts
  have hrun : Run IpcStep portWorld steps w :=
    run_of_execSteps (by simp [parkedSend]) hw
  exact ⟨w, (ipc_consistent_of_run portWorld_boot hrun).1, hfacts⟩

end JcosKernel
