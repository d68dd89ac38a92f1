import JcosKernel.Ipc.Inv

/-!
# JcosKernel.Ipc.Ops

What the functions of `ipc.c` do in a consistent state.

None of them halts. What they do to a channel is one of five changes: a message is put
into an empty mailbox (`Put`), taken out of it (`Take`), replaced by the staged one
(`Promote`), a pending wait gets a result other than COMPLETED (`Settle`), or the endpoint
closes (`Close`). Every other outcome leaves the state as it was.
-/

namespace JcosKernel

open Lib Function

variable {result : ThreadWaitResult} {staged : Option IpcMessage} {message : IpcMessage}
  {sender : ThreadRef} {timed : Bool} {deadline : Nat}

theorem ThreadWaitResult.Terminal.ipcValid (h : result.Terminal) : result.IpcValid :=
  .inr h

theorem ThreadWaitResult.IpcValid.terminal (h : result.IpcValid) (hp : result ≠ .pending) :
    result.Terminal :=
  h.resolve_left hp

/-- Store a message into the mailbox. -/
def Endpoint.fill (ep : Endpoint) (message : IpcMessage) : Endpoint :=
  { ep with message := message, messageReady := true }

theorem Endpoint.fill_sameLinks {ep : Endpoint} (message : IpcMessage) :
    ep.SameLinks (ep.fill message) :=
  ⟨rfl, rfl, fun _ => rfl, fun _ => rfl⟩

namespace EndpointState

variable {s : EndpointState} {e : EndpointRef}

theorem endpointTrySend_eq (message : IpcMessage) (hu : s.Usable e) (hc : ¬ (s.endpoint e).closed)
    (hm : message.Acceptable) (hr : ¬ (s.endpoint e).messageReady) :
    s.endpointTrySend e message = (true, s.modify e (·.fill message.copied)) := by
  simp only [endpointTrySend, hu, hc, hm, hr]
  rfl

theorem endpointTryReceive_eq (hu : s.Usable e) (hc : ¬ (s.endpoint e).closed)
    (hr : (s.endpoint e).messageReady) :
    s.endpointTryReceive e = (some (s.endpoint e).message, s.modify e (·.dropMessage)) := by
  simp only [endpointTryReceive, hu, hc, hr]
  rfl

end EndpointState

namespace IpcState

variable {env : IpcEnv} {k k' : IpcState} {t : ThreadRef} {e : EndpointRef}
  {kind : ThreadWaitKind} {id : Nat}

/-! ### The changes -/

/-- `message` goes into the empty mailbox of an open endpoint. -/
structure Put (k k' : IpcState) (e : EndpointRef) (message : IpcMessage) : Prop where
  relabel : Relabel k k' e
  valid : k.IpcEndpointValid e
  isOpen : ¬ (k.endpoints.endpoint e).closed
  empty : ¬ (k.endpoints.endpoint e).messageReady
  endpoint : k'.endpoints.endpoint e = (k.endpoints.endpoint e).fill message
  wait : ∀ t, (k'.sched.thread t).wait = (k.sched.thread t).wait

/-- The mailbox is emptied; nothing was staged. -/
structure Take (k k' : IpcState) (e : EndpointRef) (message : IpcMessage) : Prop where
  relabel : Relabel k k' e
  valid : k.IpcEndpointValid e
  ready : (k.endpoints.endpoint e).messageReady
  content : (k.endpoints.endpoint e).message = message
  unstaged : ¬ (k.endpoints.endpoint e).waitingSenderMessageReady
  endpoint : k'.endpoints.endpoint e = (k.endpoints.endpoint e).dropMessage
  wait : ∀ t, (k'.sched.thread t).wait = (k.sched.thread t).wait

/-- `message` is taken out of the mailbox, and `staged`, the message of `sender`, takes its
place: the send is committed. -/
structure Promote (k k' : IpcState) (e : EndpointRef) (sender : ThreadRef)
    (message staged : IpcMessage) : Prop where
  relabel : Relabel k k' e
  valid : k.IpcEndpointValid e
  ready : (k.endpoints.endpoint e).messageReady
  content : (k.endpoints.endpoint e).message = message
  waitingSender : (k.endpoints.endpoint e).waitingSender = some sender
  pending : (k.sched.thread sender).waitResult = .pending
  ofSender : (k.endpoints.endpoint e).waitingSenderMessage.copied = staged
  endpoint : k'.endpoints.endpoint e =
    ((k.endpoints.endpoint e).fill staged).dropStaged
  completed : (k'.sched.thread sender).wait =
    { (k.sched.thread sender).wait with result := .completed }
  wait : ∀ t, t ≠ sender → (k'.sched.thread t).wait = (k.sched.thread t).wait

/-- The thread has an entry in the table of timed waits. -/
def TimedFor (k : IpcState) (t : ThreadRef) : Prop :=
  ∃ i w, k.timedWaits i = some w ∧ w.thread = t

/-- The pending wait of a linked thread with a timeout expires; a sender's staged message is
dropped. -/
structure Settle (k k' : IpcState) (e : EndpointRef) (kind : ThreadWaitKind) (t : ThreadRef) :
    Prop where
  relabel : Relabel k k' e
  valid : k.IpcEndpointValid e
  ipc : kind.Ipc
  waiting : (k.endpoints.endpoint e).waiting kind = some t
  pending : (k.sched.thread t).waitResult = .pending
  timed : k.TimedFor t
  endpoint : k'.endpoints.endpoint e =
    if kind = .ipcSend then (k.endpoints.endpoint e).dropStaged else k.endpoints.endpoint e
  settled : (k'.sched.thread t).wait = { (k.sched.thread t).wait with result := .timedOut }
  wait : ∀ u, u ≠ t → (k'.sched.thread u).wait = (k.sched.thread u).wait

/-- The result of a wait when the endpoint closes under it. -/
def closedResult (result : ThreadWaitResult) : ThreadWaitResult :=
  if result = .pending then .peerClosed else result

/-- The endpoint closes: both messages are dropped and pending waits end. -/
structure Close (k k' : IpcState) (e : EndpointRef) : Prop where
  relabel : Relabel k k' e
  valid : k.IpcEndpointValid e
  endpoint : k'.endpoints.endpoint e =
    { (k.endpoints.endpoint e).dropStaged.dropMessage with closed := true }
  settled : ∀ t kind, kind.Ipc → (k.endpoints.endpoint e).waiting kind = some t →
    (k'.sched.thread t).waitResult = closedResult (k.sched.thread t).waitResult

theorem closedResult_ne_pending (result : ThreadWaitResult) : closedResult result ≠ .pending := by
  unfold closedResult
  split_ifs with h
  · decide
  · exact h

/-- The waits are as before. -/
theorem IpcInv.coherent_same (h : IpcInv k) (hv : k.IpcEndpointValid e)
    (hw : ∀ t, (k'.sched.thread t).wait = (k.sched.thread t).wait) :
    (k.endpoints.endpoint e).Coherent fun t => (k'.sched.thread t).waitResult :=
  (h.coherent e hv).congr fun t _ _ _ => congrArg Wait.result (hw t)

theorem IpcInv.put (h : IpcInv k) (p : Put k k' e message) : IpcInv k' := by
  refine h.relabel p.relabel p.valid ?_
  rw [p.endpoint]
  exact { h.coherent_same p.valid p.wait with
    full := fun _ => rfl
    closed := fun hcl => absurd hcl p.isOpen }

theorem IpcInv.take (h : IpcInv k) (p : Take k k' e message) : IpcInv k' := by
  have hc := h.coherent_same p.valid p.wait
  refine h.relabel p.relabel p.valid ?_
  rw [p.endpoint]
  exact { hc with
    full := fun hs => absurd hs p.unstaged
    closed := fun hcl => ⟨by simp [Endpoint.dropMessage], (hc.closed hcl).2⟩ }

/-- The two sides of an endpoint are different threads. -/
theorem IpcInv.sides_ne (h : IpcInv k) (hv : k.IpcEndpointValid e) {u : ThreadRef}
    (hr : (k.endpoints.endpoint e).waitingReceiver = some t)
    (hs : (k.endpoints.endpoint e).waitingSender = some u) : t ≠ u := by
  rintro rfl
  have hkind := ((h.linked e hv .ipcReceive t (.inl rfl) hr).unique
    (h.linked e hv .ipcSend t (.inr rfl) hs)).1
  cases hkind

theorem IpcInv.promote {message staged : IpcMessage} (h : IpcInv k)
    (p : Promote k k' e sender message staged) : IpcInv k' := by
  refine h.relabel p.relabel p.valid ?_
  rw [p.endpoint]
  have hdone : (k'.sched.thread sender).waitResult = .completed := congrArg Wait.result p.completed
  refine .of_unstaged nofun (fun t ht => ?_) (fun hcl => ?_) fun t ht => ?_
  · obtain rfl : sender = t := Option.some.inj (p.waitingSender.symm.trans ht)
    simp [hdone]
  · exact absurd p.ready ((h.coherent e p.valid).closed hcl).1
  · have hres : (k'.sched.thread t).waitResult = (k.sched.thread t).waitResult :=
      congrArg Wait.result (p.wait t (h.sides_ne p.valid ht p.waitingSender))
    rw [hres]
    exact (h.coherent e p.valid).receiver t ht

theorem IpcInv.settle (h : IpcInv k) (p : Settle k k' e kind t) : IpcInv k' := by
  have hc := h.coherent e p.valid
  have hres : (k'.sched.thread t).waitResult = .timedOut := congrArg Wait.result p.settled
  have hother : ∀ u, u ≠ t → (k'.sched.thread u).waitResult = (k.sched.thread u).waitResult :=
    fun u hu => congrArg Wait.result (p.wait u hu)
  refine h.relabel p.relabel p.valid ?_
  rw [p.endpoint]
  have hw := p.waiting
  rcases p.ipc with rfl | rfl
  · -- the sender, if there is one, is another thread
    refine { hc with
      staged := hc.staged_congr fun u hu => hother u (h.sides_ne p.valid hw hu).symm
      receiver := fun u hu => ?_ }
    obtain rfl : t = u := Option.some.inj (hw.symm.trans hu)
    simp [hres]
  · refine .of_unstaged nofun (fun u hu => ?_) (fun hcl => (hc.closed hcl).1) fun u hu => ?_
    · obtain rfl : t = u := Option.some.inj (hw.symm.trans hu)
      simp [hres]
    · rw [hother u (h.sides_ne p.valid hu hw)]
      exact hc.receiver u hu

theorem IpcInv.close (h : IpcInv k) (p : Close k k' e) : IpcInv k' := by
  refine h.relabel p.relabel p.valid ?_
  rw [p.endpoint]
  refine .of_unstaged nofun (fun t ht => ?_) (fun _ => nofun) fun t ht => ?_
  · rw [p.settled t .ipcSend (.inr rfl) ht]
    exact closedResult_ne_pending _
  · rw [p.settled t .ipcReceive (.inl rfl) ht]
    have hr := (h.coherent e p.valid).receiver t ht
    unfold closedResult
    split_ifs
    · decide
    · exact hr

/-! ### Helpers of the source -/

/-- A thread that is parked or queued can be made ready. -/
theorem ipcMakeReady_spec (h : k.sched.SchedInv) (hid : (k.sched.thread t).id ≠ 0)
    (hp : k.sched.Present t) : ∃ s, k.ipcMakeReady t = (true, k.withSched s) ∧ s.SchedInv ∧
      k.sched.Keeps s ∧ s.currentThread = k.sched.currentThread := by
  unfold ipcMakeReady
  split_ifs with hb
  · obtain ⟨s, hs⟩ := SchedState.exists_schedulerWake h hid hb
    have he : SchedState.Effect False k.sched (k.sched.schedulerWake t).2 :=
      SchedState.schedulerWake_effect h
    rw [hs] at he ⊢
    exact ⟨s, rfl, he.inv h, he.keeps h, SchedState.schedulerWake_currentThread h hs⟩
  · refine ⟨k.sched, ?_, h, .refl _, rfl⟩
    rw [h.threadCurrent]
    rcases h.present_cases hp with
      ⟨hc, hrun, hon, -⟩ | ⟨-, -, ⟨hb', -⟩ | ⟨hr, hon, -⟩⟩
    · simp only [hc, hrun, hon]
      rfl
    · exact absurd hb' hb
    · simp only [hr, hon, and_self, or_true]
      rfl

/-- A pending wait can be finished. -/
theorem ipcFinish_spec (h : k.sched.SchedInv) (hw : k.Waits t kind e id) (hk : kind.Ipc)
    (hp : (k.sched.thread t).waitResult = .pending) (hr : result.Terminal) :
    k.ipcFinish t e kind id result =
      some (k.withThreads (k.sched.modify t (·.setWaitResult result))) := by
  have hm := hw.matchesId h hk
  have hc := hw.completable h
  unfold ipcFinish ThreadState.threadWaitTryComplete
  simp only [hr, hm, hp, hc, not_true_eq_false, ne_eq, or_self, if_false]

/-! ### Stores one after the other -/

/-- The stores from `k` to `k'` are at `e`; it is `ep` now, and the waits are `wait`. -/
structure Tracks (k : IpcState) (e : EndpointRef) (ep : Endpoint) (wait : ThreadRef → Wait)
    (k' : IpcState) : Prop where
  relabel : Relabel k k' e
  endpoint : k'.endpoints.endpoint e = ep
  wait : ∀ t, (k'.sched.thread t).wait = wait t

namespace Tracks

variable {ep : Endpoint} {wait : ThreadRef → Wait} {k₁ : IpcState}

theorem start (h : IpcInv k) (e : EndpointRef) :
    Tracks k e (k.endpoints.endpoint e) (fun t => (k.sched.thread t).wait) k :=
  ⟨.refl h.sched e, rfl, fun _ => rfl⟩

variable (w : Tracks k e ep wait k₁)
include w

theorem store {f : Endpoint → Endpoint} (hf : ep.SameLinks (f ep)) :
    Tracks k e (f ep) wait (k₁.modifyEndpoint e f) :=
  ⟨w.relabel.trans (.modifyEndpoint w.relabel.sched (w.endpoint ▸ hf)), by simp [w.endpoint], w.wait⟩

variable (h : IpcInv k) (hv : k.IpcEndpointValid e)
include h hv

theorem trySend (hm : message.Acceptable) (hc : ¬ ep.closed) (hr : ¬ ep.messageReady) :
    ∃ s, k₁.endpoints.endpointTrySend e message = (true, s) ∧
      Tracks k e (ep.fill message.copied) wait (k₁.withEndpoints s) := by
  have hu : k₁.endpoints.Usable e := by
    refine ⟨?_, (w.relabel.valid_iff e).mpr hv⟩
    rw [w.relabel.endpointsInitialized]
    exact h.initialized e hv
  exact ⟨_, EndpointState.endpointTrySend_eq message hu (w.endpoint ▸ hc) hm (w.endpoint ▸ hr),
    w.store (f := (·.fill message.copied)) (Endpoint.fill_sameLinks _)⟩

variable (hk : kind.Ipc)
include hk

section

variable (hlink : (k.endpoints.endpoint e).waiting kind = some t)
include hlink

theorem makeReady : ∃ k2, k₁.ipcMakeReady t = (true, k2) ∧ k₁.ipcMustMakeReady t = some k2 ∧
    Tracks k e ep wait k2 := by
  have hw := w.relabel.waits hk (h.linked e hv kind t hk hlink)
  obtain ⟨s, hs, hi, hkeep, hcur⟩ := ipcMakeReady_spec w.relabel.sched hw.threadId hw.present
  refine ⟨_, hs, by rw [ipcMustMakeReady, hs],
    w.relabel.trans (.withSched w.relabel.sched hi hkeep hcur), w.endpoint, fun t => ?_⟩
  exact (hkeep.threads t).wait.trans (w.wait t)

theorem finish (hp : (wait t).result = .pending) (hr : result.Terminal) :
    ∃ k2, k₁.ipcFinish t e kind ((k.endpoints.endpoint e).waitingId kind) result = some k2 ∧
      Tracks k e ep (update wait t { wait t with result := result }) k2 := by
  have hw := w.relabel.waits hk (h.linked e hv kind t hk hlink)
  refine ⟨_, ipcFinish_spec w.relabel.sched hw hk ((congrArg Wait.result (w.wait t)).trans hp) hr,
    w.relabel.trans (.setWaitResult w.relabel.sched hr.ipcValid hk
      ((w.relabel.links.waiting kind).trans hlink)), w.endpoint, fun u => ?_⟩
  by_cases hu : u = t
  · subst hu
    simp [← w.wait]
  · simp [hu, ← w.wait]

end

/-- The wait at one side, when the endpoint closes. -/
theorem finishPending : ∃ k2, k₁.ipcFinishPending e kind = some k2 ∧
    Tracks k e ep (fun t => { wait t with
      result := if (k.endpoints.endpoint e).waiting kind = some t then closedResult (wait t).result
        else (wait t).result }) k2 := by
  unfold ipcFinishPending
  rw [w.relabel.links.waiting, w.relabel.links.waitingId]
  cases hlink : (k.endpoints.endpoint e).waiting kind with
  | none => exact ⟨k₁, rfl, by simpa using w⟩
  | some t =>
    have hres : (k₁.sched.thread t).waitResult = (wait t).result := congrArg Wait.result (w.wait t)
    dsimp only
    rw [hres]
    split_ifs with hp
    · obtain ⟨k2, hk2, w2⟩ := w.finish h hv hk hlink hp (by decide : ThreadWaitResult.peerClosed.Terminal)
      refine ⟨k2, hk2, w2.relabel, w2.endpoint, fun u => (w2.wait u).trans ?_⟩
      by_cases hu : u = t
      · subst hu
        simp [closedResult, hp]
      · simp [hu, Ne.symm hu]
    · refine ⟨k₁, rfl, w.relabel, w.endpoint, fun u => (w.wait u).trans ?_⟩
      split_ifs with hu
      · obtain rfl := Option.some.inj hu
        rw [closedResult, if_neg hp]
      · rfl

theorem readyWaiting : ∃ k2, k₁.ipcReadyWaiting ((k.endpoints.endpoint e).waiting kind) = some k2 ∧
    Tracks k e ep wait k2 := by
  cases hlink : (k.endpoints.endpoint e).waiting kind with
  | none => exact ⟨k₁, rfl, w⟩
  | some t =>
    obtain ⟨k2, -, hk2, w2⟩ := w.makeReady h hv hk hlink
    exact ⟨k2, hk2, w2⟩

end Tracks

/-! ### Sending and receiving -/

/-- The mailbox can take the message, and a receiver that stands at it still waits. -/
def Takes (k : IpcState) (e : EndpointRef) (message : IpcMessage) : Prop :=
  k.IpcEndpointValid e ∧ message.Acceptable ∧ ¬ (k.endpoints.endpoint e).closed ∧
    ¬ k.endpoints.EndpointMessageReady e ∧ ∀ u, (k.endpoints.endpoint e).waitingReceiver = some u →
      (k.sched.thread u).waitResult = .pending

theorem ipcSendLocked_spec (e : EndpointRef) (message : IpcMessage) (h : IpcInv k) :
    ∃ r, k.ipcSendLocked e message = some r ∧
      (r = ⟨false, [], k⟩ ∧ ¬ k.Takes e message ∨
        ∃ k', r = ⟨true, [⟨e, none, message.copied⟩], k'⟩ ∧ Put k k' e message.copied) := by
  unfold ipcSendLocked
  split_ifs with h0
  · refine ⟨_, rfl, .inl ⟨rfl, fun ⟨hv, hm, hc, hr, _⟩ => ?_⟩⟩
    simp [hv, hm, hc, hr, h.reservationValid hv (.inl rfl)] at h0
  simp only [not_or, not_not] at h0
  obtain ⟨hv, hm, hc, hr, -⟩ := h0
  have hu := h.usable hv
  have hempty : ¬ (k.endpoints.endpoint e).messageReady := fun hr' => hr ⟨hu, hr'⟩
  obtain ⟨s, hs, w⟩ := (Tracks.start h e).trySend h hv hm hc hempty
  have hnote : (s.endpoint e).message = message.copied := congrArg Endpoint.message w.endpoint
  rw [hs]
  split
  · refine ⟨_, rfl, .inr ⟨k.withEndpoints s, ?_, w.relabel, hv, hc, hempty, w.endpoint, w.wait⟩⟩
    rw [hnote]
  · rename_i receiver hrecv
    split_ifs with hp
    · exact ⟨_, rfl, .inl ⟨rfl, fun hs => hp (hs.2.2.2.2 receiver hrecv)⟩⟩
    · obtain ⟨k', hk', -, w'⟩ := w.makeReady h hv (.inl rfl) hrecv
      dsimp only
      rw [hk', hnote]
      exact ⟨_, rfl, .inr ⟨k', rfl, w'.relabel, hv, hc, hempty, w'.endpoint, w'.wait⟩⟩

/-- The second half of `ipc_receive_locked`, when a message is staged. -/
theorem ipcPromote_spec (h : IpcInv k) (hv : k.IpcEndpointValid e)
    (hready : (k.endpoints.endpoint e).messageReady)
    (hst : (k.endpoints.endpoint e).waitingSenderMessageReady)
    (hsend : (k.endpoints.endpoint e).waitingSender = some sender)
    (hp : (k.sched.thread sender).waitResult = .pending) :
    ∃ k', (k.modifyEndpoint e (·.dropMessage)).ipcPromote e sender
        (k.endpoints.endpoint e).message =
      some ⟨some (k.endpoints.endpoint e).message,
        [⟨e, some sender, (k.endpoints.endpoint e).waitingSenderMessage.copied⟩], k'⟩ ∧
      Promote k k' e sender (k.endpoints.endpoint e).message
        (k.endpoints.endpoint e).waitingSenderMessage.copied := by
  have hc := h.coherent e hv
  have hopen : ¬ (k.endpoints.endpoint e).closed := fun hcl => (hc.closed hcl).1 hready
  -- the mailbox is emptied and refilled, the sender is made ready, then its wait completes
  have w1 := (Tracks.start h e).store Endpoint.dropMessage_sameLinks
  obtain ⟨s, hs, w2⟩ := w1.trySend h hv (hc.acceptable hst) hopen (by simp [Endpoint.dropMessage])
  obtain ⟨k3, hk3, -, w3⟩ := w2.makeReady h hv (.inr rfl) hsend
  obtain ⟨k4, hk4, w4⟩ := w3.finish h hv (.inr rfl) hsend hp
    (by decide : ThreadWaitResult.completed.Terminal)
  have w5 := w4.store Endpoint.dropStaged_sameLinks
  refine ⟨k4.modifyEndpoint e (·.dropStaged), ?_, w5.relabel, hv, hready, rfl, hsend, hp, rfl,
    w5.endpoint, (w5.wait sender).trans (update_self ..),
    fun t ht => (w5.wait t).trans (update_of_ne ht ..)⟩
  have hstaged : ((k.modifyEndpoint e (·.dropMessage)).endpoints.endpoint e).waitingSenderMessage =
      (k.endpoints.endpoint e).waitingSenderMessage := by rw [w1.endpoint]; rfl
  have hid : (k3.endpoints.endpoint e).waitingSenderId =
      (k.endpoints.endpoint e).waitingId .ipcSend := by rw [w3.endpoint]; rfl
  have hnote : (s.endpoint e).message = (k.endpoints.endpoint e).waitingSenderMessage.copied :=
    congrArg Endpoint.message w2.endpoint
  unfold ipcPromote
  rw [hstaged, hs]
  dsimp only
  rw [hk3]
  dsimp only
  rw [hid, hk4, hnote]
  rfl

theorem ipcReceiveLocked_spec (e : EndpointRef) (current : Option ThreadRef) (h : IpcInv k) :
    ∃ r, k.ipcReceiveLocked e current = some r ∧
      (r = ⟨none, [], k⟩ ∨
      (∃ message k', r = ⟨some message, [], k'⟩ ∧ Take k k' e message) ∨
      ∃ sender message staged k', r = ⟨some message, [⟨e, some sender, staged⟩], k'⟩ ∧
        Promote k k' e sender message staged) := by
  unfold ipcReceiveLocked
  dsimp only
  split_ifs with h0 h1 h2 h3
  any_goals exact ⟨_, rfl, .inl rfl⟩
  · simp only [not_or, not_not] at h0
    obtain ⟨hv, hopen, -, -⟩ := h0
    have hc := h.coherent e hv
    rw [EndpointState.endpointTryReceive_eq h2.1 hopen h2.2]
    dsimp only
    split
    · rename_i hst
      have hunstaged : ¬ (k.endpoints.endpoint e).waitingSenderMessageReady := by
        intro hs
        obtain ⟨t, ht, -⟩ := hc.staged.mp hs
        simp [Endpoint.stagedSender, hs, ht] at hst
      refine ⟨_, rfl, .inr (.inl ⟨_, _, rfl, ?_⟩)⟩
      exact ⟨.modifyEndpoint h.sched Endpoint.dropMessage_sameLinks, hv, h2.2, rfl, hunstaged,
        by simp [EndpointState.modify], fun _ => rfl⟩
    · rename_i sender hst
      have hs : (k.endpoints.endpoint e).waitingSenderMessageReady := by
        by_contra hn
        simp [Endpoint.stagedSender, hn] at hst
      have hsend : (k.endpoints.endpoint e).waitingSender = some sender := by
        simpa [Endpoint.stagedSender, hs] using hst
      obtain ⟨t, ht, hp⟩ := hc.staged.mp hs
      obtain rfl : sender = t := Option.some.inj (hsend.symm.trans ht)
      obtain ⟨k', he, hpr⟩ := ipcPromote_spec h hv h2.2 hs hsend hp
      exact ⟨_, he, .inr (.inr ⟨_, _, _, k', rfl, hpr⟩)⟩

/-! ### The timer -/

/-- `ipc_finish` with TIMED_OUT, and the wake behind it. -/
theorem settle_spec (h : IpcInv k) (hv : k.IpcEndpointValid e) (hk : kind.Ipc)
    (hlink : (k.endpoints.endpoint e).waiting kind = some t)
    (hp : (k.sched.thread t).waitResult = .pending) (ht : k.TimedFor t) :
    ∃ k₁ k', k.ipcFinish t e kind ((k.endpoints.endpoint e).waitingId kind) .timedOut = some k₁ ∧
      (if kind = .ipcSend then k₁.modifyEndpoint e (·.dropStaged) else k₁).ipcMustMakeReady t =
        some k' ∧ Settle k k' e kind t := by
  obtain ⟨k₁, hk1, w1⟩ := (Tracks.start h e).finish h hv hk hlink hp
    (by decide : ThreadWaitResult.timedOut.Terminal)
  obtain ⟨k2, hk2, w2⟩ : ∃ k2,
      (if kind = .ipcSend then k₁.modifyEndpoint e (·.dropStaged) else k₁) = k2 ∧
      Tracks k e (if kind = .ipcSend then (k.endpoints.endpoint e).dropStaged
        else k.endpoints.endpoint e) _ k2 := by
    refine ⟨_, rfl, ?_⟩
    split_ifs
    · exact w1.store Endpoint.dropStaged_sameLinks
    · exact w1
  obtain ⟨k', -, hk', w3⟩ := w2.makeReady h hv hk hlink
  exact ⟨k₁, k', hk1, hk2 ▸ hk', w3.relabel, hv, hk, hlink, hp, ht, w3.endpoint,
    (w3.wait t).trans (update_self ..),
    fun u hu => (w3.wait u).trans (update_of_ne hu ..)⟩

/-- The timed wait is pending, and its time has come. -/
def Due (k : IpcState) (now : Nat) (w : IpcTimedWait) : Prop :=
  (k.sched.thread w.thread).waitResult = .pending ∧ IpcDeadlineReached now w.deadline

instance (now : Nat) (w : IpcTimedWait) : Decidable (k.Due now w) :=
  inferInstanceAs (Decidable (_ ∧ _))

theorem ipcTimeoutPollSlot_spec (now : Nat) (i : Fin ipcTimedWaitCapacity) (h : IpcInv k) :
    ∃ k', k.ipcTimeoutPollSlot now i = some k' ∧
      ((k' = k ∧ ∀ w, k.timedWaits i = some w → ¬ k.Due now w) ∨
        ∃ w, k.timedWaits i = some w ∧ k.Due now w ∧
          Settle k k' w.endpoint w.kind w.thread) := by
  unfold ipcTimeoutPollSlot
  split
  · rename_i hi
    exact ⟨k, rfl, .inl ⟨rfl, fun w hw => nomatch hi.symm.trans hw⟩⟩
  rename_i w hi
  have hidle : ¬ k.Due now w → k = k ∧ ∀ v, k.timedWaits i = some v → ¬ k.Due now v :=
    fun hd => ⟨rfl, fun v hv => Option.some.inj (hi.symm.trans hv) ▸ hd⟩
  have ht := h.timed i w hi
  have hw := h.linked w.endpoint ht.valid w.kind w.thread ht.kind ht.waiting
  have hmatch := hw.matchesId h.sched ht.kind
  rw [ht.waitingId] at hmatch
  rw [if_neg]
  · by_cases hp : (k.sched.thread w.thread).waitResult = .pending
    · rw [if_neg (not_not_intro hp)]
      by_cases hd : IpcDeadlineReached now w.deadline
      · rw [if_neg (not_not_intro hd)]
        obtain ⟨k₁, k', hfin, hready, hset⟩ := settle_spec h ht.valid ht.kind ht.waiting hp
          ⟨i, w, hi, rfl⟩
        rw [ht.waitingId] at hfin
        refine ⟨k', ?_, .inr ⟨w, hi, ⟨hp, hd⟩, hset⟩⟩
        have hlink := ht.waiting
        rcases ht.kind with hk | hk <;> rw [hk] at hfin hready hlink ⊢
        · rw [hfin]
          exact hready
        · have hst : (k.endpoints.endpoint w.endpoint).waitingSenderMessageReady :=
            (h.coherent w.endpoint ht.valid).staged.mpr ⟨w.thread, hlink, hp⟩
          rw [if_neg (not_not_intro hst), hfin]
          exact hready
      · rw [if_pos hd]
        exact ⟨k, rfl, .inl (hidle fun h => hd h.2)⟩
    · rw [if_pos hp]
      exact ⟨k, rfl, .inl (hidle fun h => hp h.1)⟩
  · simp only [not_or, not_not]
    exact ⟨hw.live, ht.valid, ht.threadId, ht.endpointId, hmatch, h.reservationValid ht.valid ht.kind⟩

/-! ### Closing -/

theorem ipcEndpointClose_spec (e : EndpointRef) (h : IpcInv k) :
    k.ipcEndpointClose e = some (false, k) ∨
      ∃ k', k.ipcEndpointClose e = some (true, k') ∧ Close k k' e := by
  unfold ipcEndpointClose
  dsimp only
  split_ifs with h0 h1
  · exact .inl rfl
  · exact .inl rfl
  refine .inr ?_
  simp only [not_or, not_not] at h0
  obtain ⟨hv, -, -, -⟩ := h0
  -- the five stores, one after the other
  have w1 := (Tracks.start h e).store (f := ({ · with closed := true }))
    ⟨rfl, rfl, fun _ => rfl, fun _ => rfl⟩
  obtain ⟨k2, hk2, w2⟩ := w1.finishPending h hv (.inl rfl : ThreadWaitKind.ipcReceive.Ipc)
  obtain ⟨k3, hk3, w3⟩ := w2.finishPending h hv (.inr rfl : ThreadWaitKind.ipcSend.Ipc)
  have w4 := w3.store (f := fun ep => ep.dropStaged.dropMessage)
    (Endpoint.dropStaged_sameLinks.trans Endpoint.dropMessage_sameLinks)
  obtain ⟨k5, hk5, w5⟩ := w4.readyWaiting h hv (.inl rfl : ThreadWaitKind.ipcReceive.Ipc)
  obtain ⟨k6, hk6, w6⟩ := w5.readyWaiting h hv (.inr rfl : ThreadWaitKind.ipcSend.Ipc)
  let first t := if (k.endpoints.endpoint e).waitingReceiver = some t then
    closedResult (k.sched.thread t).waitResult else (k.sched.thread t).waitResult
  have hres t : (k6.sched.thread t).waitResult =
      if (k.endpoints.endpoint e).waitingSender = some t then closedResult (first t) else first t :=
    congrArg Wait.result (w6.wait t)
  refine ⟨k6, ?_, w6.relabel, hv, w6.endpoint, fun t kind hk hlink => ?_⟩
  · rw [hk2, Option.bind_some, hk3, Option.bind_some]
    rw [Endpoint.waiting_ipcReceive] at hk5
    rw [hk5]
    exact congrArg (Option.map _) hk6
  · simp only [hres, first]
    rcases hk with rfl | rfl
    · rw [if_neg fun hs => h.sides_ne hv hlink hs rfl]
      exact if_pos hlink
    · rw [Endpoint.waiting_ipcSend] at hlink
      rw [if_pos hlink, if_neg fun hr => h.sides_ne hv hr hlink rfl]

/-! ### Ending and aborting a wait -/

/-- `timed` is what is left of the timed waits without those of `t`. -/
def WithoutTimed (k : IpcState) (t : ThreadRef)
    (timed : Slots IpcTimedWait ipcTimedWaitCapacity) : Prop :=
  ∀ i w, timed i = some w ↔ k.timedWaits i = some w ∧ w.thread ≠ t

/-- The only entry that a thread can have is the one of its wait. -/
structure TimedOnly (k : IpcState) (t : ThreadRef) (kind : ThreadWaitKind) (e : EndpointRef)
    (id : Nat) : Prop where
  entry : ∀ i w, k.timedWaits i = some w → w.thread = t →
    w.endpoint = e ∧ w.kind = kind ∧ w.waitId = id
  once : ∀ i j w w', k.timedWaits i = some w → k.timedWaits j = some w' → w.thread = t →
    w'.thread = t → i = j

theorem IpcInv.timedOnly (h : IpcInv k) (hv : k.IpcEndpointValid e) (hk : kind.Ipc)
    (hlink : (k.endpoints.endpoint e).waiting kind = some t) :
    k.TimedOnly t kind e ((k.endpoints.endpoint e).waitingId kind) where
  entry i w hi hwt := by
    have ht := h.timed i w hi
    have hw := h.linked w.endpoint ht.valid w.kind w.thread ht.kind ht.waiting
    rw [hwt] at hw
    obtain ⟨hkk, hee, hid⟩ := hw.unique (h.linked e hv kind t hk hlink)
    exact ⟨hee, hkk, ht.waitingId.symm.trans hid⟩
  once i j w w' hi hj hw hw' := h.once i j w w' hi hj (hw.trans hw'.symm)

theorem ipcTimeoutUnregister_spec (h : k.TimedOnly t kind e id) :
    ∃ b timed, k.ipcTimeoutUnregister t e kind id = (b, { k with timedWaits := timed }) ∧
      k.WithoutTimed t timed ∧ (b = true ↔ k.TimedFor t) := by
  unfold ipcTimeoutUnregister
  cases hfind : Fin.find? fun i => TimedEntry t e kind id (k.timedWaits i) with
  | none =>
    have hnone : ∀ i w, k.timedWaits i = some w → w.thread ≠ t := by
      intro i w hi hwt
      obtain ⟨hee, hkk, hid⟩ := h.entry i w hi hwt
      have hn := Fin.find?_eq_none_iff.mp hfind i
      simp [TimedEntry, hi, hwt, hee, hkk, hid] at hn
    refine ⟨false, k.timedWaits, rfl, fun i w => ⟨fun hi => ⟨hi, hnone i w hi⟩, And.left⟩, ?_⟩
    simp only [Bool.false_eq_true, false_iff]
    rintro ⟨i, w, hi, hwt⟩
    exact hnone i w hi hwt
  | some slot =>
    have hslot : TimedEntry t e kind id (k.timedWaits slot) := by
      simpa using (Fin.find?_eq_some_iff.mp hfind).1
    obtain ⟨w0, hw0⟩ : ∃ w0, k.timedWaits slot = some w0 := by
      cases hs : k.timedWaits slot with
      | none =>
        rw [hs] at hslot
        exact hslot.elim
      | some w0 => exact ⟨w0, rfl⟩
    rw [hw0] at hslot
    refine ⟨true, k.timedWaits.clear slot, rfl, fun i w => ?_, by
      simpa using ⟨slot, w0, hw0, hslot.1⟩⟩
    rw [Slots.clear_eq_some, and_comm]
    refine and_congr_right fun hi => not_congr ⟨?_, fun hwt => h.once i slot w w0 hi hw0 hwt hslot.1⟩
    rintro rfl
    obtain rfl := Option.some.inj (hw0.symm.trans hi)
    exact hslot.1

/-- The running thread gives up a wait that is over. -/
theorem ipcEndReservation_spec (h : k.sched.SchedInv) (hw : k.Waits t kind e id) (hk : kind.Ipc)
    (hlink : (k.endpoints.endpoint e).waiting kind = some t)
    (hid : (k.endpoints.endpoint e).waitingId kind = id) (hcur : k.sched.currentThread = some t)
    (hterm : (k.sched.thread t).waitResult.Terminal) (honly : k.TimedOnly t kind e id)
    (htimed : timed = true ↔ k.TimedFor t) :
    ∃ timed', k.ipcEndReservation t e kind id timed = some (k.released t kind e timed') ∧
      k.WithoutTimed t timed' := by
  have hm := hw.matchesId h hk
  have hres : k.IpcReservationValid e kind := by
    unfold IpcReservationValid
    rw [hlink, hid]
    exact hw.reservedBy h hk
  have hrun : (k.sched.thread t).state = .running := (h.settled t).running.mpr hcur
  obtain ⟨b, timed', hun, hwithout, hb⟩ := ipcTimeoutUnregister_spec honly
  have hunreg : (if timed then k.ipcTimeoutUnregister t e kind id else (true, k)) =
      (true, { k with timedWaits := if timed then timed' else k.timedWaits }) := by
    cases timed with
    | true =>
      obtain rfl : b = true := hb.mpr (htimed.mp rfl)
      rw [if_pos rfl, if_pos rfl, hun]
    | false => rfl
  refine ⟨if timed then timed' else k.timedWaits, ?_, ?_⟩
  · unfold ipcEndReservation ThreadState.threadWaitEnd
    simp only [hm, hres, hunreg, hcur, hm.2.1, hrun, hterm, ne_eq]
    rfl
  · cases timed with
    | true => exact hwithout
    | false =>
      refine fun i w => ⟨fun hi => ⟨hi, fun hwt => ?_⟩, And.left⟩
      exact Bool.noConfusion (htimed.mpr ⟨i, w, hi, hwt⟩)

/-- The result that a wait gets right before it ends leaves no trace. -/
theorem released_setWaitResult (result : ThreadWaitResult)
    (timed : Slots IpcTimedWait ipcTimedWaitCapacity) :
    (k.withThreads (k.sched.modify t (·.setWaitResult result))).released t kind e timed =
      k.released t kind e timed := by
  simp only [released, withThreads, withSched, ThreadState.modify, update_self,
    update_idem]
  rfl

theorem ipcAbortThreadWait_spec (t : ThreadRef) (h : IpcInv k) :
    k.ipcAbortThreadWait t = (false, k) ∨
      ∃ e kind timed, k.ipcAbortThreadWait t = (true, k.released t kind e timed) ∧
        k.IpcEndpointValid e ∧ kind.Ipc ∧ (k.endpoints.endpoint e).waiting kind = some t ∧
        k.WithoutTimed t timed := by
  unfold ipcAbortThreadWait
  dsimp only
  split
  · exact .inl rfl
  split
  · rename_i e hobj
    split
    · exact .inl rfl
    rename_i h1
    simp only [not_or, not_not, not_and] at h1
    obtain ⟨hv, -, hkind, hlink⟩ := h1
    have hk : (k.sched.thread t).waitKind.Ipc := by
      by_cases hrecv : (k.sched.thread t).waitKind = .ipcReceive
      · exact .inl hrecv
      · exact .inr (hkind hrecv)
    have hw := h.linked e hv _ t hk hlink
    have hnone : (k.sched.thread t).waitResult ≠ .none := by
      intro hn
      have hres := hw.result
      rw [hn] at hres
      exact absurd hres (by decide)
    split
    · rename_i s hs
      rcases ThreadState.threadWaitAbort_cases hs hnone with ⟨-, rfl⟩ | ⟨hf, -⟩
      · exact .inl rfl
      · cases hf
    · rename_i s hs
      rcases ThreadState.threadWaitAbort_cases hs hnone with ⟨⟨⟩, -⟩ | ⟨-, -, -, -, rfl⟩
      have honly := h.timedOnly hv hk hlink
      rw [← hw.waitId] at honly
      obtain ⟨b, timed, hun, hwithout, -⟩ := ipcTimeoutUnregister_spec
        (k := k.withThreads (k.sched.modify t (·.setWait .clear))) ⟨honly.entry, honly.once⟩
      rw [hun]
      exact .inr ⟨e, _, timed, rfl, hv, hk, hlink, hwithout⟩
  · exact .inl rfl

/-! ### Beginning a wait -/

/-- A thread gets its entry in the table of timed waits. -/
structure Registers (k k' : IpcState) (t : ThreadRef) (kind : ThreadWaitKind) (e : EndpointRef)
    (id deadline : Nat) : Prop where
  fresh : ¬ k.TimedFor t
  stored : ∃ slot w, k.timedWaits slot = none ∧ k' = { k with timedWaits := k.timedWaits.put slot w } ∧
    w.thread = t ∧ w.endpoint = e ∧ w.kind = kind ∧ w.waitId = id ∧
    w.threadId = (k.sched.thread t).id ∧ w.endpointId = (k.endpoints.endpoint e).id ∧
    w.deadline = deadline

theorem Registers.caps (r : Registers k k' t kind e id deadline) : k.CapsKept k' := by
  obtain ⟨_, _, -, rfl, -⟩ := r.stored
  exact ⟨rfl, rfl⟩

/-- Every timed wait has a side of a live endpoint to itself, so a free side leaves a free
entry. -/
theorem IpcInv.timed_room (h : IpcInv k) (hv : k.IpcEndpointValid e) (hk : kind.Ipc)
    (hfree : (k.endpoints.endpoint e).waiting kind = none) : ∃ i, k.timedWaits i = none := by
  by_contra hfull
  simp only [not_exists, Option.ne_none_iff_exists'] at hfull
  choose w hw using hfull
  have ht i := h.timed i (w i) (hw i)
  choose slot hslot using fun i => (ht i).valid.1
  let side i : Fin endpointStorageCapacity × Bool := (slot i, decide ((w i).kind = .ipcReceive))
  have hkind : ∀ {a b : ThreadWaitKind}, a.Ipc → b.Ipc →
      decide (a = .ipcReceive) = decide (b = .ipcReceive) → a = b := by
    rintro _ _ (rfl | rfl) (rfl | rfl) hab <;> first | rfl | cases hab
  have hinj : Injective side := by
    intro i j hij
    obtain ⟨hs, hd⟩ := Prod.mk.inj hij
    have he : (w i).endpoint = (w j).endpoint :=
      Option.some.inj ((hslot i).symm.trans (hs ▸ hslot j))
    have hwi := (ht i).waiting
    rw [he, hkind (ht i).kind (ht j).kind hd, (ht j).waiting] at hwi
    exact (h.once j i _ _ (hw j) (hw i) (Option.some.inj hwi)).symm
  -- with as many entries as sides, the free side would be taken
  obtain ⟨-, hsurj⟩ := (Fintype.bijective_iff_injective_and_card side).mpr ⟨hinj, by simp⟩
  obtain ⟨j, hj⟩ := hv.1
  obtain ⟨i, hi⟩ := hsurj (j, decide (kind = .ipcReceive))
  obtain ⟨rfl, hd⟩ := Prod.mk.inj hi
  have hwi := (ht i).waiting
  rw [Option.some.inj ((hslot i).symm.trans hj), hkind (ht i).kind hk hd, hfree] at hwi
  cases hwi

theorem Registers.inv (r : Registers k k' t kind e id deadline) (h : IpcInv k) (hv : k.IpcEndpointValid e)
    (hk : kind.Ipc) (hlink : (k.endpoints.endpoint e).waiting kind = some t)
    (hid : (k.endpoints.endpoint e).waitingId kind = id) : IpcInv k' := by
  obtain ⟨slot, w0, -, rfl, ht, he, hkk, hwid, htid, heid, -⟩ := r.stored
  refine
    { h with
      linked := fun e' hv' kind' u hk' hu => { h.linked e' hv' kind' u hk' hu with }
      timed := fun i w hi => ?_
      once := fun i j w w' hi hj hww => ?_ }
  · rcases Slots.put_eq_some.mp hi with ⟨-, rfl⟩ | ⟨-, hi⟩
    · subst ht he hkk hwid
      exact ⟨hk, hv, hlink, hid, htid.symm, heid.symm⟩
    · exact { h.timed i w hi with }
  · rcases Slots.put_eq_some.mp hi with ⟨his, rfl⟩ | ⟨-, hi⟩ <;>
      rcases Slots.put_eq_some.mp hj with ⟨hjs, hw'⟩ | ⟨-, hj⟩
    · exact his.trans hjs.symm
    · exact absurd ⟨j, w', hj, hww.symm.trans ht⟩ r.fresh
    · exact absurd ⟨i, w, hi, hww.trans (hw' ▸ ht)⟩ r.fresh
    · exact h.once i j w w' hi hj hww

/-- What `thread_wait_begin` checked of the thread that it lets wait. -/
structure CanWait (k : IpcState) (t : ThreadRef) : Prop where
  live : k.sched.threadStorageLive t
  id : (k.sched.thread t).id ≠ 0
  clear : (k.sched.thread t).wait = .clear
  current : k.sched.currentThread = some t
  nextWaitId : k.sched.nextWaitId ≠ 0

theorem reserved_pending : ((k.reserved t kind e staged).sched.thread t).waitResult = .pending := by
  simp [Thread.setWait, Wait.begun]

/-- A blocking operation of the current thread `t` comes to the point where it waits. -/
structure Reserves (k : IpcState) (env : IpcEnv) (t : ThreadRef) (e : EndpointRef)
    (kind : ThreadWaitKind) (staged : Option IpcMessage) (timeout : Option Nat) : Prop where
  current : k.sched.threadCurrent = some t
  valid : k.IpcEndpointValid e
  ipc : kind.Ipc
  free : (k.endpoints.endpoint e).waiting kind = none
  staged : StagedFor (k.endpoints.endpoint e) kind staged
  timeout : ¬ env.TimeoutRefused timeout

variable {timeout : Option Nat}

/-- The timeout of a wait that has begun is registered. -/
theorem Reserves.register {ticks : Nat} (r : k.Reserves env t e kind staged (some ticks))
    (h : IpcInv k) (hc : k.CanWait t) :
    ∃ now k', env.ticks = some now ∧ (k.reserved t kind e staged).ipcTimeoutRegister env t e kind
      k.sched.nextWaitId ticks = (true, k') ∧ Registers (k.reserved t kind e staged) k' t kind e
        k.sched.nextWaitId ((now + ticks) % 2 ^ 64) := by
  have hticks := r.timeout
  simp only [IpcEnv.TimeoutRefused, not_or] at hticks
  obtain ⟨now, hnow⟩ := Option.ne_none_iff_exists'.mp hticks.2.2
  have hinv := h.reserve r.valid r.free r.staged hc.live hc.id hc.clear hc.current hc.nextWaitId
  obtain ⟨hlink, hlinkId⟩ := reserved_link_self r.staged
  have hw := (hinv.linked e (((reserved_relink r.staged).valid_iff e).mpr r.valid) kind t r.ipc
    hlink).matchesId hinv.sched r.ipc
  rw [hlinkId] at hw
  have hfresh : ∀ i w, k.timedWaits i = some w → w.thread ≠ t ∧ ¬ (w.endpoint = e ∧ w.kind = kind) := by
    intro i w hi
    have ht := h.timed i w hi
    refine ⟨h.ne_of_clear hc.clear ht.valid ht.kind ht.waiting, ?_⟩
    rintro ⟨rfl, rfl⟩
    cases r.free.symm.trans ht.waiting
  -- the table has a slot for each side of each endpoint, and this side was free
  obtain ⟨i, hi⟩ := h.timed_room r.valid r.ipc r.free
  obtain ⟨slot, hslot⟩ := Slots.exists_firstEmpty hi
  have hconf : ¬ ∃ i, TimedConflict t e kind k.sched.nextWaitId
      ((k.reserved t kind e staged).timedWaits i) := by
    rintro ⟨i, hi⟩
    change TimedConflict _ _ _ _ (k.timedWaits i) at hi
    cases hw : k.timedWaits i with
    | none => exact (hw ▸ hi : TimedConflict _ _ _ _ none)
    | some w =>
      rw [hw] at hi
      rcases hi with hi | ⟨he, hkk, -⟩
      · exact (hfresh i w hw).1 hi
      · exact (hfresh i w hw).2 ⟨he, hkk⟩
  obtain ⟨b, k', hreg⟩ : ∃ b k', (k.reserved t kind e staged).ipcTimeoutRegister env t e kind
    k.sched.nextWaitId ticks = (b, k') := ⟨_, _, rfl⟩
  have hstored := hreg
  unfold ipcTimeoutRegister at hstored
  rw [hnow, show (k.reserved t kind e staged).timedWaits.firstEmpty = some slot from hslot] at hstored
  dsimp only at hstored
  rw [if_neg (by simp [hticks, hw]), if_neg hconf] at hstored
  obtain ⟨rfl, rfl⟩ := Prod.mk.inj hstored
  exact ⟨now, _, hnow, hreg, fun ⟨i, w, hi, hwt⟩ => (hfresh i w hi).1 hwt, slot, _,
    Slots.get_of_firstEmpty hslot, rfl, rfl, rfl, rfl, rfl, rfl, rfl, rfl⟩

/-- The common part of the blocking operations: nothing, a link, or a link with a timeout. -/
theorem Reserves.spec (r : k.Reserves env t e kind staged timeout) (h : IpcInv k) :
    ((k.sched.threadWaitBegin t kind (.endpoint e)).1 = false ∧
      k.ipcReserve env t e kind staged timeout = some (none, k)) ∨ k.CanWait t ∧
      ((timeout = none ∧ k.ipcReserve env t e kind staged timeout =
        some (some ⟨kind, e, k.sched.nextWaitId, false⟩, k.reserved t kind e staged)) ∨
      ∃ ticks now k', timeout = some ticks ∧ env.ticks = some now ∧
        k.ipcReserve env t e kind staged timeout =
          some (some ⟨kind, e, k.sched.nextWaitId, true⟩, k') ∧
        Registers (k.reserved t kind e staged) k' t kind e k.sched.nextWaitId
          ((now + ticks) % 2 ^ 64)) := by
  unfold ipcReserve
  rcases hbegin : k.sched.threadWaitBegin t kind (.endpoint e) with ⟨b, s⟩
  rcases ThreadState.threadWaitBegin_cases hbegin with
    ⟨rfl, rfl⟩ | ⟨rfl, -, hlive, hcur, hid, -, hn, -, -, hclear, hs⟩
  · exact .inl ⟨rfl, rfl⟩
  have hcan : k.CanWait t := ⟨hlive, hid, hclear, hcur, hn⟩
  have hwid : (s.thread t).waitId = k.sched.nextWaitId := by
    simp [hs, Thread.setWait, Wait.begun]
  have hres : (k.withThreads s).modifyEndpoint e (·.reserve t k.sched.nextWaitId staged) =
      k.reserved t kind e staged := by
    rw [hs]
    rfl
  dsimp only
  rw [hwid, hres]
  refine .inr ⟨hcan, ?_⟩
  cases timeout with
  | none => exact .inl ⟨rfl, rfl⟩
  | some ticks =>
    obtain ⟨now, k', hnow, hreg, hregs⟩ := r.register h hcan
    refine .inr ⟨ticks, now, k', rfl, hnow, ?_, hregs⟩
    dsimp only
    rw [hreg]

end IpcState

end JcosKernel
