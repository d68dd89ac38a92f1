import JcosKernel.Ipc.Steps

/-!
# JcosKernel.Ipc.Inv

The invariant of the IPC bookkeeping, and the four ways in which the operations change
it.

`IpcInv` ties four data structures together: the links of the endpoints, the wait fields
of the threads, the table of timed waits and the run queue. An operation either leaves
all links alone and changes the mailbox, the staging slot and wait results of one
endpoint (`Relabel`), or links a thread (`IpcInv.reserve`), or unlinks one
(`IpcInv.release`), or does not touch IPC at all (`Quiet`).
-/

namespace JcosKernel

open Lib

namespace Endpoint

variable {ep ep' : Endpoint} {result result' : ThreadRef → ThreadWaitResult}

@[simp] theorem waiting_ipcReceive : ep.waiting .ipcReceive = ep.waitingReceiver := rfl
@[simp] theorem waiting_ipcSend : ep.waiting .ipcSend = ep.waitingSender := rfl

/-- Mailbox, staging slot and closed flag of one endpoint fit together and fit the
results of the two waits. -/
structure Coherent (ep : Endpoint) (result : ThreadRef → ThreadWaitResult) : Prop where
  staged : ep.waitingSenderMessageReady ↔ ∃ t, ep.waitingSender = some t ∧ result t = .pending
  full : ep.waitingSenderMessageReady → ep.messageReady
  acceptable : ep.waitingSenderMessageReady → ep.waitingSenderMessage.Acceptable
  closed : ep.closed → ¬ ep.messageReady ∧ ¬ ep.waitingSenderMessageReady
  -- a receive completes only while its own continuation runs
  receiver : ∀ t, ep.waitingReceiver = some t → result t ≠ .completed

theorem Coherent.staged_congr (h : ep.Coherent result)
    (hr : ∀ t, ep.waitingSender = some t → result' t = result t) :
    ep.waitingSenderMessageReady ↔ ∃ t, ep.waitingSender = some t ∧ result' t = .pending := by
  rw [h.staged]
  exact exists_congr fun t => and_congr_right fun ht => by rw [hr t ht]

theorem Coherent.congr (h : ep.Coherent result)
    (hr : ∀ t kind, kind.Ipc → ep.waiting kind = some t → result' t = result t) :
    ep.Coherent result' :=
  { h with
    staged := h.staged_congr fun t => hr t .ipcSend (.inr rfl)
    receiver := fun t ht => by
      rw [hr t .ipcReceive (.inl rfl) ht]
      exact h.receiver t ht }

/-- Nothing is staged, and no sender waits for it. -/
theorem Coherent.of_unstaged (hs : ¬ ep.waitingSenderMessageReady)
    (hp : ∀ t, ep.waitingSender = some t → result t ≠ .pending)
    (hc : ep.closed → ¬ ep.messageReady)
    (hr : ∀ t, ep.waitingReceiver = some t → result t ≠ .completed) : ep.Coherent result :=
  ⟨iff_of_false hs fun ⟨t, ht, hpend⟩ => hp t ht hpend, fun h => absurd h hs, fun h => absurd h hs,
    fun h => ⟨hc h, hs⟩, hr⟩

/-- Identity and links are the same. -/
structure SameLinks (ep ep' : Endpoint) : Prop where
  id : ep'.id = ep.id
  initialized : ep'.initialized = ep.initialized
  waiting : ∀ kind, ep'.waiting kind = ep.waiting kind
  waitingId : ∀ kind, ep'.waitingId kind = ep.waitingId kind

theorem SameLinks.refl (ep : Endpoint) : ep.SameLinks ep := ⟨rfl, rfl, fun _ => rfl, fun _ => rfl⟩

theorem SameLinks.trans {ep'' : Endpoint} (h : ep.SameLinks ep') (h' : ep'.SameLinks ep'') :
    ep.SameLinks ep'' :=
  ⟨h'.id.trans h.id, h'.initialized.trans h.initialized,
    fun kind => (h'.waiting kind).trans (h.waiting kind),
    fun kind => (h'.waitingId kind).trans (h.waitingId kind)⟩

theorem dropStaged_sameLinks : ep.SameLinks ep.dropStaged := ⟨rfl, rfl, fun _ => rfl, fun _ => rfl⟩

theorem dropMessage_sameLinks : ep.SameLinks ep.dropMessage :=
  ⟨rfl, rfl, fun _ => rfl, fun _ => rfl⟩

end Endpoint

namespace ThreadWaitKind

theorem Ipc.valid {kind : ThreadWaitKind} (h : kind.Ipc) : kind.Valid := by
  rcases h with rfl | rfl
  · exact .inl rfl
  · exact .inr (.inl rfl)

end ThreadWaitKind

namespace SchedState

variable {s : SchedState} {t : ThreadRef}

/-- The scheduler does not look at waits. -/
theorem SchedInvBut.setWait (h : SchedInv s) (w : Wait) :
    SchedInv (s.modifyThread t (·.setWait w)) := by
  have hset := h.settled t
  exact h.modify ⟨.inl rfl, rfl⟩
    (fun _ => { hset with }) (h.stackOk t)

theorem SchedInvBut.setNextWaitId (h : SchedInv s) (n : Nat) :
    SchedInv { s with nextWaitId := n } :=
  { h with queue := h.queue.imp fun _ hl => { hl with } }

/-- What a queued or parked thread looks like to `ipc_reservation_valid`. -/
theorem SchedInvBut.present_cases (h : SchedInv s) (hp : s.Present t) :
    (s.currentThread = some t ∧ (s.thread t).state = .running ∧ (s.thread t).onRunQueue ∧
      (s.thread t).runNext ≠ none) ∨
    (s.currentThread ≠ some t ∧ (s.thread t).SavedContext ∧
      (((s.thread t).state = .blocked ∧ ¬ (s.thread t).onRunQueue ∧ (s.thread t).runNext = none) ∨
        ((s.thread t).state = .ready ∧ (s.thread t).onRunQueue ∧
          (s.thread t).runNext ≠ none))) := by
  have hset := h.settled t
  obtain ⟨l, hl⟩ := h.queue
  rcases hp with hb | hon
  · obtain ⟨hoff, hsaved, hnext⟩ := hset.blocked hb
    exact .inr ⟨fun hc => hoff (hset.onQueue hc), hsaved, .inl ⟨hb, hoff, hnext⟩⟩
  · have hnext := hl.runNext_ne_none ((hl.mem t).mpr hon)
    by_cases hc : s.currentThread = some t
    · exact .inl ⟨hc, hset.running.mpr hc, hon, hnext⟩
    · obtain ⟨hready, hsaved⟩ := hset.queued hon hc
      exact .inr ⟨hc, hsaved, .inr ⟨hready, hon, hnext⟩⟩

end SchedState

namespace IpcState

variable {env : IpcEnv} {k k' k'' : IpcState} {t u : ThreadRef} {e : EndpointRef}
  {kind : ThreadWaitKind} {id : Nat}

section Fields

variable (k)

@[simp] theorem withSched_sched (s : SchedState) : (k.withSched s).sched = s := rfl
@[simp] theorem withSched_endpoints (s : SchedState) :
    (k.withSched s).endpoints = k.endpoints := rfl
@[simp] theorem withThreads_thread (s : ThreadState) :
    (k.withThreads s).sched.thread = s.thread := rfl
@[simp] theorem withThreads_endpoints (s : ThreadState) :
    (k.withThreads s).endpoints = k.endpoints := rfl
@[simp] theorem withEndpoints_endpoints (s : EndpointState) :
    (k.withEndpoints s).endpoints = s := rfl
section

variable (f : Endpoint → Endpoint)

@[simp] theorem modifyEndpoint_sched :
    (k.modifyEndpoint e f).sched = k.sched := rfl
@[simp] theorem modifyEndpoint_endpoint :
    (k.modifyEndpoint e f).endpoints.endpoint =
      Function.update k.endpoints.endpoint e (f (k.endpoints.endpoint e)) := rfl

end

end Fields

theorem IpcWaiting.active (h : k.IpcWaiting t) (hs : k.sched.SchedInv)
    (hid : (k.sched.thread t).id ≠ 0) : k.sched.ThreadWaitActive t := by
  refine ⟨hs.initialized, h.1, hid, .inl ?_⟩
  rcases h.2 with hk | hk
  · simp [hk]
  · simp [hk]

/-- The thread at `t` waits on `e`, and can be made ready. -/
structure Waits (k : IpcState) (t : ThreadRef) (kind : ThreadWaitKind) (e : EndpointRef)
    (id : Nat) : Prop where
  live : k.sched.threadStorageLive t
  threadId : (k.sched.thread t).id ≠ 0
  kind : (k.sched.thread t).waitKind = kind
  object : (k.sched.thread t).waitObject = some (.endpoint e)
  waitId : (k.sched.thread t).waitId = id
  idPos : id ≠ 0
  result : (k.sched.thread t).waitResult.IpcValid
  present : k.sched.Present t

/-- An entry of the table of timed waits is about a linked thread. -/
structure TimedOk (k : IpcState) (w : IpcTimedWait) : Prop where
  kind : w.kind.Ipc
  valid : k.IpcEndpointValid w.endpoint
  waiting : (k.endpoints.endpoint w.endpoint).waiting w.kind = some w.thread
  waitingId : (k.endpoints.endpoint w.endpoint).waitingId w.kind = w.waitId
  threadId : (k.sched.thread w.thread).id = w.threadId
  endpointId : (k.endpoints.endpoint w.endpoint).id = w.endpointId

/-- The IPC bookkeeping is consistent. -/
structure IpcInv (k : IpcState) : Prop where
  sched : k.sched.SchedInv
  initialized : ∀ e, k.IpcEndpointValid e → k.endpoints.initialized
  unlinked : ∀ e, k.IpcEndpointValid e → ∀ kind : ThreadWaitKind, kind.Ipc →
    (k.endpoints.endpoint e).waiting kind = none → (k.endpoints.endpoint e).waitingId kind = 0
  linked : ∀ e, k.IpcEndpointValid e → ∀ kind t, kind.Ipc →
    (k.endpoints.endpoint e).waiting kind = some t →
    k.Waits t kind e ((k.endpoints.endpoint e).waitingId kind)
  back : ∀ t, k.IpcWaiting t → ∃ e, k.IpcEndpointValid e ∧
    (k.endpoints.endpoint e).waiting (k.sched.thread t).waitKind = some t
  coherent : ∀ e, k.IpcEndpointValid e →
    (k.endpoints.endpoint e).Coherent fun t => (k.sched.thread t).waitResult
  timed : ∀ i w, k.timedWaits i = some w → k.TimedOk w
  once : ∀ i j w w', k.timedWaits i = some w → k.timedWaits j = some w' →
    w.thread = w'.thread → i = j

variable {e' : EndpointRef} {result result' : ThreadRef → ThreadWaitResult} {kind' : ThreadWaitKind}
  {staged : Option IpcMessage} {ep : Endpoint} {s : SchedState}

namespace Waits

variable (h : k.Waits t kind e id)
include h

theorem unique {id' : Nat} (h' : k.Waits t kind' e' id') : kind = kind' ∧ e = e' ∧ id = id' := by
  refine ⟨h.kind.symm.trans h'.kind, ?_, h.waitId.symm.trans h'.waitId⟩
  have ho := h.object.symm.trans h'.object
  simpa using ho

theorem ipcWaiting (hk : kind.Ipc) : k.IpcWaiting t :=
  ⟨h.live, h.kind ▸ hk⟩

theorem matchesId (hs : k.sched.SchedInv) (hk : kind.Ipc) :
    k.sched.ThreadWaitMatchesId t kind (.endpoint e) id :=
  ⟨h.idPos, ⟨hs.initialized, h.live, h.threadId, hk.valid, h.waitId ▸ h.idPos, h.kind, h.object⟩,
    h.waitId⟩

theorem reservedBy (hs : k.sched.SchedInv) (hk : kind.Ipc) : k.ReservedBy t e kind id := by
  refine ⟨h.matchesId hs hk, h.result, ?_⟩
  rw [hs.threadCurrent]
  rcases hs.present_cases h.present with
    ⟨hc, hrun, hon, hnext⟩ | ⟨hc, ⟨hready, hrsp, -⟩, hstate⟩
  · rw [if_pos ⟨hc.symm, hrun⟩]
    exact ⟨hon, hnext⟩
  · rw [if_neg fun h => hc h.1.symm]
    exact ⟨hready, hrsp, hstate⟩

theorem completable (hs : k.sched.SchedInv) : k.sched.Completable t := by
  rcases hs.present_cases h.present with
    ⟨hc, hrun, -⟩ | ⟨-, -, ⟨hb, -⟩ | ⟨hr, -⟩⟩
  · exact .inr (.inr ⟨hc.symm, hrun⟩)
  · exact .inl hb
  · exact .inr (.inl hr)

/-- The thread is still there, and of its wait at most the result has changed. -/
theorem carry {r : ThreadWaitResult} (hl : k'.sched.threadStorageLive t)
    (hid : (k'.sched.thread t).id = (k.sched.thread t).id)
    (hw : (k'.sched.thread t).wait = { (k.sched.thread t).wait with result := r })
    (hr : r.IpcValid) (hp : k'.sched.Present t) : k'.Waits t kind e id := by
  simp only [Thread.wait, Wait.mk.injEq] at hw
  exact ⟨hl, hid ▸ h.threadId, hw.1.trans h.kind, hw.2.2.1.trans h.object, hw.2.2.2.trans h.waitId,
    h.idPos, hw.2.1 ▸ hr, hp⟩

end Waits

theorem IpcInv.reservationValid (h : IpcInv k) (hv : k.IpcEndpointValid e) (hk : kind.Ipc) :
    k.IpcReservationValid e kind := by
  unfold IpcReservationValid
  cases hw : (k.endpoints.endpoint e).waiting kind with
  | none => exact h.unlinked e hv kind hk hw
  | some t => exact (h.linked e hv kind t hk hw).reservedBy h.sched hk

theorem IpcInv.usable (h : IpcInv k) (hv : k.IpcEndpointValid e) : k.endpoints.Usable e :=
  ⟨h.initialized e hv, hv.1, hv.2.1, hv.2.2⟩

/-! ### Changes that keep the links -/

/-- Capability tables and device resources are as before. -/
structure CapsKept (k k' : IpcState) : Prop where
  table : k'.table = k.table
  resources : k'.resources = k.resources

theorem CapsKept.refl (k : IpcState) : k.CapsKept k := ⟨rfl, rfl⟩

theorem CapsKept.trans (h : k.CapsKept k') (h' : k'.CapsKept k'') : k.CapsKept k'' :=
  ⟨h'.table.trans h.table, h'.resources.trans h.resources⟩

/-- Every link is as before, and a thread that waits at one waits on. -/
structure SameWaits (k k' : IpcState) : Prop where
  sched : k'.sched.SchedInv
  initialized : k'.endpoints.initialized = k.endpoints.initialized
  valid_iff : ∀ e, k'.IpcEndpointValid e ↔ k.IpcEndpointValid e
  sameLinks : ∀ e, (k.endpoints.endpoint e).SameLinks (k'.endpoints.endpoint e)
  timedWaits : k'.timedWaits = k.timedWaits
  waits : ∀ t kind e id, kind.Ipc → k.Waits t kind e id →
    k'.Waits t kind e id ∧ (k'.sched.thread t).id = (k.sched.thread t).id
  fresh : ∀ t, k'.IpcWaiting t → k.IpcWaiting t

/-- Only what the mailboxes hold has to be shown. -/
theorem IpcInv.sameWaits (h : IpcInv k) (r : SameWaits k k') (hc : ∀ e, k.IpcEndpointValid e →
      (k'.endpoints.endpoint e).Coherent fun t => (k'.sched.thread t).waitResult) : IpcInv k' where
  sched := r.sched
  initialized e hv := by
    rw [r.initialized]
    exact h.initialized e ((r.valid_iff e).mp hv)
  unlinked e hv kind hk hn := by
    rw [(r.sameLinks e).waiting] at hn
    rw [(r.sameLinks e).waitingId]
    exact h.unlinked e ((r.valid_iff e).mp hv) kind hk hn
  linked e hv kind t hk hw := by
    rw [(r.sameLinks e).waiting] at hw
    rw [(r.sameLinks e).waitingId]
    exact (r.waits _ _ _ _ hk (h.linked e ((r.valid_iff e).mp hv) kind t hk hw)).1
  back t hw := by
    have hw0 := r.fresh t hw
    obtain ⟨e, hv, he⟩ := h.back t hw0
    have hkind := (r.waits _ _ _ _ hw0.2 (h.linked e hv _ t hw0.2 he)).1.kind
    refine ⟨e, (r.valid_iff e).mpr hv, ?_⟩
    rw [hkind, (r.sameLinks e).waiting]
    exact he
  coherent e hv := hc e ((r.valid_iff e).mp hv)
  timed i w hi := by
    rw [r.timedWaits] at hi
    have hw := h.timed i w hi
    have hl := r.sameLinks w.endpoint
    have hwaits := h.linked w.endpoint hw.valid w.kind w.thread hw.kind hw.waiting
    exact ⟨hw.kind, (r.valid_iff _).mpr hw.valid, (hl.waiting _).trans hw.waiting,
      (hl.waitingId _).trans hw.waitingId, (r.waits _ _ _ _ hw.kind hwaits).2.trans hw.threadId,
      hl.id.trans hw.endpointId⟩
  once := by
    rw [r.timedWaits]
    exact h.once

/-- Only endpoint `e`, apart from its links, and the results of the threads linked to it
change; threads are made ready. -/
structure Relabel (k k' : IpcState) (e : EndpointRef) : Prop where
  sched : k'.sched.SchedInv
  storage : k'.sched.storage = k.sched.storage
  currentThread : k'.sched.currentThread = k.sched.currentThread
  threadId : ∀ t, (k'.sched.thread t).id = (k.sched.thread t).id
  present : ∀ t, (k.sched.thread t).id ≠ 0 → k.IpcWaiting t → k.sched.Present t →
    k'.sched.Present t
  wait : ∀ t, ∃ result, (k'.sched.thread t).wait = { (k.sched.thread t).wait with result } ∧
    (result = (k.sched.thread t).waitResult ∨ (result.IpcValid ∧
      ∃ kind : ThreadWaitKind, kind.Ipc ∧ (k.endpoints.endpoint e).waiting kind = some t))
  endpointsInitialized : k'.endpoints.initialized = k.endpoints.initialized
  endpointStorage : k'.endpoints.storage = k.endpoints.storage
  others : ∀ e', e' ≠ e → k'.endpoints.endpoint e' = k.endpoints.endpoint e'
  links : (k.endpoints.endpoint e).SameLinks (k'.endpoints.endpoint e)
  timedWaits : k'.timedWaits = k.timedWaits
  caps : k.CapsKept k'

namespace Relabel

section

variable (r : Relabel k k' e)
include r

theorem sameLinks (e' : EndpointRef) :
    (k.endpoints.endpoint e').SameLinks (k'.endpoints.endpoint e') := by
  by_cases he : e' = e
  · exact he ▸ r.links
  · rw [r.others e' he]
    exact .refl _

theorem valid_iff (e' : EndpointRef) : k'.IpcEndpointValid e' ↔ k.IpcEndpointValid e' := by
  simp only [IpcEndpointValid, EndpointState.EndpointLive, r.endpointStorage, (r.sameLinks e').id,
    (r.sameLinks e').initialized]

theorem waitKind (t : ThreadRef) : (k'.sched.thread t).waitKind = (k.sched.thread t).waitKind := by
  obtain ⟨_, hw, -⟩ := r.wait t
  exact congrArg Wait.kind hw

theorem waitResult (t : ThreadRef) :
    (k'.sched.thread t).waitResult = (k.sched.thread t).waitResult ∨
      ((k'.sched.thread t).waitResult.IpcValid ∧ ∃ kind : ThreadWaitKind, kind.Ipc ∧
        (k.endpoints.endpoint e).waiting kind = some t) := by
  obtain ⟨result, hw, h⟩ := r.wait t
  have hr : (k'.sched.thread t).waitResult = result := congrArg Wait.result hw
  rwa [hr]

theorem ipcWaiting_iff (t : ThreadRef) : k'.IpcWaiting t ↔ k.IpcWaiting t := by
  simp only [IpcWaiting, ThreadState.threadStorageLive, r.storage, r.waitKind]

theorem waits (hk : kind.Ipc) (h : k.Waits t kind e' id) : k'.Waits t kind e' id := by
  obtain ⟨result, hw, hr⟩ := r.wait t
  refine h.carry ?_ (r.threadId t) hw ?_ (r.present t h.threadId (h.ipcWaiting hk) h.present)
  · rw [ThreadState.threadStorageLive, r.storage]
    exact h.live
  · rcases hr with rfl | ⟨hv, -⟩
    · exact h.result
    · exact hv

theorem sameWaits : SameWaits k k' where
  sched := r.sched
  initialized := r.endpointsInitialized
  valid_iff := r.valid_iff
  sameLinks := r.sameLinks
  timedWaits := r.timedWaits
  waits t _ _ _ hk hw := ⟨r.waits hk hw, r.threadId t⟩
  fresh t := (r.ipcWaiting_iff t).mp

end

theorem refl (h : k.sched.SchedInv) (e : EndpointRef) : Relabel k k e where
  sched := h
  storage := rfl
  currentThread := rfl
  threadId _ := rfl
  present _ _ _ hp := hp
  wait _ := ⟨_, rfl, .inl rfl⟩
  endpointsInitialized := rfl
  endpointStorage := rfl
  others _ _ := rfl
  links := .refl _
  timedWaits := rfl
  caps := .refl k

theorem trans (r : Relabel k k' e) (r' : Relabel k' k'' e) : Relabel k k'' e where
  sched := r'.sched
  storage := r'.storage.trans r.storage
  currentThread := r'.currentThread.trans r.currentThread
  threadId t := (r'.threadId t).trans (r.threadId t)
  present t hid hw hp :=
    r'.present t (by rwa [r.threadId]) ((r.ipcWaiting_iff t).mpr hw) (r.present t hid hw hp)
  wait t := by
    obtain ⟨r1, h1, hr1⟩ := r.wait t
    obtain ⟨r2, h2, hr2⟩ := r'.wait t
    refine ⟨r2, h2.trans (by rw [h1]), ?_⟩
    rcases hr2 with rfl | ⟨hv, kind, hk, hw⟩
    · have he : (k'.sched.thread t).waitResult = r1 := congrArg Wait.result h1
      rwa [he]
    · rw [r.links.waiting] at hw
      exact .inr ⟨hv, kind, hk, hw⟩
  endpointsInitialized := r'.endpointsInitialized.trans r.endpointsInitialized
  endpointStorage := r'.endpointStorage.trans r.endpointStorage
  others e' he := (r'.others e' he).trans (r.others e' he)
  links := r.links.trans r'.links
  timedWaits := r'.timedWaits.trans r.timedWaits
  caps := r.caps.trans r'.caps

/-- A store to the endpoint that keeps its links. -/
theorem modifyEndpoint {f : Endpoint → Endpoint} (h : k.sched.SchedInv)
    (hf : (k.endpoints.endpoint e).SameLinks (f (k.endpoints.endpoint e))) :
    Relabel k (k.modifyEndpoint e f) e :=
  { refl h e with
    others := fun e' he => by simp [he]
    links := by simpa using hf
    caps := ⟨rfl, rfl⟩ }

/-- The scheduler ran. -/
theorem withSched (h : k.sched.SchedInv) (hs : s.SchedInv) (hk : k.sched.Keeps s)
    (hc : s.currentThread = k.sched.currentThread) :
    Relabel k (k.withSched s) e :=
  { refl h e with
    sched := hs
    storage := hk.storage
    currentThread := hc
    threadId := fun t => (hk.threads t).id
    present := fun _ hid hw hp => hk.present (hw.active h hid) hp
    wait := fun u => ⟨_, (hk.threads u).wait, .inl rfl⟩
    caps := ⟨rfl, rfl⟩ }

/-- A linked thread got a result. -/
theorem setWaitResult {result : ThreadWaitResult} (h : k.sched.SchedInv) (hr : result.IpcValid)
    (hk : kind.Ipc) (hw : (k.endpoints.endpoint e).waiting kind = some t) :
    Relabel k (k.withThreads (k.sched.modify t (·.setWaitResult result))) e :=
  { refl h e with
    sched := h.setWait { (k.sched.thread t).wait with result }
    threadId := fun u => by
      by_cases hu : u = t
      · subst hu
        simp [Thread.setWaitResult]
      · simp [hu]
    present := fun u _ _ hp => by
      by_cases hu : u = t
      · subst hu
        simpa [SchedState.Present, Thread.setWaitResult] using hp
      · simpa [SchedState.Present, hu] using hp
    wait := fun u => by
      by_cases hu : u = t
      · subst hu
        exact ⟨result, by simp, .inr ⟨hr, kind, hk, hw⟩⟩
      · refine ⟨_, ?_, .inl rfl⟩
        rw [withThreads_thread, ThreadState.modify_thread, Function.update_of_ne hu]
        rfl
    caps := ⟨rfl, rfl⟩ }

end Relabel

theorem IpcInv.relabel (h : IpcInv k) (r : Relabel k k' e) (hv : k.IpcEndpointValid e)
    (hc : (k'.endpoints.endpoint e).Coherent fun t => (k'.sched.thread t).waitResult) :
    IpcInv k' := by
  refine h.sameWaits r.sameWaits fun e' hv0 => ?_
  by_cases he : e' = e
  · exact he ▸ hc
  · rw [r.others e' he]
    refine (h.coherent e' hv0).congr fun t kind hk hw => ?_
    -- a thread linked to `e'` is not linked to `e`
    rcases r.waitResult t with hr | ⟨-, kind', hk', hw'⟩
    · exact hr
    · exact absurd ((h.linked e' hv0 kind t hk hw).unique (h.linked e hv kind' t hk' hw')).2.1 he

/-! ### Steps that have nothing to do with IPC -/

/-- The threads that wait for IPC, the channels and the timed waits are as before. -/
structure Quiet (k k' : IpcState) : Prop where
  sched : k'.sched.SchedInv
  endpoints : k.endpoints.SameChannels k'.endpoints
  timedWaits : k'.timedWaits = k.timedWaits
  waiting : ∀ t, (k.sched.thread t).id ≠ 0 → k.IpcWaiting t → k.sched.Present t →
    k'.sched.threadStorageLive t ∧ (k'.sched.thread t).id = (k.sched.thread t).id ∧
      (k'.sched.thread t).wait = (k.sched.thread t).wait ∧ k'.sched.Present t
  fresh : ∀ t, k'.IpcWaiting t → k.IpcWaiting t

namespace Quiet

theorem sameLinks (q : Quiet k k') (e : EndpointRef) :
    (k.endpoints.endpoint e).SameLinks (k'.endpoints.endpoint e) := by
  rw [q.endpoints.endpoint e]
  exact ⟨rfl, rfl, fun _ => rfl, fun _ => rfl⟩

theorem valid_iff (q : Quiet k k') (e : EndpointRef) :
    k'.IpcEndpointValid e ↔ k.IpcEndpointValid e := by
  simp only [IpcEndpointValid, EndpointState.EndpointLive, q.endpoints.storage, (q.sameLinks e).id,
    (q.sameLinks e).initialized]

theorem keeps (q : Quiet k k') (hk : kind.Ipc) (h : k.Waits t kind e id) :
    k'.sched.threadStorageLive t ∧ (k'.sched.thread t).id = (k.sched.thread t).id ∧
      (k'.sched.thread t).wait = (k.sched.thread t).wait ∧ k'.sched.Present t :=
  q.waiting t h.threadId (h.ipcWaiting hk) h.present

theorem waits (q : Quiet k k') (hk : kind.Ipc) (h : k.Waits t kind e id) :
    k'.Waits t kind e id := by
  obtain ⟨hl, hid, hw, hp⟩ := q.keeps hk h
  exact h.carry hl hid hw h.result hp

theorem sameWaits (q : Quiet k k') : SameWaits k k' where
  sched := q.sched
  initialized := q.endpoints.initialized
  valid_iff := q.valid_iff
  sameLinks := q.sameLinks
  timedWaits := q.timedWaits
  waits _ _ _ _ hk hw := ⟨q.waits hk hw, (q.keeps hk hw).2.1⟩
  fresh := q.fresh

/-- A call of the scheduler on behalf of other threads. -/
theorem of_keeps (h : k.sched.SchedInv) (hs : s.SchedInv) (hk : k.sched.Keeps s) :
    Quiet k (k.withSched s) where
  sched := hs
  endpoints := ⟨rfl, rfl, fun _ => rfl⟩
  timedWaits := rfl
  waiting t hid hw hp := by
    refine ⟨?_, (hk.threads t).id, (hk.threads t).wait, hk.present ?_ hp⟩
    · rw [ThreadState.threadStorageLive, withSched_sched, hk.storage]
      exact hw.1
    · exact hw.active h hid
  fresh t hw := by
    have hkind : (s.thread t).waitKind = (k.sched.thread t).waitKind :=
      congrArg Wait.kind (hk.threads t).wait
    simpa only [IpcWaiting, ThreadState.threadStorageLive, withSched_sched, hk.storage, hkind] using hw

theorem of_elsewhere (h : k.sched.SchedInv) (he : IpcElsewhere k k') : Quiet k k' where
  sched := SchedState.schedElsewhere_inv h he.sched
  endpoints := he.endpoints
  timedWaits := he.timedWaits
  waiting t _ hw hp := by
    obtain ⟨hl, heq⟩ := he.waiting t hw
    refine ⟨hl, ?_, ?_, ?_⟩
    · rw [heq]
    · rw [heq]
      rfl
    · rw [SchedState.Present, heq]
      exact hp
  fresh := he.fresh

end Quiet

theorem IpcInv.quiet (h : IpcInv k) (q : Quiet k k') : IpcInv k' := by
  refine h.sameWaits q.sameWaits fun e hv0 => ?_
  have hc : (k.endpoints.endpoint e).Coherent fun t => (k'.sched.thread t).waitResult :=
    (h.coherent e hv0).congr fun t kind hk hw =>
      congrArg Wait.result (q.keeps hk (h.linked e hv0 kind t hk hw)).2.2.1
  rw [q.endpoints.endpoint e]
  exact { hc with }

/-! ### Linking and unlinking a thread -/

theorem Waits.of_thread_eq {k' : IpcState} (h : k.Waits t kind e id)
    (hs : k'.sched.storage = k.sched.storage) (ht : k'.sched.thread t = k.sched.thread t) :
    k'.Waits t kind e id := by
  refine h.carry ?_ (by rw [ht]) (congrArg Thread.wait ht) h.result ?_
  · rw [ThreadState.threadStorageLive, hs]
    exact h.live
  · rw [SchedState.Present, ht]
    exact h.present

/-- Only the wait of `t` and its link at one side of `e` change. -/
structure Relink (k k' : IpcState) (t : ThreadRef) (kind : ThreadWaitKind) (e : EndpointRef) :
    Prop where
  storage : k'.sched.storage = k.sched.storage
  thread : ∀ u, u ≠ t → k'.sched.thread u = k.sched.thread u
  endpointsInitialized : k'.endpoints.initialized = k.endpoints.initialized
  endpointStorage : k'.endpoints.storage = k.endpoints.storage
  others : ∀ e', e' ≠ e → k'.endpoints.endpoint e' = k.endpoints.endpoint e'
  id : (k'.endpoints.endpoint e).id = (k.endpoints.endpoint e).id
  initialized : (k'.endpoints.endpoint e).initialized = (k.endpoints.endpoint e).initialized
  side : ∀ kind' : ThreadWaitKind, kind'.Ipc → kind' ≠ kind →
    (k'.endpoints.endpoint e).waiting kind' = (k.endpoints.endpoint e).waiting kind' ∧
      (k'.endpoints.endpoint e).waitingId kind' = (k.endpoints.endpoint e).waitingId kind'

namespace Relink

theorem endpoint_id (r : Relink k k' t kind e) (e' : EndpointRef) :
    (k'.endpoints.endpoint e').id = (k.endpoints.endpoint e').id ∧
      (k'.endpoints.endpoint e').initialized = (k.endpoints.endpoint e').initialized := by
  by_cases he : e' = e
  · exact he ▸ ⟨r.id, r.initialized⟩
  · rw [r.others e' he]
    exact ⟨rfl, rfl⟩

theorem valid_iff (r : Relink k k' t kind e) (e' : EndpointRef) :
    k'.IpcEndpointValid e' ↔ k.IpcEndpointValid e' := by
  simp only [IpcEndpointValid, EndpointState.EndpointLive, r.endpointStorage, r.endpoint_id e']

/-- Every link but the one that changes is as before. -/
theorem links (r : Relink k k' t kind e) (hk' : kind'.Ipc) (hne : ¬ (e' = e ∧ kind' = kind)) :
    (k'.endpoints.endpoint e').waiting kind' = (k.endpoints.endpoint e').waiting kind' ∧
      (k'.endpoints.endpoint e').waitingId kind' = (k.endpoints.endpoint e').waitingId kind' := by
  by_cases he : e' = e
  · subst he
    exact r.side kind' hk' fun hkk => hne ⟨rfl, hkk⟩
  · rw [r.others e' he]
    exact ⟨rfl, rfl⟩

end Relink

/-- The link that changes belonged to no other thread, and no other link belongs to `t`. -/
theorem IpcInv.relink (h : IpcInv k) (r : Relink k k' t kind e) (hv : k.IpcEndpointValid e)
    (hs : k'.sched.SchedInv) (hold : ∀ u, u ≠ t → (k.endpoints.endpoint e).waiting kind ≠ some u)
    (hapart : ∀ e' kind' u, k.IpcEndpointValid e' → kind'.Ipc → ¬ (e' = e ∧ kind' = kind) →
      (k.endpoints.endpoint e').waiting kind' = some u → u ≠ t)
    (hnone : (k'.endpoints.endpoint e).waiting kind = none →
      (k'.endpoints.endpoint e).waitingId kind = 0)
    (hlinked : ∀ u, (k'.endpoints.endpoint e).waiting kind = some u →
      k'.Waits u kind e ((k'.endpoints.endpoint e).waitingId kind))
    (hback : k'.IpcWaiting t →
      (k'.endpoints.endpoint e).waiting (k'.sched.thread t).waitKind = some t)
    (hc : (k'.endpoints.endpoint e).Coherent fun u => (k'.sched.thread u).waitResult)
    (htimed : ∀ i w, k'.timedWaits i = some w → k.timedWaits i = some w ∧ w.thread ≠ t) :
    IpcInv k' where
  sched := hs
  initialized e' hv' := by
    rw [r.endpointsInitialized]
    exact h.initialized e' ((r.valid_iff e').mp hv')
  unlinked e' hv' kind' hk' hn := by
    by_cases hnew : e' = e ∧ kind' = kind
    · obtain ⟨rfl, rfl⟩ := hnew
      exact hnone hn
    · rw [(r.links hk' hnew).1] at hn
      rw [(r.links hk' hnew).2]
      exact h.unlinked e' ((r.valid_iff e').mp hv') kind' hk' hn
  linked e' hv' kind' u hk' hw := by
    by_cases hnew : e' = e ∧ kind' = kind
    · obtain ⟨rfl, rfl⟩ := hnew
      exact hlinked u hw
    · have hv0 := (r.valid_iff e').mp hv'
      rw [(r.links hk' hnew).1] at hw
      rw [(r.links hk' hnew).2]
      exact (h.linked e' hv0 kind' u hk' hw).of_thread_eq r.storage
        (r.thread u (hapart e' kind' u hv0 hk' hnew hw))
  back u hu := by
    by_cases hut : u = t
    · subst hut
      exact ⟨e, (r.valid_iff e).mpr hv, hback hu⟩
    · rw [IpcWaiting, ThreadState.threadStorageLive, r.storage, r.thread u hut] at hu
      obtain ⟨e', hv', he'⟩ := h.back u hu
      rw [r.thread u hut]
      refine ⟨e', (r.valid_iff e').mpr hv', (r.links hu.2 ?_).1.trans he'⟩
      rintro ⟨rfl, hk⟩
      exact hold u hut (hk ▸ he')
  coherent e' hv' := by
    by_cases he : e' = e
    · exact he ▸ hc
    · have hv0 := (r.valid_iff e').mp hv'
      rw [r.others e' he]
      refine (h.coherent e' hv0).congr fun u kind' hk' hw => ?_
      rw [r.thread u (hapart e' kind' u hv0 hk' (fun hnew => he hnew.1) hw)]
  timed i w hi := by
    obtain ⟨hi0, hut⟩ := htimed i w hi
    have hw := h.timed i w hi0
    have hl := r.links hw.kind fun hnew : w.endpoint = e ∧ w.kind = kind =>
      hold w.thread hut (hnew.1 ▸ hnew.2 ▸ hw.waiting)
    refine ⟨hw.kind, (r.valid_iff _).mpr hw.valid, hl.1.trans hw.waiting, hl.2.trans hw.waitingId,
      ?_, (r.endpoint_id _).1.trans hw.endpointId⟩
    rw [r.thread _ hut]
    exact hw.threadId
  once i j w w' hi hj hww := h.once i j w w' (htimed i w hi).1 (htimed j w' hj).1 hww

/-- What the running thread brings when it is linked: a sender its message, and a full
mailbox to wait for. -/
def StagedFor (ep : Endpoint) : ThreadWaitKind → Option IpcMessage → Prop
  | .ipcReceive, none => True
  | .ipcSend, some message => message.Acceptable ∧ ep.messageReady
  | _, _ => False

theorem reserve_links (t : ThreadRef) (id : Nat) (h : StagedFor ep kind staged) :
    (ep.reserve t id staged).waiting kind = some t ∧
      (ep.reserve t id staged).waitingId kind = id ∧
      ∀ kind' : ThreadWaitKind, kind'.Ipc → kind' ≠ kind →
        (ep.reserve t id staged).waiting kind' = ep.waiting kind' ∧
          (ep.reserve t id staged).waitingId kind' = ep.waitingId kind' := by
  cases kind <;> cases staged <;> first
    | exact h.elim
    | refine ⟨rfl, rfl, fun kind' hk' hne => ?_⟩
      rcases hk' with rfl | rfl
      all_goals
        first
          | exact absurd rfl hne
          | exact ⟨rfl, rfl⟩

theorem reserve_coherent (h : ep.Coherent result) (hst : StagedFor ep kind staged)
    (ht : result' t = .pending)
    (hr : ∀ u kind', kind'.Ipc → ep.waiting kind' = some u → result' u = result u) :
    (ep.reserve t id staged).Coherent result' := by
  have hc := h.congr hr
  cases kind <;> cases staged <;> first
    | exact hst.elim
    | skip
  · exact { hc with
      receiver := fun u hu => by
        obtain rfl : t = u := by simpa [Endpoint.reserve] using hu
        simp [ht] }
  · exact { hc with
      staged := ⟨fun _ => ⟨t, rfl, ht⟩, fun _ => rfl⟩
      full := fun _ => hst.2
      acceptable := fun _ => hst.1
      closed := fun hcl => absurd hst.2 (h.closed hcl).1 }

/-- The state after `thread_wait_begin` and the stores of the link. -/
def reserved (k : IpcState) (t : ThreadRef) (kind : ThreadWaitKind) (e : EndpointRef)
    (staged : Option IpcMessage) : IpcState :=
  (k.withThreads { k.sched.modify t (·.setWait (.begun kind (.endpoint e) k.sched.nextWaitId)) with
    nextWaitId := succ64 k.sched.nextWaitId }).modifyEndpoint e
      (·.reserve t k.sched.nextWaitId staged)

section Reserved

@[simp] theorem reserved_endpoint_self : (k.reserved t kind e staged).endpoints.endpoint e =
    (k.endpoints.endpoint e).reserve t k.sched.nextWaitId staged := by simp [reserved]

theorem reserved_endpoint_of_ne (he : e' ≠ e) :
    (k.reserved t kind e staged).endpoints.endpoint e' = k.endpoints.endpoint e' := by
  simp [reserved, he]

@[simp] theorem reserved_thread_self : (k.reserved t kind e staged).sched.thread t =
    (k.sched.thread t).setWait (.begun kind (.endpoint e) k.sched.nextWaitId) := by simp [reserved]

theorem reserved_thread_of_ne (hu : u ≠ t) :
    (k.reserved t kind e staged).sched.thread u = k.sched.thread u := by simp [reserved, hu]

theorem reserved_link_self (hst : StagedFor (k.endpoints.endpoint e) kind staged) :
    ((k.reserved t kind e staged).endpoints.endpoint e).waiting kind = some t ∧
      ((k.reserved t kind e staged).endpoints.endpoint e).waitingId kind = k.sched.nextWaitId := by
  obtain ⟨hself, hselfId, -⟩ := reserve_links t k.sched.nextWaitId hst
  rw [reserved_endpoint_self]
  exact ⟨hself, hselfId⟩

theorem reserved_relink (hst : StagedFor (k.endpoints.endpoint e) kind staged) :
    Relink k (k.reserved t kind e staged) t kind e := by
  refine ⟨rfl, fun _ => reserved_thread_of_ne, rfl, rfl, fun _ => reserved_endpoint_of_ne, ?_, ?_, ?_⟩
  all_goals rw [reserved_endpoint_self]
  · cases staged <;> rfl
  · cases staged <;> rfl
  · exact (reserve_links t k.sched.nextWaitId hst).2.2

/-- A thread without a wait is not linked. -/
theorem IpcInv.ne_of_clear (h : IpcInv k) (hclear : (k.sched.thread t).wait = .clear)
    (hv' : k.IpcEndpointValid e') (hk' : kind'.Ipc)
    (hw : (k.endpoints.endpoint e').waiting kind' = some u) : u ≠ t := by
  rintro rfl
  have hkind : (k.sched.thread u).waitKind = .none := congrArg Wait.kind hclear
  have hu := (h.linked e' hv' kind' u hk' hw).kind
  rw [hkind] at hu
  subst hu
  rcases hk' with hk' | hk' <;> cases hk'

theorem IpcInv.reserve (h : IpcInv k) (hv : k.IpcEndpointValid e)
    (hfree : (k.endpoints.endpoint e).waiting kind = none)
    (hst : StagedFor (k.endpoints.endpoint e) kind staged) (hlive : k.sched.threadStorageLive t)
    (hid : (k.sched.thread t).id ≠ 0) (hclear : (k.sched.thread t).wait = .clear)
    (hcur : k.sched.currentThread = some t) (hn : k.sched.nextWaitId ≠ 0) :
    IpcInv (k.reserved t kind e staged) := by
  obtain ⟨hself, hselfId⟩ := reserved_link_self hst
  refine h.relink (reserved_relink hst) hv ((h.sched.setWait _).setNextWaitId _)
    (fun u _ hw => nomatch hfree.symm.trans hw)
    (fun e' kind' u hv' hk' _ hw => h.ne_of_clear hclear hv' hk' hw)
    (fun hnone => nomatch hself.symm.trans hnone) (fun u hw => ?_) (fun _ => ?_) ?_
    fun i w hi => ⟨hi, ?_⟩
  · obtain rfl := Option.some.inj (hself.symm.trans hw)
    rw [hselfId]
    have hon := (h.sched.settled t).onQueue hcur
    exact
      { live := hlive
        threadId := by rw [reserved_thread_self]; exact hid
        kind := by rw [reserved_thread_self]; rfl
        object := by rw [reserved_thread_self]; rfl
        waitId := by rw [reserved_thread_self]; rfl
        idPos := hn
        result := by rw [reserved_thread_self]; exact .inl rfl
        present := by rw [SchedState.Present, reserved_thread_self]; exact .inr hon }
  · rw [reserved_thread_self]
    exact hself
  · rw [reserved_endpoint_self]
    refine reserve_coherent (h.coherent e hv) hst ?_ fun u kind' hk' hw => ?_
    · rw [reserved_thread_self]
      rfl
    · rw [reserved_thread_of_ne (h.ne_of_clear hclear hv hk' hw)]
  · have hw := h.timed i w hi
    exact h.ne_of_clear hclear hw.valid hw.kind hw.waiting

end Reserved

/-- The state after `thread_wait_end` or `thread_wait_abort` and the stores of the
unlink; `timed` is what is left of the timed waits. -/
def released (k : IpcState) (t : ThreadRef) (kind : ThreadWaitKind) (e : EndpointRef)
    (timed : Slots IpcTimedWait ipcTimedWaitCapacity) : IpcState :=
  { (k.withThreads (k.sched.modify t (·.setWait .clear))).modifyEndpoint e (·.release kind) with
    timedWaits := timed }

theorem release_links (ep : Endpoint) (hk : kind.Ipc) :
    (ep.release kind).waiting kind = none ∧ (ep.release kind).waitingId kind = 0 ∧
      ∀ kind' : ThreadWaitKind, kind'.Ipc → kind' ≠ kind →
        (ep.release kind).waiting kind' = ep.waiting kind' ∧
          (ep.release kind).waitingId kind' = ep.waitingId kind' := by
  rcases hk with rfl | rfl
  all_goals
    refine ⟨rfl, rfl, fun kind' hk' hne => ?_⟩
    rcases hk' with rfl | rfl
    all_goals
      first
        | exact absurd rfl hne
        | exact ⟨rfl, rfl⟩

theorem release_coherent (h : ep.Coherent result) (hk : kind.Ipc)
    (hr : ∀ u kind', kind'.Ipc → kind' ≠ kind → ep.waiting kind' = some u → result' u = result u) :
    (ep.release kind).Coherent result' := by
  rcases hk with rfl | rfl
  · exact { h with
      staged := h.staged_congr fun u => hr u .ipcSend (.inr rfl) (by decide)
      receiver := fun u hu => by cases hu }
  · refine .of_unstaged nofun nofun (fun hcl => (h.closed hcl).1) fun u hu => ?_
    rw [hr u .ipcReceive (.inl rfl) (by decide) hu]
    exact h.receiver u hu

section Released

variable {timed : Slots IpcTimedWait ipcTimedWaitCapacity}

@[simp] theorem released_endpoint_self : (k.released t kind e timed).endpoints.endpoint e =
    (k.endpoints.endpoint e).release kind := by simp [released]

theorem released_endpoint_of_ne (he : e' ≠ e) :
    (k.released t kind e timed).endpoints.endpoint e' = k.endpoints.endpoint e' := by
  simp [released, he]

@[simp] theorem released_thread_self : (k.released t kind e timed).sched.thread t =
    (k.sched.thread t).setWait .clear := by simp [released]

theorem released_thread_of_ne (hu : u ≠ t) :
    (k.released t kind e timed).sched.thread u = k.sched.thread u := by simp [released, hu]

theorem released_relink (hk : kind.Ipc) : Relink k (k.released t kind e timed) t kind e := by
  refine ⟨rfl, fun _ => released_thread_of_ne, rfl, rfl, fun _ => released_endpoint_of_ne, ?_, ?_, ?_⟩
  all_goals rw [released_endpoint_self]
  · rcases hk with rfl | rfl <;> rfl
  · rcases hk with rfl | rfl <;> rfl
  · exact (release_links (k.endpoints.endpoint e) hk).2.2

section

variable (h : IpcInv k) (hv : k.IpcEndpointValid e) (hk : kind.Ipc)
  (hw : (k.endpoints.endpoint e).waiting kind = some t)
include h hv hk hw

/-- A thread is linked in one place only. -/
theorem IpcInv.ne_of_linked (hv' : k.IpcEndpointValid e') (hk' : kind'.Ipc)
    (hu : (k.endpoints.endpoint e').waiting kind' = some u) (hne : ¬ (e' = e ∧ kind' = kind)) :
    u ≠ t := by
  rintro rfl
  obtain ⟨hkk, hee, -⟩ := (h.linked e' hv' kind' u hk' hu).unique (h.linked e hv kind u hk hw)
  exact hne ⟨hee, hkk⟩

theorem IpcInv.release (htimed : ∀ i w, timed i = some w → k.timedWaits i = some w ∧ w.thread ≠ t) :
    IpcInv (k.released t kind e timed) := by
  obtain ⟨hself, hselfId, -⟩ := release_links (k.endpoints.endpoint e) hk
  refine h.relink (released_relink hk) hv (h.sched.setWait _)
    (fun u hut hu => hut (Option.some.inj (hw.symm.trans hu)).symm)
    (fun e' kind' u hv' hk' hne hu => h.ne_of_linked hv hk hw hv' hk' hu hne) (fun _ => ?_)
    (fun u hu => ?_) (fun hu => ?_) ?_ htimed
  · rw [released_endpoint_self]
    exact hselfId
  · rw [released_endpoint_self, hself] at hu
    cases hu
  · rw [IpcWaiting, released_thread_self] at hu
    rcases hu.2 with hc | hc <;> cases hc
  · rw [released_endpoint_self]
    refine release_coherent (h.coherent e hv) hk fun u kind' hk' hkk hu => ?_
    rw [released_thread_of_ne (h.ne_of_linked hv hk hw hv hk' hu fun hnew => hkk hnew.2)]

end

end Released

end IpcState

end JcosKernel
