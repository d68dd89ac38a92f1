import JcosKernel.Ipc.Moves

/-!
# JcosKernel.Ipc.Refine

Every step of the code is a sequence of moves with the same notes.

For the operations of `ipc.c` the statement includes that they do not halt: in a consistent
world `IpcOp.exec` has a result.
-/

namespace JcosKernel

open Lib IpcState

variable {timed : Slots IpcTimedWait ipcTimedWaitCapacity} {notes : List IpcNote}
  {steps : List (List IpcNote)} {w w' w'' : World} {staged : Option IpcMessage}
  {handle : CapabilityHandle} {rights : CapabilityRights} {kind : ThreadWaitKind} {c : ParkedCall}
  {process : ProcessRef} {timeout : Option Nat}

namespace World

variable {env : IpcEnv} {k : IpcState} {t : ThreadRef} {e : EndpointRef}

/-- The outcome of a step is reached by moves that tell the same. -/
def Refines (w : World) (r : List IpcNote × World) : Prop :=
  ∃ ms, Run Move w ms r.2 ∧ ms.flatten = r.1

namespace Refines

theorem nil (w : World) : w.Refines ([], w) := ⟨[], .nil w, rfl⟩

theorem move (m : Move w notes w') : w.Refines (notes, w') :=
  ⟨[notes], .single m, by simp⟩

theorem append {notes notes' : List IpcNote} (h : w.Refines (notes, w'))
    (h' : w'.Refines (notes', w'')) : w.Refines (notes ++ notes', w'') := by
  obtain ⟨ms, hr, hn⟩ := h
  obtain ⟨ms', hr', hn'⟩ := h'
  exact ⟨ms ++ ms', hr.append hr', by rw [List.flatten_append, hn, hn']⟩

theorem inv {r : List IpcNote × World} (h : w.Refines r) (hw : WorldInv w) : WorldInv r.2 := by
  obtain ⟨ms, hr, -⟩ := h
  exact hr.invariant hw fun _ _ _ h m => h.move m

end Refines

/-- The outcome of an operation of `ipc.c`: it looks handles up and leaves the capability tables
and the device resources alone, and where a receive returns false nothing else is told. -/
structure Serves (w : World) (r : List IpcNote × World) : Prop where
  refines : w.Refines r
  caps : w.kernel.CapsKept r.2.kernel
  honest : ∀ n e, .received n e none ∈ r.1 → r.1 = [.received n e none]

namespace Serves

theorem nil (w : World) : w.Serves ([], w) := ⟨.nil w, .refl _, by simp⟩

theorem move (m : Move w notes w') (hc : w.kernel.CapsKept w'.kernel) : w.Serves (notes, w') := by
  refine ⟨.move m, hc, fun n e hmem => ?_⟩
  cases m with
  | @reserve _ _ _ staged => cases staged <;> simp [stagedNotes] at hmem
  | _ => simp_all

/-- Moves without notes before. -/
theorem after (h : w.Serves ([], w')) (h' : w'.Serves (notes, w'')) : w.Serves (notes, w'') :=
  ⟨h.refines.append h'.refines, h.caps.trans h'.caps, h'.honest⟩

/-- Moves without notes behind. -/
theorem before (h : w.Serves (notes, w')) (h' : w'.Serves ([], w'')) :
    w.Serves (notes, w'') :=
  ⟨by simpa using h.refines.append h'.refines, h.caps.trans h'.caps, h.honest⟩

end Serves

/-- A receive that is made and returns false. -/
theorem refines_nothing (n : Nat) (e : Option EndpointRef) :
    w.Serves ([.received n e none], w.nextCall) :=
  (Serves.move .nothing (.refl _)).before (.move .call (.refl _))

/-! ### Calls that return at once -/

theorem sendLocked_refines (e : EndpointRef) (message : IpcMessage) (h : WorldInv w) :
    ∃ r, w.kernel.ipcSendLocked e message = some r ∧
      w.Serves (w.sending message (w.called .sent (r.map .returned))) := by
  obtain ⟨r, hr, ⟨rfl, -⟩ | ⟨k, rfl, hp⟩⟩ := ipcSendLocked_spec e message h.inv
  · exact ⟨_, hr, .move .refused (.refl _)⟩
  · exact ⟨_, hr, .move (.put hp) hp.relabel.caps⟩

theorem receiveLocked_refines (e : EndpointRef) (current : Option ThreadRef) (h : WorldInv w) :
    ∃ r, w.kernel.ipcReceiveLocked e current = some r ∧
      w.Serves (w.called (.received · (some e)) (r.map .returned)) := by
  obtain ⟨r, hr, rfl | ⟨m, k, rfl, hp⟩ | ⟨s, m, m', k, rfl, hp⟩⟩ :=
    ipcReceiveLocked_spec e current h.inv
  · exact ⟨_, hr, refines_nothing _ _⟩
  · exact ⟨_, hr, (Serves.move (.take hp) hp.relabel.caps).before (.move .call (.refl _))⟩
  · exact ⟨_, hr, (Serves.move (.promote hp) hp.relabel.caps).before (.move .call (.refl _))⟩

/-! ### Calls that wait -/

/-- The common part of the blocking operations. -/
theorem reserve_refines {α : Type} (note : Nat → α → IpcNote) (refused : α) (h : WorldInv w)
    (hres : w.kernel.Reserves env t e kind staged timeout)
    (hrefused : w.Serves (w.stagedNotes staged ++ [note w.calls refused], w.nextCall)) :
    ∃ r, (w.kernel.ipcReserve env t e kind staged timeout).map (afterReserve refused) = some r ∧
      w.Serves (w.stagedNotes staged ++ (w.called note r).1, (w.called note r).2) := by
  have hpark : ∀ call, w.parkCurrent call = w.setParked t (some call) := by
    intro call
    rw [parkCurrent, hres.current]
  rcases hres.spec h.inv with ⟨-, hr⟩ | ⟨hc, hcases⟩
  · rw [hr]
    exact ⟨_, rfl, hrefused⟩
  have hmove := Serves.move (Move.reserve hc hres.valid hres.ipc hres.free hres.staged) ⟨rfl, rfl⟩
  rcases hcases with ⟨-, hr⟩ | ⟨_, _, k, -, -, hr, hreg⟩
  · rw [hr]
    refine ⟨_, rfl, ?_⟩
    simp only [called, afterReserve, hpark, acceptedNotes, List.map_nil, List.append_nil]
    exact hmove
  · rw [hr]
    refine ⟨_, rfl, ?_⟩
    simp only [called, afterReserve, hpark, acceptedNotes]
    have hnew : (((w.setKernel (w.kernel.reserved t kind e staged)).setParked t
        (some (w.calls, ⟨kind, e, w.kernel.sched.nextWaitId, false⟩))).nextCall).parked t =
        some (w.calls, ⟨kind, e, w.kernel.sched.nextWaitId, false⟩) := by
      simp [nextCall, setParked]
    have hreg' := hmove.before (.move (.register hnew hreg) hreg.caps)
    simpa [setParked, nextCall] using hreg'

/-- A parked send that failed returns. -/
theorem refines_sendFailed {n : Nat} (hp : w.parked t = some (n, c)) (hk : c.kind = .ipcSend)
    (ht : w.kernel.WithoutTimed t timed) (hr : (w.kernel.sched.thread t).waitResult ≠ .completed) :
    w.Serves ([.sent n false],
      (w.setKernel (w.kernel.released t .ipcSend c.endpoint timed)).setParked t none) := by
  have hmove := Serves.move (Move.finish hp hk ht) ⟨rfl, rfl⟩
  rwa [decide_eq_false hr] at hmove

/-- A parked receive that found no message returns. -/
theorem refines_receiveFailed {n : Nat} (e : Option EndpointRef) (hp : w.parked t = some (n, c))
    (hk : c.kind = .ipcReceive) (ht : w.kernel.WithoutTimed t timed) :
    w.Serves ([.received n e none],
      (w.setKernel (w.kernel.released t .ipcReceive c.endpoint timed)).setParked t none) := by
  have hmove := Serves.move (Move.release hp ht) ⟨rfl, rfl⟩
  rw [hk] at hmove
  exact (Serves.move .nothing (.refl _)).before hmove

theorem ipcResolveEndpoint_valid (h : k.ipcResolveEndpoint env process handle rights = some e) :
    k.IpcEndpointValid e := by
  unfold ipcResolveEndpoint at h
  split at h
  · cases h
  split at h
  · cases h
  split_ifs at h with hv
  obtain rfl := Option.some.inj h
  exact hv

theorem blockingTarget_cases (h : k.blockingTarget env process handle rights = some (t, e)) :
    k.sched.threadCurrent = some t ∧ k.ipcResolveEndpoint env process handle rights = some e ∧
      ¬ (k.endpoints.endpoint e).closed := by
  unfold blockingTarget at h
  split at h
  · cases h
  rename_i c hc
  split_ifs at h
  split at h
  · cases h
  rename_i e' he
  split_ifs at h with hopen
  obtain ⟨rfl, rfl⟩ := Prod.mk.inj (Option.some.inj h)
  exact ⟨hc, he, hopen⟩

section

variable (env : IpcEnv) (process : ProcessRef) (handle : CapabilityHandle)

theorem trySend_refines (message : IpcMessage) (h : WorldInv w) :
    ∃ r, w.kernel.ipcTrySend env process handle message = some r ∧
      w.Serves (w.sending message (w.called .sent (r.map .returned))) := by
  unfold ipcTrySend
  split_ifs
  · split
    · exact ⟨_, rfl, .move .refused (.refl _)⟩
    · exact sendLocked_refines _ message h
  · exact ⟨_, rfl, .move .refused (.refl _)⟩

theorem tryReceive_refines (h : WorldInv w) :
    ∃ r, w.kernel.ipcTryReceive env process handle = some r ∧
      w.Serves (w.called (.received · (w.kernel.ipcResolveEndpoint env process handle
        capabilityRightReceive)) (r.map .returned)) := by
  unfold ipcTryReceive
  split
  · exact ⟨_, rfl, refines_nothing _ _⟩
  · rename_i e he
    rw [he]
    exact receiveLocked_refines e _ h

theorem ipcSendBlocking_cases (k : IpcState) (message : IpcMessage) (timeout : Option Nat) :
    k.ipcSendBlocking env process handle message timeout = some ⟨.returned false, [], k⟩ ∨
      (∃ e, k.ipcSendBlocking env process handle message timeout =
        (k.ipcSendLocked e message).map (·.map .returned)) ∨
      ∃ t e, k.Reserves env t e .ipcSend (some message) timeout ∧
        k.ipcSendBlocking env process handle message timeout =
          (k.ipcReserve env t e .ipcSend (some message) timeout).map (afterReserve false) := by
  unfold ipcSendBlocking
  split
  · exact .inl rfl
  rename_i h0
  simp only [not_or, not_not] at h0
  split
  · exact .inl rfl
  rename_i t e htarget
  obtain ⟨hcur, hres, -⟩ := blockingTarget_cases htarget
  split_ifs with hready hfree
  · exact .inl rfl
  · simp only [not_or, not_not] at hfree
    exact .inr (.inr ⟨t, e, ⟨hcur, ipcResolveEndpoint_valid hres, .inr rfl, hfree.1,
      ⟨h0.1, hready.2⟩, h0.2⟩, rfl⟩)
  · exact .inr (.inl ⟨e, rfl⟩)

theorem ipcReceiveBlocking_cases (k : IpcState) (timeout : Option Nat) :
    k.ipcReceiveBlocking env process handle timeout = some ⟨.returned none, [], k⟩ ∨
      ∃ t e, k.ipcResolveEndpoint env process handle capabilityRightReceive = some e ∧
        (k.ipcReceiveBlocking env process handle timeout =
            (k.ipcReceiveLocked e (some t)).map (·.map .returned) ∨
          k.Reserves env t e .ipcReceive none timeout ∧
          k.ipcReceiveBlocking env process handle timeout =
            (k.ipcReserve env t e .ipcReceive none timeout).map (afterReserve none)) := by
  unfold ipcReceiveBlocking
  split
  · exact .inl rfl
  rename_i h0
  split
  · exact .inl rfl
  rename_i t e htarget
  obtain ⟨hcur, hres, -⟩ := blockingTarget_cases htarget
  split_ifs with hready hfree
  · exact .inr ⟨t, e, hres, .inl rfl⟩
  · exact .inl rfl
  · simp only [not_or, not_not] at hfree
    exact .inr ⟨t, e, hres, .inr ⟨⟨hcur, ipcResolveEndpoint_valid hres, .inl rfl, hfree.1,
      trivial, h0⟩, rfl⟩⟩

theorem sendBlocking_refines (message : IpcMessage) (timeout : Option Nat) (h : WorldInv w) :
    ∃ r, w.kernel.ipcSendBlocking env process handle message timeout = some r ∧
      w.Serves (w.sending message (w.called .sent r)) := by
  rcases ipcSendBlocking_cases env process handle w.kernel message timeout with
    heq | ⟨e, heq⟩ | ⟨t, e, hres, heq⟩ <;> rw [heq]
  · exact ⟨_, rfl, .move .refused (.refl _)⟩
  · obtain ⟨r, hr, href⟩ := sendLocked_refines e message h
    rw [hr]
    exact ⟨_, rfl, href⟩
  · exact reserve_refines .sent false h hres (.move .refused (.refl _))

theorem receiveBlocking_refines (timeout : Option Nat) (h : WorldInv w) :
    ∃ r, w.kernel.ipcReceiveBlocking env process handle timeout = some r ∧
      w.Serves (w.called (.received · (w.kernel.ipcResolveEndpoint env process handle
        capabilityRightReceive)) r) := by
  rcases ipcReceiveBlocking_cases env process handle w.kernel timeout with
    heq | ⟨t, e, htarget, heq | ⟨hres, heq⟩⟩ <;> rw [heq]
  · exact ⟨_, rfl, refines_nothing _ _⟩
  · obtain ⟨r, hr, href⟩ := receiveLocked_refines e (some t) h
    rw [htarget, hr]
    exact ⟨_, rfl, href⟩
  · rw [htarget]
    exact reserve_refines (.received · (some e)) none h hres (refines_nothing _ _)

end

/-! ### Inside the loop -/

section Resume

variable {n : Nat}

section

variable (hc : CallOk k t c) (hi : k.IpcInv)
include hc hi

theorem CallOk.waits : k.Waits t c.kind c.endpoint c.waitId :=
  hc.waitingId ▸ hi.linked _ hc.valid _ t hc.ipc hc.waiting

/-- The checks at the head of both loops pass. -/
theorem CallOk.checks : k.sched.ThreadWaitMatchesId t c.kind (.endpoint c.endpoint) c.waitId ∧
    k.IpcReservationValid c.endpoint c.kind :=
  ⟨(hc.waits hi).matchesId hi.sched hc.ipc, hi.reservationValid hc.valid hc.ipc⟩

/-- The call ends, with its wait over. -/
theorem CallOk.end_spec (hcur : k.sched.currentThread = some t)
    (hr : (k.sched.thread t).waitResult ≠ .pending) :
    ∃ timed, k.ipcEndReservation t c.endpoint c.kind c.waitId c.timed =
      some (k.released t c.kind c.endpoint timed) ∧ k.WithoutTimed t timed := by
  have hw := hc.waits hi
  have honly := hi.timedOnly hc.valid hc.ipc hc.waiting
  rw [hc.waitingId] at honly
  exact ipcEndReservation_spec hi.sched hw hc.ipc hc.waiting hc.waitingId hcur
    (hw.result.terminal hr) honly hc.timed

/-- The call finishes its own pending wait and ends. -/
theorem CallOk.finish_end_spec {result : ThreadWaitResult} (hcur : k.sched.currentThread = some t)
    (hp : (k.sched.thread t).waitResult = .pending) (hr : result.Terminal) :
    ∃ k1 timed, k.ipcFinish t c.endpoint c.kind c.waitId result = some k1 ∧
      k1.endpoints = k.endpoints ∧ (k1.sched.thread t).waitResult = result ∧
      k1.ipcEndReservation t c.endpoint c.kind c.waitId c.timed =
        some (k.released t c.kind c.endpoint timed) ∧ k.WithoutTimed t timed := by
  have hw := hc.waits hi
  have honly := hi.timedOnly hc.valid hc.ipc hc.waiting
  rw [hc.waitingId] at honly
  have hr1 := Relabel.setWaitResult hi.sched hr.ipcValid hc.ipc hc.waiting
  obtain ⟨timed, hend, hwithout⟩ := ipcEndReservation_spec hr1.sched (hr1.waits hc.ipc hw) hc.ipc
    hc.waiting hc.waitingId hcur (by simpa [Thread.setWaitResult] using hr)
    ⟨honly.entry, honly.once⟩ hc.timed
  rw [released_setWaitResult] at hend
  exact ⟨_, timed, ipcFinish_spec hi.sched hw hc.ipc hp hr, rfl, by simp [Thread.setWaitResult],
    hend, hwithout⟩

end

/-- `scheduler_wait_current` does not halt and leaves IPC alone. -/
theorem wait_spec (env : IpcEnv) (frame : Nat) (h : WorldInv w) :
    ∃ b s, w.kernel.sched.schedulerWaitCurrent env.spaces frame = some (b, s) ∧
      w.kernel.Quiet (w.kernel.withSched s) ∧
      (∀ u, (s.thread u).wait = (w.kernel.sched.thread u).wait) ∧
      (b = false → s.currentThread = w.kernel.sched.currentThread) := by
  obtain ⟨b, s, hs, hi, hk, hcur⟩ :=
    SchedState.schedulerWaitCurrent_spec env.spaces frame h.inv.sched
  exact ⟨b, s, hs, .of_keeps h.inv.sched hi hk, fun u => (hk.threads u).wait, hcur⟩

/-- The current thread took a message inside its loop, or found that it could not, and leaves
with that. -/
theorem receiveOwn_refines {k1 : IpcState} {accepted : List Accepted} (message : Option IpcMessage)
    (h : WorldInv w) (hp : w.parked t = some (n, c)) (hk : c.kind = .ipcReceive)
    (htaken : w.Serves (notes, w.setKernel k1))
    (hnotes : w.acceptedNotes n accepted ++ [.received n (some c.endpoint) message] = notes)
    (hcur : k1.sched.currentThread = some t) (hpend : (k1.sched.thread t).waitResult = .pending) :
    ∃ r, ((k1.ipcFinish t c.endpoint .ipcReceive c.waitId
          (if message.isSome then .completed else .cancelled)).bind fun k2 =>
        k2.ipcReceiveExit t c (message.getD .zero) accepted) = some r ∧
      w.Serves (w.resumed t n (.received · (some c.endpoint)) r) := by
  have h1 : WorldInv (w.setKernel k1) := htaken.refines.inv h
  have hc := h1.parked t n c hp
  obtain ⟨k2, timed, hfin, -, hres, hend, ht⟩ := hc.finish_end_spec h1.inv hcur hpend
    (by cases message <;> simp [ThreadWaitResult.Terminal] :
      (if message.isSome then ThreadWaitResult.completed else .cancelled).Terminal)
  rw [hk] at hfin hend
  change k1.ipcFinish t c.endpoint .ipcReceive c.waitId
    (if message.isSome then .completed else .cancelled) = some k2 at hfin
  rw [hfin, Option.bind_some, ipcReceiveExit, hend, hres]
  refine ⟨_, rfl, ?_⟩
  have hvalue : (if (if message.isSome then ThreadWaitResult.completed else .cancelled) = .completed
      then some (message.getD .zero) else none) = message := by
    cases message <;> rfl
  rw [hvalue]
  have hrelease := Serves.move (Move.release (w := w.setKernel k1) hp ht) ⟨rfl, rfl⟩
  rw [hk] at hrelease
  have hall := htaken.before hrelease
  rw [← hnotes] at hall
  exact hall

section

variable (h : WorldInv w) (hcur : w.kernel.sched.currentThread = some t)
  (hp : w.parked t = some (n, c))
include h hcur hp

theorem sendExit_refines (hk : c.kind = .ipcSend)
    (hr : (w.kernel.sched.thread t).waitResult ≠ .pending) :
    ∃ r, w.kernel.ipcSendExit t c = some r ∧ w.Serves (w.resumed t n .sent r) := by
  have hc := h.parked t n c hp
  obtain ⟨timed, hend, ht⟩ := hc.end_spec h.inv hcur hr
  have hwaiting := hc.waiting
  rw [hk] at hend hwaiting
  -- a staged message belongs to a pending wait
  have hunstaged : ¬ (w.kernel.endpoints.endpoint c.endpoint).waitingSenderMessageReady := by
    intro hst
    obtain ⟨u, hu, hpend⟩ := (h.inv.coherent _ hc.valid).staged.mp hst
    obtain rfl : t = u := Option.some.inj (hwaiting.symm.trans hu)
    exact hr hpend
  unfold ipcSendExit
  rw [if_neg fun hs => hunstaged hs.2, hend]
  exact ⟨_, rfl, .move (.finish hp hk ht) ⟨rfl, rfl⟩⟩

theorem sendResume_refines (env : IpcEnv) (frame : Nat) (hk : c.kind = .ipcSend) :
    ∃ r, w.kernel.ipcSendResume env frame t c = some r ∧ w.Serves (w.resumed t n .sent r) := by
  have hc := h.parked t n c hp
  obtain ⟨hm, hv⟩ := hc.checks h.inv
  have hwaiting := hc.waiting
  rw [hk] at hm hv hwaiting
  unfold ipcSendResume
  rw [if_neg (by simp [hm, hv])]
  by_cases hpend : (w.kernel.sched.thread t).waitResult = .pending
  · have hst : (w.kernel.endpoints.endpoint c.endpoint).waitingSenderMessageReady :=
      (h.inv.coherent _ hc.valid).staged.mpr ⟨t, hwaiting, hpend⟩
    rw [if_neg (not_not_intro hpend), if_neg (not_not_intro hst)]
    obtain ⟨b, s, hs, hq, hwait, hsame⟩ := wait_spec env frame h
    have hquiet : w.Serves ([], w.setKernel (w.kernel.withSched s)) := .move (.quiet hq) ⟨rfl, rfl⟩
    rw [hs]
    cases b with
    | true => exact ⟨_, rfl, hquiet⟩
    | false =>
      -- the thread could not be parked: it cancels its own wait
      have h1 : WorldInv (w.setKernel (w.kernel.withSched s)) := h.quiet hq
      have hc1 := h1.parked t n c hp
      have hpend1 : ((w.kernel.withSched s).sched.thread t).waitResult = .pending :=
        (congrArg Wait.result (hwait t)).trans hpend
      obtain ⟨k1, timed, hfin, hep, hres, hend, ht⟩ := hc1.finish_end_spec h1.inv
        ((hsame rfl).trans hcur) hpend1 (by decide : ThreadWaitResult.cancelled.Terminal)
      rw [hk] at hfin hend
      change (w.kernel.withSched s).ipcFinish t c.endpoint .ipcSend c.waitId .cancelled =
        some k1 at hfin
      dsimp only
      rw [hfin, Option.bind_some, ipcSendExit, if_neg (by simp [hres]), hend]
      refine ⟨_, rfl, ?_⟩
      rw [decide_eq_false (by simp [hres])]
      exact hquiet.after (refines_sendFailed hp hk ht (by
        rw [show (w.setKernel (w.kernel.withSched s)).kernel = w.kernel.withSched s from rfl, hpend1]
        decide))
  · rw [if_pos hpend]
    exact sendExit_refines h hcur hp hk hpend

theorem receiveExit_refines (hk : c.kind = .ipcReceive)
    (hr : (w.kernel.sched.thread t).waitResult ≠ .pending) (out : IpcMessage) :
    ∃ r, w.kernel.ipcReceiveExit t c out [] = some r ∧
      w.Serves (w.resumed t n (.received · (some c.endpoint)) r) := by
  have hc := h.parked t n c hp
  obtain ⟨timed, hend, ht⟩ := hc.end_spec h.inv hcur hr
  have hwaiting := hc.waiting
  rw [hk] at hend hwaiting
  -- nobody completes a receive from outside
  have hfail := (h.inv.coherent _ hc.valid).receiver t hwaiting
  unfold ipcReceiveExit
  rw [hend]
  refine ⟨_, rfl, ?_⟩
  rw [if_neg hfail]
  exact refines_receiveFailed (some c.endpoint) hp hk ht

theorem receiveResume_refines (env : IpcEnv) (frame : Nat) (hk : c.kind = .ipcReceive) :
    ∃ r, w.kernel.ipcReceiveResume env frame t c = some r ∧
      w.Serves (w.resumed t n (.received · (some c.endpoint)) r) := by
  have hc := h.parked t n c hp
  obtain ⟨hm, hv⟩ := hc.checks h.inv
  have hwaiting := hc.waiting
  rw [hk] at hm hv hwaiting
  unfold ipcReceiveResume
  rw [if_neg (by simp [hm, hv])]
  by_cases hpend : (w.kernel.sched.thread t).waitResult = .pending
  · rw [if_neg (not_not_intro hpend)]
    split_ifs with hready
    · obtain ⟨r, hr, htaken⟩ := ipcReceiveLocked_spec c.endpoint (some t) h.inv
      rw [hr]
      rcases htaken with rfl | ⟨m, k1, rfl, htake⟩ | ⟨s, m, m', k1, rfl, hprom⟩
      · exact receiveOwn_refines none h hp hk (.move .nothing (.refl _)) rfl hcur hpend
      · exact receiveOwn_refines (some m) h hp hk (.move (.take htake) htake.relabel.caps) rfl
          (htake.relabel.currentThread.trans hcur)
          ((congrArg Wait.result (htake.wait t)).trans hpend)
      · have hne : t ≠ s := h.inv.sides_ne hc.valid hwaiting hprom.waitingSender
        exact receiveOwn_refines (some m) h hp hk (.move (.promote hprom) hprom.relabel.caps) rfl
          (hprom.relabel.currentThread.trans hcur)
          ((congrArg Wait.result (hprom.wait t hne)).trans hpend)
    · obtain ⟨b, s, hs, hq, hwait, hsame⟩ := wait_spec env frame h
      have hquiet : w.Serves ([], w.setKernel (w.kernel.withSched s)) := .move (.quiet hq) ⟨rfl, rfl⟩
      rw [hs]
      cases b with
      | true => exact ⟨_, rfl, hquiet⟩
      | false =>
        exact receiveOwn_refines none h hp hk (hquiet.after (.move .nothing (.refl _))) rfl
          ((hsame rfl).trans hcur) ((congrArg Wait.result (hwait t)).trans hpend)
  · rw [if_pos hpend]
    exact receiveExit_refines h hcur hp hk hpend .zero

end

end Resume

/-! ### The other operations -/

/-- A poll settles the timed waits that are due, and nothing else. -/
theorem timeoutPoll_refines (now : Nat) (h : WorldInv w) :
    ∃ k, w.kernel.ipcTimeoutPoll now = some k ∧ w.Serves ([], w.setKernel k) ∧
      ∀ i v, w.kernel.timedWaits i = some v → (k.sched.thread v.thread).waitResult =
        if w.kernel.Due now v then .timedOut else (w.kernel.sched.thread v.thread).waitResult := by
  suffices hall : ∀ l : List (Fin ipcTimedWaitCapacity),
      ∃ k, l.foldlM (fun k i => k.ipcTimeoutPollSlot now i) w.kernel = some k ∧
        w.Serves ([], w.setKernel k) ∧
        ∀ i v, w.kernel.timedWaits i = some v → (k.sched.thread v.thread).waitResult =
          if i ∈ l ∧ w.kernel.Due now v then .timedOut
          else (w.kernel.sched.thread v.thread).waitResult by
    simpa [ipcTimeoutPoll] using hall (List.finRange ipcTimedWaitCapacity)
  intro l
  -- over the slots, with the world that the slots before have left
  induction l generalizing w with
  | nil => exact ⟨w.kernel, rfl, .nil w, fun i v _ => by simp⟩
  | cons j js ih =>
    obtain ⟨k1, hk1, hmove⟩ := ipcTimeoutPollSlot_spec now j h.inv
    have hfirst : w.Serves ([], w.setKernel k1) ∧ k1.timedWaits = w.kernel.timedWaits ∧
        ∀ i v, w.kernel.timedWaits i = some v → (k1.sched.thread v.thread).waitResult =
          if i = j ∧ w.kernel.Due now v then .timedOut
          else (w.kernel.sched.thread v.thread).waitResult := by
      rcases hmove with ⟨rfl, hidle⟩ | ⟨u, hu, hdue, hset⟩
      · refine ⟨.nil w, rfl, fun i v hv => (if_neg ?_).symm⟩
        rintro ⟨rfl, hd⟩
        exact hidle v hv hd
      · refine ⟨.move (.settle hset) hset.relabel.caps, hset.relabel.timedWaits, fun i v hv => ?_⟩
        by_cases hij : i = j
        · subst hij
          obtain rfl := Option.some.inj (hu.symm.trans hv)
          rw [if_pos ⟨rfl, hdue⟩]
          exact congrArg Wait.result hset.settled
        · rw [if_neg fun hd => hij hd.1]
          exact congrArg Wait.result (hset.wait _ fun hvu => hij (h.inv.once i j v u hv hu hvu))
    obtain ⟨k, hk, hrest, hres⟩ := ih (hfirst.1.refines.inv h)
    refine ⟨k, ?_, hfirst.1.after hrest, fun i v hv => ?_⟩
    · rw [List.foldlM_cons, hk1]
      exact hk
    · rw [hres i v (hfirst.2.1 ▸ hv)]
      simp only [Due, setKernel_kernel, hfirst.2.2 i v hv]
      by_cases hij : i = j <;> by_cases hp : (w.kernel.sched.thread v.thread).waitResult = .pending <;>
        by_cases hd : IpcDeadlineReached now v.deadline <;> simp [hij, hp]

theorem abort_refines (t : ThreadRef) (h : WorldInv w) :
    w.kernel.ipcAbortThreadWait t = (false, w.kernel) ∨
      ∃ k, w.kernel.ipcAbortThreadWait t = (true, k) ∧
        w.Serves ([], (w.setKernel k).setParked t none) := by
  rcases ipcAbortThreadWait_spec t h.inv with hf | ⟨e, kind, timed, heq, hv, hk, hw, ht⟩
  · exact .inl hf
  · refine .inr ⟨_, heq, ?_⟩
    obtain ⟨⟨n, c⟩, hp⟩ := Option.ne_none_iff_exists'.mp (h.covered e hv kind t hk hw)
    have hc := h.parked t n c hp
    obtain ⟨hkk, hee, -⟩ := (h.inv.linked _ hc.valid _ t hc.ipc hc.waiting).unique
      (h.inv.linked e hv kind t hk hw)
    have hmove := Serves.move (Move.release hp ht) ⟨rfl, rfl⟩
    rwa [hkk, hee] at hmove

end World

open World

/-- **The code refines the moves, and does not halt.** -/
theorem IpcOp.exec_refines (env : IpcEnv) (o : IpcOp) (h : WorldInv w) :
    ∃ r, o.exec env w = some r ∧ w.Serves r := by
  cases o with
  | trySend process handle message =>
    obtain ⟨r, hr, href⟩ := trySend_refines env process handle message h
    exact ⟨_, by rw [exec, hr]; rfl, href⟩
  | tryReceive process handle =>
    obtain ⟨r, hr, href⟩ := tryReceive_refines env process handle h
    exact ⟨_, by rw [exec, hr]; rfl, href⟩
  | sendBlocking process handle message timeout =>
    obtain ⟨r, hr, href⟩ := sendBlocking_refines env process handle message timeout h
    exact ⟨_, by rw [exec, hr]; rfl, href⟩
  | receiveBlocking process handle timeout =>
    obtain ⟨r, hr, href⟩ := receiveBlocking_refines env process handle timeout h
    exact ⟨_, by rw [exec, hr]; rfl, href⟩
  | resume frame =>
    unfold exec
    rw [h.inv.sched.threadCurrent]
    cases hcur : w.kernel.sched.currentThread with
    | none => exact ⟨_, rfl, .nil w⟩
    | some t =>
      dsimp only
      cases hp : w.parked t with
      | none => exact ⟨_, rfl, .nil w⟩
      | some p =>
        obtain ⟨n, c⟩ := p
        dsimp only
        split_ifs with hk
        · obtain ⟨r, hr, href⟩ := receiveResume_refines h hcur hp env frame hk
          rw [hr]
          exact ⟨_, rfl, href⟩
        · obtain ⟨r, hr, href⟩ := sendResume_refines h hcur hp env frame
            ((h.parked t n c hp).ipc.resolve_left hk)
          rw [hr]
          exact ⟨_, rfl, href⟩
  | timeoutPoll now =>
    obtain ⟨k, hk, href, -⟩ := timeoutPoll_refines now h
    exact ⟨_, by rw [exec, hk]; rfl, href⟩
  | abortThreadWait t =>
    rcases abort_refines t h with hf | ⟨k, hk, href⟩
    · exact ⟨_, by rw [exec, hf]; rfl, .nil w⟩
    · exact ⟨_, by rw [exec, hk], href⟩
  | endpointClose e =>
    rcases ipcEndpointClose_spec e h.inv with hf | ⟨k, hk, hclose⟩
    · exact ⟨_, by rw [exec, hf]; rfl, .nil w⟩
    · exact ⟨_, by rw [exec, hk]; rfl, .move (.close hclose) hclose.relabel.caps⟩

/-- Every step of the system refines the moves. -/
theorem IpcStep.refines (h : WorldInv w) (hs : IpcStep w notes w') : w.Refines (notes, w') := by
  cases hs with
  | op env o he =>
    obtain ⟨r, hr, href⟩ := o.exec_refines env h
    obtain rfl : r = (notes, w') := Option.some.inj (hr.symm.trans he)
    exact href.refines
  | sched env c hb he =>
    have hi := SchedState.schedCall_inv h.inv.sched he
    have hk := SchedState.schedCall_keeps h.inv.sched hb he
    exact .move (.quiet (.of_keeps h.inv.sched hi hk))
  | elsewhere he => exact .move (.quiet (.of_elsewhere h.inv.sched he))

/-- Every run of the system is a run of moves that tells the same. -/
theorem run_refines (h : WorldInv w) (hr : Run IpcStep w steps w') :
    w.Refines (steps.flatten, w') := by
  induction hr with
  | nil => exact .nil _
  | snoc _ hs ih =>
    have hlast := hs.refines (ih.inv h)
    have hall := ih.append hlast
    rwa [← List.flatten_concat] at hall

theorem World.WorldInv.of_run (h : WorldInv w) (hr : Run IpcStep w steps w') : WorldInv w' :=
  (run_refines h hr).inv h

end JcosKernel
