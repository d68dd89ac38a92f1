import JcosKernel.Ipc.Ops
import JcosKernel.Lib.Run

/-!
# JcosKernel.Ipc.Moves

The IPC system as an abstract machine: a `Move` is one elementary change of the channels,
the links or the parked calls, together with what an observer is told about it.

The moves say what the operations are for, and nothing about how the code finds out which
of them to make. The invariant of the whole system, `WorldInv`, is proved for the moves;
`Ipc.Refine` shows that every step of the code is a sequence of moves with the same
notes.
-/

namespace JcosKernel

open Lib IpcState Function

namespace World

variable {w w' : World}

/-- One more call was made. -/
def nextCall (w : World) : World := { w with calls := w.calls + 1 }

/-- The call that is made stages its message. -/
def stagedNotes (w : World) (staged : Option IpcMessage) : List IpcNote :=
  (staged.map (IpcNote.made w.calls)).toList

theorem parked_of_unpark {t u : ThreadRef} {p : Nat × ParkedCall}
    (h : (w.setParked t none).parked u = some p) : u ≠ t ∧ w.parked u = some p := by
  simpa [setParked, update_eq_some] using h

/-- The call that thread `t` is in is the one behind its link. -/
structure CallOk (k : IpcState) (t : ThreadRef) (c : ParkedCall) : Prop where
  ipc : c.kind.Ipc
  valid : k.IpcEndpointValid c.endpoint
  waiting : (k.endpoints.endpoint c.endpoint).waiting c.kind = some t
  waitingId : (k.endpoints.endpoint c.endpoint).waitingId c.kind = c.waitId
  timed : c.timed = true ↔ k.TimedFor t

/-- The bookkeeping is consistent, and the linked threads are those inside a call. -/
structure WorldInv (w : World) : Prop where
  inv : w.kernel.IpcInv
  parked : ∀ t n c, w.parked t = some (n, c) → CallOk w.kernel t c
  covered : ∀ e, w.kernel.IpcEndpointValid e → ∀ kind t, kind.Ipc →
    (w.kernel.endpoints.endpoint e).waiting kind = some t → w.parked t ≠ none
  number : ∀ t n c, w.parked t = some (n, c) → n < w.calls
  distinct : ∀ t u n c d, w.parked t = some (n, c) → w.parked u = some (n, d) → t = u

end World

open World

/-- The elementary changes. -/
inductive Move (w : World) : List IpcNote → World → Prop
  | quiet {k : IpcState} : w.kernel.Quiet k → Move w [] (w.setKernel k)
  /-- A receive is made. -/
  | call : Move w [] w.nextCall
  /-- A send is made and returns false. -/
  | refused {message : IpcMessage} :
      Move w [.made w.calls message, .sent w.calls false] w.nextCall
  /-- A receive returns false. -/
  | nothing {n : Nat} {e : Option EndpointRef} : Move w [.received n e none] w
  /-- A send is made and its message accepted. -/
  | put {k : IpcState} {e : EndpointRef} {message : IpcMessage} :
      Put w.kernel k e message.copied →
      Move w [.made w.calls message, .accepted e (some w.calls) message.copied,
        .sent w.calls true] (w.setKernel k).nextCall
  /-- A receive returns the message of the mailbox. -/
  | take {k : IpcState} {n : Nat} {e : EndpointRef} {message : IpcMessage} :
      Take w.kernel k e message → Move w [.received n (some e) (some message)] (w.setKernel k)
  /-- The same, and the staged message is accepted. -/
  | promote {k : IpcState} {n : Nat} {e : EndpointRef} {sender : ThreadRef}
      {message staged : IpcMessage} : Promote w.kernel k e sender message staged →
      Move w [.accepted e ((w.parked sender).map Prod.fst) staged,
        .received n (some e) (some message)] (w.setKernel k)
  | settle {k : IpcState} {e : EndpointRef} {kind : ThreadWaitKind}
      {t : ThreadRef} : Settle w.kernel k e kind t → Move w [] (w.setKernel k)
  | close {k : IpcState} {e : EndpointRef} : Close w.kernel k e →
      Move w [] (w.setKernel k)
  /-- A call is made and its thread linked. -/
  | reserve {t : ThreadRef} {kind : ThreadWaitKind} {e : EndpointRef}
      {staged : Option IpcMessage} : w.kernel.CanWait t → w.kernel.IpcEndpointValid e → kind.Ipc →
      (w.kernel.endpoints.endpoint e).waiting kind = none →
      StagedFor (w.kernel.endpoints.endpoint e) kind staged →
      Move w (w.stagedNotes staged) ((w.setKernel (w.kernel.reserved t kind e staged)).setParked t
        (some (w.calls, ⟨kind, e, w.kernel.sched.nextWaitId, false⟩))).nextCall
  | register {k : IpcState} {t : ThreadRef} {n deadline : Nat} {c : ParkedCall} :
      w.parked t = some (n, c) → Registers w.kernel k t c.kind c.endpoint c.waitId deadline →
      Move w [] ((w.setKernel k).setParked t (some (n, { c with timed := true })))
  /-- A parked send returns. -/
  | finish {t : ThreadRef} {n : Nat} {c : ParkedCall}
      {timed : Slots IpcTimedWait ipcTimedWaitCapacity} : w.parked t = some (n, c) →
      c.kind = .ipcSend → w.kernel.WithoutTimed t timed →
      Move w [.sent n (decide ((w.kernel.sched.thread t).waitResult = .completed))]
        ((w.setKernel (w.kernel.released t .ipcSend c.endpoint timed)).setParked t none)
  /-- A parked receive is over, or a parked call is given up. -/
  | release {t : ThreadRef} {n : Nat} {c : ParkedCall}
      {timed : Slots IpcTimedWait ipcTimedWaitCapacity} : w.parked t = some (n, c) →
      w.kernel.WithoutTimed t timed →
      Move w [] ((w.setKernel (w.kernel.released t c.kind c.endpoint timed)).setParked t none)

namespace World

variable {w w' : World} {k : IpcState} {t : ThreadRef} {e : EndpointRef}

/-! ### The moves keep the invariant -/

variable (h : WorldInv w)
include h

theorem WorldInv.sameWaits (r : w.kernel.SameWaits k) (hi : k.IpcInv) :
    WorldInv (w.setKernel k) where
  inv := hi
  parked t n c hp := by
    have hc := h.parked t n c hp
    have hl := r.sameLinks c.endpoint
    refine ⟨hc.ipc, (r.valid_iff _).mpr hc.valid, (hl.waiting _).trans hc.waiting,
      (hl.waitingId _).trans hc.waitingId, ?_⟩
    rw [TimedFor, setKernel, r.timedWaits]
    exact hc.timed
  covered e' hv kind t hk hw :=
    h.covered e' ((r.valid_iff e').mp hv) kind t hk (((r.sameLinks e').waiting kind).symm.trans hw)
  number := h.number
  distinct := h.distinct

theorem WorldInv.relabel (r : Relabel w.kernel k e) (hi : k.IpcInv) :
    WorldInv (w.setKernel k) := h.sameWaits r.sameWaits hi

theorem WorldInv.quiet (q : w.kernel.Quiet k) : WorldInv (w.setKernel k) :=
  h.sameWaits q.sameWaits (h.inv.quiet q)

theorem WorldInv.nextCall : WorldInv w.nextCall :=
  { h with number := fun t n c hp => Nat.lt_succ_of_lt (h.number t n c hp) }

/-- A thread that may wait is in no call. -/
theorem WorldInv.not_parked (hc : w.kernel.CanWait t) : w.parked t = none := by
  cases hp : w.parked t with
  | none => rfl
  | some p =>
    have hok := h.parked t p.1 p.2 hp
    exact absurd rfl (h.inv.ne_of_clear hc.clear hok.valid hok.ipc hok.waiting)

/-- And it has no timeout. -/
theorem WorldInv.not_timedFor (hc : w.kernel.CanWait t) : ¬ w.kernel.TimedFor t := by
  rintro ⟨i, entry, hi, hwt⟩
  have ht := h.inv.timed i entry hi
  exact h.inv.ne_of_clear hc.clear ht.valid ht.kind ht.waiting hwt

theorem WorldInv.reserve {kind : ThreadWaitKind} {staged : Option IpcMessage}
    (hc : w.kernel.CanWait t) (hv : w.kernel.IpcEndpointValid e) (hk : kind.Ipc)
    (hfree : (w.kernel.endpoints.endpoint e).waiting kind = none)
    (hst : StagedFor (w.kernel.endpoints.endpoint e) kind staged) :
    WorldInv ((w.setKernel (w.kernel.reserved t kind e staged)).setParked t
      (some (w.calls, ⟨kind, e, w.kernel.sched.nextWaitId, false⟩))).nextCall := by
  obtain ⟨hself, hselfId⟩ := reserved_link_self (t := t) hst
  have hr := reserved_relink (t := t) hst
  -- the place of the new link was free
  have hne : ∀ {e' kind' u}, (w.kernel.endpoints.endpoint e').waiting kind' = some u →
      ¬ (e' = e ∧ kind' = kind) := by
    rintro e' kind' u hw ⟨rfl, rfl⟩
    rw [hfree] at hw
    cases hw
  refine
    { inv := h.inv.reserve hv hfree hst hc.live hc.id hc.clear hc.current hc.nextWaitId
      parked := fun u n d hp => ?_
      covered := fun e' hv' kind' u hk' hw => ?_
      number := fun u n d hp => ?_
      distinct := fun u u' n d d' hp hp' => ?_ }
  · rcases update_eq_some.mp hp with ⟨rfl, hnew⟩ | ⟨-, hp⟩
    · cases hnew
      exact ⟨hk, (hr.valid_iff e).mpr hv, hself, hselfId,
        iff_of_false Bool.false_ne_true (h.not_timedFor hc)⟩
    · have hd := h.parked u n d hp
      have hl := hr.links hd.ipc (hne hd.waiting)
      exact ⟨hd.ipc, (hr.valid_iff _).mpr hd.valid, hl.1.trans hd.waiting,
        hl.2.trans hd.waitingId, hd.timed⟩
  · show update w.parked t _ u ≠ none
    by_cases hu : u = t
    · subst hu
      simp
    · rw [update_of_ne hu]
      have hnew : ¬ (e' = e ∧ kind' = kind) := by
        rintro ⟨rfl, rfl⟩
        exact hu (Option.some.inj (hself.symm.trans hw)).symm
      exact h.covered e' ((hr.valid_iff e').mp hv') kind' u hk'
        ((hr.links hk' hnew).1.symm.trans hw)
  · rcases update_eq_some.mp hp with ⟨-, hnew⟩ | ⟨-, hp⟩
    · cases hnew
      exact Nat.lt_succ_self _
    · exact Nat.lt_succ_of_lt (h.number u n d hp)
  · -- the number of the new call is larger than all others
    rcases update_eq_some.mp hp with ⟨hu, hn⟩ | ⟨-, hp⟩ <;>
      rcases update_eq_some.mp hp' with ⟨hu', hn'⟩ | ⟨-, hp'⟩
    · exact hu.trans hu'.symm
    · cases hn
      exact absurd rfl (h.number u' _ d' hp').ne
    · cases hn'
      exact absurd rfl (h.number u _ d hp).ne
    · exact h.distinct u u' n d d' hp hp'

theorem WorldInv.register {n deadline : Nat} {c : ParkedCall} (hp : w.parked t = some (n, c))
    (r : Registers w.kernel k t c.kind c.endpoint c.waitId deadline) :
    WorldInv ((w.setKernel k).setParked t (some (n, { c with timed := true }))) := by
  have hc := h.parked t n c hp
  have hinv := r.inv h.inv hc.valid hc.ipc hc.waiting hc.waitingId
  obtain ⟨slot, entry, hslot, rfl, hentry, -⟩ := r.stored
  have htimed : ∀ u, TimedFor { w.kernel with timedWaits := w.kernel.timedWaits.put slot entry } u ↔
      u = t ∨ w.kernel.TimedFor u := by
    intro u
    constructor
    · rintro ⟨i, v, hi, hv⟩
      rcases Slots.put_eq_some.mp hi with ⟨-, rfl⟩ | ⟨-, hi⟩
      · exact .inl (hv.symm.trans hentry)
      · exact .inr ⟨i, v, hi, hv⟩
    · rintro (rfl | ⟨i, v, hi, hv⟩)
      · exact ⟨slot, entry, by simp [Slots.put], hentry⟩
      · refine ⟨i, v, Slots.put_eq_some.mpr (.inr ⟨?_, hi⟩), hv⟩
        rintro rfl
        cases hslot.symm.trans hi
  have hold : ∀ u m d, update w.parked t (some (n, { c with timed := true })) u =
      some (m, d) → ∃ d0, w.parked u = some (m, d0) ∧
        ((u = t ∧ d = { d0 with timed := true }) ∨ (u ≠ t ∧ d = d0)) := by
    intro u m d hu
    rcases update_eq_some.mp hu with ⟨rfl, hnew⟩ | ⟨hut, hu⟩
    · cases hnew
      exact ⟨c, hp, .inl ⟨rfl, rfl⟩⟩
    · exact ⟨d, hu, .inr ⟨hut, rfl⟩⟩
  refine
    { inv := hinv
      parked := fun u m d hu => ?_
      covered := fun e' hv kind u hk hw => ?_
      number := fun u m d hu => ?_
      distinct := fun u u' m d d' hu hu' => ?_ }
  · obtain ⟨d0, hd0, hd⟩ := hold u m d hu
    have hok := h.parked u m d0 hd0
    rcases hd with ⟨rfl, rfl⟩ | ⟨hut, rfl⟩
    · exact { hok with timed := iff_of_true rfl ((htimed u).mpr (.inl rfl)) }
    · refine { hok with timed := hok.timed.trans ?_ }
      exact ((htimed u).trans (or_iff_right hut)).symm
  · show update w.parked t _ u ≠ none
    by_cases hut : u = t
    · subst hut
      simp
    · rw [update_of_ne hut]
      exact h.covered e' hv kind u hk hw
  · obtain ⟨d0, hd0, -⟩ := hold u m d hu
    exact h.number u m d0 hd0
  · obtain ⟨d0, hd0, -⟩ := hold u m d hu
    obtain ⟨d1, hd1, -⟩ := hold u' m d' hu'
    exact h.distinct u u' m d0 d1 hd0 hd1

theorem WorldInv.release {n : Nat} {c : ParkedCall}
    {timed : Slots IpcTimedWait ipcTimedWaitCapacity} (hp : w.parked t = some (n, c))
    (ht : w.kernel.WithoutTimed t timed) :
    WorldInv ((w.setKernel (w.kernel.released t c.kind c.endpoint timed)).setParked t none) := by
  have hc := h.parked t n c hp
  have hr : w.kernel.Relink (w.kernel.released t c.kind c.endpoint timed) t c.kind c.endpoint :=
    released_relink hc.ipc
  obtain ⟨hself, -, -⟩ := release_links (w.kernel.endpoints.endpoint c.endpoint) hc.ipc
  have htimed : ∀ u, u ≠ t →
      ((w.kernel.released t c.kind c.endpoint timed).TimedFor u ↔ w.kernel.TimedFor u) := by
    intro u hut
    constructor
    · rintro ⟨i, v, hi, hv⟩
      exact ⟨i, v, ((ht i v).mp hi).1, hv⟩
    · rintro ⟨i, v, hi, hv⟩
      exact ⟨i, v, (ht i v).mpr ⟨hi, hv ▸ hut⟩, hv⟩
  refine
    { inv := h.inv.release hc.valid hc.ipc hc.waiting fun i v => (ht i v).mp
      parked := fun u m d hu => ?_
      covered := fun e' hv kind u hk hw => ?_
      number := fun u m d hu => h.number u m d (parked_of_unpark hu).2
      distinct := fun u u' m d d' hu hu' =>
        h.distinct u u' m d d' (parked_of_unpark hu).2 (parked_of_unpark hu').2 }
  · obtain ⟨hut, hu⟩ := parked_of_unpark hu
    have hd := h.parked u m d hu
    -- one side of an endpoint has one waiter
    have hne : ¬ (d.endpoint = c.endpoint ∧ d.kind = c.kind) := by
      rintro ⟨he, hk⟩
      have hw := hd.waiting
      rw [he, hk, hc.waiting] at hw
      exact hut (Option.some.inj hw).symm
    have hl := hr.links hd.ipc hne
    exact ⟨hd.ipc, (hr.valid_iff _).mpr hd.valid, hl.1.trans hd.waiting,
      hl.2.trans hd.waitingId, hd.timed.trans (htimed u hut).symm⟩
  · have hv0 := (hr.valid_iff e').mp hv
    have hne : ¬ (e' = c.endpoint ∧ kind = c.kind) := by
      rintro ⟨rfl, rfl⟩
      rw [setParked, setKernel, released_endpoint_self, hself] at hw
      cases hw
    have hw0 : (w.kernel.endpoints.endpoint e').waiting kind = some u :=
      (hr.links hk hne).1.symm.trans hw
    have hut := h.inv.ne_of_linked hc.valid hc.ipc hc.waiting hv0 hk hw0 hne
    show update w.parked t none u ≠ none
    rw [update_of_ne hut]
    exact h.covered e' hv0 kind u hk hw0

theorem WorldInv.move {notes : List IpcNote} (m : Move w notes w') : WorldInv w' := by
  cases m with
  | quiet q => exact h.quiet q
  | call | refused => exact h.nextCall
  | nothing => exact h
  | put p => exact (h.relabel p.relabel (h.inv.put p)).nextCall
  | take p => exact h.relabel p.relabel (h.inv.take p)
  | promote p => exact h.relabel p.relabel (h.inv.promote p)
  | settle p => exact h.relabel p.relabel (h.inv.settle p)
  | close p => exact h.relabel p.relabel (h.inv.close p)
  | reserve hc hv hk hfree hst => exact h.reserve hc hv hk hfree hst
  | register hp r => exact h.register hp r
  | finish hp hk ht => exact hk ▸ h.release hp ht
  | release hp ht => exact h.release hp ht

end World

end JcosKernel
