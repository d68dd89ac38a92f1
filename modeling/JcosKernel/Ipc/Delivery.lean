import JcosKernel.Ipc.Runs

/-!
# JcosKernel.Ipc.Delivery

IPC delivers every accepted message exactly once and in order.

Two things are followed along a run of moves. The channel: what was accepted at an
endpoint is what was delivered from it, followed by the mailbox, as long as the endpoint
is open (`Move.conserves`). The account of the calls: which call a message was accepted
for, and what that call returns (`Account`). Both carry over to the code by
`run_refines`.
-/

namespace JcosKernel

open Lib IpcState World Function

/-! ### What the notes say -/

/-- The messages that went into the mailbox of `e`, in order. -/
def acceptedAt (e : EndpointRef) (notes : List IpcNote) : List IpcMessage :=
  notes.filterMap fun
    | .accepted e' _ message => if e' = e then some message else none
    | _ => none

/-- The messages that receives on `e` returned, in order. -/
def deliveredAt (e : EndpointRef) (notes : List IpcNote) : List IpcMessage :=
  notes.filterMap fun
    | .received _ (some e') (some message) => if e' = e then some message else none
    | _ => none

/-- The messages that were accepted for the call `n`. -/
def acceptedFor (n : Nat) (notes : List IpcNote) : List IpcMessage :=
  notes.filterMap fun
    | .accepted _ (some n') message => if n' = n then some message else none
    | _ => none

/-- The content of the mailbox: no message or one. -/
def Endpoint.mailbox (ep : Endpoint) : List IpcMessage :=
  if ep.messageReady then [ep.message] else []

/-- The send that a note is about. -/
def IpcNote.sendCall : IpcNote → Option Nat
  | made n _ => some n
  | accepted _ call _ => call
  | sent n _ => some n
  | received _ _ _ => none

@[simp] theorem acceptedAt_append (e : EndpointRef) (l l' : List IpcNote) :
    acceptedAt e (l ++ l') = acceptedAt e l ++ acceptedAt e l' := List.filterMap_append

@[simp] theorem deliveredAt_append (e : EndpointRef) (l l' : List IpcNote) :
    deliveredAt e (l ++ l') = deliveredAt e l ++ deliveredAt e l' := List.filterMap_append

@[simp] theorem acceptedFor_append (n : Nat) (l l' : List IpcNote) :
    acceptedFor n (l ++ l') = acceptedFor n l ++ acceptedFor n l' := List.filterMap_append

variable {r : IpcReturn (Progress (Option IpcMessage))} {kind : ThreadWaitKind} {t : ThreadRef}
  {message : IpcMessage} {k : IpcState} {m staged : Option IpcMessage} {e' : EndpointRef}
  {result : ThreadWaitResult} {handle : CapabilityHandle} {c : ParkedCall}
  {accepted : List Accepted} {l notes : List IpcNote} {process : ProcessRef} {ep ep' : Endpoint}
  {n : Nat} {α : Type}

theorem acceptedFor_eq_nil (h : ∀ x ∈ l, x.sendCall ≠ some n) : acceptedFor n l = [] := by
  refine List.filterMap_eq_nil_iff.mpr fun x hx => ?_
  have hn := h x hx
  cases x with
  | accepted e call message =>
    cases call with
    | none => rfl
    | some n' => exact if_neg fun hnn => hn (congrArg some hnn)
  | made n' message => rfl
  | sent n' ok => rfl
  | received n' e message => rfl

theorem mem_acceptedFor {e : EndpointRef} (h : IpcNote.accepted e (some n) message ∈ l) :
    message ∈ acceptedFor n l :=
  List.mem_filterMap.mpr ⟨_, h, if_pos rfl⟩

/-! ### The channel -/

section Channel

variable {w w' : World} {e : EndpointRef}

/-- An open endpoint was open before, and its messages are accounted for. -/
def Conserves (e : EndpointRef) (w : World) (notes : List IpcNote) (w' : World) : Prop :=
  ¬ (w'.kernel.endpoints.endpoint e).closed → ¬ (w.kernel.endpoints.endpoint e).closed ∧
    (w.kernel.endpoints.endpoint e).mailbox ++ acceptedAt e notes =
      deliveredAt e notes ++ (w'.kernel.endpoints.endpoint e).mailbox

/-- The mailbox and the closed flag are untouched. -/
structure Endpoint.SameMail (ep ep' : Endpoint) : Prop where
  closed : ep'.closed = ep.closed
  ready : ep'.messageReady = ep.messageReady
  message : ep'.message = ep.message

theorem Endpoint.SameMail.of_eq (h : ep' = ep) : ep.SameMail ep' := by
  subst h
  exact ⟨rfl, rfl, rfl⟩

theorem Endpoint.SameMail.mailbox (h : ep.SameMail ep') : ep'.mailbox = ep.mailbox := by
  rw [Endpoint.mailbox, Endpoint.mailbox, h.ready, h.message]

theorem Conserves.same
    (h : (w.kernel.endpoints.endpoint e).SameMail (w'.kernel.endpoints.endpoint e))
    (ha : acceptedAt e notes = []) (hd : deliveredAt e notes = []) : Conserves e w notes w' := by
  intro hopen
  rw [h.closed] at hopen
  exact ⟨hopen, by rw [ha, hd, h.mailbox, List.append_nil, List.nil_append]⟩

theorem Endpoint.reserve_sameMail (ep : Endpoint) (t : ThreadRef) (id : Nat)
    (staged : Option IpcMessage) : ep.SameMail (ep.reserve t id staged) := by
  cases staged <;> exact ⟨rfl, rfl, rfl⟩

theorem Endpoint.release_sameMail (ep : Endpoint) (hk : kind.Ipc) :
    ep.SameMail (ep.release kind) := by
  rcases hk with rfl | rfl <;> exact ⟨rfl, rfl, rfl⟩

theorem reserved_sameMail : (k.endpoints.endpoint e).SameMail
      ((k.reserved t kind e' staged).endpoints.endpoint e) := by
  by_cases he : e = e'
  · subst he
    rw [reserved_endpoint_self]
    exact Endpoint.reserve_sameMail _ _ _ _
  · exact .of_eq (reserved_endpoint_of_ne he)

theorem released_sameMail {timed : Slots IpcTimedWait ipcTimedWaitCapacity} (hk : kind.Ipc) :
    (k.endpoints.endpoint e).SameMail ((k.released t kind e' timed).endpoints.endpoint e) := by
  by_cases he : e = e'
  · subst he
    rw [released_endpoint_self]
    exact Endpoint.release_sameMail _ hk
  · exact .of_eq (released_endpoint_of_ne he)

/-- A move on the endpoint `e'` leaves the messages of the others alone. -/
theorem Conserves.others (he : e ≠ e') (r : Relabel w.kernel k e') (hk : w'.kernel = k)
    (ha : acceptedAt e notes = []) (hd : deliveredAt e notes = []) : Conserves e w notes w' :=
  .same (.of_eq (hk ▸ r.others e he)) ha hd

theorem Move.conserves (h : WorldInv w) (m : Move w notes w') (e : EndpointRef) :
    Conserves e w notes w' := by
  cases m with
  | quiet q =>
    refine .same ?_ rfl rfl
    rw [setKernel, q.endpoints.endpoint e]
    exact ⟨rfl, rfl, rfl⟩
  | call | refused => exact .same (.of_eq rfl) rfl rfl
  | nothing => exact .same (.of_eq rfl) rfl (by cases ‹Option EndpointRef› <;> rfl)
  | @put k e' message p =>
    by_cases he : e = e'
    · subst he
      refine fun _ => ⟨p.isOpen, ?_⟩
      simp [nextCall, p.endpoint, Endpoint.mailbox, p.empty, Endpoint.fill, acceptedAt,
        deliveredAt]
    · exact .others he p.relabel rfl (by simp [acceptedAt, Ne.symm he]) rfl
  | @take k n e' message p =>
    by_cases he : e = e'
    · subst he
      intro hopen
      simp only [setKernel, p.endpoint] at hopen ⊢
      refine ⟨hopen, ?_⟩
      simp [Endpoint.mailbox, p.ready, p.content, Endpoint.dropMessage, acceptedAt, deliveredAt]
    · exact .others he p.relabel rfl rfl (by simp [deliveredAt, Ne.symm he])
  | @promote k n e' sender message staged p =>
    by_cases he : e = e'
    · subst he
      intro hopen
      simp only [setKernel, p.endpoint] at hopen ⊢
      refine ⟨hopen, ?_⟩
      -- one message leaves and the staged one is accepted in its place
      simp [Endpoint.mailbox, p.ready, p.content, Endpoint.fill, Endpoint.dropStaged, acceptedAt,
        deliveredAt]
    · exact .others he p.relabel rfl (by simp [acceptedAt, Ne.symm he])
        (by simp [deliveredAt, Ne.symm he])
  | @settle k e' kind t p =>
    by_cases he : e = e'
    · subst he
      refine .same ?_ rfl rfl
      rw [setKernel, p.endpoint]
      split_ifs
      · exact ⟨rfl, rfl, rfl⟩
      · exact .of_eq rfl
    · exact .others he p.relabel rfl rfl rfl
  | @close k e' p =>
    by_cases he : e = e'
    · subst he
      intro hopen
      simp [p.endpoint] at hopen
    · exact .others he p.relabel rfl rfl rfl
  | @reserve t kind e' staged hc hv hk hfree hst =>
    exact .same reserved_sameMail (by cases staged <;> rfl) (by cases staged <;> rfl)
  | register hp r =>
    obtain ⟨slot, entry, -, rfl, -⟩ := r.stored
    exact .same (.of_eq rfl) rfl rfl
  | finish hp hk ht => exact .same (released_sameMail (.inr rfl)) rfl rfl
  | release hp ht => exact .same (released_sameMail (h.parked _ _ _ hp).ipc) rfl rfl

end Channel

/-! ### The account of the calls -/

/-- The wait of a send can end early by its own timeout and by the closing of the endpoint. -/
def IpcState.Explains (k : IpcState) (t : ThreadRef) (c : ParkedCall) : Prop :=
  ((k.sched.thread t).waitResult = .timedOut → c.timed) ∧
    ((k.sched.thread t).waitResult = .peerClosed → (k.endpoints.endpoint c.endpoint).closed) ∧
    (k.sched.thread t).waitResult ≠ .cancelled

/-- What the notes say about a send that is inside its loop. -/
structure SendPending (notes : List IpcNote) (k : IpcState) (t : ThreadRef) (n : Nat)
    (c : ParkedCall) (message : IpcMessage) : Prop where
  made : .made n message ∈ notes
  unsent : ∀ ok, .sent n ok ∉ notes
  staged : (k.sched.thread t).waitResult = .pending →
    (k.endpoints.endpoint c.endpoint).waitingSenderMessage = message
  accepted : acceptedFor n notes =
    if (k.sched.thread t).waitResult = .completed then [message.copied] else []
  explained : k.Explains t c

/-- Every accepted message is the one message of a send, and a send that returned says
whether its message was accepted. -/
structure Account (notes : List IpcNote) (w : World) : Prop where
  numbered : ∀ x ∈ notes, ∀ n, x.sendCall = some n → n < w.calls
  owned : ∀ e call message, .accepted e call message ∈ notes → call ≠ none
  single : ∀ n m m', .made n m ∈ notes → .made n m' ∈ notes → m = m'
  once : ∀ n, acceptedFor n notes = [] ∨
    ∃ m, .made n m ∈ notes ∧ acceptedFor n notes = [m.copied]
  returned : ∀ n ok, .sent n ok ∈ notes →
    ∃ m, .made n m ∈ notes ∧ acceptedFor n notes = if ok then [m.copied] else []
  parked : ∀ t n c, w.parked t = some (n, c) → c.kind = .ipcSend →
    ∃ m, SendPending notes w.kernel t n c m

/-- The send of `t` has not come further. -/
structure SameSend (k k' : IpcState) (t : ThreadRef) (c : ParkedCall) : Prop where
  completed : (k'.sched.thread t).waitResult = .completed ↔
    (k.sched.thread t).waitResult = .completed
  pending : (k'.sched.thread t).waitResult = .pending →
    (k.sched.thread t).waitResult = .pending ∧
      (k'.endpoints.endpoint c.endpoint).waitingSenderMessage =
        (k.endpoints.endpoint c.endpoint).waitingSenderMessage
  explains : k.Explains t c → k'.Explains t c

theorem SameSend.of_eq {k k' : IpcState} (hw : (k'.sched.thread t).wait = (k.sched.thread t).wait)
    (hs : ((k'.endpoints.endpoint c.endpoint).waitingSenderMessage,
        (k'.endpoints.endpoint c.endpoint).closed) =
      ((k.endpoints.endpoint c.endpoint).waitingSenderMessage,
        (k.endpoints.endpoint c.endpoint).closed)) : SameSend k k' t c := by
  have hr : (k'.sched.thread t).waitResult = (k.sched.thread t).waitResult :=
    congrArg Wait.result hw
  obtain ⟨hm, hcl⟩ := Prod.mk.inj hs
  exact ⟨by rw [hr], fun hp => ⟨hr ▸ hp, hm⟩, fun hx => by rwa [Explains, hr, hcl]⟩

namespace SendPending

theorem keep {k' : IpcState} (h : SendPending notes k t n c message) (hs : SameSend k k' t c) :
    SendPending notes k' t n c message :=
  { h with
    staged := fun hp => (hs.pending hp).2.trans (h.staged (hs.pending hp).1)
    accepted := by simpa only [hs.completed] using h.accepted
    explained := hs.explains h.explained }

/-- Notes about other calls change nothing. -/
theorem append {x : IpcNote} (h : SendPending notes k t n c message)
    (hx : x.sendCall ≠ some n) : SendPending (notes ++ [x]) k t n c message :=
  { h with
    made := List.mem_append_left _ h.made
    unsent := fun ok hmem => by
      rcases List.mem_append.mp hmem with hmem | hmem
      · exact h.unsent ok hmem
      · exact hx (by rw [← List.mem_singleton.mp hmem]; rfl)
    accepted := by
      rw [acceptedFor_append, acceptedFor_eq_nil (l := [x]) (by simpa using hx), List.append_nil]
      exact h.accepted }

end SendPending

namespace Account

variable {w w' : World}

variable (h : Account notes w)
include h

theorem fresh (x : IpcNote) (hx : x ∈ notes) : x.sendCall ≠ some w.calls :=
  fun hn => Nat.lt_irrefl _ (h.numbered x hx _ hn)

/-- The parked sends are among the old ones and have not come further. -/
theorem keep (hcalls : w.calls ≤ w'.calls)
    (hp : ∀ t n c, w'.parked t = some (n, c) → c.kind = .ipcSend →
      w.parked t = some (n, c) ∧ SameSend w.kernel w'.kernel t c) : Account notes w' := by
  refine { h with
    numbered := fun x hx n hn => Nat.lt_of_lt_of_le (h.numbered x hx n hn) hcalls
    parked := fun t n c hpk hk => ?_ }
  obtain ⟨hp0, hs⟩ := hp t n c hpk hk
  obtain ⟨m, hm⟩ := h.parked t n c hp0 hk
  exact ⟨m, hm.keep hs⟩

/-- The same with the same calls. -/
theorem setKernel (hs : ∀ t n c, w.parked t = some (n, c) → c.kind = .ipcSend →
      SameSend w.kernel k t c) : Account notes (w.setKernel k) :=
  h.keep le_rfl fun t n c hp hk => ⟨hp, hs t n c hp hk⟩

theorem nextCall : Account notes w.nextCall :=
  h.keep (Nat.le_succ _) fun _ _ _ hp _ => ⟨hp, .of_eq rfl rfl⟩

/-- A thread leaves its call. -/
theorem unpark (t : ThreadRef) : Account notes (w.setParked t none) := by
  refine h.keep le_rfl fun u n c hp hk => ⟨?_, .of_eq rfl rfl⟩
  exact (parked_of_unpark hp).2

/-- A thread enters a call. -/
theorem park (hs : c.kind = .ipcSend → ∃ m, SendPending notes w.kernel t n c m) :
    Account notes (w.setParked t (some (n, c))) := by
  refine { h with parked := fun u n' c' hp hk => ?_ }
  rcases update_eq_some.mp hp with ⟨rfl, hnew⟩ | ⟨-, hp⟩
  · cases hnew
    exact hs hk
  · exact h.parked u n' c' hp hk

/-- One more note. It is about a send that is not parked; a message that it reports as
accepted is the first of its call, and what it reports as returned is true. -/
theorem extend (x : IpcNote)
    (hn : ∀ n, x.sendCall = some n → n < w.calls ∧ ∀ t c, w.parked t ≠ some (n, c))
    (howned : ∀ e m, x ≠ .accepted e none m)
    (hmade : ∀ n m, x = .made n m → ∀ m', .made n m' ∉ notes)
    (hacc : ∀ n, acceptedFor n [x] = [] ∨ acceptedFor n notes = [] ∧
      (∀ ok, .sent n ok ∉ notes) ∧ ∃ m, .made n m ∈ notes ∧ acceptedFor n [x] = [m.copied])
    (hsent : ∀ n ok, x = .sent n ok → ∃ m, .made n m ∈ notes ∧
      acceptedFor n notes = if ok then [m.copied] else []) : Account (notes ++ [x]) w where
  numbered y hy n hyn := by
    rcases List.mem_append.mp hy with hy | hy
    · exact h.numbered y hy n hyn
    · exact (hn n (List.mem_singleton.mp hy ▸ hyn)).1
  owned e call m hy := by
    rcases List.mem_append.mp hy with hy | hy
    · exact h.owned e call m hy
    · rintro rfl
      exact howned e m (List.mem_singleton.mp hy).symm
  single n m m' hm hm' := by
    rcases List.mem_append.mp hm with hm | hm <;> rcases List.mem_append.mp hm' with hm' | hm'
    · exact h.single n m m' hm hm'
    · exact absurd hm (hmade n m' (List.mem_singleton.mp hm').symm m)
    · exact absurd hm' (hmade n m (List.mem_singleton.mp hm).symm m')
    · exact (IpcNote.made.inj ((List.mem_singleton.mp hm).trans (List.mem_singleton.mp hm').symm)).2
  once n := by
    rw [acceptedFor_append]
    rcases hacc n with hx | ⟨hnone, -, m, hm, hx⟩
    · rw [hx, List.append_nil]
      exact (h.once n).imp_right fun ⟨m, hm, ha⟩ => ⟨m, List.mem_append_left _ hm, ha⟩
    · exact .inr ⟨m, List.mem_append_left _ hm, by rw [hnone, hx, List.nil_append]⟩
  returned n ok hy := by
    rw [acceptedFor_append]
    rcases List.mem_append.mp hy with hy | hy
    · obtain ⟨m, hm, ha⟩ := h.returned n ok hy
      rcases hacc n with hx | ⟨-, hun, -⟩
      · exact ⟨m, List.mem_append_left _ hm, by rw [hx, List.append_nil, ha]⟩
      · exact absurd hy (hun ok)
    · obtain rfl := List.mem_singleton.mp hy
      obtain ⟨m, hm, ha⟩ := hsent n ok rfl
      exact ⟨m, List.mem_append_left _ hm, (List.append_nil _).trans ha⟩
  parked t n c hp hk := by
    obtain ⟨m, hm⟩ := h.parked t n c hp hk
    exact ⟨m, hm.append fun hx => (hn n hx).2 t c hp⟩

/-- A receive returns. -/
theorem hear (n : Nat) (e : Option EndpointRef) (m : Option IpcMessage) :
    Account (notes ++ [.received n e m]) w := by
  refine h.extend _ ?_ ?_ ?_ (fun _ => .inl rfl) ?_
  all_goals
    simp_all [IpcNote.sendCall]

/-- A send is made. -/
theorem make (hw : WorldInv w) (message : IpcMessage) :
    Account (notes ++ [.made w.calls message]) w.nextCall := by
  refine h.nextCall.extend _ (fun n hn => ?_) nofun (fun n m hx m' hm' => ?_) (fun _ => .inl rfl)
    nofun
  · obtain rfl := Option.some.inj hn
    exact ⟨Nat.lt_succ_self _, fun t c hp => (hw.number t _ c hp).ne rfl⟩
  · cases hx
    exact h.fresh _ hm' rfl

/-- The message of a send that is not parked is accepted. -/
theorem accept (e : EndpointRef) (hm : .made n message ∈ notes) (hnone : acceptedFor n notes = [])
    (hun : ∀ ok, .sent n ok ∉ notes) (hnp : ∀ t c, w.parked t ≠ some (n, c)) :
    Account (notes ++ [.accepted e (some n) message.copied]) w := by
  refine h.extend _ (fun n' hn => ?_) nofun nofun (fun n' => ?_) nofun
  · obtain rfl := Option.some.inj hn
    exact ⟨h.numbered _ hm n rfl, hnp⟩
  · by_cases hn : n = n'
    · subst hn
      exact .inr ⟨hnone, hun, message, hm, by simp [acceptedFor]⟩
    · exact .inl (by simp [acceptedFor, hn])

/-- A send that is not parked returns. -/
theorem send (ok : Bool) (hm : .made n message ∈ notes)
    (hacc : acceptedFor n notes = if ok then [message.copied] else [])
    (hnp : ∀ t c, w.parked t ≠ some (n, c)) : Account (notes ++ [.sent n ok]) w := by
  refine h.extend _ (fun n' hn => ?_) nofun nofun (fun _ => .inl rfl) (fun n' ok' hx => ?_)
  · obtain rfl := Option.some.inj hn
    exact ⟨h.numbered _ hm n rfl, hnp⟩
  · cases hx
    exact ⟨message, hm, hacc⟩

end Account

/-! ### The moves keep the account -/

section Moves

variable {w w' : World} {u : ThreadRef} {e : EndpointRef}

/-- Where another thread is the waiting sender, a parked send is not. -/
theorem World.WorldInv.endpoint_ne (h : WorldInv w) (hp : w.parked u = some (n, c))
    (hk : c.kind = .ipcSend) (hw : (w.kernel.endpoints.endpoint e).waitingSender = some t)
    (hu : u ≠ t) : c.endpoint ≠ e := by
  rintro rfl
  have hwait := (h.parked u n c hp).waiting
  rw [hk] at hwait
  exact hu (Option.some.inj (hwait.symm.trans hw))

section

variable (h : Account notes w)
include h

theorem Account.quiet (hw : WorldInv w) (q : w.kernel.Quiet k) : Account notes (w.setKernel k) := by
  refine h.setKernel fun t n c hp hk => ?_
  have hc := hw.parked t n c hp
  obtain ⟨-, -, hwait, -⟩ := q.keeps hc.ipc (hw.inv.linked _ hc.valid _ t hc.ipc hc.waiting)
  exact .of_eq hwait (by rw [q.endpoints.endpoint])

theorem Account.put (hw : WorldInv w) (p : Put w.kernel k e message.copied) :
    Account (notes ++ [.made w.calls message, .accepted e (some w.calls) message.copied,
      .sent w.calls true]) (w.setKernel k).nextCall := by
  have hw' : WorldInv (w.setKernel k) := hw.relabel p.relabel (hw.inv.put p)
  have hk : Account notes (w.setKernel k) := by
    refine h.setKernel fun t n c hp hkind => .of_eq (p.wait t) ?_
    by_cases he : c.endpoint = e
    · rw [he, p.endpoint]
      rfl
    · rw [p.relabel.others _ he]
  have hmade := hk.make hw' message
  rw [setKernel_calls] at hmade
  have hnp : ∀ t c, (w.setKernel k).nextCall.parked t ≠ some (w.calls, c) :=
    fun t c hp => (hw.number t _ c hp).ne rfl
  have hin : IpcNote.made w.calls message ∈ notes ++ [.made w.calls message] := by simp
  have hnone : acceptedFor w.calls (notes ++ [.made w.calls message]) = [] := by
    rw [acceptedFor_append, acceptedFor_eq_nil h.fresh]
    rfl
  have hun : ∀ ok, IpcNote.sent w.calls ok ∉ notes ++ [.made w.calls message] := by
    intro ok hx
    simp only [List.mem_append, List.mem_singleton, reduceCtorEq, or_false] at hx
    exact h.fresh _ hx rfl
  have haccept := hmade.accept e hin hnone hun hnp
  have hsend := haccept.send true (List.mem_append_left _ hin)
    (by rw [acceptedFor_append, hnone]; simp [acceptedFor]) hnp
  simpa using hsend

theorem Account.refuse (hw : WorldInv w) (message : IpcMessage) :
    Account (notes ++ [.made w.calls message, .sent w.calls false]) w.nextCall := by
  have hmade := h.make hw message
  have hsend := hmade.send false (List.mem_append_right _ List.mem_cons_self)
    (by rw [acceptedFor_append, acceptedFor_eq_nil h.fresh]; rfl)
    (fun t c hp => (hw.number t _ c hp).ne rfl)
  simpa using hsend

theorem Account.take (p : Take w.kernel k e message) : Account notes (w.setKernel k) := by
  refine h.setKernel fun t n c hp hk => .of_eq (p.wait t) ?_
  by_cases he : c.endpoint = e
  · rw [he, p.endpoint]
    rfl
  · rw [p.relabel.others _ he]

theorem Account.promote {sender : ThreadRef} {message staged : IpcMessage} (hw : WorldInv w)
    (p : Promote w.kernel k e sender message staged) :
    Account (notes ++ [.accepted e ((w.parked sender).map Prod.fst) staged]) (w.setKernel k) := by
  obtain ⟨⟨n, c⟩, hp⟩ := Option.ne_none_iff_exists'.mp
    (hw.covered e p.valid .ipcSend sender (.inr rfl) p.waitingSender)
  have hc := hw.parked sender n c hp
  obtain ⟨hkind, rfl, -⟩ := (hw.inv.linked _ hc.valid _ sender hc.ipc hc.waiting).unique
    (hw.inv.linked e p.valid .ipcSend sender (.inr rfl) p.waitingSender)
  obtain ⟨m, hm⟩ := h.parked sender n c hp hkind
  have hpend := hm.accepted
  rw [if_neg (by rw [p.pending]; decide)] at hpend
  have hdone : (k.sched.thread sender).waitResult = .completed := congrArg Wait.result p.completed
  -- the sender leaves its call for a moment, so that the message is that of no parked call
  have hrest : Account notes ((w.setKernel k).setParked sender none) := by
    refine (h.unpark sender).setKernel fun u n' d hd hkd => ?_
    obtain ⟨hu, hd⟩ := parked_of_unpark hd
    refine .of_eq (p.wait u hu) ?_
    rw [setKernel_kernel, p.relabel.others _ (hw.endpoint_ne hd hkd p.waitingSender hu)]
    rfl
  have hstaged : staged = m.copied := by rw [← p.ofSender, hm.staged p.pending]
  have haccept := hrest.accept c.endpoint hm.made hpend hm.unsent (fun u d hd => by
    obtain ⟨hu, hd⟩ := parked_of_unpark hd
    exact hu (hw.distinct u sender n d c hd hp))
  have hpark := haccept.park (t := sender) (c := c) fun _ => ⟨m,
    { made := List.mem_append_left _ hm.made
      unsent := fun ok hx => hm.unsent ok (by simpa using hx)
      staged := fun hpe => by simp [hdone] at hpe
      accepted := by
        rw [setParked_kernel, setKernel_kernel, if_pos hdone, acceptedFor_append, hpend]
        simp [acceptedFor]
      explained := by simp [Explains, hdone] }⟩
  have hworld : ((w.setKernel k).setParked sender none).setParked sender (some (n, c)) =
      w.setKernel k := by
    have hself : update (update w.parked sender none) sender (some (n, c)) =
        w.parked := by
      rw [update_idem, ← hp, update_eq_self]
    exact congrArg (World.mk k · w.calls) hself
  rw [hworld] at hpark
  rw [hp, hstaged]
  exact hpark

theorem Account.settle (hw : WorldInv w) (p : Settle w.kernel k e kind t) :
    Account notes (w.setKernel k) := by
  refine h.setKernel fun u n c hp hk => ?_
  by_cases hu : u = t
  · subst hu
    have hres : (k.sched.thread u).waitResult = .timedOut := congrArg Wait.result p.settled
    have htimed := (hw.parked u n c hp).timed.mpr p.timed
    exact ⟨by simp [hres, p.pending], by simp [hres], fun _ => by simp [Explains, hres, htimed]⟩
  · refine .of_eq (p.wait u hu) ?_
    by_cases he : c.endpoint = e
    · rw [he, p.endpoint]
      split_ifs with hkind
      · subst hkind
        exact absurd he (hw.endpoint_ne hp hk p.waiting hu)
      · rfl
    · rw [p.relabel.others _ he]

theorem Account.close (hw : WorldInv w) (p : Close w.kernel k e) :
    Account notes (w.setKernel k) := by
  refine h.setKernel fun u n c hp hk => ?_
  have hc := hw.parked u n c hp
  by_cases he : c.endpoint = e
  · have hwait := hc.waiting
    rw [he] at hwait
    have hres := p.settled u c.kind hc.ipc hwait
    have hclosed : (k.endpoints.endpoint c.endpoint).closed = true := by rw [he, p.endpoint]
    refine ⟨?_, fun hpe => absurd (hres.symm.trans hpe) (closedResult_ne_pending _), fun hx => ?_⟩
    all_goals
      simp only [Explains, hres, closedResult, hclosed]
      split_ifs with hpend
    · simp [hpend]
    · rfl
    · simp
    · exact ⟨hx.1, fun _ => trivial, hx.2.2⟩
  · -- the thread is linked elsewhere, so its wait is untouched
    obtain ⟨result, hwait, hr | ⟨-, kind, hkind, hlink⟩⟩ := p.relabel.wait u
    · exact .of_eq (by rw [hwait, hr]; rfl) (by rw [p.relabel.others _ he])
    · exact absurd rfl (hw.inv.ne_of_linked p.valid hkind hlink hc.valid hc.ipc hc.waiting
        fun hsame => he hsame.1)

theorem Account.reserve (hw : WorldInv w) (hc : w.kernel.CanWait t)
    (hfree : (w.kernel.endpoints.endpoint e).waiting kind = none)
    (hst : StagedFor (w.kernel.endpoints.endpoint e) kind staged) (id : Nat) :
    Account (notes ++ w.stagedNotes staged)
      ((w.setKernel (w.kernel.reserved t kind e staged)).setParked t
        (some (w.calls, ⟨kind, e, id, false⟩))).nextCall := by
  have hmade : Account (notes ++ w.stagedNotes staged) w.nextCall := by
    cases staged with
    | none => simpa [stagedNotes] using h.nextCall
    | some message => exact h.make hw message
  have hkernel : Account (notes ++ w.stagedNotes staged)
      (w.nextCall.setKernel (w.kernel.reserved t kind e staged)) := by
    refine hmade.setKernel fun u n c hp hk => ?_
    have hd := hw.parked u n c hp
    have hu : u ≠ t := by
      rintro rfl
      exact absurd ((hw.not_parked hc).symm.trans hp) (Option.some_ne_none _).symm
    refine .of_eq (congrArg Thread.wait (reserved_thread_of_ne hu)) ?_
    by_cases he : c.endpoint = e
    · cases staged with
      | none =>
        rw [he, reserved_endpoint_self]
        rfl
      | some message =>
        -- only a send stages a message, and the place of the sender was free
        have hkind : kind = .ipcSend := by
          cases kind <;> first | rfl | exact hst.elim
        have hwait := hd.waiting
        rw [hk, he, ← hkind, hfree] at hwait
        cases hwait
    · rw [reserved_endpoint_of_ne he]
      rfl
  refine hkernel.park fun hkind => ?_
  subst hkind
  cases staged with
  | none => exact hst.elim
  | some message =>
    refine ⟨message, ⟨by simp [stagedNotes], fun ok hx => ?_, fun _ => ?_, ?_,
      by simp [Explains, Thread.setWait, Wait.begun]⟩⟩
    · simp only [stagedNotes, Option.map_some, Option.toList_some, List.mem_append,
        List.mem_singleton, reduceCtorEq, or_false] at hx
      exact h.fresh _ hx rfl
    · show ((w.kernel.reserved t .ipcSend e (some message)).endpoints.endpoint
        e).waitingSenderMessage = message
      rw [reserved_endpoint_self]
      rfl
    · rw [acceptedFor_append, acceptedFor_eq_nil h.fresh, if_neg]
      · rfl
      · show ((w.kernel.reserved t .ipcSend e (some message)).sched.thread t).waitResult ≠ _
        rw [reserved_pending]
        decide

theorem Account.register {deadline : Nat} (hp : w.parked t = some (n, c))
    (r : Registers w.kernel k t c.kind c.endpoint c.waitId deadline) :
    Account notes ((w.setKernel k).setParked t (some (n, { c with timed := true }))) := by
  obtain ⟨slot, entry, -, rfl, -⟩ := r.stored
  have hkernel := h.setKernel (k := { w.kernel with
    timedWaits := w.kernel.timedWaits.put slot entry }) fun _ _ _ _ _ => .of_eq rfl rfl
  refine hkernel.park fun hk => ?_
  obtain ⟨m, hm⟩ := h.parked t n c hp hk
  exact ⟨m, { hm with explained := ⟨fun _ => rfl, hm.explained.2⟩ }⟩

theorem Account.release (hw : WorldInv w) (hp : w.parked t = some (n, c))
    (timed : Slots IpcTimedWait ipcTimedWaitCapacity) :
    Account notes ((w.setKernel (w.kernel.released t c.kind c.endpoint timed)).setParked t none) := by
  have hc := hw.parked t n c hp
  refine (h.unpark t).setKernel fun u n' d hd hk => ?_
  obtain ⟨hu, hd⟩ := parked_of_unpark hd
  refine .of_eq (congrArg Thread.wait (released_thread_of_ne hu)) ?_
  by_cases he : d.endpoint = c.endpoint
  · rw [setKernel_kernel, he, released_endpoint_self]
    rcases hc.ipc with hck | hck
    · rw [hck]
      rfl
    · have hwait := hc.waiting
      rw [hck] at hwait
      exact absurd he (hw.endpoint_ne hd hk hwait hu)
  · rw [setKernel_kernel, released_endpoint_of_ne he]
    rfl

theorem Account.finish (hw : WorldInv w) (hp : w.parked t = some (n, c)) (hk : c.kind = .ipcSend)
    (timed : Slots IpcTimedWait ipcTimedWaitCapacity) :
    Account (notes ++ [.sent n (decide ((w.kernel.sched.thread t).waitResult = .completed))])
      ((w.setKernel (w.kernel.released t .ipcSend c.endpoint timed)).setParked t none) := by
  obtain ⟨m, hm⟩ := h.parked t n c hp hk
  have hrel := h.release hw hp timed
  rw [hk] at hrel
  refine hrel.send _ hm.made (by simpa using hm.accepted) fun u d hd => ?_
  obtain ⟨hu, hd⟩ := parked_of_unpark hd
  exact hu (hw.distinct u t n d c hd hp)

end

theorem Account.move {told : List IpcNote} (h : Account told w) (hw : WorldInv w)
    (m : Move w notes w') : Account (told ++ notes) w' := by
  cases m with
  | quiet q => simpa using h.quiet hw q
  | call => simpa using h.nextCall
  | refused => exact h.refuse hw _
  | nothing => exact h.hear _ _ _
  | put p => exact h.put hw p
  | take p => exact (h.take p).hear _ _ _
  | promote p => simpa using (h.promote hw p).hear _ _ _
  | settle p => simpa using h.settle hw p
  | close p => simpa using h.close hw p
  | reserve hc hv hk hfree hst => exact h.reserve hw hc hfree hst _
  | register hp r => simpa using h.register hp r
  | finish hp hk ht => exact h.finish hw hp hk _
  | release hp ht => simpa using h.release hw hp _

end Moves

/-! ### The whole run -/

section Runs

variable {w w' : World} {steps : List (List IpcNote)}

theorem Conserves.trans {w'' : World} {e : EndpointRef} {notes notes' : List IpcNote}
    (h : Conserves e w notes w') (h' : Conserves e w' notes' w'') :
    Conserves e w (notes ++ notes') w'' := by
  intro hopen
  obtain ⟨hopen', heq'⟩ := h' hopen
  obtain ⟨hopen'', heq⟩ := h hopen'
  refine ⟨hopen'', ?_⟩
  rw [acceptedAt_append, deliveredAt_append, ← List.append_assoc, heq, List.append_assoc, heq',
    List.append_assoc]

/-- What the moves keep holds of the notes of the code. -/
theorem World.Refines.history {r : List IpcNote × World} {P : List IpcNote → World → Prop}
    (h : w.Refines r) (hw : WorldInv w) (hP : P [] w)
    (hmove : ∀ {told v notes v'}, P told v → WorldInv v → Move v notes v' → P (told ++ notes) v') :
    P r.1 r.2 := by
  obtain ⟨ms, hrun, hnotes⟩ := h
  rw [← hnotes]
  refine (hrun.history (P := fun ms v => WorldInv v ∧ P ms.flatten v) ⟨hw, hP⟩
    fun ms v notes v' hv m => ⟨hv.1.move m, ?_⟩).2
  rw [List.flatten_concat]
  exact hmove hv.2 hv.1 m

/-- What the code does between two states conserves the messages of every endpoint. -/
theorem World.Refines.conserves {r : List IpcNote × World} (h : w.Refines r) (hw : WorldInv w)
    (e : EndpointRef) : Conserves e w r.1 r.2 :=
  h.history hw (.same (.of_eq rfl) rfl rfl) fun hc hv m => hc.trans (m.conserves hv e)

theorem IpcBoot.account (h : IpcBoot w) : Account [] w where
  numbered := by simp
  owned := by simp
  single := by simp
  once _ := .inl rfl
  returned := by simp
  parked := by simp [h.parked]

/-- The sends and what they contributed: every accepted message is that of one send, and a
send that returned contributed its message once or not at all, as it says. -/
structure SendsExact (notes : List IpcNote) : Prop where
  single : ∀ n m m', .made n m ∈ notes → .made n m' ∈ notes → m = m'
  owned : ∀ e call m, .accepted e call m ∈ notes →
    ∃ n message, call = some n ∧ .made n message ∈ notes ∧ acceptedFor n notes = [m] ∧
      m = message.copied
  succeeded : ∀ n, .sent n true ∈ notes →
    ∃ message, .made n message ∈ notes ∧ acceptedFor n notes = [message.copied]
  failed : ∀ n, .sent n false ∈ notes → acceptedFor n notes = []

theorem Account.sendsExact (h : Account notes w) : SendsExact notes where
  single := h.single
  owned e call m hx := by
    obtain ⟨n, rfl⟩ := Option.ne_none_iff_exists'.mp (h.owned e call m hx)
    have hmem := mem_acceptedFor hx
    rcases h.once n with hnone | ⟨message, hmade, hone⟩
    · rw [hnone] at hmem
      cases hmem
    · rw [hone, List.mem_singleton] at hmem
      exact ⟨n, message, rfl, hmade, by rw [hone, hmem], hmem⟩
  succeeded n hx := by simpa using h.returned n true hx
  failed n hx := by
    obtain ⟨m, -, ha⟩ := h.returned n false hx
    simpa using ha

/-- **Exactly once, and in order.** From an endpoint with an empty mailbox, and after any
interleaving of the IPC operations with the rest of the kernel: while the endpoint is open,
what was accepted is what was delivered, followed by the mailbox; sends tell the truth; and
a receive that returns false leaves every mailbox as it was. -/
theorem ipc_exactly_once {e : EndpointRef} (hboot : IpcBoot w)
    (hempty : (w.kernel.endpoints.endpoint e).mailbox = []) (hrun : Run IpcStep w steps w') :
    (¬ (w'.kernel.endpoints.endpoint e).closed →
      acceptedAt e steps.flatten =
        deliveredAt e steps.flatten ++ (w'.kernel.endpoints.endpoint e).mailbox) ∧
    SendsExact steps.flatten ∧
    ∀ (env : IpcEnv) (o : IpcOp) notes w'' n target, o.exec env w' = some (notes, w'') →
      .received n target none ∈ notes → ∀ e', ¬ (w''.kernel.endpoints.endpoint e').closed →
        (w''.kernel.endpoints.endpoint e').mailbox =
          (w'.kernel.endpoints.endpoint e').mailbox := by
  have hw := hboot.inv
  have href := run_refines hw hrun
  refine ⟨fun hopen => ?_, (href.history hw hboot.account .move).sendsExact,
    fun env o notes w'' n target he hmem e' hopen => ?_⟩
  · have heq := (href.conserves hw e hopen).2
    rwa [hempty] at heq
  · have hw' := hw.of_run hrun
    have hstep := ((IpcStep.op env o he).refines hw').conserves hw' e' hopen
    obtain ⟨r, hr, hserves⟩ := o.exec_refines env hw'
    obtain rfl := Option.some.inj (hr.symm.trans he)
    rw [hserves.honest n target hmem] at hstep
    have heq := hstep.2
    cases target <;> simpa [acceptedAt, deliveredAt] using heq.symm

/-- After the parked send: the other thread receives twice, and the sender returns. -/
def exchange : List (IpcOp ⊕ SchedCall) :=
  parkedSend ++
    [.inl (.tryReceive 1 (capabilityHandle 1 0)), .inl (.tryReceive 1 (capabilityHandle 1 0)),
      .inl (.tryReceive 1 (capabilityHandle 1 0)), .inr (.reschedule 0x22000 1),
      .inl (.resume 0x13000)]

theorem ipc_exactly_once_exchange : ∃ steps w, Run IpcStep portWorld steps w ∧
    acceptedAt 5 steps.flatten = [oneWord 7, oneWord 8] ∧
    deliveredAt 5 steps.flatten = [oneWord 7, oneWord 8] ∧
    .sent 1 true ∈ steps.flatten ∧ SendsExact steps.flatten := by
  have hexec : (execSteps portEnv portWorld exchange).isSome := by decide +kernel
  obtain ⟨⟨steps, w⟩, hw⟩ := Option.isSome_iff_exists.mp hexec
  have hfacts : ((execSteps portEnv portWorld exchange).map fun r =>
      (deliveredAt 5 r.1.flatten, decide (.sent 1 true ∈ r.1.flatten),
        (r.2.kernel.endpoints.endpoint 5).closed,
        (r.2.kernel.endpoints.endpoint 5).messageReady)) =
      some ([oneWord 7, oneWord 8], true, false, false) := by decide +kernel
  rw [hw] at hfacts
  simp only [Option.map_some, Option.some.injEq, Prod.mk.injEq, decide_eq_true_eq] at hfacts
  obtain ⟨hdel, hsent, hopen, hready⟩ := hfacts
  have hrun : Run IpcStep portWorld steps w := by
    refine run_of_execSteps (fun c hc => ?_) hw
    obtain rfl : c = .reschedule 0x22000 1 := by simpa [exchange, parkedSend] using hc
    exact (by decide : 1 ≠ 3)
  obtain ⟨hchannel, hsends, -⟩ := ipc_exactly_once (e := 5) portWorld_boot (by decide +kernel) hrun
  refine ⟨steps, w, hrun, ?_, hdel, hsent, hsends⟩
  rw [hchannel (by simp [hopen]), hdel, Endpoint.mailbox, hready]
  rfl

/-! ### Why a blocking send fails -/

namespace IpcState

/-- A blocking send of the running thread `t` at `e` is in order, and nobody else waits to send. -/
structure SendInOrder (k : IpcState) (env : IpcEnv) (process : ProcessRef)
    (handle : CapabilityHandle) (message : IpcMessage) (timeout : Option Nat) (t : ThreadRef)
    (e : EndpointRef) : Prop where
  acceptable : message.Acceptable
  timeout : ¬ env.TimeoutRefused timeout
  target : k.blockingTarget env process handle capabilityRightSend = some (t, e)
  running : k.sched.threadStorageLive t ∧ k.sched.RunningCurrent t
  sender : (k.endpoints.endpoint e).waitingSender = none

/-- What stands in the way of such a send: at an empty mailbox a receiver whose wait is over and
that has not run since; at a full one, where the sender has to wait, a wait of its own or that
there are no more wait ids. -/
def SendObstructed (k : IpcState) (t : ThreadRef) (e : EndpointRef) : Prop :=
  if k.endpoints.EndpointMessageReady e then k.sched.nextWaitId = 0 ∨ k.sched.ThreadWaitActive t
  else ∃ u, (k.endpoints.endpoint e).waitingReceiver = some u ∧
    (k.sched.thread u).waitResult ≠ .pending

end IpcState

variable {env : IpcEnv} {process : ProcessRef} {handle : CapabilityHandle} {timeout : Option Nat}
  {e : EndpointRef} {r : IpcReturn (Progress Bool)} {frame : Nat}

theorem IpcState.CanWait.not_active (h : k.CanWait t) : ¬ k.sched.ThreadWaitActive t := by
  have hclear := h.clear
  simp only [Thread.wait, Wait.clear, Wait.mk.injEq] at hclear
  simp [ThreadState.ThreadWaitActive, hclear]

/-- The running thread begins a wait unless it has one or the ids are used up. -/
theorem begins_of_free (h : k.sched.SchedInv)
    (hrun : k.sched.threadStorageLive t ∧ k.sched.RunningCurrent t)
    (hn : k.sched.nextWaitId ≠ 0) (ha : ¬ k.sched.ThreadWaitActive t) :
    (k.sched.threadWaitBegin t .ipcSend (.endpoint e)).1 = true := by
  obtain ⟨hlive, hcur, hid, hon, hstate, -⟩ := hrun
  rw [h.threadCurrent] at hcur
  simp [ThreadState.threadWaitBegin, h.initialized, hlive, hcur, hid, hn, ha, hstate, hon,
    ThreadWaitKind.Valid]

/-- A linked receiver whose wait is over lets no message in. -/
theorem ipcSendLocked_of_over {u : ThreadRef}
    (hu : (k.endpoints.endpoint e).waitingReceiver = some u)
    (hres : (k.sched.thread u).waitResult ≠ .pending) :
    k.ipcSendLocked e message = some ⟨false, [], k⟩ := by
  simp [ipcSendLocked, hu, hres]

/-- Such a send fails at once exactly when something stands in its way. -/
theorem IpcState.SendInOrder.refused_iff (f : k.SendInOrder env process handle message timeout t e)
    (h : k.IpcInv) (hr : k.ipcSendBlocking env process handle message timeout = some r) :
    r.value = .returned false ↔ k.SendObstructed t e := by
  obtain ⟨hcur, hres, hopen⟩ := blockingTarget_cases f.target
  have hvalid := ipcResolveEndpoint_valid hres
  unfold SendObstructed
  rw [ipcSendBlocking, if_neg (by simp [f.acceptable, f.timeout]), f.target] at hr
  dsimp only at hr
  split_ifs at hr ⊢ with hready hbusy
  · -- nobody is linked on the sender's side, so nothing is left there
    rcases hbusy with hs | hs | hs
    · exact absurd f.sender hs
    · exact absurd (h.unlinked e hvalid .ipcSend (.inr rfl) f.sender) hs
    · obtain ⟨u, hu, -⟩ := (h.coherent e hvalid).staged.mp hs
      cases f.sender.symm.trans hu
  · have hwait : k.Reserves env t e .ipcSend (some message) timeout :=
      ⟨hcur, hvalid, .inr rfl, f.sender, ⟨f.acceptable, hready.2⟩, f.timeout⟩
    rcases hwait.spec h with ⟨hb, heq⟩ | ⟨hcan, ⟨-, heq⟩ | ⟨_, _, _, -, -, heq, -⟩⟩
    all_goals
      rw [heq] at hr
      cases hr
    · refine iff_of_true rfl ?_
      by_contra hfree
      rw [not_or] at hfree
      simpa [hb] using begins_of_free (e := e) h.sched f.running hfree.1 hfree.2
    all_goals exact iff_of_false nofun (not_or.mpr ⟨hcan.nextWaitId, hcan.not_active⟩)
  · by_cases hover : ∃ u, (k.endpoints.endpoint e).waitingReceiver = some u ∧
        (k.sched.thread u).waitResult ≠ .pending
    · obtain ⟨u, hu, hres⟩ := hover
      rw [ipcSendLocked_of_over hu hres] at hr
      cases hr
      exact iff_of_true rfl ⟨u, hu, hres⟩
    · obtain ⟨_, heq, ⟨-, hno⟩ | ⟨_, rfl, -⟩⟩ := ipcSendLocked_spec e message h
      · exact absurd ⟨hvalid, f.acceptable, hopen, hready, by simpa using hover⟩ hno
      · rw [heq] at hr
        cases hr
        exact iff_of_false nofun hover

theorem ipcSendExit_value (hr : k.ipcSendExit t c = some r) :
    r.value = .returned (decide ((k.sched.thread t).waitResult = .completed)) := by
  unfold ipcSendExit at hr
  dsimp only at hr
  split_ifs at hr
  obtain ⟨_, -, rfl⟩ := Option.map_eq_some_iff.mp hr
  rfl

theorem ipcFinish_waitResult {k₁ : IpcState} {kind : ThreadWaitKind} {id : Nat}
    {result : ThreadWaitResult} (h : k.ipcFinish t e kind id result = some k₁) :
    (k₁.sched.thread t).waitResult = result := by
  unfold ipcFinish ThreadState.threadWaitTryComplete at h
  split_ifs at h
  cases h
  simp [Thread.setWaitResult]

/-- A turn of the loop ends in failure: the wait is over and was not completed, or the scheduler
could not park the thread. -/
theorem ipcSendResume_failed_iff (hr : k.ipcSendResume env frame t c = some r) :
    r.value = .returned false ↔
      if (k.sched.thread t).waitResult = .pending then
        ∃ s, k.sched.schedulerWaitCurrent env.spaces frame = some (false, s)
      else (k.sched.thread t).waitResult ≠ .completed := by
  unfold ipcSendResume at hr
  dsimp only at hr
  split_ifs at hr with _ hp
  · rw [ipcSendExit_value hr, if_neg hp]
    simp
  · rw [if_pos (not_not.mp hp)]
    split at hr
    · cases hr
    · rename_i hs
      cases hr
      simp [hs]
    · rename_i hs
      obtain ⟨k₁, hfin, hr⟩ := Option.bind_eq_some_iff.mp hr
      rw [ipcSendExit_value hr, ipcFinish_waitResult hfin]
      simp [hs]

/-- When a blocking send returns false. -/
structure SendsExplained (w : World) : Prop where
  /-- At once: if something stands in its way. -/
  called : ∀ {env process handle message timeout t e},
    w.kernel.SendInOrder env process handle message timeout t e →
    ∃ r, w.kernel.ipcSendBlocking env process handle message timeout = some r ∧
      (r.value = .returned false ↔ w.kernel.SendObstructed t e)
  /-- From its loop: if its timeout elapsed, the endpoint was closed, or the scheduler cannot park
  it. An aborted call does not return. -/
  resumed : ∀ {env frame t n c}, w.kernel.sched.currentThread = some t →
    w.parked t = some (n, c) → c.kind = .ipcSend →
    ∃ r, w.kernel.ipcSendResume env frame t c = some r ∧
      (r.value = .returned false ↔
        c.timed = true ∧ (w.kernel.sched.thread t).waitResult = .timedOut ∨
        (w.kernel.endpoints.endpoint c.endpoint).closed = true ∧
          (w.kernel.sched.thread t).waitResult = .peerClosed ∨
        (w.kernel.sched.thread t).waitResult = .pending ∧
          w.kernel.sched.Unparkable (IpcEnv.spaces env) frame t)

/-- **Why a blocking send fails**, in every reachable state. -/
theorem sends_explained_of_run (hboot : IpcBoot w) (hrun : Run IpcStep w steps w') :
    SendsExplained w' := by
  have hw := hboot.inv
  have hw' := hw.of_run hrun
  refine ⟨fun {env process handle message timeout t e} f => ?_, fun {env frame t n c} hcur hp hk => ?_⟩
  · obtain ⟨r, hr, -⟩ := sendBlocking_refines env process handle message timeout hw'
    exact ⟨r, hr, f.refused_iff hw'.inv hr⟩
  · obtain ⟨r, hr, -⟩ := sendResume_refines hw' hcur hp env frame hk
    refine ⟨r, hr, (ipcSendResume_failed_iff hr).trans ?_⟩
    have hc := hw'.parked t n c hp
    have hwaits := hw'.inv.linked _ hc.valid _ t hc.ipc hc.waiting
    rw [SchedState.schedulerWaitCurrent_false_iff hw'.inv.sched hcur hwaits.threadId]
    obtain ⟨m, hm⟩ := ((run_refines hw hrun).history hw hboot.account .move).parked t n c hp hk
    obtain ⟨htimed, hclosed, hcancelled⟩ := hm.explained
    rcases hwaits.result with h | h | h | h | h
    · simp [h]
    · simp [h]
    · exact absurd h hcancelled
    · simpa [h] using hclosed h
    · simpa [h] using htimed h

/-- The timed send of `parkedSend` is not refused at the full mailbox. -/
theorem sends_explained_parkedSend : ∃ steps w r, Run IpcStep portWorld steps w ∧
    w.kernel.ipcSendBlocking portEnv 1 (capabilityHandle 1 0) (oneWord 8) (some 50) = some r ∧
    r.value ≠ .returned false := by
  have hexec : (execSteps portEnv portWorld (parkedSend.take 1)).isSome := by decide +kernel
  obtain ⟨⟨steps, w⟩, hw⟩ := Option.isSome_iff_exists.mp hexec
  have hfacts : (execSteps portEnv portWorld (parkedSend.take 1)).map (fun r => decide
      (r.2.kernel.endpoints.EndpointMessageReady 5 ∧ r.2.kernel.sched.nextWaitId ≠ 0 ∧
        ¬ r.2.kernel.sched.ThreadWaitActive 1 ∧ r.2.kernel.blockingTarget portEnv 1
          (capabilityHandle 1 0) capabilityRightSend = some (1, 5) ∧
        (r.2.kernel.sched.threadStorageLive 1 ∧ r.2.kernel.sched.RunningCurrent 1) ∧
        (r.2.kernel.endpoints.endpoint 5).waitingSender = none)) = some true := by decide +kernel
  rw [hw, Option.map_some, Option.some.injEq, decide_eq_true_eq] at hfacts
  obtain ⟨hready, hid, hactive, htarget, hlive, hsender⟩ := hfacts
  have hrun : Run IpcStep portWorld steps w := run_of_execSteps (by simp [parkedSend]) hw
  have horder : w.kernel.SendInOrder portEnv 1 (capabilityHandle 1 0) (oneWord 8) (some 50) 1 5 :=
    ⟨by decide, by decide, htarget, hlive, hsender⟩
  obtain ⟨r, hr, hiff⟩ := (sends_explained_of_run portWorld_boot hrun).called horder
  refine ⟨steps, w, r, hrun, hr, fun hv => ?_⟩
  have hno := hiff.mp hv
  simp [IpcState.SendObstructed, hready, hid, hactive] at hno

/-- The timer expires the receive of thread `1`, which is queued behind thread `2`: a send
without a timeout is refused. -/
theorem send_refused_after_expiry :
    ((execSteps portEnv portWorld [.inl (.receiveBlocking 1 (capabilityHandle 1 0) (some 50)),
        .inl (.resume 0x13000), .inl (.timeoutPoll 150)]).map fun r =>
      (r.2.kernel.blockingTarget portEnv 1 (capabilityHandle 1 0) capabilityRightSend,
        (r.2.kernel.endpoints.endpoint 5).waitingSender,
        (r.2.kernel.sched.threadWaitBegin 2 .ipcSend (.endpoint 5)).1,
        ((IpcOp.sendBlocking 1 (capabilityHandle 1 0) (oneWord 7) none).exec portEnv r.2).map
          Prod.fst)) =
      some (some (2, 5), none, true, some [.made 1 (oneWord 7), .sent 1 false]) := by
  decide +kernel

end Runs

end JcosKernel
