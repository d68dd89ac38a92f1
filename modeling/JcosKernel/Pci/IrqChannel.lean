import JcosKernel.Pci.Irq
import JcosKernel.Ipc.Steps
import JcosKernel.Lib.Run
import Mathlib.Data.List.Range

/-!
# JcosKernel.Pci.IrqChannel

The event protocol of an interrupt, seen from outside: the record of the resource and the messages
in its event endpoint. `IrqMove` says what an operation can do to the two and when, and nothing
about how the code finds out; `Pci.IrqProtocol` shows that the operations make these moves.

Results: the numbers of the events are handed out one after another, a send that fails uses up its
number (`ChannelInv.numbers`); an event is outstanding exactly while its number is `pending`
(`ChannelInv.active`), so that two never are; a storm is left by `recover_storm` or by disarming
and arming again only (`IrqMove.run_quiet`).
-/

namespace JcosKernel

open Lib

inductive IrqEvent
  | armed (ok : Bool)
  /-- By `pci_irq_resource_disarm` or `pci_irq_resource_force_disarm`. -/
  | disarmed (ok : Bool)
  /-- A signal that arrives in the state `during`: the sequence number it uses up, and what it puts
  into the endpoint. -/
  | signalled (during : PciIrqState) (taken : Option Nat) (accepted : List Accepted)
  | acknowledged (sequence : Nat) (ok : Bool)
  | recovered (ok : Bool)
  /-- Something else happens, which is told these notes. -/
  | ipc (notes : List IpcNote)

namespace IrqEvent

def taken : IrqEvent → Option Nat
  | signalled _ n _ => n
  | _ => none

/-- The sequence number that is carried by the event put into the endpoint. -/
def sent : IrqEvent → Option Nat
  | signalled _ _ [x] => some (x.message.words 2)
  | _ => none

/-- A signal that arrives while PENDING or STORMED. -/
def suppressed : IrqEvent → Bool
  | signalled during _ _ => during = .pending ∨ during = .stormed
  | _ => false

/-- An operation that returns false. -/
def Refused (e : IrqEvent) : Prop :=
  e = armed false ∨ e = disarmed false ∨ (∃ n, e = acknowledged n false) ∨ e = recovered false

/-- Event `n` is not outstanding any more. -/
def Closes (e : IrqEvent) (n : Nat) : Prop := e = acknowledged n true ∨ e = disarmed true

end IrqEvent

/-- Event `n` was sent, and has neither been acknowledged nor discarded by disarming since. -/
def IrqOutstanding (es : List IrqEvent) (n : Nat) : Prop :=
  Active (fun e n => e.sent = some n) IrqEvent.Closes es n

/-- The record of an interrupt and the messages in its event endpoint. -/
structure IrqChannel where
  irq : PciIrqResource
  mail : List IpcMessage

/-- What the operations do. -/
inductive IrqMove (c : IrqChannel) : IrqEvent → IrqChannel → Prop
  | refused {e : IrqEvent} (h : e.Refused) : IrqMove c e c
  | arm (h : c.irq.state = .disarmed) : IrqMove c (.armed true)
      { c with irq := { c.irq with
        assignmentAccessHeld := true, deliveryMasked := false, suppressedSinceAck := 0,
        state := .armed } }
  | disarm (h : c.irq.state ≠ .disarmed) : IrqMove c (.disarmed true)
      ⟨{ c.irq with
        pendingSequence := 0, suppressedSinceAck := 0, deliveryMasked := true, state := .disarmed,
        assignmentAccessHeld := false }, []⟩
  | still (h : c.irq.state = .disarmed) : IrqMove c (.disarmed true) c
  /-- Nobody listens, or there is no sequence number left. -/
  | unheard (h : c.irq.state = .disarmed ∨ c.irq.state = .armed) :
      IrqMove c (.signalled c.irq.state none []) c
  | suppress (h : c.irq.state = .pending ∨ c.irq.state = .stormed) :
      IrqMove c (.signalled c.irq.state none []) { c with irq := c.irq.suppress }
  | deliver {x : Accepted} (h : c.irq.state = .armed)
      (hn : c.irq.nextSequence ≠ 0) (hx : x.message.words 2 = c.irq.nextSequence)
      (hempty : c.mail = []) :
      IrqMove c (.signalled .armed (some c.irq.nextSequence) [x])
        ⟨{ c.irq with
          nextSequence := succ64 c.irq.nextSequence, pendingSequence := c.irq.nextSequence,
          deliveryMasked := true, state := .pending,
          deliveredCount := increment64 c.irq.deliveredCount }, [x.message]⟩
  | fail (h : c.irq.state = .armed) (hn : c.irq.nextSequence ≠ 0) :
      IrqMove c (.signalled .armed (some c.irq.nextSequence) [])
        { c with irq := { c.irq with
          nextSequence := succ64 c.irq.nextSequence, pendingSequence := 0, deliveryMasked := true,
          state := .stormed } }
  | acknowledge (h : c.irq.state = .pending) (hn : c.irq.pendingSequence ≠ 0)
      (hempty : c.mail = []) :
      IrqMove c (.acknowledged c.irq.pendingSequence true)
        { c with irq := { c.irq with
          pendingSequence := 0, acknowledgedCount := increment64 c.irq.acknowledgedCount,
          state := .armed, deliveryMasked := false, suppressedSinceAck := 0 } }
  | settle (h : c.irq.state = .stormed) (hn : c.irq.pendingSequence ≠ 0)
      (hempty : c.mail = []) :
      IrqMove c (.acknowledged c.irq.pendingSequence true)
        { c with irq := { c.irq with
          pendingSequence := 0, acknowledgedCount := increment64 c.irq.acknowledgedCount } }
  | recover (h : c.irq.state = .stormed) (hn : c.irq.pendingSequence = 0)
      (hempty : c.mail = []) :
      IrqMove c (.recovered true)
        { c with irq := { c.irq with
          suppressedSinceAck := 0, deliveryMasked := false, state := .armed,
          recoveryCount := increment64 c.irq.recoveryCount } }
  /-- The event is received, or the endpoint closed. -/
  | ipc {notes : List IpcNote} {mail : List IpcMessage}
      (h : mail = c.mail ∨ mail = []) : IrqMove c (.ipc notes) { c with mail := mail }

/-- What holds of the channel and of all that has happened so far. -/
structure ChannelInv (es : List IrqEvent) (c : IrqChannel) : Prop where
  ok : c.irq.StateOk
  mail : ∀ m ∈ c.mail, c.irq.pendingSequence ≠ 0 ∧ m.words 2 = c.irq.pendingSequence
  numbers : es.filterMap IrqEvent.taken = List.range' 1 (es.filterMap IrqEvent.taken).length
  next : (es.filterMap IrqEvent.taken).length < 2 ^ 64 ∧
    c.irq.nextSequence = ((es.filterMap IrqEvent.taken).length + 1) % 2 ^ 64
  active : ∀ n, IrqOutstanding es n ↔ n ≠ 0 ∧ c.irq.pendingSequence = n
  carried : ∀ e ∈ es, ∀ n, e.sent = some n → e.taken = some n
  acknowledged : ∀ n, .acknowledged n true ∈ es →
    n ≠ c.irq.pendingSequence ∧ n ∈ es.filterMap IrqEvent.taken
  suppressed : c.irq.suppressedCount = min (2 ^ 64 - 1) (es.countP IrqEvent.suppressed)
  storm : pciIrqStormThreshold ≤ c.irq.suppressedSinceAck → c.irq.state = .stormed

/-- Nothing has happened since the resource was created. -/
structure IrqChannel.Fresh (c : IrqChannel) : Prop where
  ok : c.irq.StateOk
  state : c.irq.state = .disarmed
  next : c.irq.nextSequence = 1
  suppressed : c.irq.suppressedCount = 0
  since : c.irq.suppressedSinceAck = 0
  mail : c.mail = []

variable {es : List IrqEvent} {c c' : IrqChannel} {e : IrqEvent}

theorem IrqChannel.Fresh.inv (h : c.Fresh) : ChannelInv [] c where
  ok := h.ok
  mail := by
    rw [h.mail]
    exact nofun
  numbers := rfl
  next := ⟨by decide, h.next⟩
  active n := by
    have hpending : c.irq.pendingSequence = 0 := by
      have hok := h.ok
      rw [PciIrqResource.StateOk, h.state] at hok
      exact hok.2.2
    rw [hpending]
    exact ⟨fun ha => absurd ha not_active_nil, fun hn => absurd hn.2.symm hn.1⟩
  carried := nofun
  acknowledged := nofun
  suppressed := h.suppressed
  storm hs := by
    rw [h.since] at hs
    exact absurd hs (by decide)

/-! ### One step -/

theorem PciIrqResource.StateOk.held {x : PciIrqResource} (h : x.StateOk) (hs : x.state ≠ .disarmed) :
    x.assignmentAccessHeld := by
  rw [PciIrqResource.StateOk] at h
  split at h
  · exact h.elim
  · exact absurd ‹_› hs
  all_goals exact h.1

theorem PciIrqResource.StateOk.pending_eq_zero {x : PciIrqResource} (h : x.StateOk)
    (hs : x.state = .disarmed ∨ x.state = .armed) : x.pendingSequence = 0 := by
  obtain hs | hs := hs <;> rw [PciIrqResource.StateOk, hs] at h <;> exact h.2.2

theorem PciIrqResource.suppress_state (x : PciIrqResource) :
    x.suppress.state = .stormed ∨ x.suppress.state = x.state := by
  rw [PciIrqResource.suppress]
  split_ifs <;> simp

theorem PciIrqResource.StateOk.suppress {x : PciIrqResource} (h : x.StateOk)
    (hs : x.state = .pending ∨ x.state = .stormed) : x.suppress.StateOk := by
  have held := h.held (by obtain hs | hs := hs <;> rw [hs] <;> decide)
  obtain hs' | hs' := x.suppress_state
  · rw [PciIrqResource.StateOk, hs']
    exact ⟨held, rfl⟩
  · obtain hs | hs := hs
    · rw [PciIrqResource.StateOk, hs] at h
      rw [PciIrqResource.StateOk, hs', hs]
      exact ⟨held, rfl, h.2.2⟩
    · rw [PciIrqResource.StateOk, hs', hs]
      exact ⟨held, rfl⟩

theorem IrqMove.ok (m : IrqMove c e c') (h : c.irq.StateOk) : c'.irq.StateOk := by
  cases m with
  | refused | still | unheard | ipc => exact h
  | arm hs => exact ⟨rfl, Bool.false_ne_true, h.pending_eq_zero (.inl hs)⟩
  | disarm => exact ⟨Bool.false_ne_true, rfl, rfl⟩
  | suppress hs => exact h.suppress hs
  | deliver hs hn => exact ⟨h.held (by rw [hs]; decide), rfl, hn⟩
  | fail hs => exact ⟨h.held (by rw [hs]; decide), rfl⟩
  | acknowledge hs => exact ⟨h.held (by rw [hs]; decide), Bool.false_ne_true, rfl⟩
  | settle hs =>
    rw [PciIrqResource.StateOk, hs] at h ⊢
    exact h
  | recover hs hn => exact ⟨h.held (by rw [hs]; decide), Bool.false_ne_true, hn⟩

theorem IrqMove.storm (m : IrqMove c e c')
    (h : pciIrqStormThreshold ≤ c.irq.suppressedSinceAck → c.irq.state = .stormed) :
    pciIrqStormThreshold ≤ c'.irq.suppressedSinceAck → c'.irq.state = .stormed := by
  have hzero : ¬ pciIrqStormThreshold ≤ 0 := by decide
  cases m with
  | refused | still | unheard | settle | ipc => exact h
  | arm | disarm | acknowledge | recover => exact fun h0 => absurd h0 hzero
  | suppress => exact fun hlarge => if_pos hlarge
  | deliver hs =>
    intro hlarge
    cases hs.symm.trans (h hlarge)
  | fail => exact fun _ => rfl

/-! ### The history -/

theorem irqOutstanding_snoc {n : Nat} :
    IrqOutstanding (es ++ [e]) n ↔ e.sent = some n ∨ IrqOutstanding es n ∧ ¬ e.Closes n :=
  active_snoc

/-- The numbers that were used up, when the step uses up none. -/
theorem taken_snoc_none (ht : e.taken = none) :
    (es ++ [e]).filterMap IrqEvent.taken = es.filterMap IrqEvent.taken := by
  rw [List.filterMap_append, List.filterMap_cons, ht, List.filterMap_nil, List.append_nil]

theorem taken_snoc_some {n : Nat} (ht : e.taken = some n) :
    (es ++ [e]).filterMap IrqEvent.taken = es.filterMap IrqEvent.taken ++ [n] := by
  rw [List.filterMap_append, List.filterMap_cons, ht, List.filterMap_nil]

namespace ChannelInv

theorem carried_snoc (h : ChannelInv es c) (he : ∀ n, e.sent = some n → e.taken = some n) :
    ∀ d ∈ es ++ [e], ∀ n, d.sent = some n → d.taken = some n := by
  intro d hd
  obtain hd | hd := List.mem_append.mp hd
  · exact h.carried d hd
  · rw [List.mem_singleton.mp hd]
    exact he

/-- An event that is no signal. -/
structure Silent (e : IrqEvent) : Prop where
  taken : e.taken = none
  sent : e.sent = none
  suppressed : e.suppressed = false

section

variable (h : ChannelInv es c)
include h

/-- The step uses up no number and sends nothing. -/
theorem untaken (m : IrqMove c e c')
    (ht : e.taken = none) (hsent : e.sent = none)
    (hn : c'.irq.nextSequence = c.irq.nextSequence)
    (hs : c'.irq.suppressedCount =
      if e.suppressed then increment64 c.irq.suppressedCount else c.irq.suppressedCount)
    (hm : ∀ m ∈ c'.mail, m ∈ c.mail ∧ c'.irq.pendingSequence = c.irq.pendingSequence)
    (hp : ∀ n, n ≠ 0 ∧ c'.irq.pendingSequence = n ↔
      (n ≠ 0 ∧ c.irq.pendingSequence = n) ∧ ¬ e.Closes n)
    (hack : ∀ n, e = .acknowledged n true → n ≠ 0 ∧ c.irq.pendingSequence = n) :
    ChannelInv (es ++ [e]) c' where
  ok := m.ok h.ok
  mail x hx := by
    obtain ⟨hold, heq⟩ := hm x hx
    rw [heq]
    exact h.mail x hold
  numbers := by
    rw [taken_snoc_none ht]
    exact h.numbers
  next := by
    rw [taken_snoc_none ht, hn]
    exact h.next
  active n := by
    rw [irqOutstanding_snoc, hsent, h.active n, hp n]
    simp
  carried := h.carried_snoc fun n hn => nomatch hsent.symm.trans hn
  acknowledged n hmem := by
    rw [taken_snoc_none ht]
    obtain hmem | hmem := List.mem_append.mp hmem
    · obtain ⟨hne, hold⟩ := h.acknowledged n hmem
      refine ⟨fun heq => hne ?_, hold⟩
      rw [h.numbers, List.mem_range'_1] at hold
      exact ((hp n).mp ⟨by omega, heq.symm⟩).1.2.symm
    · obtain rfl := List.mem_singleton.mp hmem
      have hpn := hack n rfl
      refine ⟨fun heq => ((hp n).mp ⟨hpn.1, heq.symm⟩).2 (.inl rfl), ?_⟩
      -- the number acknowledged now was sent before, and what is sent was taken
      obtain ⟨es1, d, es2, rfl, hd, -⟩ := (h.active n).mpr hpn
      have hdmem : d ∈ es1 ++ d :: es2 := List.mem_append_right _ List.mem_cons_self
      exact List.mem_filterMap.mpr ⟨d, hdmem, h.carried d hdmem n hd⟩
  suppressed := by
    rw [hs, h.suppressed, List.countP_append, List.countP_singleton, increment64]
    split_ifs <;> omega
  storm := m.storm h.storm

/-- The step leaves the numbers alone, and no message comes. -/
theorem keep (m : IrqMove c e c')
    (hp : c'.irq.pendingSequence = c.irq.pendingSequence)
    (hn : c'.irq.nextSequence = c.irq.nextSequence)
    (hs : c'.irq.suppressedCount = c.irq.suppressedCount) (hm : ∀ m ∈ c'.mail, m ∈ c.mail)
    (he : Silent e) (hc : ∀ n, ¬ e.Closes n) : ChannelInv (es ++ [e]) c' :=
  h.untaken m he.taken he.sent hn (by rw [he.suppressed]; exact hs)
    (fun x hx => ⟨hm x hx, hp⟩) (fun n => by simp [hp, hc n]) fun n hn => absurd (.inl hn) (hc n)

/-- The step ends the event that is outstanding, if there is one. -/
theorem settled (m : IrqMove c e c')
    (hp : c'.irq.pendingSequence = 0) (hn : c'.irq.nextSequence = c.irq.nextSequence)
    (hs : c'.irq.suppressedCount = c.irq.suppressedCount) (hm : c'.mail = []) (he : Silent e)
    (hc : c.irq.pendingSequence ≠ 0 → e.Closes c.irq.pendingSequence)
    (hack : ∀ n, e = .acknowledged n true → n ≠ 0 ∧ c.irq.pendingSequence = n) :
    ChannelInv (es ++ [e]) c' := by
  refine h.untaken m he.taken he.sent hn (by rw [he.suppressed]; exact hs)
    (by rw [hm]; exact nofun) (fun n => ?_) hack
  rw [hp]
  constructor
  · exact fun ha => absurd ha.2.symm ha.1
  · rintro ⟨⟨hn0, rfl⟩, hopen⟩
    exact absurd (hc hn0) hopen

/-- A signal is only counted. -/
theorem suppress (hs : c.irq.state = .pending ∨ c.irq.state = .stormed) :
    ChannelInv (es ++ [.signalled c.irq.state none []]) { c with irq := c.irq.suppress } := by
  have hcount : IrqEvent.suppressed (.signalled c.irq.state none []) = true := decide_eq_true hs
  exact h.untaken (.suppress hs) rfl rfl rfl (by rw [hcount]; rfl)
    (fun x hx => ⟨hx, rfl⟩) (fun n => by simp [IrqEvent.Closes, PciIrqResource.suppress]) nofun

/-- The next number is the one behind those that were used up. -/
theorem next_eq (hn : c.irq.nextSequence ≠ 0) :
    c.irq.nextSequence = (es.filterMap IrqEvent.taken).length + 1 ∧
      (es.filterMap IrqEvent.taken).length + 1 < 2 ^ 64 := by
  obtain ⟨hlt, heq⟩ := h.next
  have hlt' : (es.filterMap IrqEvent.taken).length + 1 < 2 ^ 64 := by omega
  rw [Nat.mod_eq_of_lt hlt'] at heq
  exact ⟨heq, hlt'⟩

/-- A signal takes the next number. -/
theorem take (hstate : c.irq.state = .armed) (hn : c.irq.nextSequence ≠ 0)
    (ht : e.taken = some c.irq.nextSequence) (hsup : e.suppressed = false) (hc : ∀ n, ¬ e.Closes n)
    (m : IrqMove c e c') (hnext : c'.irq.nextSequence = succ64 c.irq.nextSequence)
    (hs : c'.irq.suppressedCount = c.irq.suppressedCount)
    (hm : ∀ m ∈ c'.mail, c'.irq.pendingSequence ≠ 0 ∧ m.words 2 = c'.irq.pendingSequence)
    (hsent : ∀ n, e.sent = some n ↔ n ≠ 0 ∧ c'.irq.pendingSequence = n)
    (hp : c'.irq.pendingSequence = 0 ∨ c'.irq.pendingSequence = c.irq.nextSequence) :
    ChannelInv (es ++ [e]) c' := by
  obtain ⟨heq, hlt⟩ := h.next_eq hn
  -- an armed interrupt has nothing outstanding
  have hpending : c.irq.pendingSequence = 0 := h.ok.pending_eq_zero (.inr hstate)
  have hlen : (es.filterMap IrqEvent.taken ++ [c.irq.nextSequence]).length =
      (es.filterMap IrqEvent.taken).length + 1 := List.length_append
  refine
    { ok := m.ok h.ok
      mail := hm
      numbers := ?_
      next := ?_
      active := fun n => ?_
      carried := h.carried_snoc fun n hn => ?_
      acknowledged := fun n hmem => ?_
      suppressed := by
        rw [hs, h.suppressed, List.countP_append, List.countP_singleton, hsup]
        rfl
      storm := m.storm h.storm }
  · rw [taken_snoc_some ht, hlen, List.range'_concat, ← h.numbers, heq, Nat.one_mul, Nat.add_comm]
  · rw [taken_snoc_some ht, hlen, hnext, heq]
    exact ⟨hlt, rfl⟩
  · rw [irqOutstanding_snoc, h.active n, hpending]
    constructor
    · intro ha
      obtain ha | ⟨⟨hn0, hpn⟩, -⟩ := ha
      · exact (hsent n).mp ha
      · exact absurd hpn.symm hn0
    · exact fun ha => .inl ((hsent n).mpr ha)
  · obtain ⟨hn0, hpn⟩ := (hsent n).mp hn
    obtain hp | hp := hp
    · exact absurd (hpn.symm.trans hp) hn0
    · rw [ht, ← hp, hpn]
  · obtain hmem | hmem := List.mem_append.mp hmem
    · have hold := (h.acknowledged n hmem).2
      rw [taken_snoc_some ht]
      refine ⟨?_, List.mem_append_left _ hold⟩
      rw [h.numbers, List.mem_range'_1] at hold
      omega
    · exact absurd (.inl (List.mem_singleton.mp hmem).symm) (hc n)

/-- A message in the endpoint is pending. -/
theorem mail_eq_nil (hp : c.irq.pendingSequence = 0) : c.mail = [] :=
  List.eq_nil_iff_forall_not_mem.mpr fun m hm => (h.mail m hm).1 hp

theorem move (m : IrqMove c e c') : ChannelInv (es ++ [e]) c' := by
  have hm := m
  cases m with
  | refused he =>
    refine h.keep hm rfl rfl rfl (fun _ => id) ?_ ?_
    · obtain rfl | rfl | ⟨n, rfl⟩ | rfl := he <;> exact ⟨rfl, rfl, rfl⟩
    · obtain rfl | rfl | ⟨n, rfl⟩ | rfl := he <;> simp [IrqEvent.Closes]
  | arm | recover =>
    exact h.keep hm rfl rfl rfl (fun _ => id) ⟨rfl, rfl, rfl⟩ (by simp [IrqEvent.Closes])
  | disarm hs =>
    exact h.settled hm rfl rfl rfl rfl ⟨rfl, rfl, rfl⟩ (fun _ => .inr rfl) nofun
  | still hs =>
    have hp := h.ok.pending_eq_zero (.inl hs)
    exact h.settled hm hp rfl rfl (h.mail_eq_nil hp) ⟨rfl, rfl, rfl⟩ (fun _ => .inr rfl) nofun
  | unheard hs =>
    refine h.keep hm rfl rfl rfl (fun _ => id) ⟨rfl, rfl, ?_⟩ (by simp [IrqEvent.Closes])
    obtain hs | hs := hs <;> rw [hs] <;> rfl
  | suppress hs => exact h.suppress hs
  | deliver hs hn hx hempty =>
    refine h.take hs hn rfl rfl (by simp [IrqEvent.Closes]) hm rfl rfl ?_ ?_ (.inr rfl)
    · intro m hm
      rw [List.mem_singleton.mp hm]
      exact ⟨hn, hx⟩
    · intro n
      rw [IrqEvent.sent, hx, Option.some.injEq]
      exact ⟨fun h => ⟨h ▸ hn, h⟩, And.right⟩
  | fail hs hn =>
    refine h.take hs hn rfl rfl (by simp [IrqEvent.Closes]) hm rfl rfl ?_ ?_ (.inl rfl)
    · rw [h.mail_eq_nil (h.ok.pending_eq_zero (.inr hs))]
      exact nofun
    · exact fun n => ⟨nofun, fun hn => absurd hn.2.symm hn.1⟩
  | acknowledge hs hn hempty | settle hs hn hempty =>
    refine h.settled hm rfl rfl rfl hempty ⟨rfl, rfl, rfl⟩ (fun _ => .inl rfl) fun n he => ?_
    obtain ⟨rfl, -⟩ := IrqEvent.acknowledged.inj he
    exact ⟨hn, rfl⟩
  | ipc hmail =>
    refine h.keep hm rfl rfl rfl (fun m hm => ?_) ⟨rfl, rfl, rfl⟩ (by simp [IrqEvent.Closes])
    obtain rfl | rfl := hmail
    · exact hm
    · cases hm

end

end ChannelInv

/-! ### Storms -/

/-- After `k` signals in a row that were not delivered. -/
structure Suppressing (k : Nat) (c : IrqChannel) : Prop where
  storm : pciIrqStormThreshold ≤ c.irq.suppressedSinceAck → c.irq.state = .stormed
  since : k = 0 ∨ (c.irq.state = .pending ∨ c.irq.state = .stormed) ∧
    min k pciIrqStormThreshold ≤ c.irq.suppressedSinceAck

theorem Suppressing.move {k : Nat} (h : Suppressing k c) (m : IrqMove c e c')
    (hack : ∀ n, e ≠ .acknowledged n true) (hrec : e ≠ .recovered true)
    (hdis : e ≠ .disarmed true) :
    Suppressing (k + if e.suppressed then 1 else 0) c' := by
  have hstorm := m.storm h.storm
  -- a channel that is not PENDING or STORMED has suppressed nothing
  have hzero : ∀ {st : PciIrqState}, c.irq.state = st → st ≠ .pending → st ≠ .stormed → k = 0 := by
    intro st hst hp hs
    obtain hk | ⟨hc, -⟩ := h.since
    · exact hk
    · rw [hst] at hc
      exact (hc.elim hp hs).elim
  cases m with
  | refused he =>
    refine ⟨hstorm, ?_⟩
    obtain rfl | rfl | ⟨n, rfl⟩ | rfl := he <;> exact h.since
  | arm hs | deliver hs | fail hs => exact ⟨hstorm, .inl (hzero hs nofun nofun)⟩
  | disarm | still => exact absurd rfl hdis
  | unheard hs =>
    refine ⟨hstorm, .inl ?_⟩
    obtain hs | hs := hs <;> rw [hs, hzero hs nofun nofun] <;> rfl
  | suppress hs =>
    have hcount : IrqEvent.suppressed (.signalled c.irq.state none []) = true := decide_eq_true hs
    rw [hcount]
    have hge : min (k + 1) pciIrqStormThreshold ≤ c.irq.suppress.suppressedSinceAck := by
      have hold : min k pciIrqStormThreshold ≤ c.irq.suppressedSinceAck := by
        obtain rfl | ⟨-, hold⟩ := h.since
        · exact Nat.zero_le _
        · exact hold
      simp only [PciIrqResource.suppress, pciIrqStormThreshold] at hold ⊢
      split_ifs <;> omega
    refine ⟨hstorm, .inr ⟨?_, hge⟩⟩
    obtain hstate | hstate := c.irq.suppress_state
    · exact .inr hstate
    · exact hs.imp hstate.trans hstate.trans
  | acknowledge | settle => exact absurd rfl (hack _)
  | recover => exact absurd rfl hrec
  | ipc => exact ⟨hstorm, h.since⟩

theorem IrqMove.stormed (m : IrqMove c e c') (h : c.irq.state = .stormed) (hrec : e ≠ .recovered true)
    (hdis : e ≠ .disarmed true) : c'.irq.state = .stormed ∧ e.sent = none := by
  cases m with
  | refused he => obtain rfl | rfl | ⟨n, rfl⟩ | rfl := he <;> exact ⟨h, rfl⟩
  | arm hs | deliver hs | acknowledge hs => cases hs.symm.trans h
  | disarm | still => exact absurd rfl hdis
  | unheard | ipc => exact ⟨h, rfl⟩
  | suppress => exact ⟨by simp only [PciIrqResource.suppress, h, ite_self], rfl⟩
  | fail => exact ⟨rfl, rfl⟩
  | settle hs => exact ⟨hs, rfl⟩
  | recover => exact absurd rfl hrec

theorem IrqMove.disarmed_state (m : IrqMove c (.disarmed true) c') :
    c'.irq.state = .disarmed ∧ IrqEvent.sent (.disarmed true) = none := by
  refine ⟨?_, rfl⟩
  cases m with
  | refused he => simp [IrqEvent.Refused] at he
  | disarm => rfl
  | still h => exact h

/-- Nothing is sent by an interrupt that is DISARMED and is not armed. -/
theorem IrqMove.disarmed (m : IrqMove c e c') (h : c.irq.state = .disarmed) (harm : e ≠ .armed true) :
    c'.irq.state = .disarmed ∧ e.sent = none := by
  cases m with
  | refused he => obtain rfl | rfl | ⟨n, rfl⟩ | rfl := he <;> exact ⟨h, rfl⟩
  | arm => exact absurd rfl harm
  | disarm => exact ⟨rfl, rfl⟩
  | still | unheard | ipc => exact ⟨h, rfl⟩
  | suppress hs => obtain hs | hs := hs <;> cases hs.symm.trans h
  | deliver hs | fail hs | acknowledge hs | settle hs | recover hs => cases hs.symm.trans h

/-- A storm lasts until `recover_storm`, or until the interrupt is disarmed and armed again. -/
theorem IrqMove.run_quiet (h : Run IrqMove c es c') (hs : c.irq.state = .stormed)
    (hrec : .recovered true ∉ es) (harm : ¬ [.disarmed true, .armed true].Sublist es) :
    (c'.irq.state = .stormed ∨ c'.irq.state = .disarmed ∧ .disarmed true ∈ es) ∧
      ∀ e ∈ es, e.sent = none := by
  induction h with
  | nil => exact ⟨.inl hs, nofun⟩
  | @snoc mid c' es e _ hm ih =>
    obtain ⟨hstate, hnone⟩ := ih (fun hr => hrec (List.mem_append_left _ hr))
      fun ha => harm (ha.trans (List.sublist_append_left _ _))
    have hrec' : e ≠ .recovered true := fun he =>
      hrec (List.mem_append_right _ (List.mem_singleton.mpr he.symm))
    have hlast : e.sent = none → ∀ d ∈ es ++ [e], d.sent = none := by
      intro hsent d hd
      obtain hd | hd := List.mem_append.mp hd
      · exact hnone d hd
      · rw [List.mem_singleton.mp hd]
        exact hsent
    obtain hstate | ⟨hstate, hmem⟩ := hstate
    · by_cases hdis : e = .disarmed true
      · subst hdis
        obtain ⟨hstate', hsent⟩ := hm.disarmed_state
        exact ⟨.inr ⟨hstate', List.mem_append_right _ (List.mem_singleton_self _)⟩, hlast hsent⟩
      · obtain ⟨hstate', hsent⟩ := hm.stormed hstate hrec' hdis
        exact ⟨.inl hstate', hlast hsent⟩
    · have harm' : e ≠ .armed true := by
        intro he
        subst he
        exact harm ((List.singleton_sublist.mpr hmem).append (.refl _))
      obtain ⟨hstate', hsent⟩ := hm.disarmed hstate harm'
      exact ⟨.inr ⟨hstate', List.mem_append_left _ hmem⟩, hlast hsent⟩

/-- `PCI_IRQ_STORM_THRESHOLD` signals without an acknowledgement make a storm. -/
theorem Suppressing.run (h : Run IrqMove c es c')
    (hstorm : pciIrqStormThreshold ≤ c.irq.suppressedSinceAck → c.irq.state = .stormed)
    (hes : ∀ e ∈ es, (∀ n, e ≠ .acknowledged n true) ∧ e ≠ .recovered true ∧ e ≠ .disarmed true) :
    Suppressing (es.countP IrqEvent.suppressed) c' := by
  induction h with
  | nil => exact ⟨hstorm, .inl rfl⟩
  | @snoc mid c' es e _ hm ih =>
    obtain ⟨hack, hrec, hdis⟩ := hes e (List.mem_append_right _ (List.mem_singleton_self e))
    have hmid := ih fun d hd => hes d (List.mem_append_left _ hd)
    rw [List.countP_append, List.countP_singleton]
    exact hmid.move hm hack hrec hdis

theorem Suppressing.stormed {k : Nat} (h : Suppressing k c) (hk : pciIrqStormThreshold ≤ k) :
    c.irq.state = .stormed := by
  obtain rfl | ⟨-, hsince⟩ := h.since
  · exact absurd hk (by decide)
  · rw [min_eq_right hk] at hsince
    exact h.storm hsince

end JcosKernel
