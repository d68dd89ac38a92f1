import JcosKernel.Lib.CycleRing
import JcosKernel.Lib.Run

/-!
# JcosKernel.Usb.Rings

**The rings of the xHCI driver** (`kernel/usb_xhci.c`). The driver stores commands and keyboard
reports into two rings whose last entry is a link to the first, and takes events out of a third that
has no link. The controller is modelled by the rules of the specification: it executes an entry whose
cycle bit is its own cycle state, follows a link and toggles, and never overruns the dequeue pointer
it was given.

A lap is 255 entries on the first two rings and 256 on the third. Which entry is due is settled by
`Lib.CycleRing`; what is special here is the link, which the controller may follow at any time after
the last entry of a lap (`Lane.Reaches`).
-/

namespace JcosKernel.Xhci

open Lib Lib.CycleRing Function

/-! ## The driver -/

/-- `XhciTrb`. -/
structure Trb where
  parameter : BitVec 64 := 0
  status : BitVec 32 := 0
  control : BitVec 32 := 0
deriving DecidableEq

/-- `XHCI_MAX_TRBS`. -/
def maxTrbs : Nat := 256

def trbCycle : BitVec 32 := 1
def trbEnt : BitVec 32 := 2
def trbIoc : BitVec 32 := 1 <<< 5
def trbNormal : BitVec 32 := 1
def trbLink : BitVec 32 := 6

/-- `TRB_TYPE`. -/
def trbType (value : BitVec 32) : BitVec 32 := value <<< 10

/-- `TRB_SLOT_ID`. -/
def trbSlotId (value : BitVec 32) : BitVec 32 := value <<< 24

/-- The type field of an entry. -/
def typeOf (control : BitVec 32) : BitVec 32 := (control >>> 10) &&& 0x3F

/-- A ring the driver writes: its page, and the index and cycle state of the driver. -/
structure TrbRing where
  phys : BitVec 64
  trbs : Nat → Trb := fun _ => {}
  index : Nat := 0
  cycle : BitVec 32 := trbCycle

/-- What `ring_command` and `submit_keyboard_report` do before they ring the doorbell. -/
def TrbRing.append (r : TrbRing) (t : Trb) : TrbRing :=
  let trbs := update r.trbs r.index { t with control := t.control ||| r.cycle }
  let index := r.index + 1
  if index = maxTrbs - 1 then
    { r with
      trbs := update trbs index { trbs index with
        parameter := r.phys, control := trbType trbLink ||| trbEnt ||| r.cycle }
      index := 0
      cycle := r.cycle ^^^ trbCycle }
  else { r with trbs, index }

/-- The entry that `ring_command` stores, but for the cycle bit. -/
def commandTrb (parameter : BitVec 64) (control : BitVec 32) : Trb :=
  { parameter, status := 0, control }

/-- The entry that `submit_keyboard_report` stores, but for the cycle bit. -/
def reportTrb (transferBuffer : BitVec 64) : Trb :=
  { parameter := transferBuffer, status := 8, control := trbType trbNormal ||| trbIoc }

/-- `ring_command`. -/
def ringCommand (r : TrbRing) (parameter : BitVec 64) (control : BitVec 32) : TrbRing :=
  r.append (commandTrb parameter control)

/-- `submit_keyboard_report`. -/
def submitKeyboardReport (r : TrbRing) (transferBuffer : BitVec 64) : TrbRing :=
  r.append (reportTrb transferBuffer)

/-- The event ring, with the pointer of the register ERDP. -/
structure EventRing where
  phys : BitVec 64
  trbs : Nat → Trb := fun _ => {}
  index : Nat := 0
  cycle : BitVec 32 := trbCycle
  dequeue : BitVec 64 := phys

/-- `next_event`. -/
def nextEvent (r : EventRing) : Option Trb × EventRing :=
  let current := r.trbs r.index
  if current.control &&& trbCycle ≠ r.cycle then (none, r)
  else
    let wrap := r.index + 1 = maxTrbs
    let index := if wrap then 0 else r.index + 1
    (some current, { r with
      index
      cycle := if wrap then r.cycle ^^^ trbCycle else r.cycle
      dequeue := r.phys + BitVec.ofNat 64 (index * 16) })

/-! ## The controller -/

/-- Where the controller reads a ring, and its cycle state. -/
structure Consumer where
  dequeue : Nat := 0
  cycle : BitVec 32 := trbCycle

/-- The controller looks at the entry it has reached. It executes the entry, follows it if it is a
link, or leaves it alone. -/
def TrbRing.fetch (r : TrbRing) (c : Consumer) : Option Trb × Consumer :=
  let t := r.trbs c.dequeue
  if t.control &&& trbCycle ≠ c.cycle then (none, c)
  else if typeOf t.control = trbLink then
    (none, {
      dequeue := (t.parameter - r.phys).toNat / 16
      cycle := if t.control &&& trbEnt ≠ 0 then c.cycle ^^^ trbCycle else c.cycle })
  else (some t, { c with dequeue := c.dequeue + 1 })

/-- A ring with its consumer, what was stored in it and what was executed. -/
structure Lane where
  ring : TrbRing
  consumer : Consumer := {}
  queued : List Trb := []
  executed : List Trb := []

/-- The driver has stored `t`. -/
def Lane.queue (l : Lane) (t : Trb) (ring : TrbRing) : Lane :=
  { l with ring, queued := l.queued ++ [{ t with control := t.control ||| l.ring.cycle }] }

def Lane.fetch (l : Lane) : Lane :=
  let (t, consumer) := l.ring.fetch l.consumer
  { l with consumer, executed := l.executed ++ t.toList }

/-- The event ring with its producer, what was produced and what was received. -/
structure EventLane where
  ring : EventRing
  enqueue : Nat := 0
  cycle : BitVec 32 := trbCycle
  produced : List Trb := []
  received : List Trb := []

/-- The ring is full when the next entry is the one the dequeue pointer names. -/
def EventLane.Room (l : EventLane) : Prop :=
  l.ring.phys + BitVec.ofNat 64 ((l.enqueue + 1) % maxTrbs * 16) ≠ l.ring.dequeue

instance (l : EventLane) : Decidable l.Room := inferInstanceAs (Decidable (_ ≠ _))

/-- The controller stores an event, with its own cycle state. -/
def EventLane.produce (l : EventLane) (t : Trb) : EventLane :=
  let t := { t with control := (t.control &&& ~~~trbCycle) ||| l.cycle }
  let wrap := l.enqueue + 1 = maxTrbs
  { l with
    ring := { l.ring with trbs := update l.ring.trbs l.enqueue t }
    enqueue := if wrap then 0 else l.enqueue + 1
    cycle := if wrap then l.cycle ^^^ trbCycle else l.cycle
    produced := l.produced ++ [t] }

def EventLane.take (l : EventLane) : EventLane :=
  let (t, ring) := nextEvent l.ring
  { l with ring, received := l.received ++ t.toList }

/-! ## Runs -/

/-- Driver and controller. -/
structure XhciWorld where
  command : Lane
  transfer : Lane
  events : EventLane

/-- The rings as `xhci_init` sets them up: zeroed pages, and a link in the command ring. -/
def xhciInit (commandRing endpointRing eventRing : BitVec 64) : XhciWorld where
  command := { ring := {
    phys := commandRing
    trbs := update (fun _ => {}) (maxTrbs - 1)
      { parameter := commandRing, control := ((6 : BitVec 32) <<< 10) ||| 2 ||| trbCycle } } }
  transfer := { ring := { phys := endpointRing } }
  events := { ring := { phys := eventRing } }

/-- The calls of the driver and the moves of the controller. -/
inductive XhciOp where
  | ringCommand (parameter : BitVec 64) (control : BitVec 32)
  | submitKeyboardReport (transferBuffer : BitVec 64)
  | nextEvent
  | fetchCommand
  | fetchTransfer
  | produce (t : Trb)

/-- A control word that is not a link and leaves the cycle bit to the ring. -/
def Plain (control : BitVec 32) : Prop := control &&& trbCycle = 0 ∧ typeOf control ≠ trbLink

instance (control : BitVec 32) : Decidable (Plain control) := inferInstanceAs (Decidable (_ ∧ _))

/-- The callers wait for a completion before they store the next entry, which is plain
(`plain_command`), and the controller waits until there is room. -/
def XhciOp.Allowed (s : XhciWorld) : XhciOp → Prop
  | .ringCommand _ control => Plain control ∧ s.command.executed.length = s.command.queued.length
  | .submitKeyboardReport _ => s.transfer.executed.length = s.transfer.queued.length
  | .produce _ => s.events.Room
  | _ => True

instance (s : XhciWorld) (o : XhciOp) : Decidable (o.Allowed s) := by
  cases o <;> unfold XhciOp.Allowed <;> infer_instance

def XhciOp.perform (s : XhciWorld) : XhciOp → XhciWorld
  | .ringCommand parameter control => { s with
      command := s.command.queue (commandTrb parameter control)
        (Xhci.ringCommand s.command.ring parameter control) }
  | .submitKeyboardReport buffer => { s with
      transfer := s.transfer.queue (reportTrb buffer)
        (Xhci.submitKeyboardReport s.transfer.ring buffer) }
  | .nextEvent => { s with events := s.events.take }
  | .fetchCommand => { s with command := s.command.fetch }
  | .fetchTransfer => { s with transfer := s.transfer.fetch }
  | .produce t => { s with events := s.events.produce t }

def XhciStep (s : XhciWorld) (o : XhciOp) (s' : XhciWorld) : Prop := o.Allowed s ∧ s' = o.perform s

/-- What `command` passes on is plain, for each of the five commands of the driver. -/
theorem plain_command {type : BitVec 32} (h : type ∈ ([9, 10, 11, 12, 13] : List (BitVec 32)))
    (slot : BitVec 32) : Plain (trbType type ||| trbSlotId slot) := by
  have hcycle : trbSlotId slot &&& trbCycle = 0 := by
    ext i hi
    simp [trbSlotId, trbCycle]
    omega
  have htype : (trbSlotId slot >>> 10) &&& 0x3F = 0 := by
    apply BitVec.eq_of_toNat_eq
    rw [BitVec.toNat_and, BitVec.toNat_ushiftRight, trbSlotId, BitVec.toNat_shiftLeft]
    change _ &&& (2 ^ 6 - 1) = 0
    rw [Nat.and_two_pow_sub_one_eq_mod, Nat.shiftRight_eq_div_pow]
    omega
  have hbits : trbType type &&& trbCycle = 0 ∧ typeOf (trbType type) ≠ trbLink := by
    simp only [List.mem_cons, List.not_mem_nil, or_false] at h
    rcases h with rfl | rfl | rfl | rfl | rfl <;> decide
  refine ⟨?_, ?_⟩
  · rw [BitVec.and_or_distrib_right, hbits.1, hcycle]
    rfl
  · rw [typeOf, BitVec.ushiftRight_or_distrib, BitVec.and_or_distrib_right, htype]
    exact BitVec.or_zero.trans_ne hbits.2

/-! ## Cycle bits -/

/-- The cycle bit of an entry. -/
def Trb.marked (t : Trb) : Bool := t.control.getLsbD 0

/-- A cycle state as the driver keeps it. -/
def cycleWord (b : Bool) : BitVec 32 := if b then trbCycle else 0

theorem and_trbCycle (x : BitVec 32) : x &&& trbCycle = cycleWord (x.getLsbD 0) := by
  change x &&& 1#32 = _
  rw [BitVec.and_one_eq_setWidth_ofBool_getLsbD]
  cases x.getLsbD 0 <;> rfl

theorem cycleWord_inj {a b : Bool} : cycleWord a = cycleWord b ↔ a = b := by
  cases a <;> cases b <;> decide

theorem cycleWord_toggle (b : Bool) : cycleWord b ^^^ trbCycle = cycleWord (!b) := by
  cases b <;> rfl

theorem getLsbD_or_cycleWord {x : BitVec 32} (h : x &&& trbCycle = 0) (b : Bool) :
    (x ||| cycleWord b).getLsbD 0 = b := by
  have hx : x.getLsbD 0 = false := cycleWord_inj.mp ((and_trbCycle x).symm.trans h)
  rw [BitVec.getLsbD_or, hx]
  cases b <;> rfl

theorem typeOf_or_cycleWord (x : BitVec 32) (b : Bool) : typeOf (x ||| cycleWord b) = typeOf x := by
  have hb : cycleWord b >>> 10 = 0#32 := by cases b <;> rfl
  rw [typeOf, BitVec.ushiftRight_or_distrib, hb, BitVec.or_zero, typeOf]

/-! ## The rings the driver writes -/

section

variable {l : Lane} {r : TrbRing}

/-- The last entry links to the first one. -/
def TrbRing.IsLink (r : TrbRing) (b : Bool) : Prop :=
  (r.trbs 255).parameter = r.phys ∧
    (r.trbs 255).control = trbType trbLink ||| trbEnt ||| cycleWord b

/-- The consumer is at position `c`, or at the link that leads there. -/
def Lane.Reaches (l : Lane) (c : Nat) : Prop :=
  l.consumer = ⟨c % 255, cycleWord (lap 255 c)⟩ ∨
    c % 255 = 0 ∧ l.consumer = ⟨255, cycleWord (!lap 255 c)⟩ ∧ l.ring.IsLink (!lap 255 c)

structure Lane.Inv (l : Lane) : Prop where
  holds : Holds 255 Trb.marked l.ring.trbs l.queued
  plain : ∀ t ∈ l.queued, typeOf t.control ≠ trbLink
  index : l.ring.index = l.queued.length % 255
  cycle : l.ring.cycle = cycleWord (lap 255 l.queued.length)
  link : 0 < l.queued.length → l.queued.length % 255 = 0 →
    l.ring.IsLink (!lap 255 l.queued.length)
  order : l.executed.IsPrefix l.queued
  single : l.queued.length ≤ l.executed.length + 1
  reaches : l.Reaches l.executed.length

theorem TrbRing.append_spec {p : Nat} (hi : r.index = p % 255)
    (hc : r.cycle = cycleWord (lap 255 p)) (t : Trb) :
    (r.append t).index = (p + 1) % 255 ∧ (r.append t).cycle = cycleWord (lap 255 (p + 1)) ∧
      (∀ k < 255, (r.append t).trbs k =
        update r.trbs (p % 255) { t with control := t.control ||| r.cycle } k) ∧
      ((p + 1) % 255 = 0 → (r.append t).IsLink (!lap 255 (p + 1))) ∧
      ((p + 1) % 255 ≠ 0 → ∀ b, r.IsLink b → (r.append t).IsLink b) := by
  unfold TrbRing.append
  rcases CycleRing.next (n := 255) (by decide) p with ⟨hwrap, hnext, hlap⟩ | ⟨hlt, hnext, hlap⟩
  · have hidx : r.index + 1 = 255 := by rw [hi]; exact hwrap
    simp only [hidx, maxTrbs, if_true]
    refine ⟨hnext.symm, by rw [hc, cycleWord_toggle, hlap], fun k hk => ?_, fun _ => ⟨?_, ?_⟩,
      fun h => absurd hnext h⟩
    · rw [update_of_ne hk.ne, hi]
    · simp only [update_self]
    · simp only [update_self, hlap, Bool.not_not, hc]
  · have hidx : ¬ r.index + 1 = maxTrbs - 1 := by rw [hi]; exact hlt.ne
    simp only [if_neg hidx]
    refine ⟨by rw [hi, hnext], by rw [hc, hlap], fun k _ => by rw [hi], fun h => ?_, fun _ b hb => ?_⟩
    · rw [hnext] at h
      cases h
    · have hne : (255 : Nat) ≠ r.index := by omega
      simp only [TrbRing.IsLink, update_of_ne hne]
      exact hb

theorem Lane.Inv.queue (h : l.Inv) {t : Trb} (ht : Plain t.control)
    (hdone : l.executed.length = l.queued.length) : (l.queue t (l.ring.append t)).Inv := by
  obtain ⟨hidx, hcyc, htrbs, hlink, hkeep⟩ := TrbRing.append_spec h.index h.cycle t
  have hlen : (l.queue t (l.ring.append t)).queued.length = l.queued.length + 1 :=
    List.length_append
  have hmark : Trb.marked { t with control := t.control ||| l.ring.cycle } =
      lap 255 l.queued.length := by
    rw [h.cycle]
    exact getLsbD_or_cycleWord ht.1 _
  refine ⟨(h.holds.push hmark).congr (by decide) htrbs,
    List.forall_mem_append.mpr ⟨h.plain, List.forall_mem_singleton.mpr ?_⟩, hlen ▸ hidx, hlen ▸ hcyc,
    fun _ h0 => hlen ▸ hlink (hlen ▸ h0), h.order.trans (List.prefix_append _ _), ?_, ?_⟩
  · rw [h.cycle]
    exact (typeOf_or_cycleWord ..).trans_ne ht.2
  · rw [hlen]
    exact Nat.succ_le_succ hdone.ge
  · rcases h.reaches with hat | ⟨h0, hat, hl⟩
    · exact .inl hat
    · refine .inr ⟨h0, hat, hkeep ?_ _ hl⟩
      omega

/-- At its position the controller executes the entry that is due. -/
theorem Lane.Inv.fetch_at (h : l.Inv)
    (hat : l.consumer = ⟨l.executed.length % 255, cycleWord (lap 255 l.executed.length)⟩) :
    l.ring.fetch l.consumer = (l.queued[l.executed.length]?,
      if l.executed.length < l.queued.length then
        ⟨l.executed.length % 255 + 1, cycleWord (lap 255 l.executed.length)⟩
      else l.consumer) := by
  have hread := h.holds.read (by decide) h.order.length_le (by have := h.single; omega)
  rw [hat, TrbRing.fetch]
  simp only [and_trbCycle, cycleWord_inj, ite_not]
  rw [← Trb.marked]
  rcases Nat.lt_or_ge l.executed.length l.queued.length with hlt | hge
  · rw [if_pos hlt, ← hread]
    have hget := List.getElem?_eq_getElem hlt
    rw [hget] at hread
    split at hread
    · next hm =>
      rw [if_pos hm, if_neg, if_pos hm]
      rw [Option.some.inj hread]
      exact h.plain _ (List.getElem_mem hlt)
    · cases hread
  · rw [if_neg (Nat.not_lt.mpr hge), List.getElem?_eq_none hge]
    rw [List.getElem?_eq_none hge] at hread
    split at hread
    · cases hread
    · next hm => rw [if_neg hm]

theorem TrbRing.IsLink.fetch {b : Bool} (h : r.IsLink b) :
    r.fetch ⟨255, cycleWord b⟩ = (none, ⟨0, cycleWord (!b)⟩) := by
  simp only [TrbRing.fetch, h.1, h.2, BitVec.sub_self]
  cases b <;> rfl

theorem Lane.Inv.fetch (h : l.Inv) : l.fetch.Inv := by
  have hkeep : ∀ c, Lane.Reaches { l with consumer := c } l.executed.length →
      Lane.Inv { l with consumer := c, executed := l.executed ++ [] } := by
    intro c hc
    rw [List.append_nil]
    exact { h with reaches := hc }
  rcases h.reaches with hat | ⟨h0, hat, hl⟩
  · rw [Lane.fetch, h.fetch_at hat]
    rcases Nat.lt_or_ge l.executed.length l.queued.length with hlt | hge
    · have hlen : l.queued.length = l.executed.length + 1 := by
        have := h.single
        omega
      obtain ⟨t, hget⟩ : ∃ t, l.queued[l.executed.length]? = some t :=
        ⟨_, List.getElem?_eq_getElem hlt⟩
      simp only [hget, if_pos hlt, Option.toList_some]
      have hlast : (l.executed ++ [t]).length = l.executed.length + 1 := List.length_append
      refine { h with order := prefix_concat h.order hget, single := ?_, reaches := ?_ }
      · rw [hlast, hlen]
        exact Nat.le_succ _
      · rw [hlast]
        rcases CycleRing.next (n := 255) (by decide) l.executed.length with
          ⟨hwrap, hnext, hlap⟩ | ⟨-, hnext, hlap⟩
        · have hlink := h.link (by omega) (hlen ▸ hnext)
          rw [hlen] at hlink
          exact .inr ⟨hnext, by rw [hwrap, hlap, Bool.not_not], hlink⟩
        · exact .inl (by rw [hnext, hlap])
    · rw [List.getElem?_eq_none hge, if_neg (Nat.not_lt.mpr hge)]
      exact hkeep _ (.inl hat)
  · rw [Lane.fetch, hat, hl.fetch, Bool.not_not]
    exact hkeep _ (.inl (by rw [h0]))

/-- What the controller executes: the entries that were queued, in their order; and of a ring left
alone it executes the entry that is due, and nothing when none is. It may have to follow the link
first. -/
structure Lane.Exact (l : Lane) : Prop where
  order : l.executed.IsPrefix l.queued
  next : (l.ring.fetch l.consumer).1.or (l.ring.fetch (l.ring.fetch l.consumer).2).1 =
    l.queued[l.executed.length]?

theorem Lane.Inv.exact (h : l.Inv) : l.Exact := by
  refine ⟨h.order, ?_⟩
  rcases h.reaches with hat | ⟨h0, hat, hl⟩
  · rw [h.fetch_at hat]
    rcases Nat.lt_or_ge l.executed.length l.queued.length with hlt | hge
    · rw [List.getElem?_eq_getElem hlt]
      rfl
    · rw [if_neg (Nat.not_lt.mpr hge), h.fetch_at hat,
        List.getElem?_eq_none hge]
      rfl
  · have hnext := h.fetch
    rw [Lane.fetch, hat, hl.fetch, Bool.not_not] at hnext
    have hat' : (⟨0, cycleWord (lap 255 l.executed.length)⟩ : Consumer) =
        ⟨l.executed.length % 255, cycleWord (lap 255 l.executed.length)⟩ := by rw [h0]
    simp only [Option.toList_none, List.append_nil] at hnext
    rw [hat, hl.fetch, Bool.not_not, hnext.fetch_at hat']
    rfl

end

/-! ## The event ring -/

variable {l : EventLane}

structure EventLane.Inv (l : EventLane) : Prop where
  holds : Holds 256 Trb.marked l.ring.trbs l.produced
  enqueue : l.enqueue = l.produced.length % 256
  cycle : l.cycle = cycleWord (lap 256 l.produced.length)
  index : l.ring.index = l.received.length % 256
  state : l.ring.cycle = cycleWord (lap 256 l.received.length)
  dequeue : l.ring.dequeue = l.ring.phys + BitVec.ofNat 64 (l.received.length % 256 * 16)
  order : l.received.IsPrefix l.produced
  room : l.produced.length < l.received.length + 256

/-- Index and cycle state of the next position. -/
theorem advance (k : Nat) :
    (if k % 256 + 1 = maxTrbs then 0 else k % 256 + 1) = (k + 1) % 256 ∧
      (if k % 256 + 1 = maxTrbs then cycleWord (lap 256 k) ^^^ trbCycle
        else cycleWord (lap 256 k)) = cycleWord (lap 256 (k + 1)) := by
  unfold maxTrbs
  rcases CycleRing.next (n := 256) (by decide) k with ⟨hwrap, hnext, hlap⟩ | ⟨hlt, hnext, hlap⟩
  · rw [if_pos hwrap, if_pos hwrap, cycleWord_toggle, hnext, hlap]
    exact ⟨rfl, rfl⟩
  · rw [if_neg hlt.ne, if_neg hlt.ne, hnext, hlap]
    exact ⟨rfl, rfl⟩

/-- `next_event` returns the event that is due. -/
theorem EventLane.Inv.next (h : l.Inv) :
    (nextEvent l.ring).1 = l.produced[l.received.length]? := by
  rw [← h.holds.read (by decide) h.order.length_le h.room.le, nextEvent]
  simp only [and_trbCycle, h.state, cycleWord_inj, ite_not, h.index]
  rw [← Trb.marked]
  split <;> rfl

theorem EventLane.Inv.take (h : l.Inv) : l.take.Inv := by
  have hnext := h.next
  unfold EventLane.take nextEvent at *
  simp only [h.state, ite_not] at hnext ⊢
  split
  · next hm =>
    rw [if_pos hm] at hnext
    dsimp only [Option.toList_some] at hnext ⊢
    have hlen : (l.received ++ [l.ring.trbs l.ring.index]).length = l.received.length + 1 :=
      List.length_append
    have hroom : l.produced.length < l.received.length + 1 + 256 := h.room.trans (by omega)
    obtain ⟨hidx, hcyc⟩ := advance l.received.length
    rw [← h.index, ← hlen] at hidx
    rw [← h.index, ← hlen] at hcyc
    rw [← hlen] at hroom
    exact
      { h with
        index := hidx
        state := hcyc
        dequeue := by rw [← hidx]
        order := prefix_concat h.order hnext.symm
        room := hroom }
  · simp only [Option.toList_none, List.append_nil]
    exact h

theorem EventLane.Inv.produce (h : l.Inv) (hroom : l.Room) (t : Trb) :
    (l.produce t).Inv := by
  have hlen : (l.produce t).produced.length = l.produced.length + 1 := List.length_append
  have hclear : (t.control &&& ~~~trbCycle) &&& trbCycle = 0 := by
    rw [BitVec.and_assoc]
    exact BitVec.and_zero
  have hmark : Trb.marked { t with control := (t.control &&& ~~~trbCycle) ||| l.cycle } =
      lap 256 l.produced.length := by
    rw [h.cycle]
    exact getLsbD_or_cycleWord hclear _
  have hholds := h.holds.push hmark
  rw [← h.enqueue] at hholds
  -- a ring that is a lap ahead would be at the dequeue pointer
  have hnext : l.produced.length + 1 < l.received.length + 256 := by
    by_contra hge
    refine hroom ?_
    rw [h.dequeue, h.enqueue]
    congr 3
    have := h.room
    simp only [maxTrbs]
    omega
  obtain ⟨hidx, hcyc⟩ := advance l.produced.length
  rw [← h.enqueue, ← hlen] at hidx
  rw [← h.enqueue, ← h.cycle, ← hlen] at hcyc
  exact ⟨hholds, hidx, hcyc, h.index, h.state, h.dequeue, h.order.trans (List.prefix_append _ _),
    by rw [hlen]; exact hnext⟩

/-- What the driver receives: the events that were produced, in their order; and `next_event`
returns the one that is due, and false when none is. -/
structure EventLane.Exact (l : EventLane) : Prop where
  order : l.received.IsPrefix l.produced
  next : (nextEvent l.ring).1 = l.produced[l.received.length]?

/-! ## Whole runs -/

structure XhciWorld.Inv (s : XhciWorld) : Prop where
  command : s.command.Inv
  transfer : s.transfer.Inv
  events : s.events.Inv

theorem XhciWorld.Inv.step {s s' : XhciWorld} {o : XhciOp} (h : s.Inv) (hs : XhciStep s o s') :
    s'.Inv := by
  obtain ⟨ha, rfl⟩ := hs
  cases o with
  | ringCommand parameter control =>
    exact ⟨h.command.queue ha.1 ha.2, h.transfer, h.events⟩
  | submitKeyboardReport buffer =>
    have hplain : Plain (trbType trbNormal ||| trbIoc) := by decide
    exact ⟨h.command, h.transfer.queue hplain ha, h.events⟩
  | nextEvent => exact ⟨h.command, h.transfer, h.events.take⟩
  | fetchCommand => exact ⟨h.command.fetch, h.transfer, h.events⟩
  | fetchTransfer => exact ⟨h.command, h.transfer.fetch, h.events⟩
  | produce t => exact ⟨h.command, h.transfer, h.events.produce ha t⟩

theorem xhciInit_inv (commandRing endpointRing eventRing : BitVec 64) :
    (xhciInit commandRing endpointRing eventRing).Inv := by
  have hstart : cycleWord (lap 255 0) = trbCycle := by decide
  have hblank : Trb.marked {} = false := rfl
  have hlane : ∀ r : TrbRing, (∀ k < 255, r.trbs k = {}) → r.index = 0 → r.cycle = trbCycle →
      Lane.Inv { ring := r } := fun r hr hi hc =>
    ⟨.nil fun k hk => by rw [hr k hk, hblank], nofun, hi, hc.trans hstart.symm, nofun,
      List.prefix_rfl, Nat.zero_le _, .inl (congrArg (Consumer.mk 0) hstart.symm)⟩
  refine ⟨hlane _ (fun k hk => ?_) rfl rfl, hlane _ (fun _ _ => rfl) rfl rfl, ?_⟩
  · have hne : k ≠ maxTrbs - 1 := hk.ne
    simp only [update_of_ne hne]
  · have hevents : trbCycle = cycleWord (lap 256 0) := by decide
    exact ⟨.nil fun _ _ => hblank, rfl, hevents, rfl, hevents, (BitVec.add_zero _).symm,
      List.prefix_rfl, Nat.zero_lt_succ 255⟩

/-- In every run from `xhci_init` on, of any length and interleaving, the controller executes the
queued commands and reports and the driver receives the produced events: in order, each once, and
nothing of an earlier lap. -/
theorem xhci_rings_exact {commandRing endpointRing eventRing : BitVec 64} {s : XhciWorld}
    {os : List XhciOp} (h : Run XhciStep (xhciInit commandRing endpointRing eventRing) os s) :
    s.command.Exact ∧ s.transfer.Exact ∧ s.events.Exact := by
  have hinv := h.invariant (xhciInit_inv commandRing endpointRing eventRing) fun _ _ _ hi hs =>
    hi.step hs
  exact ⟨hinv.command.exact, hinv.transfer.exact, hinv.events.order, hinv.events.next⟩

/-- Commands over more than a lap (the last is fetched behind the link), a report and an event. -/
def lapOps : List XhciOp :=
  (List.replicate 256 [.ringCommand 0 (trbType 9 ||| trbSlotId 0), .fetchCommand]).flatten ++
    [.fetchCommand, .submitKeyboardReport 0x4000, .fetchTransfer, .produce {}, .nextEvent]

def XhciOp.run? (o : XhciOp) (s : XhciWorld) : Option (XhciOp × XhciWorld) :=
  if o.Allowed s then some (o, o.perform s) else none

theorem xhci_rings_exact_lapOps : ∃ os s, Run XhciStep (xhciInit 0x1000 0x2000 0x3000) os s ∧
    (s.command.executed.length, s.transfer.executed.length, s.events.received.length) = (256, 1, 1) ∧
    s.command.Exact ∧ s.transfer.Exact ∧ s.events.Exact := by
  have hlap : (execSome XhciOp.run? lapOps (xhciInit 0x1000 0x2000 0x3000)).map (fun r =>
      (r.2.command.executed.length, r.2.transfer.executed.length, r.2.events.received.length)) =
        some (256, 1, 1) := by
    decide +kernel
  obtain ⟨⟨os, s⟩, hexec, hlen⟩ := Option.map_eq_some_iff.mp hlap
  have hrun : Run XhciStep _ os s := .of_execSome (fun o _ s e s' h => by
    unfold XhciOp.run? at h
    split_ifs at h with hallowed
    cases h
    exact ⟨hallowed, rfl⟩) hexec
  exact ⟨os, s, hrun, hlen, xhci_rings_exact hrun⟩

end JcosKernel.Xhci
