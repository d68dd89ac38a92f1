import JcosKernel.Polaris.Program

/-!
# JcosKernel.Polaris.Gate

**The message-driven gate** (`kernel/polaris_program_gate.c`). Each request carries a tag with a
sequence number, an operation and a field. The gate knows which one comes next, performs it on the
device and checks the value at once; the first request or value that is not the expected one
poisons it for good.

`GateRun` is the gate with the operations it has performed. The client behind the messages is
arbitrary here: `gateRun` feeds any list of messages, and `Disciplined` says what the device can
have seen by then.
-/

namespace JcosKernel.Polaris

open Lib

/-! ## The protocol -/

/-- `POLARIS_REBIND_READ`, `POLARIS_REBIND_WRITE` and `POLARIS_REBIND_WAIT`. -/
inductive RebindOp where
  | read
  | write
  | wait
deriving DecidableEq, Repr

/-- The number of an operation in a tag. -/
def RebindOp.code : RebindOp → Nat
  | .read => 1
  | .write => 2
  | .wait => 3

/-- `POLARIS_REBIND_MESSAGES`. -/
def rebindMessages : Nat := 10 + 6 * programPolls + programPolls - 1

/-- `POLARIS_REBIND_TAG`. -/
def rebindTag (sequence operation field : Nat) : BitVec 64 :=
  (BitVec.ofNat 64 sequence <<< 32) ||| (BitVec.ofNat 64 operation <<< 16) ||| BitVec.ofNat 64 field

/-- `(u32)(tag>>32)`. -/
def tagSequence (tag : BitVec 64) : Nat := ((tag >>> 32).setWidth 32).toNat

/-- `(u32)((tag>>16)&0xFFFFU)`. -/
def tagOperation (tag : BitVec 64) : Nat := ((tag >>> 16) &&& 0xFFFF).toNat

/-- `(u32)(tag&0xFFFFU)`. -/
def tagField (tag : BitVec 64) : Nat := (tag &&& 0xFFFF).toNat

section

variable {s o f : Nat} (hs : s < 2 ^ 32) (ho : o < 2 ^ 16) (hf : f < 2 ^ 16)
include hs ho hf

theorem rebindTag_toNat : (rebindTag s o f).toNat = s * 2 ^ 32 + o * 2 ^ 16 + f := by
  have h1 : s * 2 ^ 32 % 2 ^ 64 = s * 2 ^ 32 := Nat.mod_eq_of_lt (by omega)
  have h2 : o * 2 ^ 16 % 2 ^ 64 = o * 2 ^ 16 := Nat.mod_eq_of_lt (by omega)
  have h3 : s % 2 ^ 64 = s := Nat.mod_eq_of_lt (by omega)
  have h4 : o % 2 ^ 64 = o := Nat.mod_eq_of_lt (by omega)
  have h5 : f % 2 ^ 64 = f := Nat.mod_eq_of_lt (by omega)
  simp only [rebindTag, BitVec.toNat_or, BitVec.toNat_shiftLeft, BitVec.toNat_ofNat,
    Nat.shiftLeft_eq, h1, h2, h3, h4, h5]
  have hlow : o * 2 ^ 16 ||| f = o * 2 ^ 16 + f := by
    rw [← Nat.shiftLeft_eq, Nat.shiftLeft_add_eq_or_of_lt hf]
  rw [Nat.or_assoc, ← Nat.shiftLeft_eq, ← Nat.shiftLeft_add_eq_or_of_lt (by omega)]
  omega

theorem tagSequence_rebindTag : tagSequence (rebindTag s o f) = s := by
  simp only [tagSequence, BitVec.toNat_setWidth, BitVec.toNat_ushiftRight,
    rebindTag_toNat hs ho hf]
  omega

theorem tagOperation_rebindTag : tagOperation (rebindTag s o f) = o := by
  have hmask : (0xFFFF : BitVec 64).toNat = 2 ^ 16 - 1 := rfl
  simp only [tagOperation, BitVec.toNat_and, BitVec.toNat_ushiftRight, hmask,
    Nat.and_two_pow_sub_one_eq_mod, rebindTag_toNat hs ho hf]
  omega

theorem tagField_rebindTag : tagField (rebindTag s o f) = f := by
  have hmask : (0xFFFF : BitVec 64).toNat = 2 ^ 16 - 1 := rfl
  simp only [tagField, BitVec.toNat_and, hmask, Nat.and_two_pow_sub_one_eq_mod,
    rebindTag_toNat hs ho hf]
  omega

end

/-! ## The gate -/

/-- The states of the gate. -/
inductive GateState where
  | before
  | high
  | low
  | posted
  | baseline
  | poll
  | wait
  | done
deriving DecidableEq, Repr

/-- `PolarisProgramGate`. -/
structure ProgramGate where
  result : ProgramResult := {}
  state : GateState := .before
  field : Nat := 0
  sequence : Nat := 0
  flip : BitVec 32 := 0
  update : BitVec 32 := 0
  baseline : BitVec 32 := 0
  initialized : Bool := false
  poisoned : Bool := false
deriving DecidableEq, Repr

/-- `polaris_program_gate_init`: what it returns and the gate it leaves. -/
def polarisProgramGateInit (p : ProgramPlan) : Bool × ProgramGate :=
  if p.consumed then (false, {})
  else if p.accepted then
    (true, { flip := p.witness.values 0 .flipControl, initialized := true })
  else (false, {})

/-- The gate and the operations performed through it. -/
structure GateRun where
  gate : ProgramGate
  ops : List ProgramOp := []
deriving DecidableEq, Repr

/-- `read_valid`. -/
def readValid (f : RebindRead) (v flip : BitVec 32) (polling : Bool) : Bool :=
  if v = absentValue then false
  else
    match f with
    | .low => v = 0
    | .high => v = 0xF4
    | .crtc => v = retainedCrtc
    | .update => v &&& ~~~(updateTaken ||| (if polling then updatePending else 0)) = 0
    | .flip => v = flip
    | .frame => v &&& ~~~crtcFrameCountMask = 0

/-- `goto fail`. -/
def GateRun.fail (w : GateRun) : Option (BitVec 32) × GateRun :=
  (none, { w with gate := { w.gate with poisoned := true } })

/-- The operation and the field the next request must name. -/
def ProgramGate.expected (g : ProgramGate) : RebindOp × Nat :=
  match g.state with
  | .high => (.write, DisplayRegister.primaryHigh.number)
  | .low => (.write, DisplayRegister.primaryLow.number)
  | .wait => (.wait, 0)
  | .posted => (.read, 0)
  | .baseline => (.read, 5)
  | _ => (.read, g.field)

/-- A write that passed the checks. -/
def GateRun.write (io : ProgramIo) (r : DisplayRegister) (v : BitVec 32) (w : GateRun) :
    Option (BitVec 32) × GateRun :=
  let g := { w.gate with
    result := { w.gate.result with writeAttempts := w.gate.result.writeAttempts + 1 } }
  let ops := w.ops ++ [.write r v]
  if io.write w.ops r v then
    (some 0, { gate := { g with state := if g.state = .high then .low else .posted }, ops })
  else GateRun.fail { gate := g, ops }

/-- A wait that passed the checks. -/
def GateRun.wait (io : ProgramIo) (w : GateRun) : Option (BitVec 32) × GateRun :=
  let ops := w.ops ++ [.wait]
  if io.wait w.ops then (some 0, { gate := { w.gate with state := .poll, field := 0 }, ops })
  else GateRun.fail { w with ops }

/-- The sixth value of a poll: `v` is the frame counter. -/
def GateRun.settle (v : BitVec 32) (w : GateRun) : Option (BitVec 32) × GateRun :=
  let g := w.gate
  let delta := (v - g.baseline) &&& crtcFrameCountMask
  if delta > 512 then w.fail
  else if delta ≥ 2 ∧ g.update &&& updatePending = 0 then
    (some v, { w with gate := { g with
      result := { g.result with complete := true, frameDelta := delta }, state := .done } })
  else if programPolls ≤ g.result.polls then w.fail
  else (some v, { w with gate := { g with state := .wait } })

/-- What a valid value does to the gate. -/
def GateRun.advance (f : RebindRead) (v : BitVec 32) (w : GateRun) :
    Option (BitVec 32) × GateRun :=
  let g := w.gate
  match g.state with
  | .before =>
    if g.field + 1 = 6 then (some v, { w with gate := { g with state := .high, field := 0 } })
    else (some v, { w with gate := { g with field := g.field + 1 } })
  | .posted => (some v, { w with gate := { g with state := .baseline } })
  | .baseline => (some v, { w with gate := { g with baseline := v, state := .poll, field := 0 } })
  | .poll =>
    let g := { g with update := if f = .update then v else g.update, field := g.field + 1 }
    if g.field = 6 then GateRun.settle v { w with gate := g }
    else (some v, { w with gate := g })
  | _ => (some v, w)

/-- `++g->result.polls` before the first value of a poll. -/
def ProgramGate.countPoll (g : ProgramGate) (f : RebindRead) : ProgramGate :=
  if g.state = .poll ∧ f = .low then
    { g with result := { g.result with polls := g.result.polls + 1 } }
  else g

/-- The gate after a value came in: the poll and the read are counted. -/
def ProgramGate.countRead (g : ProgramGate) (f : RebindRead) : ProgramGate :=
  { g.countPoll f with result := { (g.countPoll f).result with
      reads := (g.countPoll f).result.reads + 1 } }

/-- A read that passed the checks. -/
def GateRun.read (io : ProgramIo) (f : RebindRead) (w : GateRun) : Option (BitVec 32) × GateRun :=
  let ops := w.ops ++ [.read f]
  match io.read w.ops f with
  | none => GateRun.fail { gate := w.gate.countPoll f, ops }
  | some v =>
    let g := w.gate.countRead f
    if readValid f v g.flip (g.state = .poll) then GateRun.advance f v { gate := g, ops }
    else GateRun.fail { gate := g, ops }

/-- The request that passed the checks is performed. The casts of the field to an enumeration
are look-ups: in every state the expected field is the number of an enumerator. -/
def GateRun.perform (io : ProgramIo) (operation : RebindOp) (field : Nat) (payload : BitVec 64)
    (w : GateRun) : Option (BitVec 32) × GateRun :=
  match operation with
  | .write =>
    match DisplayRegister.all[field]? with
    | some r => GateRun.write io r (payload.setWidth 32) w
    | none => w.fail
  | .wait => GateRun.wait io w
  | .read =>
    match RebindRead.all[field]? with
    | some f => GateRun.read io f w
    | none => w.fail

/-- `polaris_program_gate_step` with a budget of `budget` messages: the value it hands out when it
returns true, and the gate and operations it leaves. -/
def gateStepWithin (budget : Nat) (io : ProgramIo) (tag payload : BitVec 64) (w : GateRun) :
    Option (BitVec 32) × GateRun :=
  let g := w.gate
  if !g.initialized || g.poisoned || g.result.complete then (none, w)
  else if budget ≤ g.sequence ∨ tagSequence tag ≠ g.sequence + 1 ∨ payload > 0xFFFFFFFF then w.fail
  else if (g.state = .high ∧ payload ≠ 0xF4) ∨ (g.state = .low ∧ payload ≠ 0) then w.fail
  else if g.state = .done ∨ tagOperation tag ≠ g.expected.1.code ∨ tagField tag ≠ g.expected.2 ∨
      (g.expected.1 ≠ .write ∧ payload ≠ 0) ∨ io.admitted w.ops = false then w.fail
  else
    -- the number is used up before the device is asked
    GateRun.perform io g.expected.1 g.expected.2 payload
      { w with gate := { g with sequence := g.sequence + 1 } }

/-- `polaris_program_gate_step`. -/
def polarisProgramGateStep (io : ProgramIo) (tag payload : BitVec 64) (w : GateRun) :
    Option (BitVec 32) × GateRun :=
  gateStepWithin rebindMessages io tag payload w

/-- The gate answers a list of messages, each a tag and a payload. -/
def gateRun (io : ProgramIo) (w : GateRun) (ms : List (BitVec 64 × BitVec 64)) : GateRun :=
  ms.foldl (fun w m => (polarisProgramGateStep io m.1 m.2 w).2) w

/-! ## What a step can be -/

/-- The gate still takes requests. -/
structure ProgramGate.Live (g : ProgramGate) : Prop where
  initialized : g.initialized = true
  unpoisoned : g.poisoned = false
  running : g.result.complete = false

/-- A request the gate takes: its number, its operation and its field are the expected ones. -/
structure GateRun.Takes (w : GateRun) (budget : Nat) (io : ProgramIo) (tag payload : BitVec 64) :
    Prop where
  live : w.gate.Live
  budget : w.gate.sequence < budget
  sequence : tagSequence tag = w.gate.sequence + 1
  word : ¬ payload > 0xFFFFFFFF
  high : w.gate.state = .high → payload = 0xF4
  low : w.gate.state = .low → payload = 0
  state : w.gate.state ≠ .done
  operation : tagOperation tag = w.gate.expected.1.code
  field : tagField tag = w.gate.expected.2
  empty : w.gate.expected.1 ≠ .write → payload = 0
  admitted : io.admitted w.ops = true

/-- The gate with the next sequence number used up. -/
def GateRun.tick (w : GateRun) : GateRun :=
  { w with gate := { w.gate with sequence := w.gate.sequence + 1 } }

variable {budget : Nat} {io : ProgramIo} {tag payload : BitVec 64} {w : GateRun}

theorem ProgramGate.live_iff {g : ProgramGate} :
    g.Live ↔ ¬ (!g.initialized || g.poisoned || g.result.complete) = true := by
  constructor
  · intro h
    simp [h.initialized, h.unpoisoned, h.running]
  · intro h
    simp only [Bool.or_eq_true, Bool.not_eq_true', not_or, Bool.not_eq_false,
      Bool.not_eq_true] at h
    exact ⟨h.1.1, h.1.2, h.2⟩

/-- A step leaves a dead gate as it is, poisons a live one without asking the device, or performs
the request. -/
theorem gateStepWithin_cases (budget : Nat) (io : ProgramIo) (tag payload : BitVec 64)
    (w : GateRun) :
    (¬ w.gate.Live ∧ gateStepWithin budget io tag payload w = (none, w)) ∨
    (w.gate.Live ∧ gateStepWithin budget io tag payload w = w.fail) ∨
    (w.Takes budget io tag payload ∧ gateStepWithin budget io tag payload w =
      GateRun.perform io w.gate.expected.1 w.gate.expected.2 payload w.tick) := by
  unfold gateStepWithin
  by_cases hlive : w.gate.Live
  · right
    rw [if_neg (ProgramGate.live_iff.mp hlive)]
    split_ifs with h1 h2 h3
    · exact .inl ⟨hlive, rfl⟩
    · exact .inl ⟨hlive, rfl⟩
    · exact .inl ⟨hlive, rfl⟩
    · simp only [not_or, not_and, not_not, not_le, Bool.not_eq_false] at h1 h2 h3
      exact .inr ⟨⟨hlive, h1.1, h1.2.1, h1.2.2, h2.1, h2.2, h3.1, h3.2.1, h3.2.2.1, h3.2.2.2.1,
        h3.2.2.2.2⟩, rfl⟩
  · left
    refine ⟨hlive, ?_⟩
    rw [ProgramGate.live_iff, not_not] at hlive
    rw [if_pos hlive]

theorem gateStepWithin_takes (h : w.Takes budget io tag payload) :
    gateStepWithin budget io tag payload w =
      GateRun.perform io w.gate.expected.1 w.gate.expected.2 payload w.tick := by
  unfold gateStepWithin
  rw [if_neg (ProgramGate.live_iff.mp h.live), if_neg, if_neg, if_neg]
  · rfl
  · simp only [not_or, not_and, not_not, Bool.not_eq_false]
    exact ⟨h.state, h.operation, h.field, h.empty, h.admitted⟩
  · simp only [not_or, not_and, not_not]
    exact ⟨h.high, h.low⟩
  · simp only [not_or, not_not, not_le]
    exact ⟨h.budget, h.sequence, h.word⟩

theorem gateStepWithin_dead (h : ¬ w.gate.Live) :
    gateStepWithin budget io tag payload w = (none, w) := by
  rcases gateStepWithin_cases budget io tag payload w with ⟨-, he⟩ | ⟨hl, -⟩ | ⟨ht, -⟩
  · exact he
  · exact absurd hl h
  · exact absurd ht.live h

namespace ProgramGate

variable (g : ProgramGate) (f : RebindRead)

@[simp] theorem countRead_state : (g.countRead f).state = g.state := by
  unfold countRead countPoll
  split <;> rfl

@[simp] theorem countRead_flip : (g.countRead f).flip = g.flip := by
  unfold countRead countPoll
  split <;> rfl

@[simp] theorem countPoll_complete : (g.countPoll f).result.complete = g.result.complete := by
  unfold countPoll
  split <;> rfl

@[simp] theorem countRead_complete : (g.countRead f).result.complete = g.result.complete :=
  g.countPoll_complete f

theorem countRead_field : (g.countRead f).field = g.field := by
  unfold countRead countPoll
  split <;> rfl

theorem countRead_sequence : (g.countRead f).sequence = g.sequence := by
  unfold countRead countPoll
  split <;> rfl

end ProgramGate

variable {f : RebindRead} {a v : BitVec 32} {w w' : GateRun}

namespace GateRun

theorem read_refused (h : io.read w.ops f = none) :
    read io f w = fail { gate := w.gate.countPoll f, ops := w.ops ++ [.read f] } := by
  simp only [read, h]

theorem read_invalid (h : io.read w.ops f = some v)
    (hv : readValid f v w.gate.flip (w.gate.state = .poll) = false) :
    read io f w = fail { gate := w.gate.countRead f, ops := w.ops ++ [.read f] } := by
  simp [read, h, hv]

theorem read_valid (h : io.read w.ops f = some v)
    (hv : readValid f v w.gate.flip (w.gate.state = .poll) = true) :
    read io f w =
      advance f v { gate := w.gate.countRead f, ops := w.ops ++ [.read f] } := by
  simp [read, h, hv]

theorem settle_value (h : settle v w = (some a, w')) : a = v := by
  unfold settle at h
  dsimp only at h
  split at h
  · cases h
  · split at h
    · cases h
      rfl
    · split at h
      · cases h
      · cases h
        rfl

/-- The value handed out is the one that was read. -/
theorem advance_value (h : advance f v w = (some a, w')) : a = v := by
  unfold advance at h
  dsimp only at h
  split at h
  · split at h <;> cases h <;> rfl
  · cases h
    rfl
  · cases h
    rfl
  · split at h
    · exact settle_value h
    · cases h
      rfl
  · cases h
    rfl

theorem wait_taken (h : io.wait w.ops = true) : wait io w =
    (some 0, { gate := { w.gate with state := .poll, field := 0 }, ops := w.ops ++ [.wait] }) := by
  simp [wait, h]

theorem wait_refused (h : io.wait w.ops = false) :
    wait io w = fail { w with ops := w.ops ++ [.wait] } := by
  simp [wait, h]

end GateRun

end JcosKernel.Polaris
