import JcosKernel.Polaris.Control
import JcosKernel.Polaris.GateRuns

/-!
# JcosKernel.Polaris.Stores

**Where a store to the device can come from.** Only a write that the gate takes and the register
window allows reaches the device. This module follows the two counters that bound the stores:

* the state of the gate says how many of the two writes were made (`GateState.written`), for any
  driver and a device that may change with every message (`gateStep_spec`);
* the window numbers the writes since it was enabled or armed, and `Ledger` says which stores were
  made by then. A store extends it (`Ledger.stored`), and a conversation that completes has made
  both writes (`brokerLoop_ledger`).
-/

namespace JcosKernel.Polaris

open Lib Lib.Attempt

/-! ## The gate -/

/-- How many of the two writes were made when the gate is in a state. -/
def GateState.written : GateState → Nat
  | .before => 0
  | .high => 0
  | .low => 1
  | _ => 2

namespace GateRun

/-- A step that performed no write: the gate has written as much as before, unless it is
poisoned. -/
structure Quiet (w w' : GateRun) : Prop where
  ops : w'.ops = w.ops ∨ ∃ op, w'.ops = w.ops ++ [op] ∧ ∀ r v, op ≠ .write r v
  written : w'.gate.poisoned = false → w.gate.poisoned = false ∧
    w'.gate.state.written = w.gate.state.written
  done : w'.gate.result.complete = true → w'.gate.state = .done

/-- A step that performed a write. -/
structure Wrote (w w' : GateRun) (r : DisplayRegister) (v : BitVec 32) (made : Bool) : Prop where
  ops : w'.ops = w.ops ++ [.write r v]
  written : w'.gate.poisoned = false → w.gate.poisoned = false ∧ made = true ∧
    w'.gate.state.written = w.gate.state.written + 1
  done : w'.gate.result.complete = false

variable {w : GateRun}

theorem fail_quiet (hd : w.gate.result.complete = true → w.gate.state = .done) : w.Quiet w.fail.2 :=
  ⟨.inl rfl, nofun, hd⟩

section

variable (io : ProgramIo) (f : RebindRead) (v : BitVec 32)
variable (hl : w.gate.poisoned = false) (hc : w.gate.result.complete = false)

include hc

theorem not_complete {p : Prop} (h : w.gate.result.complete = true) : p :=
  nomatch hc.symm.trans h

/-- After the sixth value of a poll both writes were made, or the gate is poisoned. -/
theorem settle_quiet :
    ((settle v w).2.gate.poisoned = false → (settle v w).2.gate.state.written = 2) ∧
    ((settle v w).2.gate.result.complete = true → (settle v w).2.gate.state = .done) ∧
    (settle v w).2.ops = w.ops := by
  unfold settle
  dsimp only
  split_ifs
  · exact ⟨nofun, not_complete hc, rfl⟩
  · exact ⟨fun _ => rfl, fun _ => rfl, rfl⟩
  · exact ⟨nofun, not_complete hc, rfl⟩
  · exact ⟨fun _ => rfl, not_complete hc, rfl⟩

/-- A valid value moves the gate on without a write. -/
theorem advance_quiet :
    ((advance f v w).2.gate.poisoned = false →
      (advance f v w).2.gate.state.written = w.gate.state.written) ∧
    ((advance f v w).2.gate.result.complete = true → (advance f v w).2.gate.state = .done) ∧
    (advance f v w).2.ops = w.ops := by
  unfold advance
  cases hst : w.gate.state with simp only [hst]
  | before => split <;> exact ⟨fun _ => rfl, not_complete hc, rfl⟩
  | poll =>
    split
    · exact settle_quiet v hc
    · exact ⟨fun _ => rfl, not_complete hc, rfl⟩
  | _ => simp [hc, GateState.written]

include hl

theorem read_quiet : w.Quiet (read io f w).2 := by
  have hop : ∀ r v, ProgramOp.read f ≠ .write r v := fun _ _ => nofun
  unfold read
  dsimp only
  split
  · exact ⟨.inr ⟨_, rfl, hop⟩, nofun, not_complete ((w.gate.countPoll_complete f).trans hc)⟩
  · split
    · obtain ⟨h1, h2, h3⟩ := advance_quiet
        (w := { gate := w.gate.countRead f, ops := w.ops ++ [.read f] }) f _ (by simp [hc])
      exact ⟨.inr ⟨_, h3, hop⟩, fun h => ⟨hl, (h1 h).trans (by simp)⟩, h2⟩
    · exact ⟨.inr ⟨_, rfl, hop⟩, nofun, not_complete ((w.gate.countRead_complete f).trans hc)⟩

theorem wait_quiet (hst : w.gate.state = .wait) : w.Quiet (wait io w).2 := by
  have hop : ∀ r v, ProgramOp.wait ≠ .write r v := fun _ _ => nofun
  unfold wait
  split
  · exact ⟨.inr ⟨_, rfl, hop⟩, fun _ => ⟨hl, by rw [hst]; rfl⟩, not_complete hc⟩
  · exact ⟨.inr ⟨_, rfl, hop⟩, nofun, not_complete hc⟩

theorem write_wrote (r : DisplayRegister) (hst : w.gate.state = .high ∨ w.gate.state = .low) :
    w.Wrote (write io r v w).2 r v (io.write w.ops r v) := by
  unfold write
  split
  · next hm =>
    refine ⟨rfl, fun _ => ⟨hl, hm, ?_⟩, hc⟩
    rcases hst with h | h <;> simp [h, GateState.written]
  · exact ⟨rfl, nofun, hc⟩

end

end GateRun

variable {w : GateRun}

/-- Any message is answered without a write, or it was one of the two writes. -/
theorem gateStep_spec (io : ProgramIo) (tag payload : BitVec 64)
    (hd : w.gate.result.complete = true → w.gate.state = .done) :
    w.Quiet (polarisProgramGateStep io tag payload w).2 ∨
    ∃ r v, w.Wrote (polarisProgramGateStep io tag payload w).2 r v (io.write w.ops r v) := by
  unfold polarisProgramGateStep
  rcases gateStepWithin_cases rebindMessages io tag payload w with ⟨-, he⟩ | ⟨-, he⟩ | ⟨ht, he⟩
  · rw [he]
    exact .inl ⟨.inl rfl, fun h => ⟨h, rfl⟩, hd⟩
  · rw [he]
    exact .inl (w.fail_quiet hd)
  · rw [he]
    have hl : w.tick.gate.poisoned = false := ht.live.unpoisoned
    have hc : w.tick.gate.result.complete = false := ht.live.running
    have hread : ∀ n, w.Quiet (GateRun.perform io .read n payload w.tick).2 := by
      intro n
      simp only [GateRun.perform]
      split
      · exact { GateRun.read_quiet io _ hl hc with }
      · exact ⟨.inl rfl, (by simp [GateRun.fail]), hd⟩
    cases hst : w.gate.state with simp only [ProgramGate.expected, hst]
    | high =>
      exact .inr ⟨_, _, { GateRun.write_wrote io (payload.setWidth 32) hl hc .primaryHigh
        (.inl hst) with }⟩
    | low =>
      exact .inr ⟨_, _, { GateRun.write_wrote io (payload.setWidth 32) hl hc .primaryLow
        (.inr hst) with }⟩
    | wait => exact .inl { GateRun.wait_quiet io hl hc hst with }
    | _ => exact .inl (hread _)

/-! ## The ledger of the stores -/

/-- The part of the controller that decides about stores, with the record of them. -/
structure Device where
  attempted : Bool
  stage : NativeStage
  lane : RebindLane
  stores : List Store
  completed : Nat

/-- The device part of a state. -/
def NativeState.device (s : NativeState) : Device where
  attempted := s.attempted
  stage := s.stage
  lane := s.lane
  stores := s.stores
  completed := s.completed

instance : Bookkeeping NativeState.device where
  clock _ _ := rfl
  cap _ _ := rfl
  hold _ _ := rfl
  mutated _ _ := rfl
  challenge _ _ := rfl
  writer _ _ := rfl
  output _ _ := rfl
  heartbeat _ _ _ := rfl
  frequency _ _ _ := rfl

/-- The register and the value of a store. -/
def Store.key (x : Store) : DisplayRegister × BitVec 32 := (x.register, x.value)

/-- What every store needs: the firmware scanout is retired, the kernel has the lease, nobody
writes to the framebuffer and there is exactly one hold. -/
structure Store.Guarded (x : Store) : Prop where
  retired : x.view.scanoutRetired = true
  lease : x.view.lease = .kernel
  idle : x.view.writersIdle = true
  hold : x.view.activeHolds = 1

/-- A store of the first program. -/
structure Store.First (x : Store) : Prop extends x.Guarded where
  assigned : x.view.assignment = .assigned

/-- A store of the rescue program: recovery was armed, the assignment is quarantined, and a
program had completed. -/
structure Store.Second (x : Store) : Prop extends x.Guarded where
  quarantined : x.view.assignment = .quarantined
  armed : x.armed = true
  completed : 1 ≤ x.completed

/-- The stores so far: those of the first program, then those of the rescue program. -/
structure Stores (d : Device) (first second : List Store) : Prop where
  split : d.stores = first ++ second
  firsts : ∀ x ∈ first, x.First
  seconds : ∀ x ∈ second, x.Second
  firstKeys : first.map Store.key <+: programWrites
  secondKeys : second.map Store.key <+: programWrites
  ordered : second ≠ [] → first.map Store.key = programWrites

/-- The stores and the lane: the number of the next write says which stores were made since the
lane was enabled or armed. -/
structure LaneAt (d : Device) (first second : List Store) : Prop where
  enabled : d.lane.enabled = true → d.lane.armed = false →
    second = [] ∧ first.map Store.key = programWrites.take d.lane.next
  armed : d.lane.enabled = true → d.lane.armed = true →
    first.map Store.key = programWrites ∧ second.map Store.key = programWrites.take d.lane.next ∧
      1 ≤ d.completed

/-- The ledger of a state. -/
def Ledger (d : Device) : Prop := ∃ first second, Stores d first second ∧ LaneAt d first second

theorem programWrites_take_succ {n : Nat} (h : n < 2) :
    programWrites.take (n + 1) = programWrites.take n ++
      [(if n ≠ 0 then DisplayRegister.primaryLow else .primaryHigh, if n ≠ 0 then 0 else 0xF4)] := by
  match n, h with
  | 0, _ => rfl
  | 1, _ => rfl

variable {env : NativeEnv}

variable {s : NativeState} {r : DisplayRegister} {v : BitVec 32} {w : GateRun} {d₀ : Device}
  {armed : Bool}

/-- What the window checks makes the store one of the first or of the rescue program. -/
theorem RebindAllows.guarded (h : RebindAllows env s r v) (x : Store)
    (hx : x.view = env.view s.clock) : x.Guarded := by
  obtain ⟨-, hu, -, -, hlease, -⟩ := h
  refine ⟨?_, ?_, ?_, ?_⟩ <;> rw [hx]
  · exact hu.2.2.2.1
  · exact hlease
  · exact hu.2.2.2.2.1
  · exact hu.2.1

/-- A store that the window allows extends the ledger. -/
theorem Ledger.stored (h : Ledger s.device) (ha : RebindAllows env s r v) :
    Ledger (s.stored env r v).device := by
  obtain ⟨first, second, hs, hl⟩ := h
  obtain ⟨-, hu, hen, hnext, -, hr, hv, harm, -⟩ := id ha
  let x : Store :=
    { register := r, value := v, view := env.view s.clock, armed := s.lane.armed
      completed := s.completed }
  have hx : programWrites.take (s.lane.next + 1) =
      programWrites.take s.lane.next ++ [x.key] := by
    rw [programWrites_take_succ hnext, ← hr, ← hv]
    rfl
  have hg : x.Guarded := ha.guarded x rfl
  cases hb : s.lane.armed with
  | false =>
    obtain ⟨rfl, hf⟩ := hl.enabled hen hb
    have hassigned : (env.view s.clock).assignment = .assigned := by
      rcases hu.2.2.2.2.2.2 with h | ⟨h, -⟩
      · exact h
      · exact absurd (harm.mpr h) (by simp [hb])
    have hf' : (first ++ [x]).map Store.key = programWrites.take (s.lane.next + 1) := by
      rw [List.map_append, hf, hx]
      rfl
    refine ⟨first ++ [x], [], ⟨?_, ?_, fun _ => (absurd · List.not_mem_nil), ?_, List.nil_prefix,
      (absurd rfl ·)⟩, fun _ _ => ⟨rfl, hf'⟩, fun _ h => absurd (hb.symm.trans h) nofun⟩
    · have hsplit : s.stores = first ++ [] := hs.split
      change s.stores ++ [x] = first ++ [x] ++ []
      rw [hsplit, List.append_nil, List.append_nil]
    · exact List.forall_mem_append.mpr ⟨hs.firsts,
        List.forall_mem_singleton.mpr { hg with assigned := hassigned }⟩
    · rw [hf']
      exact List.take_prefix _ _
  | true =>
    -- a store of the rescue program
    obtain ⟨hf, hsec, hcomp⟩ := hl.armed hen hb
    have hsec' : (second ++ [x]).map Store.key = programWrites.take (s.lane.next + 1) := by
      rw [List.map_append, hsec, hx]
      rfl
    refine ⟨first, second ++ [x], ⟨?_, hs.firsts, ?_, hs.firstKeys, ?_, fun _ => hf⟩,
      fun _ h => absurd (hb.symm.trans h) nofun, fun _ _ => ⟨hf, hsec', hcomp⟩⟩
    · have hsplit : s.stores = first ++ second := hs.split
      change s.stores ++ [x] = first ++ (second ++ [x])
      rw [hsplit, List.append_assoc]
    · exact List.forall_mem_append.mpr ⟨hs.seconds, List.forall_mem_singleton.mpr
        { hg with quarantined := harm.mp hb, armed := hb, completed := hcomp }⟩
    · rw [hsec']
      exact List.take_prefix _ _

/-! ## A conversation -/

/-- During a conversation: the ledger holds, the lane is enabled, and the gate has written what
the lane has numbered. -/
structure Conversing (armed : Bool) (d₀ : Device) (w : GateRun) (s : NativeState) : Prop where
  ledger : Ledger s.device
  enabled : s.lane.enabled = true
  armed : s.lane.armed = armed
  follows : w.gate.poisoned = false → s.lane.next = w.gate.state.written
  done : w.gate.result.complete = true → w.gate.state = .done
  rest : s.device = { d₀ with lane := s.lane, stores := s.stores }

/-- One request: no store, or one store that the window allowed. -/
theorem gateRequest_conversing (env : NativeEnv) (h : Conversing armed d₀ w s)
    (tag payload : BitVec 64) :
    Conversing armed d₀ (gateRequest env tag payload w s).2.1
      (gateRequest env tag payload w s).2.2 := by
  let io := s.programIo env
  rcases gateStep_spec io tag payload h.done with hq | ⟨r, v, hw⟩
  · -- nothing was written, so nothing was stored
    have hstate : (gateRequest env tag payload w s).2.2 = s.later := by
      simp only [gateRequest]
      rcases hq.ops with hops | ⟨op, hops, hop⟩
      · rw [hops, List.drop_length]
      · rw [hops, List.drop_left]
        cases op with
        | write r v => exact absurd rfl (hop r v)
        | read f => rfl
        | wait => rfl
    rw [hstate]
    refine ⟨h.ledger, h.enabled, h.armed, fun hp => ?_, hq.done, h.rest⟩
    obtain ⟨h1, h2⟩ := hq.written hp
    exact (h.follows h1).trans h2.symm
  · have hstate : (gateRequest env tag payload w s).2.2 =
        (if io.write w.ops r v then s.stored env r v else s).later := by
      simp only [gateRequest]
      rw [hw.ops, List.drop_left]
    rw [hstate]
    split
    · next hm =>
      have hallow : RebindAllows env s r v := of_decide_eq_true (Bool.and_eq_true _ _ ▸ hm).2
      refine ⟨h.ledger.stored hallow, h.enabled, h.armed, fun hp => ?_,
        GateRun.not_complete hw.done, ?_⟩
      · obtain ⟨h1, -, h2⟩ := hw.written hp
        change s.lane.next + 1 = _
        rw [h.follows h1]
        exact h2.symm
      · have hrest := h.rest
        simp only [NativeState.device, NativeState.later, Device.mk.injEq] at hrest ⊢
        exact ⟨hrest.1, hrest.2.1, trivial, trivial, hrest.2.2.2.2⟩
    · next hm =>
      exact ⟨h.ledger, h.enabled, h.armed, fun hp => absurd (hw.written hp).2.1 hm,
        GateRun.not_complete hw.done, h.rest⟩

/-- The device part after a conversation: the ledger holds, and if the driver completed then both
writes were made. -/
theorem brokerLoop_ledger (env : NativeEnv) (n : Nat) (h : Conversing armed d₀ w s) :
    Ledger (brokerLoop env n w s).2.device ∧ (brokerLoop env n w s).2.lane.enabled = true ∧
    (brokerLoop env n w s).2.lane.armed = armed ∧
    (brokerLoop env n w s).2.device = { d₀ with
      lane := (brokerLoop env n w s).2.lane, stores := (brokerLoop env n w s).2.stores } ∧
    ((brokerLoop env n w s).1 = true → (brokerLoop env n w s).2.lane.next = 2) := by
  induction n generalizing w s with
  | zero => exact ⟨h.ledger, h.enabled, h.armed, h.rest, (absurd · Bool.false_ne_true)⟩
  | succ n ih =>
    unfold brokerLoop
    split
    · refine ⟨h.ledger, h.enabled, h.armed, h.rest, fun hc => ?_⟩
      simp only [Bool.and_eq_true, Bool.not_eq_true'] at hc
      change s.lane.next = 2
      rw [h.follows hc.1.1.1.2, h.done hc.1.1.1.1]
      rfl
    · next tag payload _ =>
      have hg := gateRequest_conversing env h tag payload
      split
      · next he =>
        rw [he] at hg
        exact ⟨hg.ledger, hg.enabled, hg.armed, hg.rest, (absurd · Bool.false_ne_true)⟩
      · next w' s' he =>
        rw [he] at hg
        have hlater : Conversing armed d₀ w' s'.later := { hg with }
        split
        · exact ih hlater
        · exact ⟨hg.ledger, hg.enabled, hg.armed, hg.rest, (absurd · Bool.false_ne_true)⟩
    · exact ⟨h.ledger, h.enabled, h.armed, h.rest, (absurd · Bool.false_ne_true)⟩

end JcosKernel.Polaris
