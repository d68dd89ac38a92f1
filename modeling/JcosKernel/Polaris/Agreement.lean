import JcosKernel.Polaris.Lockstep

/-!
# JcosKernel.Polaris.Agreement

**The gate admits exactly the runs of the reference.** For any plan and any device that is always
admitted, the sequencer talking to the gate completes if and only if the reference returns true,
and then both have done the same operations with the same counters.
-/

namespace JcosKernel.Polaris

open Lib Lib.Attempt

/-! ## The messages of a conversation -/

section Messages

variable {σ : Type} {exchange : RebindOp → Nat → BitVec 32 → Attempt σ (BitVec 32)}
  {P : σ → Prop} (hex : ∀ o f v, Keeps P (exchange o f v))
include hex

theorem readValue_keeps (f : RebindRead) : Keeps P (readValue exchange f) :=
  (hex _ _ _).bind fun _ => (Keeps.guard _).bind fun _ => Keeps.pure _

theorem userPolls_keeps (flip baseline : BitVec 32) (left : Nat) :
    Keeps P (userPolls exchange flip baseline left) := by
  induction left with
  | zero => exact Keeps.failure
  | succ left ih =>
    repeat refine (readValue_keeps hex _).bind fun _ => ?_
    refine (Keeps.guard _).bind fun _ => (Keeps.guard _).bind fun _ => ?_
    split
    · exact Keeps.pure _
    · split
      · exact Keeps.failure
      · exact (hex _ _ _).bind fun _ => ih

/-- What every exchange keeps, the sequencer keeps. -/
theorem polarisUserProgram_keeps (flip : BitVec 32) : Keeps P (polarisUserProgram exchange flip) := by
  repeat refine (readValue_keeps hex _).bind fun _ => ?_
  refine (Keeps.guard _).bind fun _ => (hex _ _ _).bind fun _ => (hex _ _ _).bind fun _ => ?_
  exact (readValue_keeps hex _).bind fun _ => (Keeps.guard _).bind fun _ =>
    (readValue_keeps hex _).bind fun _ => (Keeps.guard _).bind fun _ => userPolls_keeps hex _ _ _

end Messages

variable {io : ProgramIo} {p : ProgramPlan}

/-- The gate at the start of a conversation. -/
def startGate (p : ProgramPlan) : GateRun := { gate := (polarisProgramGateInit p).2 }

/-- An exchange is at most one message to the gate. -/
theorem exchange_message (w : GateRun) (o : RebindOp) (f : Nat) (v : BitVec 32) :
    Keeps (fun c : Conversation => ∃ ms, c.toGateRun = gateRun io w ms)
      (exchangeWithin rebindMessages io o f v) := by
  intro c hc
  obtain ⟨ms, hms⟩ := hc
  simp only [exchangeWithin, exec_step]
  split
  · exact ⟨ms, hms⟩
  · refine ⟨ms ++ [(rebindTag (c.client + 1) o.code f, v.setWidth 64)], ?_⟩
    have hrun : gateRun io w (ms ++ [(rebindTag (c.client + 1) o.code f, v.setWidth 64)]) =
        (gateStepWithin rebindMessages io (rebindTag (c.client + 1) o.code f) (v.setWidth 64)
          c.toGateRun).2 := by
      rw [hms, gateRun, List.foldl_append]
      rfl
    rw [hrun]
    split
    · next h => rw [h]
    · next h => rw [h]

theorem converse_messages (io : ProgramIo) (p : ProgramPlan) :
    ∃ ms, (converse io p).2.toGateRun = gateRun io (startGate p) ms :=
  polarisUserProgram_keeps (exchange_message (startGate p)) _ _ ⟨[], rfl⟩

/-! ## The conversation and the reference -/

theorem init_accepted (hc : p.consumed = false) (ha : p.accepted = true) :
    (polarisProgramGateInit p).2 =
      (openingPoint 0).gate (p.witness.values 0 .flipControl) {} := by
  simp only [polarisProgramGateInit, hc, ha]
  rfl

/-- A plan that is not accepted leaves a gate that answers nothing. -/
theorem converseWithin_refused (io : ProgramIo) {budget : Nat} (hb : rebindMessages ≤ budget)
    (h : (polarisProgramGateInit p).2 = {}) :
    (converseWithin budget io p).1 = none ∧ (converseWithin budget io p).2.ops = [] := by
  have hpos : ¬ budget ≤ 0 := Nat.not_le.mpr (Nat.lt_of_lt_of_le (by decide) hb)
  have hdead : ¬ ({ gate := {} } : GateRun).gate.Live := fun hl => Bool.noConfusion hl.initialized
  have hex : (exchangeWithin budget io .read RebindRead.low.number 0).exec { gate := {} } =
      (none, { gate := {}, client := 1 }) := by
    simp only [exchangeWithin, exec_step, if_neg hpos]
    rw [gateStepWithin_dead hdead]
  have hread : (readValue (exchangeWithin budget io) .low).exec { gate := {} } =
      (none, { gate := {}, client := 1 }) := exec_bind_none hex
  have hrun : (polarisUserProgram (exchangeWithin budget io)
      (p.witness.values 0 .flipControl)).exec { gate := {} } =
        (none, { gate := {}, client := 1 }) := exec_bind_none hread
  rw [converseWithin, h, hrun]
  exact ⟨rfl, rfl⟩

/-- The conversation under an accepted plan, next to the sequence. -/
theorem converseWithin_matched {budget : Nat} (hadm : ∀ ops, io.admitted ops = true)
    (hb : rebindMessages ≤ budget) (hc : p.consumed = false) (ha : p.accepted = true) :
    Matched Finished SameOps (converseWithin budget io p)
      ((rebind io (p.witness.values 0 .flipControl)).exec {}) := by
  refine polarisUserProgram_coupled hb hadm _ _ ⟨{}, rfl, rfl, rfl, ?_⟩
  rw [init_accepted hc ha]
  rfl

/-- The conversation completes: the sequencer returns 1 and the gate says complete. -/
def Completes (x : Option (BitVec 32) × Conversation) : Prop :=
  x.1.isSome = true ∧ x.2.gate.result.complete = true

/-- The gate admits exactly the runs of the reference, and nothing else whatever it is sent. -/
structure GateAdmitsReference (io : ProgramIo) (p : ProgramPlan) : Prop where
  /-- The conversation completes if and only if the reference returns true. -/
  completes : Completes (converse io p) ↔ (polarisProgramExecute io p).1 = true
  /-- Then both performed the same operations, with the same counters and frame delta. -/
  same : (polarisProgramExecute io p).1 = true →
    (converse io p).2.ops = (polarisProgramExecute io p).2.ops ∧
    (converse io p).2.gate.result = (polarisProgramExecute io p).2.result ∧
    (converse io p).1 = some (polarisProgramExecute io p).2.result.frameDelta
  /-- The sequencer is one of the clients the gate may have. -/
  client : ∃ ms, (converse io p).2.toGateRun = gateRun io (startGate p) ms
  /-- The writes are the first of the two, made after six valid reads. -/
  disciplined : ∀ ms, Disciplined io (p.witness.values 0 .flipControl)
    (gateRun io (startGate p) ms).ops
  /-- Nothing is accepted after the gate was poisoned or has completed. -/
  closed : ∀ ms tag payload,
    ((gateRun io (startGate p) ms).gate.poisoned = true ∨
      (gateRun io (startGate p) ms).gate.result.complete = true) →
    polarisProgramGateStep io tag payload (gateRun io (startGate p) ms) =
      (none, gateRun io (startGate p) ms)
  /-- A gate that takes requests has messages left. -/
  budget : ∀ ms, (gateRun io (startGate p) ms).gate.Live →
    (gateRun io (startGate p) ms).gate.sequence < rebindMessages
  /-- With any larger budget on both sides the conversation ends the same way. -/
  enough : ∀ b, rebindMessages ≤ b → (converseWithin b io p).1 = (converse io p).1 ∧
    (converseWithin b io p).2.ops = (converse io p).2.ops

/-- A plan that is not accepted completes nowhere. -/
theorem init_refused (io : ProgramIo) (h : ¬ (p.consumed = false ∧ p.accepted = true)) :
    (polarisProgramGateInit p).2 = {} ∧ polarisProgramExecute io p = (false, {}) := by
  cases hc : p.consumed with
  | true => simp [polarisProgramGateInit, polarisProgramExecute, hc]
  | false =>
    have ha : p.accepted = false := by
      cases ha : p.accepted with
      | true => exact absurd ⟨hc, ha⟩ h
      | false => rfl
    simp [polarisProgramGateInit, polarisProgramExecute, ha]

/-- The part about the reference. -/
theorem reference_agrees (hadm : ∀ ops, io.admitted ops = true) :
    (Completes (converse io p) ↔ (polarisProgramExecute io p).1 = true) ∧
    ((polarisProgramExecute io p).1 = true →
      (converse io p).2.ops = (polarisProgramExecute io p).2.ops ∧
      (converse io p).2.gate.result = (polarisProgramExecute io p).2.result ∧
      (converse io p).1 = some (polarisProgramExecute io p).2.result.frameDelta) := by
  by_cases h : p.consumed = false ∧ p.accepted = true
  case neg =>
    obtain ⟨hinit, hexec⟩ := init_refused io h
    have hnone : (converse io p).1 = none := (converseWithin_refused io (Nat.le_refl _) hinit).1
    rw [hexec]
    exact ⟨⟨fun hx => by simp [Completes, hnone] at hx, nofun⟩, nofun⟩
  obtain ⟨hc, ha⟩ := h
  have hexec : polarisProgramExecute io p =
      (((executeAccepted io p).exec {}).1.isSome, ((executeAccepted io p).exec {}).2) := by
    simp only [polarisProgramExecute, hc, ha]
    rfl
  rw [hexec]
  have huser := converseWithin_matched hadm (Nat.le_refl _) hc ha
  have href := executeAccepted_coupled io (p.accepted_spec ha) {} {} rfl
  change Matched Finished SameOps (converse io p) _ at huser
  generalize converse io p = x at huser ⊢
  generalize (rebind io (p.witness.values 0 .flipControl)).exec {} = y at huser href
  generalize (executeAccepted io p).exec {} = z at href ⊢
  cases huser with
  | returned h =>
    cases href with
    | returned h' =>
      obtain ⟨rfl, rfl⟩ := h'
      refine ⟨⟨fun _ => rfl, fun _ => ⟨rfl, h.result ▸ h.complete⟩⟩, fun _ => ?_⟩
      exact ⟨h.ops, h.result, by rw [h.delta, h.value]⟩
  | gaveUp h =>
    cases href with
    | gaveUp _ => exact ⟨⟨fun hx => hx.1, fun hz => nomatch hz⟩, fun hz => nomatch hz⟩

/-- Two budgets of at least `POLARIS_REBIND_MESSAGES` cannot be told apart. -/
theorem converseWithin_enough (hadm : ∀ ops, io.admitted ops = true) {b : Nat}
    (hb : rebindMessages ≤ b) : (converseWithin b io p).1 = (converse io p).1 ∧
      (converseWithin b io p).2.ops = (converse io p).2.ops := by
  by_cases h : p.consumed = false ∧ p.accepted = true
  · have h1 := converseWithin_matched hadm hb h.1 h.2
    have h2 := converseWithin_matched hadm (Nat.le_refl _) h.1 h.2
    change Matched Finished SameOps (converse io p) _ at h2
    generalize converseWithin b io p = x at h1 ⊢
    generalize converse io p = y at h2 ⊢
    generalize (rebind io (p.witness.values 0 .flipControl)).exec {} = z at h1 h2
    cases h1 with
    | returned h1 =>
      cases h2 with
      | returned h2 => exact ⟨congrArg some (h1.value.trans h2.value.symm), h1.ops.trans h2.ops.symm⟩
    | gaveUp h1 =>
      cases h2 with
      | gaveUp h2 => exact ⟨rfl, Eq.trans h1 (Eq.symm h2)⟩
  · have hinit := (init_refused io h).1
    have h1 := converseWithin_refused io hb hinit
    have h2 := converseWithin_refused io (Nat.le_refl _) hinit
    exact ⟨h1.1.trans h2.1.symm, h1.2.trans h2.2.symm⟩

theorem polaris_gate_admits_reference (io : ProgramIo) (hadm : ∀ ops, io.admitted ops = true)
    (p : ProgramPlan) : GateAdmitsReference io p := by
  have hinv : ∀ ms, GateInv io (p.witness.values 0 .flipControl) (gateRun io (startGate p) ms) :=
    fun ms => (GateInv.init p).run ms
  have href := reference_agrees (p := p) hadm
  refine ⟨href.1, href.2, converse_messages io p, fun ms => (hinv ms).disciplined, ?_,
    fun ms => (hinv ms).within_budget, fun b hb => converseWithin_enough hadm hb⟩
  intro ms tag payload hend
  refine gateStepWithin_dead fun hl => ?_
  rcases hend with hp | hc
  · rw [hl.unpoisoned] at hp
    cases hp
  · rw [hl.running] at hc
    cases hc

/-- The plan of the gate's own test. -/
def samplePlan : ProgramPlan where
  incarnation := 11
  observationId := 13
  gpuAddress := retainedSurface
  tags i := jcosPolarisPlaneTag i (recipeOperation i) 0 (recipeField i)
  values i := if i = 0 then 0xF4 else if i = 4 then 110 else 0
  witness := { values := fun s f =>
    match f with
    | .update => 0
    | .flipControl => 0x20
    | .frameCount => if s = 0 then 100 else 110 }
  pipe := 0
  crtc := retainedCrtc
  consumed := false

/-- A device on which every read shows the frame counter three frames later. -/
def steadyDevice : ProgramIo where
  admitted _ := true
  read ops f :=
    match f with
    | .low => some 0
    | .high => some 0xF4
    | .crtc => some retainedCrtc
    | .update => some 0
    | .flip => some 0x20
    | .frame => some (BitVec.ofNat 32 (3 * ops.count (.read .frame)))
  write _ _ _ := true
  wait _ := true

/-- On the steady device the conversation completes, because the reference does. -/
theorem polaris_gate_admits_reference_steady : Completes (converse steadyDevice samplePlan) :=
  (polaris_gate_admits_reference steadyDevice (fun _ => rfl) samplePlan).completes.mpr
    (by decide +kernel)

end JcosKernel.Polaris
