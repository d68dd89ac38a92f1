import JcosKernel.Polaris.Native

/-!
# JcosKernel.Polaris.Control

**What the steps leave alone.** Most steps of the controller only keep books: time, capability,
hold, output and writer. A part of the state that ignores these (`Bookkeeping`) is left alone by all of
them, whether they succeed or not.

One such part is what the exchange with the policy depends on (`Control`): the stage, the flags
and the session. Closing the register window and programming the plane do not touch it either.
-/

namespace JcosKernel.Polaris

open Lib Lib.Attempt

/-- The part of the controller that decides about requests to the policy, with the record of
them. -/
structure Control where
  attempted : Bool
  recoveryAuthorized : Bool
  policyClosed : Bool
  stage : NativeStage
  session : SupervisorSession
  nextSession : Nat
  policy : GraphicsPolicy
  exchanges : List Exchange
  refusedAction : Bool

/-- The control part of a state. -/
def NativeState.control (s : NativeState) : Control where
  attempted := s.attempted
  recoveryAuthorized := s.recoveryAuthorized
  policyClosed := s.policyClosed
  stage := s.stage
  session := s.session
  nextSession := s.nextSession
  policy := s.policy
  exchanges := s.exchanges
  refusedAction := s.refusedAction

/-- The control part is left alone. -/
abbrev Framed {α : Type} (c : Attempt NativeState α) : Prop := Frames NativeState.control c

/-- A part of the state that the books of the controller do not touch. -/
class Bookkeeping {τ : Type} (f : NativeState → τ) : Prop where
  clock : ∀ s n, f { s with clock := n } = f s
  cap : ∀ s b, f { s with cap := b } = f s
  hold : ∀ s b, f { s with hold := b } = f s
  mutated : ∀ s b, f { s with mutated := b } = f s
  challenge : ∀ s n, f { s with challenge := n } = f s
  writer : ∀ s w, f { s with writer := w } = f s
  output : ∀ s b, f { s with output := b } = f s
  heartbeat : ∀ s n t, f { s with clock := n, lastHeartbeat := t } = f s
  frequency : ∀ s n q, f { s with clock := n, frequency := q } = f s

instance : Bookkeeping NativeState.control where
  clock _ _ := rfl
  cap _ _ := rfl
  hold _ _ := rfl
  mutated _ _ := rfl
  challenge _ _ := rfl
  writer _ _ := rfl
  output _ _ := rfl
  heartbeat _ _ _ := rfl
  frequency _ _ _ := rfl

variable (env : NativeEnv) {τ : Type} {f : NativeState → τ} [hf : Bookkeeping f]

theorem ask_framed (c : NativeCall) : Frames f (ask env c) := fun s => hf.clock s _

theorem asked_framed (c : NativeCall) : Frames f (asked env c) := fun s => hf.clock s _

theorem askIf_framed (b : Bool) (c : NativeCall) : Frames f (askIf env b c) := by
  cases b with
  | true => exact ask_framed env c
  | false => exact .pure _

theorem askedIf_framed (b : Bool) (c : NativeCall) : Frames f (askedIf env b c) := by
  cases b with
  | true => exact asked_framed env c
  | false => exact .pure _

section Ensures

variable {env} {lost : NativeState → Prop}

/-- Looking outside never gives up. -/
theorem asked_ensures (c : NativeCall) (P : τ → Prop) : EnsuresOn f P (asked env c) P lost := by
  intro s hs
  change P (f s.later)
  rw [NativeState.later, hf.clock]
  exact hs

theorem askedIf_ensures (b : Bool) (c : NativeCall) (P : τ → Prop) :
    EnsuresOn f P (askedIf env b c) P lost := by
  cases b with
  | true => exact asked_ensures c P
  | false => exact fun _ hs => hs

/-- The ping of the primary driver is sent in the primary stage alone. -/
theorem pingPrimary_ensures (stage : NativeStage) (P : τ → Prop) :
    Ensures (fun s => P (f s)) (pingPrimary env stage)
      (fun b s => (b = true → stage = .primary) ∧ P (f s)) lost := by
  unfold pingPrimary
  split
  · next hst =>
    refine .update_bind (fun s => P (f s)) (fun s h => ?_)
      ((asked_ensures _ P).to_post fun _ _ h => ⟨fun _ => hst, h⟩)
    rw [hf.challenge]
    exact h
  · exact .pure fun _ hs => ⟨nofun, hs⟩

end Ensures

/-- A step that leaves a part of the state alone may be tried. -/
theorem attempt_framed_ensures {τ α : Type} {f : NativeState → τ} {c : Attempt NativeState α}
    {lost : NativeState → Prop} (hc : Frames f c) (P : τ → Prop) :
    EnsuresOn f P (attempt c) P lost :=
  .attempt_keeps (hc.keeps P)

/-! ## Stopping -/

theorem stopIo_framed : Framed (stopIo env) :=
  .bind (asked_framed env _) fun _ => .bind (askedIf_framed env _ _) fun _ =>
    .bind (.look _) fun _ => .bind (askedIf_framed env _ _) fun _ =>
      .bind (.update fun _ => rfl) fun _ => .bind (asked_framed env _) fun _ =>
        .bind (askedIf_framed env _ _) fun _ => .bind (.update fun _ => rfl) fun _ => .guard _

theorem quarantine_framed : Frames f (quarantine env) := by
  refine .bind (asked_framed env _) fun valid => .bind (asked_framed env _) fun owned => ?_
  split
  · exact .pure _
  · split
    all_goals exact ask_framed env _

theorem dropCap_framed : Frames f (dropCap env) := by
  refine .bind (.look _) fun cap => ?_
  split
  · exact .bind (ask_framed env _) fun _ => .update fun s => hf.cap s _
  · exact .pure _

theorem dropCapIf_framed (drained : Bool) : Frames f (dropCapIf env drained) := by
  cases drained with
  | true => exact dropCap_framed env
  | false => exact .pure _

theorem reclaimLease_framed (lease : LeaseState) : Frames f (reclaimLease env lease) := by
  cases lease with
  | kernel => exact .pure _
  | handoff | user => exact ask_framed env _
  | reclaim => exact .failure

theorem releaseWriter_framed (r : NativeRole) : Frames f (releaseWriter env r) := by
  refine .bind (ask_framed env _) fun _ => .bind (.look _) fun s => ?_
  split
  · exact .bind (reclaimLease_framed env _) fun _ => .update fun s => hf.writer s _
  · exact .pure _

theorem releaseAnyWriter_framed : Frames f (releaseAnyWriter env) := by
  refine .bind (.look _) fun writer => ?_
  split
  · exact releaseWriter_framed env _
  · exact .pure _

/-! ## Programming and drawing -/

theorem enableRebind_framed : Framed (polarisMmioEnableRebind env) := by
  intro s
  simp only [polarisMmioEnableRebind, exec_step]
  split <;> rfl

theorem armRecovery_framed : Framed (polarisMmioArmRecovery env) := by
  intro s
  simp only [polarisMmioArmRecovery, exec_step]
  split <;> rfl

theorem gateRequest_control (tag payload : BitVec 64) (w : GateRun) (s : NativeState) :
    (gateRequest env tag payload w s).2.2.control = s.control := by
  simp only [gateRequest]
  split
  · split <;> rfl
  · rfl

/-- Whatever a driver sends, the conversation leaves the control part alone. -/
theorem brokerLoop_control (n : Nat) (w : GateRun) (s : NativeState) :
    (brokerLoop env n w s).2.control = s.control := by
  induction n generalizing w s with
  | zero => rfl
  | succ n ih =>
    unfold brokerLoop
    split
    · rfl
    · next tag payload _ =>
      have hg := gateRequest_control env tag payload w s
      split
      · next he =>
        rw [he] at hg
        exact hg
      · next he =>
        rw [he] at hg
        split
        · exact (ih _ _).trans hg
        · exact hg
    · rfl

theorem polarisDriverProgram_framed (r : NativeRole) (p : ProgramPlan) :
    Framed (polarisDriverProgram env r p) := by
  refine .bind (ask_framed env _) fun _ => .bind (.look _) fun s => .bind (.guard _) fun _ =>
    .bind (.update ?_) fun _ => .bind (.guard _) fun _ => .bind (ask_framed env _) fun _ => ?_
  · intro s
    cases r <;> rfl
  · intro s
    have hb := brokerLoop_control env (rebindMessages + 1)
      { gate := (polarisProgramGateInit p).2 } s
    simp only [exec_step]
    split
    · next he =>
      rw [he] at hb
      exact hb
    · next he =>
      rw [he] at hb
      exact hb

theorem execute_framed (r : NativeRole) (p : ProgramPlan) : Framed (execute env r p) :=
  .bind (.update fun _ => rfl) fun _ => polarisDriverProgram_framed env r p

theorem observeAndPlan_framed (r : NativeRole) : Frames f (observeAndPlan env r) := fun s =>
  hf.frequency s _ _

theorem showPattern_framed (r : NativeRole) : Frames f (showPattern env r) := by
  refine .bind (ask_framed env _) fun _ => .bind (.update fun s => hf.output s _) fun _ =>
    .bind (ask_framed env _) fun _ => .bind (.update fun s => ?_) fun _ =>
      .bind (ask_framed env _) fun _ => .bind (ask_framed env _) fun _ =>
        .bind (ask_framed env _) fun _ => .bind (ask_framed env _) fun _ =>
          .update fun s => hf.heartbeat s _ _
  exact (hf.writer { s with output := true } (some r)).trans (hf.output s true)

end JcosKernel.Polaris
