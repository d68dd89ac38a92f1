import JcosKernel.Polaris.Control

/-!
# JcosKernel.Polaris.Station

**The operations around `failed`.** Most operations of the controller look at the stage and then
either do nothing or go down by way of `failed`. What such an operation preserves depends on the
part of the state only through two predicates: what holds at rest, and what `failed` needs to get
there (`Station`). The beginning, the rescue and the recovery are walked through with what holds
between their parts (`beginSteps_walk`, `requestRescue_walk`, `recoverSteps_walk`).
-/

namespace JcosKernel.Polaris

open Lib Lib.Attempt

section Walks

variable {τ : Type} {env : NativeEnv} {f : NativeState → τ} [hf : Bookkeeping f]
  {lost : NativeState → Prop} (P Down : τ → Prop)

/-- Closing the window releases the hold, and leaves the lane as it is or clears it. -/
theorem stopIo_keeps
    (hlane : ∀ s l, P (f s) → l = s.lane ∨ l = {} → P (f { s with lane := l })) :
    Keeps (fun s => P (f s)) (stopIo env) := by
  have hask : ∀ c, Keeps (fun s => P (f s)) (asked env c) := fun c => (asked_framed env c).keeps P
  have hif : ∀ b c, Keeps (fun s => P (f s)) (askedIf env b c) := fun b c =>
    (askedIf_framed env b c).keeps P
  refine (hask _).bind fun valid => (hif _ _).bind fun closed => ?_
  refine Keeps.bind (fun _ h => h) fun held => (hif _ _).bind fun released => ?_
  refine Keeps.bind ((Frames.update fun s => hf.hold s _).keeps P) fun _ => (hask _).bind fun valid =>
    (hif _ _).bind fun cleaned => Keeps.bind ?_ fun _ => Keeps.guard _
  intro s hs
  refine hlane s _ hs ?_
  split
  · exact .inr rfl
  · exact .inl rfl

theorem stopAll_keeps {writer : Attempt NativeState Unit} (hw : Frames f writer)
    (hio : Keeps (fun s => P (f s)) (stopIo env)) :
    Keeps (fun s => P (f s)) (stopAll env writer) :=
  (hw.keeps P).bind fun _ => ((ask_framed env _).keeps P).bind fun _ =>
    ((ask_framed env _).keeps P).bind fun _ => ((quarantine_framed env).keeps P).bind fun _ =>
      hio.bind fun _ => (dropCap_framed env).keeps P

/-- `failed` never gives up; one predicate holds until the stage is closed, another from then
on. -/
theorem failed_walk (hio : Keeps (fun s => P (f s)) (stopIo env))
    (hshut : ∀ s, P (f s) → Down (f { s with stage := .closed }))
    (hclose : Keeps (fun s => Down (f s)) (policyClose env)) :
    EnsuresOn f P (failed env) Down lost := by
  refine .look_any fun _ => .bind (askedIf_ensures _ _ P) fun _ =>
    .bind (attempt_framed_ensures (quarantine_framed env) P) fun _ =>
    .bind (attempt_framed_ensures (releaseAnyWriter_framed env) P) fun _ =>
    .bind (asked_ensures _ P) fun _ => .bind (asked_ensures _ P) fun _ =>
    .bind (.attempt_keeps hio) fun _ => .update_bind (fun s => Down (f s)) hshut ?_
  exact .bind (attempt_framed_ensures (dropCapIf_framed env _) Down) fun _ =>
    .bind (.attempt_keeps hclose) fun _ => .look_any fun _ =>
    .bind (askedIf_ensures _ _ Down) fun _ => .pure fun _ h => h

/-- A power transition may stop half way; the stage is closed either way. -/
theorem powerPrepare_walk (Rest Down : τ → Prop)
    (hshut : ∀ s, Rest (f s) → s.attempted = true → Down (f { s with stage := .closed }))
    (hD : ∀ s, Down (f s) → Rest (f s)) (hio : Keeps (fun s => Down (f s)) (stopIo env))
    (hclose : Keeps (fun s => Down (f s)) (policyClose env)) :
    EnsuresOn f Rest (polarisNativePowerPrepare env) Rest (fun s => Rest (f s)) := by
  refine .look_bind fun attempted => ?_
  split
  · next ha =>
    refine .update_bind (fun s => Down (f s)) (fun s h => hshut s h.2 (h.1.trans ha)) <|
      .bind (.of_keeps (stopAll_keeps Down (releaseAnyWriter_framed env) hio) hD) fun _ =>
      .bind (.attempt_keeps hclose) fun _ => .look_any fun _ => ?_
    exact ((askIf_framed env _ _).ensures Down hD).to_post fun _ s h => hD s h
  · exact .pure fun _ h => h.2

/-- Recovery: `A` holds until the window is armed again, `O` until the plane is programmed and `X`
until the stage is the rescue stage; then the policy is asked. -/
theorem recoverSteps_walk {pre : NativeState → Prop} {induce : Bool}
    (A O X D R Down : τ → Prop) (hpre : ∀ s, pre s → Down (f s))
    (henter : ∀ s, pre s → s.stage = .primary →
      A (f { s with recoveryAuthorized := false, stage := .recovering }))
    (hA : ∀ s, A (f s) → Down (f s)) (hO : ∀ s, O (f s) → Down (f s))
    (hX : ∀ s, X (f s) → Down (f s))
    (harm : EnsuresOn f A (polarisMmioArmRecovery env) O fun s => Down (f s))
    (hexec : ∀ p, EnsuresOn f O (execute env .rescue p) X fun s => Down (f s))
    (hdone : ∀ s, X (f s) → D (f { s with stage := .rescue }))
    (hreq : EnsuresOn f D (graphicsSupervisorRequest env .rescued {}) R fun s => Down (f s))
    (hR : ∀ s, R (f s) → Down (f s)) :
    Ensures pre (recoverSteps env induce) (fun _ s => R (f s)) fun s => Down (f s) := by
  refine .look_bind fun s0 => .guard_bind (fun s h => hpre s h.2) fun hst =>
    .update_bind (fun s => A (f s)) ?_ <|
    .bind ((askIf_framed env _ _).ensures A hA) fun _ =>
    .bind ((quarantine_framed env).ensures A hA) fun _ => .bind (askedIf_ensures _ _ A) fun _ =>
    .bind ((releaseWriter_framed env _).ensures A hA) fun _ => harm.bind fun _ =>
    .bind ((observeAndPlan_framed env _).ensures O hO) fun plan => (hexec plan).bind fun _ =>
    .bind ((showPattern_framed env _).ensures X hX) fun _ =>
    .update_bind (fun s => D (f s)) hdone <| hreq.bind fun _ =>
      (Ensures.guard hR).to_post fun _ _ h => h.2
  -- the guard is on the state that was looked at
  intro s h
  obtain ⟨rfl, h⟩ := h
  exact henter s h hst.1

omit hf in
/-- A rescue is asked for in the primary stage alone. -/
theorem requestRescue_walk {induce : Bool} (A B : τ → Prop) {Rest Down : τ → Prop}
    (hfail : EnsuresOn f Down (failed env) Rest lost)
    (hprimary : ∀ s, Rest (f s) → s.stage = .primary → A (f s))
    (hgrant : EnsuresOn f A (rescueGranted env) B fun s => Down (f s))
    (hauth : ∀ s, B (f s) → B (f { s with recoveryAuthorized := true }))
    (hrecover : EnsuresOn f B (recoverNative env induce) Rest lost) :
    EnsuresOn f Rest (requestRescue env induce) Rest lost := by
  refine .look_bind fun stage => ?_
  split
  · exact .pure fun _ h => h.2
  · next hst =>
    refine .bind (hgrant.attempt.of_pre fun s h => hprimary s h.2 (h.1.trans (not_not.mp hst)))
      fun granted => ?_
    cases granted with
    | some _ => exact .update_bind (fun s => B (f s)) hauth hrecover
    | none => exact hfail

/-- The beginning: `F` holds until the supervisor has a session, `P` until the window is enabled,
`O` until the plane is programmed and `X` until the stage is the primary stage. -/
theorem beginSteps_walk (F P O X D A : τ → Prop) {Rest Down : τ → Prop}
    (hF : ∀ s, F (f s) → Down (f s)) (hP : ∀ s, P (f s) → Down (f s))
    (hbegin : EnsuresOn f F (graphicsSupervisorBegin env) P fun s => Down (f s))
    (henable : EnsuresOn f P (polarisMmioEnableRebind env) O fun s => Down (f s))
    (hexec : ∀ p, EnsuresOn f O (execute env .primary p) X fun s => Down (f s))
    (hstage : ∀ s, X (f s) → D (f { s with stage := .primary }))
    (hreq : EnsuresOn f D (graphicsSupervisorRequest env .primary {}) A fun s => Down (f s))
    (hA : ∀ s, A (f s) → Down (f s)) (hrest : ∀ s, A (f s) → Rest (f s))
    (hrescue : EnsuresOn f Rest (requestRescue env false) Rest fun s => Down (f s)) :
    EnsuresOn f F (beginSteps env) Rest fun s => Down (f s) := by
  have hask : ∀ {Q : τ → Prop} (c : NativeCall), (∀ s, Q (f s) → Down (f s)) →
      EnsuresOn f Q (ask env c) Q fun s => Down (f s) :=
    fun c hQ => (ask_framed env c).ensures _ hQ
  have hbook : ∀ {g : NativeState → NativeState}, (∀ s, f (g s) = f s) →
      EnsuresOn f P (update g) P fun s => Down (f s) :=
    fun hg => (Frames.update hg).ensures P hP
  refine .bind (hask _ hF) fun _ => .bind (hask _ hF) fun _ => .bind (hask _ hF) fun _ =>
    hbegin.bind fun _ => .bind (hask _ hP) fun _ => .bind (hask _ hP) fun _ =>
    .bind (hbook fun s => hf.cap s _) fun _ => .bind (hask _ hP) fun _ =>
    .bind (hask _ hP) fun _ => .bind (hask _ hP) fun _ =>
    .bind (hbook fun s => hf.hold s _) fun _ =>
    .bind ((observeAndPlan_framed env _).ensures P hP) fun plan =>
    .bind (hask _ hP) fun _ => .bind (hask _ hP) fun _ =>
    .bind (hbook fun s => hf.mutated s _) fun _ => henable.bind fun _ =>
    (hexec plan).bind fun _ => .update_bind (fun s => D (f s)) hstage <| hreq.bind fun _ =>
    .guard_bind hA fun _ => .bind (attempt_framed_ensures (showPattern_framed env _) A)
      fun shown => ?_
  split
  · exact .pure hrest
  · exact hrescue.of_pre hrest

theorem polarisNativeBegin_walk (F : τ → Prop) {Rest Down : τ → Prop}
    (hfail : EnsuresOn f Down (failed env) Rest lost)
    (hmark : ∀ s, Rest (f s) → s.attempted = false → F (f { s with attempted := true }))
    (hsteps : EnsuresOn f F (beginSteps env) Rest fun s => Down (f s)) :
    EnsuresOn f Rest (polarisNativeBegin env) Rest lost := by
  intro s hs
  have hlater : ∀ {s : NativeState}, Rest (f s) → Rest (f s.later) := by
    intro s h
    rw [NativeState.later, hf.clock]
    exact h
  have hasked : ∀ (c : NativeCall) (s : NativeState),
      (asked env c).exec s = (some (env.yes s.clock c), s.later) := fun _ _ => rfl
  unfold polarisNativeBegin
  rw [exec_bind_some (exec_look _ _), exec_bind_some (hasked _ s), exec_bind_some (hasked _ s.later)]
  split
  · exact hlater (hlater hs)
  · next hcond =>
    simp only [not_or, Bool.not_eq_true] at hcond
    exact Ensures.update_bind (fun s => F (f s)) (fun _ h => h)
      (hsteps.otherwise hfail) s.later.later (hmark _ (hlater (hlater hs)) hcond.1)

end Walks

/-- A part of the state with what holds of it between two operations and what allows to stop. -/
structure Station {τ : Type} (env : NativeEnv) (f : NativeState → τ) (Rest Doomed : τ → Prop) :
    Prop where
  failed : ∀ {lost : NativeState → Prop},
    Ensures (fun s => Doomed (f s)) (failed env) (fun _ s => Rest (f s)) lost
  active : ∀ s, Rest (f s) → s.stage = .primary ∨ s.stage = .rescue → Doomed (f s)
  attempted : ∀ s, Rest (f s) → s.attempted = true → Doomed (f s)
  diagnose : ∀ s r, f (NativeState.diagnose s r) = f s
  diagnosedPolicy : ∀ s b, f { s with diagnosedPolicy := b } = f s

namespace Station

variable {τ : Type} {env : NativeEnv} {f : NativeState → τ} {Rest Doomed : τ → Prop}
  {lost : NativeState → Prop}

/-- Going down from a state of which more is known. -/
theorem failed_of (w : Station env f Rest Doomed) {P : NativeState → Prop}
    (h : ∀ s, P s → Doomed (f s)) :
    Ensures P (Polaris.failed env) (fun _ s => Rest (f s)) lost :=
  w.failed.of_pre h

theorem abort (w : Station env f Rest Doomed) :
    EnsuresOn f Rest (polarisNativeAbort env) Rest lost := by
  refine .look_bind fun attempted => ?_
  split
  · next ha => exact w.failed_of fun s h => w.attempted s h.2 (h.1.trans ha)
  · exact .pure fun _ h => h.2

variable [hf : Bookkeeping f]

section

variable (w : Station env f Rest Doomed)
include w

theorem diagnostic (r : NativeRole) (probe : Bool) :
    EnsuresOn f Rest (polarisNativeDiagnostic env r probe) Rest lost := by
  let P : τ → Prop := fun k => Rest k ∧ Doomed k
  refine .look_bind fun s0 => ?_
  split
  · exact .pure fun _ h => h.2
  · next hst =>
    simp only [not_or, not_not] at hst
    have hset : ∀ s : NativeState, id s = s0 ∧ Rest (f s) → P (f (s.diagnose r)) := by
      intro s hs
      obtain ⟨rfl, h⟩ := hs
      have hact : s.stage = .primary ∨ s.stage = .rescue := by
        have hr : s.stage = r.stage := hst.1
        rw [hr]
        cases r
        · exact .inl rfl
        · exact .inr rfl
      rw [w.diagnose]
      exact ⟨h, w.active s h hact⟩
    refine .update_bind (fun s => P (f s)) hset <| .bind (asked_ensures _ P) fun delivered => ?_
    split
    · exact w.failed_of fun _ h => h.2
    · refine .bind (askedIf_ensures _ _ P) fun progress => ?_
      split
      · exact .pure fun _ h => h.1
      · exact w.failed_of fun _ h => h.2

theorem policyDiagnostic (probe : Bool) :
    EnsuresOn f Rest (polarisNativePolicyDiagnostic env probe) Rest lost := by
  let P : τ → Prop := fun k => Rest k ∧ Doomed k
  refine .look_bind fun s0 => ?_
  split
  · exact .pure fun _ h => h.2
  · next hst =>
    simp only [not_or, not_and_or, not_not] at hst
    have hset : ∀ s : NativeState, id s = s0 ∧ Rest (f s) →
        P (f { s with diagnosedPolicy := true }) := by
      intro s hs
      obtain ⟨rfl, h⟩ := hs
      rw [w.diagnosedPolicy]
      exact ⟨h, w.active s h hst.1⟩
    refine .update_bind (fun s => P (f s)) hset <| .bind (asked_ensures _ P) fun injected =>
      .bind (askedIf_ensures _ _ P) fun progress => ?_
    split
    · exact .pure fun _ h => h.1
    · exact w.failed_of fun _ h => h.2

/-- Finishing closes the stage, or goes down. -/
theorem finish (hio : Keeps (fun s => Doomed (f s)) (stopIo env))
    (hclose : Keeps (fun s => Doomed (f s)) (policyClose env))
    (hshut : ∀ s, Doomed (f s) → Rest (f { s with stage := .closed })) :
    EnsuresOn f Rest (polarisNativeFinish env) Rest lost := by
  refine .look_bind fun stage => ?_
  split
  · exact .pure fun _ h => h.2
  · next hst =>
    have hbody : Ensures (fun s => Doomed (f s)) (do
        stopAll env (releaseWriter env stage.writer)
        policyClose env
        update fun s => { s with stage := .closed }) (fun _ s => Rest (f s))
        (fun s => Doomed (f s)) :=
      .bind (.of_keeps (stopAll_keeps Doomed (releaseWriter_framed env _) hio) fun _ h => h) fun _ =>
        .bind (.of_keeps hclose fun _ h => h) fun _ => fun s h => hshut s h
    refine (hbody.otherwise w.failed).of_pre ?_
    intro s hs
    obtain ⟨rfl, h⟩ := hs
    refine w.active s h ?_
    by_contra hne
    exact hst (not_or.mp hne)

/-- A poll goes down, or asks the drivers in an active stage. -/
theorem poll (hdrivers : ∀ s, Rest (f s) → s.stage = .primary ∨ s.stage = .rescue →
      Outcome (fun _ s => Rest (f s)) lost ((pollDrivers env s.stage).exec s.later)) :
    EnsuresOn f Rest (polarisNativePoll env) Rest lost := by
  intro s hs
  unfold polarisNativePoll
  rw [exec_bind_some (exec_look _ _)]
  split
  · exact hs
  · next hst =>
    have hact : s.stage = .primary ∨ s.stage = .rescue := by
      by_contra h
      exact hst (not_or.mp h)
    have hdown : Doomed (f s) := w.active s hs hact
    split
    · exact w.failed s hdown
    · have hb : (asked env .timerReady).exec s =
          (some (env.yes s.clock .timerReady), s.later) := rfl
      rw [exec_bind_some hb]
      split
      · refine w.failed s.later ?_
        change Doomed (f s.later)
        rw [NativeState.later, hf.clock]
        exact hdown
      · exact hdrivers s hs hact

end

end Station

end JcosKernel.Polaris
