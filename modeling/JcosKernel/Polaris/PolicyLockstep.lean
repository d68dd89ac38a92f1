import JcosKernel.Polaris.Agreement
import JcosKernel.Polaris.PolicyRuns

/-!
# JcosKernel.Polaris.PolicyLockstep

**Polls, whole runs, and a policy that is not to be trusted.** A poll turns what it saw of the two
drivers into facts; on facts that a poll can produce the policy never rejects, and its decisions
pass the checks of the kernel (`PollView.Sound.observed`). Together with the other operations this
gives the lockstep over every run.

For an arbitrary policy the same checks are all there is: a `KEEP` leaves a stage active only if
the poll saw its writer running and got the answer to its ping (`polarisNativePoll_keeps_writer`).
-/

namespace JcosKernel.Polaris

open Lib Lib.Attempt

variable {env : NativeEnv} {lost : NativeState → Prop}

/-! ## What a poll can see -/

/-- The stage of the policy that goes with an active stage of the controller. -/
def NativeStage.policy : NativeStage → PolicyStage
  | .primary => .primary
  | _ => .rescue

/-- The views a poll hands to the policy. -/
structure PollView.Sound (v : PollView) : Prop where
  active : v.stage = .primary ∨ v.stage = .rescue
  primary : v.primary = true → v.stage = .primary
  probed : v.probed = v.healthy
  primaryPong : v.primaryPong = true → v.probed = true ∧ v.stage = .primary
  rescuePong : v.rescuePong = true → v.probed = true

variable {v : PollView} {s s' : NativeState} {stage : NativeStage} {k : Control} {n start : Nat}

/-- On a sound view the policy does not reject, and the kernel agrees with what it decides. -/
theorem PollView.Sound.observed (h : v.Sound) :
    (Polaris.observed v.stage.policy v.facts = (.keep, v.stage.policy) ∧ v.Retained) ∨
    (Polaris.observed v.stage.policy v.facts = (.recover, .recovering) ∧ v.Recoverable) ∨
    Polaris.observed v.stage.policy v.facts = (.headless, .closed) := by
  obtain ⟨hact, hprim, hprobed, hpp, hrp⟩ := h
  obtain ⟨stage, p, r, pr, pp, rp⟩ := v
  rcases hact with rfl | rfl <;> revert hprim hprobed hpp hrp <;>
    cases p <;> cases r <;> cases pr <;> cases pp <;> cases rp <;> decide

theorem NativeStage.policy_observe (f : PolicyFacts) (h : stage = .primary ∨ stage = .rescue) :
    stage.policy.next .observe f = Polaris.observed stage.policy f := by
  rcases h with rfl | rfl <;> rfl

/-- The controller is in an active stage and the policy in the stage that goes with it. -/
def Active (env : NativeEnv) (stage : NativeStage) (k : Control) : Prop :=
  Tied env stage.policy k ∧ k.stage = stage

theorem Active.rest (h : Active env stage k) (ha : stage = .primary ∨ stage = .rescue) :
    Rest env k := by
  rcases ha with rfl | rfl
  · exact .primary h.1 h.2
  · exact .rescue h.1 h.2

theorem Rest.active (h : Rest env k) (ha : k.stage = .primary ∨ k.stage = .rescue) :
    Active env k.stage k := by
  cases h with
  | primary h hs | rescue h hs => rw [hs]; exact ⟨h, hs⟩
  | fresh _ _ hs | closed _ hs => simp [hs] at ha

/-- The observation of a sound view is answered as the table says. -/
theorem observe_tied (hal : env.Alive) (hv : v.Sound) {a : PolicyAction} {next : PolicyStage}
    (hobs : Polaris.observed v.stage.policy v.facts = (a, next)) (ha : a ≠ .reject) :
    Ensures (fun s => Active env v.stage s.control)
      (attempt (graphicsSupervisorRequest env .observe v.facts))
      (fun o s => Outcome (fun b s => b = a ∧ Tied env next s.control ∧ s.control.stage = v.stage)
        (fun s => Doomed env s.control) (o, s)) lost :=
  (request_tied (e := .observe) hal nofun nofun (fun h => absurd rfl h)
    ((NativeStage.policy_observe v.facts hv.active).trans hobs) ha v.stage).attempt

/-- `HEADLESS` is a decision of its own, not a refused one. -/
theorem headless_rest (hal : env.Alive) :
    Ensures (fun s => Doomed env s.control)
      (do update fun s : NativeState =>
            { s with refusedAction := s.refusedAction || PolicyAction.headless != .headless }
          failed env)
      (fun _ s => Rest env s.control) lost := by
  have hsame : ∀ s : NativeState,
      { s with refusedAction := s.refusedAction || PolicyAction.headless != .headless } = s := by
    intro s
    have h : (PolicyAction.headless != .headless) = false := rfl
    simp only [h, Bool.or_false]
  refine .update_bind (fun s => Doomed env s.control) (fun s h => ?_) (failed_rest hal)
  rw [hsame]
  exact h

/-- The policy decides on what the poll saw. -/
theorem pollDecide_rest (hal : env.Alive) (hv : v.Sound) :
    EnsuresOn NativeState.control (Active env v.stage) (pollDecide env v) (Rest env) lost := by
  rcases hobs : Polaris.observed v.stage.policy v.facts with ⟨a, next⟩
  have hview := hv.observed
  simp only [hobs] at hview
  have hrej : a ≠ .reject := by
    rcases hview with ⟨⟨rfl, -⟩, -⟩ | ⟨⟨rfl, -⟩, -⟩ | ⟨rfl, -⟩ <;> nofun
  refine .bind (observe_tied hal hv hobs hrej) fun answer => ?_
  cases answer with
  | none => exact failed_rest hal
  | some b =>
    intro s hs
    obtain ⟨rfl, ht, hst⟩ := hs
    rcases hview with ⟨⟨rfl, rfl⟩, hret⟩ | ⟨⟨rfl, rfl⟩, hrec⟩ | ⟨rfl, rfl⟩
    all_goals dsimp only
    · rw [if_pos hret]
      exact Active.rest ⟨ht, hst⟩ hv.active
    · rw [if_pos ⟨rfl, hrec⟩]
      exact authorized_recovery hal false s ht
    · exact headless_rest hal s ht.doomed

/-- A healthy stage is probed. -/
theorem pollProbe_rest (hal : env.Alive) (ha : v.stage = .primary ∨ v.stage = .rescue)
    (hp : v.primary = true → v.stage = .primary) (hh : v.healthy = true) :
    EnsuresOn NativeState.control (Active env v.stage) (pollProbe env v) (Rest env) lost := by
  have hdown : ∀ s : NativeState, Active env v.stage s.control → Doomed env s.control :=
    fun _ h => h.1.doomed
  refine .look_any fun s0 => ?_
  split
  · exact (failed_rest hal).of_pre hdown
  · refine .bind (pingPrimary_ensures v.stage (Active env v.stage)) fun pp => .look_any fun _ => ?_
    split
    · exact (failed_rest hal).of_pre fun s h => hdown s h.2
    · let P : Control → Prop := fun k => (pp = true → v.stage = .primary) ∧ Active env v.stage k
      refine .update_bind (fun s => P s.control) (fun _ h => h) <|
        .bind (asked_ensures _ P) fun rp => ?_
      intro s hs
      have hv : PollView.Sound { v with probed := true, primaryPong := pp, rescuePong := rp } :=
        ⟨ha, hp, hh.symm, fun h => ⟨rfl, hs.1 h⟩, fun _ => rfl⟩
      exact pollDecide_rest hal hv s hs.2

theorem pollDrivers_rest (hal : env.Alive) (ha : stage = .primary ∨ stage = .rescue) :
    EnsuresOn NativeState.control (Active env stage) (pollDrivers env stage) (Rest env) lost := by
  let P : Control → Prop := Active env stage
  refine .bind (asked_ensures _ P) fun primaryRunning =>
    .bind (asked_ensures _ P) fun rescueRunning => .look_any fun s0 => ?_
  have hprim : (stage == .primary && primaryRunning) = true → stage = .primary := by
    intro h
    exact eq_of_beq (Bool.and_eq_true _ _ ▸ h).1
  split
  · next hh =>
    dsimp only
    split
    · exact .pure fun _ h => h.rest ha
    · exact .update_bind (fun s => P s.control) (fun _ h => h) (pollProbe_rest hal ha hprim hh)
  · next hh =>
    have hv : PollView.Sound
        { stage, primary := stage == .primary && primaryRunning, rescue := rescueRunning } :=
      ⟨ha, hprim, (Bool.eq_false_of_not_eq_true hh).symm, nofun, nofun⟩
    exact pollDecide_rest hal hv

/-! ## The other operations -/

theorem Rest.doomed (h : Rest env k) (ha : k.attempted = true) : Doomed env k := by
  cases h with
  | fresh h _ _ => exact h.doomed ha
  | primary h _ | rescue h _ => exact h.doomed
  | closed h _ => exact h

/-- The exchange at rest and on the way down. -/
theorem rest_station (hal : env.Alive) :
    Station env NativeState.control (Rest env) (Doomed env) where
  failed := failed_rest hal
  active _ h ha := (h.active ha).1.doomed
  attempted _ h ha := h.doomed ha
  diagnose _ r := by cases r <;> rfl
  diagnosedPolicy _ _ := rfl

/-! ## Whole runs -/

/-- Every operation leads from rest to rest. -/
theorem NativeOp.perform_rest (hal : env.Alive) (o : NativeOp) :
    Keeps (fun s => Rest env s.control) (o.perform env) := by
  cases o with
  | begin => exact (polarisNativeBegin_rest hal).keeps
  | rescue => exact (requestRescue_rest hal true).keeps
  | poll =>
    exact ((rest_station hal).poll fun s h ha =>
      pollDrivers_rest hal ha s.later (h.active ha)).keeps
  | finish =>
    exact ((rest_station hal).finish ((stopIo_framed env).keeps (Doomed env))
      (policyClose_doomed hal) fun _ h => .closed (h.set_stage rfl) rfl).keeps
  | abort => exact (rest_station hal).abort.keeps
  | powerPrepare =>
    exact (powerPrepare_walk (f := NativeState.control) (Rest env)
      (fun k => Doomed env k ∧ k.stage = .closed)
      (fun _ h ha => ⟨(h.doomed ha).set_stage rfl, rfl⟩) (fun _ h => .closed h.1 h.2)
      ((stopIo_framed env).keeps fun k => Doomed env k ∧ k.stage = .closed)
      (policyClose_down hal)).keeps
  | diagnostic r probe => exact ((rest_station hal).diagnostic r probe).keeps
  | policyDiagnostic probe => exact ((rest_station hal).policyDiagnostic probe).keeps

theorem nativeRun_rest (hal : env.Alive) (h : Rest env s.control) (os : List NativeOp) :
    Rest env (nativeRun env s os).control := by
  induction os generalizing s with
  | nil => exact h
  | cons o os ih => exact ih (o.perform_rest hal s h)

theorem Rest.book (h : Rest env k) : Book k := by
  cases h with
  | fresh h _ _ | primary h _ | rescue h _ | closed h _ => exact h.book

/-! ## A policy that is not to be trusted

Nothing is assumed about the environment here: the policy may answer anything and the supervisor
may die at any moment. -/

/-- No observation after the first `n` exchanges was answered with `KEEP`. -/
def NoKeep (n : Nat) (k : Control) : Prop :=
  ∀ x ∈ k.exchanges.drop n, x.event = .observe → x.answer ≠ some .keep

/-- A call outside said yes between two moments. -/
def Seen (env : NativeEnv) (start : Nat) (c : NativeCall) (s : NativeState) : Prop :=
  ∃ t, start ≤ t ∧ t < s.clock ∧ env.yes t c = true

/-- A request appends one exchange with its event at most; a returned action is its answer. -/
theorem request_exchanges (env : NativeEnv) (e : PolicyEvent) (f : PolicyFacts) (s : NativeState) :
    s.clock ≤ ((graphicsSupervisorRequest env e f).exec s).2.clock ∧
    (((graphicsSupervisorRequest env e f).exec s).2.exchanges = s.exchanges ∨
      ∃ x : Exchange, x.event = e ∧
        ((graphicsSupervisorRequest env e f).exec s).2.exchanges = s.exchanges ++ [x] ∧
        ∀ a, ((graphicsSupervisorRequest env e f).exec s).1 = some a → x.answer = some a) := by
  simp only [graphicsSupervisorRequest, exec_step]
  split
  · exact ⟨le_refl _, .inl rfl⟩
  · split
    · exact ⟨Nat.le_succ _, .inl rfl⟩
    · generalize env.service.exchange s.clock s.policy s.session.session
        (s.session.sequence + 1) e f = out
      obtain ⟨answer, policy⟩ := out
      rcases answer with _ | a
      · exact ⟨Nat.le_succ _, .inr ⟨_, rfl, rfl, by simp⟩⟩
      · cases a with
        | reject => exact ⟨Nat.le_succ _, .inr ⟨_, rfl, rfl, by simp⟩⟩
        | _ =>
          dsimp only
          split
          · exact ⟨Nat.le_add_right _ 2, .inr ⟨_, rfl, rfl, fun _ h => h⟩⟩
          · exact ⟨Nat.le_add_right _ 2, .inr ⟨_, rfl, rfl, by simp⟩⟩

/-- What one more exchange means for the ones after the first `n`. -/
theorem NoKeep.snoc {k k' : Control} (h : NoKeep n k) {x : Exchange}
    (hx : x.event = .observe → x.answer ≠ some .keep) (hk : k'.exchanges = k.exchanges ++ [x]) :
    NoKeep n k' := by
  rw [NoKeep, hk, List.drop_append]
  refine List.forall_mem_append.mpr ⟨h, fun y hy => ?_⟩
  rw [List.mem_singleton.mp (List.mem_of_mem_drop hy)]
  exact hx

theorem NoKeep.same {k k' : Control} (h : NoKeep n k) (hk : k'.exchanges = k.exchanges) :
    NoKeep n k' := by
  rw [NoKeep, hk]
  exact h

/-- Only an observation can be kept. -/
theorem request_noKeep (n : Nat) {e : PolicyEvent} (f : PolicyFacts) (he : e ≠ .observe) :
    Keeps (fun s => NoKeep n s.control) (graphicsSupervisorRequest env e f) := by
  intro s hs
  rcases (request_exchanges env e f s).2 with hsame | ⟨x, hx, hsnoc, -⟩
  · exact hs.same hsame
  · exact hs.snoc (fun h => absurd (hx.symm.trans h) he) hsnoc

/-- `failed` closes the stage in every environment. -/
theorem failed_closed :
    Ensures (fun _ => True) (failed env) (fun _ s => s.stage = .closed) lost :=
  failed_walk (f := NativeState.control) (fun _ => True) (fun k => k.stage = .closed)
    (fun _ _ => trivial) (fun _ _ => rfl) fun s hs => (policyClose_stage env s).trans hs

/-- What an untrusted poll leaves behind: the stage is closed, nothing was kept, or its writer was
seen running and answered its ping. -/
def KeptFor (env : NativeEnv) (n start : Nat) (writer : NativeRole) (s : NativeState) : Prop :=
  s.stage ≠ .closed → NoKeep n s.control ∨
    (Seen env start (.running writer) s ∧ Seen env start (.ping writer) s)

theorem failed_keptFor (n start : Nat) (writer : NativeRole) :
    Ensures (fun _ => True) (failed env) (fun _ s => KeptFor env n start writer s) lost :=
  failed_closed.to_post fun _ _ h hne => absurd h hne

/-- A recovery that succeeds asks for no observation. -/
theorem recoverSteps_noKeep (n : Nat) (induce : Bool) :
    EnsuresOn NativeState.control (NoKeep n) (recoverSteps env induce) (NoKeep n) fun _ => True := by
  let P : Control → Prop := NoKeep n
  have hP : ∀ s : NativeState, P s.control → True := fun _ _ => trivial
  exact recoverSteps_walk P P P P P (fun _ => True) hP (fun _ h _ => h) hP hP hP
    ((armRecovery_framed env).ensures P hP) (fun plan => (execute_framed env _ plan).ensures P hP)
    (fun _ h => h) (.of_keeps (request_noKeep n {} nofun) hP) hP

theorem recoverNative_keptFor (n start : Nat) (writer : NativeRole) (induce : Bool) :
    Ensures (fun s => NoKeep n s.control) (recoverNative env induce)
      (fun _ s => KeptFor env n start writer s) lost :=
  ((recoverSteps_noKeep n induce).to_post fun _ _ h _ => .inl h).otherwise
    (failed_keptFor n start writer)

/-! ### The poll -/

theorem Seen.later {c : NativeCall} (h : Seen env start c s) (hc : s.clock ≤ s'.clock) :
    Seen env start c s' := by
  obtain ⟨t, h1, h2, h3⟩ := h
  exact ⟨t, h1, h2.trans_le hc, h3⟩

/-- Everything a view says was seen in the poll. -/
structure PollView.Backed (env : NativeEnv) (start : Nat) (v : PollView) (s : NativeState) :
    Prop where
  primary : v.primary = true → Seen env start (.running .primary) s
  rescue : v.rescue = true → Seen env start (.running .rescue) s
  primaryPong : v.primaryPong = true → Seen env start (.ping .primary) s
  rescuePong : v.rescuePong = true → Seen env start (.ping .rescue) s

/-- A view that passes the check of a `KEEP` shows the writer of the stage at work. -/
theorem PollView.Backed.writer (h : v.Backed env start s)
    (ha : v.stage = .primary ∨ v.stage = .rescue) (hp : v.probed = v.healthy) (hr : v.Retained) :
    Seen env start (.running v.stage.writer) s ∧ Seen env start (.ping v.stage.writer) s := by
  obtain ⟨hh, hno⟩ := hr
  have hprobed : v.probed = true := hp.trans hh
  simp only [hprobed, true_and, not_or, not_and, Bool.not_eq_false] at hno
  simp only [PollView.healthy, Bool.and_eq_true, Bool.or_eq_true] at hh
  rcases ha with hs | hs
  · rw [hs] at hh ⊢
    exact ⟨h.primary (hh.2.resolve_left nofun), h.primaryPong (hno.2 hs)⟩
  · rw [hs]
    exact ⟨h.rescue hh.1, h.rescuePong hno.1⟩

/-- Whatever the policy answers to the observation. -/
theorem pollDecide_keptFor (ha : v.stage = .primary ∨ v.stage = .rescue)
    (hp : v.probed = v.healthy) :
    Ensures (fun s => NoKeep n s.control ∧ v.Backed env start s) (pollDecide env v)
      (fun _ s => KeptFor env n start v.stage.writer s) lost := by
  intro s hs
  obtain ⟨hno, hback⟩ := hs
  obtain ⟨hclock, hlog⟩ := request_exchanges env .observe v.facts s
  unfold pollDecide
  rw [exec_bind_some (exec_attempt _ s)]
  generalize (graphicsSupervisorRequest env .observe v.facts).exec s = out at hclock hlog
  obtain ⟨answer, s'⟩ := out
  -- without a `KEEP` nothing was kept
  have hother : ∀ a, answer = some a → a ≠ .keep → NoKeep n s'.control := by
    intro a h1 hne
    rcases hlog with hsame | ⟨x, -, hsnoc, hans⟩
    · exact hno.same hsame
    · refine hno.snoc (fun _ hk => hne ?_) hsnoc
      rw [hans a h1] at hk
      exact Option.some.inj hk
  have hacted : ∀ a, answer = some a → a ≠ .keep →
      Outcome (fun _ s => KeptFor env n start v.stage.writer s) lost
        ((if a = .recover ∧ v.Recoverable then do
            update fun s => { s with recoveryAuthorized := true }
            recoverNative env false
          else do
            update fun s => { s with refusedAction := s.refusedAction || a != .headless }
            failed env : Attempt NativeState Unit).exec s') := by
    intro a h1 hne
    split
    · exact recoverNative_keptFor n start _ false _ (hother a h1 hne)
    · exact failed_keptFor n start _ _ trivial
  rcases answer with _ | a
  · exact failed_keptFor n start _ s' trivial
  · cases a with
    | keep =>
      dsimp only
      split
      · next hret =>
        intro _
        obtain ⟨h1, h2⟩ := hback.writer ha hp hret
        exact .inr ⟨h1.later hclock, h2.later hclock⟩
      · exact failed_keptFor n start _ s' trivial
    | accept | recover | headless | reject => exact hacted _ rfl nofun

/-- A call that was made was seen, if it said yes. -/
theorem asked_seen (c : NativeCall) (h : start ≤ s.clock) (hy : env.yes s.clock c = true) :
    Seen env start c s.later :=
  ⟨s.clock, h, Nat.lt_succ_self _, hy⟩

theorem PollView.Backed.later (h : v.Backed env start s) (hc : s.clock ≤ s'.clock) :
    v.Backed env start s' :=
  ⟨fun e => (h.primary e).later hc, fun e => (h.rescue e).later hc,
    fun e => (h.primaryPong e).later hc, fun e => (h.rescuePong e).later hc⟩

/-- The ping of the primary driver: what it says was seen, and the rest is as before. -/
theorem pingPrimary_seen :
    Ensures (fun s => NoKeep n s.control ∧ v.Backed env start s ∧ start ≤ s.clock)
      (pingPrimary env stage)
      (fun pp s => (pp = true → Seen env start (.ping .primary) s) ∧
        NoKeep n s.control ∧ v.Backed env start s ∧ start ≤ s.clock) lost := by
  unfold pingPrimary
  split
  · intro s hs
    obtain ⟨h1, h2, h3⟩ := hs
    exact ⟨fun hy => asked_seen _ h3 hy, h1, h2.later (Nat.le_succ _), h3.trans (Nat.le_succ _)⟩
  · exact .pure fun _ hs => ⟨nofun, hs⟩

theorem pollProbe_keptFor (ha : v.stage = .primary ∨ v.stage = .rescue) (hh : v.healthy = true) :
    Ensures (fun s => NoKeep n s.control ∧ v.Backed env start s ∧ start ≤ s.clock)
      (pollProbe env v) (fun _ s => KeptFor env n start v.stage.writer s) lost := by
  refine .look_any fun s0 => ?_
  split
  · exact (failed_keptFor n start _).of_pre fun _ _ => trivial
  · refine .bind pingPrimary_seen fun pp => .look_any fun _ => ?_
    split
    · exact (failed_keptFor n start _).of_pre fun _ _ => trivial
    · intro s hs
      obtain ⟨hpp, hno, hback, hstart⟩ := hs
      let s1 : NativeState := { s with challenge := s.challenge + 1 }
      let rp := env.yes s1.clock (.ping .rescue)
      have hle : s.clock ≤ s1.later.clock := Nat.le_succ _
      have hv : PollView.Backed env start
          { v with probed := true, primaryPong := pp, rescuePong := rp } s1.later :=
        ⟨fun e => (hback.primary e).later hle, fun e => (hback.rescue e).later hle,
          fun e => (hpp e).later hle, fun e => asked_seen _ hstart e⟩
      exact pollDecide_keptFor (v := { v with probed := true, primaryPong := pp, rescuePong := rp })
        ha hh.symm s1.later ⟨hno, hv⟩

theorem pollDrivers_keptFor (ha : stage = .primary ∨ stage = .rescue) :
    Ensures (fun s => NoKeep n s.control ∧ start ≤ s.clock) (pollDrivers env stage)
      (fun _ s => KeptFor env n start stage.writer s) lost := by
  intro s hs
  obtain ⟨hno, hstart⟩ := hs
  unfold pollDrivers
  let p := env.yes s.clock (.running .primary)
  let r := env.yes s.later.clock (.running .rescue)
  have hp : (asked env (.running .primary)).exec s = (some p, s.later) := rfl
  have hr : (asked env (.running .rescue)).exec s.later = (some r, s.later.later) := rfl
  rw [exec_bind_some hp, exec_bind_some hr, exec_bind_some (exec_look _ _)]
  have hback : PollView.Backed env start
      { stage, primary := stage == .primary && p, rescue := r } s.later.later := by
    refine ⟨fun h => ?_, fun h => ?_, nofun, nofun⟩
    · have hy : p = true := (Bool.and_eq_true _ _ ▸ h).2
      exact (asked_seen _ hstart hy).later (Nat.le_succ _)
    · exact asked_seen _ (hstart.trans (Nat.le_succ _)) h
  have hstart' : start ≤ s.later.later.clock := hstart.trans (Nat.le_add_right _ 2)
  dsimp only
  split
  · next hh =>
    split
    · exact fun _ => .inl hno
    · exact pollProbe_keptFor ha hh _ ⟨hno, hback.later (le_refl _), hstart'⟩
  · next hh =>
    exact pollDecide_keptFor ha (Bool.eq_false_of_not_eq_true hh).symm _ ⟨hno, hback⟩

/-- In every environment a poll that kept its stage saw the writer at work. -/
theorem polarisNativePoll_keeps_writer (env : NativeEnv) (s : NativeState)
    (ha : s.stage = .primary ∨ s.stage = .rescue) :
    KeptFor env s.exchanges.length s.clock s.stage.writer ((polarisNativePoll env).exec s).2 := by
  have hno : NoKeep s.exchanges.length s.control := by
    intro x hx
    have hnil : s.control.exchanges.drop s.exchanges.length = [] := List.drop_length
    rw [hnil] at hx
    exact absurd hx List.not_mem_nil
  unfold polarisNativePoll
  rw [exec_bind_some (exec_look _ _)]
  have hstage : ¬ ((id s).stage ≠ .primary ∧ (id s).stage ≠ .rescue) := by
    rcases ha with h | h <;> simp [h]
  rw [if_neg hstage]
  split
  · exact outcome_same.mp (failed_keptFor _ _ _ s trivial)
  · let b := env.yes s.clock .timerReady
    have hb : (asked env .timerReady).exec s = (some b, s.later) := rfl
    rw [exec_bind_some hb]
    split
    · exact outcome_same.mp (failed_keptFor _ _ _ s.later trivial)
    · exact outcome_same.mp (pollDrivers_keptFor ha s.later ⟨hno, Nat.le_succ _⟩)

/-! ## The lockstep -/

/-- Nothing was attempted yet, and the policy has no session open that is newer than the
kernel's. -/
def NativeState.Startable (s : NativeState) : Prop :=
  Fresh s.control ∧ s.attempted = false ∧ s.stage = .idle

/-- What holds of everything the controller and the policy have said to each other. -/
structure Lockstep (s : NativeState) : Prop where
  /-- Session and sequence numbers are equal after every exchange. -/
  agrees : ∀ x ∈ s.exchanges, x.policy.session = x.session ∧ x.policy.sequence = x.sequence
  /-- No request is rejected. -/
  answered : ∀ x ∈ s.exchanges, ∃ a, x.answer = some a ∧ a ≠ .reject
  /-- The kernel never refuses a decision. -/
  unrefused : s.refusedAction = false
  /-- A session recovers once. -/
  once : ∀ n, s.exchanges.countP (fun x => x.session = n ∧ x.answer = some .recover) ≤ 1
  /-- An observation leads to recovery only with a rescue driver that is live and has answered. -/
  granted : ∀ x ∈ s.exchanges, x.answer = some .recover → x.Granted
  /-- A request for rescue always does, whatever has become of the rescue driver. -/
  rescued : ∀ x ∈ s.exchanges, x.event = .requestRescue → x.answer = some .recover
  /-- After `HEADLESS` or `CLOSE` there is at most one `CLOSE`. -/
  ending : EndsOnce s.exchanges

theorem Book.lockstep (h : Book s.control) : Lockstep s := by
  refine ⟨h.agrees, h.answered, h.unrefused, fun n => ?_, h.granted, h.rescued, h.ending⟩
  refine le_trans (List.countP_mono_left fun x _ hx => ?_) h.once
  simp only [decide_eq_true_eq] at hx ⊢
  exact hx.2

/-- With the genuine policy the two stay in lockstep over every run; with any policy, a poll that
kept its stage saw the writer running and got the answer to its ping. -/
theorem polaris_policy_lockstep :
    (∀ (env : NativeEnv) (s : NativeState) (os : List NativeOp), env.Alive → s.Startable →
      Lockstep (nativeRun env s os)) ∧
    (∀ (env : NativeEnv) (s s' : NativeState), s.stage = .primary ∨ s.stage = .rescue →
      s' = ((polarisNativePoll env).exec s).2 →
      (∃ x ∈ s'.exchanges.drop s.exchanges.length,
        x.event = .observe ∧ x.answer = some .keep) →
      s'.stage ≠ .closed →
      Seen env s.clock (.running s.stage.writer) s' ∧
        Seen env s.clock (.ping s.stage.writer) s') := by
  refine ⟨?_, ?_⟩
  · intro env s os hal hstart
    obtain ⟨hfresh, hatt, hst⟩ := hstart
    exact (nativeRun_rest hal (.fresh hfresh hatt hst) os).book.lockstep
  · intro env s s' ha hs' hkept hopen
    subst hs'
    obtain ⟨x, hx, hev, hans⟩ := hkept
    rcases polarisNativePoll_keeps_writer env s ha hopen with hno | hseen
    · exact absurd hans (hno x hx hev)
    · exact hseen

/-! ### A run in which the rescue driver is gone -/

/-- A driver that sends what the gate expects. -/
def willingDriver (w : GateRun) : BrokerMessage :=
  if w.gate.result.complete then .reply 10 (w.gate.result.frameDelta.setWidth 64)
  else .request (rebindTag (w.gate.sequence + 1) w.gate.expected.1.code w.gate.expected.2)
    (if w.gate.state = .high then 0xF4 else 0)

/-- Everything works, but the rescue driver is gone from the moment `gone` on. -/
def standbyGone (gone : Nat) : NativeEnv where
  yes t c :=
    match c with
    | .running .rescue => decide (t < gone)
    | .ping .rescue => decide (t < gone)
    | _ => true
  tick t := BitVec.ofNat 64 (100 * t)
  frequency _ := 100
  lease _ := .kernel
  view t := {
    held := true, activeHolds := 1, dmaGate := false, scanoutRetired := true, writersIdle := true
    kernelContext := true, lease := .kernel
    assignment := if t < gone then .assigned else .quarantined }
  supervisor _ := { running := true, idle := true, processId := 1, threadId := 2 }
  service := .genuine
  plan t r := if r = .rescue ∧ gone ≤ t then none else some samplePlan
  receive _ w := some (willingDriver w)
  register _ ops f := steadyDevice.read ops f

theorem standbyGone_alive (gone : Nat) : (standbyGone gone).Alive :=
  ⟨rfl, 1, 2, nofun, nofun, fun _ => ⟨rfl, rfl, rfl⟩⟩

theorem NativeState.startable_boot : ({} : NativeState).Startable :=
  ⟨⟨rfl, rfl, rfl, rfl, .inl rfl, le_refl _⟩, rfl, rfl⟩

/-- The rescue driver is gone right after the beginning. The operator asks for rescue, and the
policy, which is told nothing about the drivers then, answers `RECOVER`. -/
theorem policy_recovers_without_standby :
    (standbyGone 62).Alive ∧ ({} : NativeState).Startable ∧
    (nativeRun (standbyGone 62) {} [.begin]).stage = .primary ∧
    ∃ x ∈ (nativeRun (standbyGone 62) {} [.begin, .rescue]).exchanges,
      x.event = .requestRescue ∧ x.answer = some .recover ∧ x.rescueRunning = false :=
  ⟨standbyGone_alive 62, NativeState.startable_boot, by decide +kernel, by decide +kernel⟩

/-- The same run is in lockstep, and a poll of the primary stage is kept with its writer seen. -/
theorem polaris_policy_lockstep_standby :
    Lockstep (nativeRun (standbyGone 62) {} [.begin, .rescue, .abort]) ∧
    Seen (standbyGone 1000) (nativeRun (standbyGone 1000) {} [.begin]).clock
      (.ping (nativeRun (standbyGone 1000) {} [.begin]).stage.writer)
      ((polarisNativePoll (standbyGone 1000)).exec
        (nativeRun (standbyGone 1000) {} [.begin])).2 :=
  ⟨polaris_policy_lockstep.1 (standbyGone 62) {} [.begin, .rescue, .abort] (standbyGone_alive 62)
      NativeState.startable_boot,
    (polaris_policy_lockstep.2 (standbyGone 1000) (nativeRun (standbyGone 1000) {} [.begin]) _
      (.inl (by decide +kernel)) rfl (by decide +kernel) (by decide +kernel)).2⟩

end JcosKernel.Polaris
