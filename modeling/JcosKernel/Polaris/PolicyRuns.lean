import JcosKernel.Polaris.Station

/-!
# JcosKernel.Polaris.PolicyRuns

**The controller and the policy stay in step.** With the genuine policy behind a supervisor that
stays alive, every request is answered, the two ledgers agree after each of them, and the kernel
never has to refuse a decision.

* `Paired` ties the session of the kernel to the ledger of the policy; `Book` says what the record
  of the exchanges looks like. A request extends both (`request_spec`, `Book.exchanged`).
* `Tied`, `Doomed` and `Rest` say where the controller stands: in a stage of the policy, on its way
  down, or between two operations. Every operation leads from `Rest` to `Rest`.
-/

namespace JcosKernel.Polaris

open Lib Lib.Attempt

/-- The supervisor runs the genuine policy and stays alive, with one identity. -/
structure NativeEnv.Alive (env : NativeEnv) : Prop where
  genuine : env.service = .genuine
  identity : ∃ pid tid, pid ≠ 0 ∧ tid ≠ 0 ∧ ∀ t, (env.supervisor t).running = true ∧
    (env.supervisor t).processId = pid ∧ (env.supervisor t).threadId = tid

/-! ## The record of the exchanges -/

/-- A `RECOVER` answers a request for rescue, or an observation of a rescue driver that is live
and has answered its ping, if there was one. -/
def Exchange.Granted (x : Exchange) : Prop :=
  x.event = .requestRescue ∨
    (x.event = .observe ∧ x.facts.rescueLive = true ∧
      (x.facts.probed = true → x.facts.rescuePong = true))

/-- An exchange after which the session is over for the policy. -/
def Exchange.Ends (x : Exchange) : Prop := x.answer = some .headless ∨ x.event = .close

/-- After the end there is at most one `CLOSE`. -/
def EndsOnce (xs : List Exchange) : Prop :=
  ∀ before x after, xs = before ++ x :: after → x.Ends →
    after.length ≤ 1 ∧ ∀ y ∈ after, y.event = .close

/-- What the record looks like in every state. -/
structure Book (k : Control) : Prop where
  agrees : ∀ x ∈ k.exchanges, x.policy.session = x.session ∧ x.policy.sequence = x.sequence
  answered : ∀ x ∈ k.exchanges, ∃ a, x.answer = some a ∧ a ≠ .reject
  granted : ∀ x ∈ k.exchanges, x.answer = some .recover → x.Granted
  once : k.exchanges.countP (fun x => x.answer = some .recover) ≤ 1
  closes : ∀ x ∈ k.exchanges, x.event = .close → x.answer = some .headless
  /-- Before a recovery none was answered. -/
  fresh : k.policy.stage = .armed ∨ k.policy.stage = .primary →
    ∀ x ∈ k.exchanges, x.answer ≠ some .recover
  /-- An open policy has not ended. -/
  running : k.policy.stage ≠ .closed → ∀ x ∈ k.exchanges, ¬ x.Ends
  unclosed : k.policyClosed = false → ∀ x ∈ k.exchanges, x.event ≠ .close
  ending : EndsOnce k.exchanges
  unrefused : k.refusedAction = false
  rescued : ∀ x ∈ k.exchanges, x.event = .requestRescue → x.answer = some .recover

variable {a : PolicyAction} {e : PolicyEvent} {f : PolicyFacts} {next stage : PolicyStage}
  {s : NativeState} {k k' : Control} {xs : List Exchange}

/-- One more exchange: what ended before it was the last one, and it is a `CLOSE`. -/
theorem EndsOnce.snoc {y : Exchange}
    (h : ∀ before x after, xs = before ++ x :: after → x.Ends → after = [] ∧ y.event = .close) :
    EndsOnce (xs ++ [y]) := by
  intro before x after he hx
  rcases List.eq_nil_or_concat after with rfl | ⟨init, z, rfl⟩
  · exact ⟨Nat.zero_le _, fun _ hm => absurd hm List.not_mem_nil⟩
  · rw [List.concat_eq_append, ← List.cons_append, ← List.append_assoc] at he
    obtain ⟨hxs, hz⟩ := List.append_inj' he rfl
    obtain ⟨rfl, hy⟩ := h before x init hxs hx
    cases hz
    exact ⟨le_refl _, fun w hw => by rw [List.mem_singleton.mp hw]; exact hy⟩

theorem EndsOnce.snoc_first (h : ∀ x ∈ xs, ¬ x.Ends) (y : Exchange) : EndsOnce (xs ++ [y]) :=
  .snoc fun _ x _ hxs hx => absurd hx (h x (hxs ▸ List.mem_append_right _ List.mem_cons_self))

theorem EndsOnce.snoc_close (h : EndsOnce xs) (hopen : ∀ x ∈ xs, x.event ≠ .close) {y : Exchange}
    (hy : y.event = .close) : EndsOnce (xs ++ [y]) := by
  refine .snoc fun before x after hxs hx => ⟨?_, hy⟩
  -- what followed so far would be a `CLOSE`, and there was none
  refine List.eq_nil_iff_forall_not_mem.mpr fun w hw => ?_
  exact hopen w (hxs ▸ List.mem_append_right _ (List.mem_cons_of_mem _ hw))
    ((h before x after hxs hx).2 w hw)

/-! ## A request -/

/-- The session of the kernel and the ledger of the policy agree, and the supervisor serves. -/
structure Paired (env : NativeEnv) (k : Control) : Prop where
  opened : k.session.session ≠ 0
  begun : k.policy.stage ≠ .idle
  sameSession : k.policy.session = k.session.session
  sameSequence : k.policy.sequence = k.session.sequence
  served : ∀ t, (env.supervisor t).Serves k.session

namespace Control

/-- The session is given up. -/
def lost (k : Control) : Control := { k with session := { k.session with failed := true } }

/-- The control part after an answer that left the policy with a given ledger. -/
def answered (k : Control) (e : PolicyEvent) (f : PolicyFacts) (a : PolicyAction)
    (policy : GraphicsPolicy) (rescueRunning : Bool) : Control :=
  { k with
    session := { k.session with sequence := k.session.sequence + 1 }
    policy
    exchanges := k.exchanges ++ [{
      session := k.session.session, sequence := k.session.sequence + 1, event := e, facts := f
      answer := some a, policy, rescueRunning }] }

/-- The control part after an exchange within the session. -/
def exchanged (k : Control) (e : PolicyEvent) (f : PolicyFacts) (a : PolicyAction)
    (next : PolicyStage) (rescueRunning : Bool) : Control :=
  k.answered e f a
    { session := k.policy.session, sequence := k.session.sequence + 1, stage := next } rescueRunning

end Control

variable {env : NativeEnv}

theorem Paired.lost (h : Paired env k) : Paired env k.lost := { h with }

theorem Paired.exchanged (h : Paired env k) (e : PolicyEvent) (f : PolicyFacts) (a : PolicyAction)
    (hn : next ≠ .idle) (r : Bool) :
    Paired env (k.exchanged e f a next r) :=
  { h with begun := hn, sameSequence := rfl }

theorem Book.lost (h : Book k) : Book k.lost := { h with }

/-- What holds of all exchanges so far and of the new one holds of all afterwards. -/
theorem Control.exchanged_forall {r : Bool} {P : Exchange → Prop} (h : ∀ x ∈ k.exchanges, P x)
    (hnew : ∀ x : Exchange, x.event = e → x.facts = f → x.answer = some a →
      x.session = k.session.session → x.policy.session = k.policy.session →
      x.policy.sequence = x.sequence → P x) :
    ∀ x ∈ (k.exchanged e f a next r).exchanges, P x :=
  List.forall_mem_append.mpr
    ⟨h, List.forall_mem_singleton.mpr (hnew _ rfl rfl rfl rfl rfl rfl)⟩

/-- What an observation that is not rejected leads to. -/
theorem observed_cases (h : (observed stage f).1 ≠ .reject) :
    observed stage f = (.headless, .closed) ∨ observed stage f = (.keep, stage) ∨
      (observed stage f = (.recover, .recovering) ∧ stage = .primary ∧ f.rescueLive = true ∧
        (f.probed = true → f.rescuePong = true)) := by
  unfold observed at h ⊢
  split at h
  · exact absurd rfl h
  · split at h
    · exact absurd rfl h
    · rw [if_neg ‹_›, if_neg ‹_›]
      split
      · exact .inl rfl
      · next hlive =>
        simp only [not_or, not_not, not_and] at hlive
        split
        · next hdead => exact .inr (.inr ⟨rfl, hdead.1, hlive.1, hlive.2⟩)
        · exact .inr (.inl rfl)

/-- What the record needs to know about a decision of the policy. -/
structure Decided (stage : PolicyStage) (e : PolicyEvent) (f : PolicyFacts) (a : PolicyAction)
    (next : PolicyStage) : Prop where
  wasOpen : stage ≠ .closed
  begun : next ≠ .idle
  recovers : a = .recover → stage = .primary ∧
    (e = .requestRescue ∨ (e = .observe ∧ f.rescueLive = true ∧
      (f.probed = true → f.rescuePong = true)))
  fresh : next = .armed ∨ next = .primary → a ≠ .recover ∧ (stage = .armed ∨ stage = .primary)
  goesOn : next ≠ .closed → a ≠ .headless
  rescued : e = .requestRescue → a = .recover

/-- The policy's table, as far as the record depends on it. -/
theorem PolicyStage.next_decided (h : stage.next e f = (a, next)) (ha : a ≠ .reject)
    (he : e ≠ .close) :
    Decided stage e f a next := by
  have hobserve : ∀ st, (st = .primary ∨ st = .rescue) → observed st f = (a, next) →
      Decided st .observe f a next := by
    intro st hst hobs
    have hne : (observed st f).1 ≠ .reject := by
      rw [hobs]
      exact ha
    rcases observed_cases hne with hc | hc | ⟨hc, hp, hlive, hpong⟩
    · cases hobs.symm.trans hc
      rcases hst with rfl | rfl <;> exact ⟨nofun, nofun, nofun, by simp, by simp, nofun⟩
    · cases hobs.symm.trans hc
      rcases hst with rfl | rfl <;> exact ⟨nofun, nofun, nofun, by simp, by simp, nofun⟩
    · cases hobs.symm.trans hc
      subst hp
      exact ⟨nofun, nofun, fun _ => ⟨rfl, .inr ⟨rfl, hlive, hpong⟩⟩, by simp, by simp, nofun⟩
  cases e with
  | close => exact absurd rfl he
  | observe =>
    cases stage with
    | primary => exact hobserve _ (.inl rfl) h
    | rescue => exact hobserve _ (.inr rfl) h
    | _ =>
      cases h
      exact absurd rfl ha
  | _ =>
    cases stage <;> cases h <;>
      first
      | exact absurd rfl ha
      | exact ⟨nofun, nofun, by simp, by simp, by simp, by simp⟩

theorem Book.exchanged (h : Book k) (hin : Paired env k) (r : Bool)
    (hn : k.policy.stage.next e f = (a, next)) (ha : a ≠ .reject) (he : e ≠ .close) :
    Book (k.exchanged e f a next r) := by
  obtain ⟨hopen, -, hrec, hfresh, hhead, hresc⟩ := PolicyStage.next_decided hn ha he
  refine ⟨?_, ?_, ?_, ?_, ?_, ?_, ?_, ?_, ?_, h.unrefused, ?_⟩
  · exact Control.exchanged_forall h.agrees fun x _ _ _ hs hp hq =>
      ⟨by rw [hp, hs, hin.sameSession], hq⟩
  · exact Control.exchanged_forall h.answered fun x _ _ hx _ _ _ => ⟨a, hx, ha⟩
  · refine Control.exchanged_forall h.granted fun x hx hf hax _ _ _ hr => ?_
    rw [hax] at hr
    have hg := (hrec (Option.some.inj hr)).2
    rw [← hx, ← hf] at hg
    exact hg
  · change (k.exchanges ++ [_]).countP _ ≤ 1
    rw [List.countP_append]
    by_cases hr : a = .recover
    · -- the first recovery: none was answered in the primary stage
      have hzero : k.exchanges.countP (fun x => x.answer = some .recover) = 0 := by
        rw [List.countP_eq_zero]
        intro x hx
        simpa using h.fresh (.inr (hrec hr).1) x hx
      rw [hzero, Nat.zero_add]
      exact List.countP_le_length
    · have hnot : ¬ some a = some PolicyAction.recover := fun h' => hr (Option.some.inj h')
      simpa [hnot] using h.once
  · exact Control.exchanged_forall h.closes fun x hx _ _ _ _ _ hc => absurd (hx.symm.trans hc) he
  · intro hst
    obtain ⟨hne, hold⟩ := hfresh hst
    exact Control.exchanged_forall (h.fresh hold) fun x _ _ hx _ _ _ hr =>
      hne (Option.some.inj (hx.symm.trans hr))
  · intro hst
    refine Control.exchanged_forall (h.running hopen) fun x hx _ hax _ _ _ hend => ?_
    cases hend with
    | inl hh => exact hhead hst (Option.some.inj (hax.symm.trans hh))
    | inr hc => exact he (hx.symm.trans hc)
  · intro hcl
    exact Control.exchanged_forall (h.unclosed hcl) fun x hx _ _ _ _ _ hc => he (hx.symm.trans hc)
  · exact EndsOnce.snoc_first (h.running hopen) _
  · exact Control.exchanged_forall h.rescued fun x hx _ hax _ _ _ hr =>
      hax.trans (congrArg some (hresc (hx.symm.trans hr)))

/-- The first `CLOSE` of the session. -/
theorem Book.closed (h : Book k) (hin : Paired env k) (hcl : k.policyClosed = false) (r : Bool) :
    Book ({ k with policyClosed := true }.exchanged .close {} .headless .closed r) := by
  refine ⟨?_, ?_, ?_, ?_, ?_, ?_, ?_, ?_, ?_, h.unrefused, ?_⟩
  · exact Control.exchanged_forall h.agrees fun x _ _ _ hs hp hq =>
      ⟨by rw [hp, hs]; exact hin.sameSession, hq⟩
  · exact Control.exchanged_forall h.answered fun x _ _ hx _ _ _ => ⟨_, hx, nofun⟩
  · exact Control.exchanged_forall h.granted fun x _ _ hx _ _ _ hr =>
      nomatch hx.symm.trans hr
  · change (k.exchanges ++ [_]).countP _ ≤ 1
    simpa using h.once
  · exact Control.exchanged_forall h.closes fun x _ _ hx _ _ _ _ => hx
  · intro hst
    rcases hst with hst | hst <;> cases hst
  · exact fun hst => absurd rfl hst
  · exact fun hst => nomatch hst
  · exact h.ending.snoc_close (h.unclosed hcl) rfl
  · exact Control.exchanged_forall h.rescued fun x hx _ _ _ _ _ hr => nomatch hx.symm.trans hr

/-- A request is lost for want of numbers, or it gets the answer of the service. -/
theorem request_answered {p : GraphicsPolicy} (hses : s.session.session ≠ 0)
    (hserve : ∀ t, (env.supervisor t).Serves s.session)
    (hx : s.session.sequence ≠ maxU64 → env.service.exchange s.clock s.policy s.session.session
      (s.session.sequence + 1) e f = (some a, p))
    (ha : a ≠ .reject) :
    ((s.session.failed = true ∨ s.session.sequence = maxU64) ∧
      ((graphicsSupervisorRequest env e f).exec s).1 = none ∧
      ((graphicsSupervisorRequest env e f).exec s).2.control = s.control.lost) ∨
    ∃ r, ((graphicsSupervisorRequest env e f).exec s).1 = some a ∧
      ((graphicsSupervisorRequest env e f).exec s).2.control = s.control.answered e f a p r := by
  simp only [graphicsSupervisorRequest, exec_step]
  by_cases hfail : s.session.failed = true
  · left
    rw [if_pos (.inl hfail)]
    refine ⟨.inl hfail, rfl, ?_⟩
    simp only [Control.lost, NativeState.control, ← hfail]
  · rw [if_neg (by simp [hfail, hses])]
    by_cases hmax : s.session.sequence = maxU64
    · left
      rw [if_pos (.inr hmax)]
      exact ⟨.inr hmax, rfl, rfl⟩
    · right
      rw [if_neg (by simp [hserve s.clock, hmax])]
      simp only [hx hmax]
      refine ⟨env.yes s.clock (.running .rescue), ?_⟩
      obtain ⟨-, hpid, htid⟩ := hserve s.later.clock
      cases a with
      | reject => exact absurd rfl ha
      | _ =>
        rw [if_pos ⟨hpid, htid⟩]
        exact ⟨rfl, rfl⟩

/-- A request of a session in step is lost for want of numbers, or the policy answers it. -/
theorem request_spec (hal : env.Alive) (hin : Paired env s.control) (hb : e ≠ .begin)
    (hf : e ≠ .observe → f = {}) (hn : s.policy.stage.next e f = (a, next)) (ha : a ≠ .reject) :
    (((graphicsSupervisorRequest env e f).exec s).1 = none ∧
      ((graphicsSupervisorRequest env e f).exec s).2.control = s.control.lost) ∨
    ∃ r, ((graphicsSupervisorRequest env e f).exec s).1 = some a ∧
      ((graphicsSupervisorRequest env e f).exec s).2.control = s.control.exchanged e f a next r := by
  have hses : s.session.session ≠ 0 := hin.opened
  have hsame : s.policy.session = s.session.session := hin.sameSession
  have hseq : s.policy.sequence = s.session.sequence := hin.sameSequence
  have hbegun : s.policy.stage ≠ .idle := hin.begun
  have htake : s.session.sequence ≠ maxU64 → env.service.exchange s.clock s.policy
      s.session.session (s.session.sequence + 1) e f =
      (some a, { session := s.policy.session, sequence := s.session.sequence + 1,
                 stage := next }) := by
    intro hmax
    rw [hal.genuine]
    simp only [PolicyService.exchange, graphicsPolicyDecide_snapshot, GraphicsPolicy.take]
    rw [if_neg (by simp only [hses, Nat.succ_ne_zero, false_or]; exact fun h => h.2 (hf h.1)),
      if_neg hb, if_neg (by simp [hbegun, hsame, hseq, hmax]), hn]
    cases a <;> first | rfl | exact absurd rfl ha
  exact (request_answered hses hin.served htake ha).imp (fun h => h.2) id

/-! ## Where the controller stands -/

/-- The session is open and the policy is in a given stage. -/
structure Tied (env : NativeEnv) (stage : PolicyStage) (k : Control) : Prop where
  book : Book k
  paired : Paired env k
  policy : k.policy.stage = stage
  attempted : k.attempted = true
  unclosed : k.policyClosed = false

/-- A controller that can be stopped: no session, a closed one, or one that is in step. -/
structure Doomed (env : NativeEnv) (k : Control) : Prop where
  book : Book k
  attempted : k.attempted = true
  closable : k.session.session = 0 ∨ k.policyClosed = true ∨ Paired env k

/-- Nothing was attempted, and the policy can take a new session. -/
structure Fresh (k : Control) : Prop where
  session : k.session = {}
  unclosed : k.policyClosed = false
  exchanges : k.exchanges = []
  unrefused : k.refusedAction = false
  ready : k.policy.stage = .idle ∨ k.policy.stage = .closed
  newer : k.policy.session ≤ k.nextSession

/-- Between two operations. -/
inductive Rest (env : NativeEnv) (k : Control) : Prop
  | fresh (h : Fresh k) (ha : k.attempted = false) (hs : k.stage = .idle)
  | primary (h : Tied env .primary k) (hs : k.stage = .primary)
  | rescue (h : Tied env .rescue k) (hs : k.stage = .rescue)
  | closed (h : Doomed env k) (hs : k.stage = .closed)

theorem Fresh.book (h : Fresh k) : Book k := by
  refine ⟨?_, ?_, ?_, ?_, ?_, ?_, ?_, ?_, ?_, h.unrefused, ?_⟩
  all_goals simp only [h.exchanges, List.countP_nil, EndsOnce]
  all_goals simp

theorem Fresh.doomed (h : Fresh k) (ha : k.attempted = true) : Doomed env k :=
  ⟨h.book, ha, .inl (by rw [h.session])⟩

theorem Tied.doomed (h : Tied env stage k) : Doomed env k :=
  ⟨h.book, h.attempted, .inr (.inr h.paired)⟩

/-- The control part with another stage and authorisation of the controller. -/
def Control.restaged (k k' : Control) : Prop :=
  k' = { k with stage := k'.stage, recoveryAuthorized := k'.recoveryAuthorized }

/-- Changing the stage of the controller does not touch the session. -/
theorem Tied.set_stage (h : Tied env stage k) (he : k.restaged k') : Tied env stage k' := by
  rw [he]
  exact { h with book := { h.book with }, paired := { h.paired with } }

theorem Doomed.set_stage (h : Doomed env k) (he : k.restaged k') : Doomed env k' := by
  rw [he]
  exact { h with
    book := { h.book with }
    closable := h.closable.imp_right (.imp_right fun hp => { hp with }) }

theorem Doomed.lost (h : Doomed env k) : Doomed env k.lost :=
  ⟨h.book.lost, h.attempted, h.closable.imp id (.imp id Paired.lost)⟩

/-- A request in a stage of the policy: the answer with the next stage, or a lost session. -/
theorem request_tied (hal : env.Alive) (hb : e ≠ .begin) (hc : e ≠ .close)
    (hf : e ≠ .observe → f = {}) (hn : stage.next e f = (a, next)) (ha : a ≠ .reject)
    (native : NativeStage) :
    Ensures (fun s => Tied env stage s.control ∧ s.control.stage = native)
      (graphicsSupervisorRequest env e f)
      (fun b s => b = a ∧ Tied env next s.control ∧ s.control.stage = native)
      (fun s => Doomed env s.control) := by
  intro s hs
  obtain ⟨ht, hstage⟩ := hs
  have hn' : s.control.policy.stage.next e f = (a, next) := by
    rw [ht.policy]
    exact hn
  rcases he : (graphicsSupervisorRequest env e f).exec s with ⟨b, s'⟩
  have hspec := request_spec hal ht.paired hb hf hn' ha
  rw [he] at hspec
  rcases hspec with ⟨h1, h2⟩ | ⟨r, h1, h2⟩
  · subst h1
    change Doomed env s'.control
    rw [h2]
    exact ht.doomed.lost
  · subst h1
    change a = a ∧ Tied env next s'.control ∧ s'.control.stage = native
    rw [h2]
    refine ⟨rfl, ⟨ht.book.exchanged ht.paired r hn' ha hc, ?_, rfl, ht.attempted, ht.unclosed⟩,
      hstage⟩
    exact ht.paired.exchanged e f a (PolicyStage.next_decided hn ha hc).begun r

/-! ## Stopping -/

theorem request_stage (env : NativeEnv) (e : PolicyEvent) (f : PolicyFacts) :
    Frames NativeState.stage (graphicsSupervisorRequest env e f) := by
  intro s
  simp only [graphicsSupervisorRequest, exec_step]
  repeat' split
  all_goals rfl

theorem requestExpecting_stage (env : NativeEnv) (e : PolicyEvent) (a : PolicyAction) :
    Frames NativeState.stage (requestExpecting env e a) := by
  intro s
  simp only [requestExpecting, exec_step]
  split
  all_goals exact request_stage env e {} s

/-- The expected answer came. -/
theorem requestExpecting_met (h : ((graphicsSupervisorRequest env e {}).exec s).1 = some a) :
    (requestExpecting env e a).exec s =
      (some (), ((graphicsSupervisorRequest env e {}).exec s).2) := by
  simp only [requestExpecting, exec_step, if_pos h]

/-- No answer came. -/
theorem requestExpecting_unmet (h : ((graphicsSupervisorRequest env e {}).exec s).1 = none) :
    ((requestExpecting env e a).exec s).2.control =
      ((graphicsSupervisorRequest env e {}).exec s).2.control.lost := by
  have hne : ¬ ((graphicsSupervisorRequest env e {}).exec s).1 = some a := by simp [h]
  simp only [requestExpecting, exec_step, if_neg hne]
  rfl

theorem policyClose_stage (env : NativeEnv) : Frames NativeState.stage (policyClose env) := by
  intro s
  simp only [policyClose, exec_step]
  split
  · rfl
  · exact requestExpecting_stage env .close .headless { s with policyClosed := true }

theorem policyClose_doomed (hal : env.Alive) :
    Keeps (fun s => Doomed env s.control) (policyClose env) := by
  intro s hs
  simp only [policyClose, exec_step]
  split
  · exact hs
  · next hcond =>
    simp only [not_or, Bool.not_eq_true] at hcond
    obtain ⟨hses, hcl⟩ := hcond
    have hin : Paired env s.control := by
      rcases hs.closable with h | h | h
      · exact absurd h hses
      · exact absurd h (by simp [NativeState.control, hcl])
      · exact h
    have hin' : Paired env { s with policyClosed := true }.control := { hin with }
    -- `CLOSE` is answered in every stage
    have hnext : ∀ st : PolicyStage, st.next .close {} = (.headless, .closed) := by
      intro st
      cases st <;> rfl
    have hbook : ∀ r, Book ({ s with policyClosed := true }.control.exchanged .close {} .headless
        .closed r) := hs.book.closed hin hcl
    have hdown : Doomed env { s with policyClosed := true }.control.lost := by
      refine ⟨?_, hs.attempted, .inr (.inl rfl)⟩
      exact { hs.book with unclosed := nofun }
    rcases request_spec (e := .close) hal hin'
      nofun (fun _ => rfl) (hnext _) nofun with ⟨h1, h2⟩ | ⟨r, h1, h2⟩
    · rw [requestExpecting_unmet h1, h2]
      exact hdown
    · rw [requestExpecting_met h1, h2]
      exact ⟨hbook r, hs.attempted, .inr (.inl rfl)⟩

section Steps

variable {lost : NativeState → Prop}

variable (hal : env.Alive)
include hal

theorem policyClose_down :
    Keeps (fun s => Doomed env s.control ∧ s.control.stage = .closed) (policyClose env) :=
  fun s hs => ⟨policyClose_doomed hal s hs.1, (policyClose_stage env s).trans hs.2⟩

/-- `failed` ends in the closed stage, whatever does not work on the way. -/
theorem failed_rest : EnsuresOn NativeState.control (Doomed env) (failed env) (Rest env) lost :=
  (failed_walk (Doomed env) (fun k => Doomed env k ∧ k.stage = .closed)
    ((stopIo_framed env).keeps (Doomed env))
    (fun _ hs => ⟨hs.set_stage rfl, rfl⟩) (policyClose_down hal)).to_post
      fun _ _ h => .closed h.1 h.2

/-! ## Recovery -/

theorem recoverSteps_rest (induce : Bool) :
    EnsuresOn NativeState.control (Tied env .recovering) (recoverSteps env induce) (Rest env)
      (fun s => Doomed env s.control) := by
  let P : Control → Prop := Tied env .recovering
  have hP : ∀ s : NativeState, P s.control → Doomed env s.control := fun _ h => h.doomed
  refine (recoverSteps_walk P P P (fun k => P k ∧ k.stage = .rescue)
    (fun k => Tied env .rescue k ∧ k.stage = .rescue) (Doomed env) hP
    (fun _ h _ => h.set_stage rfl) hP hP hP
    ((armRecovery_framed env).ensures P hP) (fun plan => (execute_framed env _ plan).ensures P hP)
    (fun _ h => ⟨h.set_stage rfl, rfl⟩) (.to_post (request_tied (e := .rescued) (a := .keep) hal
      nofun nofun (fun _ => rfl) rfl nofun .rescue) fun _ _ h => h.2)
    fun _ h => h.1.doomed).to_post fun _ _ h => ?_
  exact .rescue h.1 h.2

theorem recoverNative_rest (induce : Bool) :
    EnsuresOn NativeState.control (Tied env .recovering) (recoverNative env induce) (Rest env)
      lost :=
  (recoverSteps_rest hal induce).otherwise (failed_rest hal)

/-- With the authorisation recorded, recovery runs to its end. -/
theorem authorized_recovery (induce : Bool) :
    Ensures (fun s => Tied env .recovering s.control)
      (do update fun s : NativeState => { s with recoveryAuthorized := true }
          recoverNative env induce)
      (fun _ s => Rest env s.control) lost :=
  .update_bind (fun s => Tied env .recovering s.control) (fun _ h => h.set_stage rfl)
    (recoverNative_rest hal induce)

theorem rescueGranted_tied :
    Ensures (fun s => Tied env .primary s.control ∧ s.control.stage = .primary)
      (rescueGranted env) (fun _ s => Tied env .recovering s.control)
      (fun s => Doomed env s.control) := by
  refine .bind (request_tied (e := .requestRescue) (a := .recover) hal nofun nofun
    (fun _ => rfl) rfl nofun .primary) fun action => ?_
  exact (Ensures.guard fun s h => h.2.1.doomed).to_post fun _ s h => h.2.2.1

theorem requestRescue_rest (induce : Bool) :
    EnsuresOn NativeState.control (Rest env) (requestRescue env induce) (Rest env) lost := by
  refine requestRescue_walk (fun k => Tied env .primary k ∧ k.stage = .primary)
    (Tied env .recovering) (failed_rest hal) (fun s hr h1 => ?_) (rescueGranted_tied hal)
    (fun _ h => h.set_stage rfl) (recoverNative_rest hal induce)
  have h1' : s.control.stage = .primary := h1
  cases hr with
  | primary h hs => exact ⟨h, hs⟩
  | fresh _ _ hs | rescue _ hs | closed _ hs => exact absurd (h1'.symm.trans hs) nofun

/-! ## The beginning -/

theorem supervisorBegin_tied :
    Ensures (fun s => Fresh s.control ∧ s.control.attempted = true) (graphicsSupervisorBegin env)
      (fun _ s => Tied env .armed s.control) (fun s => Doomed env s.control) := by
  intro s hs
  obtain ⟨hfresh, hatt⟩ := hs
  obtain ⟨pid, tid, hpid, htid, hid⟩ := hal.identity
  have hdown : Doomed env s.later.control := hfresh.doomed hatt
  have hses : s.session = {} := hfresh.session
  simp only [graphicsSupervisorBegin, exec_step]
  split
  · exact hdown
  · rw [if_neg (by simp [(hid s.clock).2.1, (hid s.clock).2.2, hpid, htid])]
    set s1 : NativeState := { s.later with
      nextSession := s.nextSession + 1
      session := { s.session with
        processId := (env.supervisor s.clock).processId
        threadId := (env.supervisor s.clock).threadId
        session := s.nextSession + 1, sequence := 0 } } with hs1
    have hserve : ∀ t, (env.supervisor t).Serves s1.session := fun t =>
      ⟨(hid t).1, (hid t).2.1.trans (hid s.clock).2.1.symm,
        (hid t).2.2.trans (hid s.clock).2.2.symm⟩
    have hready : s.policy.stage = .idle ∨ s.policy.stage = .closed := hfresh.ready
    have hnewer : s.policy.session ≤ s.nextSession := hfresh.newer
    have hx : s1.session.sequence ≠ maxU64 → env.service.exchange s1.clock s1.policy
        s1.session.session (s1.session.sequence + 1) .begin {} =
        (some .accept, { session := s.nextSession + 1, sequence := 1, stage := .armed }) := by
      intro _
      rw [hal.genuine]
      simp only [PolicyService.exchange, graphicsPolicyDecide_snapshot, GraphicsPolicy.take]
      rw [if_neg (by simp), if_pos trivial, if_neg]
      simp only [not_or, not_and, not_not, not_le]
      exact ⟨fun h => hready.resolve_left h, Nat.lt_succ_of_le hnewer, rfl⟩
    have hans := request_answered (Nat.succ_ne_zero _) hserve hx nofun
    have hbegun : ∀ r, Tied env .armed (s1.control.answered .begin {} .accept
        { session := s.nextSession + 1, sequence := 1, stage := .armed } r) := by
      intro r
      have hlog : (s1.control.answered .begin {} .accept
          { session := s.nextSession + 1, sequence := 1, stage := .armed } r).exchanges =
          [{ session := s.nextSession + 1, sequence := 1, event := .begin, facts := {},
             answer := some .accept, rescueRunning := r,
             policy := { session := s.nextSession + 1, sequence := 1, stage := .armed } }] := by
        change s.control.exchanges ++ _ = _
        rw [hfresh.exchanges]
        rfl
      refine ⟨?_, ⟨Nat.succ_ne_zero _, nofun, rfl, rfl, hserve⟩, rfl, hatt, hfresh.unclosed⟩
      refine ⟨?_, ?_, ?_, ?_, ?_, ?_, ?_, ?_, ?_, hfresh.unrefused, ?_⟩
      all_goals simp only [hlog, List.mem_singleton, forall_eq]
      · exact ⟨trivial, trivial⟩
      · exact ⟨_, rfl, nofun⟩
      · exact nofun
      · exact Nat.zero_le 1
      · exact nofun
      · exact fun _ => nofun
      · exact fun _ h => h.elim nofun nofun
      · exact fun _ => nofun
      · have hnone : ∀ x ∈ ([] : List Exchange), ¬ x.Ends := fun _ h => absurd h List.not_mem_nil
        exact EndsOnce.snoc_first hnone _
      · exact nofun
    rcases hans with ⟨hbad, -, -⟩ | ⟨r, h1, h2⟩
    · -- a new session has its numbers
      rcases hbad with hbad | hbad
      · simp [hs1, hses] at hbad
      · simp [maxU64] at hbad
    · change Outcome _ _ ((requestExpecting env .begin .accept).exec s1)
      rw [requestExpecting_met h1]
      change Tied env .armed _
      rw [h2]
      exact hbegun r

theorem beginSteps_rest :
    Ensures (fun s => Fresh s.control ∧ s.control.attempted = true) (beginSteps env)
      (fun _ s => Rest env s.control) (fun s => Doomed env s.control) := by
  let P : Control → Prop := Tied env .armed
  have hP : ∀ s : NativeState, P s.control → Doomed env s.control := fun _ h => h.doomed
  -- the policy is armed up to the stage's change and primary after the request that follows it
  exact beginSteps_walk (fun k => Fresh k ∧ k.attempted = true) P P P
    (fun k => P k ∧ k.stage = .primary) (fun k => Tied env .primary k ∧ k.stage = .primary)
    (fun _ h => h.1.doomed h.2) hP
    (supervisorBegin_tied hal) ((enableRebind_framed env).ensures P hP)
    (fun plan => (execute_framed env _ plan).ensures P hP) (fun _ h => ⟨h.set_stage rfl, rfl⟩)
    (.to_post (request_tied (e := .primary) (a := .keep) hal nofun nofun (fun _ => rfl) rfl nofun
      .primary) fun _ _ h => h.2)
    (fun _ h => h.1.doomed) (fun _ h => .primary h.1 h.2) (requestRescue_rest hal false)

theorem polarisNativeBegin_rest :
    EnsuresOn NativeState.control (Rest env) (polarisNativeBegin env) (Rest env) lost := by
  refine polarisNativeBegin_walk (fun k => Fresh k ∧ k.attempted = true) (failed_rest hal)
    (fun s hr ha => ?_) (beginSteps_rest hal)
  have ha' : s.control.attempted = false := ha
  cases hr with
  | fresh h => exact ⟨{ h with }, rfl⟩
  | primary h | rescue h | closed h => exact absurd (ha'.symm.trans h.attempted) nofun

end Steps

end JcosKernel.Polaris
