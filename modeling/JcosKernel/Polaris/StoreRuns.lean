import JcosKernel.Polaris.PolicyLockstep
import JcosKernel.Polaris.Stores

/-!
# JcosKernel.Polaris.StoreRuns

**The stores of a whole boot.** Over any operations in any environment, whatever the drivers, the
policy, the registers and the clock do, the stores to the device are the first of four: the two
halves of the surface address, and the same two again after a recovery
(`polaris_boot_stores`).

`Spent` holds from the first attempt on. The two places that number the writes afresh each happen
once: enabling comes before any store, and arming only in the primary stage, which is reached by a
program that completed (`Armable`).
-/

namespace JcosKernel.Polaris

open Lib Lib.Attempt

variable {env : NativeEnv} {lost : NativeState → Prop} {d : Device}

/-- An attempt was made, and the ledger holds. -/
structure Spent (d : Device) : Prop where
  ledger : Ledger d
  attempted : d.attempted = true

/-- A program has completed, and the lane, if there still is one, has numbered both writes. -/
structure Armable (d : Device) : Prop where
  completed : 1 ≤ d.completed
  lane : d.lane.enabled = true → d.lane.armed = false ∧ d.lane.next = 2

/-- Nothing was stored and the lane is as it was at boot. -/
structure Untouched (d : Device) : Prop where
  lane : d.lane = {}
  stores : d.stores = []

/-- Between two operations. -/
structure Bounded (d : Device) : Prop where
  ledger : Ledger d
  untouched : d.attempted = false → d.stage = .idle ∧ Untouched d
  primary : d.stage = .primary → Armable d

theorem Untouched.storesNil (h : Untouched d) : Stores d [] [] :=
  ⟨h.stores, fun _ => (absurd · List.not_mem_nil), fun _ => (absurd · List.not_mem_nil),
    List.nil_prefix, List.nil_prefix, (absurd rfl ·)⟩

theorem LaneAt.of_gone {first second : List Store} (h : d.lane = {}) : LaneAt d first second := by
  constructor <;> rw [h] <;> exact nofun

theorem Untouched.ledger (h : Untouched d) : Ledger d := ⟨[], [], h.storesNil, .of_gone h.lane⟩

/-- The ledger does not depend on the stage, and a lane that is gone asks for nothing. -/
theorem Ledger.relaned {d' : Device} (h : Ledger d) (hs : d'.stores = d.stores)
    (hc : d'.completed = d.completed) (hl : d'.lane = d.lane ∨ d'.lane = {}) : Ledger d' := by
  obtain ⟨first, second, hst, hlane⟩ := h
  refine ⟨first, second, { hst with split := hs.trans hst.split }, ?_⟩
  rcases hl with hl | hl
  · constructor
    · rw [hl]
      exact hlane.enabled
    · rw [hl, hc]
      exact hlane.armed
  · exact .of_gone hl

theorem Spent.relaned {d' : Device} (h : Spent d) (hs : d'.stores = d.stores)
    (hc : d'.completed = d.completed) (ha : d'.attempted = d.attempted)
    (hl : d'.lane = d.lane ∨ d'.lane = {}) : Spent d' :=
  ⟨h.ledger.relaned hs hc hl, ha.trans h.attempted⟩

theorem Spent.bounded (h : Spent d) (hs : d.stage ≠ .primary) : Bounded d :=
  ⟨h.ledger, fun ha => (nomatch h.attempted.symm.trans ha), (absurd · hs)⟩

/-- An attempt was made, and the stage is this one. -/
def SpentIn (st : NativeStage) (d : Device) : Prop := Spent d ∧ d.stage = st

theorem Spent.enter {s : NativeState} (h : Spent s.device) (st : NativeStage) :
    SpentIn st { s with stage := st }.device :=
  ⟨h.relaned rfl rfl rfl (.inl rfl), rfl⟩

theorem SpentIn.bounded {st : NativeStage} (h : SpentIn st d) (hs : st ≠ .primary) : Bounded d :=
  h.1.bounded (h.2 ▸ hs)

theorem Bounded.spent (h : Bounded d) (ha : d.attempted = true) : Spent d := ⟨h.ledger, ha⟩

theorem Bounded.spent_of_stage (h : Bounded d) (hs : d.stage ≠ .idle) : Spent d := by
  refine h.spent ?_
  cases ha : d.attempted with
  | true => rfl
  | false => exact absurd (h.untouched ha).1 hs

/-! ## Steps that store nothing -/

/-- Requests to the policy do not touch the device part. -/
theorem request_device (env : NativeEnv) (e : PolicyEvent) (f : PolicyFacts) :
    Frames NativeState.device (graphicsSupervisorRequest env e f) := by
  intro s
  simp only [graphicsSupervisorRequest, exec_step]
  repeat' split
  all_goals rfl

theorem requestExpecting_device (env : NativeEnv) (e : PolicyEvent) (a : PolicyAction) :
    Frames NativeState.device (requestExpecting env e a) := by
  intro s
  have h := request_device env e {} s
  simp only [requestExpecting, exec_step]
  split <;> exact h

theorem policyClose_device (env : NativeEnv) : Frames NativeState.device (policyClose env) := by
  intro s
  simp only [policyClose, exec_step]
  split
  · rfl
  · exact requestExpecting_device env .close .headless { s with policyClosed := true }

theorem supervisorBegin_device (env : NativeEnv) :
    Frames NativeState.device (graphicsSupervisorBegin env) := by
  intro s
  simp only [graphicsSupervisorBegin, exec_step]
  split
  · rfl
  · split
    · rfl
    · exact requestExpecting_device env .begin .accept _

theorem stopIo_spent : Keeps (fun s => Spent s.device) (stopIo env) :=
  stopIo_keeps Spent fun _ _ h hl => h.relaned rfl rfl rfl hl

theorem stopIo_down : Keeps (fun s => SpentIn .closed s.device) (stopIo env) :=
  stopIo_keeps (SpentIn .closed) fun _ _ h hl => ⟨h.1.relaned rfl rfl rfl hl, h.2⟩

theorem policyClose_spent : Keeps (fun s => SpentIn .closed s.device) (policyClose env) :=
  (policyClose_device env).keeps (SpentIn .closed)

/-- `failed` ends in the closed stage and stores nothing. -/
theorem failed_bounded : EnsuresOn NativeState.device Spent (failed env) Bounded lost :=
  (failed_walk Spent (SpentIn .closed) stopIo_spent (fun _ h => h.enter .closed)
    policyClose_spent).to_post fun _ _ h => h.bounded nofun

/-! ## Enabling, arming and programming -/

/-- The lane is open with both writes to come. -/
structure Opening (armed : Bool) (d : Device) : Prop extends Spent d where
  enabled : d.lane.enabled = true
  armed : d.lane.armed = armed
  next : d.lane.next = 0

theorem enableRebind_opening :
    Ensures (fun s => Untouched s.device ∧ s.device.attempted = true) (polarisMmioEnableRebind env)
      (fun _ s => Opening false s.device) (fun s => Spent s.device) := by
  intro s hs
  obtain ⟨hu, ha⟩ := hs
  have hlane : s.lane = {} := hu.lane
  simp only [polarisMmioEnableRebind, exec_step]
  split
  · have hopen : Ledger { s.device with lane := { s.lane with enabled := true, next := 0 } } :=
      ⟨[], [], { hu.storesNil with }, ⟨fun _ _ => ⟨rfl, rfl⟩, fun _ h => by
        rw [hlane] at h
        cases h⟩⟩
    refine { ledger := hopen, attempted := ha, enabled := rfl, armed := ?_, next := rfl }
    change s.lane.armed = false
    rw [hlane]
  · exact ⟨hu.ledger, ha⟩

/-- Arming starts the second pair: the first was stored in full. -/
theorem armRecovery_opening :
    Ensures (fun s => Spent s.device ∧ Armable s.device) (polarisMmioArmRecovery env)
      (fun _ s => Opening true s.device) (fun s => Spent s.device) := by
  intro s hs
  obtain ⟨hsp, harm⟩ := hs
  simp only [polarisMmioArmRecovery, exec_step]
  split
  · next hc =>
    obtain ⟨first, second, hst, hlane⟩ := hsp.ledger
    have hen : s.device.lane.enabled = true := hc.2.2.1
    obtain ⟨hun, hnext⟩ := harm.lane hen
    obtain ⟨rfl, hfirst⟩ := hlane.enabled hen hun
    rw [hnext] at hfirst
    have hopen : Ledger { s.device with lane := { s.lane with armed := true, next := 0 } } :=
      ⟨first, [], { hst with }, ⟨(by simp), fun _ _ => ⟨hfirst, rfl, harm.completed⟩⟩⟩
    exact { ledger := hopen, attempted := hsp.attempted, enabled := hen, armed := rfl
            next := rfl }
  · exact hsp

/-- A program has completed, and the lane has numbered both writes. -/
structure Programmed (armed : Bool) (d : Device) : Prop extends Spent d where
  completed : 1 ≤ d.completed
  armed : d.lane.armed = armed
  next : d.lane.next = 2

/-- A program that completes has numbered both writes. -/
theorem polarisDriverProgram_spent (r : NativeRole) (p : ProgramPlan) (armed : Bool) :
    EnsuresOn NativeState.device (Opening armed) (polarisDriverProgram env r p) (Programmed armed)
      (fun s => Spent s.device) := by
  let O : Device → Prop := Opening armed
  have hO : ∀ s : NativeState, O s.device → Spent s.device := fun _ h => h.toSpent
  have hset : ∀ s : NativeState, O s.device → O (s.program r).device := by
    intro s h
    have hsame : (s.program r).device = s.device := by cases r <;> rfl
    rw [hsame]
    exact h
  refine .bind ((ask_framed env _).ensures O hO) fun _ => .look_any fun s0 =>
    .guard_bind hO fun _ => .update_bind (fun s => O s.device) hset <| .guard_bind hO fun _ =>
    .bind ((ask_framed env _).ensures O hO) fun _ => ?_
  intro s ho
  have hstart : Conversing armed s.device { gate := (polarisProgramGateInit p).2 } s := by
    have hgate : (polarisProgramGateInit p).2.state = .before ∧
        (polarisProgramGateInit p).2.result.complete = false := by
      unfold polarisProgramGateInit
      split
      · exact ⟨rfl, rfl⟩
      · split <;> exact ⟨rfl, rfl⟩
    refine ⟨ho.ledger, ho.enabled, ho.armed, fun _ => ?_, fun hc => ?_, rfl⟩
    · rw [hgate.1]
      exact ho.next
    · cases hgate.2.symm.trans hc
  obtain ⟨h1, h2, h3, h4, h5⟩ := brokerLoop_ledger env (rebindMessages + 1) hstart
  simp only [exec_step]
  generalize brokerLoop env (rebindMessages + 1) { gate := (polarisProgramGateInit p).2 } s = out
    at h1 h2 h3 h4 h5
  obtain ⟨b, s'⟩ := out
  have hatt : s'.device.attempted = true := by
    rw [h4]
    exact ho.attempted
  cases b with
  | false => exact ⟨h1, hatt⟩
  | true =>
    refine ⟨⟨?_, hatt⟩, Nat.le_add_left 1 _, h3, h5 rfl⟩
    -- the count of completed programs only grows
    obtain ⟨first, second, hst, hlane⟩ := h1
    refine ⟨first, second, { hst with }, ⟨hlane.enabled, fun ha hb => ?_⟩⟩
    obtain ⟨g1, g2, -⟩ := hlane.armed ha hb
    exact ⟨g1, g2, Nat.le_add_left 1 _⟩

theorem execute_spent (r : NativeRole) (p : ProgramPlan) (armed : Bool) :
    EnsuresOn NativeState.device (Opening armed) (execute env r p) (Programmed armed)
      (fun s => Spent s.device) :=
  .update_bind (fun s => Opening armed s.device) (fun _ h => h) (polarisDriverProgram_spent r p armed)

/-! ## The operations -/

/-- The attempt has been made. -/
def Engaged (d : Device) : Prop := Bounded d ∧ d.attempted = true

theorem failed_engaged : EnsuresOn NativeState.device Engaged (failed env) Bounded lost :=
  failed_bounded.of_pre fun _ h => h.1.spent h.2

theorem recoverSteps_bounded (induce : Bool) :
    EnsuresOn NativeState.device Engaged (recoverSteps env induce) Bounded
      (fun s => Spent s.device) := by
  -- arming opens the second program, and executing it is all that stores
  refine (recoverSteps_walk (fun d => Spent d ∧ Armable d) (Opening true) (Programmed true)
    (SpentIn .rescue) (SpentIn .rescue) Spent (fun _ h => h.1.spent h.2) (fun s h hst => ?_)
    (fun _ h => h.1) (fun _ h => h.toSpent) (fun _ h => h.toSpent) armRecovery_opening
    (fun plan => execute_spent .rescue plan true) (fun _ h => h.toSpent.enter .rescue)
    ((request_device env _ _).ensures (SpentIn .rescue) fun _ h => h.1) fun _ h => h.1).to_post
      fun _ _ h => h.bounded nofun
  have harm : Armable s.device := h.1.primary hst
  exact ⟨((h.1.spent h.2).enter .recovering).1, harm.completed, harm.lane⟩

theorem recoverNative_bounded (induce : Bool) :
    EnsuresOn NativeState.device Engaged (recoverNative env induce) Bounded lost :=
  (recoverSteps_bounded induce).otherwise failed_bounded

theorem rescueGranted_device (env : NativeEnv) :
    Frames NativeState.device (rescueGranted env) :=
  .bind (request_device env _ _) fun _ => .guard _

theorem requestRescue_bounded (induce : Bool) :
    EnsuresOn NativeState.device Bounded (requestRescue env induce) Bounded lost := by
  refine requestRescue_walk Engaged Engaged failed_bounded (fun s h hst => ⟨h, ?_⟩)
    ((rescueGranted_device env).ensures Engaged fun _ h => h.1.spent h.2) (fun _ h => h)
    (recoverNative_bounded induce)
  exact (h.spent_of_stage fun hi => nomatch hst.symm.trans hi).attempted

theorem beginSteps_bounded :
    EnsuresOn NativeState.device (fun d => Untouched d ∧ d.attempted = true) (beginSteps env) Bounded
      (fun s => Spent s.device) := by
  let U : Device → Prop := fun d => Untouched d ∧ d.attempted = true
  have hU : ∀ s : NativeState, U s.device → Spent s.device := fun _ h => ⟨h.1.ledger, h.2⟩
  have hP : ∀ s : NativeState, Engaged s.device → Spent s.device := fun _ h => h.1.spent h.2
  refine beginSteps_walk U U (Opening false) (Programmed false) Engaged Engaged hU hU
    ((supervisorBegin_device env).ensures U hU) enableRebind_opening
    (fun plan => execute_spent .primary plan false) (fun s h => ?_)
    ((request_device env _ _).ensures Engaged hP) hP (fun _ h => h.1) (requestRescue_bounded false)
  have hsp := (h.toSpent.enter .primary).1
  exact ⟨⟨hsp.ledger, fun ha => (nomatch hsp.attempted.symm.trans ha),
    fun _ => ⟨h.completed, fun _ => ⟨h.armed, h.next⟩⟩⟩, hsp.attempted⟩

theorem polarisNativeBegin_bounded :
    EnsuresOn NativeState.device Bounded (polarisNativeBegin env) Bounded lost := by
  refine polarisNativeBegin_walk (fun d => Untouched d ∧ d.attempted = true) failed_bounded
    (fun s h ha => ?_) beginSteps_bounded
  obtain ⟨-, hu⟩ := h.untouched ha
  exact ⟨⟨hu.lane, hu.stores⟩, rfl⟩

/-- The policy may answer anything; what follows is a recovery or the end. -/
theorem pollDecide_bounded (v : PollView) :
    EnsuresOn NativeState.device Engaged (pollDecide env v) Bounded lost := by
  refine .bind (.attempt_keeps ((request_device env _ _).keeps Engaged)) fun answer => ?_
  split
  · exact failed_engaged
  · split
    · exact fun _ h => h.1
    · exact failed_engaged
  · split
    · exact .update_bind (fun s => Engaged s.device) (fun _ h => h) (recoverNative_bounded false)
    · exact .update_bind (fun s => Engaged s.device) (fun _ h => h) failed_engaged

theorem pollProbe_bounded (v : PollView) :
    EnsuresOn NativeState.device Engaged (pollProbe env v) Bounded lost := by
  refine .look_any fun _ => ?_
  split
  · exact failed_engaged
  · refine .bind ((pingPrimary_ensures _ Engaged).to_post fun _ _ h => h.2) fun pp => .look_any fun _ => ?_
    split
    · exact failed_engaged
    · exact .update_bind (fun s => Engaged s.device) (fun _ h => h) <|
        .bind (asked_ensures _ Engaged) fun rp => pollDecide_bounded _

theorem pollDrivers_bounded (stage : NativeStage) :
    EnsuresOn NativeState.device Engaged (pollDrivers env stage) Bounded lost := by
  refine .bind (asked_ensures _ Engaged) fun primaryRunning =>
    .bind (asked_ensures _ Engaged) fun rescueRunning => .look_any fun s0 => ?_
  dsimp only
  split
  · split
    · exact .pure fun _ h => h.1
    · exact .update_bind (fun s => Engaged s.device) (fun _ h => h) (pollProbe_bounded _)
  · exact pollDecide_bounded _

/-- An operation that acts only in the active stages starts from a spent budget. -/
theorem Bounded.active (h : Bounded d) (ha : d.stage = .primary ∨ d.stage = .rescue) : Spent d := by
  refine h.spent_of_stage fun hi => ?_
  rcases ha with hs | hs <;> cases hs.symm.trans hi

/-- The stores at rest and on the way down. -/
theorem bounded_station : Station env NativeState.device Bounded Spent where
  failed := failed_bounded
  active _ h ha := h.active ha
  attempted _ h ha := h.spent ha
  diagnose _ r := by cases r <;> rfl
  diagnosedPolicy _ _ := rfl

/-! ## Whole boots -/

/-- Every operation keeps the bound. -/
theorem NativeOp.perform_bounded (env : NativeEnv) (o : NativeOp) :
    Keeps (fun s => Bounded s.device) (o.perform env) := by
  cases o with
  | begin => exact polarisNativeBegin_bounded.keeps
  | rescue => exact (requestRescue_bounded true).keeps
  | poll =>
    exact (bounded_station.poll fun s h ha =>
      pollDrivers_bounded s.stage s.later ⟨h, (h.active ha).attempted⟩).keeps
  | finish =>
    exact (bounded_station.finish stopIo_spent ((policyClose_device env).keeps Spent)
      fun _ h => (h.enter .closed).bounded nofun).keeps
  | abort => exact bounded_station.abort.keeps
  | powerPrepare =>
    exact (powerPrepare_walk Bounded (SpentIn .closed) (fun _ h ha => (h.spent ha).enter .closed)
      (fun _ h => h.bounded nofun) stopIo_down policyClose_spent).keeps
  | diagnostic r probe => exact (bounded_station.diagnostic r probe).keeps
  | policyDiagnostic probe => exact (bounded_station.policyDiagnostic probe).keeps

theorem nativeRun_bounded (env : NativeEnv) {s : NativeState} (h : Bounded s.device)
    (os : List NativeOp) : Bounded (nativeRun env s os).device := by
  induction os generalizing s with
  | nil => exact h
  | cons o os ih => exact ih (o.perform_bounded env s h)

/-! ### After the end -/

/-- The stage is closed for good, with these stores made. -/
structure Ended (stores : List Store) (d : Device) : Prop where
  attempted : d.attempted = true
  closed : d.stage = .closed
  stores : d.stores = stores

theorem stopIo_ended (stores : List Store) :
    Keeps (fun s => Ended stores s.device) (stopIo env) :=
  stopIo_keeps (Ended stores) fun _ _ h _ => ⟨h.attempted, h.closed, h.stores⟩

theorem failed_ended (stores : List Store) :
    Keeps (fun s => Ended stores s.device) (failed env) :=
  Ensures.keeps (failed_walk (Ended stores) (Ended stores) (stopIo_ended stores)
    (fun _ h => ⟨h.attempted, rfl, h.stores⟩) ((policyClose_device env).keeps (Ended stores)))

theorem polarisNativePowerPrepare_ended (stores : List Store) :
    Keeps (fun s => Ended stores s.device) (polarisNativePowerPrepare env) :=
  (powerPrepare_walk (Ended stores) (Ended stores)
    (fun _ h _ => ⟨h.attempted, rfl, h.stores⟩)
    (fun _ h => h) (stopIo_ended stores) ((policyClose_device env).keeps (Ended stores))).keeps

/-- Once the stage is closed, no operation stores anything. -/
theorem NativeOp.perform_ended (env : NativeEnv) (stores : List Store) (o : NativeOp) :
    Keeps (fun s => Ended stores s.device) (o.perform env) := by
  intro s hs
  have hst : s.stage = .closed := hs.closed
  have hatt : s.attempted = true := hs.attempted
  cases o with
  | begin =>
    have h1 : (asked env .profile).exec s = (some (env.yes s.clock .profile), s.later) := rfl
    have h2 : (asked env .selected).exec s.later =
        (some (env.yes s.later.clock .selected), s.later.later) := rfl
    simp only [NativeOp.perform, polarisNativeBegin]
    rw [exec_bind_some (exec_look _ _), exec_bind_some h1, exec_bind_some h2,
      if_pos (.inl hatt)]
    exact hs
  | rescue | poll | finish | policyDiagnostic probe =>
    simp only [NativeOp.perform, polarisNativeRescue, requestRescue, polarisNativePoll,
      polarisNativeFinish, polarisNativePolicyDiagnostic]
    rw [exec_bind_some (exec_look _ _), if_pos (by simp [hst])]
    exact hs
  | abort =>
    simp only [NativeOp.perform, polarisNativeAbort]
    rw [exec_bind_some (exec_look _ _), if_pos hatt]
    exact failed_ended stores s hs
  | powerPrepare => exact polarisNativePowerPrepare_ended stores s hs
  | diagnostic r probe =>
    simp only [NativeOp.perform, polarisNativeDiagnostic]
    rw [exec_bind_some (exec_look _ _), if_pos (.inl (by cases r <;> simp [hst, NativeRole.stage]))]
    exact hs

theorem nativeRun_ended (env : NativeEnv) {stores : List Store} {s : NativeState}
    (h : Ended stores s.device) (os : List NativeOp) :
    Ended stores (nativeRun env s os).device := by
  induction os generalizing s with
  | nil => exact h
  | cons o os ih => exact ih (o.perform_ended env stores s h)

/-! ### The bound -/

/-- The stores of a boot. -/
structure BootStores (xs : List Store) : Prop where
  /-- They are the first of the four. -/
  sequence : xs.map Store.key <+: programWrites ++ programWrites
  /-- Each needs a retired scanout, the kernel's lease, idle writers and exactly one hold. -/
  guarded : ∀ x ∈ xs, x.Guarded
  /-- The first pair needs the assignment. -/
  first : ∀ x ∈ xs.take 2, x.view.assignment = .assigned
  /-- The second pair needs a completed program, the quarantine and armed recovery. -/
  second : ∀ x ∈ xs.drop 2, 1 ≤ x.completed ∧ x.view.assignment = .quarantined ∧ x.armed = true

theorem Stores.boot {first second : List Store} (h : Stores d first second) :
    BootStores d.stores := by
  have hlen : first.length ≤ 2 := by
    have := h.firstKeys.length_le
    simpa [programWrites] using this
  have hfull : second ≠ [] → first.length = 2 := by
    intro hne
    have := congrArg List.length (h.ordered hne)
    simpa [programWrites] using this
  rw [h.split]
  refine ⟨?_, ?_, ?_, ?_⟩
  · rw [List.map_append]
    by_cases hne : second = []
    · rw [hne, List.map_nil, List.append_nil]
      exact h.firstKeys.trans (List.prefix_append _ _)
    · rw [h.ordered hne]
      exact (List.prefix_append_right_inj _).mpr h.secondKeys
  · exact List.forall_mem_append.mpr
      ⟨fun x hx => (h.firsts x hx).toGuarded, fun x hx => (h.seconds x hx).toGuarded⟩
  · intro x hx
    by_cases hne : second = []
    · rw [hne, List.append_nil] at hx
      exact (h.firsts x (List.mem_of_mem_take hx)).assigned
    · rw [List.take_left' (hfull hne)] at hx
      exact (h.firsts x hx).assigned
  · intro x hx
    by_cases hne : second = []
    · rw [hne, List.append_nil, List.drop_eq_nil_of_le hlen] at hx
      exact absurd hx List.not_mem_nil
    · rw [List.drop_left' (hfull hne)] at hx
      exact ⟨(h.seconds x hx).completed, (h.seconds x hx).quarantined, (h.seconds x hx).armed⟩

theorem bounded_boot : Bounded ({} : NativeState).device :=
  ⟨Untouched.ledger ⟨rfl, rfl⟩, fun _ => ⟨rfl, rfl, rfl⟩, nofun⟩

/-- Over a whole boot, in every environment, the stores are the first of the four, each under its
conditions; and once the stage is closed there is none any more. -/
theorem polaris_boot_stores (env : NativeEnv) (os : List NativeOp) :
    BootStores (nativeRun env {} os).stores ∧
    ((nativeRun env {} os).stage = .closed → ∀ later : List NativeOp,
      (nativeRun env {} (os ++ later)).stores = (nativeRun env {} os).stores) := by
  have hb : Bounded (nativeRun env {} os).device := nativeRun_bounded env bounded_boot os
  refine ⟨?_, fun hst later => ?_⟩
  · obtain ⟨first, second, hs, -⟩ := hb.ledger
    exact hs.boot
  · have hidle : (nativeRun env {} os).device.stage ≠ .idle := fun hi => nomatch hst.symm.trans hi
    have hend : Ended (nativeRun env {} os).stores (nativeRun env {} os).device :=
      ⟨(hb.spent_of_stage hidle).attempted, hst, rfl⟩
    have happ : nativeRun env {} (os ++ later) = nativeRun env (nativeRun env {} os) later :=
      List.foldl_append
    rw [happ]
    exact (nativeRun_ended env hend later).stores

/-- Everything works; the assignment is quarantined from the moment 62, when the beginning is
over. -/
def recoveringBoot : NativeEnv :=
  { standbyGone 62 with yes := fun _ _ => true, plan := fun _ _ => some samplePlan }

/-- A boot with a recovery makes all four stores, and after it was finished a further rescue or
abort makes none. -/
theorem polaris_boot_stores_recovery :
    (nativeRun recoveringBoot {} [.begin, .rescue, .finish]).stores.map Store.key =
      programWrites ++ programWrites ∧
    BootStores (nativeRun recoveringBoot {} [.begin, .rescue, .finish]).stores ∧
    (nativeRun recoveringBoot {} ([.begin, .rescue, .finish] ++ [.rescue, .abort])).stores =
      (nativeRun recoveringBoot {} [.begin, .rescue, .finish]).stores :=
  ⟨by decide +kernel, (polaris_boot_stores recoveringBoot [.begin, .rescue, .finish]).1,
    (polaris_boot_stores recoveringBoot [.begin, .rescue, .finish]).2 (by decide +kernel)
      [.rescue, .abort]⟩

end JcosKernel.Polaris
