import JcosKernel.Polaris.Gate
import JcosKernel.Polaris.Policy

/-!
# JcosKernel.Polaris.Native

**The native display controller** (`kernel/polaris_native.c`, native-write build), with the
supervisor session it keeps (`kernel/graphics_supervisor.c`), the conversation in which a driver
programs the plane (`kernel/polaris_broker.c`) and the rebind lane of its register window
(`rebind_binding`, `enable_rebind`, `arm_recovery`, `rebind_write` of `kernel/polaris_mmio.c`).

Everything the controller calls outside of these is an oracle (`NativeEnv`): whether a call
succeeds, what a register reads as, what the clock says, which message a driver sends next. The
oracle may answer differently at every point in time (`NativeState.clock`).

The messages written to the terminal and the render switch are left out. The last fields of
`NativeState` are a record of what happened; nothing reads them.
-/

namespace JcosKernel.Polaris

open Lib Lib.Attempt

/-! ## What is outside -/

/-- The two drivers. -/
inductive NativeRole where
  | primary
  | rescue
deriving DecidableEq, Repr

/-- The calls that say yes or no. -/
inductive NativeCall where
  /-- The board, display and kernel profile `polaris_native_begin` asks for. -/
  | profile
  /-- Exactly one function matches the display of the firmware. -/
  | selected
  | displayProbe
  | reserve (r : NativeRole)
  | assignmentCreate
  | claimSupervised
  | mmioPrepareSupervised
  | mmioPrepareLocation
  | holdAcquire
  | serviceIdle (r : NativeRole)
  | retireScanout
  | nativeInstall
  /-- The driver is the process that was launched. -/
  | sameProcess (r : NativeRole)
  | prepareNative
  | setWritable
  | directCommit
  | draw (r : NativeRole)
  | outputRevoke
  | assignmentValid
  | assignmentOwned
  | assignmentDestroy
  | forceQuarantine
  | driverStop (r : NativeRole)
  | directAbort
  | directReclaim
  | bindingValid
  | mmioClose
  | holdRelease
  | mmioCleanup
  | capabilityRevoke
  | supervisorStop
  | faultCall
  /-- Timer, interrupts and preemption are on. -/
  | timerReady
  | running (r : NativeRole)
  | ping (r : NativeRole)
  | diagnostic (r : NativeRole)
  | consoleProgress
  | policyInjected
  /-- The checks of `polaris_driver_program` before the attempt is recorded. -/
  | programAdmitted (r : NativeRole)
  | executeSent
  /-- `ready`: the driver went back to its receive. -/
  | driverReady
  | responseSent
  /-- The conversation is still current after the gate has answered. -/
  | stillCurrent
  | admitted
  | waitTick
  | windowWritable
  | leafWritable
deriving DecidableEq, Repr

/-- `DisplayLeaseState`. -/
inductive LeaseState where
  | kernel
  | handoff
  | user
  | reclaim
deriving DecidableEq, Repr

/-- What `supervisor_running`, `supervisor_idle` and the identities say. -/
structure SupervisorView where
  running : Bool
  idle : Bool
  processId : Nat
  threadId : Nat

/-- The state of the assignment, as the rebind lane tells them apart. -/
inductive AssignmentView where
  | assigned
  | quarantined
  | other
deriving DecidableEq, Repr

/-- What `rebind_binding` and its callers find when they look. -/
structure RebindView where
  /-- Interrupts are on, device memory is supported, and the hold is registered with its identity
  and names a retained supervised binding of the live kernel process that is prepared, open, not
  poisoned, mapped with its four pages and pinned. -/
  held : Bool
  activeHolds : Nat
  dmaGate : Bool
  scanoutRetired : Bool
  writersIdle : Bool
  kernelContext : Bool
  lease : LeaseState
  assignment : AssignmentView
deriving DecidableEq, Repr

/-- A message of a driver to the broker, with four words and the right incarnation. -/
inductive BrokerMessage where
  | reply (operation delta : BitVec 64)
  | request (tag payload : BitVec 64)
  | other
deriving DecidableEq, Repr

/-- The other side of the policy exchange. -/
inductive PolicyService where
  /-- `graphics_policy_decide`, running and answering. -/
  | genuine
  /-- Anything: an action, a refusal, or no usable reply. -/
  | arbitrary (answer : Nat → Option PolicyAction)

/-- The oracle. -/
structure NativeEnv where
  yes : Nat → NativeCall → Bool
  tick : Nat → BitVec 64
  frequency : Nat → BitVec 32
  lease : Nat → LeaseState
  view : Nat → RebindView
  supervisor : Nat → SupervisorView
  service : PolicyService
  /-- A witness was observed and the driver proposed this plan for it. -/
  plan : Nat → NativeRole → Option ProgramPlan
  /-- What the broker receives next; `none` when nothing usable comes in time. -/
  receive : Nat → GateRun → Option BrokerMessage
  /-- What a register reads as through the rebind lane. -/
  register : Nat → List ProgramOp → RebindRead → Option (BitVec 32)

/-! ## The state -/

/-- `g.stage`, 0 to 4. -/
inductive NativeStage where
  | idle
  | primary
  | rescue
  | closed
  | recovering
deriving DecidableEq, Repr

/-- `GraphicsSupervisorSession`. -/
structure SupervisorSession where
  processId : Nat := 0
  threadId : Nat := 0
  session : Nat := 0
  sequence : Nat := 0
  failed : Bool := false
deriving DecidableEq, Repr

/-- The rebind lane of the binding. -/
structure RebindLane where
  enabled : Bool := false
  armed : Bool := false
  next : Nat := 0
deriving DecidableEq, Repr

/-- A request that reached the policy, and what came back. -/
structure Exchange where
  session : Nat
  sequence : Nat
  event : PolicyEvent
  facts : PolicyFacts
  answer : Option PolicyAction
  /-- The ledger of the policy afterwards. -/
  policy : GraphicsPolicy
  /-- The rescue driver was running at that moment. -/
  rescueRunning : Bool
deriving DecidableEq, Repr

/-- A store to the device. -/
structure Store where
  register : DisplayRegister
  value : BitVec 32
  /-- What was seen when the store was made. -/
  view : RebindView
  /-- Recovery was armed. -/
  armed : Bool
  /-- The programs that had completed before. -/
  completed : Nat
deriving DecidableEq, Repr

/-- The controller, and the ledger of the policy on the other side. -/
structure NativeState where
  attempted : Bool := false
  mutated : Bool := false
  recoveryAuthorized : Bool := false
  policyClosed : Bool := false
  stage : NativeStage := .idle
  session : SupervisorSession := {}
  nextSession : Nat := 0
  lastHeartbeat : BitVec 64 := 0
  challenge : Nat := 0
  heartbeats : Nat := 0
  frequency : BitVec 32 := 0
  diagnosedPrimary : Bool := false
  diagnosedRescue : Bool := false
  diagnosedPolicy : Bool := false
  writer : Option NativeRole := none
  hold : Bool := false
  output : Bool := false
  cap : Bool := false
  /-- `program_attempted` of the two drivers. -/
  programmedPrimary : Bool := false
  programmedRescue : Bool := false
  lane : RebindLane := {}
  policy : GraphicsPolicy := {}
  clock : Nat := 0
  exchanges : List Exchange := []
  stores : List Store := []
  completed : Nat := 0
  refusedAction : Bool := false
deriving DecidableEq, Repr

namespace NativeState

/-- Time passes. -/
def later (s : NativeState) : NativeState := { s with clock := s.clock + 1 }

end NativeState

section Controller

variable (env : NativeEnv)

/-- A call outside. -/
def ask (c : NativeCall) : Attempt NativeState Unit := .step fun s =>
  (if env.yes s.clock c then some () else none, s.later)

/-- Whether a call outside said yes. -/
def asked (c : NativeCall) : Attempt NativeState Bool := .step fun s =>
  (some (env.yes s.clock c), s.later)

/-- A call outside that is made only if `b` holds. -/
def askIf (b : Bool) (c : NativeCall) : Attempt NativeState Unit := if b then ask env c else pure ()

/-- Whether a call outside said yes, if it was to be made at all. -/
def askedIf (b : Bool) (c : NativeCall) : Attempt NativeState Bool :=
  if b then asked env c else pure true

/-! ## The session with the policy -/

/-- The policy answers a request: its action if it can be used, and its ledger. -/
def PolicyService.exchange (service : PolicyService) (now : Nat) (p : GraphicsPolicy)
    (session sequence : Nat) (e : PolicyEvent) (f : PolicyFacts) :
    Option PolicyAction × GraphicsPolicy :=
  match service with
  | .genuine =>
    let (action, p) := graphicsPolicyDecide p session sequence (policySnapshot e f)
    (some action, p)
  | .arbitrary answer => (answer now, p)

/-- The supervisor runs with the identity the session recorded. -/
def SupervisorView.Serves (v : SupervisorView) (s : SupervisorSession) : Prop :=
  v.running = true ∧ v.processId = s.processId ∧ v.threadId = s.threadId

instance (v : SupervisorView) (s : SupervisorSession) : Decidable (v.Serves s) :=
  inferInstanceAs (Decidable (_ ∧ _))

/-- `graphics_supervisor_request` for an event and facts that pass its own checks: the action, if
it returns true. The transport refuses an action above `HEADLESS`. -/
def graphicsSupervisorRequest (e : PolicyEvent) (f : PolicyFacts) :
    Attempt NativeState PolicyAction := .step fun s =>
  let lost (s : NativeState) : Option PolicyAction × NativeState :=
    (none, { s with session := { s.session with failed := true } })
  if s.session.failed ∨ s.session.session = 0 then (none, s)
  else if ¬ (env.supervisor s.clock).Serves s.session ∨ s.session.sequence = maxU64 then
    lost s.later
  else
    -- the number is used up before delivery
    let session := { s.session with sequence := s.session.sequence + 1 }
    let (answer, policy) :=
      env.service.exchange s.clock s.policy session.session session.sequence e f
    let s := { s.later with
      session, policy
      exchanges := s.exchanges ++ [{
        session := session.session, sequence := session.sequence, event := e, facts := f, answer,
        policy, rescueRunning := env.yes s.clock (.running .rescue) }] }
    match answer with
    | none => lost s
    | some .reject => lost s
    | some action =>
      if (env.supervisor s.clock).processId = s.session.processId ∧
          (env.supervisor s.clock).threadId = s.session.threadId then (some action, s.later)
      else lost s.later

/-- A request without facts that has to be answered with one action; any other outcome fails the
session. -/
def requestExpecting (e : PolicyEvent) (a : PolicyAction) : Attempt NativeState Unit :=
  .step fun s =>
    let (answer, s) := (graphicsSupervisorRequest env e {}).exec s
    if answer = some a then (some (), s)
    else (none, { s with session := { s.session with failed := true } })

/-- `graphics_supervisor_begin`. -/
def graphicsSupervisorBegin : Attempt NativeState Unit := .step fun s =>
  let v := env.supervisor s.clock
  if s.session.session ≠ 0 ∨ s.session.failed ∨ s.nextSession = maxU64 ∨ ¬ v.idle then
    (none, s.later)
  else
    let s := { s.later with
      session := { s.session with processId := v.processId, threadId := v.threadId } }
    if v.processId = 0 ∨ v.threadId = 0 then (none, s)
    else
      (requestExpecting env .begin .accept).exec { s with
        nextSession := s.nextSession + 1
        session := { s.session with session := s.nextSession + 1, sequence := 0 } }

/-- `policy_close`. -/
def policyClose : Attempt NativeState Unit := .step fun s =>
  if s.session.session = 0 ∨ s.policyClosed then (some (), s)
  else (requestExpecting env .close .headless).exec { s with policyClosed := true }

/-! ## Stopping -/

/-- `stop_io`. -/
def stopIo : Attempt NativeState Unit := do
  let valid ← asked env .bindingValid
  let closed ← askedIf env valid .mmioClose
  let held ← look NativeState.hold
  let released ← askedIf env held .holdRelease
  update fun s => { s with hold := s.hold && !released }
  let valid ← asked env .bindingValid
  let cleaned ← askedIf env valid .mmioCleanup
  -- a binding that was cleaned up is zeroed
  update fun s => { s with lane := if valid && cleaned then {} else s.lane }
  guard (closed = true ∧ released = true ∧ cleaned = true)

/-- `quarantine`. -/
def quarantine : Attempt NativeState Unit := do
  let valid ← asked env .assignmentValid
  let owned ← asked env .assignmentOwned
  if ¬ valid then pure ()
  else if ¬ owned then ask env .assignmentDestroy
  else ask env .forceQuarantine

/-- `drop_cap`. -/
def dropCap : Attempt NativeState Unit := do
  let cap ← look NativeState.cap
  if cap then do
    ask env .capabilityRevoke
    update fun s => { s with cap := false }
  else pure ()

/-- The lease goes back to the kernel, from the state it is in. -/
def reclaimLease : LeaseState → Attempt NativeState Unit
  | .kernel => pure ()
  | .handoff => ask env .directAbort
  | .user => ask env .directReclaim
  | .reclaim => failure

/-- The capability is dropped only when everything was drained. -/
def dropCapIf (drained : Bool) : Attempt NativeState Unit :=
  if drained then dropCap env else pure ()

/-- `release_writer`. -/
def releaseWriter (r : NativeRole) : Attempt NativeState Unit := do
  ask env (.driverStop r)
  let s ← look id
  if s.writer = some r then do
    reclaimLease env (env.lease s.clock)
    update fun s => { s with writer := none }
  else pure ()

/-- Release the writer, if there is one. -/
def releaseAnyWriter : Attempt NativeState Unit := do
  let writer ← look NativeState.writer
  match writer with
  | some r => releaseWriter env r
  | none => pure ()

/-- `failed`. -/
def failed : Attempt NativeState Unit := do
  let output ← look NativeState.output
  let _ ← askedIf env output .outputRevoke
  let q ← attempt (quarantine env)
  let a ← attempt (releaseAnyWriter env)
  let b ← asked env (.driverStop .primary)
  let c ← asked env (.driverStop .rescue)
  let clean ← attempt (stopIo env)
  update fun s => { s with stage := .closed }
  let _ ← attempt (dropCapIf env (q.isSome && a.isSome && b && c && clean.isSome))
  let _ ← attempt (policyClose env)
  let lost ← look fun s => s.session.failed
  let _ ← askedIf env lost .supervisorStop
  pure ()

/-! ## The rebind lane -/

/-- `rebind_binding` finds the binding. -/
def RebindView.Usable (v : RebindView) (lane : RebindLane) : Prop :=
  v.held = true ∧ v.activeHolds = 1 ∧ v.dmaGate = false ∧ v.scanoutRetired = true ∧
    v.writersIdle = true ∧ v.kernelContext = true ∧
    (v.assignment = .assigned ∨ (v.assignment = .quarantined ∧ lane.enabled = true))

instance (v : RebindView) (lane : RebindLane) : Decidable (v.Usable lane) :=
  inferInstanceAs (Decidable (_ ∧ _))

/-- `polaris_mmio_enable_rebind`. -/
def polarisMmioEnableRebind : Attempt NativeState Unit := .step fun s =>
  let v := env.view s.clock
  if s.hold = true ∧ v.Usable s.lane ∧ s.lane.enabled = false ∧ v.lease = .kernel ∧
      v.assignment = .assigned ∧ env.yes s.clock .leafWritable = true then
    (some (), { s.later with lane := { s.lane with enabled := true, next := 0 } })
  else (none, s.later)

/-- `polaris_mmio_arm_recovery`. -/
def polarisMmioArmRecovery : Attempt NativeState Unit := .step fun s =>
  let v := env.view s.clock
  if s.hold = true ∧ v.Usable s.lane ∧ s.lane.enabled = true ∧ s.lane.armed = false ∧
      v.lease = .kernel ∧ v.assignment = .quarantined then
    (some (), { s.later with lane := { s.lane with armed := true, next := 0 } })
  else (none, s.later)

/-- `polaris_mmio_rebind_write` returns true: every check passes, and the store is made. -/
def RebindAllows (s : NativeState) (r : DisplayRegister) (v : BitVec 32) : Prop :=
  let view := env.view s.clock
  s.hold = true ∧ view.Usable s.lane ∧ s.lane.enabled = true ∧ s.lane.next < 2 ∧
    view.lease = .kernel ∧
    r = (if s.lane.next ≠ 0 then DisplayRegister.primaryLow else .primaryHigh) ∧
    v = (if s.lane.next ≠ 0 then 0 else 0xF4) ∧
    (s.lane.armed = true ↔ view.assignment = .quarantined) ∧
    env.yes s.clock .windowWritable = true

instance (s : NativeState) (r : DisplayRegister) (v : BitVec 32) :
    Decidable (RebindAllows env s r v) :=
  inferInstanceAs (Decidable (_ ∧ _))

/-- The store, after the number of the write was used up. -/
def NativeState.stored (s : NativeState) (r : DisplayRegister) (v : BitVec 32) : NativeState :=
  { s with
    lane := { s.lane with next := s.lane.next + 1 }
    stores := s.stores ++ [{
      register := r, value := v, view := env.view s.clock, armed := s.lane.armed
      completed := s.completed }] }

/-! ## Programming the plane -/

/-- The device as the controller offers it to the gate at this moment. -/
def NativeState.programIo (s : NativeState) : ProgramIo where
  admitted _ := env.yes s.clock .admitted
  read ops f := env.register s.clock ops f
  write _ r v := env.yes s.clock .admitted && decide (RebindAllows env s r v)
  wait _ := env.yes s.clock .waitTick

/-- One request at the gate. The gate asks the device for one operation at most; a write that the
window allowed is a store. -/
def gateRequest (tag payload : BitVec 64) (w : GateRun) (s : NativeState) :
    Option (BitVec 32) × GateRun × NativeState :=
  let io := s.programIo env
  let (out, w') := polarisProgramGateStep io tag payload w
  let s' := match w'.ops.drop w.ops.length with
    | [.write r v] => if io.write w.ops r v then s.stored env r v else s
    | _ => s
  (out, w', s'.later)

/-- The loop of `polaris_driver_program`: whether the driver completed. -/
def brokerLoop : Nat → GateRun → NativeState → Bool × NativeState
  | 0, _, s => (false, s)
  | n + 1, w, s =>
    match env.receive s.clock w with
    | some (.reply operation delta) =>
      (w.gate.result.complete && !w.gate.poisoned && operation == 10 &&
        delta == w.gate.result.frameDelta.setWidth 64 && env.yes s.clock .driverReady, s.later)
    | some (.request tag payload) =>
      match gateRequest env tag payload w s with
      | (none, _, s) => (false, s)
      | (some _, w, s) =>
        if env.yes s.clock .stillCurrent ∧ env.yes s.clock .responseSent then
          brokerLoop n w s.later
        else (false, s.later)
    | _ => (false, s.later)

/-- `program_attempted` of a driver. -/
def NativeState.programmed (s : NativeState) : NativeRole → Bool
  | .primary => s.programmedPrimary
  | .rescue => s.programmedRescue

/-- The attempt is recorded. -/
def NativeState.program (s : NativeState) : NativeRole → NativeState
  | .primary => { s with programmedPrimary := true }
  | .rescue => { s with programmedRescue := true }

/-- `polaris_driver_program`. -/
def polarisDriverProgram (r : NativeRole) (p : ProgramPlan) : Attempt NativeState Unit := do
  ask env (.programAdmitted r)
  let s ← look id
  guard (s.programmed r = false)
  update fun s => s.program r
  guard ((polarisProgramGateInit p).1 = true)
  ask env .executeSent
  .step fun s =>
    match brokerLoop env (rebindMessages + 1) { gate := (polarisProgramGateInit p).2 } s with
    | (true, s) => (some (), { s with completed := s.completed + 1 })
    | (false, s) => (none, s)

/-- `execute`. -/
def execute (r : NativeRole) (p : ProgramPlan) : Attempt NativeState Unit := do
  update fun s => { s.later with frequency := env.frequency s.clock }
  polarisDriverProgram env r p

/-- `observe`, then `polaris_driver_plan`. -/
def observeAndPlan (r : NativeRole) : Attempt NativeState ProgramPlan := .step fun s =>
  (env.plan s.clock r, { s.later with frequency := env.frequency s.clock })

/-- `show`. -/
def showPattern (r : NativeRole) : Attempt NativeState Unit := do
  ask env (.sameProcess r)
  -- the identity is cleared before the installation can fail
  update fun s => { s with output := false }
  ask env .nativeInstall
  update fun s => { s with output := true, writer := some r }
  ask env .prepareNative
  ask env .setWritable
  ask env .directCommit
  ask env (.draw r)
  update fun s => { s.later with lastHeartbeat := env.tick s.clock }

/-! ## The operations -/

/-- `recover_native` up to where it fails. -/
def recoverSteps (induce : Bool) : Attempt NativeState Unit := do
  let s ← look id
  guard (s.stage = .primary ∧ s.recoveryAuthorized = true)
  update fun s => { s with recoveryAuthorized := false, stage := .recovering }
  askIf env s.output .outputRevoke
  quarantine env
  let _ ← askedIf env induce .faultCall
  releaseWriter env .primary
  polarisMmioArmRecovery env
  let plan ← observeAndPlan env .rescue
  execute env .rescue plan
  showPattern env .rescue
  update fun s => { s with stage := .rescue }
  let action ← graphicsSupervisorRequest env .rescued {}
  guard (action = .keep)

/-- `recover_native`. -/
def recoverNative (induce : Bool) : Attempt NativeState Unit :=
  (recoverSteps env induce).otherwise (failed env)

/-- The policy agrees to a requested rescue. -/
def rescueGranted : Attempt NativeState Unit := do
  let action ← graphicsSupervisorRequest env .requestRescue {}
  guard (action = .recover)

/-- `request_rescue`. -/
def requestRescue (induce : Bool) : Attempt NativeState Unit := do
  let stage ← look NativeState.stage
  if stage ≠ .primary then pure ()
  else do
    let granted ← attempt (rescueGranted env)
    if granted.isSome then do
      update fun s => { s with recoveryAuthorized := true }
      recoverNative env induce
    else failed env

/-- `polaris_native_begin` from the first reservation to the first pattern. -/
def beginSteps : Attempt NativeState Unit := do
  ask env .displayProbe
  ask env (.reserve .primary)
  ask env (.reserve .rescue)
  graphicsSupervisorBegin env
  ask env .assignmentCreate
  ask env .claimSupervised
  update fun s => { s with cap := true }
  ask env .mmioPrepareSupervised
  ask env .mmioPrepareLocation
  ask env .holdAcquire
  update fun s => { s with hold := true }
  let plan ← observeAndPlan env .primary
  ask env (.serviceIdle .rescue)
  ask env .retireScanout
  update fun s => { s with mutated := true }
  polarisMmioEnableRebind env
  execute env .primary plan
  update fun s => { s with stage := .primary }
  let action ← graphicsSupervisorRequest env .primary {}
  guard (action = .keep)
  let shown ← attempt (showPattern env .primary)
  if shown.isSome then pure () else requestRescue env false

/-- `polaris_native_begin`. -/
def polarisNativeBegin : Attempt NativeState Unit := do
  let attempted ← look NativeState.attempted
  let profile ← asked env .profile
  let selected ← asked env .selected
  if attempted ∨ ¬ profile ∨ ¬ selected then pure ()
  else do
    update fun s => { s with attempted := true }
    (beginSteps env).otherwise (failed env)

/-- `polaris_native_rescue`. -/
def polarisNativeRescue : Attempt NativeState Unit := requestRescue env true

/-- What a poll found out about the drivers. -/
structure PollView where
  stage : NativeStage
  primary : Bool
  rescue : Bool
  probed : Bool := false
  primaryPong : Bool := false
  rescuePong : Bool := false

namespace PollView

/-- `healthy`. -/
def healthy (v : PollView) : Bool := v.rescue && (v.stage == .rescue || v.primary)

/-- The facts of the observation. -/
def facts (v : PollView) : PolicyFacts where
  primaryLive := v.primary
  rescueLive := v.rescue
  primaryPong := v.primaryPong
  rescuePong := v.rescuePong
  probed := v.probed

/-- The kernel's own check of a `KEEP`. -/
def Retained (v : PollView) : Prop :=
  v.healthy = true ∧ ¬ (v.probed = true ∧
    (v.rescuePong = false ∨ (v.stage = .primary ∧ v.primaryPong = false)))

instance (v : PollView) : Decidable v.Retained := inferInstanceAs (Decidable (_ ∧ _))

/-- The kernel's own check of a `RECOVER`. -/
def Recoverable (v : PollView) : Prop :=
  v.stage = .primary ∧ v.rescue = true ∧ (v.probed = false ∨ v.rescuePong = true)

instance (v : PollView) : Decidable v.Recoverable := inferInstanceAs (Decidable (_ ∧ _))

end PollView

/-- `polaris_native_poll` after the drivers were looked at: the policy decides, the kernel checks
the decision. -/
def pollDecide (v : PollView) : Attempt NativeState Unit := do
  let answer ← attempt (graphicsSupervisorRequest env .observe v.facts)
  match answer with
  | none => failed env
  | some .keep =>
    if v.Retained then
      update fun s => { s with heartbeats := if v.probed then s.heartbeats + 1 else s.heartbeats }
    else failed env
  | some action =>
    if action = .recover ∧ v.Recoverable then do
      update fun s => { s with recoveryAuthorized := true }
      recoverNative env false
    else do
      update fun s => { s with refusedAction := s.refusedAction || action != .headless }
      failed env

/-- The primary driver answers a ping; only the primary stage asks it. -/
def pingPrimary (stage : NativeStage) : Attempt NativeState Bool :=
  if stage = .primary then do
    update fun s => { s with challenge := s.challenge + 1 }
    asked env (.ping .primary)
  else pure false

/-- The heartbeat of a healthy stage, when it is due. The challenge never wraps. -/
def pollProbe (v : PollView) : Attempt NativeState Unit := do
  let s ← look id
  if s.challenge = maxU64 then failed env
  else do
    let pp ← pingPrimary env v.stage
    let challenge ← look NativeState.challenge
    if challenge = maxU64 then failed env
    else do
      update fun s => { s with challenge := s.challenge + 1 }
      let rp ← asked env (.ping .rescue)
      pollDecide env { v with probed := true, primaryPong := pp, rescuePong := rp }

/-- `polaris_native_poll` once the clock and the supervisor were found in order. -/
def pollDrivers (stage : NativeStage) : Attempt NativeState Unit := do
  let primaryRunning ← asked env (.running .primary)
  let rescueRunning ← asked env (.running .rescue)
  let v : PollView :=
    { stage, primary := stage == .primary && primaryRunning, rescue := rescueRunning }
  let s ← look id
  let now := env.tick s.clock
  if v.healthy then
    if now - s.lastHeartbeat < s.frequency.setWidth 64 then pure ()
    else do
      update fun s => { s with lastHeartbeat := now }
      pollProbe env v
  else pollDecide env v

/-- `polaris_native_poll`. -/
def polarisNativePoll : Attempt NativeState Unit := do
  let s ← look id
  if s.stage ≠ .primary ∧ s.stage ≠ .rescue then pure ()
  else if ¬ (env.supervisor s.clock).Serves s.session then failed env
  else do
    let timer ← asked env .timerReady
    if ¬ timer ∨ s.frequency = 0 ∨ env.frequency s.clock ≠ s.frequency then failed env
    else pollDrivers env s.stage

/-- The driver that writes in a stage. -/
def NativeStage.writer : NativeStage → NativeRole
  | .primary => .primary
  | _ => .rescue

/-- Everything is stopped and the session is closed. -/
def stopAll (writer : Attempt NativeState Unit) : Attempt NativeState Unit := do
  writer
  ask env (.driverStop .primary)
  ask env (.driverStop .rescue)
  quarantine env
  stopIo env
  dropCap env

/-- `polaris_native_finish`. -/
def polarisNativeFinish : Attempt NativeState Unit := do
  let stage ← look NativeState.stage
  if stage ≠ .primary ∧ stage ≠ .rescue then pure ()
  else
    (do
      stopAll env (releaseWriter env stage.writer)
      policyClose env
      update fun s => { s with stage := .closed }).otherwise (failed env)

/-- `polaris_native_abort`. -/
def polarisNativeAbort : Attempt NativeState Unit := do
  let attempted ← look NativeState.attempted
  if attempted then failed env else pure ()

/-- `polaris_native_power_prepare`. -/
def polarisNativePowerPrepare : Attempt NativeState Unit := do
  let attempted ← look NativeState.attempted
  if attempted then do
    update fun s => { s with stage := .closed }
    stopAll env (releaseAnyWriter env)
    let _ ← attempt (policyClose env)
    let lost ← look fun s => s.session.failed
    askIf env lost .supervisorStop
  else pure ()

/-- The diagnostic of a driver was used. -/
def NativeState.diagnosed (s : NativeState) : NativeRole → Bool
  | .primary => s.diagnosedPrimary
  | .rescue => s.diagnosedRescue

/-- The diagnostic of a driver is used up. -/
def NativeState.diagnose (s : NativeState) : NativeRole → NativeState
  | .primary => { s with diagnosedPrimary := true }
  | .rescue => { s with diagnosedRescue := true }

/-- The stage in which a driver can be diagnosed. -/
def NativeRole.stage : NativeRole → NativeStage
  | .primary => .primary
  | .rescue => .rescue

/-- `diagnostic`, with and without the probe of the console: `polaris_native_diagnostic` and
`polaris_native_background_diagnostic`. -/
def polarisNativeDiagnostic (r : NativeRole) (probe : Bool) : Attempt NativeState Unit := do
  let s ← look id
  if s.stage ≠ r.stage ∨ s.writer ≠ some r ∨ s.diagnosed r then pure ()
  else do
    update fun s => s.diagnose r
    let delivered ← asked env (.diagnostic r)
    if ¬ delivered then failed env
    else do
      let progress ← askedIf env probe .consoleProgress
      if progress then pure () else failed env

/-- `policy_diagnostic`, with and without the probe of the console. -/
def polarisNativePolicyDiagnostic (probe : Bool) : Attempt NativeState Unit := do
  let s ← look id
  if (s.stage ≠ .primary ∧ s.stage ≠ .rescue) ∨ s.writer = none ∨ s.diagnosedPolicy = true ∨
      (env.supervisor s.clock).processId ≠ s.session.processId ∨
      (env.supervisor s.clock).threadId ≠ s.session.threadId then pure ()
  else do
    update fun s => { s with diagnosedPolicy := true }
    let injected ← asked env .policyInjected
    let progress ← askedIf env probe .consoleProgress
    if injected ∧ progress then pure () else failed env

/-- The operations of the controller; `polaris_watch` runs one at a time. -/
inductive NativeOp where
  | begin
  | rescue
  | poll
  | finish
  | abort
  | powerPrepare
  | diagnostic (r : NativeRole) (probe : Bool)
  | policyDiagnostic (probe : Bool)
deriving DecidableEq, Repr

/-- An operation. -/
def NativeOp.perform : NativeOp → Attempt NativeState Unit
  | .begin => polarisNativeBegin env
  | .rescue => polarisNativeRescue env
  | .poll => polarisNativePoll env
  | .finish => polarisNativeFinish env
  | .abort => polarisNativeAbort env
  | .powerPrepare => polarisNativePowerPrepare env
  | .diagnostic r probe => polarisNativeDiagnostic env r probe
  | .policyDiagnostic probe => polarisNativePolicyDiagnostic env probe

/-- The state after some operations. -/
def nativeRun (s : NativeState) (os : List NativeOp) : NativeState :=
  os.foldl (fun s o => ((o.perform env).exec s).2) s

end Controller

end JcosKernel.Polaris
