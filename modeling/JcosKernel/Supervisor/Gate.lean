import JcosKernel.Endpoint.Model
import JcosKernel.Service.WaitReady

/-!
# JcosKernel.Supervisor.Gate

`kernel/supervisor.c`: the calls of the supervisor service and the gate in front of them.

Any number of kernel threads call the service. Each thread stands somewhere in its call
(`CallPc`); a step lets one of them go on to the next place where another thread can run.
What the rest of the kernel answers is told to the step (`GateEnv`), and the service may put
any message into its reply endpoint at any time.

Requests are numbered in the order in which they are sent. A message of the service keeps the
number of requests that were sent before it: `inFlight` and `requests` keep account of the messages
and are not part of the source.
-/

namespace JcosKernel

/-- `SUPERVISOR_REPLY_PONG`. -/
def supervisorReplyPong : Nat := 0x8000000000000001
/-- `SUPERVISOR_REPLY_GRAPHICS_POLICY`. -/
def supervisorReplyGraphicsPolicy : Nat := 0x8000000000000003
/-- `GRAPHICS_POLICY_HEADLESS`. -/
def graphicsPolicyHeadless : Nat := 3

/-- The entry points behind the gate. -/
inductive SupervisorCall
  | ping (cookie : Nat)
  | graphicsExchange (session sequence snapshot : Nat)
  | start
  | stopBounded
  | recover
  deriving Repr, DecidableEq

namespace SupervisorCall

/-- The request of `supervisor_ping` and of `supervisor_graphics_exchange`, and the first word of
the reply that is expected. -/
def request : SupervisorCall → Option (IpcMessage × Nat)
  | ping cookie =>
    some (⟨fun i => if i = 0 then 1 else if i = 1 then cookie else 0, 2⟩, supervisorReplyPong)
  | graphicsExchange session sequence snapshot =>
    some (⟨fun i => if i = 0 then 3 else if i = 1 then session else if i = 2 then sequence
      else snapshot, 4⟩, supervisorReplyGraphicsPolicy)
  | start | stopBounded | recover => none

/-- The arguments are refused before the gate. -/
def Refused : SupervisorCall → Prop
  | graphicsExchange session sequence _ => session = 0 ∨ sequence = 0
  | _ => False

instance : ∀ c, Decidable (Refused c)
  | graphicsExchange .. => inferInstanceAs (Decidable (_ ∨ _))
  | ping _ | start | stopBounded | recover => inferInstanceAs (Decidable False)

/-- What the call returns through its output for a reply, if it returns true. -/
def answer (reply : IpcMessage) : SupervisorCall → Option Nat
  | ping cookie =>
    if reply.wordCount ≠ 2 ∨ reply.words 1 ≠ cookie then none else some (reply.words 1)
  | graphicsExchange session sequence _ =>
    if reply.wordCount ≠ 4 ∨ reply.words 1 ≠ session ∨ reply.words 2 ≠ sequence ∨
        graphicsPolicyHeadless < reply.words 3 then none
    else some (reply.words 3)
  | start | stopBounded | recover => none

end SupervisorCall

/-- `SUPERVISOR_MESSAGE_SHUTDOWN`, as `supervisor_stop_bounded_unlocked` sends it. -/
def supervisorShutdown : IpcMessage := ⟨fun i => if i = 0 then 2 else 0, 1⟩

/-- The result of the part behind the gate. -/
inductive CallOutcome
  /-- `supervisor_request_reply_unlocked` returns true with this reply to request `n`. -/
  | replied (n : Nat) (reply : IpcMessage)
  | done (ok : Bool)
  deriving DecidableEq

/-- Where a thread stands behind the gate. -/
inductive CallStage
  | entered
  /-- The service is idle. -/
  | sending
  /-- Request `n` was sent. -/
  | receiving (n : Nat)
  | received (n : Nat) (reply : IpcMessage)
  /-- `supervisor_start_unlocked` has made fresh endpoints. -/
  | launching
  /-- `supervisor_stop_bounded_unlocked`, before and behind its request. -/
  | closing
  | stopping (n : Nat)
  /-- Before `supervisor_release`; `ok` is what a successful release is worth. -/
  | release (ok : Bool)
  /-- Before `supervisor_call_leave`. -/
  | leaving (outcome : CallOutcome)
  deriving DecidableEq

inductive CallPc
  | idle
  /-- In the loop of `supervisor_call_enter`. -/
  | entering (c : SupervisorCall)
  | inside (c : SupervisorCall) (stage : CallStage)
  /-- Behind `supervisor_call_leave`. -/
  | left (c : SupervisorCall) (outcome : CallOutcome)
  deriving DecidableEq

/-- Between `supervisor_call_enter` and `supervisor_call_leave`. -/
def CallPc.Inside : CallPc → Prop
  | inside _ _ => True
  | idle | entering _ | left _ _ => False

structure GateWorld where
  /-- `g_rpc_owner`. -/
  owner : Nat
  /-- `g_supervisor.state`. -/
  state : ServiceState
  /-- What the service has sent and nobody received, with the number of requests before it. -/
  inFlight : List (Nat × IpcMessage)
  /-- The number of requests sent so far. -/
  requests : Nat
  pc : ThreadRef → CallPc

/-- Nobody has called the service. -/
def GateWorld.boot : GateWorld where
  owner := 0
  state := .stopped
  inFlight := []
  requests := 0
  pc _ := .idle

inductive GateEvent
  | quiet
  | called (t : ThreadRef) (c : SupervisorCall)
  /-- `supervisor_call_enter` returned false. -/
  | refused (t : ThreadRef) (c : SupervisorCall)
  | entered (t : ThreadRef)
  | sent (t : ThreadRef) (n : Nat) (request : IpcMessage)
  /-- The service sent a message. -/
  | replied (m : Nat × IpcMessage)
  /-- Request `n` got this message of the service as its reply. -/
  | received (t : ThreadRef) (n : Nat) (m : Nat × IpcMessage)
  /-- No reply to request `n` was received in time. -/
  | gaveUp (t : ThreadRef) (n : Nat)
  /-- `supervisor_start_unlocked` has made fresh endpoints for a new incarnation of the service. -/
  | started (t : ThreadRef)
  | left (t : ThreadRef)
  /-- The call returned; `value` is its output if the result is true. -/
  | returned (t : ThreadRef) (c : SupervisorCall) (value : Option Nat)
  deriving DecidableEq

/-- The thread that an event is about. -/
def GateEvent.thread : GateEvent → Option ThreadRef
  | quiet | replied _ => none
  | called t _ | refused t _ | entered t | sent t _ _ | received t _ _ | gaveUp t _ | started t
  | left t | returned t _ _ => some t

/-- What a step is told. -/
structure GateEnv where
  call : SupervisorCall
  /-- The thread belongs to the kernel process. -/
  kernelThread : Bool
  /-- `supervisor_call_enter` goes on waiting. -/
  patient : Bool
  /-- The exit record of the service that `supervisor_refresh_terminal` finds: a normal one? -/
  exit : Option Bool
  /-- The service is there and `supervisor_ready`. -/
  ready : Bool
  sent : Bool
  /-- The reply, unless the receive fails. -/
  inbox : Option (Nat × IpcMessage)
  /-- `supervisor_wait_ready`. -/
  settled : Bool
  /-- `supervisor_start_unlocked` may start the service. -/
  admissible : Bool
  /-- The service is launched and ready. -/
  launched : Bool
  /-- The service has ended as it was asked to. -/
  graceful : Bool
  /-- `supervisor_release`. -/
  released : Bool

namespace GateWorld

variable (s : GateWorld) (t : ThreadRef)

def setPc (pc : CallPc) : GateWorld := { s with pc := Function.update s.pc t pc }

/-- The thread goes on behind the gate. -/
def stage (c : SupervisorCall) (stage : CallStage) : GateWorld := s.setPc t (.inside c stage)

/-- Behind `supervisor_call_enter`. -/
def enteredStep (env : GateEnv) (c : SupervisorCall) : GateEvent × GateWorld :=
  let state := s.state.refreshTerminal env.exit
  match c with
  | .ping _ | .graphicsExchange .. =>
    -- `supervisor_idle`
    let s := { s with state := state }
    if state ≠ .running ∨ env.ready = false then (.quiet, s.stage t c (.leaving (.done false)))
    else (.quiet, s.stage t c .sending)
  | .start =>
    if s.state ≠ .stopped ∨ env.admissible = false then
      (.quiet, s.stage t c (.leaving (.done false)))
    else
      (.started t, { s with state := .starting, inFlight := [] }.stage t c .launching)
  | .stopBounded =>
    let s := { s with state := state }
    if state = .stopped then (.quiet, s.stage t c (.leaving (.done false)))
    else if state = .running ∧ env.ready then
      (.quiet, { s with state := .closing }.stage t c .closing)
    else (.quiet, { s with state := .failed }.stage t c (.release true))
  | .recover =>
    let s := { s with state := state }
    if state = .stopped then (.quiet, s.stage t c (.leaving (.done true)))
    else if state = .running then (.quiet, s.stage t c (.leaving (.done false)))
    else (.quiet, { s with state := .failed }.stage t c (.release true))

/-- A request has failed: `supervisor_request_reply_unlocked` returns false. -/
def requestFailed (env : GateEnv) (c : SupervisorCall) : GateWorld :=
  { s with state := s.state.afterFailure env.exit }.stage t c (.leaving (.done false))

/-- One step behind the gate, of the thread with the identity `id`. -/
def insideStep (id : Nat) (env : GateEnv) (c : SupervisorCall) : CallStage → GateEvent × GateWorld
  | .entered => s.enteredStep t env c
  | .sending =>
    match c.request with
    | none => (.quiet, s.stage t c (.leaving (.done false)))
    | some (request, _) =>
      if env.sent then
        (.sent t (s.requests + 1) request,
          { s with requests := s.requests + 1 }.stage t c (.receiving (s.requests + 1)))
      else (.quiet, s.stage t c (.leaving (.done false)))
  | .receiving n =>
    match env.inbox with
    | none => (.gaveUp t n, s.requestFailed t env c)
    | some m =>
      (.received t n m, { s with inFlight := s.inFlight.erase m }.stage t c (.received n m.2))
  | .received n reply =>
    match c.request with
    | none => (.quiet, s.stage t c (.leaving (.done false)))
    | some (_, expected) =>
      if reply.wordCount = 0 ∨ reply.words 0 ≠ expected ∨ env.settled = false then
        (.quiet, s.requestFailed t env c)
      else (.quiet, s.stage t c (.leaving (.replied n reply)))
  | .launching =>
    if env.launched then (.quiet, { s with state := .running }.stage t c (.leaving (.done true)))
    else (.quiet, { s with state := .failed }.stage t c (.release false))
  | .closing =>
    if env.sent then
      (.sent t (s.requests + 1) supervisorShutdown,
        { s with requests := s.requests + 1 }.stage t c (.stopping (s.requests + 1)))
    else (.quiet, { s with state := .failed }.stage t c (.release true))
  | .stopping n =>
    match env.inbox with
    | none => (.gaveUp t n, { s with state := .failed }.stage t c (.release true))
    | some m =>
      (.received t n m,
        { s with
          state := if env.graceful then .reapPending else .failed
          inFlight := s.inFlight.erase m }.stage t c (.release true))
  | .release ok =>
    -- the endpoints are destroyed with what is still in them
    if env.released then
      (.quiet, { s with state := .stopped, inFlight := [] }.stage t c (.leaving (.done ok)))
    else (.quiet, { s with state := .reapPending }.stage t c (.leaving (.done false)))
  | .leaving outcome =>
    -- `supervisor_call_leave`
    (.left t, { s with owner := if s.owner = id then 0 else s.owner }.setPc t (.left c outcome))

/-- The output of a call that has left the gate. -/
def output (c : SupervisorCall) : CallOutcome → Option Nat
  | .replied _ reply => c.answer reply
  | .done ok => if ok then some 0 else none

/-- One step of thread `t`, whose identity is `id`. -/
def threadStep (id : Nat) (env : GateEnv) : GateEvent × GateWorld :=
  match s.pc t with
  | .idle =>
    if env.call.Refused then (.returned t env.call none, s)
    else (.called t env.call, s.setPc t (.entering env.call))
  | .entering c =>
    if env.kernelThread = false then (.refused t c, s.setPc t .idle)
    else if s.owner = 0 then (.entered t, { s with owner := id }.stage t c .entered)
    else if s.owner = id ∨ env.patient = false then (.refused t c, s.setPc t .idle)
    else (.quiet, s)
  | .inside c stage => s.insideStep t id env c stage
  | .left c outcome => (.returned t c (output c outcome), s.setPc t .idle)

end GateWorld

end JcosKernel
