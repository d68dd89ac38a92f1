import JcosKernel.Capability.Model

/-!
# JcosKernel.Ipc.Model

`kernel/ipc.c`: message passing over endpoints, blocking and timed.

Every function below runs with interrupts off, so it is one indivisible step. The two
blocking operations are cut at the places where other code can run: `ipcSendBlocking`
and `ipcReceiveBlocking` end where the loop of the source is entered, with the call
`parked`, and `ipcSendResume` and `ipcReceiveResume` are one iteration of that loop. The
test hook `ipc_before_park` sits exactly at the cut, so what it does is an ordinary step
in between.

`none` is `cpu_halt_forever`. Next to its value and the new state an operation reports
the messages that it put into a mailbox and did not take back itself (`Accepted`); that
report is not part of the source.
-/

namespace JcosKernel

open Lib

/-- `IPC_TIMED_WAIT_CAPACITY`. -/
abbrev ipcTimedWaitCapacity : Nat := endpointStorageCapacity * 2

/-- `IPC_TIMEOUT_MAX_TICKS`. -/
def ipcTimeoutMaxTicks : Nat := 0x7FFFFFFFFFFFFFFF

/-- An occupied entry of `g_timed_waits`. -/
structure IpcTimedWait where
  thread : ThreadRef
  endpoint : EndpointRef
  threadId : Nat
  endpointId : Nat
  waitId : Nat
  deadline : Nat
  kind : ThreadWaitKind
  deriving Repr, DecidableEq

/-- The kernel objects, the capability tables and `g_timed_waits`. -/
structure IpcState extends CapState where
  timedWaits : Slots IpcTimedWait ipcTimedWaitCapacity

/-- What `ipc.c` reads of the rest of the kernel. -/
structure IpcEnv where
  spaces : SpaceEnv
  /-- `process_capabilities`. -/
  capabilities : ProcessRef → Option TableRef
  /-- `timer_ticks()`, once `timer_initialized()`. -/
  ticks : Option Nat

/-- `ipc_result_valid`. -/
def ThreadWaitResult.IpcValid (result : ThreadWaitResult) : Prop :=
  result = .pending ∨ result = .completed ∨ result = .cancelled ∨ result = .peerClosed ∨
    result = .timedOut

instance (result : ThreadWaitResult) : Decidable result.IpcValid :=
  inferInstanceAs (Decidable (_ ∨ _))

/-- `ipc_deadline_reached`: the difference, read as a signed number, is not negative. -/
def IpcDeadlineReached (now deadline : Nat) : Prop := sub64 now deadline < 2 ^ 63

instance (now deadline : Nat) : Decidable (IpcDeadlineReached now deadline) :=
  inferInstanceAs (Decidable (_ < _))

/-- The checks on a timeout before anything else; `none` is a call without one. -/
def IpcEnv.TimeoutRefused (env : IpcEnv) : Option Nat → Prop
  | none => False
  | some ticks => ticks = 0 ∨ ipcTimeoutMaxTicks < ticks ∨ env.ticks = none

instance (env : IpcEnv) : ∀ timeout, Decidable (env.TimeoutRefused timeout)
  | none => inferInstanceAs (Decidable False)
  | some _ => inferInstanceAs (Decidable (_ ∨ _))

namespace Endpoint

variable (ep : Endpoint) (kind : ThreadWaitKind)

/-- `waiting_receiver` for RECEIVE, `waiting_sender` for anything else. -/
def waiting : Option ThreadRef :=
  if kind = .ipcReceive then ep.waitingReceiver else ep.waitingSender

/-- `waiting_receiver_id` for RECEIVE, `waiting_sender_id` for anything else. -/
def waitingId : Nat :=
  if kind = .ipcReceive then ep.waitingReceiverId else ep.waitingSenderId

/-- Clear the staged message. -/
def dropStaged : Endpoint :=
  { ep with waitingSenderMessage := .zero, waitingSenderMessageReady := false }

/-- Clear the mailbox. -/
def dropMessage : Endpoint := { ep with message := .zero, messageReady := false }

/-- Publish the reservation of a receiver, or of a sender with its message. -/
def reserve (t : ThreadRef) (id : Nat) : Option IpcMessage → Endpoint
  | none => { ep with waitingReceiver := some t, waitingReceiverId := id }
  | some message => { ep with
      waitingSender := some t, waitingSenderId := id, waitingSenderMessage := message,
      waitingSenderMessageReady := true }

/-- Take the reservation back. -/
def release : Endpoint :=
  if kind = .ipcReceive then { ep with waitingReceiver := none, waitingReceiverId := 0 }
  else { ep with waitingSender := none, waitingSenderId := 0 }.dropStaged

/-- The sender whose message is staged. -/
def stagedSender : Option ThreadRef :=
  if ep.waitingSenderMessageReady then ep.waitingSender else none

end Endpoint

/-- `endpoint_message_ready`. -/
def EndpointState.EndpointMessageReady (s : EndpointState) (e : EndpointRef) : Prop :=
  s.Usable e ∧ (s.endpoint e).messageReady

instance (s : EndpointState) (e : EndpointRef) : Decidable (s.EndpointMessageReady e) :=
  inferInstanceAs (Decidable (_ ∧ _))

/-- A message that went into the mailbox of `endpoint` for good: by the running call, or
for the parked `sender`. -/
structure Accepted where
  endpoint : EndpointRef
  sender : Option ThreadRef
  message : IpcMessage
  deriving DecidableEq

/-- What an operation that passes messages leaves behind. -/
structure IpcReturn (α : Type) where
  value : α
  accepted : List Accepted
  state : IpcState

/-- The local variables of a blocking operation inside its loop. -/
structure ParkedCall where
  kind : ThreadWaitKind
  endpoint : EndpointRef
  waitId : Nat
  timed : Bool
  deriving Repr, DecidableEq

/-- A blocking operation returned, or is inside its loop. -/
inductive Progress (α : Type)
  | returned (value : α)
  | parked (call : ParkedCall)

namespace IpcReturn

variable {α β : Type}

def map (f : α → β) (r : IpcReturn α) : IpcReturn β := ⟨f r.value, r.accepted, r.state⟩

end IpcReturn

namespace IpcState

variable (env : IpcEnv) (k : IpcState)

/-! ### Stores -/

def withSched (s : SchedState) : IpcState := { k with sched := s }

def withThreads (s : ThreadState) : IpcState :=
  k.withSched { k.sched with toThreadState := s }

def withEndpoints (s : EndpointState) : IpcState := { k with endpoints := s }

/-- Store through an `Endpoint` pointer. -/
def modifyEndpoint (e : EndpointRef) (f : Endpoint → Endpoint) : IpcState :=
  k.withEndpoints (k.endpoints.modify e f)

section

variable (t : ThreadRef) (e : EndpointRef) (kind : ThreadWaitKind) (id : Nat)

/-! ### Checks -/

/-- `ipc_endpoint_valid`. -/
def IpcEndpointValid : Prop :=
  k.endpoints.EndpointLive e ∧ (k.endpoints.endpoint e).initialized ∧
    (k.endpoints.endpoint e).id ≠ 0

instance : Decidable (k.IpcEndpointValid e) := inferInstanceAs (Decidable (_ ∧ _))

/-- `ipc_reservation_valid`, of a thread that is linked to the endpoint. -/
def ReservedBy : Prop :=
  k.sched.ThreadWaitMatchesId t kind (.endpoint e) id ∧
    (k.sched.thread t).waitResult.IpcValid ∧
    if some t = k.sched.threadCurrent ∧ (k.sched.thread t).state = .running then
      (k.sched.thread t).onRunQueue ∧ (k.sched.thread t).runNext ≠ none
    else
      (k.sched.thread t).interruptContextReady ∧ (k.sched.thread t).interruptRsp ≠ 0 ∧
        (((k.sched.thread t).state = .blocked ∧ ¬ (k.sched.thread t).onRunQueue ∧
            (k.sched.thread t).runNext = none) ∨
          ((k.sched.thread t).state = .ready ∧ (k.sched.thread t).onRunQueue ∧
            (k.sched.thread t).runNext ≠ none))

instance : Decidable (k.ReservedBy t e kind id) := inferInstanceAs (Decidable (_ ∧ _))

/-- `ipc_reservation_valid`, for whoever is linked. -/
def ReservationOf : Option ThreadRef → Prop
  | none => id = 0
  | some t => k.ReservedBy t e kind id

instance : ∀ t, Decidable (k.ReservationOf e kind id t)
  | none => inferInstanceAs (Decidable (id = 0))
  | some t => inferInstanceAs (Decidable (k.ReservedBy t e kind id))

/-- `ipc_reservation_valid`. -/
def IpcReservationValid : Prop :=
  k.ReservationOf e kind ((k.endpoints.endpoint e).waitingId kind)
    ((k.endpoints.endpoint e).waiting kind)

instance : Decidable (k.IpcReservationValid e kind) := inferInstanceAs (Decidable (ReservationOf ..))

/-- `ipc_resolve_endpoint`. -/
def ipcResolveEndpoint (process : ProcessRef) (handle : CapabilityHandle)
    (rights : CapabilityRights) : Option EndpointRef :=
  match env.capabilities process with
  | none => none
  | some caps =>
    match k.capabilityLookupRights caps handle .endpoint rights with
    | none => none
    | some object => if k.IpcEndpointValid object then some object else none

/-- The staged message does not fit the waiting sender, as `ipc_receive_locked` and
`ipc_endpoint_close` look for it. -/
def StagingBroken (ep : Endpoint) : Option ThreadRef → Prop
  | none => ep.waitingSenderMessageReady
  | some sender =>
    (ep.waitingSenderMessageReady ∧ (k.sched.thread sender).waitResult ≠ .pending) ∨
      ((k.sched.thread sender).waitResult = .pending ∧ ¬ ep.waitingSenderMessageReady)

instance (ep : Endpoint) : ∀ sender, Decidable (k.StagingBroken ep sender)
  | none => inferInstanceAs (Decidable (_ = true))
  | some _ => inferInstanceAs (Decidable (_ ∨ _))

/-- The mailbox is reserved for a receiver other than `current`, or for one whose wait
is over. -/
def ReservedForOther (current : Option ThreadRef) : Option ThreadRef → Prop
  | none => False
  | some receiver =>
    some receiver ≠ current ∨ (k.sched.thread receiver).waitResult ≠ .pending

instance (current : Option ThreadRef) : ∀ receiver, Decidable (k.ReservedForOther current receiver)
  | none => inferInstanceAs (Decidable False)
  | some _ => inferInstanceAs (Decidable (_ ∨ _))

/-! ### Timed waits -/

/-- An entry of the thread, or of the very wait, is already there. -/
def TimedConflict : Option IpcTimedWait → Prop
  | none => False
  | some w => w.thread = t ∨ (w.endpoint = e ∧ w.kind = kind ∧ w.waitId = id)

instance : ∀ w, Decidable (TimedConflict t e kind id w)
  | none => inferInstanceAs (Decidable False)
  | some _ => inferInstanceAs (Decidable (_ ∨ _))

/-- The entry is the one of this wait. -/
def TimedEntry : Option IpcTimedWait → Prop
  | none => False
  | some w => w.thread = t ∧ w.endpoint = e ∧ w.kind = kind ∧ w.waitId = id

instance : ∀ w, Decidable (TimedEntry t e kind id w)
  | none => inferInstanceAs (Decidable False)
  | some _ => inferInstanceAs (Decidable (_ ∧ _))

/-- `ipc_timeout_register`. -/
def ipcTimeoutRegister (ticks : Nat) : Bool × IpcState :=
  match env.ticks, k.timedWaits.firstEmpty with
  | some now, some slot =>
    if ticks = 0 ∨ ipcTimeoutMaxTicks < ticks ∨
        ¬ k.sched.ThreadWaitMatchesId t kind (.endpoint e) id then (false, k)
    else if ∃ i, TimedConflict t e kind id (k.timedWaits i) then (false, k)
    else
      (true, { k with
        timedWaits := k.timedWaits.put slot
          { thread := t, endpoint := e, threadId := (k.sched.thread t).id,
            endpointId := (k.endpoints.endpoint e).id, waitId := id,
            deadline := (now + ticks) % 2 ^ 64, kind := kind } })
  | _, _ => (false, k)

/-- `ipc_timeout_unregister`. -/
def ipcTimeoutUnregister : Bool × IpcState :=
  match Fin.find? fun i => TimedEntry t e kind id (k.timedWaits i) with
  | none => (false, k)
  | some slot => (true, { k with timedWaits := k.timedWaits.clear slot })

/-! ### Finishing a wait -/

/-- `ipc_make_ready`. -/
def ipcMakeReady : Bool × IpcState :=
  if (k.sched.thread t).state = .blocked then
    match k.sched.schedulerWake t with
    | (b, s) => (b, k.withSched s)
  else
    (decide ((some t = k.sched.threadCurrent ∧ (k.sched.thread t).state = .running ∧
        (k.sched.thread t).onRunQueue) ∨
      ((k.sched.thread t).state = .ready ∧ (k.sched.thread t).onRunQueue)), k)

/-- `ipc_make_ready` where its failure halts the machine. -/
def ipcMustMakeReady : Option IpcState :=
  match k.ipcMakeReady t with
  | (true, k₁) => some k₁
  | (false, _) => none

/-- `ipc_finish`. -/
def ipcFinish (result : ThreadWaitResult) : Option IpcState :=
  match k.sched.threadWaitTryComplete t kind (.endpoint e) id result with
  | (true, s) => some (k.withThreads s)
  | (false, _) => none

/-- `ipc_end_reservation`. -/
def ipcEndReservation (timeoutRegistered : Bool) : Option IpcState :=
  if ¬ k.sched.ThreadWaitMatchesId t kind (.endpoint e) id ∨ ¬ k.IpcReservationValid e kind then
    none
  else
    match if timeoutRegistered then k.ipcTimeoutUnregister t e kind id else (true, k) with
    | (false, _) => none
    | (true, k₁) =>
      match k₁.sched.threadWaitEnd t kind (.endpoint e) with
      | (false, _) => none
      | (true, s) => some ((k₁.withThreads s).modifyEndpoint e (·.release kind))

end

/-! ### The timer -/

/-- One iteration of `ipc_timeout_poll`. -/
def ipcTimeoutPollSlot (now : Nat) (i : Fin ipcTimedWaitCapacity) : Option IpcState :=
  match k.timedWaits i with
  | none => some k
  | some w =>
    let th := k.sched.thread w.thread
    if ¬ k.sched.threadStorageLive w.thread ∨ ¬ k.IpcEndpointValid w.endpoint ∨
        th.id ≠ w.threadId ∨ (k.endpoints.endpoint w.endpoint).id ≠ w.endpointId ∨
        ¬ k.sched.ThreadWaitMatchesId w.thread w.kind (.endpoint w.endpoint) w.waitId ∨
        ¬ k.IpcReservationValid w.endpoint w.kind then none
    -- another event already won; the entry stays until the wait is ended
    else if th.waitResult ≠ .pending then some k
    else if ¬ IpcDeadlineReached now w.deadline then some k
    else
      match w.kind with
      | .ipcSend =>
        if ¬ (k.endpoints.endpoint w.endpoint).waitingSenderMessageReady then none
        else
          (k.ipcFinish w.thread w.endpoint .ipcSend w.waitId .timedOut).bind fun k₁ =>
            (k₁.modifyEndpoint w.endpoint (·.dropStaged)).ipcMustMakeReady w.thread
      | .ipcReceive =>
        (k.ipcFinish w.thread w.endpoint .ipcReceive w.waitId .timedOut).bind fun k₁ =>
          k₁.ipcMustMakeReady w.thread
      | _ => none

/-- `ipc_timeout_poll`. -/
def ipcTimeoutPoll (now : Nat) : Option IpcState :=
  (List.finRange ipcTimedWaitCapacity).foldlM (fun k i => k.ipcTimeoutPollSlot now i) k

/-! ### Sending and receiving -/

/-- `ipc_send_locked`. -/
def ipcSendLocked (e : EndpointRef) (message : IpcMessage) : Option (IpcReturn Bool) :=
  if ¬ k.IpcEndpointValid e ∨ ¬ message.Acceptable ∨ (k.endpoints.endpoint e).closed ∨
      k.endpoints.EndpointMessageReady e ∨ ¬ k.IpcReservationValid e .ipcReceive then
    some ⟨false, [], k⟩
  else
    match (k.endpoints.endpoint e).waitingReceiver with
    | none =>
      match k.endpoints.endpointTrySend e message with
      | (false, s) => some ⟨false, [], k.withEndpoints s⟩
      | (true, s) => some ⟨true, [⟨e, none, (s.endpoint e).message⟩], k.withEndpoints s⟩
    | some receiver =>
      if (k.sched.thread receiver).waitResult ≠ .pending then some ⟨false, [], k⟩
      else
        match k.endpoints.endpointTrySend e message with
        | (false, s) => some ⟨false, [], k.withEndpoints s⟩
        | (true, s) =>
          match (k.withEndpoints s).ipcMakeReady receiver with
          | (true, k₁) => some ⟨true, [⟨e, none, (s.endpoint e).message⟩], k₁⟩
          | (false, k₁) =>
            -- the receiver cannot be woken: take the message back
            match k₁.endpoints.endpointTryReceive e with
            | (none, _) => none
            | (some _, s₁) => some ⟨false, [], k₁.withEndpoints s₁⟩

/-- `ipc_receive_locked` once `received` was taken: the staged message of `sender` moves
into the mailbox. -/
def ipcPromote (e : EndpointRef) (sender : ThreadRef) (received : IpcMessage) :
    Option (IpcReturn (Option IpcMessage)) :=
  match k.endpoints.endpointTrySend e (k.endpoints.endpoint e).waitingSenderMessage with
  | (false, s) =>
    match s.endpointTrySend e received with
    | (false, _) => none
    | (true, s₁) => some ⟨none, [], k.withEndpoints s₁⟩
  | (true, s) =>
    match (k.withEndpoints s).ipcMakeReady sender with
    | (false, k₁) =>
      -- the sender cannot be woken: put the taken message back
      match k₁.endpoints.endpointTryReceive e with
      | (none, _) => none
      | (some _, s₁) =>
        match s₁.endpointTrySend e received with
        | (false, _) => none
        | (true, s₂) => some ⟨none, [], k₁.withEndpoints s₂⟩
    | (true, k₁) =>
      (k₁.ipcFinish sender e .ipcSend (k₁.endpoints.endpoint e).waitingSenderId .completed).map
        fun k₂ => ⟨some received, [⟨e, some sender, (s.endpoint e).message⟩],
          k₂.modifyEndpoint e (·.dropStaged)⟩

/-- `ipc_receive_locked`. -/
def ipcReceiveLocked (e : EndpointRef) (current : Option ThreadRef) :
    Option (IpcReturn (Option IpcMessage)) :=
  let ep := k.endpoints.endpoint e
  if ¬ k.IpcEndpointValid e ∨ ep.closed ∨ ¬ k.IpcReservationValid e .ipcReceive ∨
      ¬ k.IpcReservationValid e .ipcSend then some ⟨none, [], k⟩
  else if k.ReservedForOther current ep.waitingReceiver then some ⟨none, [], k⟩
  else if ¬ k.endpoints.EndpointMessageReady e then some ⟨none, [], k⟩
  else if k.StagingBroken ep ep.waitingSender then some ⟨none, [], k⟩
  else
    match k.endpoints.endpointTryReceive e with
    | (none, s) => some ⟨none, [], k.withEndpoints s⟩
    | (some received, s) =>
      match ep.stagedSender with
      | none => some ⟨some received, [], k.withEndpoints s⟩
      | some sender => (k.withEndpoints s).ipcPromote e sender received

/-- `ipc_try_send`. -/
def ipcTrySend (process : ProcessRef) (handle : CapabilityHandle) (message : IpcMessage) :
    Option (IpcReturn Bool) :=
  if ¬ message.Acceptable then some ⟨false, [], k⟩
  else
    match k.ipcResolveEndpoint env process handle capabilityRightSend with
    | none => some ⟨false, [], k⟩
    | some e => k.ipcSendLocked e message

/-- `ipc_try_receive`. -/
def ipcTryReceive (process : ProcessRef) (handle : CapabilityHandle) :
    Option (IpcReturn (Option IpcMessage)) :=
  match k.ipcResolveEndpoint env process handle capabilityRightReceive with
  | none => some ⟨none, [], k⟩
  | some e => k.ipcReceiveLocked e k.sched.threadCurrent

/-! ### The blocking operations -/

/-- The part that `ipc_receive_blocking_common` and `ipc_send_blocking_common` share: begin
the wait, link the thread to the endpoint and register its timeout. A sender brings the
message to stage. -/
def ipcReserve (current : ThreadRef) (e : EndpointRef) (kind : ThreadWaitKind)
    (staged : Option IpcMessage) (timeout : Option Nat) : Option (Option ParkedCall × IpcState) :=
  match k.sched.threadWaitBegin current kind (.endpoint e) with
  | (false, s) => some (none, k.withThreads s)
  | (true, s) =>
    let id := (s.thread current).waitId
    let k₁ := (k.withThreads s).modifyEndpoint e (·.reserve current id staged)
    match timeout with
    | none => some (some ⟨kind, e, id, false⟩, k₁)
    | some ticks =>
      match k₁.ipcTimeoutRegister env current e kind id ticks with
      | (true, k₂) => some (some ⟨kind, e, id, true⟩, k₂)
      | (false, k₂) =>
        (k₂.ipcFinish current e kind id .cancelled).bind fun k₃ =>
          (k₃.ipcEndReservation current e kind id false).map fun k₄ => (none, k₄)

/-- What the caller of a blocking operation sees once it has tried to wait. -/
def afterReserve {α : Type} (refused : α) (r : Option ParkedCall × IpcState) :
    IpcReturn (Progress α) :=
  match r with
  | (none, k) => ⟨.returned refused, [], k⟩
  | (some call, k) => ⟨.parked call, [], k⟩

/-- The endpoint on which the current thread of `process` may block. -/
def blockingTarget (process : ProcessRef) (handle : CapabilityHandle)
    (rights : CapabilityRights) : Option (ThreadRef × EndpointRef) :=
  match k.sched.threadCurrent with
  | none => none
  | some current =>
    if (k.sched.thread current).id = 0 ∨ (k.sched.thread current).process ≠ some process then none
    else
      match k.ipcResolveEndpoint env process handle rights with
      | none => none
      | some e => if (k.endpoints.endpoint e).closed then none else some (current, e)

/-- `ipc_receive_blocking_common` up to its loop. -/
def ipcReceiveBlocking (process : ProcessRef) (handle : CapabilityHandle) (timeout : Option Nat) :
    Option (IpcReturn (Progress (Option IpcMessage))) :=
  if env.TimeoutRefused timeout then some ⟨.returned none, [], k⟩
  else
    match k.blockingTarget env process handle capabilityRightReceive with
    | none => some ⟨.returned none, [], k⟩
    | some (current, e) =>
      if k.endpoints.EndpointMessageReady e then
        (k.ipcReceiveLocked e (some current)).map (·.map .returned)
      else if (k.endpoints.endpoint e).waitingReceiver ≠ none ∨
          (k.endpoints.endpoint e).waitingReceiverId ≠ 0 then some ⟨.returned none, [], k⟩
      else (k.ipcReserve env current e .ipcReceive none timeout).map (afterReserve none)

/-- `ipc_send_blocking_common` up to its loop. -/
def ipcSendBlocking (process : ProcessRef) (handle : CapabilityHandle) (message : IpcMessage)
    (timeout : Option Nat) : Option (IpcReturn (Progress Bool)) :=
  if ¬ message.Acceptable ∨ env.TimeoutRefused timeout then some ⟨.returned false, [], k⟩
  else
    match k.blockingTarget env process handle capabilityRightSend with
    | none => some ⟨.returned false, [], k⟩
    | some (current, e) =>
      if ¬ k.endpoints.EndpointMessageReady e then
        (k.ipcSendLocked e message).map (·.map .returned)
      else if (k.endpoints.endpoint e).waitingSender ≠ none ∨
          (k.endpoints.endpoint e).waitingSenderId ≠ 0 ∨
          (k.endpoints.endpoint e).waitingSenderMessageReady then some ⟨.returned false, [], k⟩
      else (k.ipcReserve env current e .ipcSend (some message) timeout).map (afterReserve false)

section Resume

variable (frame : Nat) (current : ThreadRef) (call : ParkedCall)

/-- `ipc_receive_blocking_common` behind its loop; `out` is what `out_message` holds. -/
def ipcReceiveExit (out : IpcMessage) (accepted : List Accepted) :
    Option (IpcReturn (Progress (Option IpcMessage))) :=
  let received := (k.sched.thread current).waitResult = .completed
  (k.ipcEndReservation current call.endpoint .ipcReceive call.waitId call.timed).map fun k₁ =>
    ⟨.returned (if received then some out else none), accepted, k₁⟩

/-- One iteration of the loop of `ipc_receive_blocking_common`. -/
def ipcReceiveResume : Option (IpcReturn (Progress (Option IpcMessage))) :=
  let e := call.endpoint
  if ¬ k.sched.ThreadWaitMatchesId current .ipcReceive (.endpoint e) call.waitId ∨
      ¬ k.IpcReservationValid e .ipcReceive then none
  else if (k.sched.thread current).waitResult ≠ .pending then k.ipcReceiveExit current call .zero []
  else if k.endpoints.EndpointMessageReady e then
    (k.ipcReceiveLocked e (some current)).bind fun r =>
      (r.state.ipcFinish current e .ipcReceive call.waitId
          (if r.value.isSome then .completed else .cancelled)).bind fun k₁ =>
        k₁.ipcReceiveExit current call (r.value.getD .zero) r.accepted
  else
    match k.sched.schedulerWaitCurrent env.spaces frame with
    | none => none
    | some (true, s) => some ⟨.parked call, [], k.withSched s⟩
    | some (false, s) =>
      ((k.withSched s).ipcFinish current e .ipcReceive call.waitId .cancelled).bind fun k₁ =>
        k₁.ipcReceiveExit current call .zero []

/-- `ipc_send_blocking_common` behind its loop. -/
def ipcSendExit : Option (IpcReturn (Progress Bool)) :=
  let sent := (k.sched.thread current).waitResult = .completed
  if sent ∧ (k.endpoints.endpoint call.endpoint).waitingSenderMessageReady then none
  else
    (k.ipcEndReservation current call.endpoint .ipcSend call.waitId call.timed).map fun k₁ =>
      ⟨.returned (decide sent), [], k₁⟩

/-- One iteration of the loop of `ipc_send_blocking_common`. -/
def ipcSendResume : Option (IpcReturn (Progress Bool)) :=
  let e := call.endpoint
  if ¬ k.sched.ThreadWaitMatchesId current .ipcSend (.endpoint e) call.waitId ∨
      ¬ k.IpcReservationValid e .ipcSend then none
  else if (k.sched.thread current).waitResult ≠ .pending then k.ipcSendExit current call
  else if ¬ (k.endpoints.endpoint e).waitingSenderMessageReady then none
  else
    match k.sched.schedulerWaitCurrent env.spaces frame with
    | none => none
    | some (true, s) => some ⟨.parked call, [], k.withSched s⟩
    | some (false, s) =>
      ((k.withSched s).ipcFinish current e .ipcSend call.waitId .cancelled).bind fun k₁ =>
        k₁.ipcSendExit current call

end Resume

/-! ### Aborting and closing -/

/-- `ipc_abort_thread_wait`. A wait for the exit of a process has no endpoint, and is
refused like a null pointer. -/
def ipcAbortThreadWait (t : ThreadRef) : Bool × IpcState :=
  let th := k.sched.thread t
  if some t = k.sched.threadCurrent ∨ ¬ k.sched.ThreadWaitActive t ∨
      (th.state ≠ .blocked ∧ th.state ≠ .ready) then (false, k)
  else
    match th.waitObject with
    | some (.endpoint e) =>
      if ¬ k.IpcEndpointValid e ∨ ¬ k.IpcReservationValid e th.waitKind ∨
          (th.waitKind ≠ .ipcReceive ∧ th.waitKind ≠ .ipcSend) ∨
          (k.endpoints.endpoint e).waiting th.waitKind ≠ some t then (false, k)
      else
        match k.sched.threadWaitAbort t th.waitKind (.endpoint e) with
        | (false, s) => (false, k.withThreads s)
        | (true, s) =>
          (true, ((k.withThreads s).ipcTimeoutUnregister t e th.waitKind th.waitId).2.modifyEndpoint
            e (·.release th.waitKind))
    | _ => (false, k)

/-- The receiver or the sender of a closing endpoint, if its wait is pending. -/
def ipcFinishPending (e : EndpointRef) (kind : ThreadWaitKind) : Option IpcState :=
  match (k.endpoints.endpoint e).waiting kind with
  | none => some k
  | some t =>
    if (k.sched.thread t).waitResult = .pending then
      k.ipcFinish t e kind ((k.endpoints.endpoint e).waitingId kind) .peerClosed
    else some k

/-- Wake whoever waited. -/
def ipcReadyWaiting : Option ThreadRef → Option IpcState
  | none => some k
  | some t => k.ipcMustMakeReady t

/-- `ipc_endpoint_close`. -/
def ipcEndpointClose (e : EndpointRef) : Option (Bool × IpcState) :=
  let ep := k.endpoints.endpoint e
  if ¬ k.IpcEndpointValid e ∨ ep.closed ∨ ¬ k.IpcReservationValid e .ipcReceive ∨
      ¬ k.IpcReservationValid e .ipcSend then some (false, k)
  else if k.StagingBroken ep ep.waitingSender then some (false, k)
  else
    ((k.modifyEndpoint e ({ · with closed := true })).ipcFinishPending e .ipcReceive).bind fun k₁ =>
      (k₁.ipcFinishPending e .ipcSend).bind fun k₂ =>
        ((k₂.modifyEndpoint e fun ep => ep.dropStaged.dropMessage).ipcReadyWaiting
            ep.waitingReceiver).bind fun k₃ =>
          (k₃.ipcReadyWaiting ep.waitingSender).map fun k₄ => (true, k₄)

end IpcState

end JcosKernel
