import JcosKernel.Endpoint.Model
import JcosKernel.Pmm.Model

/-!
# JcosKernel.SerialWorker.Model

`kernel/serial_worker.c`: one control thread that executes the requests of one owner
thread, and a tick in between.

The two threads share the `SerialWorker` record without a lock and run with interrupts
enabled, so each of them is a program counter (`WorkerPc`, `OwnerPc`) that advances by one
read or write of the record, one call-back or one system call at a time (`workerStep`,
`ownerStep`). What the rest of the kernel answers — timer, scheduler, allocation, message
passing — is an argument of the step.

Messages: a message can be received from the moment its send is entered, whatever the send
returns later, and a receive may return any message that was sent to the endpoint. This is
more than `ipc.c` does (`ipc_exactly_once`), so what is proved here holds for it.

`made`, `issued`, `log` and `failed` record what happened since `serial_worker_start`;
nothing reads them.
-/

namespace JcosKernel

/-- `SERIAL_WORKER_TICK`. -/
def serialWorkerTick : BitVec 32 := 0
/-- `SERIAL_WORKER_ABORT`. -/
def serialWorkerAbort : BitVec 32 := 0xFFFFFFFF
/-- `SERIAL_WORKER_OK`. -/
def serialWorkerOk : BitVec 32 := 1
/-- `SERIAL_WORKER_STOP`. -/
def serialWorkerStop : BitVec 32 := 2

/-- `REQUEST`. -/
def serialRequestTag : Nat := 0x53574F524B000001
/-- `REPLY`. -/
def serialReplyTag : Nat := 0x53574F524B000002

/-- The fields of the worker's `Thread` that are read here. -/
structure SerialThread where
  id : Nat
  state : ThreadRunState
  onRunQueue : Bool
  /-- `thread_wait_active`. -/
  waitActive : Bool
  deriving Repr, DecidableEq

/-- `SerialWorker`; a handle is zero when there is none. -/
structure SerialWorker where
  thread : SerialThread
  requestSend : Nat
  requestReceive : Nat
  replySend : Nat
  replyReceive : Nat
  ownerId : Nat
  sequence : Nat
  received : Nat
  periodicCalls : Nat
  frequency : Nat
  interval : Nat
  requestCreated : Bool
  replyCreated : Bool
  threadCreated : Bool
  published : Bool
  active : Bool
  calling : Bool
  poisoned : Bool
  deriving Repr, DecidableEq

/-- An operation with its argument. -/
structure SerialRequest where
  operation : BitVec 32
  argument : Nat
  deriving Repr, DecidableEq

/-- One call of the dispatch call-back. -/
structure SerialDispatch where
  request : SerialRequest
  result : BitVec 32
  /-- The sequence number of the request that is served; zero for TICK and ABORT. -/
  sequence : Nat
  deriving Repr, DecidableEq

namespace SerialWorker

/-- `k_memset(w, 0, sizeof(*w))`. -/
def zero : SerialWorker where
  thread := ⟨0, .invalid, false, false⟩
  requestSend := 0
  requestReceive := 0
  replySend := 0
  replyReceive := 0
  ownerId := 0
  sequence := 0
  received := 0
  periodicCalls := 0
  frequency := 0
  interval := 0
  requestCreated := false
  replyCreated := false
  threadCreated := false
  published := false
  active := false
  calling := false
  poisoned := false

variable (w : SerialWorker)

/-- `serial_worker_present`. -/
def Present : Prop :=
  w.requestCreated ∨ w.replyCreated ∨ w.threadCreated ∨ w.requestSend ≠ 0 ∨
    w.requestReceive ≠ 0 ∨ w.replySend ≠ 0 ∨ w.replyReceive ≠ 0

instance : Decidable w.Present := inferInstanceAs (Decidable (_ ∨ _))

/-- `serial_worker_dead`. -/
def Dead : Prop :=
  w.threadCreated ∧ w.thread.state = .dead ∧ ¬ w.thread.onRunQueue ∧ ¬ w.thread.waitActive

instance : Decidable w.Dead := inferInstanceAs (Decidable (_ ∧ _))

/-- What `serial_worker_reap` asks before it destroys anything. -/
def ReapSafe : Prop :=
  ¬ w.threadCreated ∨ w.Dead ∨ (¬ w.published ∧ ¬ w.thread.onRunQueue ∧ ¬ w.thread.waitActive)

instance : Decidable w.ReapSafe := inferInstanceAs (Decidable (_ ∨ _))

end SerialWorker

/-! ### Messages -/

/-- A message of four words. -/
def fourWords (a b c d : Nat) : IpcMessage where
  words
    | 0 => a
    | 1 => b
    | 2 => c
    | 3 => d
  wordCount := 4

/-- The request that `serial_worker_call` sends. -/
def serialRequest (sequence : Nat) (r : SerialRequest) : IpcMessage :=
  fourWords serialRequestTag sequence r.operation.toNat r.argument

/-- The reply that `worker_main` sends. -/
def serialReply (sequence : Nat) (result : BitVec 32) (thread : Nat) : IpcMessage :=
  fourWords serialReplyTag sequence result.toNat thread

/-- `worker_main` takes a message for the next request. -/
def SerialWorker.Acceptable (w : SerialWorker) (q : IpcMessage) : Prop :=
  w.poisoned = false ∧ q.wordCount = 4 ∧ q.words 0 = serialRequestTag ∧ w.received ≠ max64 ∧
    q.words 1 = w.received + 1 ∧ q.words 2 ≠ 0 ∧ q.words 2 < serialWorkerAbort.toNat

instance (w : SerialWorker) (q : IpcMessage) : Decidable (w.Acceptable q) :=
  inferInstanceAs (Decidable (_ ∧ _))

/-- `serial_worker_call` takes a message for the answer to its request; the third word has
no bit beside OK and STOP. -/
def SerialWorker.Answers (w : SerialWorker) (r : IpcMessage) : Prop :=
  r.wordCount = 4 ∧ r.words 0 = serialReplyTag ∧ r.words 1 = w.sequence ∧ r.words 2 < 4 ∧
    r.words 3 = w.thread.id

instance (w : SerialWorker) (r : IpcMessage) : Decidable (w.Answers r) :=
  inferInstanceAs (Decidable (_ ∧ _))

/-- `r.words[2] & SERIAL_WORKER_OK`. -/
def IpcMessage.serialOk (r : IpcMessage) : Bool := (r.words 2).testBit 0
/-- `r.words[2] & SERIAL_WORKER_STOP`. -/
def IpcMessage.serialStop (r : IpcMessage) : Bool := (r.words 2).testBit 1

/-! ### The two threads -/

/-- Where the worker stands in `worker_main`. -/
inductive WorkerPc
  /-- There is no thread, or it was never added to the run queue. -/
  | absent
  /-- At the head of the loop. -/
  | top
  | ticking
  | ticked (result : BitVec 32)
  /-- In `ipc_receive_blocking_for`. -/
  | listening
  | took (q : IpcMessage)
  | working (q : IpcMessage)
  | worked (result : BitVec 32)
  /-- In `ipc_send_blocking_for`. -/
  | replying (result : BitVec 32)
  /-- `abort_work`, before it poisons the worker. -/
  | aborting
  /-- `abort_work`, before the call-back. -/
  | abortCall
  /-- Behind the loop. -/
  | ending
  | exiting
  | dead
  deriving DecidableEq

/-- What `serial_worker_reap` has to do next. -/
inductive ReapStage
  | thread | closeRequest | closeReply | capabilities
  | requestSend | requestReceive | replySend | replyReceive
  | destroyRequest | destroyReply | clear
  deriving Repr, DecidableEq

/-- Who called `serial_worker_reap`. -/
inductive ReapCaller
  | owner
  /-- `serial_worker_call`, which returns its result. -/
  | call (r : SerialRequest) (outOk : Bool)
  /-- `serial_worker_start`, which fails. -/
  | start
  deriving Repr, DecidableEq

/-- Where the owner stands. -/
inductive OwnerPc
  | idle
  /-- `serial_worker_call`: the worker is active. -/
  | checked (r : SerialRequest)
  | entered (r : SerialRequest)
  | numbering (r : SerialRequest)
  | sending (r : SerialRequest)
  | receiving (r : SerialRequest)
  /-- In `wait_dead`. -/
  | waiting (r : SerialRequest) (reply : IpcMessage)
  /-- The call has failed and is about to poison the worker. -/
  | failing (r : SerialRequest) (outOk : Bool)
  /-- About to clear `calling`; without a reply the call has failed. -/
  | leaving (r : SerialRequest) (outOk : Bool) (reply : Option IpcMessage)
  /-- At the head of `serial_worker_reap`. -/
  | reap (caller : ReapCaller)
  | reaping (caller : ReapCaller) (stage : ReapStage)
  deriving DecidableEq

/-- The worker, its messages and its two threads. -/
structure SerialWorld where
  worker : SerialWorker
  requests : List IpcMessage
  replies : List IpcMessage
  workerPc : WorkerPc
  ownerPc : OwnerPc
  /-- The calls of `serial_worker_call`. -/
  made : List SerialRequest
  /-- Those that were given a sequence number. -/
  issued : List SerialRequest
  log : List SerialDispatch
  /-- The number of calls issued when the first of them failed. -/
  failed : Option Nat

/-- Before `serial_worker_start`. -/
def SerialWorld.boot : SerialWorld where
  worker := .zero
  requests := []
  replies := []
  workerPc := .absent
  ownerPc := .idle
  made := []
  issued := []
  log := []
  failed := none

inductive SerialEvent
  | quiet
  | dispatch (d : SerialDispatch)
  | called (r : SerialRequest)
  /-- `serial_worker_call` returns. -/
  | returned (r : SerialRequest) (result outOk : Bool)
  | started (result : Bool)
  | reaped (result : Bool)

/-- What the worker thread is told. -/
structure WorkerEnv where
  /-- The timer and preemption are as they were when the worker was started. -/
  timerSame : Bool
  /-- The result of the call-back. -/
  result : BitVec 32
  inbox : Option IpcMessage
  /-- The receive returned because the interval is over. -/
  intervalOver : Bool
  accepted : Bool

namespace SerialWorld

variable (s : SerialWorld)

/-- The call-back runs. -/
def dispatch (d : SerialDispatch) : SerialWorld := { s with log := s.log ++ [d] }

/-- One step of `worker_main`; the thread has none when it does not exist. -/
def workerStep (env : WorkerEnv) : Option (SerialEvent × SerialWorld) :=
  match s.workerPc with
  | .absent | .dead => none
  | .top =>
    if s.worker.poisoned ∨ env.timerSame = false then some (.quiet, { s with workerPc := .aborting })
    else some (.quiet, { s with workerPc := .ticking })
  | .ticking =>
    let d := ⟨⟨serialWorkerTick, 0⟩, env.result, 0⟩
    some (.dispatch d,
      { s.dispatch d with
        worker := { s.worker with periodicCalls := succ64 s.worker.periodicCalls }
        workerPc := .ticked env.result })
  | .ticked result =>
    if result ≠ serialWorkerOk ∨ s.worker.poisoned then some (.quiet, { s with workerPc := .aborting })
    else some (.quiet, { s with workerPc := .listening })
  | .listening =>
    match env.inbox with
    | none =>
      if env.intervalOver then some (.quiet, { s with workerPc := .top })
      else some (.quiet, { s with workerPc := .aborting })
    | some q => some (.quiet, { s with workerPc := .took q })
  | .took q =>
    if s.worker.Acceptable q then
      some (.quiet, { s with
        worker := { s.worker with received := q.words 1 }
        workerPc := .working q })
    else some (.quiet, { s with workerPc := .aborting })
  | .working q =>
    let d := ⟨⟨BitVec.ofNat 32 (q.words 2), q.words 3⟩, env.result, s.worker.received⟩
    some (.dispatch d, { s.dispatch d with workerPc := .worked env.result })
  | .worked result =>
    if result &&& ~~~(serialWorkerOk ||| serialWorkerStop) ≠ 0 then
      some (.quiet, { s with workerPc := .aborting })
    else
      some (.quiet, { s with
        replies := serialReply s.worker.received result s.worker.thread.id :: s.replies
        workerPc := .replying result })
  | .replying result =>
    if env.accepted = false then some (.quiet, { s with workerPc := .aborting })
    else if result &&& serialWorkerStop ≠ 0 then some (.quiet, { s with workerPc := .ending })
    else some (.quiet, { s with workerPc := .top })
  | .aborting =>
    some (.quiet, { s with worker := { s.worker with poisoned := true }, workerPc := .abortCall })
  | .abortCall =>
    let d := ⟨⟨serialWorkerAbort, 0⟩, env.result, 0⟩
    some (.dispatch d, { s.dispatch d with workerPc := .ending })
  | .ending => some (.quiet, { s with worker := { s.worker with active := false }, workerPc := .exiting })
  | .exiting =>
    some (.quiet, { s with
      worker := { s.worker with
        thread := { s.worker.thread with state := .dead, onRunQueue := false, waitActive := false } }
      workerPc := .dead })

end SerialWorld

/-- How far `serial_worker_start` gets. -/
structure StartEnv where
  /-- The arguments, the timer and the calling thread are acceptable. -/
  ready : Bool
  ownerId : Nat
  frequency : Nat
  interval : Nat
  capabilities : Bool
  request : Bool
  reply : Bool
  /-- The four handles, zero where `capability_insert` fails. -/
  requestSend : Nat
  requestReceive : Nat
  replySend : Nat
  replyReceive : Nat
  /-- The id of the thread, `none` when `thread_create` fails. -/
  thread : Option Nat
  prepared : Bool
  added : Bool

/-- The stages of `serial_worker_start`, on a record that was just cleared. -/
def SerialWorker.start (env : StartEnv) : Bool × SerialWorker :=
  let w := { SerialWorker.zero with
    ownerId := env.ownerId, frequency := env.frequency, interval := env.interval }
  if env.capabilities = false then (false, w)
  else if env.request = false then (false, w)
  else
    let w := { w with requestCreated := true }
    if env.reply = false then (false, w)
    else
      let w := { w with replyCreated := true }
      if env.requestSend = 0 then (false, w)
      else
        let w := { w with requestSend := env.requestSend }
        if env.requestReceive = 0 then (false, w)
        else
          let w := { w with requestReceive := env.requestReceive }
          if env.replySend = 0 then (false, w)
          else
            let w := { w with replySend := env.replySend }
            if env.replyReceive = 0 then (false, w)
            else
              let w := { w with replyReceive := env.replyReceive }
              match env.thread with
              | none => (false, w)
              | some id =>
                let w := { w with thread := ⟨id, .ready, false, false⟩, threadCreated := true }
                if env.prepared = false then (false, w)
                else if env.added = false then (false, w)
                else
                  (true, { w with
                    active := true
                    published := true
                    thread := { w.thread with onRunQueue := true } })

/-- What the owner thread does next when it is not inside one of the functions. -/
inductive OwnerChoice
  | call (r : SerialRequest)
  | reap
  | start (env : StartEnv)

/-- What the owner thread is told. -/
structure OwnerEnv where
  choice : OwnerChoice
  /-- `caller(w)` holds of a record with this owner. -/
  self : Nat
  interruptsEnabled : Bool
  frequencySame : Bool
  accepted : Bool
  inbox : Option IpcMessage
  /-- `wait_dead` goes on waiting. -/
  patient : Bool
  /-- The next operation of `serial_worker_reap` succeeds. -/
  done : Bool

namespace SerialWorld

variable (s : SerialWorld)

/-- `serial_worker_reap` returns `b` to its caller. -/
def reapReturn (b : Bool) : ReapCaller → SerialEvent × SerialWorld
  | .owner => (.reaped b, { s with ownerPc := .idle })
  | .call r outOk =>
    (.returned r b outOk,
      { s with
        ownerPc := .idle
        failed := if b then s.failed else s.failed <|> some s.issued.length })
  | .start => (.started false, { s with ownerPc := .idle })

/-- The record behind one stage of `serial_worker_reap`, when the stage succeeds, and the
stage that follows. -/
def ReapStage.exec (w : SerialWorker) : ReapStage → SerialWorker × ReapStage
  | .thread => ({ w with threadCreated := false }, .closeRequest)
  | .closeRequest => (w, .closeReply)
  | .closeReply => (w, .capabilities)
  | .capabilities => (w, .requestSend)
  | .requestSend => ({ w with requestSend := 0 }, .requestReceive)
  | .requestReceive => ({ w with requestReceive := 0 }, .replySend)
  | .replySend => ({ w with replySend := 0 }, .replyReceive)
  | .replyReceive => ({ w with replyReceive := 0 }, .destroyRequest)
  | .destroyRequest => ({ w with requestCreated := false }, .destroyReply)
  | .destroyReply => ({ w with replyCreated := false }, .clear)
  | .clear => (.zero, .clear)

/-- There is something for the stage to do; if not, it is passed over. -/
def ReapStage.Due (w : SerialWorker) : ReapStage → Prop
  | .thread => w.threadCreated
  | .closeRequest | .destroyRequest => w.requestCreated
  | .closeReply | .destroyReply => w.replyCreated
  | .requestSend => w.requestSend ≠ 0
  | .requestReceive => w.requestReceive ≠ 0
  | .replySend => w.replySend ≠ 0
  | .replyReceive => w.replyReceive ≠ 0
  | .capabilities => True
  | .clear => False

instance (w : SerialWorker) (stage : ReapStage) : Decidable (ReapStage.Due w stage) :=
  match stage with
  | .thread | .closeRequest | .destroyRequest | .closeReply | .destroyReply =>
    inferInstanceAs (Decidable (_ = true))
  | .requestSend | .requestReceive | .replySend | .replyReceive =>
    inferInstanceAs (Decidable (_ ≠ 0))
  | .capabilities => inferInstanceAs (Decidable True)
  | .clear => inferInstanceAs (Decidable False)

/-- One stage of `serial_worker_reap`. -/
def reapStep (env : OwnerEnv) (caller : ReapCaller) (stage : ReapStage) :
    SerialEvent × SerialWorld :=
  if stage = .clear then { s with worker := .zero }.reapReturn true caller
  else if ReapStage.Due s.worker stage ∧ env.done = false then s.reapReturn false caller
  else
    (.quiet,
      { s with
        worker := if ReapStage.Due s.worker stage then (ReapStage.exec s.worker stage).1 else s.worker
        workerPc :=
          -- a thread that is destroyed does not run again
          if stage = .thread ∧ s.worker.threadCreated then .absent else s.workerPc
        ownerPc := .reaping caller (ReapStage.exec s.worker stage).2 })

/-- `serial_worker_call` returns false before it has issued a request. -/
def refuse (r : SerialRequest) : SerialEvent × SerialWorld :=
  (.returned r false false, { s with ownerPc := .idle })

/-- One step of the owner thread. -/
def ownerStep (env : OwnerEnv) : SerialEvent × SerialWorld :=
  match s.ownerPc with
  | .idle =>
    match env.choice with
    | .call r =>
      let s := { s with made := s.made ++ [r] }
      if s.worker.ownerId ≠ env.self ∨ env.self = 0 ∨ s.worker.active = false then s.refuse r
      else (.called r, { s with ownerPc := .checked r })
    | .reap => (.quiet, { s with ownerPc := .reap .owner })
    | .start senv =>
      if s.worker.Present ∨ senv.ready = false then (.started false, s)
      else
        match SerialWorker.start senv with
        | (true, w) => (.started true, { boot with worker := w, workerPc := .top })
        | (false, w) => (.quiet, { boot with worker := w, ownerPc := .reap .start })
  | .checked r =>
    if s.worker.poisoned ∨ r.operation = 0 ∨ r.operation = serialWorkerAbort then s.refuse r
    else if s.worker.sequence = max64 then
      { s with worker := { s.worker with poisoned := true } }.refuse r
    else (.quiet, { s with ownerPc := .entered r })
  | .entered r =>
    if s.worker.calling ∨ env.interruptsEnabled = false then s.refuse r
    else
      (.quiet, { s with worker := { s.worker with calling := true }, ownerPc := .numbering r })
  | .numbering r =>
    let w := { s.worker with sequence := s.worker.sequence + 1 }
    let s := { s with worker := w, issued := s.issued ++ [r] }
    if env.frequencySame = false then (.quiet, { s with ownerPc := .failing r false })
    else
      (.quiet, { s with
        requests := serialRequest w.sequence r :: s.requests
        ownerPc := .sending r })
  | .sending r =>
    if env.accepted then (.quiet, { s with ownerPc := .receiving r })
    else (.quiet, { s with ownerPc := .failing r false })
  | .receiving r =>
    match env.inbox with
    | none => (.quiet, { s with ownerPc := .failing r false })
    | some m =>
      if ¬ s.worker.Answers m then (.quiet, { s with ownerPc := .failing r false })
      else if m.serialStop then (.quiet, { s with ownerPc := .waiting r m })
      else (.quiet, { s with ownerPc := .leaving r m.serialOk (some m) })
  | .waiting r m =>
    if s.worker.Dead then (.quiet, { s with ownerPc := .leaving r m.serialOk (some m) })
    else if env.patient then (.quiet, s)
    else (.quiet, { s with ownerPc := .failing r m.serialOk })
  | .failing r outOk =>
    (.quiet, { s with
      worker := { s.worker with poisoned := true }
      ownerPc := .leaving r outOk none
      failed := s.failed <|> some s.issued.length })
  | .leaving r outOk reply =>
    let s := { s with worker := { s.worker with calling := false } }
    match reply with
    | none => (.returned r false outOk, { s with ownerPc := .idle })
    | some m =>
      if m.serialStop then (.quiet, { s with ownerPc := .reap (.call r outOk) })
      else (.returned r true outOk, { s with ownerPc := .idle })
  | .reap caller =>
    if ¬ s.worker.Present then s.reapReturn true caller
    else if s.worker.ownerId ≠ env.self ∨ env.self = 0 ∨ s.worker.calling then
      s.reapReturn false caller
    else if s.worker.ReapSafe then (.quiet, { s with ownerPc := .reaping caller .thread })
    else s.reapReturn false caller
  | .reaping caller stage => s.reapStep env caller stage

end SerialWorld

end JcosKernel
