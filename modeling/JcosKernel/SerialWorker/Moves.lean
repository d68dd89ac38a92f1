import JcosKernel.SerialWorker.Model
import JcosKernel.Lib.Run

/-!
# JcosKernel.SerialWorker.Moves

The steps of the two threads of a serial worker, listed: `WorkerMove` and `OwnerMove` name
everything that a step of `workerStep` or `ownerStep` can do and the condition it is done
under. The invariants are proved by cases on the moves; the code is looked at here only.
-/

namespace JcosKernel

open Lib

namespace WorkerPc

/-- The worker thread exists and will run. -/
def Alive : WorkerPc → Prop
  | absent | dead => False
  | _ => True

/-- Moves inside the loop of `worker_main` that only look. -/
inductive Looks : WorkerPc → WorkerPc → Prop
  | tick : Looks top ticking
  | listen {result : BitVec 32} : Looks (ticked result) listening
  | again : Looks listening top
  | next {result : BitVec 32} : Looks (replying result) top
  | abortTop : Looks top aborting
  | abortTicked {result : BitVec 32} : Looks (ticked result) aborting
  | abortListening : Looks listening aborting
  | abortTook {q : IpcMessage} : Looks (took q) aborting
  | abortWorked {result : BitVec 32} : Looks (worked result) aborting
  | abortReplying {result : BitVec 32} : Looks (replying result) aborting

end WorkerPc

/-- What one step of the worker does. -/
inductive WorkerMove (s : SerialWorld) : SerialEvent → SerialWorld → Prop
  | look {pc : WorkerPc} (h : s.workerPc.Looks pc) :
      WorkerMove s .quiet { s with workerPc := pc }
  | tick {n : Nat} (result : BitVec 32) (h : s.workerPc = .ticking) :
      WorkerMove s (.dispatch ⟨⟨serialWorkerTick, 0⟩, result, 0⟩)
        { s.dispatch ⟨⟨serialWorkerTick, 0⟩, result, 0⟩ with
          worker := { s.worker with periodicCalls := n }
          workerPc := .ticked result }
  | take {q : IpcMessage} (h : s.workerPc = .listening) (hq : q ∈ s.requests) :
      WorkerMove s .quiet { s with workerPc := .took q }
  | accept {q : IpcMessage} (h : s.workerPc = .took q)
      (hq : s.worker.Acceptable q) :
      WorkerMove s .quiet { s with
        worker := { s.worker with received := q.words 1 }
        workerPc := .working q }
  | work {q : IpcMessage} (result : BitVec 32) (h : s.workerPc = .working q) :
      WorkerMove s
        (.dispatch ⟨⟨BitVec.ofNat 32 (q.words 2), q.words 3⟩, result, s.worker.received⟩)
        { s.dispatch ⟨⟨BitVec.ofNat 32 (q.words 2), q.words 3⟩, result, s.worker.received⟩ with
          workerPc := .worked result }
  | reply {result : BitVec 32} (h : s.workerPc = .worked result) :
      WorkerMove s .quiet { s with
        replies := serialReply s.worker.received result s.worker.thread.id :: s.replies
        workerPc := .replying result }
  | stop {result : BitVec 32} (h : s.workerPc = .replying result)
      (hstop : result &&& serialWorkerStop ≠ 0) :
      WorkerMove s .quiet { s with workerPc := .ending }
  | poison (h : s.workerPc = .aborting) :
      WorkerMove s .quiet { s with
        worker := { s.worker with poisoned := true }
        workerPc := .abortCall }
  | abort (result : BitVec 32) (h : s.workerPc = .abortCall) :
      WorkerMove s (.dispatch ⟨⟨serialWorkerAbort, 0⟩, result, 0⟩)
        { s.dispatch ⟨⟨serialWorkerAbort, 0⟩, result, 0⟩ with workerPc := .ending }
  | retire (h : s.workerPc = .ending) :
      WorkerMove s .quiet { s with
        worker := { s.worker with active := false }
        workerPc := .exiting }
  | exit (h : s.workerPc = .exiting) :
      WorkerMove s .quiet { s with
        worker := { s.worker with
          thread := { s.worker.thread with state := .dead, onRunQueue := false, waitActive := false } }
        workerPc := .dead }

theorem SerialWorld.workerStep_move {s s' : SerialWorld} {e : SerialEvent} {env : WorkerEnv}
    (hin : ∀ q, env.inbox = some q → q ∈ s.requests) (h : s.workerStep env = some (e, s')) :
    WorkerMove s e s' := by
  cases hpc : s.workerPc with simp only [workerStep, hpc] at h
  | absent | dead => cases h
  | top =>
    split_ifs at h
    all_goals cases h
    · exact .look (hpc ▸ .abortTop)
    · exact .look (hpc ▸ .tick)
  | ticking =>
    cases h
    exact .tick env.result hpc
  | ticked result =>
    split_ifs at h
    all_goals cases h
    · exact .look (hpc ▸ .abortTicked)
    · exact .look (hpc ▸ .listen)
  | listening =>
    cases hq : env.inbox with
    | none =>
      simp only [hq] at h
      split_ifs at h
      all_goals cases h
      · exact .look (hpc ▸ .again)
      · exact .look (hpc ▸ .abortListening)
    | some q =>
      simp only [hq] at h
      cases h
      exact .take hpc (hin q hq)
  | took q =>
    split_ifs at h with hok
    all_goals cases h
    · exact .accept hpc hok
    · exact .look (hpc ▸ .abortTook)
  | working q =>
    cases h
    exact .work env.result hpc
  | worked result =>
    split_ifs at h
    all_goals cases h
    · exact .look (hpc ▸ .abortWorked)
    · exact .reply hpc
  | replying result =>
    split_ifs at h with hacc hstop
    all_goals cases h
    · exact .look (hpc ▸ .abortReplying)
    · exact .stop hpc hstop
    · exact .look (hpc ▸ .next)
  | aborting =>
    cases h
    exact .poison hpc
  | abortCall =>
    cases h
    exact .abort env.result hpc
  | ending =>
    cases h
    exact .retire hpc
  | exiting =>
    cases h
    exact .exit hpc

/-! ### The owner -/

namespace OwnerPc

/-- Failures of a call that was issued. -/
inductive Fails (r : SerialRequest) : OwnerPc → OwnerPc → Prop
  | sending : Fails r (sending r) (failing r false)
  | receiving : Fails r (receiving r) (failing r false)
  | waiting {m : IpcMessage} : Fails r (waiting r m) (failing r m.serialOk)

end OwnerPc

/-- The record after a stage of `serial_worker_reap`: it names fewer objects, and nothing
else has changed. -/
structure SerialWorker.Reaped (w w' : SerialWorker) : Prop where
  thread : w'.thread = w.thread
  ownerId : w'.ownerId = w.ownerId
  sequence : w'.sequence = w.sequence
  received : w'.received = w.received
  published : w'.published = w.published
  active : w'.active = w.active
  calling : w'.calling = w.calling
  poisoned : w'.poisoned = w.poisoned
  threadCreated : w'.threadCreated = true → w.threadCreated = true

/-- What one step of the owner does. -/
inductive OwnerMove (s : SerialWorld) : SerialEvent → SerialWorld → Prop
  /-- A call is refused at once. -/
  | reject (r : SerialRequest) (h : s.ownerPc = .idle) :
      OwnerMove s (.returned r false false) { s with made := s.made ++ [r], ownerPc := .idle }
  | call (r : SerialRequest) (h : s.ownerPc = .idle)
      (hactive : s.worker.active = true) :
      OwnerMove s (.called r) { s with made := s.made ++ [r], ownerPc := .checked r }
  | refuse {r : SerialRequest}
      (h : s.ownerPc = .checked r ∨ s.ownerPc = .entered r) :
      OwnerMove s (.returned r false false) { s with ownerPc := .idle }
  /-- The sequence numbers are used up. -/
  | exhaust {r : SerialRequest} (h : s.ownerPc = .checked r) :
      OwnerMove s (.returned r false false)
        { s with worker := { s.worker with poisoned := true }, ownerPc := .idle }
  | enter {r : SerialRequest} (h : s.ownerPc = .checked r)
      (hpoison : s.worker.poisoned = false) (h0 : r.operation ≠ 0)
      (hab : r.operation ≠ serialWorkerAbort) (hseq : s.worker.sequence ≠ max64) :
      OwnerMove s .quiet { s with ownerPc := .entered r }
  | lock {r : SerialRequest} (h : s.ownerPc = .entered r) :
      OwnerMove s .quiet { s with
        worker := { s.worker with calling := true }, ownerPc := .numbering r }
  | issue {r : SerialRequest} (h : s.ownerPc = .numbering r) :
      OwnerMove s .quiet { s with
        worker := { s.worker with sequence := s.worker.sequence + 1 }
        issued := s.issued ++ [r]
        requests := serialRequest (s.worker.sequence + 1) r :: s.requests
        ownerPc := .sending r }
  /-- The timer has changed: the request is not sent. -/
  | misfire {r : SerialRequest} (h : s.ownerPc = .numbering r) :
      OwnerMove s .quiet { s with
        worker := { s.worker with sequence := s.worker.sequence + 1 }
        issued := s.issued ++ [r]
        ownerPc := .failing r false }
  | sent {r : SerialRequest} (h : s.ownerPc = .sending r) :
      OwnerMove s .quiet { s with ownerPc := .receiving r }
  | fail {r : SerialRequest} {pc : OwnerPc} (h : s.ownerPc.Fails r pc) :
      OwnerMove s .quiet { s with ownerPc := pc }
  | answer {r : SerialRequest} {m : IpcMessage} (h : s.ownerPc = .receiving r)
      (hm : m ∈ s.replies) (ha : s.worker.Answers m) (hstop : m.serialStop = false) :
      OwnerMove s .quiet { s with ownerPc := .leaving r m.serialOk (some m) }
  | answerStop {r : SerialRequest} {m : IpcMessage}
      (h : s.ownerPc = .receiving r) (hm : m ∈ s.replies) (ha : s.worker.Answers m)
      (hstop : m.serialStop = true) :
      OwnerMove s .quiet { s with ownerPc := .waiting r m }
  | died {r : SerialRequest} {m : IpcMessage} (h : s.ownerPc = .waiting r m)
      (hdead : s.worker.Dead) :
      OwnerMove s .quiet { s with ownerPc := .leaving r m.serialOk (some m) }
  | stay : OwnerMove s .quiet s
  | poison {r : SerialRequest} {ok : Bool} (h : s.ownerPc = .failing r ok) :
      OwnerMove s .quiet { s with
        worker := { s.worker with poisoned := true }
        ownerPc := .leaving r ok none
        failed := s.failed <|> some s.issued.length }
  | giveUp {r : SerialRequest} {ok : Bool} (h : s.ownerPc = .leaving r ok none) :
      OwnerMove s (.returned r false ok)
        { s with worker := { s.worker with calling := false }, ownerPc := .idle }
  | finish {r : SerialRequest} {ok : Bool} {m : IpcMessage}
      (h : s.ownerPc = .leaving r ok (some m)) (hstop : m.serialStop = false) :
      OwnerMove s (.returned r true ok)
        { s with worker := { s.worker with calling := false }, ownerPc := .idle }
  | finishStop {r : SerialRequest} {ok : Bool} {m : IpcMessage}
      (h : s.ownerPc = .leaving r ok (some m)) (hstop : m.serialStop = true) :
      OwnerMove s .quiet
        { s with worker := { s.worker with calling := false }, ownerPc := .reap (.call r ok) }
  | wantReap (h : s.ownerPc = .idle) :
      OwnerMove s .quiet { s with ownerPc := .reap .owner }
  | startRefused (h : s.ownerPc = .idle) : OwnerMove s (.started false) s
  | started {env : StartEnv} {w : SerialWorker} (h : s.ownerPc = .idle)
      (hp : ¬ s.worker.Present) (hw : SerialWorker.start env = (true, w)) :
      OwnerMove s (.started true) { SerialWorld.boot with worker := w, workerPc := .top }
  | startFailed {env : StartEnv} {w : SerialWorker} (h : s.ownerPc = .idle)
      (hp : ¬ s.worker.Present) (hw : SerialWorker.start env = (false, w)) :
      OwnerMove s .quiet { SerialWorld.boot with worker := w, ownerPc := .reap .start }
  /-- `serial_worker_reap` returns with the record as it is. -/
  | reapEnd {caller : ReapCaller} (b : Bool)
      (h : s.ownerPc = .reap caller ∨ ∃ stage, s.ownerPc = .reaping caller stage) :
      OwnerMove s (s.reapReturn b caller).1 (s.reapReturn b caller).2
  | reapSafe {caller : ReapCaller} (h : s.ownerPc = .reap caller)
      (hsafe : s.worker.ReapSafe) :
      OwnerMove s .quiet { s with ownerPc := .reaping caller .thread }
  | reapStage {caller : ReapCaller} {stage stage' : ReapStage} {w : SerialWorker}
      {pc : WorkerPc} (h : s.ownerPc = .reaping caller stage) (hw : s.worker.Reaped w)
      (hpc : pc = s.workerPc ∨ pc = .absent) :
      OwnerMove s .quiet { s with
        worker := w, workerPc := pc, ownerPc := .reaping caller stage' }
  | cleared {caller : ReapCaller} (h : s.ownerPc = .reaping caller .clear) :
      OwnerMove s ({ s with worker := .zero }.reapReturn true caller).1
        ({ s with worker := .zero }.reapReturn true caller).2

theorem SerialWorld.ReapStage.exec_reaped (w : SerialWorker) {stage : ReapStage}
    (h : stage ≠ .clear) : w.Reaped (ReapStage.exec w stage).1 := by
  cases stage with
  | clear => exact absurd rfl h
  | thread => exact ⟨rfl, rfl, rfl, rfl, rfl, rfl, rfl, rfl, nofun⟩
  | _ => exact ⟨rfl, rfl, rfl, rfl, rfl, rfl, rfl, rfl, id⟩

theorem SerialWorld.reapStep_move {s : SerialWorld} (env : OwnerEnv) {caller : ReapCaller}
    {stage : ReapStage} (h : s.ownerPc = .reaping caller stage) :
    OwnerMove s (s.reapStep env caller stage).1 (s.reapStep env caller stage).2 := by
  unfold reapStep
  by_cases hclear : stage = .clear
  · rw [if_pos hclear]
    exact .cleared (hclear ▸ h)
  split_ifs with hfail hdue hthread hthread
  · exact .reapEnd false (.inr ⟨stage, h⟩)
  · exact .reapStage h (ReapStage.exec_reaped _ hclear) (.inr rfl)
  · exact .reapStage h (ReapStage.exec_reaped _ hclear) (.inl rfl)
  · exact .reapStage h ⟨rfl, rfl, rfl, rfl, rfl, rfl, rfl, rfl, id⟩ (.inr rfl)
  · exact .reapStage h ⟨rfl, rfl, rfl, rfl, rfl, rfl, rfl, rfl, id⟩ (.inl rfl)

theorem SerialWorld.ownerStep_move {s : SerialWorld} {env : OwnerEnv}
    (hin : ∀ m, env.inbox = some m → m ∈ s.replies) :
    OwnerMove s (s.ownerStep env).1 (s.ownerStep env).2 := by
  cases hpc : s.ownerPc with simp only [ownerStep, hpc]
  | idle =>
    cases env.choice with
    | call r =>
      split_ifs with hrefuse
      · exact .reject r hpc
      · rw [not_or, not_or] at hrefuse
        exact .call r hpc (by simpa using hrefuse.2.2)
    | reap => exact .wantReap hpc
    | start senv =>
      dsimp only
      split_ifs with hrefuse
      · exact .startRefused hpc
      · rw [not_or] at hrefuse
        rcases hw : SerialWorker.start senv with ⟨b, w⟩
        cases b with
        | true => exact .started hpc hrefuse.1 hw
        | false => exact .startFailed hpc hrefuse.1 hw
  | checked r =>
    split_ifs with hrefuse hmax
    · exact .refuse (.inl hpc)
    · exact .exhaust hpc
    · rw [not_or, not_or] at hrefuse
      exact .enter hpc (by simpa using hrefuse.1) hrefuse.2.1 hrefuse.2.2 hmax
  | entered r =>
    split_ifs
    · exact .refuse (.inr hpc)
    · exact .lock hpc
  | numbering r =>
    split_ifs
    · exact .misfire hpc
    · exact .issue hpc
  | sending r =>
    split_ifs
    · exact .sent hpc
    · exact .fail (r := r) (hpc ▸ .sending)
  | receiving r =>
    cases hm : env.inbox with
    | none => exact .fail (r := r) (hpc ▸ .receiving)
    | some m =>
      dsimp only
      -- a reply to another request poisons the worker, as no reply does
      by_cases ha : s.worker.Answers m
      · split_ifs with hstop
        · exact .answerStop hpc (hin m hm) ha hstop
        · exact .answer hpc (hin m hm) ha (by simpa using hstop)
      · rw [if_pos ha]
        exact .fail (r := r) (hpc ▸ .receiving)
  | waiting r m =>
    split_ifs with hdead hwait
    · exact .died hpc hdead
    · exact .stay
    · exact .fail (r := r) (hpc ▸ .waiting)
  | failing r ok =>
    exact .poison hpc
  | leaving r ok reply =>
    cases reply with
    | none => exact .giveUp hpc
    | some m =>
      dsimp only
      split_ifs with hstop
      · exact .finishStop hpc hstop
      · exact .finish hpc (by simpa using hstop)
  | reap caller =>
    by_cases hp : s.worker.Present
    · split_ifs with hself hsafe
      · exact .reapEnd false (.inl hpc)
      · exact .reapSafe hpc hsafe
      · exact .reapEnd false (.inl hpc)
    · rw [if_pos hp]
      exact .reapEnd true (.inl hpc)
  | reaping caller stage =>
    exact reapStep_move env hpc

end JcosKernel
