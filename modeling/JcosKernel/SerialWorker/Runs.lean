import Mathlib.Data.List.Range
import JcosKernel.SerialWorker.Moves

/-!
# JcosKernel.SerialWorker.Runs

**At most once, in order, with the right result.** A run interleaves steps of the worker
and of its owner in any order. What is proved of every run comes from five invariants,
each kept by every move:

* `ThreadInv`: when the worker thread exists, and that nothing is reaped before it is dead;
* `LogInv`: ABORT ends the log, and the thread ends behind ABORT or STOP;
* `ServeInv`: the requests that were served are the first ones that were issued, each one
  once, and every reply tells the result of one of them;
* `CallInv`: a call holds the reply to its own request;
* `FailInv`: nothing is issued once a call has failed.
-/

namespace JcosKernel

open Lib SerialWorld

inductive SerialStep : SerialWorld → SerialEvent → SerialWorld → Prop
  | worker {s s' : SerialWorld} {e : SerialEvent} (env : WorkerEnv)
      (hin : ∀ q, env.inbox = some q → q ∈ s.requests) (h : s.workerStep env = some (e, s')) :
      SerialStep s e s'
  | owner {s : SerialWorld} (env : OwnerEnv) (hin : ∀ m, env.inbox = some m → m ∈ s.replies) :
      SerialStep s (s.ownerStep env).1 (s.ownerStep env).2
  /-- The scheduler queues the worker thread, runs it, or lets it wait. -/
  | schedule {s : SerialWorld} (state : ThreadRunState) (onRunQueue waitActive : Bool)
      (halive : s.workerPc.Alive) (hstate : state ≠ .dead) :
      SerialStep s .quiet { s with
        worker := { s.worker with
          thread := { s.worker.thread with
            state := state, onRunQueue := onRunQueue, waitActive := waitActive } } }

/-- The call-back is called for a request. -/
def SerialDispatch.IsOperation (d : SerialDispatch) : Prop :=
  d.request.operation ≠ serialWorkerTick ∧ d.request.operation ≠ serialWorkerAbort

instance (d : SerialDispatch) : Decidable d.IsOperation := inferInstanceAs (Decidable (_ ∧ _))

/-- The dispatches other than TICK and ABORT. -/
def served (log : List SerialDispatch) : List SerialDispatch :=
  log.filter fun d => decide d.IsOperation

variable {s s' : SerialWorld} {r : SerialRequest} {e : SerialEvent} {m q : IpcMessage}
  {w : SerialWorker} {d : SerialDispatch} {result : BitVec 32} {pc pc' : WorkerPc} {b ok : Bool}
  {caller : ReapCaller}

theorem served_append_operation {log : List SerialDispatch} (h : d.IsOperation) :
    served (log ++ [d]) = served log ++ [d] := by
  simp [served, h]

theorem served_append_other {log : List SerialDispatch} (h : ¬ d.IsOperation) :
    served (log ++ [d]) = served log := by
  simp [served, h]

@[simp] theorem served_append_tick {log : List SerialDispatch} :
    served (log ++ [⟨⟨serialWorkerTick, 0⟩, result, 0⟩]) = served log :=
  served_append_other fun h => h.1 rfl

@[simp] theorem served_append_abort {log : List SerialDispatch} :
    served (log ++ [⟨⟨serialWorkerAbort, 0⟩, result, 0⟩]) = served log :=
  served_append_other fun h => h.2 rfl

@[simp] theorem SerialWorld.dispatch_log (s : SerialWorld) (d : SerialDispatch) :
    (s.dispatch d).log = s.log ++ [d] := rfl

/-! ### The thread -/

namespace OwnerPc

/-- Inside `serial_worker_call`, before the reaping. -/
def InCall : OwnerPc → Prop
  | checked _ | entered _ | numbering _ | sending _ | receiving _ | waiting _ _ | failing _ _
  | leaving _ _ _ => True
  | idle | reap _ | reaping _ _ => False

/-- Where the owner relies on the worker being gone. -/
def NeedsDead : OwnerPc → Prop
  | leaving _ _ (some m) => m.serialStop = true
  | reap (.call _ _) => True
  | reaping _ _ => True
  | _ => False

theorem Fails.inCall {pc pc' : OwnerPc} (h : pc.Fails r pc') :
    pc.InCall ∧ pc'.InCall ∧ ¬ pc'.NeedsDead := by
  cases h <;> exact ⟨trivial, trivial, nofun⟩

end OwnerPc

theorem WorkerPc.Looks.alive (h : pc.Looks pc') : pc.Alive ∧ pc'.Alive ∧ pc' ≠ .exiting := by
  cases h <;> exact ⟨trivial, trivial, nofun⟩

/-- What a step of the worker leaves alone. -/
structure WorkerFrame (s s' : SerialWorld) : Prop where
  ownerPc : s'.ownerPc = s.ownerPc
  made : s'.made = s.made
  issued : s'.issued = s.issued
  failed : s'.failed = s.failed
  requests : s'.requests = s.requests
  threadCreated : s'.worker.threadCreated = s.worker.threadCreated
  published : s'.worker.published = s.worker.published
  sequence : s'.worker.sequence = s.worker.sequence
  threadId : s'.worker.thread.id = s.worker.thread.id
  alive : s.workerPc.Alive
  poisoned : s.worker.poisoned = true → s'.worker.poisoned = true
  active : s'.worker.active = true → s.worker.active = true ∧
    (s.workerPc = .exiting ∨ s'.workerPc.Alive ∧ s'.workerPc ≠ .exiting)
  state : s'.workerPc.Alive → s'.worker.thread.state = s.worker.thread.state

theorem WorkerMove.frame (hm : WorkerMove s e s') : WorkerFrame s s' := by
  cases hm with
  | look hl =>
    obtain ⟨ha, ha'⟩ := hl.alive
    exact ⟨rfl, rfl, rfl, rfl, rfl, rfl, rfl, rfl, rfl, ha, id, fun h => ⟨h, .inr ha'⟩,
      fun _ => rfl⟩
  | poison hpc =>
    exact ⟨rfl, rfl, rfl, rfl, rfl, rfl, rfl, rfl, rfl, hpc ▸ trivial, fun _ => rfl,
      fun h => ⟨h, .inr ⟨trivial, nofun⟩⟩, fun _ => rfl⟩
  | retire hpc =>
    exact ⟨rfl, rfl, rfl, rfl, rfl, rfl, rfl, rfl, rfl, hpc ▸ trivial, id, nofun, fun _ => rfl⟩
  | exit hpc =>
    exact ⟨rfl, rfl, rfl, rfl, rfl, rfl, rfl, rfl, rfl, hpc ▸ trivial, id,
      fun h => ⟨h, .inl hpc⟩, nofun⟩
  | tick _ hpc | take hpc | accept hpc | work _ hpc | reply hpc | stop hpc | abort _ hpc =>
    exact ⟨rfl, rfl, rfl, rfl, rfl, rfl, rfl, rfl, rfl, hpc ▸ trivial, id,
      fun h => ⟨h, .inr ⟨trivial, nofun⟩⟩, fun _ => rfl⟩

structure ThreadInv (s : SerialWorld) : Prop where
  alive : s.workerPc.Alive → s.worker.threadCreated = true ∧ s.worker.published = true ∧
    s.worker.thread.state ≠ .dead
  active : s.worker.active = true → s.workerPc.Alive ∧ s.workerPc ≠ .exiting
  inCall : s.ownerPc.InCall → s.worker.threadCreated = true
  needsDead : s.ownerPc.NeedsDead → ¬ s.workerPc.Alive

/-- A record that `serial_worker_start` leaves behind. -/
theorem SerialWorker.start_spec {env : StartEnv} (h : SerialWorker.start env = (b, w)) :
    w.sequence = 0 ∧ w.received = 0 ∧ w.poisoned = false ∧ w.active = b ∧
      (b = true → w.threadCreated = true ∧ w.published = true ∧ w.thread.state = .ready) := by
  rcases hth : env.thread with _ | id
  all_goals
    simp only [SerialWorker.start, hth] at h
    split_ifs at h
  all_goals
    obtain ⟨rfl, rfl⟩ := Prod.mk.inj h
    refine ⟨rfl, rfl, rfl, rfl, ?_⟩
    first
    | exact fun _ => ⟨rfl, rfl, rfl⟩
    | exact nofun

/-- The reaping is begun only when the thread is gone or was never run. -/
theorem ThreadInv.not_alive_of_reapSafe (h : ThreadInv s) (hs : s.worker.ReapSafe) :
    ¬ s.workerPc.Alive := by
  intro ha
  obtain ⟨hcreated, hpub, hstate⟩ := h.alive ha
  obtain hno | hdead | hnever := hs
  · exact hno hcreated
  · exact hstate hdead.2.1
  · exact hnever.1 hpub

namespace ThreadInv

theorem boot : ThreadInv .boot := ⟨nofun, nofun, nofun, nofun⟩

theorem worker (h : ThreadInv s) (hm : WorkerMove s e s') : ThreadInv s' := by
  have f := hm.frame
  refine ⟨fun ha => ?_, fun ha => ?_, fun hc => ?_, fun hn => ?_⟩
  · rw [f.threadCreated, f.published, f.state ha]
    exact h.alive f.alive
  · obtain ⟨hact, hexit | halive⟩ := f.active ha
    · exact absurd hexit (h.active hact).2
    · exact halive
  · exact f.threadCreated.trans (h.inCall (f.ownerPc ▸ hc))
  · exact absurd f.alive (h.needsDead (f.ownerPc ▸ hn))

theorem reapReturn (h : ThreadInv s) (b : Bool) (caller : ReapCaller) :
    ThreadInv (s.reapReturn b caller).2 := by
  cases caller <;> exact { h with inCall := nofun, needsDead := nofun }

theorem owner (h : ThreadInv s) (hm : OwnerMove s e s') : ThreadInv s' := by
  cases hm with
  | reject | refuse | exhaust | giveUp | finish | wantReap =>
    exact { h with inCall := nofun, needsDead := nofun }
  | call r hpc hact =>
    exact { h with inCall := fun _ => (h.alive (h.active hact).1).1, needsDead := nofun }
  | enter hpc | lock hpc | issue hpc | misfire hpc | sent hpc | answerStop hpc | poison hpc =>
    exact { h with inCall := fun _ => h.inCall (by rw [hpc]; trivial), needsDead := nofun }
  | fail hf =>
    obtain ⟨hin, -, hneeds⟩ := hf.inCall
    exact { h with inCall := fun _ => h.inCall hin, needsDead := fun hn => absurd hn hneeds }
  | answer hpc _ _ hstop =>
    exact { h with
      inCall := fun _ => h.inCall (by rw [hpc]; trivial)
      needsDead := fun hn => absurd (hstop.symm.trans hn) nofun }
  | died hpc hdead =>
    exact { h with
      inCall := fun _ => h.inCall (by rw [hpc]; trivial)
      needsDead := fun _ ha => (h.alive ha).2.2 hdead.2.1 }
  | stay | startRefused => exact h
  | finishStop hpc hstop =>
    exact { h with inCall := nofun, needsDead := fun _ => h.needsDead (by rw [hpc]; exact hstop) }
  | started hpc hp hw =>
    obtain ⟨-, -, -, hact, hok⟩ := SerialWorker.start_spec hw
    obtain ⟨hcreated, hpub, hstate⟩ := hok rfl
    exact ⟨fun _ => ⟨hcreated, hpub, by rw [hstate]; exact nofun⟩, fun _ => ⟨trivial, nofun⟩,
      nofun, nofun⟩
  | startFailed hpc hp hw =>
    obtain ⟨-, -, -, hact, -⟩ := SerialWorker.start_spec hw
    exact ⟨nofun, fun ha => absurd (hact.symm.trans ha) nofun, nofun, nofun⟩
  | reapEnd b hpc => exact h.reapReturn b _
  | reapSafe hpc hsafe =>
    exact { h with inCall := nofun, needsDead := fun _ => h.not_alive_of_reapSafe hsafe }
  | @reapStage caller stage stage' w pc hpc hw hpc' =>
    have hdead : ¬ s.workerPc.Alive := h.needsDead (by rw [hpc]; trivial)
    have hpcdead : ¬ pc.Alive := by
      obtain rfl | rfl := hpc'
      · exact hdead
      · exact id
    exact ⟨fun ha => absurd ha hpcdead,
      fun ha => absurd (h.active (hw.active ▸ ha)).1 hdead, nofun, fun _ => hpcdead⟩
  | @cleared caller hpc =>
    have hdead : ¬ s.workerPc.Alive := h.needsDead (by rw [hpc]; trivial)
    have hzero : ThreadInv { s with worker := .zero } :=
      ⟨fun ha => absurd ha hdead, nofun, fun hc => absurd hc (by rw [hpc]; exact id),
        fun _ => hdead⟩
    exact hzero.reapReturn true caller

end ThreadInv

/-! ### The log -/

namespace WorkerPc

/-- Before the end of the loop of `worker_main`. -/
def Running : WorkerPc → Prop
  | absent | ending | exiting | dead => False
  | _ => True

/-- Behind the loop. -/
def Ended : WorkerPc → Prop
  | ending | exiting | dead => True
  | _ => False

/-- The call-back has returned `result` for a request. -/
def Holds (result : BitVec 32) : WorkerPc → Prop
  | worked r | replying r => r = result
  | _ => False

theorem Looks.running (h : pc.Looks pc') :
    pc.Running ∧ ¬ pc'.Ended ∧ (∀ result, ¬ pc'.Holds result) ∧ ∀ q, pc' ≠ working q := by
  cases h <;> exact ⟨trivial, id, fun _ => id, nofun⟩

theorem Looks.not_working (h : pc.Looks pc') (q : IpcMessage) : pc ≠ working q ∧ pc' ≠ took q := by
  cases h <;> exact ⟨nofun, nofun⟩

end WorkerPc

/-- The request a message names is neither TICK nor ABORT. -/
theorem SerialWorker.Acceptable.isOperation (h : w.Acceptable q) :
    BitVec.ofNat 32 (q.words 2) ≠ serialWorkerTick ∧
      BitVec.ofNat 32 (q.words 2) ≠ serialWorkerAbort := by
  obtain ⟨-, -, -, -, -, hpos, hlt⟩ := h
  have hval : (BitVec.ofNat 32 (q.words 2)).toNat = q.words 2 := by
    rw [BitVec.toNat_ofNat, Nat.mod_eq_of_lt (by omega)]
  refine ⟨fun h0 => hpos ?_, fun h1 => ?_⟩
  · rw [← hval, h0]
    rfl
  · rw [← hval, h1] at hlt
    exact lt_irrefl _ hlt

structure LogInv (log : List SerialDispatch) (pc : WorkerPc) : Prop where
  running : pc.Running → ∀ d ∈ log, d.request.operation ≠ serialWorkerAbort
  last : ∀ pre d post, log = pre ++ d :: post → d.request.operation = serialWorkerAbort → post = []
  ended : pc.Ended → ∃ d, log.getLast? = some d ∧ (d.request.operation = serialWorkerAbort ∨
    d.IsOperation ∧ d.result &&& serialWorkerStop ≠ 0)
  holds : ∀ result, pc.Holds result → ∃ d, log.getLast? = some d ∧ d.IsOperation ∧ d.result = result
  working : ∀ q, pc = .working q → BitVec.ofNat 32 (q.words 2) ≠ serialWorkerTick ∧
    BitVec.ofNat 32 (q.words 2) ≠ serialWorkerAbort

namespace LogInv

variable {log : List SerialDispatch}

/-- A log without ABORT has ABORT at its end only, whatever is added. -/
theorem last_append (h : ∀ d ∈ log, d.request.operation ≠ serialWorkerAbort) (d : SerialDispatch) :
    ∀ pre d' post, log ++ [d] = pre ++ d' :: post → d'.request.operation = serialWorkerAbort →
      post = [] := by
  intro pre d' post heq hab
  obtain hnil | ⟨post, x, rfl⟩ := List.eq_nil_or_concat post
  · exact hnil
  · rw [List.concat_eq_append, ← List.cons_append, ← List.append_assoc] at heq
    obtain ⟨hlog, -⟩ := List.append_inj' heq rfl
    exact absurd hab (h d' (hlog ▸ by simp))

/-- The worker moves on without a dispatch. -/
theorem move (h : LogInv log pc) (hpc : pc.Running) (he : ¬ pc'.Ended)
    (hh : ∀ result, pc'.Holds result → pc.Holds result)
    (hw : ∀ q, pc' = .working q → BitVec.ofNat 32 (q.words 2) ≠ serialWorkerTick ∧
      BitVec.ofNat 32 (q.words 2) ≠ serialWorkerAbort) : LogInv log pc' :=
  ⟨fun _ => h.running hpc, h.last, fun h' => absurd h' he, fun r hr => h.holds r (hh r hr), hw⟩

theorem worker (h : LogInv s.log s.workerPc) (hm : WorkerMove s e s') :
    LogInv s'.log s'.workerPc := by
  cases hm with
  | look hl =>
    obtain ⟨hr, he, hh, hw⟩ := hl.running
    exact h.move hr he (fun r hr' => absurd hr' (hh r)) fun q hq => absurd hq (hw q)
  | tick result hpc =>
    have hr := h.running (by rw [hpc]; trivial)
    exact ⟨fun _ => List.forall_mem_append.mpr ⟨hr, List.forall_mem_singleton.mpr nofun⟩,
      last_append hr _, nofun, nofun, nofun⟩
  | take hpc | poison hpc => exact h.move (by rw [hpc]; trivial) id nofun nofun
  | accept hpc hq =>
    refine h.move (by rw [hpc]; trivial) id nofun ?_
    intro q' hq'
    obtain rfl := WorkerPc.working.inj hq'
    exact hq.isOperation
  | work result hpc =>
    have hr := h.running (by rw [hpc]; trivial)
    have hop := h.working _ hpc
    exact ⟨fun _ => List.forall_mem_append.mpr ⟨hr, List.forall_mem_singleton.mpr hop.2⟩,
      last_append hr _, nofun, fun r hr' => ⟨_, List.getLast?_concat, hop, hr'⟩, nofun⟩
  | reply hpc =>
    exact h.move (by rw [hpc]; trivial) id (fun r hr => by rw [hpc]; exact hr) nofun
  | stop hpc hstop =>
    obtain ⟨d, hd, hop, hres⟩ := h.holds _ (by rw [hpc]; rfl)
    exact ⟨nofun, h.last, fun _ => ⟨d, hd, .inr ⟨hop, hres ▸ hstop⟩⟩, nofun, nofun⟩
  | abort result hpc =>
    have hr := h.running (by rw [hpc]; trivial)
    exact ⟨nofun, last_append hr _, fun _ => ⟨_, List.getLast?_concat, .inl rfl⟩, nofun, nofun⟩
  | retire hpc | exit hpc =>
    exact ⟨nofun, h.last, fun _ => h.ended (by rw [hpc]; trivial), nofun, nofun⟩

theorem nil_top : LogInv [] .top := ⟨fun _ => nofun, by simp, nofun, nofun, nofun⟩

theorem absent (h : LogInv log pc) : LogInv log .absent := ⟨nofun, h.last, nofun, nofun, nofun⟩

end LogInv

/-! ### Requests, dispatches, replies -/

/-- A step of the owner that issues nothing. -/
structure OwnerQuiet (s s' : SerialWorld) : Prop where
  issued : s'.issued = s.issued
  requests : s'.requests = s.requests
  replies : s'.replies = s.replies
  log : s'.log = s.log
  workerPc : s'.workerPc = s.workerPc ∨ s'.workerPc = .absent
  threadCreated : s'.worker.threadCreated = true → s.worker.threadCreated = true ∧
    s'.worker.sequence = s.worker.sequence ∧ s'.worker.thread.id = s.worker.thread.id
  received : s'.workerPc.Alive → s'.worker.received = s.worker.received

/-- A step that issues `r`. -/
structure OwnerIssues (r : SerialRequest) (s s' : SerialWorld) : Prop where
  ownerPc : s.ownerPc = .numbering r
  issued : s'.issued = s.issued ++ [r]
  requests : ∀ q ∈ s'.requests, q ∈ s.requests ∨ q = serialRequest (s.worker.sequence + 1) r
  replies : s'.replies = s.replies
  log : s'.log = s.log
  workerPc : s'.workerPc = s.workerPc
  sequence : s'.worker.sequence = s.worker.sequence + 1
  received : s'.worker.received = s.worker.received
  threadId : s'.worker.thread.id = s.worker.thread.id

/-- A new worker. -/
structure OwnerStarts (s' : SerialWorld) : Prop where
  issued : s'.issued = []
  requests : s'.requests = []
  replies : s'.replies = []
  log : s'.log = []
  workerPc : s'.workerPc = .top ∨ s'.workerPc = .absent
  sequence : s'.worker.sequence = 0
  received : s'.worker.received = 0

theorem reapReturn_quiet (s : SerialWorld) (b : Bool) (caller : ReapCaller) :
    OwnerQuiet s (s.reapReturn b caller).2 := by
  cases caller <;> exact ⟨rfl, rfl, rfl, rfl, .inl rfl, fun h => ⟨h, rfl, rfl⟩, fun _ => rfl⟩

theorem OwnerMove.effect (h : ThreadInv s) (hm : OwnerMove s e s') :
    OwnerQuiet s s' ∨ (∃ r, OwnerIssues r s s') ∨ OwnerStarts s' := by
  cases hm with
  | @issue r hpc =>
    refine .inr (.inl ⟨r, hpc, rfl, fun q hq => ?_, rfl, rfl, rfl, rfl, rfl, rfl⟩)
    rcases List.mem_cons.mp hq with hq | hq
    · exact .inr hq
    · exact .inl hq
  | @misfire r hpc =>
    exact .inr (.inl ⟨r, hpc, rfl, fun q hq => .inl hq, rfl, rfl, rfl, rfl, rfl, rfl⟩)
  | started hpc hp hw =>
    obtain ⟨hseq, hrec, -⟩ := SerialWorker.start_spec hw
    exact .inr (.inr ⟨rfl, rfl, rfl, rfl, .inl rfl, hseq, hrec⟩)
  | startFailed hpc hp hw =>
    obtain ⟨hseq, hrec, -⟩ := SerialWorker.start_spec hw
    exact .inr (.inr ⟨rfl, rfl, rfl, rfl, .inr rfl, hseq, hrec⟩)
  | reapStage hpc hw hpc' =>
    exact .inl ⟨rfl, rfl, rfl, rfl, hpc', fun hc => ⟨hw.threadCreated hc, hw.sequence,
      congrArg _ hw.thread⟩, fun _ => hw.received⟩
  | reapEnd b hpc => exact .inl (reapReturn_quiet s b _)
  | @cleared caller hpc =>
    have hdead : ¬ s.workerPc.Alive := h.needsDead (by rw [hpc]; trivial)
    refine .inl ?_
    cases caller <;> exact ⟨rfl, rfl, rfl, rfl, .inl rfl, nofun, fun ha => absurd ha hdead⟩
  | _ => exact .inl ⟨rfl, rfl, rfl, rfl, .inl rfl, fun h => ⟨h, rfl, rfl⟩, fun _ => rfl⟩

theorem LogInv.owner (h : LogInv s.log s.workerPc) (ht : ThreadInv s) (hm : OwnerMove s e s') :
    LogInv s'.log s'.workerPc := by
  obtain f | ⟨r, f⟩ | f := hm.effect ht
  all_goals rw [f.log]
  · obtain hpc | hpc := f.workerPc <;> rw [hpc]
    · exact h
    · exact h.absent
  · exact f.workerPc ▸ h
  · obtain hpc | hpc := f.workerPc <;> rw [hpc]
    · exact .nil_top
    · exact nil_top.absent

/-- A message with which one of the issued calls asks. -/
def IsRequest (issued : List SerialRequest) (q : IpcMessage) : Prop :=
  ∃ k r, issued[k]? = some r ∧ q = serialRequest (k + 1) r

theorem IsRequest.append {issued more : List SerialRequest} (h : IsRequest issued q) :
    IsRequest (issued ++ more) q := by
  obtain ⟨k, r, hk, hq⟩ := h
  exact ⟨k, r, getElem?_append_of_some hk, hq⟩

/-- A message that tells the result of one of the dispatches. -/
def IsReply (done : List SerialDispatch) (thread : Nat) (m : IpcMessage) : Prop :=
  ∃ k d, done[k]? = some d ∧ m = serialReply (k + 1) d.result thread

theorem IsReply.append {done more : List SerialDispatch} {thread : Nat}
    (h : IsReply done thread m) : IsReply (done ++ more) thread m := by
  obtain ⟨k, d, hk, hm⟩ := h
  exact ⟨k, d, getElem?_append_of_some hk, hm⟩

structure ServeInv (s : SerialWorld) : Prop where
  sequence : s.worker.threadCreated = true → s.worker.sequence = s.issued.length
  requests : ∀ q ∈ s.requests, IsRequest s.issued q
  took : ∀ q, s.workerPc = .took q → IsRequest s.issued q
  working : ∀ q, s.workerPc = .working q → ∃ r, s.issued[(served s.log).length]? = some r ∧
    q = serialRequest ((served s.log).length + 1) r ∧
    s.worker.received = (served s.log).length + 1
  received : s.workerPc.Alive → (∀ q, s.workerPc ≠ .working q) →
    s.worker.received = (served s.log).length
  inOrder : ((served s.log).map SerialDispatch.request).IsPrefix s.issued
  numbers : (served s.log).map SerialDispatch.sequence = List.range' 1 (served s.log).length
  holds : ∀ result, s.workerPc.Holds result →
    ∃ d, (served s.log).getLast? = some d ∧ d.result = result
  replies : s.worker.threadCreated = true → ∀ m ∈ s.replies,
    IsReply (served s.log) s.worker.thread.id m

namespace ServeInv

theorem boot : ServeInv .boot :=
  ⟨nofun, nofun, nofun, nofun, nofun, List.nil_prefix, rfl, nofun, nofun⟩

theorem starts (f : OwnerStarts s') : ServeInv s' := by
  have hnot : ∀ q, s'.workerPc ≠ .took q ∧ s'.workerPc ≠ .working q := by
    intro q
    obtain h | h := f.workerPc <;> rw [h] <;> exact ⟨nofun, nofun⟩
  refine ⟨fun _ => ?_, ?_, fun q hq => absurd hq (hnot q).1, fun q hq => absurd hq (hnot q).2,
    fun _ _ => ?_, ?_, ?_, fun r hr => ?_, fun _ => ?_⟩
  · rw [f.sequence, f.issued]; rfl
  · rw [f.requests]; exact nofun
  · rw [f.received, f.log]; rfl
  · rw [f.log]; exact List.nil_prefix
  · rw [f.log]; rfl
  · obtain h | h := f.workerPc <;> rw [h] at hr <;> exact absurd hr id
  · rw [f.replies]; exact nofun

section

variable (h : ServeInv s)
include h

/-- A step that serves no request and sends no reply. -/
theorem carry (more : List SerialRequest) (hissued : s'.issued = s.issued ++ more)
    (hserved : served s'.log = served s.log) (hrep : s'.replies = s.replies)
    (hcreated : s'.worker.threadCreated = true → s.worker.threadCreated = true ∧
      s'.worker.sequence = s.worker.sequence + more.length ∧
      s'.worker.thread.id = s.worker.thread.id)
    (hreq : ∀ q ∈ s'.requests, q ∈ s.requests ∨ IsRequest s'.issued q)
    (htook : ∀ q, s'.workerPc = .took q → s.workerPc = .took q ∨ IsRequest s'.issued q)
    (hworking : ∀ q, s'.workerPc = .working q → s.workerPc = .working q)
    (hrec : s'.workerPc.Alive → s'.worker.received = s.worker.received ∧ s.workerPc.Alive ∧
      ((∀ q, s'.workerPc ≠ .working q) → ∀ q, s.workerPc ≠ .working q))
    (hholds : ∀ r, s'.workerPc.Holds r → s.workerPc.Holds r) : ServeInv s' := by
  refine ⟨fun hc => ?_, fun q hq => ?_, fun q hq => ?_, fun q hq => ?_, fun ha hne => ?_, ?_,
    hserved ▸ h.numbers, fun r hr => hserved ▸ h.holds r (hholds r hr), fun hc => ?_⟩
  · obtain ⟨hc, hseq, -⟩ := hcreated hc
    rw [hseq, hissued, List.length_append, h.sequence hc]
  · exact (hreq q hq).elim (fun hq => hissued ▸ (h.requests q hq).append) id
  · exact (htook q hq).elim (fun hq => hissued ▸ (h.took q hq).append) id
  · obtain ⟨r, hr, hq', hn⟩ := h.working q (hworking q hq)
    rw [hserved, (hrec (by rw [hq]; trivial)).1, hissued]
    exact ⟨r, getElem?_append_of_some hr, hq', hn⟩
  · obtain ⟨heq, ha, hw⟩ := hrec ha
    rw [heq, hserved]
    exact h.received ha (hw hne)
  · rw [hserved, hissued]
    exact h.inOrder.trans (List.prefix_append _ _)
  · rw [hrep, hserved, (hcreated hc).2.2]
    exact h.replies (hcreated hc).1

theorem quiet (f : OwnerQuiet s s') : ServeInv s' := by
  refine h.carry [] (by rw [f.issued, List.append_nil]) (by rw [f.log]) f.replies f.threadCreated
    (fun q hq => .inl (f.requests ▸ hq)) ?_ ?_ (fun ha => ⟨f.received ha, ?_⟩) ?_
  all_goals obtain hpc | hpc := f.workerPc
  any_goals rw [hpc]
  · exact fun _ => .inl
  · exact nofun
  · exact fun _ => id
  · exact nofun
  · exact ⟨hpc ▸ ha, id⟩
  · rw [hpc] at ha
    exact ha.elim
  · exact fun _ => id
  · exact nofun

theorem issues (ht : ThreadInv s) (f : OwnerIssues r s s') : ServeInv s' := by
  have hcreated : s.worker.threadCreated = true := ht.inCall (by rw [f.ownerPc]; trivial)
  refine h.carry [r] f.issued (by rw [f.log]) f.replies
    (fun _ => ⟨hcreated, f.sequence, f.threadId⟩) (fun q hq => (f.requests q hq).imp_right ?_)
    (fun q hq => .inl (f.workerPc ▸ hq)) (fun q hq => f.workerPc ▸ hq)
    (fun ha => ⟨f.received, f.workerPc ▸ ha, fun hne => f.workerPc ▸ hne⟩)
    (fun r hr => f.workerPc ▸ hr)
  rintro rfl
  exact ⟨s.issued.length, r, by simp [f.issued], by rw [h.sequence hcreated]⟩

/-- A step of the worker that dispatches no request. -/
theorem look (f : WorkerFrame s s') (hserved : served s'.log = served s.log)
    (hrep : s'.replies = s.replies) (hrec : s'.worker.received = s.worker.received)
    (hpc : ∀ q, s.workerPc ≠ .working q) (htook : ∀ q, s'.workerPc = .took q → IsRequest s.issued q)
    (hworking : ∀ q, s'.workerPc ≠ .working q) (hholds : ∀ r, ¬ s'.workerPc.Holds r) :
    ServeInv s' :=
  h.carry [] (by rw [f.issued, List.append_nil]) hserved hrep
    (fun hc => ⟨f.threadCreated ▸ hc, f.sequence, f.threadId⟩) (fun q hq => .inl (f.requests ▸ hq))
    (fun q hq => .inr (f.issued ▸ htook q hq)) (fun q hq => absurd hq (hworking q))
    (fun _ => ⟨hrec, f.alive, fun _ => hpc⟩) fun r hr => absurd hr (hholds r)

theorem accept (hpc : s.workerPc = .took q) (hq : s.worker.Acceptable q) :
    ServeInv { s with
      worker := { s.worker with received := q.words 1 }
      workerPc := .working q } := by
  refine ⟨h.sequence, h.requests, nofun, fun q' hq' => ?_, fun _ hne => absurd rfl (hne q),
    h.inOrder, h.numbers, nofun, h.replies⟩
  obtain rfl := WorkerPc.working.inj hq'
  have hrec := h.received (by rw [hpc]; trivial) (by rw [hpc]; exact nofun)
  obtain ⟨k, r, hk, hreq⟩ := h.took q hpc
  -- the message asks for the request after the last one served
  have hone : q.words 1 = (served s.log).length + 1 := hrec ▸ hq.2.2.2.2.1
  have hkey : k + 1 = (served s.log).length + 1 := by
    rw [← hone, hreq]
    rfl
  obtain rfl : k = (served s.log).length := Nat.succ.inj hkey
  exact ⟨r, hk, hreq, hone⟩

theorem work (hl : LogInv s.log s.workerPc) (result : BitVec 32) (hpc : s.workerPc = .working q) :
    ServeInv
      { s.dispatch ⟨⟨BitVec.ofNat 32 (q.words 2), q.words 3⟩, result, s.worker.received⟩ with
        workerPc := .worked result } := by
  obtain ⟨r, hr, hq, hrec⟩ := h.working q hpc
  have hop : SerialDispatch.IsOperation
      ⟨⟨BitVec.ofNat 32 (q.words 2), q.words 3⟩, result, s.worker.received⟩ := hl.working q hpc
  have hreq : (⟨BitVec.ofNat 32 (q.words 2), q.words 3⟩ : SerialRequest) = r := by
    rw [hq]
    exact congrArg₂ _ (BitVec.ofNat_toNat ..) rfl
  have hserved : served (s.log ++ [⟨⟨BitVec.ofNat 32 (q.words 2), q.words 3⟩, result,
      s.worker.received⟩]) = served s.log ++ [⟨r, result, (served s.log).length + 1⟩] := by
    rw [served_append_operation hop, hreq, hrec]
  refine ⟨h.sequence, h.requests, nofun, nofun, fun _ _ => ?_, ?_, ?_, fun r' hr' => ?_,
    fun hc m hm => ?_⟩
  · rw [dispatch_log, hserved, List.length_append]
    exact hrec
  · rw [dispatch_log, hserved, List.map_append]
    exact prefix_concat h.inOrder (by rw [List.length_map]; exact hr)
  · rw [dispatch_log, hserved, List.map_append, h.numbers, List.length_append]
    rw [List.length_singleton, List.range'_concat, Nat.one_mul, Nat.add_comm 1]
    rfl
  · rw [dispatch_log, hserved]
    exact ⟨_, List.getLast?_concat, hr'⟩
  · rw [dispatch_log, hserved]
    exact (h.replies hc m hm).append

theorem reply (hpc : s.workerPc = .worked result) :
    ServeInv { s with
      replies := serialReply s.worker.received result s.worker.thread.id :: s.replies
      workerPc := .replying result } := by
  obtain ⟨d, hd, hres⟩ := h.holds result (by rw [hpc]; rfl)
  have hrec := h.received (by rw [hpc]; trivial) (by rw [hpc]; exact nofun)
  refine ⟨h.sequence, h.requests, nofun, nofun, fun _ _ => hrec, h.inOrder, h.numbers,
    fun r hr => ⟨d, hd, hres.trans hr⟩, fun hc m hm => ?_⟩
  rcases List.mem_cons.mp hm with rfl | hm
  · rw [List.getLast?_eq_getElem?] at hd
    have hlt := (List.getElem?_eq_some_iff.mp hd).1
    refine ⟨(served s.log).length - 1, d, hd, ?_⟩
    rw [hres, hrec, Nat.sub_add_cancel (by omega)]
  · exact h.replies hc m hm

theorem worker (hl : LogInv s.log s.workerPc) (hm : WorkerMove s e s') : ServeInv s' := by
  have f := hm.frame
  cases hm with
  | look hlook =>
    obtain ⟨-, -, hh, hw⟩ := hlook.running
    exact h.look f rfl rfl rfl (fun q => (hlook.not_working q).1)
      (fun q hq => absurd hq (hlook.not_working q).2) hw hh
  | tick result hpc =>
    exact h.look f served_append_tick rfl rfl (by rw [hpc]; exact nofun) nofun nofun fun _ => id
  | take hpc hq =>
    refine h.look f rfl rfl rfl (by rw [hpc]; exact nofun) (fun q' hq' => ?_) nofun fun _ => id
    obtain rfl := WorkerPc.took.inj hq'
    exact h.requests _ hq
  | accept hpc hq => exact h.accept hpc hq
  | work result hpc => exact h.work hl result hpc
  | reply hpc => exact h.reply hpc
  | stop hpc | poison hpc | retire hpc | exit hpc =>
    exact h.look f rfl rfl rfl (by rw [hpc]; exact nofun) nofun nofun fun _ => id
  | abort result hpc =>
    exact h.look f served_append_abort rfl rfl (by rw [hpc]; exact nofun) nofun nofun fun _ => id

theorem owner (ht : ThreadInv s) (hm : OwnerMove s e s') : ServeInv s' := by
  obtain f | ⟨r, f⟩ | f := hm.effect ht
  · exact h.quiet f
  · exact h.issues ht f
  · exact starts f

end

end ServeInv

/-! ### The calls -/

namespace OwnerPc

/-- A call that was made and has no number yet. -/
def pending : OwnerPc → List SerialRequest
  | checked r | entered r | numbering r => [r]
  | _ => []

/-- The call that was issued last and has not returned. -/
def asking : OwnerPc → Option SerialRequest
  | sending r | receiving r | waiting r _ | failing r _ | leaving r _ _ => some r
  | _ => none

/-- A call that holds its reply, and what it will report. -/
def answered : OwnerPc → Option (SerialRequest × Bool)
  | waiting r m => some (r, m.serialOk)
  | leaving r ok (some _) => some (r, ok)
  | reap (.call r ok) | reaping (.call r ok) _ => some (r, ok)
  | _ => none

end OwnerPc

/-- The request that was issued last was served, and `ok` is the OK bit of the result. -/
def SerialWorld.Answered (s : SerialWorld) (r : SerialRequest) (ok : Bool) : Prop :=
  0 < s.issued.length ∧ ∃ d, (served s.log)[s.issued.length - 1]? = some d ∧ d.request = r ∧
    ok = d.result.getLsbD 0

theorem SerialWorld.Answered.append (h : s.Answered r ok) (hi : s'.issued = s.issued)
    (more : List SerialDispatch) (hlog : served s'.log = served s.log ++ more) :
    s'.Answered r ok := by
  obtain ⟨hpos, d, hd, hr⟩ := h
  rw [Answered, hi, hlog]
  exact ⟨hpos, d, getElem?_append_of_some hd, hr⟩

structure CallInv (s : SerialWorld) : Prop where
  made : (s.issued ++ s.ownerPc.pending).Sublist s.made
  asking : ∀ r, s.ownerPc.asking = some r → s.issued.getLast? = some r
  answered : ∀ r ok, s.ownerPc.answered = some (r, ok) → s.Answered r ok

theorem WorkerMove.served_log (hm : WorkerMove s e s') :
    ∃ more, served s'.log = served s.log ++ more := by
  have hdispatch : ∀ d, ∃ more, served (s.log ++ [d]) = served s.log ++ more := fun d =>
    ⟨served [d], List.filter_append ..⟩
  cases hm with
  | tick | work | abort => exact hdispatch _
  | _ => exact ⟨[], (List.append_nil _).symm⟩

/-- The reply to the call that is being made. -/
theorem ServeInv.answered (h : ServeInv s) (hc : s.worker.threadCreated = true)
    (hlast : s.issued.getLast? = some r) (hm : m ∈ s.replies) (ha : s.worker.Answers m) :
    s.Answered r m.serialOk := by
  obtain ⟨k, d, hk, rfl⟩ := h.replies hc m hm
  have hkey : k + 1 = s.issued.length := (ha.2.2.1).trans (h.sequence hc)
  have hk' : s.issued.length - 1 = k := by omega
  refine ⟨by omega, d, by rw [hk']; exact hk, ?_, rfl⟩
  obtain ⟨t, ht⟩ := h.inOrder
  have hget : s.issued[k]? = some d.request :=
    ht ▸ getElem?_append_of_some (by rw [List.getElem?_map, hk]; rfl)
  rw [List.getLast?_eq_getElem?, hk', hget] at hlast
  exact Option.some.inj hlast

namespace CallInv

theorem boot : CallInv .boot := ⟨List.Sublist.refl _, nofun, nofun⟩

section

variable (h : CallInv s)
include h

theorem worker (hm : WorkerMove s e s') : CallInv s' := by
  have f := hm.frame
  obtain ⟨more, hmore⟩ := hm.served_log
  refine ⟨?_, ?_, ?_⟩
  · rw [f.issued, f.ownerPc, f.made]
    exact h.made
  · rw [f.issued, f.ownerPc]
    exact h.asking
  · rw [f.ownerPc]
    exact fun r ok hr => (h.answered r ok hr).append f.issued more hmore

/-- A move of the owner that makes and issues no call. -/
theorem keep (hmade : s'.made = s.made) (hissued : s'.issued = s.issued) (hlog : s'.log = s.log)
    (hpending : s'.ownerPc.pending = s.ownerPc.pending ∨ s'.ownerPc.pending = [])
    (hasking : ∀ r, s'.ownerPc.asking = some r → s.ownerPc.asking = some r)
    (hanswered : ∀ r ok, s'.ownerPc.answered = some (r, ok) → s.Answered r ok) : CallInv s' := by
  refine ⟨?_, fun r hr => ?_, fun r ok hr => ?_⟩
  · rw [hmade, hissued]
    obtain hp | hp := hpending
    · rw [hp]
      exact h.made
    · rw [hp, List.append_nil]
      exact (List.sublist_append_left _ _).trans h.made
  · rw [hissued]
    exact h.asking r (hasking r hr)
  · exact (hanswered r ok hr).append hissued [] (by rw [hlog, List.append_nil])

theorem reapReturn (b : Bool) (caller : ReapCaller) : CallInv (s.reapReturn b caller).2 := by
  cases caller <;> exact h.keep rfl rfl rfl (.inr rfl) nofun nofun

theorem issue (hpc : s.ownerPc = .numbering r) (hmade : s'.made = s.made)
    (hissued : s'.issued = s.issued ++ [r]) (hpending : s'.ownerPc.pending = [])
    (hasking : s'.ownerPc.asking = some r) (hanswered : s'.ownerPc.answered = none) :
    CallInv s' := by
  refine ⟨?_, fun r' hr' => ?_, fun r' ok hr' => ?_⟩
  · have hsub := h.made
    rw [hpc] at hsub
    rw [hmade, hissued, hpending, List.append_nil]
    exact hsub
  · rw [hissued, List.getLast?_concat]
    exact hasking.symm.trans hr'
  · cases hanswered.symm.trans hr'

theorem owner (ht : ThreadInv s) (hv : ServeInv s) (hm : OwnerMove s e s') : CallInv s' := by
  cases hm with
  | reject r hpc =>
    refine ⟨?_, nofun, nofun⟩
    have hsub := h.made
    rw [hpc] at hsub
    exact hsub.trans (List.sublist_append_left _ _)
  | call r hpc hact =>
    refine ⟨?_, nofun, nofun⟩
    have hsub : s.issued.Sublist s.made := (List.sublist_append_left _ _).trans h.made
    exact hsub.append_right [r]
  | refuse | exhaust | giveUp | finish | wantReap =>
    exact h.keep rfl rfl rfl (.inr rfl) nofun nofun
  | enter hpc | lock hpc => exact h.keep rfl rfl rfl (.inl (by rw [hpc]; rfl)) nofun nofun
  | issue hpc | misfire hpc => exact h.issue hpc rfl rfl rfl rfl rfl
  | sent hpc | poison hpc =>
    exact h.keep rfl rfl rfl (.inr rfl) (by rw [hpc]; exact fun _ => id) nofun
  | fail hf =>
    generalize hpc : s.ownerPc = before at hf
    cases hf <;> exact h.keep rfl rfl rfl (.inr rfl) (by rw [hpc]; exact fun _ => id) nofun
  | answer hpc hm ha _ | answerStop hpc hm ha _ =>
    refine h.keep rfl rfl rfl (.inr rfl) (by rw [hpc]; exact fun _ => id) fun r' ok hr' => ?_
    obtain ⟨rfl, rfl⟩ := Prod.mk.inj (Option.some.inj hr')
    exact hv.answered (ht.inCall (by rw [hpc]; trivial)) (h.asking _ (by rw [hpc]; rfl)) hm ha
  | died hpc _ =>
    exact h.keep rfl rfl rfl (.inr rfl) (by rw [hpc]; exact fun _ => id) fun r' ok hr' =>
      h.answered r' ok (by rw [hpc]; exact hr')
  | stay | startRefused => exact h
  | finishStop hpc _ =>
    exact h.keep rfl rfl rfl (.inr rfl) nofun fun r' ok hr' =>
      h.answered r' ok (by rw [hpc]; exact hr')
  | started | startFailed => exact ⟨List.Sublist.refl _, nofun, nofun⟩
  | reapEnd b hpc => exact h.reapReturn b _
  | @reapSafe caller hpc | @reapStage caller _ _ _ _ hpc =>
    refine h.keep rfl rfl rfl (.inr rfl) nofun fun r' ok hr' => h.answered r' ok ?_
    rw [hpc]
    cases caller <;> exact hr'
  | @cleared caller hpc =>
    have hzero : CallInv { s with worker := .zero } := ⟨h.made, h.asking, h.answered⟩
    exact hzero.reapReturn true caller

end

end CallInv

/-! ### After a failure -/

/-- Places the owner can reach after a call has failed. -/
def OwnerPc.Spent (poisoned : Bool) : OwnerPc → Prop
  | idle | leaving _ _ none | reap _ | reaping _ _ => True
  | checked _ => poisoned = true
  | _ => False

/-- Once a call has failed, no further one is issued. -/
def FailInv (s : SerialWorld) : Prop :=
  ∀ n, s.failed = some n → s.issued.length = n ∧
    (s.worker.poisoned = true ∨ s.worker.active = false) ∧ s.ownerPc.Spent s.worker.poisoned

namespace FailInv

theorem spent_mono {pc : OwnerPc} {b b' : Bool} (h : pc.Spent b) (hb : b = true → b' = true) :
    pc.Spent b' := by
  cases pc with
  | checked r => exact hb h
  | leaving r ok reply =>
    cases reply with
    | none => trivial
    | some m => exact h
  | _ => exact h

section

variable (h : FailInv s)
include h

theorem worker (hm : WorkerMove s e s') : FailInv s' := by
  have f := hm.frame
  intro n hn
  obtain ⟨hlen, hgone, hspent⟩ := h n (f.failed ▸ hn)
  refine ⟨f.issued ▸ hlen, ?_, f.ownerPc ▸ spent_mono hspent f.poisoned⟩
  obtain hp | hact := hgone
  · exact .inl (f.poisoned hp)
  · refine .inr ?_
    by_contra hne
    cases hact.symm.trans (f.active (by simpa using hne)).1

/-- A move of the owner that leaves the flags alone. -/
theorem keep (hfailed : s'.failed = s.failed) (hissued : s'.issued = s.issued)
    (hpoison : s.worker.poisoned = true → s'.worker.poisoned = true)
    (hactive : s.worker.active = false → s'.worker.active = false)
    (hspent : s.ownerPc.Spent s.worker.poisoned → s'.ownerPc.Spent s'.worker.poisoned) :
    FailInv s' := by
  intro n hn
  obtain ⟨hlen, hgone, hs⟩ := h n (hfailed ▸ hn)
  exact ⟨hissued ▸ hlen, hgone.imp hpoison hactive, hspent hs⟩

/-- At a place that is not reached after a failure, none has happened. -/
theorem none_failed (hpc : ¬ s.ownerPc.Spent s.worker.poisoned) : s.failed = none := by
  cases hf : s.failed with
  | none => rfl
  | some n => exact absurd (h n hf).2.2 hpc

theorem reapReturn (b : Bool) (hgone : ∀ r ok, caller = .call r ok → s.worker.active = false) :
    FailInv (s.reapReturn b caller).2 := by
  cases caller with
  | owner | start => exact h.keep rfl rfl id id fun _ => trivial
  | call r ok =>
    cases b with
    | true => exact h.keep rfl rfl id id fun _ => trivial
    | false =>
      intro n hn
      cases hf : s.failed with
      | some n' =>
        have hn' : s.failed = some n := by
          simpa [SerialWorld.reapReturn, hf] using hn
        exact ⟨(h n hn').1, .inr (hgone r ok rfl), trivial⟩
      | none =>
        have hn' : s.issued.length = n := by simpa [SerialWorld.reapReturn, hf] using hn
        exact ⟨hn', .inr (hgone r ok rfl), trivial⟩

theorem owner (ht : ThreadInv s) (hm : OwnerMove s e s') : FailInv s' := by
  have hinactive : s.ownerPc.NeedsDead → s.worker.active = false := fun hn => by
    by_contra hne
    exact ht.needsDead hn (ht.active (by simpa using hne)).1
  cases hm with
  | reject | refuse | giveUp | finish | finishStop | wantReap | reapSafe =>
    exact h.keep rfl rfl id id fun _ => trivial
  | call r hpc hact =>
    intro n hn
    obtain ⟨hlen, hgone, -⟩ := h n hn
    have hp : s.worker.poisoned = true := hgone.resolve_right (by rw [hact]; exact nofun)
    exact ⟨hlen, hgone, hp⟩
  | exhaust hpc => exact h.keep rfl rfl (fun _ => rfl) id fun _ => trivial
  | enter hpc hp =>
    exact h.keep rfl rfl id id fun hs => by rw [hpc, hp] at hs; cases hs
  | lock hpc | sent hpc | answer hpc | answerStop hpc | died hpc =>
    exact h.keep rfl rfl id id fun hs => absurd hs (by rw [hpc]; exact id)
  | issue hpc | misfire hpc =>
    intro n hn
    exact absurd (h n hn).2.2 (by rw [hpc]; exact id)
  | fail hf =>
    generalize hpc : s.ownerPc = before at hf
    cases hf <;> exact h.keep rfl rfl id id fun hs => absurd hs (by rw [hpc]; exact id)
  | stay | startRefused => exact h
  | poison hpc =>
    intro n hn
    have hnone := h.none_failed (by rw [hpc]; exact id)
    exact ⟨by simpa [hnone] using hn, .inl rfl, trivial⟩
  | started | startFailed => exact nofun
  | @reapEnd caller b hpc =>
    refine h.reapReturn b fun r ok hcall => hinactive ?_
    obtain hpc | ⟨stage, hpc⟩ := hpc
    · rw [hpc, hcall]
      trivial
    · rw [hpc]
      trivial
  | reapStage hpc hw hpc' =>
    exact h.keep rfl rfl (fun hp => hw.poisoned.trans hp) (fun ha => hw.active.trans ha)
      fun _ => trivial
  | @cleared caller hpc =>
    have hzero : FailInv { s with worker := .zero } := fun n hn =>
      ⟨(h n hn).1, .inr rfl, by rw [hpc]; trivial⟩
    exact hzero.reapReturn true fun _ _ _ => rfl

end

end FailInv

/-- A call that leaves without a reply has been counted as failed. -/
def LeaveInv (s : SerialWorld) : Prop := ∀ r ok, s.ownerPc = .leaving r ok none → s.failed ≠ none

theorem leaveInv_reapReturn : LeaveInv (s.reapReturn b caller).2 := by
  intro r ok hpc
  cases caller <;> cases hpc

theorem LeaveInv.owner (h : LeaveInv s) (hm : OwnerMove s e s') : LeaveInv s' := by
  cases hm with
  | poison hpc =>
    intro _ _ _
    cases s.failed <;> simp
  | fail hf =>
    intro r ok hpc
    generalize s.ownerPc = before at hf
    cases hf <;> cases hpc
  | stay | startRefused => exact h
  | reapEnd | cleared => exact leaveInv_reapReturn
  | answer | died =>
    intro r ok hpc
    cases (OwnerPc.leaving.inj hpc).2.2
  | _ => exact nofun

theorem LeaveInv.worker (h : LeaveInv s) (hm : WorkerMove s e s') : LeaveInv s' := by
  rw [LeaveInv, hm.frame.ownerPc, hm.frame.failed]
  exact h

/-! ### Whole runs -/

/-- All of the invariants. -/
structure SerialInv (s : SerialWorld) : Prop where
  thread : ThreadInv s
  log : LogInv s.log s.workerPc
  serve : ServeInv s
  call : CallInv s
  fail : FailInv s
  leave : LeaveInv s

theorem SerialInv.step (h : SerialInv s) (hs : SerialStep s e s') : SerialInv s' := by
  cases hs with
  | worker env hin hstep =>
    have hm := workerStep_move hin hstep
    exact ⟨h.thread.worker hm, h.log.worker hm, h.serve.worker h.log hm, h.call.worker hm,
      h.fail.worker hm, h.leave.worker hm⟩
  | owner env hin =>
    have hm := ownerStep_move hin
    exact ⟨h.thread.owner hm, h.log.owner h.thread hm, h.serve.owner h.thread hm,
      h.call.owner h.thread h.serve hm, h.fail.owner h.thread hm, h.leave.owner hm⟩
  | schedule state q w ha hstate =>
    obtain ⟨hcreated, hpub, -⟩ := h.thread.alive ha
    exact { h with
      thread := ⟨fun _ => ⟨hcreated, hpub, hstate⟩, h.thread.active, h.thread.inCall,
        h.thread.needsDead⟩
      serve := { h.serve with }
      call := { h.call with } }

theorem SerialInv.of_run {es : List SerialEvent} (h : Run SerialStep .boot es s) : SerialInv s :=
  h.invariant ⟨.boot, LogInv.nil_top.absent, .boot, .boot, nofun, nofun⟩ fun _ _ _ hi hs => hi.step hs

/-- How `serial_worker_call` returns true. -/
theorem OwnerMove.returned_true (hm : OwnerMove s (.returned r true ok) s') :
    s.ownerPc.answered = some (r, ok) := by
  generalize he : SerialEvent.returned r true ok = e at hm
  cases hm with
  | finish hpc hstop =>
    obtain ⟨rfl, -, rfl⟩ := SerialEvent.returned.inj he
    rw [hpc]
    rfl
  | @reapEnd caller b hpc =>
    cases caller with
    | owner | start => cases he
    | call r' ok' =>
      obtain ⟨rfl, -, rfl⟩ := SerialEvent.returned.inj he
      obtain hpc | ⟨stage, hpc⟩ := hpc <;> rw [hpc] <;> rfl
  | @cleared caller hpc =>
    cases caller with
    | owner | start => cases he
    | call r' ok' =>
      obtain ⟨rfl, -, rfl⟩ := SerialEvent.returned.inj he
      rw [hpc]
      rfl
  | _ => cases he

theorem WorkerMove.not_returned (hm : WorkerMove s (.returned r b ok) s') : False := by
  cases hm

/-- Only the owner returns from calls. -/
theorem SerialStep.ownerMove (hs : SerialStep s (.returned r b ok) s') :
    OwnerMove s (.returned r b ok) s' := by
  generalize he : SerialEvent.returned r b ok = e at hs ⊢
  cases hs with
  | worker env hin hstep => exact (workerStep_move hin (he ▸ hstep)).not_returned.elim
  | owner env hin => exact ownerStep_move hin
  | schedule => cases he

/-- How an issued call returns false. -/
theorem OwnerMove.returned_false (hm : OwnerMove s (.returned r false ok) s') (h : LeaveInv s)
    (hissued : s.ownerPc.pending = [] ∧ s.ownerPc ≠ .idle) : s'.failed ≠ none := by
  generalize he : SerialEvent.returned r false ok = e at hm
  cases hm with
  | reject r hpc => exact absurd hpc hissued.2
  | refuse hpc =>
    obtain hpc | hpc := hpc <;> rw [hpc] at hissued <;> cases hissued.1
  | exhaust hpc =>
    rw [hpc] at hissued
    cases hissued.1
  | giveUp hpc => exact h _ _ hpc
  | @reapEnd caller b hpc =>
    cases caller with
    | owner | start => cases he
    | call r' ok' =>
      obtain ⟨-, rfl, -⟩ := SerialEvent.returned.inj he
      change (s.failed <|> some s.issued.length) ≠ none
      cases s.failed <;> simp
  | @cleared caller hpc =>
    cases caller <;> cases he
  | _ => cases he

/-- The request that was issued last was served exactly once, and `ok` is the OK bit of what
the call-back returned. -/
def SerialWorld.ServedOnce (s : SerialWorld) (r : SerialRequest) (ok : Bool) : Prop :=
  s.issued.getLast? = some r ∧
    ((served s.log).map SerialDispatch.sequence).count s.issued.length = 1 ∧
    ∃ d ∈ served s.log, d.sequence = s.issued.length ∧ d.request = r ∧ ok = d.result.getLsbD 0

theorem SerialInv.servedOnce (h : SerialInv s) (ha : s.Answered r ok) : s.ServedOnce r ok := by
  obtain ⟨hpos, d, hd, hr, hok⟩ := ha
  have hlt := (List.getElem?_eq_some_iff.mp hd).1
  obtain ⟨t, ht⟩ := h.serve.inOrder
  have hseq : d.sequence = s.issued.length := by
    have hnum := congrArg (fun l => l[s.issued.length - 1]?) h.serve.numbers
    simp only [List.getElem?_map, hd] at hnum
    rw [List.getElem?_range' hlt] at hnum
    have := Option.some.inj hnum
    omega
  have hmem : d ∈ served s.log := List.mem_of_getElem? hd
  have hlast : s.issued[s.issued.length - 1]? = some r := by
    nth_rewrite 1 [← ht]
    exact getElem?_append_of_some (by rw [List.getElem?_map, hd, ← hr]; rfl)
  refine ⟨by rw [List.getLast?_eq_getElem?, hlast], ?_, d, hmem, hseq, hr, hok⟩
  rw [← hseq]
  exact List.count_eq_one_of_mem (h.serve.numbers ▸ List.nodup_range') (List.mem_map_of_mem hmem)

/-- **At most once, in order, with the right result.** In every run of a serial worker:
the requests that were dispatched are the first of those that were issued, in the order of
the calls, each with its own number; a call that returns true was served exactly once and
reports the OK bit; once an issued call has failed no other one is issued; ABORT is the last
dispatch; the thread ends behind ABORT or a result with STOP; and while something is reaped
the worker cannot run. -/
theorem serial_worker_at_most_once {s : SerialWorld} {es : List SerialEvent}
    (h : Run SerialStep .boot es s) :
    (((served s.log).map SerialDispatch.request).IsPrefix s.issued ∧ s.issued.Sublist s.made ∧
      (served s.log).map SerialDispatch.sequence = List.range' 1 (served s.log).length) ∧
    (∀ r ok s', SerialStep s (.returned r true ok) s' → s.ServedOnce r ok) ∧
    (∀ r ok s', SerialStep s (.returned r false ok) s' →
      s.ownerPc.pending = [] → s.ownerPc ≠ .idle → s'.failed ≠ none) ∧
    (∀ n, s.failed = some n → s.issued.length = n) ∧
    (∀ pre d post, s.log = pre ++ d :: post → d.request.operation = serialWorkerAbort →
      post = []) ∧
    (s.workerPc = .dead → ∃ d, s.log.getLast? = some d ∧
      (d.request.operation = serialWorkerAbort ∨
        d.IsOperation ∧ d.result &&& serialWorkerStop ≠ 0)) ∧
    (∀ caller stage, s.ownerPc = .reaping caller stage → ∀ env, s.workerStep env = none) := by
  have hinv := SerialInv.of_run h
  refine ⟨⟨hinv.serve.inOrder, (List.sublist_append_left _ _).trans hinv.call.made,
    hinv.serve.numbers⟩, fun r ok s' hs => ?_, fun r ok s' hs hp hidle =>
      hs.ownerMove.returned_false hinv.leave ⟨hp, hidle⟩, fun n hn => (hinv.fail n hn).1,
    hinv.log.last, fun hd => hinv.log.ended (by rw [hd]; trivial), fun caller stage hpc env => ?_⟩
  · exact hinv.servedOnce (hinv.call.answered r ok hs.ownerMove.returned_true)
  · have hdead : ¬ s.workerPc.Alive := hinv.thread.needsDead (by rw [hpc]; trivial)
    cases hw : s.workerPc with
    | absent | dead => simp [workerStep, hw]
    | _ =>
      rw [hw] at hdead
      exact absurd trivial hdead

namespace SerialWorld

/-- One step of either thread, when the message it is told of was sent. -/
def turn (s : SerialWorld) : WorkerEnv ⊕ OwnerEnv → Option (SerialEvent × SerialWorld)
  | .inl env => if ∀ q ∈ env.inbox, q ∈ s.requests then s.workerStep env else none
  | .inr env => if ∀ m ∈ env.inbox, m ∈ s.replies then some (s.ownerStep env) else none

theorem turn_step {env : WorkerEnv ⊕ OwnerEnv} (h : s.turn env = some (e, s')) :
    SerialStep s e s' := by
  cases env with
  | inl env =>
    obtain ⟨hin, hstep⟩ := (Option.ite_none_right_eq_some).mp h
    exact .worker env hin hstep
  | inr env =>
    obtain ⟨hin, hstep⟩ := (Option.ite_none_right_eq_some).mp h
    have hs := SerialStep.owner env hin
    rw [Option.some.inj hstep] at hs
    exact hs

/-- The steps of the two threads in the order given, with their events. -/
def turns (s : SerialWorld) (envs : List (WorkerEnv ⊕ OwnerEnv)) :
    Option (List SerialEvent × SerialWorld) :=
  execSome (fun env s => s.turn env) envs s

/-- A worker is started, ticks once and serves one call; the call is about to return. -/
def firstCall : List (WorkerEnv ⊕ OwnerEnv) :=
  let start : StartEnv := ⟨true, 9, 100, 1, true, true, true, 1, 2, 3, 4, some 5, true, true⟩
  let worker (inbox : Option IpcMessage) : WorkerEnv ⊕ OwnerEnv :=
    .inl ⟨true, serialWorkerOk, inbox, true, true⟩
  let owner (choice : OwnerChoice) (inbox : Option IpcMessage) : WorkerEnv ⊕ OwnerEnv :=
    .inr ⟨choice, 9, true, true, true, inbox, true, true⟩
  [owner (.start start) none, worker none, worker none, worker none] ++
    List.replicate 4 (owner (.call ⟨7, 5⟩) none) ++
    List.replicate 4 (worker (some (serialRequest 1 ⟨7, 5⟩))) ++
    [owner .reap none, owner .reap (some (serialReply 1 serialWorkerOk 5))]

end SerialWorld

theorem serial_worker_at_most_once_firstCall :
    ∃ es s, Run SerialStep .boot es s ∧ s.issued = [⟨7, 5⟩] ∧
      ((served s.log).map SerialDispatch.request).IsPrefix s.issued ∧
      s.ServedOnce ⟨7, 5⟩ true := by
  have hissued : (SerialWorld.boot.turns firstCall).map (·.2.issued) = some [⟨7, 5⟩] := by
    decide +kernel
  have hpc : (SerialWorld.boot.turns firstCall).map (·.2.ownerPc) =
      some (.leaving ⟨7, 5⟩ true (some (serialReply 1 serialWorkerOk 5))) := by
    decide +kernel
  obtain ⟨⟨es, s⟩, hs, hissued⟩ := Option.map_eq_some_iff.mp hissued
  rw [hs, Option.map_some] at hpc
  have hrun : Run SerialStep .boot es s := .of_execSome (fun _ _ _ _ _ => turn_step) hs
  have hall := serial_worker_at_most_once hrun
  have hstep := SerialStep.owner (s := s) ⟨.reap, 9, true, true, true, none, true, true⟩ nofun
  rw [ownerStep, Option.some.inj hpc] at hstep
  exact ⟨es, s, hrun, hissued, hall.1.1, hall.2.1 ⟨7, 5⟩ true _ hstep⟩

end JcosKernel
