import JcosKernel.Supervisor.Gate
import JcosKernel.Lib.Run

/-!
# JcosKernel.Supervisor.Runs

**Requests are serialised and answered by their own reply.** Over all interleavings of the
threads, of the service and of the readers of its state:

* the thread behind the gate is the one whose identity the gate holds (`GateInv.holds`);
* once a call has given up on a reply the service is not RUNNING, and it is RUNNING again only as a
  new incarnation with fresh endpoints (`GateInv.lost`), so no request is sent to an incarnation
  that still owes a reply (`StageOk.asks`), and what can be received was sent by the incarnation
  that runs (`GateInv.mail`): a late reply never answers a later call;
* a thread that holds a reply has sent the request it belongs to in the same call (`CallHistory`).
-/

namespace JcosKernel

open Lib GateWorld Function

/-- One step of the system. -/
inductive GateStep (ids : ThreadRef → Nat) : GateWorld → GateEvent → GateWorld → Prop
  | thread {s : GateWorld} (t : ThreadRef) (env : GateEnv)
      (hin : ∀ m, env.inbox = some m → m ∈ s.inFlight) :
      GateStep ids s (s.threadStep t (ids t) env).1 (s.threadStep t (ids t) env).2
  /-- The service sends. -/
  | reply {s : GateWorld} (m : IpcMessage) :
      GateStep ids s (.replied (s.requests, m)) { s with inFlight := (s.requests, m) :: s.inFlight }
  /-- Somebody asks for the state of the service, for example with `supervisor_state`. -/
  | refresh {s : GateWorld} (exit : Option Bool) :
      GateStep ids s .quiet { s with state := s.state.refreshTerminal exit }

/-! ### What a thread does -/

/-- One step behind the gate: the stage and the world before it, what is seen of it, and the
world behind it but for the place where the thread stands. -/
inductive StageMove (s : GateWorld) (t : ThreadRef) (c : SupervisorCall) :
    CallStage → GateEvent → GateWorld → CallStage → Prop
  | finish {stage : CallStage} {ok : Bool} (exit : Option Bool) (h : ok → c.request = none) :
      StageMove s t c stage .quiet { s with state := s.state.refreshTerminal exit }
        (.leaving (.done ok))
  | ask {exit : Option Bool} (h : s.state.refreshTerminal exit = .running) :
      StageMove s t c .entered .quiet { s with state := s.state.refreshTerminal exit } .sending
  | launch (h : c.request = none) : StageMove s t c .entered (.started t)
      { s with state := .starting, inFlight := [] } .launching
  | close {exit : Option Bool} (h : c.request = none) (hr : s.state.refreshTerminal exit = .running) :
      StageMove s t c .entered .quiet { s with state := .closing } .closing
  | abandon (h : c.request = none) :
      StageMove s t c .entered .quiet { s with state := .failed } (.release true)
  | fail {stage : CallStage} (ok : Bool) (h : stage = .launching ∨ stage = .closing) :
      StageMove s t c stage .quiet { s with state := .failed } (.release ok)
  | send {request : IpcMessage} {expected : Nat} (h : c.request = some (request, expected)) :
      StageMove s t c .sending (.sent t (s.requests + 1) request)
        { s with requests := s.requests + 1 } (.receiving (s.requests + 1))
  | lose {n : Nat} (exit : Option Bool) :
      StageMove s t c (.receiving n) (.gaveUp t n) { s with state := s.state.afterFailure exit }
        (.leaving (.done false))
  | receive {n : Nat} {m : Nat × IpcMessage} (h : m ∈ s.inFlight) :
      StageMove s t c (.receiving n) (.received t n m)
        { s with inFlight := s.inFlight.erase m } (.received n m.2)
  | reject {n : Nat} {reply : IpcMessage} (exit : Option Bool) :
      StageMove s t c (.received n reply) .quiet { s with state := s.state.afterFailure exit }
        (.leaving (.done false))
  | accept {n : Nat} {reply : IpcMessage} :
      StageMove s t c (.received n reply) .quiet s (.leaving (.replied n reply))
  | launched : StageMove s t c .launching .quiet { s with state := .running } (.leaving (.done true))
  | shutdown : StageMove s t c .closing (.sent t (s.requests + 1) supervisorShutdown)
      { s with requests := s.requests + 1 } (.stopping (s.requests + 1))
  | loseShutdown {n : Nat} :
      StageMove s t c (.stopping n) (.gaveUp t n) { s with state := .failed } (.release true)
  | stopped {n : Nat} {m : Nat × IpcMessage} {state : ServiceState} (h : state ≠ .running)
      (hm : m ∈ s.inFlight) : StageMove s t c (.stopping n) (.received t n m)
        { s with state := state, inFlight := s.inFlight.erase m } (.release true)
  | released {ok : Bool} : StageMove s t c (.release ok) .quiet { s with state := .stopped, inFlight := [] }
      (.leaving (.done ok))
  | retained {ok : Bool} : StageMove s t c (.release ok) .quiet { s with state := .reapPending }
      (.leaving (.done false))

/-- One step of a thread. -/
inductive GateMove (ids : ThreadRef → Nat) (s : GateWorld) (t : ThreadRef) :
    GateEvent → GateWorld → Prop
  | stay : GateMove ids s t .quiet s
  /-- The arguments are refused. -/
  | bounce (c : SupervisorCall) (h : s.pc t = .idle) : GateMove ids s t (.returned t c none) s
  | call (c : SupervisorCall) (h : s.pc t = .idle) :
      GateMove ids s t (.called t c) (s.setPc t (.entering c))
  | refuse {c : SupervisorCall} (h : s.pc t = .entering c) :
      GateMove ids s t (.refused t c) (s.setPc t .idle)
  | enter {c : SupervisorCall} (h : s.pc t = .entering c) (hfree : s.owner = 0) :
      GateMove ids s t (.entered t) ({ s with owner := ids t }.stage t c .entered)
  | inside {c : SupervisorCall} {stage stage' : CallStage} {e : GateEvent} {w : GateWorld}
      (h : s.pc t = .inside c stage) (m : StageMove s t c stage e w stage') :
      GateMove ids s t e (w.stage t c stage')
  | leave {c : SupervisorCall} {outcome : CallOutcome} (h : s.pc t = .inside c (.leaving outcome)) :
      GateMove ids s t (.left t)
        ({ s with owner := if s.owner = ids t then 0 else s.owner }.setPc t (.left c outcome))
  | done {c : SupervisorCall} {outcome : CallOutcome} (h : s.pc t = .left c outcome) :
      GateMove ids s t (.returned t c (output c outcome)) (s.setPc t .idle)

variable {ids : ThreadRef → Nat} {s s' : GateWorld} {t : ThreadRef} {e : GateEvent}

variable {c : SupervisorCall} {u : ThreadRef} {ids : ThreadRef → Nat} {outcome : CallOutcome}
  {env : GateEnv} {s s' : GateWorld}

theorem enteredStep_move (h : s.pc t = .inside c .entered) :
    GateMove ids s t (s.enteredStep t env c).1 (s.enteredStep t env c).2 := by
  cases c with
  | ping cookie | graphicsExchange session sequence snapshot =>
    simp only [enteredStep]
    split_ifs with hidle
    · exact .inside h (.finish env.exit nofun)
    · rw [not_or, not_not] at hidle
      exact .inside h (.ask hidle.1)
  | start =>
    simp only [enteredStep]
    split_ifs
    · exact .inside h (.finish none nofun)
    · exact .inside h (.launch rfl)
  | stopBounded =>
    simp only [enteredStep]
    split_ifs with hstopped hrun
    · exact .inside h (.finish env.exit nofun)
    · exact .inside h (.close rfl hrun.1)
    · exact .inside h (.abandon rfl)
  | recover =>
    simp only [enteredStep]
    split_ifs
    · exact .inside h (.finish env.exit fun _ => rfl)
    · exact .inside h (.finish env.exit nofun)
    · exact .inside h (.abandon rfl)

theorem insideStep_move {stage : CallStage} (hin : ∀ m, env.inbox = some m → m ∈ s.inFlight)
    (h : s.pc t = .inside c stage) :
    GateMove ids s t (s.insideStep t (ids t) env c stage).1
      (s.insideStep t (ids t) env c stage).2 := by
  cases stage with simp only [insideStep]
  | entered => exact enteredStep_move h
  | sending =>
    cases hreq : c.request with
    | none => exact .inside h (.finish none nofun)
    | some request =>
      split_ifs
      · exact .inside h (.send hreq)
      · exact .inside h (.finish none nofun)
  | receiving n =>
    cases hm : env.inbox with
    | none => exact .inside h (.lose env.exit)
    | some m => exact .inside h (.receive (hin m hm))
  | received n reply =>
    cases hreq : c.request with
    | none => exact .inside h (.finish none nofun)
    | some request =>
      dsimp only
      split_ifs
      · exact .inside h (.reject env.exit)
      · exact .inside h .accept
  | launching =>
    split_ifs
    · exact .inside h .launched
    · exact .inside h (.fail false (.inl rfl))
  | closing =>
    split_ifs
    · exact .inside h .shutdown
    · exact .inside h (.fail true (.inr rfl))
  | stopping n =>
    cases hm : env.inbox with
    | none => exact .inside h .loseShutdown
    | some m =>
      refine .inside h (.stopped ?_ (hin m hm))
      split_ifs <;> decide
  | release ok =>
    split_ifs
    · exact .inside h .released
    · exact .inside h .retained
  | leaving outcome => exact .leave h

theorem threadStep_move (hin : ∀ m, env.inbox = some m → m ∈ s.inFlight) :
    GateMove ids s t (s.threadStep t (ids t) env).1 (s.threadStep t (ids t) env).2 := by
  cases hpc : s.pc t with simp only [threadStep, hpc]
  | idle =>
    split_ifs
    · exact .bounce _ hpc
    · exact .call _ hpc
  | entering c =>
    split_ifs with hkernel hfree
    · exact .refuse hpc
    · exact .enter hpc hfree
    · exact .refuse hpc
    · exact .stay
  | inside c stage =>
    exact insideStep_move hin hpc
  | left c outcome =>
    exact .done hpc

/-! ### The invariant -/

/-- The event has happened since the endpoints of the incarnation that runs were made. -/
def Current (es : List GateEvent) (e : GateEvent) : Prop :=
  Active Eq (fun e _ => ∃ t, e = .started t) es e

/-- A call has given up on a reply of this incarnation. -/
def Forsaken (es : List GateEvent) : Prop := ∃ t n, Current es (.gaveUp t n)

/-- A request is being made, or the service launched. -/
def CallStage.Asks : CallStage → Prop
  | sending | receiving _ | received _ _ | launching | closing | stopping _ => True
  | entered | release _ | leaving _ => False

/-- The request whose reply the thread waits for. -/
def CallStage.awaits : CallStage → Option Nat
  | receiving n | stopping n => some n
  | entered | sending | received _ _ | launching | closing | release _ | leaving _ => none

/-- What holds where a thread stands behind the gate. -/
structure StageOk (es : List GateEvent) (t : ThreadRef) (stage : CallStage) : Prop where
  asks : stage.Asks → ¬ Forsaken es
  awaits : ∀ n, stage.awaits = some n → ∃ request, Current es (.sent t n request)

structure GateInv (ids : ThreadRef → Nat) (es : List GateEvent) (s : GateWorld) : Prop where
  holds : ∀ t, (s.pc t).Inside → s.owner = ids t
  /-- A service that has left a call without a reply is not RUNNING. -/
  lost : Forsaken es → s.state ≠ .running
  /-- What can be received is from this incarnation. -/
  mail : ∀ m ∈ s.inFlight, Current es (.replied m)
  stage : ∀ t c stage, s.pc t = .inside c stage → StageOk es t stage

variable {es : List GateEvent}

theorem current_last (es : List GateEvent) (e : GateEvent) : Current (es ++ [e]) e :=
  active_snoc.mpr (.inl rfl)

theorem Current.snoc {d : GateEvent} (h : Current es d) (he : ∀ t, e ≠ .started t) :
    Current (es ++ [e]) d :=
  active_snoc.mpr (.inr ⟨h, fun hs => hs.elim he⟩)

/-- A call of this incarnation is given up on by a `gaveUp`, and by nothing else. -/
theorem forsaken_snoc (h : Forsaken (es ++ [e])) :
    (∃ t n, e = .gaveUp t n) ∨ Forsaken es ∧ ∀ t, e ≠ .started t := by
  obtain ⟨t, n, h⟩ := h
  obtain heq | ⟨h, hs⟩ := active_snoc.mp h
  · exact .inl ⟨t, n, heq⟩
  · exact .inr ⟨⟨t, n, h⟩, fun u hu => hs ⟨u, hu⟩⟩

/-- The event neither ends an incarnation nor gives up on a reply. -/
def GateEvent.Plain (e : GateEvent) : Prop := (∀ t, e ≠ .started t) ∧ ∀ t n, e ≠ .gaveUp t n

theorem Forsaken.of_snoc (h : Forsaken (es ++ [e])) (he : e.Plain) : Forsaken es := by
  obtain ⟨t, n, heq⟩ | ⟨h, -⟩ := forsaken_snoc h
  · exact absurd heq (he.2 t n)
  · exact h

theorem StageOk.snoc {stage : CallStage} (h : StageOk es t stage) (he : e.Plain) :
    StageOk (es ++ [e]) t stage where
  asks ha hf := h.asks ha (hf.of_snoc he)
  awaits n hn := (h.awaits n hn).imp fun _ hs => hs.snoc he.1

/-- Something happens that the invariant does not depend on. -/
theorem GateInv.plain (h : GateInv ids es s) (he : e.Plain) : GateInv ids (es ++ [e]) s where
  holds := h.holds
  lost hf := h.lost (hf.of_snoc he)
  mail m hm := (h.mail m hm).snoc he.1
  stage t c stage hpc := (h.stage t c stage hpc).snoc he

theorem refreshTerminal_running {state : ServiceState} {exit : Option Bool}
    (h : state.refreshTerminal exit = .running) : state = .running := by
  cases exit with
  | none => exact h
  | some normal =>
    simp only [ServiceState.refreshTerminal] at h
    split_ifs at h

theorem afterFailure_ne_running (state : ServiceState) (exit : Option Bool) :
    state.afterFailure exit ≠ .running := by
  intro h
  simp only [ServiceState.afterFailure] at h
  split_ifs at h with hrun
  exact hrun h

section StageMove

variable {stage stage' : CallStage} {w : GateWorld}

variable (m : StageMove s t c stage e w stage')
include m

theorem StageMove.owner : w.owner = s.owner := by
  cases m <;> rfl

theorem StageMove.pc : w.pc = s.pc := by
  cases m <;> rfl

theorem StageMove.lost (h : Forsaken es → s.state ≠ .running) (hok : StageOk es t stage) :
    Forsaken (es ++ [e]) → w.state ≠ .running := by
  cases m with
  | finish exit | ask hrun =>
    exact fun hf hr => h (hf.of_snoc ⟨nofun, nofun⟩) (refreshTerminal_running hr)
  | launch | close | abandon | fail | loseShutdown | released | retained => exact fun _ => nofun
  | send | receive | accept | shutdown =>
    exact fun hf => h (hf.of_snoc ⟨nofun, nofun⟩)
  | lose exit | reject exit => exact fun _ => afterFailure_ne_running _ _
  | launched => exact fun hf => absurd (hf.of_snoc ⟨nofun, nofun⟩) (hok.asks trivial)
  | stopped hstate => exact fun _ => hstate

theorem StageMove.mail (h : ∀ m ∈ s.inFlight, Current es (.replied m)) :
    ∀ m ∈ w.inFlight, Current (es ++ [e]) (.replied m) := by
  cases m with
  | launch | released => exact fun _ hm => absurd hm List.not_mem_nil
  | receive | stopped => exact fun m hm => (h m (List.mem_of_mem_erase hm)).snoc nofun
  | _ => exact fun m hm => (h m hm).snoc nofun

theorem StageMove.stageOk (h : Forsaken es → s.state ≠ .running) (hok : StageOk es t stage) :
    StageOk (es ++ [e]) t stage' := by
  -- a service that runs owes no reply
  have hrunning : ∀ {exit}, s.state.refreshTerminal exit = .running → ¬ Forsaken (es ++ [.quiet]) :=
    fun hr hf => h (hf.of_snoc ⟨nofun, nofun⟩) (refreshTerminal_running hr)
  cases m with
  | ask hrun | close _ hrun => exact ⟨fun _ => hrunning hrun, nofun⟩
  | launch =>
    refine ⟨fun _ hf => ?_, nofun⟩
    obtain ⟨_, _, heq⟩ | ⟨-, hs⟩ := forsaken_snoc hf
    · cases heq
    · exact hs t rfl
  | send | shutdown =>
    refine ⟨fun _ hf => hok.asks trivial (hf.of_snoc ⟨nofun, nofun⟩), fun n hn => ?_⟩
    obtain rfl := Option.some.inj hn
    exact ⟨_, current_last _ _⟩
  | receive => exact ⟨fun _ hf => hok.asks trivial (hf.of_snoc ⟨nofun, nofun⟩), nofun⟩
  | _ => exact ⟨nofun, nofun⟩

end StageMove

/-- The identities of threads: no two have the same one, and none is zero. -/
structure ThreadIds (ids : ThreadRef → Nat) : Prop where
  injective : Injective ids
  ne_zero : ∀ t, ids t ≠ 0

/-- Two threads behind the gate are the same one. -/
theorem GateInv.alone (hids : ThreadIds ids) (h : GateInv ids es s) (ht : (s.pc t).Inside)
    (hu : (s.pc u).Inside) : u = t :=
  hids.injective ((h.holds u hu).symm.trans (h.holds t ht))

/-- Thread `t` goes on to `pc`. -/
theorem GateInv.moved {pc : CallPc} (hpc : s'.pc = update s.pc t pc)
    (hothers : ∀ u, u ≠ t → (s.pc u).Inside → s'.owner = ids u ∧
      ∀ c stage, s.pc u = .inside c stage → StageOk es u stage)
    (hholds : pc.Inside → s'.owner = ids t) (hlost : Forsaken es → s'.state ≠ .running)
    (hmail : ∀ m ∈ s'.inFlight, Current es (.replied m))
    (hstage : ∀ c stage, pc = .inside c stage → StageOk es t stage) : GateInv ids es s' := by
  refine ⟨fun u hu => ?_, hlost, hmail, fun u c stage hu => ?_⟩ <;> rw [hpc] at hu <;>
    by_cases hut : u = t
  · subst hut
    rw [update_self] at hu
    exact hholds hu
  · rw [update_of_ne hut] at hu
    exact (hothers u hut hu).1
  · subst hut
    rw [update_self] at hu
    exact hstage c stage hu
  · rw [update_of_ne hut] at hu
    exact (hothers u hut (by rw [hu]; trivial)).2 c stage hu

/-- Thread `t` goes on outside the gate. -/
theorem GateInv.outside {pc : CallPc} (h : GateInv ids es s) (he : e.Plain) (hpc : ¬ pc.Inside) :
    GateInv ids (es ++ [e]) (s.setPc t pc) :=
  have h := h.plain he
  .moved rfl (fun u _ hu => ⟨h.holds u hu, h.stage u⟩) (fun hin => absurd hin hpc) h.lost h.mail
    fun _ _ hin => absurd (hin ▸ trivial) hpc

theorem GateInv.move (hids : ThreadIds ids) (h : GateInv ids es s) (m : GateMove ids s t e s') :
    GateInv ids (es ++ [e]) s' := by
  cases m with
  | stay | bounce => exact h.plain ⟨nofun, nofun⟩
  | call c hpc | refuse hpc | done hpc => exact h.outside ⟨nofun, nofun⟩ id
  | enter hpc hfree =>
    have h' := h.plain (e := .entered t) ⟨nofun, nofun⟩
    refine .moved rfl (fun u _ hu => ?_) (fun _ => rfl) h'.lost h'.mail fun c stage hc => ?_
    · exact absurd ((h.holds u hu).symm.trans hfree) (hids.ne_zero u)
    · obtain ⟨-, rfl⟩ := CallPc.inside.inj hc
      exact ⟨nofun, nofun⟩
  | @inside c stage stage' e w hpc hm =>
    have hin : (s.pc t).Inside := hpc ▸ trivial
    have hok := h.stage t c stage hpc
    have hpc' : (w.stage t c stage').pc = update s.pc t (.inside c stage') := by
      rw [GateWorld.stage, setPc, hm.pc]
    refine .moved hpc' (fun u hut hu => absurd (h.alone hids hin hu) hut) (fun _ => ?_)
      (hm.lost h.lost hok) (hm.mail h.mail) fun c' stage'' hc => ?_
    · exact hm.owner.trans (h.holds t hin)
    · obtain ⟨-, rfl⟩ := CallPc.inside.inj hc
      exact hm.stageOk h.lost hok
  | leave hpc =>
    have hin : (s.pc t).Inside := hpc ▸ trivial
    have h' := h.plain (e := .left t) ⟨nofun, nofun⟩
    exact .moved rfl (fun u hut hu => absurd (h.alone hids hin hu) hut) nofun h'.lost h'.mail nofun

theorem GateInv.step (hids : ThreadIds ids) (h : GateInv ids es s) (hs : GateStep ids s e s') :
    GateInv ids (es ++ [e]) s' := by
  cases hs with
  | thread t env hin => exact h.move hids (threadStep_move hin)
  | reply m =>
    have h' := h.plain (e := .replied (s.requests, m)) ⟨nofun, nofun⟩
    refine ⟨h'.holds, h'.lost, fun m' hm' => ?_, h'.stage⟩
    obtain rfl | hm' := List.mem_cons.mp hm'
    · exact current_last _ _
    · exact h'.mail m' hm'
  | refresh exit =>
    have h' := h.plain (e := .quiet) ⟨nofun, nofun⟩
    exact ⟨h'.holds, fun hf hr => h'.lost hf (refreshTerminal_running hr), h'.mail, h'.stage⟩

theorem GateInv.of_run (hids : ThreadIds ids) (h : Run (GateStep ids) .boot es s) :
    GateInv ids es s := by
  refine h.history (P := GateInv ids) ⟨nofun, ?_, nofun, nofun⟩ fun es s e s' hi hs => hi.step hids hs
  rintro ⟨t, n, hf⟩
  exact absurd hf not_active_nil

/-! ### What a thread has done -/

/-- The event has happened, and the thread has not called since. -/
def InCall (es : List GateEvent) (t : ThreadRef) (e : GateEvent) : Prop :=
  Active Eq (fun e _ => ∃ c, e = .called t c) es e

/-- The call has sent request `n`. -/
def SentIn (es : List GateEvent) (t : ThreadRef) (c : SupervisorCall) (n : Nat) : Prop :=
  ∃ request expected, c.request = some (request, expected) ∧ InCall es t (.sent t n request)

/-- The call has sent request `n` and received the reply. -/
def RepliedIn (es : List GateEvent) (t : ThreadRef) (c : SupervisorCall) (n : Nat)
    (reply : IpcMessage) : Prop :=
  SentIn es t c n ∧ ∃ k, InCall es t (.received t n (k, reply))

/-- The thread has called, and since then has done nothing. -/
def OnlyCalled (es : List GateEvent) (t : ThreadRef) (c : SupervisorCall) : Prop :=
  Active (fun e g => e = .called t g) (fun e _ => e.thread = some t) es c

/-- The events of a run that brought a thread where it stands. -/
def CallHistory (es : List GateEvent) (t : ThreadRef) : CallPc → Prop
  | .entering c => OnlyCalled es t c
  | .inside c (.receiving n) => SentIn es t c n
  | .inside c (.received n reply) => RepliedIn es t c n reply
  | .inside c (.leaving (.replied n reply)) => RepliedIn es t c n reply
  | .left c (.replied n reply) => RepliedIn es t c n reply
  -- what a request does not come to
  | .inside c .launching | .inside c .closing | .inside c (.stopping _) | .inside c (.release _)
  | .inside c (.leaving (.done true)) | .left c (.done true) => c.request = none
  | .idle | .inside _ .entered | .inside _ .sending | .inside _ (.leaving (.done false))
  | .left _ (.done false) => True

section History

variable {n : Nat} {reply : IpcMessage}

theorem inCall_last (es : List GateEvent) (t : ThreadRef) (e : GateEvent) : InCall (es ++ [e]) t e :=
  active_snoc.mpr (.inl rfl)

theorem SentIn.snoc (h : SentIn es t c n) (he : ∀ c, e ≠ .called t c) : SentIn (es ++ [e]) t c n := by
  obtain ⟨request, expected, hreq, hin⟩ := h
  exact ⟨request, expected, hreq, active_snoc.mpr (.inr ⟨hin, fun hc => hc.elim he⟩)⟩

theorem RepliedIn.snoc (h : RepliedIn es t c n reply) (he : ∀ c, e ≠ .called t c) :
    RepliedIn (es ++ [e]) t c n reply :=
  ⟨h.1.snoc he, h.2.imp fun _ hin => active_snoc.mpr (.inr ⟨hin, fun hc => hc.elim he⟩)⟩

/-- An event of another thread changes nothing. -/
theorem CallHistory.snoc {pc : CallPc} (h : CallHistory es t pc) (he : e.thread ≠ some t) :
    CallHistory (es ++ [e]) t pc := by
  have hcalls : ∀ c, e ≠ .called t c := by
    intro c hc
    rw [hc] at he
    exact he rfl
  cases pc with
  | idle => trivial
  | entering c =>
    rw [CallHistory] at h ⊢
    exact active_snoc.mpr (.inr ⟨h, he⟩)
  | inside c stage =>
    cases stage with
    | receiving n => exact SentIn.snoc h hcalls
    | received n reply => exact RepliedIn.snoc h hcalls
    | leaving outcome =>
      cases outcome with
      | replied n reply => exact RepliedIn.snoc h hcalls
      | done ok => cases ok <;> exact h
    | _ => exact h
  | left c outcome =>
    cases outcome with
    | replied n reply => exact RepliedIn.snoc h hcalls
    | done ok => cases ok <;> exact h

theorem StageMove.history {stage stage' : CallStage} {w : GateWorld}
    (m : StageMove s t c stage e w stage') (h : CallHistory es t (.inside c stage)) :
    CallHistory (es ++ [e]) t (.inside c stage') := by
  cases m with
  | send hreq => exact ⟨_, _, hreq, inCall_last _ _ _⟩
  | receive hm => exact ⟨SentIn.snoc h nofun, _, inCall_last _ _ _⟩
  | accept => exact RepliedIn.snoc h nofun
  | @finish _ ok exit hok =>
    cases ok with
    | false => trivial
    | true => exact hok rfl
  | launch hreq | close hreq | abandon hreq => exact hreq
  | fail ok hstage => obtain rfl | rfl := hstage <;> exact h
  | @released ok =>
    cases ok with
    | false => trivial
    | true => exact h
  | launched | shutdown | loseShutdown | stopped => exact h
  | ask | lose | reject | retained => trivial

theorem GateMove.history (m : GateMove ids s t e s') (h : ∀ u, CallHistory es u (s.pc u)) :
    ∀ u, CallHistory (es ++ [e]) u (s'.pc u) := by
  -- `t` goes on to `pc`, every other thread stays where it is
  have moved : ∀ {pc : CallPc}, s'.pc = update s.pc t pc → e.thread = some t ∨ e = .quiet →
      CallHistory (es ++ [e]) t pc → ∀ u, CallHistory (es ++ [e]) u (s'.pc u) := by
    intro pc hpc he ht u
    rw [hpc]
    by_cases hut : u = t
    · subst hut
      rw [update_self]
      exact ht
    · rw [update_of_ne hut]
      refine (h u).snoc ?_
      obtain he | rfl := he
      · rw [he]
        exact fun heq => hut (Option.some.inj heq).symm
      · exact nofun
  have ht := h t
  cases m with
  | stay => exact fun u => (h u).snoc nofun
  | bounce c hpc =>
    refine moved (update_eq_self t s.pc).symm (.inl rfl) ?_
    rw [hpc]
    trivial
  | call c hpc =>
    refine moved rfl (.inl rfl) ?_
    rw [CallHistory]
    exact active_snoc.mpr (.inl rfl)
  | refuse hpc | enter hpc hfree | done hpc => exact moved rfl (.inl rfl) trivial
  | @inside c stage stage' e w hpc hm =>
    have hpc' : (w.stage t c stage').pc = update s.pc t (.inside c stage') := by
      rw [GateWorld.stage, setPc, hm.pc]
    rw [hpc] at ht
    refine moved hpc' ?_ (hm.history ht)
    cases hm with
    | launch | send | lose | receive | shutdown | loseShutdown | stopped => exact .inl rfl
    | _ => exact .inr rfl
  | @leave c outcome hpc =>
    rw [hpc] at ht
    refine moved rfl (.inl rfl) ?_
    cases outcome with
    | replied n reply => exact RepliedIn.snoc ht nofun
    | done ok => cases ok <;> exact ht

theorem callHistory_of_run (h : Run (GateStep ids) .boot es s) : ∀ t, CallHistory es t (s.pc t) := by
  refine h.history (P := fun es (s : GateWorld) => ∀ t, CallHistory es t (s.pc t)) (fun _ => trivial)
    fun es s e s' ih hs => ?_
  cases hs with
  | thread t env hin =>
    have hm : GateMove ids s t _ _ := threadStep_move hin
    exact hm.history ih
  | reply m | refresh exit => exact fun u => (ih u).snoc nofun

end History

/-! ### Whole runs -/

/-- Only the owner gives the gate back. -/
theorem GateMove.owner (h : GateInv ids es s) (m : GateMove ids s t e s') (hheld : s.owner ≠ 0)
    (hne : s'.owner ≠ s.owner) : e = .left t ∧ s.owner = ids t ∧ s'.owner = 0 := by
  cases m with
  | stay | bounce | call | refuse | done => exact absurd rfl hne
  | enter hpc hfree => exact absurd hfree hheld
  | inside hpc hm => exact absurd hm.owner hne
  | leave hpc =>
    have hown : s.owner = ids t := h.holds t (by rw [hpc]; trivial)
    exact ⟨rfl, hown, if_pos hown⟩

/-- An event of a thread comes from a step of it. -/
theorem GateStep.move (hs : GateStep ids s e s') (he : e.thread ≠ none) :
    ∃ t, GateMove ids s t e s' := by
  cases hs with
  | thread t env hin => exact ⟨t, threadStep_move hin⟩
  | reply m | refresh exit => exact absurd rfl he

/-- A message is sent behind the gate. -/
theorem GateMove.sent {n : Nat} {request : IpcMessage}
    (m : GateMove ids s t (.sent u n request) s') : u = t ∧ (s.pc t).Inside := by
  cases m with
  | inside hpc hm => cases hm <;> exact ⟨rfl, by rw [hpc]; trivial⟩

/-- A message is received behind the gate, by the thread whose turn it is to get a reply. -/
theorem GateMove.received {n : Nat} {p : Nat × IpcMessage}
    (m : GateMove ids s t (.received u n p) s') :
    u = t ∧ p ∈ s.inFlight ∧ ∃ c stage, s.pc t = .inside c stage ∧ stage.Asks ∧
      stage.awaits = some n := by
  cases m with
  | inside hpc hm =>
    cases hm with
    | receive hp | stopped _ hp => exact ⟨rfl, hp, _, _, hpc, trivial, rfl⟩

theorem GateMove.refused (m : GateMove ids s t (.refused u c) s') :
    u = t ∧ s.pc t = .entering c := by
  cases m with
  | inside hpc hm => nomatch hm
  | refuse hpc => exact ⟨rfl, hpc⟩

theorem GateMove.returned {v : Nat} (m : GateMove ids s t (.returned u c (some v)) s') :
    u = t ∧ ∃ outcome, s.pc t = .left c outcome ∧ output c outcome = some v := by
  generalize he : GateEvent.returned u c (some v) = e at m
  cases m with
  | inside hpc hm => cases hm <;> cases he
  | done hpc =>
    obtain ⟨rfl, rfl, hv⟩ := GateEvent.returned.inj he
    exact ⟨rfl, _, hpc, hv.symm⟩
  | _ => cases he

/-- A request that returns true has been sent and has got its reply. -/
theorem GateStep.answered {v expected : Nat} {request : IpcMessage}
    (hs : GateStep ids s (.returned t c (some v)) s') (hhist : ∀ t, CallHistory es t (s.pc t))
    (hreq : c.request = some (request, expected)) :
    ∃ n m, InCall es t (.sent t n request) ∧ InCall es t (.received t n m) ∧
      c.answer m.2 = some v := by
  obtain ⟨u, hm⟩ := hs.move nofun
  obtain ⟨rfl, outcome, hpc, hout⟩ := hm.returned
  have ht := hhist t
  rw [hpc] at ht
  cases outcome with
  | replied n reply =>
    obtain ⟨⟨request', expected', hreq', hsent⟩, k, hreply⟩ := ht
    obtain ⟨rfl, -⟩ := Prod.mk.inj (Option.some.inj (hreq.symm.trans hreq'))
    exact ⟨n, (k, reply), hsent, hreply, hout⟩
  | done ok =>
    cases ok with
    | true => cases hreq.symm.trans ht
    | false => nomatch hout

/-- **Requests are serialised and answered by their own reply.** -/
theorem supervisor_requests_serialised (hids : ThreadIds ids)
    (h : Run (GateStep ids) .boot es s) :
    (∀ t u, (s.pc t).Inside → (s.pc u).Inside → t = u) ∧
    ∀ e s', GateStep ids s e s' →
      (s.owner ≠ 0 → s'.owner ≠ s.owner → ∃ t, e = .left t ∧ s.owner = ids t ∧ s'.owner = 0) ∧
      (∀ t n request, e = .sent t n request → (s.pc t).Inside ∧ s.owner = ids t) ∧
      (∀ t c, e = .refused t c → OnlyCalled es t c) ∧
      (∀ t cookie v, e = .returned t (.ping cookie) (some v) →
        ∃ n request m, InCall es t (.sent t n request) ∧ InCall es t (.received t n m) ∧
          request.words 1 = cookie ∧ m.2.words 1 = cookie ∧ v = cookie) ∧
      (∀ t session sequence snapshot v,
        e = .returned t (.graphicsExchange session sequence snapshot) (some v) →
        ∃ n request m, InCall es t (.sent t n request) ∧ InCall es t (.received t n m) ∧
          request.words 1 = session ∧ m.2.words 1 = session ∧
          request.words 2 = sequence ∧ m.2.words 2 = sequence ∧ v = m.2.words 3) ∧
      -- a reply that is taken was sent by the incarnation that got the request, and no call has
      -- given up on a reply of this incarnation: it is nobody's late reply
      ∀ t n m, e = .received t n m → Current es (.replied m) ∧
        (∃ request, Current es (.sent t n request)) ∧ ∀ u r, ¬ Current es (.gaveUp u r) := by
  have hinv := GateInv.of_run hids h
  have hhist := callHistory_of_run h
  refine ⟨fun t u ht hu => hinv.alone hids hu ht, fun e s' hs => ⟨?_, ?_, ?_, ?_, ?_, ?_⟩⟩
  · intro hheld hne
    cases hs with
    | thread t env hin => exact ⟨t, (threadStep_move hin).owner hinv hheld hne⟩
    | reply m | refresh exit => exact absurd rfl hne
  · rintro t n request rfl
    obtain ⟨u, hm⟩ := hs.move nofun
    obtain ⟨rfl, hin⟩ := hm.sent
    exact ⟨hin, hinv.holds _ hin⟩
  · rintro t c rfl
    obtain ⟨u, hm⟩ := hs.move nofun
    obtain ⟨rfl, hpc⟩ := hm.refused
    have ht := hhist t
    rw [hpc] at ht
    exact ht
  · rintro t cookie v rfl
    obtain ⟨n, m, hsent, hreply, hv⟩ := hs.answered hhist rfl
    simp only [SupervisorCall.answer] at hv
    split_ifs at hv with hbad
    rw [not_or, not_not, not_not] at hbad
    exact ⟨n, _, m, hsent, hreply, rfl, hbad.2, (Option.some.inj hv).symm.trans hbad.2⟩
  · rintro t session sequence snapshot v rfl
    obtain ⟨n, m, hsent, hreply, hv⟩ := hs.answered hhist rfl
    simp only [SupervisorCall.answer] at hv
    split_ifs at hv with hbad
    simp only [not_or, not_not] at hbad
    exact ⟨n, _, m, hsent, hreply, rfl, hbad.2.1, rfl, hbad.2.2.1, (Option.some.inj hv).symm⟩
  · rintro t n p rfl
    obtain ⟨u, hm⟩ := hs.move nofun
    obtain ⟨rfl, hp, c, stage, hpc, hasks, hawaits⟩ := hm.received
    have hok := hinv.stage _ c stage hpc
    exact ⟨hinv.mail p hp, hok.awaits n hawaits, fun u r hr => hok.asks hasks ⟨u, r, hr⟩⟩

namespace GateWorld

/-- One step of the system: of the service when it sends, or of a thread when the message it is
told of was sent. -/
def turn (ids : ThreadRef → Nat) (s : GateWorld) :
    IpcMessage ⊕ ThreadRef × GateEnv → Option (GateEvent × GateWorld)
  | .inl m => some (.replied (s.requests, m), { s with inFlight := (s.requests, m) :: s.inFlight })
  | .inr (t, env) =>
    if ∀ m ∈ env.inbox, m ∈ s.inFlight then some (s.threadStep t (ids t) env) else none

theorem turn_step {e : GateEvent} {a : IpcMessage ⊕ ThreadRef × GateEnv}
    (h : s.turn ids a = some (e, s')) :
    GateStep ids s e s' := by
  cases a with
  | inl m =>
    have hs : GateStep ids s _ _ := .reply m
    obtain ⟨rfl, rfl⟩ := Prod.mk.inj (Option.some.inj h)
    exact hs
  | inr a =>
    obtain ⟨hin, hstep⟩ := (Option.ite_none_right_eq_some).mp h
    have hs : GateStep ids s _ _ := .thread a.1 a.2 hin
    rw [Option.some.inj hstep] at hs
    exact hs

/-- The steps in the order given, with their events. -/
def turns (ids : ThreadRef → Nat) (s : GateWorld) (as : List (IpcMessage ⊕ ThreadRef × GateEnv)) :
    Option (List GateEvent × GateWorld) :=
  execSome (fun a s => s.turn ids a) as s

/-- Nothing fails, and nobody waits at the gate. -/
def obliging (call : SupervisorCall) (inbox : Option (Nat × IpcMessage)) : GateEnv :=
  ⟨call, true, false, none, true, true, inbox, true, true, true, true, true⟩

def pong : IpcMessage :=
  ⟨fun i => if i = 0 then supervisorReplyPong else if i = 1 then 7 else 0, 2⟩

/-- Thread 0 starts the service. Thread 1 pings it and gives up; its reply comes late. Thread 0
recovers the service and starts it again, then thread 1 pings it once more with the same cookie
while thread 0 is refused at the gate. -/
def secondPing : List (IpcMessage ⊕ ThreadRef × GateEnv) :=
  List.replicate 6 (.inr (0, obliging .start none)) ++
    List.replicate 7 (.inr (1, obliging (.ping 7) none)) ++ [.inl pong] ++
    List.replicate 6 (.inr (0, obliging .recover none)) ++
    List.replicate 6 (.inr (0, obliging .start none)) ++
    List.replicate 4 (.inr (1, obliging (.ping 7) none)) ++
    List.replicate 2 (.inr (0, obliging .recover none)) ++
    [.inl pong, .inr (1, obliging (.ping 7) (some (2, pong)))] ++
    List.replicate 2 (.inr (1, obliging (.ping 7) none))

end GateWorld

theorem threadIds_succ : ThreadIds (· + 1) := ⟨fun _ _ => Nat.succ.inj, Nat.succ_ne_zero⟩

theorem supervisor_requests_serialised_secondPing :
    ∃ es s, Run (GateStep (· + 1)) .boot es s ∧ s.pc 1 = .left (.ping 7) (.replied 2 pong) ∧
      .gaveUp 1 1 ∈ es ∧ .replied (1, pong) ∈ es ∧ .refused 0 .recover ∈ es ∧
      ∃ n request m, InCall es 1 (.sent 1 n request) ∧ InCall es 1 (.received 1 n m) ∧
        request.words 1 = 7 ∧ m.2.words 1 = 7 := by
  obtain ⟨⟨es, s⟩, hturns⟩ : ∃ r, GateWorld.boot.turns (· + 1) secondPing = some r :=
    Option.isSome_iff_exists.mp (by decide +kernel)
  have hpc : (GateWorld.boot.turns (· + 1) secondPing).map (·.2.pc 1) =
      some (.left (.ping 7) (.replied 2 pong)) := by
    decide +kernel
  have hes : (GateWorld.boot.turns (· + 1) secondPing).map (fun r => decide (.gaveUp 1 1 ∈ r.1 ∧
      .replied (1, pong) ∈ r.1 ∧ .refused 0 .recover ∈ r.1)) = some true := by
    decide +kernel
  rw [hturns] at hpc hes
  have hrun : Run (GateStep (· + 1)) .boot es s := .of_execSome (fun _ _ _ _ _ => turn_step) hturns
  have hpc : s.pc 1 = .left (.ping 7) (.replied 2 pong) := Option.some.inj hpc
  obtain ⟨hgave, hlate, href⟩ := of_decide_eq_true (Option.some.inj hes)
  have hs : GateStep (· + 1) s _ _ := .thread 1 (obliging .start none) nofun
  have hret : (s.threadStep 1 2 (obliging .start none)).1 = .returned 1 (.ping 7) (some 7) := by
    rw [threadStep, hpc]
    rfl
  obtain ⟨n, request, m, hsent, hreply, hcookie, hanswer, -⟩ :=
    ((supervisor_requests_serialised threadIds_succ hrun).2 _ _ hs).2.2.2.1 1 7 7 hret
  exact ⟨es, s, hrun, hpc, hgave, hlate, href, n, request, m, hsent, hreply, hcookie, hanswer⟩

end JcosKernel
