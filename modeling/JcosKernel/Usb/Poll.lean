import JcosKernel.Usb.Rings

/-!
# JcosKernel.Usb.Poll

**The keyboard's report transfer** (`xhci_poll` of `kernel/usb_xhci.c`). What the controller does
during a call is a list of turns: the events that `next_event` returns, each with what the driver
then reads of the port and of the transfer buffer. A call that returns early leaves turns over, and
a step of the system (`PollStep`) is a call with exactly the turns that it takes.

Every good completion that is taken is followed by the decoding of its report and by a new
transfer. A failed one is followed by nothing: the keyboard is still present, and no transfer is
queued. `keyboard_report_armed` says that this is the only way to lose the transfer.
-/

namespace JcosKernel.Xhci

open Lib

/-! ## The driver -/

def trbTransferEvent : BitVec 32 := 32

/-- `xhci_completion_code_ok`. -/
def xhciCompletionCodeOk (code : BitVec 32) (allowShortPacket : Bool) : Bool :=
  code = 1 || allowShortPacket && code = 13

/-- What `xhci_poll` uses of `g_xhci`, with the endpoint ring. The queue of keys, the last report and
the caps lock state belong to `decode_report`. -/
structure PollState where
  keyboardReady : Bool
  /-- `op` is not null. -/
  mapped : Bool
  portSelected : Bool
  port : BitVec 32
  maxPorts : BitVec 32
  slot : BitVec 32
  endpointId : BitVec 32
  transferBuffer : BitVec 64
  report : List (BitVec 8)
  ring : TrbRing

/-- What the driver does besides reading. -/
inductive PollOp
  /-- A report transfer into `buffer` is queued, and the doorbell of the endpoint is rung. -/
  | submit (endpoint : BitVec 32) (buffer : BitVec 64)
  | decode (report : List (BitVec 8))
  | disableSlot (slot : BitVec 32)
deriving DecidableEq

/-- An event, with the port's connect bit behind it and, on a failed completion, behind that, and
with the bytes that are in the transfer buffer. -/
structure Turn where
  event : Trb
  connected : Bool
  stillConnected : Bool
  buffer : List (BitVec 8)

/-- The completion code. -/
def Turn.code (t : Turn) : BitVec 32 := (t.event.status >>> 24) &&& 0xFF

namespace PollState

/-- `selected_port_connected`, with the bit it reads. -/
def selectedPortConnected (k : PollState) (ccs : Bool) : Bool :=
  k.mapped && k.portSelected && decide (k.port < k.maxPorts) && ccs

/-- `disconnect_current_keyboard`. The result of the command does not matter to it. -/
def disconnectCurrentKeyboard (k : PollState) : List PollOp × PollState :=
  if k.keyboardReady then
    (if k.slot = 0 then [] else [.disableSlot k.slot], { k with
      keyboardReady := false
      report := List.replicate 8 0
      slot := 0
      endpointId := 0
      portSelected := false })
  else ([], k)

/-- `submit_keyboard_report` on the endpoint ring. -/
def submit (k : PollState) : PollState :=
  { k with ring := submitKeyboardReport k.ring k.transferBuffer }

/-- The loop of `xhci_poll`, and the turns that it leaves. -/
def pollLoop (k : PollState) : List Turn → List PollOp × PollState × List Turn
  | [] => ([], k, [])
  | t :: ts =>
    if ¬ k.selectedPortConnected t.connected then
      (k.disconnectCurrentKeyboard.1, k.disconnectCurrentKeyboard.2, ts)
    else if typeOf t.event.control ≠ trbTransferEvent then k.pollLoop ts
    else if (t.event.control >>> 24) &&& 0xFF ≠ k.slot ∨
        (t.event.control >>> 16) &&& 0x1F ≠ k.endpointId then k.pollLoop ts
    else if ¬ xhciCompletionCodeOk t.code true then
      if k.selectedPortConnected t.stillConnected then ([], k, ts)
      else (k.disconnectCurrentKeyboard.1, k.disconnectCurrentKeyboard.2, ts)
    else
      let k := { k with report := t.buffer }
      let r := k.submit.pollLoop ts
      (.decode k.report :: .submit k.endpointId k.transferBuffer :: r.1, r.2)

def xhciPoll (k : PollState) (connected : Bool) (ts : List Turn) :
    List PollOp × PollState × List Turn :=
  if ¬ k.keyboardReady then ([], k, ts)
  else if ¬ k.selectedPortConnected connected then
    (k.disconnectCurrentKeyboard.1, k.disconnectCurrentKeyboard.2, ts)
  else k.pollLoop ts

/-- The end of `xhci_init`: a first transfer is queued. -/
def started (k : PollState) : PollState := { k.submit with keyboardReady := true }

end PollState

open PollState

/-- A call of `xhci_poll` with the turns that it takes, whatever the controller does. -/
inductive PollStep : PollState → List Turn × List PollOp → PollState → Prop
  | poll {k k' : PollState} (connected : Bool) {ts : List Turn} {ops : List PollOp}
      (h : k.xhciPoll connected ts = (ops, k', [])) : PollStep k (ts, ops) k'

/-! ## Rounds -/

def PollOp.isSubmit : PollOp → Bool
  | .submit .. => true
  | _ => false

/-- The turn brings a completion of the keyboard's transfer, from a connected port. -/
def PollState.completes (k : PollState) (t : Turn) : Bool :=
  k.selectedPortConnected t.connected && typeOf t.event.control = trbTransferEvent &&
    (t.event.control >>> 24) &&& 0xFF = k.slot && (t.event.control >>> 16) &&& 0x1F = k.endpointId

/-- What a completion leads to: a good one is decoded, once, and then the buffer is offered again. -/
def PollState.round (k : PollState) (t : Turn) : List PollOp :=
  if xhciCompletionCodeOk t.code true then
    [.decode t.buffer, .submit k.endpointId k.transferBuffer]
  else []

variable {k k' k'' : PollState} {ops ops' : List PollOp} {t : Turn} {ts ts' : List Turn}

/-- The operations are those that the completions lead to; behind them a keyboard that is gone may
have its slot disabled. The transfers are in the ring. -/
structure Serves (k : PollState) (ts : List Turn) (ops : List PollOp) (k' : PollState) : Prop where
  rounds : ∃ rest, ops = (ts.filter k.completes).flatMap k.round ++ rest ∧
    (k'.keyboardReady = true → rest = []) ∧ ∀ o ∈ rest, ∃ slot, o = .disableSlot slot
  present : k'.keyboardReady = true → k' = { k with report := k'.report, ring := k'.ring }
  ring : k'.ring = (submitKeyboardReport · k.transferBuffer)^[ops.countP PollOp.isSubmit] k.ring

theorem Serves.refl (k : PollState) : Serves k [] [] k :=
  ⟨⟨[], rfl, fun _ => rfl, nofun⟩, fun _ => rfl, rfl⟩

theorem Serves.trans (h : Serves k ts ops k') (hk : k'.keyboardReady = true)
    (h' : Serves k' ts' ops' k'') : Serves k (ts ++ ts') (ops ++ ops') k'' := by
  obtain ⟨rest, hops, hnil, -⟩ := h.rounds
  obtain ⟨rest', hops', hrest⟩ := h'.rounds
  have hsame := h.present hk
  -- it is the same keyboard still, so its completions and its rounds are the same
  have hcompletes : k'.completes = k.completes := by rw [hsame]; rfl
  have hround : k'.round = k.round := by rw [hsame]; rfl
  have hbuffer : k'.transferBuffer = k.transferBuffer := by rw [hsame]
  refine ⟨⟨rest', ?_, hrest⟩, fun hready => ?_, ?_⟩
  · rw [hops, hops', hnil hk, hcompletes, hround, List.append_nil, List.filter_append,
      List.flatMap_append, List.append_assoc]
  · rw [h'.present hready, hsame]
  · rw [h'.ring, h.ring, hbuffer, List.countP_append, Nat.add_comm, Function.iterate_add_apply]

/-- The turn leads to nothing. -/
theorem flatMap_round_singleton (h : k.completes t → k.round t = []) :
    ([t].filter k.completes).flatMap k.round = [] := by
  by_cases ht : k.completes t
  · simp [ht, h ht]
  · simp [ht]

theorem idle_serves (h : k.completes t → k.round t = []) : Serves k [t] [] k :=
  ⟨⟨[], by rw [flatMap_round_singleton h]; rfl, fun _ => rfl, nofun⟩, fun _ => rfl, rfl⟩

theorem disconnect_serves (h : (ts.filter k.completes).flatMap k.round = []) :
    Serves k ts k.disconnectCurrentKeyboard.1 k.disconnectCurrentKeyboard.2 := by
  unfold disconnectCurrentKeyboard
  split_ifs
  · exact ⟨⟨[], by rw [h]; rfl, nofun, nofun⟩, nofun, rfl⟩
  · exact ⟨⟨_, by rw [h]; rfl, nofun, by simp⟩, nofun, rfl⟩
  · exact ⟨⟨[], by rw [h]; rfl, fun _ => rfl, nofun⟩, fun _ => rfl, rfl⟩

theorem report_serves (ht : k.completes t) (h : xhciCompletionCodeOk t.code true) :
    Serves k [t] [.decode t.buffer, .submit k.endpointId k.transferBuffer]
      ({ k with report := t.buffer } : PollState).submit :=
  ⟨⟨[], by simp [ht, PollState.round, h], fun _ => rfl, nofun⟩, fun _ => rfl, rfl⟩

/-- The loop serves the turns that it takes. -/
theorem pollLoop_serves (hk : k.keyboardReady = true) (ts : List Turn) :
    ∃ taken, ts = taken ++ (k.pollLoop ts).2.2 ∧
      Serves k taken (k.pollLoop ts).1 (k.pollLoop ts).2.1 := by
  induction ts generalizing k with
  | nil => exact ⟨[], rfl, .refl k⟩
  | cons t ts ih =>
    obtain ⟨taken, htaken, hs⟩ := ih hk
    have hskip : ¬ k.completes t → ∃ taken, t :: ts = taken ++ (k.pollLoop ts).2.2 ∧
        Serves k taken (k.pollLoop ts).1 (k.pollLoop ts).2.1 := fun ht =>
      ⟨t :: taken, congrArg _ htaken, (idle_serves fun hc => absurd hc ht).trans hk hs⟩
    unfold pollLoop
    dsimp only
    split_ifs with hport htype hother hcode hstill
    · exact hskip (by simp [PollState.completes, htype])
    · exact hskip (by simp only [PollState.completes, Bool.and_eq_true, decide_eq_true_eq]; tauto)
    · have ht : k.completes t := by
        simp only [PollState.completes, Bool.and_eq_true, decide_eq_true_eq]
        tauto
      obtain ⟨taken', htaken', hs'⟩ := ih (k := ({ k with report := t.buffer } : PollState).submit) hk
      exact ⟨t :: taken', congrArg _ htaken', (report_serves ht hcode).trans hk hs'⟩
    · exact ⟨[t], rfl, idle_serves fun _ => if_neg hcode⟩
    · exact ⟨[t], rfl, disconnect_serves (flatMap_round_singleton fun _ => if_neg hcode)⟩
    · exact ⟨[t], rfl, disconnect_serves (by simp [PollState.completes, hport])⟩

theorem xhciPoll_serves {connected : Bool} (h : k.xhciPoll connected ts = (ops, k', [])) :
    Serves k ts ops k' := by
  unfold xhciPoll at h
  split_ifs at h with hk hport
  · obtain ⟨taken, htaken, hs⟩ := pollLoop_serves hk ts
    rw [h] at htaken hs
    rw [htaken, List.append_nil]
    exact hs
  · obtain ⟨rfl, rfl, rfl⟩ : _ = ops ∧ _ = k' ∧ ts = [] := by simpa using h
    exact disconnect_serves rfl
  · obtain ⟨rfl, rfl, rfl⟩ : [] = ops ∧ k = k' ∧ ts = [] := by simpa using h
    exact .refl k

/-- The turns of the calls of a run. -/
def turnsOf (cs : List (List Turn × List PollOp)) : List Turn := cs.flatMap (·.1)
/-- The operations of the calls of a run. -/
def opsOf (cs : List (List Turn × List PollOp)) : List PollOp := cs.flatMap (·.2)

theorem serves_of_run {cs : List (List Turn × List PollOp)} (h : Run PollStep k cs k') :
    Serves k (turnsOf cs) (opsOf cs) k' := by
  refine h.history (P := fun cs k' => Serves k (turnsOf cs) (opsOf cs) k') (.refl k) ?_
  intro cs k' c k'' ih hs
  cases hs with
  | @poll _ connected ts ops hpoll =>
    simp only [turnsOf, opsOf, List.flatMap_append, List.flatMap_singleton] at ih ⊢
    by_cases hk : k'.keyboardReady = true
    · exact ih.trans hk (xhciPoll_serves hpoll)
    · rw [xhciPoll, if_pos hk] at hpoll
      obtain ⟨rfl, rfl, rfl⟩ : [] = ops ∧ k' = k'' ∧ ts = [] := by simpa using hpoll
      rwa [List.append_nil, List.append_nil]

/-- There are as many transfers as completions exactly when all of them are good. -/
theorem countP_rounds (ts : List Turn) :
    (ts.flatMap k.round).countP PollOp.isSubmit ≤ ts.length ∧
    ((ts.flatMap k.round).countP PollOp.isSubmit = ts.length ↔
      ∀ t ∈ ts, xhciCompletionCodeOk t.code true) := by
  induction ts with
  | nil => simp
  | cons t ts ih =>
    rw [List.flatMap_cons, List.countP_append, List.length_cons, List.forall_mem_cons, ← ih.2]
    by_cases ht : xhciCompletionCodeOk t.code true
    · have hone : (k.round t).countP PollOp.isSubmit = 1 := by
        rw [PollState.round, if_pos ht]
        rfl
      rw [hone]
      exact ⟨by omega, by simp [ht]; omega⟩
    · have hnone : (k.round t).countP PollOp.isSubmit = 0 := by
        rw [PollState.round, if_neg ht]
        rfl
      rw [hnone]
      exact ⟨by omega, by simp [ht]; omega⟩

/-- **The report transfer of a keyboard.** After any calls of `xhci_poll`, and whatever the controller
reports: each good completion was decoded once, and then the buffer was offered again; and a keyboard
that is present has one transfer queued whose completion is still to come exactly when no completion
of it has failed. -/
theorem keyboard_report_armed {cs : List (List Turn × List PollOp)}
    (h : Run PollStep k.started cs k') :
    (∃ rest, opsOf cs = ((turnsOf cs).filter k.completes).flatMap k.round ++ rest ∧
      (k'.keyboardReady = true → rest = []) ∧ ∀ o ∈ rest, ∃ slot, o = .disableSlot slot) ∧
    k'.ring = (submitKeyboardReport · k.transferBuffer)^[(opsOf cs).countP PollOp.isSubmit + 1] k.ring ∧
    (k'.keyboardReady = true →
      ((opsOf cs).countP PollOp.isSubmit + 1 = (turnsOf cs).countP k.completes + 1 ↔
        ∀ t ∈ turnsOf cs, k.completes t → xhciCompletionCodeOk t.code true)) := by
  have hs := serves_of_run h
  refine ⟨hs.rounds, hs.ring, fun hk => ?_⟩
  obtain ⟨rest, hops, hnil, -⟩ := hs.rounds
  rw [hnil hk, List.append_nil] at hops
  rw [hops, Nat.add_right_cancel_iff, List.countP_eq_length_filter (p := k.completes)]
  refine (countP_rounds _).2.trans ?_
  simp only [List.mem_filter, and_imp]
  rfl

/-- A keyboard in slot 1, on endpoint 3 of port 0. -/
def readyKeyboard : PollState :=
  ⟨true, true, true, 0, 1, 1, 3, 0x4000, [], { phys := 0x2000 }⟩

/-- A completion of its transfer. -/
def completion (code : BitVec 32) : Turn :=
  ⟨{ status := code <<< 24, control := trbType trbTransferEvent ||| trbSlotId 1 ||| 3 <<< 16 }, true,
    true, List.replicate 8 0⟩

/-- Two polls: a report and an event of another slot, then a short report. -/
theorem keyboard_report_armed_twoPolls : ∃ k cs, Run PollStep readyKeyboard.started cs k ∧
    k.keyboardReady = true ∧ (turnsOf cs).length = 3 ∧
    (opsOf cs).countP PollOp.isSubmit + 1 = (turnsOf cs).countP readyKeyboard.completes + 1 ∧
    (turnsOf cs).countP readyKeyboard.completes = 2 := by
  have hrun : Run PollStep readyKeyboard.started
      [([completion 1, { completion 4 with event := {} }], _), ([completion 13], _)] _ :=
    (Run.single (.poll true rfl)).append (.single (.poll true rfl))
  refine ⟨_, _, hrun, rfl, rfl, ((keyboard_report_armed hrun).2.2 rfl).mpr ?_, by decide⟩
  decide

/-- A transaction error: the keyboard is present, and no transfer is queued. -/
theorem keyboard_report_lost : ∃ k ops, PollStep readyKeyboard.started ([completion 4], ops) k ∧
    k.keyboardReady = true ∧ ops.countP PollOp.isSubmit + 1 =
      [completion 4].countP readyKeyboard.completes := by
  refine ⟨_, [], .poll true rfl, ?_, ?_⟩ <;> decide

end JcosKernel.Xhci
