import JcosKernel.Polaris.Gate

/-!
# JcosKernel.Polaris.GateRuns

**What the gate lets through, whatever the messages.** The device sees six reads first; a write
reaches it only when all six values were the expected ones, and there are at most two writes, the
high half of the surface address and then the low half (`Disciplined`). A gate that was poisoned
or has completed performs nothing any more (`gateStepWithin_dead`), and the message budget is
never what stops a live one (`GateInv.within_budget`).
-/

namespace JcosKernel.Polaris

open Lib

/-- The writes among the operations, in order. -/
def writesOf (ops : List ProgramOp) : List (DisplayRegister × BitVec 32) :=
  ops.filterMap fun
    | .write r v => some (r, v)
    | _ => none

/-- The two writes of a program. -/
def programWrites : List (DisplayRegister × BitVec 32) := [(.primaryHigh, 0xF4), (.primaryLow, 0)]

/-- The six reads a program opens with. -/
def opening : List ProgramOp := RebindRead.all.map .read

/-- The first `n` reads of the opening were answered with valid values. -/
def ReadsValid (io : ProgramIo) (flip : BitVec 32) (n : Nat) : Prop :=
  ∀ i < n, ∀ f, RebindRead.all[i]? = some f →
    ∃ v, io.read (opening.take i) f = some v ∧ readValid f v flip false = true

/-- The operations start with the six reads, all valid. -/
structure Opened (io : ProgramIo) (flip : BitVec 32) (ops : List ProgramOp) : Prop where
  reads : opening <+: ops
  valid : ReadsValid io flip 6

/-- What the device may have seen: the writes are the first of the two, made after six valid
reads. -/
structure Disciplined (io : ProgramIo) (flip : BitVec 32) (ops : List ProgramOp) : Prop where
  writes : writesOf ops <+: programWrites
  opened : writesOf ops ≠ [] → Opened io flip ops

variable {io : ProgramIo} {flip : BitVec 32} {ops : List ProgramOp} {w : GateRun}

@[simp] theorem writesOf_append_read (f : RebindRead) :
    writesOf (ops ++ [.read f]) = writesOf ops := by
  simp [writesOf]

@[simp] theorem writesOf_append_wait : writesOf (ops ++ [.wait]) = writesOf ops := by
  simp [writesOf]

@[simp] theorem writesOf_append_write (r : DisplayRegister) (v : BitVec 32) :
    writesOf (ops ++ [.write r v]) = writesOf ops ++ [(r, v)] := by
  simp [writesOf]

theorem Opened.append (h : Opened io flip ops) (op : ProgramOp) : Opened io flip (ops ++ [op]) :=
  ⟨h.reads.trans (List.prefix_append ops [op]), h.valid⟩

/-- An operation that is no write. -/
theorem Disciplined.append (h : Disciplined io flip ops) {op : ProgramOp}
    (hop : writesOf (ops ++ [op]) = writesOf ops) : Disciplined io flip (ops ++ [op]) := by
  constructor
  · rw [hop]
    exact h.writes
  · intro hne
    rw [hop] at hne
    exact (h.opened hne).append _

/-! ## The invariant of a live gate -/

/-- What a live gate has done so far, by its state: the operations, and how many messages and
polls they took. -/
def ProgressAt (io : ProgramIo) (g : ProgramGate) (ops : List ProgramOp) : GateState → Prop
  | .before =>
    g.field < 6 ∧ ops = opening.take g.field ∧ ReadsValid io g.flip g.field ∧
      g.sequence = g.field ∧ g.result.polls = 0
  | .high => Opened io g.flip ops ∧ writesOf ops = [] ∧ g.sequence = 6 ∧ g.result.polls = 0
  | .low =>
    Opened io g.flip ops ∧ writesOf ops = [(.primaryHigh, 0xF4)] ∧ g.sequence = 7 ∧
      g.result.polls = 0
  | .posted =>
    Opened io g.flip ops ∧ writesOf ops = programWrites ∧ g.sequence = 8 ∧ g.result.polls = 0
  | .baseline =>
    Opened io g.flip ops ∧ writesOf ops = programWrites ∧ g.sequence = 9 ∧ g.result.polls = 0
  | .poll =>
    Opened io g.flip ops ∧ writesOf ops = programWrites ∧ g.field < 6 ∧
      (g.field = 0 → g.sequence = 10 + 7 * g.result.polls ∧ g.result.polls < programPolls) ∧
      (0 < g.field → g.sequence + 7 = 10 + 7 * g.result.polls + g.field ∧ 0 < g.result.polls ∧
        g.result.polls ≤ programPolls)
  | .wait =>
    Opened io g.flip ops ∧ writesOf ops = programWrites ∧
      g.sequence + 1 = 10 + 7 * g.result.polls ∧ g.result.polls < programPolls
  | .done => False

/-- The invariant of the gate under any messages. -/
structure GateInv (io : ProgramIo) (flip : BitVec 32) (w : GateRun) : Prop where
  disciplined : Disciplined io flip w.ops
  sameFlip : w.gate.Live → w.gate.flip = flip
  progress : w.gate.Live → ProgressAt io w.gate w.ops w.gate.state

/-- A poisoned gate only has to have been disciplined. -/
theorem GateInv.of_fail (h : Disciplined io flip w.ops) : GateInv io flip w.fail.2 :=
  ⟨h, fun hl => Bool.noConfusion hl.unpoisoned, fun hl => Bool.noConfusion hl.unpoisoned⟩

theorem GateInv.within_budget (h : GateInv io flip w) (hl : w.gate.Live) :
    w.gate.sequence < rebindMessages := by
  have hp := h.progress hl
  have hm : rebindMessages = 457 := by decide
  have hpolls : programPolls = 64 := by decide
  generalize w.gate.state = st at hp
  cases st with
  | poll =>
    obtain ⟨-, -, hf, h0, h1⟩ := hp
    rcases Nat.eq_zero_or_pos w.gate.field with hz | hz
    · omega
    · omega
  | done => exact hp.elim
  | _ =>
    simp only [ProgressAt] at hp
    omega

/-! ## One step -/

variable {f : RebindRead} {g : ProgramGate} {n : Nat}

theorem RebindRead.all_of_lt (h : n < 6) : ∃ f, RebindRead.all[n]? = some f :=
  ⟨_, List.getElem?_eq_getElem (show n < RebindRead.all.length from h)⟩

theorem RebindRead.number_eq (h : RebindRead.all[n]? = some f) : f.number = n := by
  obtain ⟨hlt, rfl⟩ := List.getElem?_eq_some_iff.mp h
  exact List.Nodup.idxOf_getElem (by decide) n hlt

theorem opening_take_succ (h : RebindRead.all[n]? = some f) :
    opening.take (n + 1) = opening.take n ++ [.read f] := by
  rw [List.take_add_one, opening, List.getElem?_map, h]
  rfl

theorem ReadsValid.succ {v : BitVec 32} (h : ReadsValid io flip n)
    (hf : RebindRead.all[n]? = some f) (hr : io.read (opening.take n) f = some v)
    (hv : readValid f v flip false = true) : ReadsValid io flip (n + 1) := by
  intro i hi f' hf'
  rcases Nat.lt_succ_iff_lt_or_eq.mp hi with hlt | rfl
  · exact h i hlt f' hf'
  · rw [hf] at hf'
    cases hf'
    exact ⟨v, hr, hv⟩

/-- A read keeps the invariant when what a valid value does to the gate keeps it. -/
theorem GateInv.read (hd : Disciplined io flip w.ops) (hadv : ∀ v, io.read w.ops f = some v →
      readValid f v w.gate.flip (w.gate.state = .poll) = true →
      GateInv io flip
        (GateRun.advance f v { gate := w.gate.countRead f, ops := w.ops ++ [.read f] }).2) :
    GateInv io flip (GateRun.read io f w).2 := by
  cases hr : io.read w.ops f with
  | none =>
    rw [GateRun.read_refused hr]
    exact .of_fail (hd.append (writesOf_append_read f))
  | some v =>
    cases hv : readValid f v w.gate.flip (w.gate.state = .poll) with
    | false =>
      rw [GateRun.read_invalid hr hv]
      exact .of_fail (hd.append (writesOf_append_read f))
    | true =>
      rw [GateRun.read_valid hr hv]
      exact hadv v hr hv

theorem ProgramGate.countRead_of_ne_poll (h : g.state ≠ .poll) :
    g.countRead f = { g with result := { g.result with reads := g.result.reads + 1 } } := by
  simp [ProgramGate.countRead, ProgramGate.countPoll, h]

theorem Disciplined.of_take (n : Nat) : Disciplined io flip (opening.take n) := by
  have hno : writesOf (opening.take n) = [] := by
    rw [writesOf, List.filterMap_eq_nil_iff]
    intro op hop
    obtain ⟨f, -, rfl⟩ := List.mem_map.mp (List.mem_of_mem_take hop)
    rfl
  exact ⟨hno ▸ List.nil_prefix, fun hne => absurd hno hne⟩

theorem Disciplined.of_opened (h : Opened io flip ops) (hw : writesOf ops <+: programWrites) :
    Disciplined io flip ops :=
  ⟨hw, fun _ => h⟩

theorem ProgressAt.disciplined {st : GateState} (h : ProgressAt io g ops st) :
    Disciplined io g.flip ops := by
  cases st with
  | before => exact h.2.1 ▸ Disciplined.of_take g.field
  | high => exact .of_opened h.1 (h.2.1 ▸ List.nil_prefix)
  | low => exact .of_opened h.1 (h.2.1 ▸ List.prefix_append _ [_])
  | posted | baseline | poll | wait => exact .of_opened h.1 (h.2.1 ▸ List.prefix_rfl)
  | done => exact h.elim

theorem GateInv.of_progress (st : GateState) (hst : w.gate.state = st)
    (hflip : w.gate.flip = flip) (hp : ProgressAt io w.gate w.ops st) : GateInv io flip w := by
  refine ⟨?_, fun _ => hflip, fun _ => hst.symm ▸ hp⟩
  rw [← hflip]
  exact hp.disciplined

namespace GateInv

section Perform

variable {budget : Nat} {tag payload : BitVec 64}

theorem perform_before (hst : w.gate.state = .before)
    (hp : ProgressAt io w.gate w.ops .before) :
    GateInv io w.gate.flip (GateRun.perform io .read w.gate.field payload w.tick).2 := by
  obtain ⟨hlt, hops, hvalid, hseq, hpolls⟩ := hp
  obtain ⟨f, hf⟩ := RebindRead.all_of_lt hlt
  have hne : w.tick.gate.state ≠ .poll := by simp [GateRun.tick, hst]
  simp only [GateRun.perform, hf]
  refine .read (hops ▸ Disciplined.of_take _) ?_
  intro v hr hv
  rw [decide_eq_false hne] at hv
  have hvalid' : ReadsValid io w.gate.flip (w.gate.field + 1) := hvalid.succ hf (hops ▸ hr) hv
  have hops' : w.ops ++ [.read f] = opening.take (w.gate.field + 1) := by
    rw [opening_take_succ hf, ← hops]
  rw [ProgramGate.countRead_of_ne_poll hne]
  simp only [GateRun.advance, GateRun.tick, hst]
  split
  · next h6 =>
    have hopened : Opened io w.gate.flip (w.ops ++ [.read f]) := by
      rw [h6] at hvalid' hops'
      exact ⟨hops' ▸ List.prefix_rfl, hvalid'⟩
    have hnone : writesOf (w.ops ++ [.read f]) = [] := by
      rw [hops', h6]
      rfl
    have hseq' : w.gate.sequence + 1 = 6 := hseq ▸ h6
    exact .of_progress .high rfl rfl ⟨hopened, hnone, hseq', hpolls⟩
  · next h6 =>
    have hlt' : w.gate.field + 1 < 6 := by omega
    have hseq' : w.gate.sequence + 1 = w.gate.field + 1 := by rw [hseq]
    exact .of_progress .before rfl rfl ⟨hlt', hops', hvalid', hseq', hpolls⟩

/-- The account of the next state is also one of a write that fails. -/
theorem write {r : DisplayRegister} {v : BitVec 32} (st : GateState)
    (hst : (if w.gate.state = .high then GateState.low else .posted) = st)
    (hp : ∀ n, ProgressAt io { w.tick.gate with
      state := st, result := { w.gate.result with writeAttempts := n } } (w.ops ++ [.write r v]) st) :
    GateInv io w.gate.flip (GateRun.write io r v w.tick).2 := by
  subst hst
  simp only [GateRun.write]
  split
  · exact .of_progress _ rfl rfl (hp _)
  · exact .of_fail (hp 0).disciplined

theorem perform_high (hst : w.gate.state = .high)
    (hp : ProgressAt io w.gate w.ops .high) (hpay : payload = 0xF4) :
    GateInv io w.gate.flip
      (GateRun.perform io .write DisplayRegister.primaryHigh.number payload w.tick).2 := by
  subst hpay
  obtain ⟨hopened, hwrites, hseq, hpolls⟩ := hp
  refine write (v := 0xF4) .low (by simp [hst]) fun _ => ⟨hopened.append _, ?_, congrArg (· + 1) hseq, hpolls⟩
  rw [writesOf_append_write, hwrites]
  rfl

theorem perform_low (hst : w.gate.state = .low)
    (hp : ProgressAt io w.gate w.ops .low) (hpay : payload = 0) :
    GateInv io w.gate.flip
      (GateRun.perform io .write DisplayRegister.primaryLow.number payload w.tick).2 := by
  subst hpay
  obtain ⟨hopened, hwrites, hseq, hpolls⟩ := hp
  refine write (v := 0) .posted (by simp [hst]) fun _ => ⟨hopened.append _, ?_, congrArg (· + 1) hseq, hpolls⟩
  rw [writesOf_append_write, hwrites]
  rfl

theorem perform_posted (hst : w.gate.state = .posted)
    (hp : ProgressAt io w.gate w.ops .posted) :
    GateInv io w.gate.flip (GateRun.perform io .read 0 payload w.tick).2 := by
  have hd := hp.disciplined
  obtain ⟨hopened, hwrites, hseq, hpolls⟩ := hp
  have hne : w.tick.gate.state ≠ .poll := by simp [GateRun.tick, hst]
  refine .read hd ?_
  intro v _ _
  rw [ProgramGate.countRead_of_ne_poll hne]
  simp only [GateRun.advance, GateRun.tick, hst]
  exact .of_progress .baseline rfl rfl
    ⟨hopened.append _, (writesOf_append_read _).trans hwrites, by simp [hseq], hpolls⟩

theorem perform_baseline (hst : w.gate.state = .baseline)
    (hp : ProgressAt io w.gate w.ops .baseline) :
    GateInv io w.gate.flip (GateRun.perform io .read 5 payload w.tick).2 := by
  have hd := hp.disciplined
  obtain ⟨hopened, hwrites, hseq, hpolls⟩ := hp
  refine .read hd ?_
  intro v _ _
  simp only [GateRun.advance, GateRun.tick, hst]
  have hfirst : w.gate.sequence + 1 = 10 + 7 * w.gate.result.polls ∧
      w.gate.result.polls < programPolls := by
    rw [hseq, hpolls]
    decide
  exact .of_progress .poll rfl rfl
    ⟨hopened.append _, (writesOf_append_read _).trans hwrites, by simp, fun _ => hfirst,
      fun h => absurd h (Nat.lt_irrefl 0)⟩

theorem perform_wait (hp : ProgressAt io w.gate w.ops .wait) :
    GateInv io w.gate.flip (GateRun.perform io .wait 0 payload w.tick).2 := by
  have hd := hp.disciplined
  obtain ⟨hopened, hwrites, hseq, hpolls⟩ := hp
  cases hw : io.wait w.ops with
  | true =>
    rw [GateRun.perform, GateRun.wait_taken (w := w.tick) hw]
    exact .of_progress .poll rfl rfl
      ⟨hopened.append _, writesOf_append_wait.trans hwrites, by simp, fun _ => ⟨hseq, hpolls⟩,
        fun h => absurd h (Nat.lt_irrefl 0)⟩
  | false =>
    rw [GateRun.perform, GateRun.wait_refused (w := w.tick) hw]
    exact .of_fail (hd.append writesOf_append_wait)

/-- The sixth value of a poll. -/
theorem settle (v : BitVec 32) (hflip : w.gate.flip = flip)
    (hopened : Opened io flip w.ops) (hwrites : writesOf w.ops = programWrites)
    (hseq : w.gate.sequence + 1 = 10 + 7 * w.gate.result.polls) :
    GateInv io flip (GateRun.settle v w).2 := by
  subst hflip
  have hd : Disciplined io w.gate.flip w.ops := .of_opened hopened (hwrites ▸ List.prefix_rfl)
  unfold GateRun.settle
  dsimp only
  split
  · exact .of_fail hd
  · split
    · -- completed: the gate is not live any more
      exact ⟨hd, fun hl => Bool.noConfusion hl.running, fun hl => Bool.noConfusion hl.running⟩
    · split
      · exact .of_fail hd
      · next hmore =>
        exact .of_progress .wait rfl rfl
          ⟨hopened, hwrites, hseq, Nat.lt_of_not_le hmore⟩

/-- A valid value of a poll whose message and poll are counted. -/
theorem advance_poll (v : BitVec 32) (hst : w.gate.state = .poll)
    (hflip : w.gate.flip = flip) (hopened : Opened io flip w.ops)
    (hwrites : writesOf w.ops = programWrites) (hlt : w.gate.field < 6)
    (hseq : w.gate.sequence + 7 = 10 + 7 * w.gate.result.polls + (w.gate.field + 1))
    (hpos : 0 < w.gate.result.polls) (hpolls : w.gate.result.polls ≤ programPolls) :
    GateInv io flip (GateRun.advance f v w).2 := by
  subst hflip
  simp only [GateRun.advance, hst]
  by_cases h6 : w.gate.field + 1 = 6
  · rw [if_pos h6]
    have hseq' : w.gate.sequence + 1 = 10 + 7 * w.gate.result.polls := by omega
    exact settle v rfl hopened hwrites hseq'
  · rw [if_neg h6]
    have hlt' : w.gate.field + 1 < 6 := by omega
    exact .of_progress .poll rfl rfl
      ⟨hopened, hwrites, hlt', fun hz => absurd hz (Nat.succ_ne_zero _),
        fun _ => ⟨hseq, hpos, hpolls⟩⟩

theorem perform_poll (hst : w.gate.state = .poll)
    (hp : ProgressAt io w.gate w.ops .poll) :
    GateInv io w.gate.flip (GateRun.perform io .read w.gate.field payload w.tick).2 := by
  have hd := hp.disciplined
  obtain ⟨hopened, hwrites, hlt, hzero, hpos⟩ := hp
  obtain ⟨f, hf⟩ := RebindRead.all_of_lt hlt
  -- the first value of a poll is the one that counts it
  have hcount : (w.tick.gate.countRead f).result.polls =
      if w.gate.field = 0 then w.gate.result.polls + 1 else w.gate.result.polls := by
    have hlow : f = .low ↔ w.gate.field = 0 := by
      rw [← RebindRead.number_eq hf]
      cases f <;> decide
    simp only [ProgramGate.countRead, ProgramGate.countPoll, GateRun.tick, hst, true_and, hlow]
    split <;> rfl
  have hpolled : w.gate.sequence + 1 + 7 =
        10 + 7 * (w.tick.gate.countRead f).result.polls + (w.gate.field + 1) ∧
      0 < (w.tick.gate.countRead f).result.polls ∧
      (w.tick.gate.countRead f).result.polls ≤ programPolls := by
    rw [hcount]
    split
    · omega
    · omega
  simp only [GateRun.perform, hf]
  refine .read hd ?_
  intro v _ _
  have hflip : (w.tick.gate.countRead f).flip = w.gate.flip :=
    ProgramGate.countRead_flip w.tick.gate f
  have hfield : (w.tick.gate.countRead f).field = w.gate.field :=
    ProgramGate.countRead_field w.tick.gate f
  have hseq : (w.tick.gate.countRead f).sequence = w.gate.sequence + 1 :=
    ProgramGate.countRead_sequence w.tick.gate f
  apply advance_poll
  · exact (ProgramGate.countRead_state _ f).trans hst
  · exact hflip
  · exact hopened.append _
  · exact (writesOf_append_read f).trans hwrites
  · rw [hfield]
    exact hlt
  · rw [hseq, hfield]
    exact hpolled.1
  · exact hpolled.2.1
  · exact hpolled.2.2

/-- The request a live gate takes keeps the invariant. -/
theorem perform (h : GateInv io flip w) (ht : w.Takes budget io tag payload) :
    GateInv io flip
      (GateRun.perform io w.gate.expected.1 w.gate.expected.2 payload w.tick).2 := by
  rw [← h.sameFlip ht.live]
  have hp := h.progress ht.live
  cases hst : w.gate.state with simp only [ProgramGate.expected, hst]
  | before => exact perform_before hst (hst ▸ hp)
  | high => exact perform_high hst (hst ▸ hp) (ht.high hst)
  | low => exact perform_low hst (hst ▸ hp) (ht.low hst)
  | posted => exact perform_posted hst (hst ▸ hp)
  | baseline => exact perform_baseline hst (hst ▸ hp)
  | poll => exact perform_poll hst (hst ▸ hp)
  | wait => exact perform_wait (hst ▸ hp)
  | done => exact absurd hst ht.state

/-- No message breaks the invariant. -/
theorem step (h : GateInv io flip w) (budget : Nat) (tag payload : BitVec 64) :
    GateInv io flip (gateStepWithin budget io tag payload w).2 := by
  rcases gateStepWithin_cases budget io tag payload w with ⟨-, he⟩ | ⟨-, he⟩ | ⟨ht, he⟩ <;> rw [he]
  · exact h
  · exact .of_fail h.disciplined
  · exact h.perform ht

end Perform

theorem init (p : ProgramPlan) :
    GateInv io (p.witness.values 0 .flipControl) { gate := (polarisProgramGateInit p).2 } := by
  have hdead : GateInv io (p.witness.values 0 .flipControl) { gate := {} } :=
    ⟨Disciplined.of_take 0, fun hl => Bool.noConfusion hl.initialized,
      fun hl => Bool.noConfusion hl.initialized⟩
  unfold polarisProgramGateInit
  split
  · exact hdead
  · split
    · exact .of_progress .before rfl rfl
        ⟨Nat.succ_pos 5, rfl, fun i hi => absurd hi (Nat.not_lt_zero i), rfl, rfl⟩
    · exact hdead

/-- The invariant holds after any messages. -/
theorem run (h : GateInv io flip w) (ms : List (BitVec 64 × BitVec 64)) :
    GateInv io flip (gateRun io w ms) := by
  induction ms generalizing w with
  | nil => exact h
  | cons m ms ih => exact ih (h.step rebindMessages m.1 m.2)

end GateInv

end JcosKernel.Polaris
