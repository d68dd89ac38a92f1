import JcosKernel.Polaris.GateRuns
import JcosKernel.Polaris.Sequencer

/-!
# JcosKernel.Polaris.Lockstep

**Three programs, one sequence.** `rebind` is the sequence itself: every value is checked as it is
read. Two couplings tie it to the sources:

* the reference reads six values and compares them afterwards; a value that fails the comparison
  makes it give up later, but it gives up (`executeAccepted_coupled`);
* the sequencer talks to the gate, which checks each value at once, counts the poll with its first
  value and looks at the frame counter with its sixth (`polarisUserProgram_coupled`).

The second coupling holds for every message budget of at least `POLARIS_REBIND_MESSAGES` and also
relates the runs that give up, so the budget never decides anything.
-/

namespace JcosKernel.Polaris

open Lib Lib.Attempt

/-! ## The sequence -/

/-- A read whose value is checked at once. -/
def checked (io : ProgramIo) (flip : BitVec 32) (polling : Bool) (f : RebindRead) :
    Attempt ProgramRun (BitVec 32) := do
  let v ← load io f
  guard (readValid f v flip polling = true)
  pure v

/-- The polls, `left` of them still to come. -/
def rebindPolls (io : ProgramIo) (flip baseline : BitVec 32) : Nat → Attempt ProgramRun (BitVec 32)
  | 0 => failure
  | left + 1 => do
    countPoll
    let _ ← checked io flip true .low
    let _ ← checked io flip true .high
    let _ ← checked io flip true .crtc
    let update ← checked io flip true .update
    let _ ← checked io flip true .flip
    let frame ← checked io flip true .frame
    let delta := (frame - baseline) &&& crtcFrameCountMask
    guard (delta ≤ 512)
    if delta ≥ 2 ∧ update &&& updatePending = 0 then finish delta
    else if left = 0 then failure
    else do
      pause io
      rebindPolls io flip baseline left

/-- The whole sequence. -/
def rebind (io : ProgramIo) (flip : BitVec 32) : Attempt ProgramRun (BitVec 32) := do
  let _ ← checked io flip false .low
  let _ ← checked io flip false .high
  let _ ← checked io flip false .crtc
  let _ ← checked io flip false .update
  let _ ← checked io flip false .flip
  let _ ← checked io flip false .frame
  store io .primaryHigh 0xF4
  store io .primaryLow 0
  let _ ← checked io flip false .low
  let baseline ← checked io flip false .frame
  rebindPolls io flip baseline programPolls

/-! ## The reference -/

variable {f : RebindRead} {b u v : BitVec 32} {s : ProgramRun} {i m : Nat}

section Reference

variable {io : ProgramIo} {flip : BitVec 32} {polling : Bool} {α β : Type}

/-- The reference checks later what `checked` checks at once: the two agree when the rest of the
reference gives up on every value the check refuses. -/
theorem load_deferred {k : BitVec 32 → Attempt ProgramRun α} {l : BitVec 32 → Attempt ProgramRun β}
    {post : α → β → ProgramRun → ProgramRun → Prop}
    (hgood : ∀ v, readValid f v flip polling = true → Coupled Eq (k v) (l v) post fun _ _ => True)
    (hbad : ∀ v, v ≠ absentValue → readValid f v flip polling = false → Fails (k v)) :
    Coupled Eq (load io f >>= k) (checked io flip polling f >>= l) post fun _ _ => True := by
  intro s t hst
  subst hst
  rcases hload : (load io f).exec s with ⟨_ | v, s'⟩
  · exact .bind_none hload (exec_bind_none hload) trivial
  · rw [exec_bind_some hload]
    cases hv : readValid f v flip polling with
    | true =>
      have hchecked : (checked io flip polling f).exec s = (some v, s') := by
        rw [checked, exec_bind_some hload, exec_bind_some (exec_guard_pos hv s')]
        rfl
      rw [exec_bind_some hchecked]
      exact hgood v hv s' s' rfl
    | false =>
      have hchecked : (checked io flip polling f).exec s = (none, s') := by
        rw [checked, exec_bind_some hload,
          exec_bind_none (exec_guard_neg (by simp [hv]) s')]
      have hpresent : v ≠ absentValue := load_present hload
      rw [exec_bind_none hchecked]
      rcases hk : (k v).exec s' with ⟨a, s''⟩
      have hnone : a = none := by simpa [hk] using hbad v hpresent hv s'
      rw [hnone]
      exact .gaveUp trivial

/-- The bits of the update register a valid value may have. -/
def allowedUpdate (polling : Bool) : BitVec 32 :=
  updateTaken ||| (if polling then updatePending else 0)

variable {p : ProgramPlan} {low high crtc update flipped frame : BitVec 32}

/-- The comparison of the reference with an accepted plan. -/
def Agrees (p : ProgramPlan) (polling : Bool) (low high crtc update flipped frame : BitVec 32) :
    Prop :=
  SnapshotMatches low high crtc update flipped frame p.gpuAddress p.crtc (allowedUpdate polling)
    (p.witness.values 1 .flipControl)

instance : Decidable (Agrees p polling low high crtc update flipped frame) :=
  inferInstanceAs (Decidable (SnapshotMatches ..))

/-- For an accepted plan the reference compares with the constants the sequencer has. -/
theorem agrees_iff (ha : PlanAccepted p) :
    Agrees p polling low high crtc update flipped frame ↔
      UserSnapshot low high crtc update flipped frame (allowedUpdate polling)
        (p.witness.values 0 .flipControl) := by
  have hlow : (p.gpuAddress).setWidth 32 = (0 : BitVec 32) := by
    rw [ha.surface]
    decide
  have hhigh : (p.gpuAddress >>> 32).setWidth 32 = (0xF4 : BitVec 32) := by
    rw [ha.surface]
    decide
  rw [Agrees, SnapshotMatches, UserSnapshot, hlow, hhigh, ha.crtc, ha.flip]

/-- What is asked of a value that was read. -/
def Fits (f : RebindRead) (v flip : BitVec 32) (polling : Bool) : Prop :=
  match f with
  | .low => v = 0
  | .high => v = 0xF4
  | .crtc => v = retainedCrtc
  | .update => v &&& ~~~(allowedUpdate polling) = 0
  | .flip => v = flip
  | .frame => v &&& ~~~crtcFrameCountMask = 0

theorem readValid_iff (hv : v ≠ absentValue) : readValid f v flip polling = true ↔ Fits f v flip polling := by
  unfold readValid
  rw [if_neg hv]
  cases f <;> exact decide_eq_true_iff

theorem readValid_present (h : readValid f v flip polling = true) : v ≠ absentValue := by
  intro hv
  unfold readValid at h
  rw [if_pos hv] at h
  cases h

theorem fits_of_valid (h : readValid f v flip polling = true) : Fits f v flip polling :=
  (readValid_iff (readValid_present h)).mp h

theorem not_fits_of_invalid (hv : v ≠ absentValue) (h : readValid f v flip polling = false) :
    ¬ Fits f v flip polling :=
  fun hfits => Bool.noConfusion (h.symm.trans ((readValid_iff hv).mpr hfits))

/-- Six valid values pass the comparison. -/
theorem userSnapshot_of_valid (h1 : readValid .low low flip polling = true)
    (h2 : readValid .high high flip polling = true)
    (h3 : readValid .crtc crtc flip polling = true)
    (h4 : readValid .update update flip polling = true)
    (h5 : readValid .flip flipped flip polling = true)
    (h6 : readValid .frame frame flip polling = true) :
    UserSnapshot low high crtc update flipped frame (allowedUpdate polling) flip :=
  ⟨fits_of_valid h1, fits_of_valid h2, fits_of_valid h3, fits_of_valid h4, fits_of_valid h5, fits_of_valid h6⟩

/-- A snapshot of the reference: six values are loaded, then compared. -/
theorem snapshot_coupled (polling : Bool) (ha : PlanAccepted p) (hflip : flip = p.witness.values 0 .flipControl)
    {k : BitVec 32 → BitVec 32 → Attempt ProgramRun α}
    {l : BitVec 32 → BitVec 32 → Attempt ProgramRun β}
    {post : α → β → ProgramRun → ProgramRun → Prop}
    (h : ∀ update frame, Coupled Eq (k update frame) (l update frame) post fun _ _ => True) :
    Coupled Eq
      (do
        let low ← load io .low
        let high ← load io .high
        let crtc ← load io .crtc
        let update ← load io .update
        let flipped ← load io .flip
        let frame ← load io .frame
        guard (Agrees p polling low high crtc update flipped frame)
        k update frame)
      (do
        let _ ← checked io flip polling .low
        let _ ← checked io flip polling .high
        let _ ← checked io flip polling .crtc
        let update ← checked io flip polling .update
        let _ ← checked io flip polling .flip
        let frame ← checked io flip polling .frame
        l update frame)
      post fun _ _ => True := by
  subst hflip
  -- a good value leads on, a bad one fails the comparison at the end
  refine load_deferred (fun low h1 => load_deferred (fun high h2 => load_deferred (fun crtc h3 =>
    load_deferred (fun update h4 => load_deferred (fun flipped h5 => load_deferred
      (fun frame h6 => Coupled.guard_left (fun _ _ _ => ?_) (h update frame))
      ?_) ?_) ?_) ?_) ?_) ?_
  · exact (agrees_iff ha).mpr (userSnapshot_of_valid h1 h2 h3 h4 h5 h6)
  all_goals
    intro v hv hf
    repeat first
      | refine Fails.guard fun hagree => not_fits_of_invalid hv hf ?_
      | refine Fails.bind fun _ => ?_
  · exact ((agrees_iff ha).mp hagree).2.2.2.2.2
  · exact ((agrees_iff ha).mp hagree).2.2.2.2.1
  · exact ((agrees_iff ha).mp hagree).2.2.2.1
  · exact ((agrees_iff ha).mp hagree).2.2.1
  · exact ((agrees_iff ha).mp hagree).2.1
  · exact ((agrees_iff ha).mp hagree).1

/-- What the reference and the sequence have in common at the end. -/
def SameEnd (a b : BitVec 32) (s t : ProgramRun) : Prop := a = b ∧ s = t

theorem executePolls_coupled (ha : PlanAccepted p) (baseline : BitVec 32) (left : Nat) :
    Coupled Eq (executePolls io p baseline left)
      (rebindPolls io (p.witness.values 0 .flipControl) baseline left) SameEnd
      fun _ _ => True := by
  induction left with
  | zero => exact Coupled.failure fun _ _ _ => trivial
  | succ left ih =>
    refine Coupled.bind_same (fun _ => trivial) fun _ => snapshot_coupled true ha rfl ?_
    intro update frame
    refine Coupled.guard Iff.rfl (fun _ _ _ => trivial) fun _ => ?_
    split
    · intro s t hst
      subst hst
      exact .returned ⟨rfl, rfl⟩
    · split
      · exact Coupled.failure fun _ _ _ => trivial
      · exact Coupled.bind_same (fun _ => trivial) fun _ => ih

theorem executeAccepted_coupled (io : ProgramIo) (ha : PlanAccepted p) :
    Coupled Eq (executeAccepted io p) (rebind io (p.witness.values 0 .flipControl)) SameEnd
      fun _ _ => True := by
  have hsurface : (p.gpuAddress).setWidth 32 = (0 : BitVec 32) := by
    rw [ha.surface]
    decide
  refine snapshot_coupled false ha rfl fun _ _ => ?_
  rw [ha.high, ha.low]
  refine Coupled.bind_same (fun _ => trivial) fun _ =>
    Coupled.bind_same (fun _ => trivial) fun _ => load_deferred ?_ ?_
  · intro posted hposted
    have hlow : posted = 0 := fits_of_valid hposted
    refine Coupled.guard_left (fun _ _ _ => hlow.trans hsurface.symm) (load_deferred ?_ ?_)
    · intro baseline hbase
      exact Coupled.guard_left (fun _ _ _ => fits_of_valid hbase)
        (executePolls_coupled ha baseline programPolls)
    · exact fun baseline hv hf => Fails.guard (not_fits_of_invalid hv hf)
  · exact fun posted hv hf => Fails.guard fun hlow => not_fits_of_invalid hv hf (hlow.trans hsurface)

/-- A value was read. -/
def ProgramRun.counted (s : ProgramRun) (f : RebindRead) : ProgramRun :=
  { result := { s.result with reads := s.result.reads + 1 }, ops := s.ops ++ [.read f] }

section

variable (hadm : io.admitted s.ops = true) (hread : io.read s.ops f = some v)
include hadm hread

theorem load_exec : (load io f).exec s = (if v = absentValue then none else some v, s.counted f) := by
  simp [load, hadm, hread, ProgramRun.counted]

/-- A bad value ends the sequence. -/
theorem checked_invalid (hv : readValid f v flip polling = false) :
    (checked io flip polling f).exec s = (none, s.counted f) := by
  have hload := load_exec hadm hread
  split_ifs at hload with habs
  · exact exec_bind_none hload
  · rw [checked, exec_bind_some hload, exec_bind_none (exec_guard_neg (by simp [hv]) _)]

/-- A good value is counted and handed on. -/
theorem checked_valid (hv : readValid f v flip polling = true) :
    (checked io flip polling f).exec s = (some v, s.counted f) := by
  have hload := load_exec hadm hread
  rw [if_neg (readValid_present hv)] at hload
  rw [checked, exec_bind_some hload, exec_bind_some (exec_guard_pos hv _)]
  rfl

end

end Reference

/-! ## The sequencer and the gate -/

/-- Where a live gate stands between two requests. -/
structure GatePoint where
  state : GateState
  field : Nat
  sequence : Nat
  polls : Nat
  update : BitVec 32
  baseline : BitVec 32

/-- The gate at a point, with its result so far. -/
def GatePoint.gate (g : GatePoint) (flip : BitVec 32) (r : ProgramResult) : ProgramGate :=
  { result := r, state := g.state, field := g.field, sequence := g.sequence, flip,
    update := g.update, baseline := g.baseline, initialized := true }

/-- The conversation at a point: the client has the sequence number of the gate. -/
def GatePoint.conversation (g : GatePoint) (flip : BitVec 32) (r : ProgramResult)
    (ops : List ProgramOp) : Conversation :=
  { gate := g.gate flip r, ops, client := g.sequence }

/-- The point with the next sequence number. -/
def GatePoint.tick (g : GatePoint) : GatePoint := { g with sequence := g.sequence + 1 }

/-- The conversation stands at `g` and the sequence has the same operations behind it. Between the
start of a poll and its first value the gate is one poll behind (`owed`). -/
def InStep (flip : BitVec 32) (g : GatePoint) (owed : Nat) (c : Conversation) (t : ProgramRun) :
    Prop :=
  ∃ r : ProgramResult, r.complete = false ∧ r.polls = g.polls ∧
    t.result = { r with polls := r.polls + owed } ∧ c = g.conversation flip r t.ops

/-- What is left of the relation when both gave up. -/
def SameOps (c : Conversation) (t : ProgramRun) : Prop := c.ops = t.ops

/-- The reply to a request, as the client takes it. -/
def deliver (operation : RebindOp) (n : Nat) (x : Option (BitVec 32) × GateRun) :
    Option (BitVec 32) × Conversation :=
  match x with
  | (none, w) => (none, { toGateRun := w, client := n })
  | (some v, w) =>
    (if operation ≠ .read ∧ v ≠ 0 then none else some v, { toGateRun := w, client := n })

section Conversation

variable {io : ProgramIo} {flip : BitVec 32} {budget : Nat} {g : GatePoint} {r : ProgramResult}
  {ops : List ProgramOp} {operation : RebindOp} {field : Nat} {payload : BitVec 32}

theorem rebindMessages_eq : rebindMessages = 457 := by decide

/-- What the next request of the sequencer must be. -/
structure NextRequest (g : GatePoint) (operation : RebindOp) (field : Nat) (payload : BitVec 32) :
    Prop where
  expected : ∀ flip r, (g.gate flip r).expected = (operation, field)
  sequence : g.sequence < rebindMessages
  field : field < 16
  state : g.state ≠ .done
  high : g.state = .high → payload = 0xF4
  low : g.state = .low → payload = 0
  empty : operation ≠ .write → payload = 0

theorem RebindOp.code_lt (o : RebindOp) : o.code < 2 ^ 16 := by
  cases o <;> decide

section

variable (h : NextRequest g operation field payload) (flip : BitVec 32)
  (hb : rebindMessages ≤ budget) (hr : r.complete = false)
include h hb hr

theorem NextRequest.takes (hadm : io.admitted ops = true) :
    GateRun.Takes { gate := g.gate flip r, ops } budget io
      (rebindTag (g.sequence + 1) operation.code field) (payload.setWidth 64) := by
  have hm := rebindMessages_eq
  have hseq := h.sequence
  have hs : g.sequence + 1 < 2 ^ 32 := by omega
  have hf : field < 2 ^ 16 := Nat.lt_of_lt_of_le h.field (by decide)
  have he := h.expected flip r
  constructor
  · exact ⟨rfl, rfl, hr⟩
  · exact Nat.lt_of_lt_of_le hseq hb
  · exact tagSequence_rebindTag hs operation.code_lt hf
  · have hmax : (0xFFFFFFFF : BitVec 64).toNat = 2 ^ 32 - 1 := rfl
    simp only [BitVec.lt_def, BitVec.toNat_setWidth]
    omega
  · intro hst
    rw [h.high hst]
    rfl
  · intro hst
    rw [h.low hst]
    rfl
  · exact h.state
  · rw [he]
    exact tagOperation_rebindTag hs operation.code_lt hf
  · rw [he]
    exact tagField_rebindTag hs operation.code_lt hf
  · intro hne
    rw [he] at hne
    rw [h.empty hne]
    rfl
  · exact hadm

/-- An admitted request is performed. -/
theorem NextRequest.exchange (hadm : io.admitted ops = true) :
    (exchangeWithin budget io operation field payload).exec (g.conversation flip r ops) =
      deliver operation (g.sequence + 1) (GateRun.perform io operation field (payload.setWidth 64)
        { gate := g.tick.gate flip r, ops }) := by
  have hlt : ¬ budget ≤ g.sequence := Nat.not_le.mpr (Nat.lt_of_lt_of_le h.sequence hb)
  have hstep := gateStepWithin_takes (h.takes flip hb hr hadm)
  rw [h.expected flip r] at hstep
  simp only [exchangeWithin, exec_step, GatePoint.conversation, if_neg hlt]
  rw [hstep]
  rfl

/-- A request that is not admitted reaches no device. -/
theorem NextRequest.exchange_refused (hadm : io.admitted ops = false) :
    ∃ c : Conversation, c.ops = ops ∧
      (exchangeWithin budget io operation field payload).exec (g.conversation flip r ops) =
        (none, c) := by
  have hlt : ¬ budget ≤ g.sequence := Nat.not_le.mpr (Nat.lt_of_lt_of_le h.sequence hb)
  simp only [exchangeWithin, exec_step, GatePoint.conversation, if_neg hlt]
  rcases gateStepWithin_cases budget io (rebindTag (g.sequence + 1) operation.code field)
      (payload.setWidth 64) { gate := g.gate flip r, ops } with ⟨hl, -⟩ | ⟨-, he⟩ | ⟨ht, -⟩
  · exact absurd ⟨rfl, rfl, hr⟩ hl
  · rw [he]
    exact ⟨_, rfl, rfl⟩
  · have := ht.admitted
    rw [hadm] at this
    cases this

end

theorem RebindRead.all_number (f : RebindRead) : RebindRead.all[f.number]? = some f := by
  cases f <;> rfl

theorem DisplayRegister.all_number (f : DisplayRegister) :
    DisplayRegister.all[f.number]? = some f := by
  cases f <;> rfl

/-- What the poll owes before the value `f` is asked for. -/
def GatePoint.owed (g : GatePoint) (f : RebindRead) : Nat :=
  if g.state = .poll ∧ f = .low then 1 else 0

variable {α β : Type} {k : BitVec 32 → Attempt Conversation α}
  {l : BitVec 32 → Attempt ProgramRun β} {post : α → β → Conversation → ProgramRun → Prop}

/-- The rest of the sequencer after the gate has looked at a valid value. -/
def resume (k : BitVec 32 → Attempt Conversation α) (n : Nat)
    (x : Option (BitVec 32) × GateRun) : Option α × Conversation :=
  match x with
  | (none, w) => (none, { toGateRun := w, client := n })
  | (some v, w) => (k v).exec { toGateRun := w, client := n }

theorem GatePoint.countRead (f : RebindRead) : (g.gate flip r).countRead f =
    g.gate flip { r with polls := r.polls + g.owed f, reads := r.reads + 1 } := by
  by_cases h : g.state = .poll ∧ f = .low
  · have h' : (g.gate flip r).state = .poll ∧ f = .low := h
    simp only [ProgramGate.countRead, ProgramGate.countPoll, GatePoint.owed, if_pos h, if_pos h']
    rfl
  · have h' : ¬ ((g.gate flip r).state = .poll ∧ f = .low) := h
    simp only [ProgramGate.countRead, ProgramGate.countPoll, GatePoint.owed, if_neg h, if_neg h']
    rfl

/-- The sequencer takes the value the gate hands out. -/
theorem readValue_resume {c : Conversation} {w : GateRun} {n : Nat} (hv : v ≠ absentValue)
    (h : (exchangeWithin budget io .read f.number 0).exec c =
      deliver .read n (GateRun.advance f v w)) :
    (readValue (exchangeWithin budget io) f >>= k).exec c =
      resume k n (GateRun.advance f v w) := by
  rcases hadv : GateRun.advance f v w with ⟨_ | a, w'⟩
  · rw [hadv] at h
    have hread : (readValue (exchangeWithin budget io) f).exec c =
        (none, { toGateRun := w', client := n }) := exec_bind_none h
    rw [exec_bind_none hread]
    rfl
  · obtain rfl := GateRun.advance_value hadv
    rw [hadv] at h
    have hread : (readValue (exchangeWithin budget io) f).exec c =
        (some a, { toGateRun := w', client := n }) := by
      have h' : (exchangeWithin budget io .read f.number 0).exec c =
          (some a, { toGateRun := w', client := n }) := h
      rw [readValue, exec_bind_some h', exec_bind_some (exec_guard_pos hv _)]
      rfl
    rw [exec_bind_some hread]
    rfl

theorem countPoll_coupled {c : Attempt Conversation α} {l : Unit → Attempt ProgramRun β}
    (h : Coupled (InStep flip g 1) c (l ()) post SameOps) :
    Coupled (InStep flip g 0) c (countPoll >>= l) post SameOps := by
  intro s t hs
  obtain ⟨r, hr, hpolls, hres, rfl⟩ := hs
  refine h _ _ ⟨r, hr, hpolls, ?_, rfl⟩
  simp [hres]

variable (hb : rebindMessages ≤ budget)
include hb

/-- A value asked for through the gate and the same value in the sequence: both give up on a
refusal and on a bad value; on a good one it is left to see what the gate makes of it. -/
theorem readValue_coupled (hn : NextRequest g .read f.number 0)
    (hgood : ∀ v r ops, readValid f v flip (g.state = .poll) = true → r.complete = false →
      r.polls = g.polls + g.owed f → Matched post SameOps
        (resume k (g.sequence + 1) (GateRun.advance f v { gate := g.tick.gate flip r, ops }))
        ((l v).exec { result := r, ops })) :
    Coupled (InStep flip g (g.owed f)) (readValue (exchangeWithin budget io) f >>= k)
      (checked io flip (g.state = .poll) f >>= l) post SameOps := by
  intro c t hs
  obtain ⟨r, hr, hpolls, hres, rfl⟩ := hs
  cases hadm : io.admitted t.ops with
  | false =>
    obtain ⟨c, hc, he⟩ := hn.exchange_refused flip hb hr hadm
    have hload : (load io f).exec t = (none, t) := by simp [load, hadm]
    exact .bind_none (exec_bind_none he) (exec_bind_none hload) hc
  | true =>
    have he := hn.exchange flip hb hr hadm
    simp only [GateRun.perform, RebindRead.all_number] at he
    let w : GateRun := { gate := g.tick.gate flip r, ops := t.ops }
    cases hread : io.read t.ops f with
    | none =>
      rw [GateRun.read_refused hread] at he
      have hload : (load io f).exec t = (none, { t with ops := t.ops ++ [.read f] }) := by
        simp [load, hadm, hread]
      exact .bind_none (exec_bind_none he) (exec_bind_none hload) rfl
    | some v =>
      cases hv : readValid f v flip (g.state = .poll) with
      | false =>
        rw [GateRun.read_invalid (w := w) hread hv] at he
        exact .bind_none (exec_bind_none he) (checked_invalid hadm hread hv) rfl
      | true =>
        rw [GateRun.read_valid (w := w) hread hv] at he
        rw [readValue_resume (readValid_present hv) he,
          exec_bind_some (checked_valid hadm hread hv)]
        have hgate : w.gate.countRead f = g.tick.gate flip
            { r with polls := r.polls + g.owed f, reads := r.reads + 1 } :=
          GatePoint.countRead f
        rw [hgate, ProgramRun.counted, hres]
        exact hgood v _ _ hv hr (by rw [hpolls])

/-- A value the gate moves on with. -/
theorem readValue_next {polling : Bool} {owed : Nat} (g' : BitVec 32 → GatePoint)
    (hn : NextRequest g .read f.number 0)
    (hpolling : decide (g.state = .poll) = polling) (howed : g.owed f = owed)
    (hadv : ∀ v r ops, GateRun.advance f v { gate := g.tick.gate flip r, ops } =
      (some v, { gate := (g' v).gate flip r, ops }))
    (hg' : ∀ v, (g' v).sequence = g.sequence + 1 ∧ (g' v).polls = g.polls + owed)
    (hk : ∀ v, readValid f v flip polling = true →
      Coupled (InStep flip (g' v) 0) (k v) (l v) post SameOps) :
    Coupled (InStep flip g owed) (readValue (exchangeWithin budget io) f >>= k)
      (checked io flip polling f >>= l) post SameOps := by
  subst hpolling howed
  refine readValue_coupled hb hn fun v r ops hv hr hpolls => ?_
  rw [hadv]
  refine hk v hv _ _ ⟨r, hr, hpolls.trans (hg' v).2.symm, rfl, ?_⟩
  rw [GatePoint.conversation, (hg' v).1]

/-- The point of a read of the opening. -/
def openingPoint (i : Nat) : GatePoint := ⟨.before, i, i, 0, 0, 0⟩

/-- One of the first five reads. -/
theorem readValue_opening (hf : f.number = i) (hi : i < 5)
    (hk : ∀ v, readValid f v flip false = true →
      Coupled (InStep flip (openingPoint (i + 1)) 0) (k v) (l v) post SameOps) :
    Coupled (InStep flip (openingPoint i) 0) (readValue (exchangeWithin budget io) f >>= k)
      (checked io flip false f >>= l) post SameOps := by
  have hm := rebindMessages_eq
  have hne : i + 1 ≠ 6 := by omega
  refine readValue_next hb (fun _ => openingPoint (i + 1)) ?_ rfl rfl ?_ ?_ hk
  · subst hf
    exact ⟨fun _ _ => rfl, show f.number < rebindMessages by omega,
      show f.number < 16 by omega, nofun, nofun, nofun, fun _ => rfl⟩
  · intro v r ops
    exact if_neg hne
  · exact fun _ => ⟨rfl, rfl⟩

/-- The point of a read of a poll, `m` polls behind it. -/
def pollPoint (m i : Nat) (update baseline : BitVec 32) : GatePoint :=
  ⟨.poll, i, 10 + 7 * m + i, if i = 0 then m else m + 1, update, baseline⟩

omit hb in
theorem pollPoint_request (hf : f.number = i) (hi : i < 6) (hm : m < programPolls) :
    NextRequest (pollPoint m i u b) .read f.number 0 := by
  have hmsg := rebindMessages_eq
  have hpolls : programPolls = 64 := rfl
  subst hf
  exact ⟨fun _ _ => rfl, show 10 + 7 * m + f.number < rebindMessages by omega,
    show f.number < 16 by omega, nofun, nofun, nofun, fun _ => rfl⟩

/-- One of the first five values of a poll. -/
theorem readValue_poll (hf : f.number = i) (hi : i < 5) (hm : m < programPolls)
    (hk : ∀ v, readValid f v flip true = true →
      Coupled (InStep flip (pollPoint m (i + 1) (if f = .update then v else u) b) 0) (k v) (l v)
        post SameOps) :
    Coupled (InStep flip (pollPoint m i u b) (if i = 0 then 1 else 0))
      (readValue (exchangeWithin budget io) f >>= k) (checked io flip true f >>= l) post
      SameOps := by
  have hne : i + 1 ≠ 6 := by omega
  have hlow : f = .low ↔ i = 0 := by
    subst hf
    cases f <;> decide
  refine readValue_next hb (fun v => pollPoint m (i + 1) (if f = .update then v else u) b)
    (pollPoint_request hf (by omega) hm) rfl ?_ ?_ ?_ hk
  · simp only [GatePoint.owed, pollPoint, true_and, hlow]
  · intro v r ops
    exact if_neg hne
  · intro v
    refine ⟨rfl, ?_⟩
    by_cases h0 : i = 0 <;> simp [pollPoint, h0]

/-- A write asked for through the gate and the same write in the sequence. -/
theorem write_coupled {reg : DisplayRegister} {g' : GatePoint} {l : Unit → Attempt ProgramRun β}
    (hn : NextRequest g .write reg.number v)
    (hg' : g' = { g.tick with state := if g.state = .high then .low else .posted })
    (hk : Coupled (InStep flip g' 0) (k 0) (l ()) post SameOps) :
    Coupled (InStep flip g 0) (exchangeWithin budget io .write reg.number v >>= k)
      (store io reg v >>= l) post SameOps := by
  intro c t hs
  obtain ⟨r, hr, hpolls, hres, rfl⟩ := hs
  cases hadm : io.admitted t.ops with
  | false =>
    obtain ⟨c, hc, he⟩ := hn.exchange_refused flip hb hr hadm
    have hstore : (store io reg v).exec t = (none, t) := by simp [store, hadm]
    exact .bind_none he hstore hc
  | true =>
    have he := hn.exchange flip hb hr hadm
    have hpay : (v.setWidth 64).setWidth 32 = v := by simp
    let t' : ProgramRun :=
      { result := { t.result with writeAttempts := t.result.writeAttempts + 1 }
        ops := t.ops ++ [.write reg v] }
    simp only [GateRun.perform, DisplayRegister.all_number, hpay, GateRun.write] at he
    cases hw : io.write t.ops reg v with
    | false =>
      have hstore : (store io reg v).exec t = (none, t') := by simp [store, hadm, hw, t']
      simp only [hw] at he
      exact .bind_none he hstore rfl
    | true =>
      have hstore : (store io reg v).exec t = (some (), t') := by simp [store, hadm, hw, t']
      simp only [hw] at he
      have he' : (exchangeWithin budget io .write reg.number v).exec
          (g.conversation flip r t.ops) = (some 0, _) := he
      rw [exec_bind_some he', exec_bind_some hstore]
      refine hk _ _ ⟨{ r with writeAttempts := r.writeAttempts + 1 }, hr, ?_, ?_, ?_⟩
      · rw [hpolls, hg']
        rfl
      · simp [hres, t']
      · rw [hg']
        rfl

/-- A wait asked for through the gate and the same wait in the sequence. The reference does not
ask for admission here. -/
theorem wait_coupled (hadm : ∀ ops, io.admitted ops = true) {l : Unit → Attempt ProgramRun β}
    (hn : NextRequest g .wait 0 0)
    (hk : Coupled (InStep flip { g.tick with state := .poll, field := 0 } 0) (k 0) (l ()) post
      SameOps) :
    Coupled (InStep flip g 0) (exchangeWithin budget io .wait 0 0 >>= k) (pause io >>= l) post
      SameOps := by
  intro c t hs
  obtain ⟨r, hr, hpolls, hres, rfl⟩ := hs
  have he := hn.exchange flip hb hr (hadm t.ops)
  rw [GateRun.perform] at he
  cases hw : io.wait t.ops with
  | false =>
    rw [GateRun.wait_refused hw] at he
    have hpause : (pause io).exec t = (none, { t with ops := t.ops ++ [.wait] }) := by
      simp [pause, hw]
    exact .bind_none he hpause rfl
  | true =>
    rw [GateRun.wait_taken hw] at he
    have hpause : (pause io).exec t = (some (), { t with ops := t.ops ++ [.wait] }) := by
      simp [pause, hw]
    have he' : (exchangeWithin budget io .wait 0 0).exec (g.conversation flip r t.ops) =
        (some 0, _) := he
    rw [exec_bind_some he', exec_bind_some hpause]
    exact hk _ _ ⟨r, hr, hpolls, hres, rfl⟩

/-- What the two programs share when they have completed. -/
structure Finished (a b : BitVec 32) (c : Conversation) (t : ProgramRun) : Prop where
  value : a = b
  result : c.gate.result = t.result
  delta : t.result.frameDelta = b
  complete : t.result.complete = true
  ops : c.ops = t.ops

/-- The wait after poll `m`. -/
def waitPoint (m : Nat) (update baseline : BitVec 32) : GatePoint :=
  ⟨.wait, 6, 10 + 7 * m + 6, m + 1, update, baseline⟩

/-- The sixth value of a poll, when it is good: the gate settles the poll with it, the sequence
with the checks that follow. -/
theorem readValue_settle (hm : m < programPolls)
    (hover : ∀ v t, (v - b) &&& crtcFrameCountMask > 512 → (l v).exec t = (none, t))
    (hdone : ∀ v r ops, readValid .frame v flip true = true →
      ¬ (v - b) &&& crtcFrameCountMask > 512 →
      ((v - b) &&& crtcFrameCountMask ≥ 2 ∧ u &&& updatePending = 0) →
      ∀ c : Conversation, c.ops = ops →
        c.gate.result = { r with complete := true, frameDelta := (v - b) &&& crtcFrameCountMask } →
        Matched post SameOps ((k v).exec c) ((l v).exec { result := r, ops }))
    (hlast : ∀ v t, ¬ ((v - b) &&& crtcFrameCountMask ≥ 2 ∧ u &&& updatePending = 0) →
      programPolls ≤ m + 1 → (l v).exec t = (none, t))
    (hmore : ∀ v, readValid .frame v flip true = true →
      ¬ (v - b) &&& crtcFrameCountMask > 512 →
      ¬ ((v - b) &&& crtcFrameCountMask ≥ 2 ∧ u &&& updatePending = 0) → m + 1 < programPolls →
      Coupled (InStep flip (waitPoint m u b) 0) (k v) (l v) post SameOps) :
    Coupled (InStep flip (pollPoint m 5 u b) 0) (readValue (exchangeWithin budget io) .frame >>= k)
      (checked io flip true .frame >>= l) post SameOps := by
  have hreq : NextRequest (pollPoint m 5 u b) .read RebindRead.frame.number 0 :=
    pollPoint_request rfl (by decide) hm
  refine readValue_coupled hb hreq ?_
  intro v r ops hv hr hpolls
  have hpolls' : r.polls = m + 1 := hpolls
  let w : GateRun := { gate := ({ (pollPoint m 5 u b).tick with field := 6 } : GatePoint).gate flip r, ops }
  have hadv : GateRun.advance .frame v { gate := (pollPoint m 5 u b).tick.gate flip r, ops } =
      GateRun.settle v w := rfl
  rw [hadv]
  unfold GateRun.settle
  by_cases h512 : (v - w.gate.baseline) &&& crtcFrameCountMask > 512
  · rw [if_pos h512, hover v _ h512]
    exact .gaveUp rfl
  · rw [if_neg h512]
    by_cases hok : (v - w.gate.baseline) &&& crtcFrameCountMask ≥ 2 ∧
        w.gate.update &&& updatePending = 0
    · rw [if_pos hok]
      exact hdone v r ops hv h512 hok _ rfl rfl
    · rw [if_neg hok]
      by_cases hlim : programPolls ≤ w.gate.result.polls
      · rw [if_pos hlim, hlast v _ hok (hpolls' ▸ hlim)]
        exact .gaveUp rfl
      · rw [if_neg hlim]
        have hlt : m + 1 < programPolls := hpolls' ▸ Nat.lt_of_not_le hlim
        exact hmore v hv h512 hok hlt _ _ ⟨r, hr, hpolls', rfl, rfl⟩

/-- The polls, `m` of them made. -/
theorem userPolls_coupled (hadm : ∀ ops, io.admitted ops = true)
    (baseline : BitVec 32) (left : Nat) : ∀ (m : Nat) (u : BitVec 32), m + left = programPolls →
    Coupled (InStep flip (pollPoint m 0 u baseline) 0)
      (userPolls (exchangeWithin budget io) flip baseline left)
      (rebindPolls io flip baseline left) Finished SameOps := by
  induction left with
  | zero =>
    intro m u _
    refine Coupled.failure fun c t hs => ?_
    obtain ⟨r, -, -, -, rfl⟩ := hs
    rfl
  | succ left ih =>
    intro m u hm
    have hlt : m < programPolls := by omega
    refine countPoll_coupled ?_
    refine readValue_poll hb rfl (by decide) hlt fun low h1 => ?_
    refine readValue_poll hb rfl (by decide) hlt fun high h2 => ?_
    refine readValue_poll hb rfl (by decide) hlt fun crtc h3 => ?_
    refine readValue_poll hb rfl (by decide) hlt fun update h4 => ?_
    refine readValue_poll hb rfl (by decide) hlt fun flipped h5 => ?_
    have hsnap : ∀ frame, readValid .frame frame flip true = true → UserSnapshot low high crtc
        update flipped frame (updateTaken ||| updatePending) flip :=
      fun _ => userSnapshot_of_valid h1 h2 h3 h4 h5
    -- the fourth value is the one the gate has kept
    change Coupled (InStep flip (pollPoint m 5 update baseline) 0) _ _ _ _
    refine readValue_settle hb hlt ?_ ?_ ?_ ?_
    · intro frame t hover
      exact exec_bind_none (exec_guard_neg (BitVec.not_le.mpr hover) t)
    · intro frame r ops h6 hle hok c hops hres
      have hle' := BitVec.not_lt.mp hle
      rw [exec_bind_some (exec_guard_pos (hsnap frame h6) c),
        exec_bind_some (exec_guard_pos hle' c), exec_bind_some (exec_guard_pos hle' _),
        if_pos hok, if_pos hok]
      exact .returned ⟨rfl, hres, rfl, rfl, hops⟩
    · intro frame t hok hlast
      by_cases hle : (frame - baseline) &&& crtcFrameCountMask ≤ 512
      · rw [exec_bind_some (exec_guard_pos hle t), if_neg hok, if_pos (by omega)]
        rfl
      · exact exec_bind_none (exec_guard_neg hle t)
    · intro frame h6 hle hok hmore
      have hleft : left ≠ 0 := by omega
      refine Coupled.guard_left (fun _ _ _ => hsnap frame h6) ?_
      refine Coupled.guard Iff.rfl (fun c t hs => ?_) fun _ => ?_
      · obtain ⟨r, -, -, -, rfl⟩ := hs
        rfl
      · rw [if_neg hok, if_neg hok, if_neg hleft, if_neg hleft]
        refine wait_coupled hb hadm ?_ ?_
        · have hmsg := rebindMessages_eq
          have hpolls : programPolls = 64 := rfl
          exact ⟨fun _ _ => rfl, show 10 + 7 * m + 6 < rebindMessages by omega, by decide,
            nofun, nofun, nofun, fun _ => rfl⟩
        · exact ih (m + 1) update (by omega)

/-- The sequencer against the gate is the sequence. -/
theorem polarisUserProgram_coupled (hadm : ∀ ops, io.admitted ops = true) :
    Coupled (InStep flip (openingPoint 0) 0) (polarisUserProgram (exchangeWithin budget io) flip)
      (rebind io flip) Finished SameOps := by
  have hhigh : NextRequest ⟨.high, 0, 6, 0, 0, 0⟩ .write DisplayRegister.primaryHigh.number 0xF4 :=
    ⟨fun _ _ => rfl, by decide, by decide, nofun, fun _ => rfl, nofun, nofun⟩
  have hlow : NextRequest ⟨.low, 0, 7, 0, 0, 0⟩ .write DisplayRegister.primaryLow.number 0 :=
    ⟨fun _ _ => rfl, by decide, by decide, nofun, nofun, fun _ => rfl, fun _ => rfl⟩
  refine readValue_opening hb rfl (by decide) fun low h1 => ?_
  refine readValue_opening hb rfl (by decide) fun high h2 => ?_
  refine readValue_opening hb rfl (by decide) fun crtc h3 => ?_
  refine readValue_opening hb rfl (by decide) fun update h4 => ?_
  refine readValue_opening hb rfl (by decide) fun flipped h5 => ?_
  refine readValue_next hb (fun _ => ⟨.high, 0, 6, 0, 0, 0⟩)
    ⟨fun _ _ => rfl, by decide, by decide, nofun, nofun, nofun, fun _ => rfl⟩ rfl rfl
    (fun _ _ _ => rfl) (fun _ => ⟨rfl, rfl⟩) fun frame h6 => ?_
  refine Coupled.guard_left (fun _ _ _ => ?_) ?_
  · exact userSnapshot_of_valid h1 h2 h3 h4 h5 h6
  refine write_coupled hb hhigh rfl (write_coupled hb hlow rfl ?_)
  refine readValue_next hb (fun _ => ⟨.baseline, 0, 9, 0, 0, 0⟩)
    ⟨fun _ _ => rfl, by decide, by decide, nofun, nofun, nofun, fun _ => rfl⟩ rfl rfl
    (fun _ _ _ => rfl) (fun _ => ⟨rfl, rfl⟩) fun posted hposted => ?_
  refine Coupled.guard_left (fun _ _ _ => fits_of_valid hposted) ?_
  refine readValue_next hb (fun v => pollPoint 0 0 0 v)
    ⟨fun _ _ => rfl, by decide, by decide, nofun, nofun, nofun, fun _ => rfl⟩ rfl rfl
    (fun _ _ _ => rfl) (fun _ => ⟨rfl, rfl⟩) fun baseline hbase => ?_
  refine Coupled.guard_left (fun _ _ _ => fits_of_valid hbase) ?_
  exact userPolls_coupled hb hadm baseline programPolls 0 0 (by decide)

end Conversation

end JcosKernel.Polaris
