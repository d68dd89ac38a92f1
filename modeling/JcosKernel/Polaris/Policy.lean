import Mathlib.Algebra.Ring.Nat
import Mathlib.Data.Fintype.Basic

/-!
# JcosKernel.Polaris.Policy

**The Ring 3 graphics policy** (`user/graphics_policy.c`) and the words it exchanges with the
kernel (`include/graphics_supervisor_protocol.h`).

The policy reads a session, a sequence number and one snapshot word and answers with an action.
`graphicsPolicyDecide` is the source's function on words; `GraphicsPolicy.take` is the same
decision on the event and the facts a well-formed word stands for
(`graphicsPolicyDecide_snapshot`).
-/

namespace JcosKernel.Polaris

/-- The events of a snapshot. -/
inductive PolicyEvent where
  | begin
  | primary
  | observe
  | rescued
  | requestRescue
  | close
deriving DecidableEq, Repr

/-- `GRAPHICS_POLICY_BEGIN` to `GRAPHICS_POLICY_CLOSE`. -/
def PolicyEvent.code : PolicyEvent → BitVec 64
  | .begin => 1
  | .primary => 2
  | .observe => 3
  | .rescued => 4
  | .requestRescue => 5
  | .close => 6

/-- The facts of a snapshot. -/
structure PolicyFacts where
  primaryLive : Bool := false
  rescueLive : Bool := false
  primaryPong : Bool := false
  rescuePong : Bool := false
  probed : Bool := false
deriving DecidableEq, Repr

def policyVersion : BitVec 64 := 1 <<< 56
def policyPrimaryLive : BitVec 64 := 1 <<< 8
def policyRescueLive : BitVec 64 := 1 <<< 9
def policyPrimaryPong : BitVec 64 := 1 <<< 10
def policyRescuePong : BitVec 64 := 1 <<< 11
def policyProbed : BitVec 64 := 1 <<< 12
def policyFacts : BitVec 64 := 0x1F <<< 8

/-- The bits of the facts. -/
def PolicyFacts.word (f : PolicyFacts) : BitVec 64 :=
  (if f.primaryLive then policyPrimaryLive else 0) ||| (if f.rescueLive then policyRescueLive else 0)
    ||| (if f.primaryPong then policyPrimaryPong else 0)
    ||| (if f.rescuePong then policyRescuePong else 0) ||| (if f.probed then policyProbed else 0)

/-- The snapshot word of an event with its facts. -/
def policySnapshot (e : PolicyEvent) (f : PolicyFacts) : BitVec 64 :=
  policyVersion ||| e.code ||| f.word

/-- `GRAPHICS_POLICY_ACCEPT` to `GRAPHICS_POLICY_REJECT`. -/
inductive PolicyAction where
  | accept
  | keep
  | recover
  | headless
  | reject
deriving DecidableEq, Repr

/-- The stages of the policy. -/
inductive PolicyStage where
  | idle
  | armed
  | primary
  | recovering
  | rescue
  | closed
deriving DecidableEq, Repr

/-- `GraphicsPolicy`. -/
structure GraphicsPolicy where
  session : Nat := 0
  sequence : Nat := 0
  stage : PolicyStage := .idle
deriving DecidableEq, Repr

/-- `~0ULL`. -/
def maxU64 : Nat := 2 ^ 64 - 1

/-- The answer to an observation in the stages `PRIMARY` and `RESCUE`, with the stage it leads
to. -/
def observeAction (stage : PolicyStage) (facts : BitVec 64) : PolicyAction × PolicyStage :=
  let a := policyPrimaryLive
  let b := policyRescueLive
  let ap := policyPrimaryPong
  let bp := policyRescuePong
  if facts &&& (ap ||| bp) ≠ 0 ∧ facts &&& policyProbed = 0 then (.reject, stage)
  else if (facts &&& ap ≠ 0 ∧ facts &&& a = 0) ∨ (facts &&& bp ≠ 0 ∧ facts &&& b = 0) ∨
      (stage = .rescue ∧ facts &&& (a ||| ap) ≠ 0) then (.reject, stage)
  else if facts &&& b = 0 ∨ (facts &&& policyProbed ≠ 0 ∧ facts &&& bp = 0) then
    -- a failed standby wins over a failed primary
    (.headless, .closed)
  else if stage = .primary ∧
      (facts &&& a = 0 ∨ (facts &&& policyProbed ≠ 0 ∧ facts &&& ap = 0)) then
    (.recover, .recovering)
  else (.keep, stage)

/-- The action and the next stage for an event other than `BEGIN`. -/
def eventAction (stage : PolicyStage) (event facts : BitVec 64) : PolicyAction × PolicyStage :=
  if event = PolicyEvent.close.code then (.headless, .closed)
  else if event = PolicyEvent.primary.code ∧ stage = .armed then (.keep, .primary)
  else if event = PolicyEvent.rescued.code ∧ stage = .recovering then (.keep, .rescue)
  else if event = PolicyEvent.requestRescue.code ∧ stage = .primary then (.recover, .recovering)
  else if event = PolicyEvent.observe.code ∧ (stage = .primary ∨ stage = .rescue) then
    observeAction stage facts
  else (.reject, stage)

/-- `graphics_policy_decide`: the action, and the ledger it leaves. -/
def graphicsPolicyDecide (p : GraphicsPolicy) (session sequence : Nat) (snapshot : BitVec 64) :
    PolicyAction × GraphicsPolicy :=
  let event := snapshot &&& 0xFF
  let facts := snapshot &&& policyFacts
  if session = 0 ∨ sequence = 0 ∨ snapshot ≠ policyVersion ||| event ||| facts ∨
      event < PolicyEvent.begin.code ∨ event > PolicyEvent.close.code ∨
      (event ≠ PolicyEvent.observe.code ∧ facts ≠ 0) then (.reject, p)
  else if event = PolicyEvent.begin.code then
    if (p.stage ≠ .idle ∧ p.stage ≠ .closed) ∨ session ≤ p.session ∨ sequence ≠ 1 then (.reject, p)
    else (.accept, { session, sequence, stage := .armed })
  else if p.stage = .idle ∨ session ≠ p.session ∨ p.sequence = maxU64 ∨
      sequence ≠ p.sequence + 1 then (.reject, p)
  else
    match eventAction p.stage event facts with
    | (.reject, _) => (.reject, p)
    | (action, next) => (action, { p with stage := next, sequence })

/-! ## The decision on events and facts -/

/-- The answer to an observation. -/
def observed (stage : PolicyStage) (f : PolicyFacts) : PolicyAction × PolicyStage :=
  if (f.primaryPong ∨ f.rescuePong) ∧ ¬ f.probed then (.reject, stage)
  else if (f.primaryPong ∧ ¬ f.primaryLive) ∨ (f.rescuePong ∧ ¬ f.rescueLive) ∨
      (stage = .rescue ∧ (f.primaryLive ∨ f.primaryPong)) then (.reject, stage)
  else if ¬ f.rescueLive ∨ (f.probed ∧ ¬ f.rescuePong) then (.headless, .closed)
  else if stage = .primary ∧ (¬ f.primaryLive ∨ (f.probed ∧ ¬ f.primaryPong)) then
    (.recover, .recovering)
  else (.keep, stage)

/-- The action and the next stage for an event other than `BEGIN`. -/
def PolicyStage.next (stage : PolicyStage) (e : PolicyEvent) (f : PolicyFacts) :
    PolicyAction × PolicyStage :=
  match e, stage with
  | .close, _ => (.headless, .closed)
  | .primary, .armed => (.keep, .primary)
  | .rescued, .recovering => (.keep, .rescue)
  | .requestRescue, .primary => (.recover, .recovering)
  | .observe, .primary => observed .primary f
  | .observe, .rescue => observed .rescue f
  | _, _ => (.reject, stage)

/-- The policy takes an event of its session. -/
def GraphicsPolicy.take (p : GraphicsPolicy) (session sequence : Nat) (e : PolicyEvent)
    (f : PolicyFacts) : PolicyAction × GraphicsPolicy :=
  if session = 0 ∨ sequence = 0 ∨ (e ≠ .observe ∧ f ≠ {}) then (.reject, p)
  else if e = .begin then
    if (p.stage ≠ .idle ∧ p.stage ≠ .closed) ∨ session ≤ p.session ∨ sequence ≠ 1 then (.reject, p)
    else (.accept, { session, sequence, stage := .armed })
  else if p.stage = .idle ∨ session ≠ p.session ∨ p.sequence = maxU64 ∨
      sequence ≠ p.sequence + 1 then (.reject, p)
  else
    match p.stage.next e f with
    | (.reject, _) => (.reject, p)
    | (action, next) => (action, { p with stage := next, sequence })

/-- What the policy reads back out of a snapshot word. -/
theorem policySnapshot_read (e : PolicyEvent) (f : PolicyFacts) :
    policySnapshot e f &&& 0xFF = e.code ∧ policySnapshot e f &&& policyFacts = f.word ∧
      ¬ e.code < PolicyEvent.begin.code ∧ ¬ e.code > PolicyEvent.close.code := by
  obtain ⟨a, b, ap, bp, pr⟩ := f
  cases e <;> cases a <;> cases b <;> cases ap <;> cases bp <;> cases pr <;> decide

theorem PolicyEvent.code_eq_iff {e e' : PolicyEvent} : e.code = e'.code ↔ e = e' := by
  cases e <;> cases e' <;> decide

theorem PolicyFacts.word_eq_zero_iff {f : PolicyFacts} : f.word = 0 ↔ f = {} := by
  obtain ⟨a, b, ap, bp, pr⟩ := f
  cases a <;> cases b <;> cases ap <;> cases bp <;> cases pr <;> decide

theorem observeAction_word (stage : PolicyStage) (f : PolicyFacts) :
    observeAction stage f.word = observed stage f := by
  obtain ⟨a, b, ap, bp, pr⟩ := f
  cases stage <;> cases a <;> cases b <;> cases ap <;> cases bp <;> cases pr <;> decide

theorem eventAction_word (e : PolicyEvent) (stage : PolicyStage) (f : PolicyFacts) :
    eventAction stage e.code f.word = stage.next e f := by
  unfold eventAction
  simp only [observeAction_word]
  cases e <;> cases stage <;> rfl

/-- On a well-formed word the policy decides by the event and the facts. -/
theorem graphicsPolicyDecide_snapshot (p : GraphicsPolicy) (session sequence : Nat)
    (e : PolicyEvent) (f : PolicyFacts) :
    graphicsPolicyDecide p session sequence (policySnapshot e f) = p.take session sequence e f := by
  obtain ⟨he, hf, hlo, hhi⟩ := policySnapshot_read e f
  have hwell : ¬ policySnapshot e f ≠ policyVersion ||| e.code ||| f.word := not_not.mpr rfl
  unfold graphicsPolicyDecide GraphicsPolicy.take
  simp only [he, hf, hlo, hhi, hwell, false_or, ne_eq, PolicyEvent.code_eq_iff,
    PolicyFacts.word_eq_zero_iff, eventAction_word]

end JcosKernel.Polaris
