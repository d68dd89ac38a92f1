import JcosKernel.Polaris.Gate

/-!
# JcosKernel.Polaris.Sequencer

**The Ring 3 sequencer** (`user/drivers/amd_polaris_program.c`) and its conversation with the gate
(`exchange` of `user/polaris_native.c`). The sequencer knows neither the gate nor the device: all
it has is `exchange`, one request for one reply.
-/

namespace JcosKernel.Polaris

open Lib

section UserProgram

variable {σ : Type} (exchange : RebindOp → Nat → BitVec 32 → Attempt σ (BitVec 32))

/-- `read_value`. -/
def readValue (f : RebindRead) : Attempt σ (BitVec 32) := do
  let v ← exchange .read f.number 0
  guard (v ≠ absentValue)
  pure v

/-- The comparison the sequencer makes of six values. -/
def UserSnapshot (low high crtc update flip frame allowed expectedFlip : BitVec 32) : Prop :=
  low = 0 ∧ high = 0xF4 ∧ crtc = retainedCrtc ∧ update &&& ~~~allowed = 0 ∧
    flip = expectedFlip ∧ frame &&& ~~~crtcFrameCountMask = 0

instance {low high crtc update flip frame allowed expectedFlip : BitVec 32} :
    Decidable (UserSnapshot low high crtc update flip frame allowed expectedFlip) :=
  inferInstanceAs (Decidable (_ ∧ _))

/-- The loop over the polls, `left` of them still to come. -/
def userPolls (expectedFlip baseline : BitVec 32) : Nat → Attempt σ (BitVec 32)
  | 0 => failure
  | left + 1 => do
    let low ← readValue exchange .low
    let high ← readValue exchange .high
    let crtc ← readValue exchange .crtc
    let update ← readValue exchange .update
    let flip ← readValue exchange .flip
    let frame ← readValue exchange .frame
    guard (UserSnapshot low high crtc update flip frame (updateTaken ||| updatePending)
      expectedFlip)
    let progress := (frame - baseline) &&& crtcFrameCountMask
    guard (progress ≤ 512)
    if progress ≥ 2 ∧ update &&& updatePending = 0 then pure progress
    else if left = 0 then failure
    else do
      let _ ← exchange .wait 0 0
      userPolls expectedFlip baseline left

/-- `polaris_user_program`: the frame delta, or `none` when it returns 0. -/
def polarisUserProgram (expectedFlip : BitVec 32) : Attempt σ (BitVec 32) := do
  let low ← readValue exchange .low
  let high ← readValue exchange .high
  let crtc ← readValue exchange .crtc
  let update ← readValue exchange .update
  let flip ← readValue exchange .flip
  let frame ← readValue exchange .frame
  guard (UserSnapshot low high crtc update flip frame updateTaken expectedFlip)
  let _ ← exchange .write DisplayRegister.primaryHigh.number 0xF4
  let _ ← exchange .write DisplayRegister.primaryLow.number 0
  let posted ← readValue exchange .low
  guard (posted = 0)
  let baseline ← readValue exchange .frame
  guard (baseline &&& ~~~crtcFrameCountMask = 0)
  userPolls exchange expectedFlip baseline programPolls

end UserProgram

/-! ## The conversation -/

/-- The client's sequence number next to the gate. -/
structure Conversation extends GateRun where
  client : Nat := 0
deriving DecidableEq, Repr

/-- `exchange`: the next sequence number, one request to the gate, one reply. When the gate
refuses, the broker leaves its loop and no reply comes. -/
def exchangeWithin (budget : Nat) (io : ProgramIo) (operation : RebindOp) (field : Nat)
    (payload : BitVec 32) : Attempt Conversation (BitVec 32) := .step fun c =>
  if budget ≤ c.client then (none, c)
  else
    let tag := rebindTag (c.client + 1) operation.code field
    match gateStepWithin budget io tag (payload.setWidth 64) c.toGateRun with
    | (none, w) => (none, { toGateRun := w, client := c.client + 1 })
    | (some v, w) =>
      (if operation ≠ .read ∧ v ≠ 0 then none else some v,
        { toGateRun := w, client := c.client + 1 })

/-- The sequencer, called with the flip value of the plan, against the gate the plan
initialises; both sides allow `budget` messages. -/
def converseWithin (budget : Nat) (io : ProgramIo) (p : ProgramPlan) :
    Option (BitVec 32) × Conversation :=
  (polarisUserProgram (exchangeWithin budget io) (p.witness.values 0 .flipControl)).exec
    { gate := (polarisProgramGateInit p).2 }

/-- The conversation with the budget of the source. -/
def converse (io : ProgramIo) (p : ProgramPlan) : Option (BitVec 32) × Conversation :=
  converseWithin rebindMessages io p

end JcosKernel.Polaris
