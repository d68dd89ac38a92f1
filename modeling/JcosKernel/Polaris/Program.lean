import JcosKernel.Lib.Attempt
import JcosKernel.Polaris.Plane

/-!
# JcosKernel.Polaris.Program

**The reference sequencer** (`kernel/polaris_program.c`): six reads, the two writes of the
surface address, one read back and a frame baseline, then up to 64 polls of six reads each.

The device is an oracle (`ProgramIo`): whether a read, a write or a wait succeeds, and with which
value, is a function of the operations performed before it. `ProgramRun` keeps those operations
next to the counters of `PolarisProgramResult`.
-/

namespace JcosKernel.Polaris

open Lib

/-- `PolarisRebindRead`. -/
inductive RebindRead where
  | low
  | high
  | crtc
  | update
  | flip
  | frame
deriving DecidableEq, Repr

/-- The enumerators in the order of the source. -/
def RebindRead.all : List RebindRead := [.low, .high, .crtc, .update, .flip, .frame]

/-- The number of an enumerator. -/
def RebindRead.number (f : RebindRead) : Nat := RebindRead.all.idxOf f

/-- What is asked of the device. -/
inductive ProgramOp where
  | read (f : RebindRead)
  | write (r : DisplayRegister) (v : BitVec 32)
  | wait
deriving DecidableEq, Repr

/-- `PolarisProgramIo`: the four callbacks, as functions of the operations before. A read that
returns false is `none`. -/
structure ProgramIo where
  admitted : List ProgramOp → Bool
  read : List ProgramOp → RebindRead → Option (BitVec 32)
  write : List ProgramOp → DisplayRegister → BitVec 32 → Bool
  wait : List ProgramOp → Bool

/-- `PolarisProgramResult`. -/
structure ProgramResult where
  writeAttempts : Nat := 0
  reads : Nat := 0
  polls : Nat := 0
  frameDelta : BitVec 32 := 0
  complete : Bool := false
deriving DecidableEq, Repr

/-- The result so far and the operations performed. -/
structure ProgramRun where
  result : ProgramResult := {}
  ops : List ProgramOp := []
deriving DecidableEq, Repr

/-- `POLARIS_PROGRAM_POLLS`, which is also `POLARIS_REBIND_POLLS`. -/
def programPolls : Nat := 64

/-- `load`. -/
def load (io : ProgramIo) (f : RebindRead) : Attempt ProgramRun (BitVec 32) := .step fun s =>
  if io.admitted s.ops then
    match io.read s.ops f with
    | none => (none, { s with ops := s.ops ++ [.read f] })
    | some v =>
      (if v ≠ absentValue then some v else none,
        { result := { s.result with reads := s.result.reads + 1 }, ops := s.ops ++ [.read f] })
  else (none, s)

/-- A turn of the loop over the two writes: admitted, counted, then stored. -/
def store (io : ProgramIo) (r : DisplayRegister) (v : BitVec 32) : Attempt ProgramRun Unit :=
  .step fun s =>
    if io.admitted s.ops then
      (if io.write s.ops r v then some () else none,
        { result := { s.result with writeAttempts := s.result.writeAttempts + 1 }
          ops := s.ops ++ [.write r v] })
    else (none, s)

/-- The wait between two polls. -/
def pause (io : ProgramIo) : Attempt ProgramRun Unit := .step fun s =>
  (if io.wait s.ops then some () else none, { s with ops := s.ops ++ [.wait] })

/-- `++r->polls`. -/
def countPoll : Attempt ProgramRun Unit := .step fun s =>
  (some (), { s with result := { s.result with polls := s.result.polls + 1 } })

/-- The poll that ends the program. -/
def finish (delta : BitVec 32) : Attempt ProgramRun (BitVec 32) := .step fun s =>
  (some delta, { s with result := { s.result with frameDelta := delta, complete := true } })

/-- The comparison of six values with the plan: `low`, `high`, `crtc`, `flip` are fixed, the
update register may only have bits in `allowed`, the frame counter only in its mask. -/
def SnapshotMatches (low high crtc update flip frame : BitVec 32)
    (address : BitVec 64) (planCrtc allowed planFlip : BitVec 32) : Prop :=
  low = address.setWidth 32 ∧ high = (address >>> 32).setWidth 32 ∧ crtc = planCrtc ∧
    update &&& ~~~allowed = 0 ∧ flip = planFlip ∧ frame &&& ~~~crtcFrameCountMask = 0

instance {low high crtc update flip frame planCrtc allowed planFlip : BitVec 32}
    {address : BitVec 64} : Decidable
      (SnapshotMatches low high crtc update flip frame address planCrtc allowed planFlip) :=
  inferInstanceAs (Decidable (_ ∧ _))

/-- The loop over the polls, `left` of them still to come. -/
def executePolls (io : ProgramIo) (p : ProgramPlan) (baseline : BitVec 32) :
    Nat → Attempt ProgramRun (BitVec 32)
  | 0 => failure
  | left + 1 => do
    countPoll
    let low ← load io .low
    let high ← load io .high
    let crtc ← load io .crtc
    let update ← load io .update
    let flip ← load io .flip
    let frame ← load io .frame
    guard (SnapshotMatches low high crtc update flip frame p.gpuAddress p.crtc
      (updateTaken ||| updatePending) (p.witness.values 1 .flipControl))
    let delta := (frame - baseline) &&& crtcFrameCountMask
    guard (delta ≤ 512)
    if delta ≥ 2 ∧ update &&& updatePending = 0 then finish delta
    else if left = 0 then failure
    else do
      pause io
      executePolls io p baseline left

/-- The part of `polaris_program_execute` after the plan was accepted. -/
def executeAccepted (io : ProgramIo) (p : ProgramPlan) : Attempt ProgramRun (BitVec 32) := do
  let low ← load io .low
  let high ← load io .high
  let crtc ← load io .crtc
  let update ← load io .update
  let flip ← load io .flip
  let frame ← load io .frame
  guard (SnapshotMatches low high crtc update flip frame p.gpuAddress p.crtc updateTaken
    (p.witness.values 1 .flipControl))
  store io .primaryHigh ((p.values 0).setWidth 32)
  store io .primaryLow ((p.values 1).setWidth 32)
  let posted ← load io .low
  guard (posted = p.gpuAddress.setWidth 32)
  let baseline ← load io .frame
  guard (baseline &&& ~~~crtcFrameCountMask = 0)
  executePolls io p baseline programPolls

/-- `polaris_program_execute`: what it returns, the result and the operations it leaves. The plan
is consumed in every case. -/
def polarisProgramExecute (io : ProgramIo) (p : ProgramPlan) : Bool × ProgramRun :=
  if p.consumed then (false, {})
  else if p.accepted then
    let (r, s) := (executeAccepted io p).exec {}
    (r.isSome, s)
  else (false, {})

/-- A value that was loaded is one the device gave. -/
theorem load_present {io : ProgramIo} {f : RebindRead} {s s' : ProgramRun} {v : BitVec 32}
    (h : (load io f).exec s = (some v, s')) : v ≠ absentValue := by
  simp only [load, Attempt.exec_step] at h
  split at h
  · split at h
    · cases h
    · intro hv
      split at h
      · cases h
        contradiction
      · cases h
  · cases h

end JcosKernel.Polaris
