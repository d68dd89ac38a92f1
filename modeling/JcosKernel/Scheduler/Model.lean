import JcosKernel.Lib.Ring
import JcosKernel.Thread.Wait

/-!
# JcosKernel.Scheduler.Model

`kernel/scheduler.c`, with the three functions of `thread.c` that change the
current thread (`thread_activate`, `thread_scheduler_enter_idle`,
`thread_scheduler_activate_from_idle`).

The run queue is the intrusive circular list of the source: `runHead`, `runTail`
and `runCount` with the `runNext` fields of the threads. Interrupt frames are
addresses; what the entry stores into the `rax` slot of the incoming frame is
returned next to the frame that the interrupt returns through. Halting
(`cpu_halt_forever`) is `none`.

What the scheduler reads of other components — whether the address space of a
process can be activated, whether the idle stack is still mapped — comes in as a
`SpaceEnv`, which may differ from one entry to the next. The statistics counters
are left out.
-/

namespace JcosKernel

open Lib

/-- What `scheduler.c` and `thread.c` read of the address spaces. -/
structure SpaceEnv where
  /-- `address_space_cr3(process_address_space(p))`; zero when there is no usable
  address space. -/
  spaceCr3 : ProcessRef → Nat
  /-- The same for `process_kernel()`; zero also when it, or its space, is not
  marked as the kernel's. -/
  kernelCr3 : Nat
  /-- `kernel_stack_mapping_valid` of the idle stack. -/
  idleStackMapped : Bool

/-- The static variables of `scheduler.c`, with those of `thread.c`. -/
structure SchedState extends ThreadState where
  runHead : Option ThreadRef
  runTail : Option ThreadRef
  runCount : Nat
  schedInitialized : Bool
  preemptionEnabled : Bool
  idleStackPhysical : Nat
  idleStackBase : Nat
  idleStackTop : Nat
  idleContextReady : Bool
  idleActive : Bool

namespace Thread

variable (th : Thread)

def setState (st : ThreadRunState) : Thread := { th with state := st }

/-- Save `frame` as the context to resume. -/
def saveContext (frame : Nat) : Thread :=
  { th with interruptRsp := frame, interruptContextReady := true }

/-- The saved context was consumed or given up. -/
def dropContext : Thread := { th with interruptRsp := 0, interruptContextReady := false }

def setRunNext (next : Option ThreadRef) : Thread := { th with runNext := next }

def setOnRunQueue (on : Bool) : Thread := { th with onRunQueue := on }

/-- DEAD, without a context and without queue links. -/
def kill : Thread := (((th.setState .dead).dropContext).setRunNext none).setOnRunQueue false

end Thread

/-- `THREAD_KERNEL_STACK_SIZE`. -/
def threadKernelStackSize : Nat := 4 * 4096

/-- `sizeof(InterruptFrame)`. -/
def interruptFrameSize : Nat := 160

/-- `sizeof(InterruptFrame) + sizeof(InterruptStackFrame)`. -/
def contextSize : Nat := interruptFrameSize + 16

/-- Difference of two `u64`. -/
def sub64 (a b : Nat) : Nat := (a + 2 ^ 64 - b) % 2 ^ 64

/-- `scheduler_interrupt_frame_valid`. -/
def SchedulerInterruptFrameValid (th : Thread) (frame : Nat) : Prop :=
  frame ≠ 0 ∧ th.kernelStackBase ≠ 0 ∧ th.kernelStackTop ≠ 0 ∧
    th.kernelStackBase < th.kernelStackTop ∧ contextSize ≤ th.kernelStackSize ∧
    th.kernelStackBase ≤ frame ∧ frame ≤ sub64 th.kernelStackTop contextSize

instance (th : Thread) (frame : Nat) : Decidable (SchedulerInterruptFrameValid th frame) :=
  inferInstanceAs (Decidable (_ ∧ _))

namespace SchedState

variable (env : SpaceEnv) (s : SchedState)

/-- Store through a `Thread` pointer. -/
def modifyThread (t : ThreadRef) (f : Thread → Thread) : SchedState :=
  { s with toThreadState := s.toThreadState.modify t f }

/-- Replace `g_current_thread`. -/
def setCurrent (c : Option ThreadRef) : SchedState :=
  { s with currentThread := c }

/-- `scheduler_idle_runtime_frame_valid`. -/
def SchedulerIdleRuntimeFrameValid (frame : Nat) : Prop :=
  frame ≠ 0 ∧ s.idleContextReady ∧ s.idleStackBase ≠ 0 ∧ s.idleStackTop ≠ 0 ∧
    s.idleStackBase < s.idleStackTop ∧ s.idleStackBase ≤ frame ∧
    frame ≤ sub64 s.idleStackTop interruptFrameSize

instance (frame : Nat) : Decidable (s.SchedulerIdleRuntimeFrameValid frame) :=
  inferInstanceAs (Decidable (_ ∧ _))

end SchedState

/-- `scheduler_idle_frame_build`: the address of the fresh idle frame. -/
def schedulerIdleFrameBuild (stackBase stackTop : Nat) : Option Nat :=
  if stackBase = 0 ∨ stackTop ≤ stackBase ∨ stackTop % 16 ≠ 0 then none
  else if stackTop - stackBase < contextSize + 8 then none
  else
    let frame := stackTop - 8 - contextSize
    if frame < stackBase then none else some frame

namespace SchedState

variable (env : SpaceEnv) (s : SchedState) (t : ThreadRef)

/-! ### Activation (`thread.c`) -/

/-- The address space of the thread's process, as `thread_activate` looks it up. -/
def targetCr3 (th : Thread) : Nat :=
  match th.process with
  | none => 0
  | some p => env.spaceCr3 p

/-- The stores of `thread_activate`. -/
def switchCurrent (previous : ThreadRef) : SchedState :=
  ((s.modifyThread previous (·.setState .ready)).modifyThread t (·.setState .running)).setCurrent
    (some t)

/-- `thread_activate`. -/
def threadActivate : Bool × SchedState :=
  match s.currentThread with
  | none => (false, s)
  | some previous =>
    if ¬ s.initialized ∨ ¬ s.threadStorageLive t ∨ (s.thread t).id = 0 ∨
        (s.thread t).process = none ∨ (s.thread t).kernelStackTop = 0 then (false, s)
    else if (s.thread t).kernelStackTop % 16 ≠ 0 then (false, s)
    else if targetCr3 env (s.thread t) = 0 then (false, s)
    else if t = previous then
      if (s.thread t).state ≠ .running then (false, s) else (true, s)
    else if (s.thread t).state ≠ .ready then (false, s)
    else if (s.thread previous).state ≠ .running then (false, s)
    else (true, s.switchCurrent t previous)

/-- `thread_scheduler_enter_idle`. -/
def threadSchedulerEnterIdle (idleStackTop : Nat) : Bool × SchedState :=
  match s.currentThread with
  | none => (false, s)
  | some previous =>
    let th := s.thread previous
    if ¬ s.initialized ∨ idleStackTop = 0 ∨ idleStackTop % 16 ≠ 0 then (false, s)
    else if ¬ s.threadStorageLive previous ∨ th.id = 0 ∨ th.state ≠ .dead ∨ th.onRunQueue ∨
        th.runNext ≠ none ∨ th.interruptContextReady ∨ th.interruptRsp ≠ 0 ∨
        s.ThreadWaitActive previous then (false, s)
    else if env.kernelCr3 = 0 then (false, s)
    else (true, s.setCurrent none)

/-- `thread_scheduler_activate_from_idle`. -/
def threadSchedulerActivateFromIdle : Bool × SchedState :=
  let th := s.thread t
  if ¬ s.initialized ∨ s.currentThread ≠ none ∨ ¬ s.threadStorageLive t ∨ th.id = 0 ∨
      th.process = none ∨ th.state ≠ .ready ∨ ¬ th.onRunQueue ∨ th.runNext = none ∨
      ¬ th.interruptContextReady ∨ th.interruptRsp = 0 ∨ th.kernelStackTop = 0 ∨
      th.kernelStackTop % 16 ≠ 0 then (false, s)
  else if targetCr3 env th = 0 then (false, s)
  else (true, (s.modifyThread t (·.setState .running)).setCurrent (some t))

/-! ### The run queue -/

/-- The stores of `scheduler_add` on an empty queue. -/
def appendFirst : SchedState :=
  { s.modifyThread t (fun th => (th.setRunNext (some t)).setOnRunQueue true) with
    runHead := some t, runTail := some t, runCount := 1 }

/-- The stores of `scheduler_add` behind `tail`. -/
def appendLast (head tail : ThreadRef) : SchedState :=
  { ((s.modifyThread t (·.setRunNext (some head))).modifyThread tail
      (·.setRunNext (some t))).modifyThread t (·.setOnRunQueue true) with
    runTail := some t, runCount := s.runCount + 1 }

/-- `scheduler_add`. -/
def schedulerAdd : Bool × SchedState :=
  let th := s.thread t
  if ¬ s.schedInitialized ∨ th.id = 0 ∨ th.onRunQueue ∨ th.state ≠ .ready ∨
      ¬ th.interruptContextReady ∨ th.interruptRsp = 0 then (false, s)
  else if ¬ SchedulerInterruptFrameValid th th.interruptRsp then (false, s)
  else if s.runCount = 0 then
    if ¬ s.idleActive ∨ s.runHead ≠ none ∨ s.runTail ≠ none then (false, s)
    else (true, s.appendFirst t)
  else
    match s.runHead, s.runTail with
    | some head, some tail => (true, s.appendLast t head tail)
    | _, _ => (false, s)

/-- The loop of `scheduler_unlink`: the queued thread whose `run_next` is `t`. -/
def findPrevious : Option ThreadRef :=
  walk (fun x => (s.thread x).runNext) (fun x => (s.thread x).runNext = some t) s.runCount s.runHead

/-- The stores of `scheduler_unlink` when `t` is alone on the queue. -/
def unlinkOnly : SchedState :=
  { s.modifyThread t (fun th => (th.setRunNext none).setOnRunQueue false) with
    runHead := none, runTail := none, runCount := s.runCount - 1 }

/-- The stores of `scheduler_unlink` when `previous` precedes `t` on the queue and
`tail` ends it. -/
def unlinkAfter (previous tail : ThreadRef) : SchedState :=
  let s₁ := s.modifyThread previous (·.setRunNext (s.thread t).runNext)
  let head := if s.runHead = some t then (s₁.thread t).runNext else s.runHead
  let last := if tail = t then previous else tail
  { (s₁.modifyThread last (·.setRunNext head)).modifyThread t
      (fun th => (th.setRunNext none).setOnRunQueue false) with
    runHead := head, runTail := some last, runCount := s.runCount - 1 }

/-- `scheduler_unlink`. -/
def schedulerUnlink : Bool × SchedState :=
  match s.runTail with
  | none => (false, s)
  | some tail =>
    if ¬ (s.thread t).onRunQueue ∨ s.runHead = none ∨ s.runCount = 0 then (false, s)
    else
      match s.findPrevious t with
      | none => (false, s)
      | some previous =>
        if s.runCount = 1 then
          if s.runHead ≠ some t ∨ tail ≠ t then (false, s) else (true, s.unlinkOnly t)
        else (true, s.unlinkAfter t previous tail)

/-- A queued thread other than `current` that can be switched to. -/
def Eligible (current : Option ThreadRef) (x : ThreadRef) : Prop :=
  some x ≠ current ∧ (s.thread x).onRunQueue ∧ (s.thread x).state = .ready ∧
    (s.thread x).interruptContextReady ∧ (s.thread x).interruptRsp ≠ 0 ∧
    SchedulerInterruptFrameValid (s.thread x) (s.thread x).interruptRsp

instance (current : Option ThreadRef) (x : ThreadRef) : Decidable (s.Eligible current x) :=
  inferInstanceAs (Decidable (_ ∧ _))

/-- `scheduler_find_next_interrupt_thread`: the thread after `current` in queue
order that can be switched to; its frame is its `interrupt_rsp`. -/
def schedulerFindNextInterruptThread (current : ThreadRef) : Option ThreadRef :=
  if (s.thread current).runNext = none ∨ s.runCount < 2 then none
  else walk (fun x => (s.thread x).runNext) (fun x => s.Eligible (some current) x)
    (s.runCount - 1) (s.thread current).runNext

/-- `scheduler_find_idle_ready`. -/
def schedulerFindIdleReady : Option ThreadRef :=
  if ¬ s.idleActive ∨ s.runHead = none ∨ s.runTail = none ∨ s.runCount = 0 then none
  else walk (fun x => (s.thread x).runNext)
    (fun x => (s.thread x).runNext ≠ none ∧ s.Eligible none x) s.runCount s.runHead

/-- `scheduler_remove`. -/
def schedulerRemove : Bool × SchedState :=
  if ¬ s.schedInitialized ∨ ¬ (s.thread t).onRunQueue then (false, s)
  else if some t = s.threadCurrent then (false, s)
  else s.schedulerUnlink t

/-- `scheduler_wake`. -/
def schedulerWake : Bool × SchedState :=
  let th := s.thread t
  if ¬ s.schedInitialized ∨ th.id = 0 ∨ some t = s.threadCurrent ∨ th.onRunQueue ∨
      th.runNext ≠ none ∨ ¬ th.interruptContextReady ∨ th.interruptRsp = 0 ∨
      th.state ≠ .blocked then (false, s)
  else if ¬ SchedulerInterruptFrameValid th th.interruptRsp then (false, s)
  else
    match (s.modifyThread t (·.setState .ready)).schedulerAdd t with
    | (true, s') => (true, s')
    | (false, s') => (false, s'.modifyThread t (·.setState .blocked))

/-! ### Terminating threads -/

/-- `scheduler_can_terminate_thread`. -/
def SchedulerCanTerminateThread : Prop :=
  s.schedInitialized ∧ some t ≠ s.threadCurrent ∧ (s.thread t).id ≠ 0 ∧
    (((s.thread t).state = .ready ∧
        if (s.thread t).onRunQueue then
          (s.thread t).runNext ≠ none ∧ (s.thread t).interruptContextReady ∧
            (s.thread t).interruptRsp ≠ 0
        else (s.thread t).runNext = none) ∨
      ((s.thread t).state = .blocked ∧ ¬ (s.thread t).onRunQueue ∧ (s.thread t).runNext = none ∧
        (s.thread t).interruptContextReady ∧ (s.thread t).interruptRsp ≠ 0))

instance : Decidable (s.SchedulerCanTerminateThread t) := inferInstanceAs (Decidable (_ ∧ _))

/-- `scheduler_terminate_thread`. -/
def schedulerTerminateThread : Bool × SchedState :=
  if ¬ s.SchedulerCanTerminateThread t then (false, s)
  else if s.ThreadWaitActive t then (false, s)
  else if (s.thread t).state = .ready ∧ (s.thread t).onRunQueue then
    match s.schedulerUnlink t with
    | (false, s') => (false, s')
    | (true, s') => (true, s'.modifyThread t Thread.kill)
  else (true, s.modifyThread t Thread.kill)

/-- `scheduler_idle_context_ready`. -/
def SchedulerIdleContextReady : Prop :=
  s.schedInitialized ∧ s.idleContextReady ∧ s.idleStackPhysical ≠ 0 ∧ s.idleStackBase ≠ 0 ∧
    s.idleStackTop = s.idleStackBase + threadKernelStackSize

instance : Decidable s.SchedulerIdleContextReady := inferInstanceAs (Decidable (_ ∧ _))

/-- `scheduler_idle_stack_guarded`. -/
def SchedulerIdleStackGuarded : Prop := s.SchedulerIdleContextReady ∧ env.idleStackMapped

instance : Decidable (s.SchedulerIdleStackGuarded env) := inferInstanceAs (Decidable (_ ∧ _))

/-- The current thread as the traps require it: running and queued. -/
def RunningCurrent (c : ThreadRef) : Prop :=
  s.threadCurrent = some c ∧ (s.thread c).id ≠ 0 ∧ (s.thread c).onRunQueue ∧
    (s.thread c).state = .running ∧ (s.thread c).runNext ≠ none

instance (c : ThreadRef) : Decidable (s.RunningCurrent c) := inferInstanceAs (Decidable (_ ∧ _))

/-- `scheduler_can_terminate_current`. -/
def SchedulerCanTerminateCurrent (c : ThreadRef) : Prop :=
  s.schedInitialized ∧ ¬ s.idleActive ∧ s.runCount ≠ 0 ∧ s.runHead ≠ none ∧ s.runTail ≠ none ∧
    s.RunningCurrent c ∧
    if s.runCount = 1 then
      s.SchedulerIdleContextReady ∧ s.SchedulerIdleStackGuarded env ∧ s.runHead = some c ∧
        s.runTail = some c ∧ (s.thread c).runNext = some c
    else s.schedulerFindNextInterruptThread c ≠ none

instance (c : ThreadRef) : Decidable (s.SchedulerCanTerminateCurrent env c) :=
  inferInstanceAs (Decidable (_ ∧ _))

end SchedState

/-! ### Interrupt entries -/

/-- What an interrupt entry hands back: the frame that the interrupt returns
through, and what was stored in the `rax` slot of the incoming frame, if anything. -/
structure TrapReturn where
  frame : Nat
  rax : Option Nat
  deriving Repr, DecidableEq

namespace SchedState

variable (env : SpaceEnv) (s : SchedState) (frame : Nat)

/-- The `rax` store of a software trap; a timer interrupt stores nothing. -/
def trapRax (timerPreemption : Bool) (value : Nat) : Option Nat :=
  if timerPreemption then none else some value

/-- `scheduler_switch_ready_from_interrupt`. -/
def schedulerSwitchReadyFromInterrupt (timerPreemption : Bool) : TrapReturn × SchedState :=
  if frame = 0 ∨ ¬ s.schedInitialized ∨ s.runHead = none ∨ s.runTail = none ∨ s.runCount < 2 then
    (⟨frame, none⟩, s)
  else
    match s.threadCurrent with
    | none => (⟨frame, none⟩, s)
    | some current =>
      if ¬ s.RunningCurrent current then (⟨frame, none⟩, s)
      else if ¬ SchedulerInterruptFrameValid (s.thread current) frame then (⟨frame, none⟩, s)
      else
        match s.schedulerFindNextInterruptThread current with
        | none => (⟨frame, trapRax timerPreemption 1⟩, s)
        | some chosen =>
          match (s.modifyThread current (·.saveContext frame)).threadActivate env chosen with
          | (false, s₁) =>
            (⟨frame, trapRax timerPreemption 0⟩, s₁.modifyThread current (·.dropContext))
          | (true, s₁) =>
            (⟨(s.thread chosen).interruptRsp, trapRax timerPreemption 1⟩,
              s₁.modifyThread chosen (·.dropContext))

/-- `scheduler_block_from_interrupt`. -/
def schedulerBlockFromInterrupt : Option (TrapReturn × SchedState) :=
  if frame = 0 then some (⟨frame, none⟩, s)
  else if ¬ s.schedInitialized ∨ s.runHead = none ∨ s.runTail = none ∨ s.runCount < 2 then
    some (⟨frame, some 0⟩, s)
  else
    match s.threadCurrent with
    | none => some (⟨frame, some 0⟩, s)
    | some blocked =>
      if ¬ s.RunningCurrent blocked ∨ ¬ SchedulerInterruptFrameValid (s.thread blocked) frame then
        some (⟨frame, some 0⟩, s)
      else
        match s.schedulerFindNextInterruptThread blocked with
        | none => some (⟨frame, some 0⟩, s)
        | some chosen =>
          match (s.modifyThread blocked (·.saveContext frame)).threadActivate env chosen with
          | (false, s₁) => some (⟨frame, some 0⟩, s₁.modifyThread blocked (·.dropContext))
          | (true, s₁) =>
            match s₁.schedulerUnlink blocked with
            | (false, _) => none
            | (true, s₂) =>
              some (⟨(s.thread chosen).interruptRsp, some 1⟩,
                (s₂.modifyThread blocked (·.setState .blocked)).modifyThread chosen
                  (·.dropContext))

/-- `scheduler_resume_from_idle`. -/
def schedulerResumeFromIdle : Option (TrapReturn × SchedState) :=
  if frame = 0 ∨ ¬ s.idleActive then some (⟨frame, none⟩, s)
  else if ¬ s.SchedulerIdleRuntimeFrameValid frame then none
  else if s.runCount = 0 then some (⟨frame, none⟩, s)
  else
    match s.schedulerFindIdleReady with
    | none => none
    | some chosen =>
      match s.threadSchedulerActivateFromIdle env chosen with
      | (false, _) => none
      | (true, s₁) =>
        some (⟨(s.thread chosen).interruptRsp, none⟩,
          { s₁.modifyThread chosen (·.dropContext) with idleActive := false })

/-- `scheduler_exit_from_interrupt`. -/
def schedulerExitFromInterrupt : Option (TrapReturn × SchedState) :=
  if frame = 0 ∨ ¬ s.schedInitialized ∨ s.runHead = none ∨ s.runTail = none ∨ s.runCount = 0 then
    none
  else
    match s.threadCurrent with
    | none => none
    | some dying =>
      if ¬ s.RunningCurrent dying ∨ ¬ SchedulerInterruptFrameValid (s.thread dying) frame then none
      else if s.runCount = 1 then
        if ¬ s.SchedulerCanTerminateCurrent env dying then none
        else
          match schedulerIdleFrameBuild s.idleStackBase s.idleStackTop with
          | none => none
          | some idleFrame =>
            match s.schedulerUnlink dying with
            | (false, _) => none
            | (true, s₁) =>
              match (s₁.modifyThread dying (fun th => (th.setState .dead).dropContext)
                  ).threadSchedulerEnterIdle env s.idleStackTop with
              | (false, _) => none
              | (true, s₂) => some (⟨idleFrame, none⟩, { s₂ with idleActive := true })
      else
        match s.schedulerFindNextInterruptThread dying with
        | none => none
        | some chosen =>
          match s.threadActivate env chosen with
          | (false, _) => none
          | (true, s₁) =>
            match s₁.schedulerUnlink dying with
            | (false, _) => none
            | (true, s₂) =>
              some (⟨(s.thread chosen).interruptRsp, none⟩,
                (s₂.modifyThread dying (fun th => (th.setState .dead).dropContext)).modifyThread
                  chosen (·.dropContext))

/-- `scheduler_reschedule`; `operation` is the `rax` slot of the incoming frame. -/
def schedulerReschedule (operation : Nat) : Option (TrapReturn × SchedState) :=
  if frame = 0 then some (⟨0, none⟩, s)
  else
    match operation with
    | 1 => some (s.schedulerSwitchReadyFromInterrupt env frame false)
    | 2 => s.schedulerBlockFromInterrupt env frame
    | 3 => s.schedulerExitFromInterrupt env frame
    | _ => some (⟨frame, some 0⟩, s)

/-- `scheduler_preempt`. -/
def schedulerPreempt : Option (TrapReturn × SchedState) :=
  if s.idleActive then s.schedulerResumeFromIdle env frame
  else if frame = 0 ∨ ¬ s.preemptionEnabled then some (⟨frame, none⟩, s)
  else some (s.schedulerSwitchReadyFromInterrupt env frame true)

/-- `scheduler_block_current`: what the BLOCK trap leaves in `rax`. After `true` the
calling continuation goes on when its thread runs again. -/
def schedulerBlockCurrent : Option (Bool × SchedState) :=
  if ¬ s.schedInitialized ∨ s.runHead = none ∨ s.runTail = none ∨ s.runCount < 2 then
    some (false, s)
  else
    match s.threadCurrent with
    | none => some (false, s)
    | some current =>
      if ¬ s.RunningCurrent current then some (false, s)
      else (s.schedulerReschedule env frame 2).map fun r => (decide (r.1.rax.getD 2 ≠ 0), r.2)

/-- `scheduler_wait_current`. A thread that is alone on the queue stays where it is
and idles for one interrupt; what the interrupt does is a step of its own. -/
def schedulerWaitCurrent : Option (Bool × SchedState) :=
  if ¬ s.schedInitialized ∨ s.runHead = none ∨ s.runTail = none ∨ s.runCount = 0 then
    some (false, s)
  else
    match s.threadCurrent with
    | none => some (false, s)
    | some current =>
      if ¬ s.RunningCurrent current then some (false, s)
      else if 1 < s.runCount then s.schedulerBlockCurrent env frame
      else if s.runHead = some current ∧ s.runTail = some current ∧
          (s.thread current).runNext = some current then some (true, s)
      else some (false, s)

/-! ### Start-up and preemption control -/

/-- `scheduler_idle_stack_init`; `stack` is the physical address and the base of
the mapped idle stack, `none` when an allocation or the mapping fails. -/
def schedulerIdleStackInit (stack : Option (Nat × Nat)) : Bool × SchedState :=
  if s.idleContextReady ∨ s.idleStackPhysical ≠ 0 ∨ s.idleStackBase ≠ 0 ∨ s.idleStackTop ≠ 0 then
    (false, s)
  else
    match stack with
    | none => (false, s)
    | some (physical, base) =>
      if base = 0 ∨ 2 ^ 64 - 1 - threadKernelStackSize < base then (false, s)
      else
        let top := base + threadKernelStackSize
        if top % 16 ≠ 0 ∨ schedulerIdleFrameBuild base top = none ∨ ¬ env.idleStackMapped then
          (false, s)
        else
          (true, { s with
            idleStackPhysical := physical, idleStackBase := base, idleStackTop := top,
            idleContextReady := true })

/-- `scheduler_init`. -/
def schedulerInit (stack : Option (Nat × Nat)) : Bool × SchedState :=
  if s.schedInitialized then (false, s)
  else
    match s.threadCurrent with
    | none => (false, s)
    | some current =>
      if (s.thread current).id = 0 ∨ (s.thread current).state ≠ .running ∨
          (s.thread current).onRunQueue then (false, s)
      else
        match s.schedulerIdleStackInit env stack with
        | (false, s₁) => (false, s₁)
        | (true, s₁) =>
          (true, { s₁.modifyThread current
              (fun th => (th.setRunNext (some current)).setOnRunQueue true) with
            runHead := some current, runTail := some current, runCount := 1,
            schedInitialized := true, preemptionEnabled := false, idleActive := false })

/-- The loop of `scheduler_preemption_enable`: `none` when a queued thread is not
as it should be, otherwise whether the current thread was seen. -/
def preemptionScan (current : ThreadRef) : Nat → Option ThreadRef → Bool → Option Bool
  | 0, _, sawCurrent => some sawCurrent
  | _ + 1, none, _ => none
  | n + 1, some x, sawCurrent =>
    let th := s.thread x
    if th.id = 0 ∨ ¬ th.onRunQueue ∨ th.runNext = none then none
    else if x = current then
      if sawCurrent ∨ th.state ≠ .running then none
      else preemptionScan current n th.runNext true
    else if th.state ≠ .ready ∨ ¬ th.interruptContextReady ∨ th.interruptRsp = 0 ∨
        ¬ SchedulerInterruptFrameValid th th.interruptRsp then none
    else preemptionScan current n th.runNext sawCurrent

/-- `scheduler_preemption_enable`. -/
def schedulerPreemptionEnable : Bool × SchedState :=
  if ¬ s.schedInitialized ∨ s.preemptionEnabled ∨ s.idleActive ∨ s.runHead = none ∨
      s.runTail = none ∨ s.runCount = 0 then (false, s)
  else
    match s.threadCurrent with
    | none => (false, s)
    | some current =>
      if (s.thread current).id = 0 ∨ ¬ (s.thread current).onRunQueue ∨
          (s.thread current).state ≠ .running then (false, s)
      else if s.preemptionScan current s.runCount s.runHead false ≠ some true then (false, s)
      else (true, { s with preemptionEnabled := true })

/-- `scheduler_preemption_disable`. -/
def schedulerPreemptionDisable : Bool × SchedState :=
  if ¬ s.schedInitialized ∨ ¬ s.preemptionEnabled then (false, s)
  else (true, { s with preemptionEnabled := false })

end SchedState

end JcosKernel
