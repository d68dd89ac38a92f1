import JcosKernel.Thread.State

/-!
# JcosKernel.Thread.Wait

The wait reservations of `thread.c`.

A wait is the quadruple `Thread.wait` of kind, result, object and identity. Every
operation below either refuses and changes nothing, or changes that quadruple of
one thread (the `_cases` lemmas).
-/

namespace JcosKernel

/-- The wait fields of a thread. -/
structure Wait where
  kind : ThreadWaitKind
  result : ThreadWaitResult
  object : Option WaitObject
  id : Nat
  deriving Repr, DecidableEq

namespace Wait

/-- No reservation: what `wait_clear` leaves behind. -/
def clear : Wait := ⟨.none, .none, none, 0⟩

/-- The reservation `thread_wait_begin` writes. -/
def begun (kind : ThreadWaitKind) (object : WaitObject) (id : Nat) : Wait :=
  ⟨kind, .pending, some object, id⟩

end Wait

/-- `wait_kind_valid`. -/
def ThreadWaitKind.Valid (kind : ThreadWaitKind) : Prop :=
  kind = .ipcReceive ∨ kind = .ipcSend ∨ kind = .processExit

/-- `wait_terminal`. -/
def ThreadWaitResult.Terminal (result : ThreadWaitResult) : Prop :=
  result = .completed ∨ result = .cancelled ∨ result = .peerClosed ∨ result = .timedOut

instance (kind : ThreadWaitKind) : Decidable kind.Valid :=
  inferInstanceAs (Decidable (_ ∨ _ ∨ _))

instance (result : ThreadWaitResult) : Decidable result.Terminal :=
  inferInstanceAs (Decidable (_ ∨ _ ∨ _ ∨ _))

@[simp] theorem ThreadWaitResult.not_terminal_none : ¬ ThreadWaitResult.none.Terminal := by decide

/-- The wait fields of a `Thread`. -/
def Thread.wait (th : Thread) : Wait := ⟨th.waitKind, th.waitResult, th.waitObject, th.waitId⟩

/-- Store the wait fields of a `Thread`. -/
def Thread.setWait (th : Thread) (w : Wait) : Thread :=
  { th with waitKind := w.kind, waitResult := w.result, waitObject := w.object, waitId := w.id }

/-- Store `wait_result`. -/
def Thread.setWaitResult (th : Thread) (result : ThreadWaitResult) : Thread :=
  { th with waitResult := result }

section

variable (th : Thread)

@[simp] theorem Thread.wait_kind : th.wait.kind = th.waitKind := rfl
@[simp] theorem Thread.wait_result : th.wait.result = th.waitResult := rfl
@[simp] theorem Thread.wait_object : th.wait.object = th.waitObject := rfl
@[simp] theorem Thread.wait_id : th.wait.id = th.waitId := rfl
@[simp] theorem Thread.wait_setWait (w : Wait) : (th.setWait w).wait = w := rfl
@[simp] theorem Thread.wait_setWaitResult (result : ThreadWaitResult) :
    (th.setWaitResult result).wait = { th.wait with result := result } := rfl

end

namespace ThreadState

variable (s : ThreadState) (t : ThreadRef) (kind : ThreadWaitKind) (object : WaitObject)

/-- `thread_wait_active`. -/
def ThreadWaitActive : Prop :=
  s.initialized ∧ s.threadStorageLive t ∧ (s.thread t).id ≠ 0 ∧
    ((s.thread t).waitKind ≠ .none ∨ (s.thread t).waitResult ≠ .none ∨
      (s.thread t).waitObject ≠ none ∨ (s.thread t).waitId ≠ 0)

instance : Decidable (s.ThreadWaitActive t) := inferInstanceAs (Decidable (_ ∧ _))

/-- `thread_wait_begin`. -/
def threadWaitBegin : Bool × ThreadState :=
  if ¬ s.initialized ∨ ¬ s.threadStorageLive t ∨ some t ≠ s.currentThread ∨
      (s.thread t).id = 0 ∨ ¬ kind.Valid ∨ s.nextWaitId = 0 then (false, s)
  else if (s.thread t).state ≠ .running ∨ ¬ (s.thread t).onRunQueue then (false, s)
  else if s.ThreadWaitActive t then (false, s)
  else
    (true, { s.modify t (·.setWait (.begun kind object s.nextWaitId)) with
      -- an exhausted counter stays at zero: later registrations fail closed
      nextWaitId := succ64 s.nextWaitId })

/-- `thread_wait_matches`. -/
def ThreadWaitMatches : Prop :=
  s.initialized ∧ s.threadStorageLive t ∧ (s.thread t).id ≠ 0 ∧ kind.Valid ∧
    (s.thread t).waitId ≠ 0 ∧ (s.thread t).waitKind = kind ∧
    (s.thread t).waitObject = some object

instance : Decidable (s.ThreadWaitMatches t kind object) := inferInstanceAs (Decidable (_ ∧ _))

/-- `thread_wait_matches_id`. -/
def ThreadWaitMatchesId (waitId : Nat) : Prop :=
  waitId ≠ 0 ∧ s.ThreadWaitMatches t kind object ∧ (s.thread t).waitId = waitId

instance (waitId : Nat) : Decidable (s.ThreadWaitMatchesId t kind object waitId) :=
  inferInstanceAs (Decidable (_ ∧ _))

/-- The thread is in a state in which a completion may reach it: parked, woken
but not resumed, or running towards its park. -/
def Completable : Prop :=
  (s.thread t).state = .blocked ∨ (s.thread t).state = .ready ∨
    (some t = s.currentThread ∧ (s.thread t).state = .running)

instance : Decidable (s.Completable t) := inferInstanceAs (Decidable (_ ∨ _))

/-- `thread_wait_try_complete`. -/
def threadWaitTryComplete (waitId : Nat) (result : ThreadWaitResult) : Bool × ThreadState :=
  if ¬ result.Terminal ∨ ¬ s.ThreadWaitMatchesId t kind object waitId ∨
      (s.thread t).waitResult ≠ .pending then (false, s)
  else if ¬ s.Completable t then (false, s)
  else (true, s.modify t (·.setWaitResult result))

/-- `thread_wait_cancel`. -/
def threadWaitCancel : Bool × ThreadState :=
  if ¬ s.ThreadWaitMatches t kind object then (false, s)
  else s.threadWaitTryComplete t kind object (s.thread t).waitId .cancelled

/-- `thread_wait_end`. -/
def threadWaitEnd : Bool × ThreadState :=
  if some t ≠ s.currentThread ∨ ¬ s.ThreadWaitMatches t kind object ∨
      (s.thread t).state ≠ .running ∨ ¬ (s.thread t).waitResult.Terminal then (false, s)
  else (true, s.modify t (·.setWait .clear))

/-- `thread_wait_abort`. -/
def threadWaitAbort : Bool × ThreadState :=
  if some t = s.currentThread ∨ ¬ s.ThreadWaitMatches t kind object then (false, s)
  else if (s.thread t).state ≠ .blocked ∧ (s.thread t).state ≠ .ready then (false, s)
  else
    -- an already committed result is kept; only a pending one becomes CANCELLED
    let s := if (s.thread t).waitResult = .pending then
      s.modify t (·.setWaitResult .cancelled) else s
    if ¬ (s.thread t).waitResult.Terminal then (false, s)
    else (true, s.modify t (·.setWait .clear))

section Cases

variable {s t kind object} {b : Bool} {s' : ThreadState}

/-- `thread_wait_begin` refuses, or publishes a pending wait under the next
identity for the running current thread, which held none. -/
theorem threadWaitBegin_cases (h : s.threadWaitBegin t kind object = (b, s')) :
    (b = false ∧ s' = s) ∨
    (b = true ∧ s.initialized ∧ s.threadStorageLive t ∧ s.currentThread = some t ∧
      (s.thread t).id ≠ 0 ∧ kind.Valid ∧ s.nextWaitId ≠ 0 ∧ (s.thread t).state = .running ∧
      (s.thread t).onRunQueue ∧ (s.thread t).wait = .clear ∧
      s' = { s.modify t (·.setWait (.begun kind object s.nextWaitId)) with
        nextWaitId := succ64 s.nextWaitId }) := by
  unfold threadWaitBegin at h
  split_ifs at h with h1 h2 h3
  iterate 3
    · obtain ⟨rfl, rfl⟩ := h
      exact .inl ⟨rfl, rfl⟩
  · obtain ⟨rfl, rfl⟩ := h
    simp only [not_or, not_not] at h1 h2
    obtain ⟨hi, hl, hc, hid, hk, hn⟩ := h1
    have hclear : (s.thread t).wait = .clear := by
      simp only [ThreadWaitActive, hi, hl, hid, true_and, ne_eq, not_false_eq_true, not_or,
        not_not] at h3
      simp only [Thread.wait, h3, Wait.clear]
    exact .inr ⟨rfl, hi, hl, hc.symm, hid, hk, hn, h2.1, h2.2, hclear, rfl⟩

/-- `thread_wait_try_complete` refuses, or replaces a pending result. -/
theorem threadWaitTryComplete_cases {waitId : Nat} {result : ThreadWaitResult}
    (h : s.threadWaitTryComplete t kind object waitId result = (b, s')) :
    (b = false ∧ s' = s) ∨
    (b = true ∧ result.Terminal ∧ s.ThreadWaitMatchesId t kind object waitId ∧
      (s.thread t).waitResult = .pending ∧ s.Completable t ∧
      s' = s.modify t (·.setWaitResult result)) := by
  unfold threadWaitTryComplete at h
  split_ifs at h with h1 h2
  · obtain ⟨rfl, rfl⟩ := h
    exact .inl ⟨rfl, rfl⟩
  · obtain ⟨rfl, rfl⟩ := h
    simp only [not_or, not_not] at h1
    exact .inr ⟨rfl, h1.1, h1.2.1, h1.2.2, h2, rfl⟩
  · obtain ⟨rfl, rfl⟩ := h
    exact .inl ⟨rfl, rfl⟩

theorem threadWaitCancel_cases (h : s.threadWaitCancel t kind object = (b, s')) :
    (b = false ∧ s' = s) ∨
    (b = true ∧ s.ThreadWaitMatches t kind object ∧ (s.thread t).waitResult = .pending ∧
      s' = s.modify t (·.setWaitResult .cancelled)) := by
  unfold threadWaitCancel at h
  split_ifs at h with h1
  · rcases threadWaitTryComplete_cases h with h | ⟨hb, -, hm, hp, -, hs⟩
    · exact .inl h
    · exact .inr ⟨hb, hm.2.1, hp, hs⟩
  · obtain ⟨rfl, rfl⟩ := h
    exact .inl ⟨rfl, rfl⟩

/-- `thread_wait_end` refuses, or clears the finished wait of the running
current thread. -/
theorem threadWaitEnd_cases (h : s.threadWaitEnd t kind object = (b, s')) :
    (b = false ∧ s' = s) ∨
    (b = true ∧ s.currentThread = some t ∧ s.ThreadWaitMatches t kind object ∧
      (s.thread t).state = .running ∧ (s.thread t).waitResult.Terminal ∧
      s' = s.modify t (·.setWait .clear)) := by
  unfold threadWaitEnd at h
  split_ifs at h with h1
  · obtain ⟨rfl, rfl⟩ := h
    exact .inl ⟨rfl, rfl⟩
  · obtain ⟨rfl, rfl⟩ := h
    simp only [not_or, not_not] at h1
    exact .inr ⟨rfl, h1.1.symm, h1.2.1, h1.2.2.1, h1.2.2.2, rfl⟩

/-- `thread_wait_abort` refuses, or clears the wait of a thread that is not
running. The intermediate CANCELLED is overwritten within the call. -/
theorem threadWaitAbort_cases (h : s.threadWaitAbort t kind object = (b, s'))
    (hr : (s.thread t).waitResult ≠ .none) :
    (b = false ∧ s' = s) ∨
    (b = true ∧ s.currentThread ≠ some t ∧ s.ThreadWaitMatches t kind object ∧
      ((s.thread t).state = .blocked ∨ (s.thread t).state = .ready) ∧
      s' = s.modify t (·.setWait .clear)) := by
  unfold threadWaitAbort at h
  split_ifs at h with h1 h2 h3
  iterate 2
    · obtain ⟨rfl, rfl⟩ := h
      exact .inl ⟨rfl, rfl⟩
  all_goals
    simp only [not_or, not_not] at h1
    have h2' : (s.thread t).state = .blocked ∨ (s.thread t).state = .ready := by tauto
  · have hterm : ((s.modify t (·.setWaitResult .cancelled)).thread t).waitResult.Terminal := by
      simp [ThreadWaitResult.Terminal, Thread.setWaitResult]
    simp only [hterm] at h
    obtain ⟨rfl, rfl⟩ := h
    refine .inr ⟨rfl, fun hc => h1.1 hc.symm, h1.2, h2', ?_⟩
    simp only [modify, Function.update_self, Function.update_idem]
    rfl
  · have hterm : (s.thread t).waitResult.Terminal := by
      cases hw : (s.thread t).waitResult <;> simp_all [ThreadWaitResult.Terminal]
    simp only [hterm] at h
    obtain ⟨rfl, rfl⟩ := h
    exact .inr ⟨rfl, fun hc => h1.1 hc.symm, h1.2, h2', rfl⟩

end Cases

end ThreadState

end JcosKernel
