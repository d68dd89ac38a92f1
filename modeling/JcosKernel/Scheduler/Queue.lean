import JcosKernel.Scheduler.Model
import Mathlib.Tactic.Tauto

/-!
# JcosKernel.Scheduler.Queue

What the run-queue operations do to the queue, read as a list of threads.

`QueueInv s l` says that the pointers of `s` represent the circular list `l`. The
two operations that relink the queue, `scheduler_add` and `scheduler_unlink`, and
the two searches along it get one specification each; nothing later looks at
`run_next` again. `Relinked` is their frame: only queue links changed.
-/

namespace JcosKernel

open Lib

open Function (update update_of_ne)

namespace Thread

variable (th : Thread)

/-- Replace both queue links. -/
def relink (next : Option ThreadRef) (on : Bool) : Thread :=
  (th.setRunNext next).setOnRunQueue on

/-- There is a saved context that can be returned to. -/
def SavedContext : Prop :=
  th.interruptContextReady ∧ th.interruptRsp ≠ 0 ∧
    SchedulerInterruptFrameValid th th.interruptRsp

instance : Decidable th.SavedContext := inferInstanceAs (Decidable (_ ∧ _))

section

variable (next : Option ThreadRef) (on : Bool)

@[simp] theorem relink_state :
    (th.relink next on).state = th.state := rfl
@[simp] theorem relink_runNext :
    (th.relink next on).runNext = next := rfl
@[simp] theorem relink_onRunQueue :
    (th.relink next on).onRunQueue = on := rfl
@[simp] theorem relink_savedContext :
    (th.relink next on).SavedContext ↔ th.SavedContext := Iff.rfl

end
@[simp] theorem setState_state (st : ThreadRunState) : (th.setState st).state = st := rfl
@[simp] theorem setState_runNext (st : ThreadRunState) :
    (th.setState st).runNext = th.runNext := rfl
@[simp] theorem setState_onRunQueue (st : ThreadRunState) :
    (th.setState st).onRunQueue = th.onRunQueue := rfl
@[simp] theorem saveContext_state (frame : Nat) : (th.saveContext frame).state = th.state := rfl
@[simp] theorem saveContext_onRunQueue (frame : Nat) :
    (th.saveContext frame).onRunQueue = th.onRunQueue := rfl
@[simp] theorem dropContext_state : th.dropContext.state = th.state := rfl
@[simp] theorem dropContext_onRunQueue : th.dropContext.onRunQueue = th.onRunQueue := rfl

theorem saveContext_savedContext {frame : Nat} (h : SchedulerInterruptFrameValid th frame) :
    (th.saveContext frame).SavedContext :=
  ⟨rfl, h.1, h⟩

end Thread

namespace SchedState

section Modify

variable (s : SchedState) (t : ThreadRef) (f : Thread → Thread)

@[simp] theorem modifyThread_thread :
    (s.modifyThread t f).thread = update s.thread t (f (s.thread t)) := rfl
@[simp] theorem modifyThread_currentThread :
    (s.modifyThread t f).currentThread = s.currentThread := rfl
@[simp] theorem modifyThread_initialized : (s.modifyThread t f).initialized = s.initialized := rfl
@[simp] theorem modifyThread_storage : (s.modifyThread t f).storage = s.storage := rfl
@[simp] theorem modifyThread_runHead : (s.modifyThread t f).runHead = s.runHead := rfl
@[simp] theorem modifyThread_runTail : (s.modifyThread t f).runTail = s.runTail := rfl
@[simp] theorem modifyThread_runCount : (s.modifyThread t f).runCount = s.runCount := rfl
@[simp] theorem modifyThread_schedInitialized :
    (s.modifyThread t f).schedInitialized = s.schedInitialized := rfl
@[simp] theorem modifyThread_idleActive : (s.modifyThread t f).idleActive = s.idleActive := rfl

end Modify

/-- The queue of `s` is `l`, from head to tail. -/
structure QueueInv (s : SchedState) (l : List ThreadRef) : Prop where
  nodup : l.Nodup
  ring : Ring (fun x => (s.thread x).runNext) l
  head : s.runHead = l.head?
  tail : s.runTail = l.getLast?
  count : s.runCount = l.length
  mem : ∀ x, x ∈ l ↔ (s.thread x).onRunQueue = true

/-- `s'` differs from `s` in the queue only: in its three variables and in the
links of the threads in `l`. -/
structure Relinked (s s' : SchedState) (l : List ThreadRef) : Prop where
  links : ∀ x, s'.thread x = s.thread x ∨
    (x ∈ l ∧ ∃ next on, s'.thread x = (s.thread x).relink next on)
  rest : s' = { s with
    thread := s'.thread, runHead := s'.runHead, runTail := s'.runTail, runCount := s'.runCount }

namespace Relinked

variable {s s' : SchedState} {l : List ThreadRef} (h : Relinked s s' l)
include h

theorem currentThread : s'.currentThread = s.currentThread := by rw [h.rest]
theorem initialized : s'.initialized = s.initialized := by rw [h.rest]
theorem storage : s'.storage = s.storage := by rw [h.rest]
theorem schedInitialized : s'.schedInitialized = s.schedInitialized := by rw [h.rest]
theorem idleActive : s'.idleActive = s.idleActive := by rw [h.rest]

end Relinked

namespace QueueInv

variable {s s' : SchedState} {l : List ThreadRef} {t : ThreadRef}

/-- The queue depends on the links and the three queue variables only. -/
theorem congr (h : QueueInv s l) (hn : ∀ x, (s'.thread x).runNext = (s.thread x).runNext ∨ x ∉ l)
    (ho : ∀ x, (s'.thread x).onRunQueue = (s.thread x).onRunQueue)
    (hh : s'.runHead = s.runHead) (ht : s'.runTail = s.runTail) (hc : s'.runCount = s.runCount) :
    QueueInv s' l where
  nodup := h.nodup
  ring := h.ring.congr fun x hx => (hn x).resolve_right (not_not_intro hx)
  head := hh.trans h.head
  tail := ht.trans h.tail
  count := hc.trans h.count
  mem x := by rw [ho x]; exact h.mem x

/-- A store that keeps the queue links, or that concerns a thread off the queue. -/
theorem modify {f : Thread → Thread} (h : QueueInv s l)
    (hlink : ((f (s.thread t)).runNext = (s.thread t).runNext ∨ ¬ (s.thread t).onRunQueue) ∧
      (f (s.thread t)).onRunQueue = (s.thread t).onRunQueue) : QueueInv (s.modifyThread t f) l := by
  refine h.congr (fun y => ?_) (fun y => ?_) rfl rfl rfl
  · by_cases hy : y = t
    · subst hy
      simpa [h.mem] using hlink.1
    · simp [hy]
  · by_cases hy : y = t
    · subst hy
      simpa using hlink.2
    · simp [hy]

theorem switchCurrent (h : QueueInv s l) (c d : ThreadRef) : QueueInv (s.switchCurrent d c) l := by
  have h' : QueueInv ((s.modifyThread c (·.setState .ready)).modifyThread d (·.setState .running)) l :=
    (h.modify ⟨.inl rfl, rfl⟩).modify ⟨.inl rfl, rfl⟩
  exact { h' with }

theorem runHead_eq_none (h : QueueInv s l) : s.runHead = none ↔ l = [] := by
  rw [h.head, List.head?_eq_none_iff]

theorem runTail_eq_none (h : QueueInv s l) : s.runTail = none ↔ l = [] := by
  rw [h.tail, List.getLast?_eq_none_iff]

theorem runCount_eq_zero (h : QueueInv s l) : s.runCount = 0 ↔ l = [] := by
  rw [h.count, List.length_eq_zero_iff]

/-! The queue from `t` on. -/

section

variable {pre post : List ThreadRef} (h : QueueInv s (pre ++ t :: post))
include h

theorem nodup_behind : (t :: (post ++ pre)).Nodup := by
  have hperm : (pre ++ t :: post).Perm (t :: (post ++ pre)) := by
    simpa using @List.perm_append_comm _ pre (t :: post)
  exact hperm.nodup_iff.mp h.nodup

theorem count_behind : s.runCount = (post ++ pre).length + 1 := by
  rw [h.count]
  simp
  omega

theorem mem_behind {x : ThreadRef} :
    (s.thread x).onRunQueue = true ↔ x = t ∨ x ∈ post ++ pre := by
  rw [← h.mem]
  simp only [List.mem_append, List.mem_cons]
  tauto

end

/-- A queued thread has a successor. -/
theorem runNext_ne_none (h : QueueInv s l) (ht : t ∈ l) : (s.thread t).runNext ≠ none := by
  obtain ⟨u, -, hu⟩ := h.ring.next_mem ht
  simp [hu]

end QueueInv

/-! ### Appending -/

/-- What `scheduler_add` asks of the thread. -/
def Addable (s : SchedState) (t : ThreadRef) : Prop :=
  s.schedInitialized ∧ (s.thread t).id ≠ 0 ∧ ¬ (s.thread t).onRunQueue ∧
    (s.thread t).state = .ready ∧ (s.thread t).SavedContext

theorem appendFirst_thread (s : SchedState) (t x : ThreadRef) :
    (s.appendFirst t).thread x =
      if x = t then (s.thread x).relink (some t) true else s.thread x := by
  by_cases hx : x = t
  · subst hx
    simp [appendFirst, Thread.relink]
  · simp [appendFirst, hx]

variable {l : List ThreadRef} {s : SchedState} {head t tail : ThreadRef}

theorem appendLast_thread (s : SchedState) (ht : tail ≠ t) (x : ThreadRef) :
    (s.appendLast t head tail).thread x =
      if x = t then (s.thread x).relink (some head) true
      else if x = tail then (s.thread x).relink (some t) (s.thread x).onRunQueue
      else s.thread x := by
  by_cases hx : x = t
  · subst hx
    simp [appendLast, ht.symm, Thread.relink]
  · by_cases hx' : x = tail
    · subst hx'
      simp [appendLast, hx, Thread.relink, Thread.setOnRunQueue, Thread.setRunNext]
    · simp [appendLast, hx, hx']

theorem QueueInv.appendFirst (h : QueueInv s []) : QueueInv (s.appendFirst t) [t] where
  nodup := by simp
  ring := Ring.singleton (by simp [appendFirst_thread])
  head := rfl
  tail := rfl
  count := rfl
  mem x := by
    have := h.mem x
    by_cases hx : x = t
    · simp [appendFirst_thread, hx]
    · simpa [appendFirst_thread, hx] using this

theorem QueueInv.appendLast (h : QueueInv s (l ++ [tail])) (hh : s.runHead = some head)
    (ht : t ∉ l ++ [tail]) :
    QueueInv (s.appendLast t head tail) (l ++ [tail] ++ [t]) := by
  have htt : tail ≠ t := by
    intro he
    exact ht (by simp [he])
  have ha : (l ++ [tail]).head? = some head := h.head.symm.trans hh
  refine ⟨List.nodup_append.mpr ⟨h.nodup, by simp, ?_⟩, ?_, ?_, ?_, ?_, fun x => ?_⟩
  · intro x hx y hy he
    obtain rfl : y = t := by simpa using hy
    exact ht (he ▸ hx)
  · refine (h.ring.append h.nodup ha ht).congr fun x _ => ?_
    by_cases hx : x = t
    · simp [appendLast_thread s htt, hx, htt.symm]
    · by_cases hx' : x = tail
      · simp [appendLast_thread s htt, hx', htt]
      · simp [appendLast_thread s htt, hx, hx']
  · show s.runHead = _
    rw [hh, List.head?_append, ha]
    rfl
  · show some t = _
    rw [List.getLast?_concat]
  · show s.runCount + 1 = _
    simp [h.count]
  · have hm := h.mem x
    by_cases hx : x = t
    · simp [appendLast_thread s htt, hx]
    · by_cases hx' : x = tail
      · subst hx'
        simpa [appendLast_thread s htt, hx] using hm
      · simpa [appendLast_thread s htt, hx, hx'] using hm

/-- `scheduler_add` appends an acceptable thread and refuses every other one. An
empty queue is accepted only in the idle context. -/
theorem schedulerAdd_spec (h : QueueInv s l) (hidle : l = [] → s.idleActive) :
    (¬ s.Addable t ∧ s.schedulerAdd t = (false, s)) ∨
    (s.Addable t ∧ ∃ s', s.schedulerAdd t = (true, s') ∧ QueueInv s' (l ++ [t]) ∧
      Relinked s s' (t :: l)) := by
  by_cases hadd : s.Addable t
  case neg =>
    refine .inl ⟨hadd, ?_⟩
    simp only [Addable, Thread.SavedContext] at hadd
    unfold schedulerAdd
    dsimp only
    split_ifs <;> first | rfl | (exfalso; tauto)
  refine .inr ⟨hadd, ?_⟩
  obtain ⟨hi, hid, hoff, hst, hcr, hrsp, hfr⟩ := hadd
  have htl : t ∉ l := fun hm => hoff ((h.mem t).mp hm)
  rcases List.eq_nil_or_concat l with rfl | ⟨l0, tail, hl⟩
  · have hh : s.runHead = none := h.head
    have ht : s.runTail = none := h.tail
    have hc : s.runCount = 0 := h.count
    refine ⟨s.appendFirst t, ?_, h.appendFirst, ⟨fun x => ?_, rfl⟩⟩
    · simp [schedulerAdd, hi, hid, hoff, hst, hcr, hrsp, hfr, hh, ht, hc, hidle rfl]
    · rw [appendFirst_thread]
      split_ifs with hx
      · exact .inr ⟨by simp [hx], _, _, rfl⟩
      · exact .inl rfl
  · rw [List.concat_eq_append] at hl
    subst hl
    obtain ⟨head, hh⟩ : ∃ head, s.runHead = some head := by
      rw [h.head]
      cases l0 <;> simp
    have ht : s.runTail = some tail := by rw [h.tail, List.getLast?_concat]
    have hc : s.runCount ≠ 0 := by simp [h.count]
    have htt : tail ≠ t := by
      intro he
      exact htl (by simp [he])
    refine ⟨s.appendLast t head tail, ?_, h.appendLast hh htl, ⟨fun x => ?_, rfl⟩⟩
    · simp [schedulerAdd, hi, hid, hoff, hst, hcr, hrsp, hfr, hh, ht, hc]
    · rw [appendLast_thread s htt]
      split_ifs with hx hx'
      · exact .inr ⟨by simp [hx], _, _, rfl⟩
      · exact .inr ⟨by simp [hx'], _, _, rfl⟩
      · exact .inl rfl

/-! ### Unlinking -/

theorem unlinkOnly_thread (s : SchedState) (t x : ThreadRef) :
    (s.unlinkOnly t).thread x = if x = t then (s.thread x).relink none false else s.thread x := by
  by_cases hx : x = t
  · subst hx
    simp [unlinkOnly, Thread.relink]
  · simp [unlinkOnly, hx]

section UnlinkAfter

variable {pre post : List ThreadRef} {previous : ThreadRef}

variable (h : QueueInv s (pre ++ t :: post)) (hp : (post ++ pre).getLast? = some previous)
include h hp

theorem QueueInv.previous_ne : previous ≠ t := by
  intro he
  have hmem : t ∈ post ++ pre := he ▸ List.mem_of_mem_getLast? hp
  exact (List.nodup_cons.mp h.nodup_behind).1 hmem

/-- The head that `scheduler_unlink` leaves is the head of the remaining queue. -/
theorem unlinkAfter_runHead : (s.unlinkAfter t previous tail).runHead = (pre ++ post).head? := by
  show (if s.runHead = some t then _ else s.runHead) = _
  cases pre with
  | nil =>
    have hhead : s.runHead = some t := h.head
    rw [if_pos hhead]
    simp only [modifyThread_thread, update_of_ne (h.previous_ne hp).symm]
    cases post with
    | nil => simp at hp
    | cons b post => exact h.ring.next_of_cons_cons
  | cons a pre =>
    have hhead : s.runHead = some a := h.head
    have hat : a ≠ t := by
      intro he
      have := h.nodup
      simp [he] at this
    simp [hhead, hat]

/-- So is its tail. -/
theorem unlinkAfter_runTail (ht : s.runTail = some tail) :
    (s.unlinkAfter t previous tail).runTail = (pre ++ post).getLast? := by
  show some (if tail = t then previous else tail) = _
  have htail : (pre ++ t :: post).getLast? = some tail := h.tail.symm.trans ht
  cases post with
  | nil =>
    rw [List.getLast?_concat] at htail
    rw [if_pos (Option.some.inj htail).symm, List.append_nil]
    exact hp.symm
  | cons b post =>
    have hlast : (b :: post).getLast? = some tail := by simpa using htail
    have htt : tail ≠ t := by
      intro he
      have hmem : t ∈ b :: post := he ▸ List.mem_of_mem_getLast? hlast
      have hnd := (List.nodup_append.mp h.nodup).2.1
      exact (List.nodup_cons.mp hnd).1 hmem
    rw [if_neg htt, List.getLast?_append, hlast]
    rfl

/-- Taking `t` out changes the link of its predecessor. The store to the tail is
needed when `t` was the head or the tail, and changes nothing otherwise. -/
theorem unlinkAfter_thread (ht : s.runTail = some tail) (x : ThreadRef) :
    (s.unlinkAfter t previous tail).thread x =
      if x = t then (s.thread x).relink none false
      else if x = previous then (s.thread x).relink (s.thread t).runNext (s.thread x).onRunQueue
      else s.thread x := by
  have hpt : previous ≠ t := h.previous_ne hp
  obtain ⟨last, hlast⟩ : ∃ last, last = if tail = t then previous else tail := ⟨_, rfl⟩
  have hlt : last ≠ t := by
    rw [hlast]
    split_ifs with htt
    · exact hpt
    · exact htt
  -- the link that the last store writes is already there
  have hnext : update (fun x => (s.thread x).runNext) previous (s.thread t).runNext last =
      (s.unlinkAfter t previous tail).runHead := by
    have hring := h.ring.unlink h.nodup hp
    have hrt : (pre ++ post).getLast? = some last :=
      (unlinkAfter_runTail h hp ht).symm.trans (congrArg some hlast.symm)
    obtain ⟨l, hl⟩ := List.getLast?_eq_some_iff.mp hrt
    obtain ⟨a, ha⟩ : ∃ a, (l ++ [last]).head? = some a := by
      cases l <;> simp
    rw [hl] at hring
    rw [unlinkAfter_runHead h hp, hl, ha]
    exact hring.next_last ha
  have hthread : (s.unlinkAfter t previous tail).thread =
      update (update
        (update s.thread previous ((s.thread previous).setRunNext (s.thread t).runNext)) last
        ((update s.thread previous ((s.thread previous).setRunNext (s.thread t).runNext)
          last).setRunNext (s.unlinkAfter t previous tail).runHead)) t
        ((s.thread t).relink none false) := by
    simp only [unlinkAfter, modifyThread_thread, ← hlast, update_of_ne hlt.symm,
      update_of_ne hpt.symm, Thread.relink]
  rw [hthread, ← hnext]
  by_cases hx : x = t
  · simp [hx]
  by_cases hxl : x = last
  · subst hxl
    by_cases hxp : x = previous
    · subst hxp
      simp [hx, Thread.relink, Thread.setRunNext, Thread.setOnRunQueue]
    · simp [hx, hxp, Thread.setRunNext]
  · by_cases hxp : x = previous
    · subst hxp
      simp [hx, hxl, Thread.relink, Thread.setRunNext, Thread.setOnRunQueue]
    · simp [hx, hxl, hxp]

theorem QueueInv.unlinkAfter (ht : s.runTail = some tail) :
    QueueInv (s.unlinkAfter t previous tail) (pre ++ post) := by
  have htn : t ∉ pre ++ post := fun hm =>
    (List.nodup_cons.mp ((List.perm_middle.nodup_iff).mp h.nodup)).1 hm
  refine ⟨(List.nodup_cons.mp ((List.perm_middle.nodup_iff).mp h.nodup)).2, ?_,
    unlinkAfter_runHead h hp, unlinkAfter_runTail h hp ht, ?_, fun x => ?_⟩
  · refine (h.ring.unlink h.nodup hp).congr fun x hx => ?_
    have hxt : x ≠ t := fun he => htn (he ▸ hx)
    rw [unlinkAfter_thread h hp ht, if_neg hxt]
    by_cases hxp : x = previous
    · simp [hxp]
    · simp [hxp]
  · show s.runCount - 1 = _
    simp [h.count]
  · have hm := h.mem x
    rw [unlinkAfter_thread h hp ht]
    by_cases hx : x = t
    · simpa [hx] using htn
    · by_cases hxp : x = previous
      · subst hxp
        simpa [hx] using hm
      · simpa [hx, hxp] using hm

end UnlinkAfter

/-- `scheduler_unlink` takes a queued thread out and refuses every other one. -/
theorem schedulerUnlink_spec (h : QueueInv s l) :
    (t ∉ l ∧ s.schedulerUnlink t = (false, s)) ∨
    (t ∈ l ∧ ∃ s', s.schedulerUnlink t = (true, s') ∧ QueueInv s' (l.erase t) ∧ Relinked s s' l ∧
      (s'.thread t).runNext = none) := by
  by_cases hm : t ∈ l
  case neg =>
    have hoff : ¬ (s.thread t).onRunQueue := fun ho => hm ((h.mem t).mpr ho)
    refine .inl ⟨hm, ?_⟩
    unfold schedulerUnlink
    split
    · rfl
    · rw [if_pos (.inl hoff)]
  refine .inr ⟨hm, ?_⟩
  have hon : (s.thread t).onRunQueue = true := (h.mem t).mp hm
  have hnil : l ≠ [] := List.ne_nil_of_mem hm
  obtain ⟨tail, ht⟩ : ∃ tail, s.runTail = some tail :=
    Option.ne_none_iff_exists'.mp (mt h.runTail_eq_none.mp hnil)
  have hh : s.runHead ≠ none := mt h.runHead_eq_none.mp hnil
  have hc : s.runCount ≠ 0 := mt h.runCount_eq_zero.mp hnil
  -- seen from `t` the ring ends with its predecessor
  obtain ⟨pre, post, rfl⟩ := List.append_of_mem hm
  obtain ⟨previous, hp⟩ : ∃ q, (t :: (post ++ pre)).getLast? = some q := by
    exact ⟨_, List.getLast?_eq_some_getLast (by simp)⟩
  have hfind : s.findPrevious t = some previous := by
    rw [findPrevious, h.count, h.head]
    exact h.ring.walk_eq_find?.trans (h.ring.find?_predecessor h.nodup hp)
  have herase : (pre ++ t :: post).erase t = pre ++ post := by
    have htp : t ∉ pre := fun hin =>
      (List.nodup_append.mp h.nodup).2.2 _ hin _ List.mem_cons_self rfl
    rw [List.erase_append_right _ htp, List.erase_cons_head]
  rw [herase]
  -- the last thread clears head and tail, any other is bridged by its predecessor
  by_cases hone : s.runCount = 1
  · have hlen : pre = [] ∧ post = [] := by
      have := h.count.symm.trans hone
      simp at this
      exact ⟨List.length_eq_zero_iff.mp (by omega), List.length_eq_zero_iff.mp (by omega)⟩
    obtain ⟨rfl, rfl⟩ := hlen
    have hh' : s.runHead = some t := h.head
    have ht' : tail = t := Option.some.inj (ht.symm.trans h.tail)
    refine ⟨s.unlinkOnly t, ?_, ⟨by simp, trivial, rfl, rfl, ?_, fun x => ?_⟩,
      ⟨fun x => ?_, rfl⟩, ?_⟩
    · simp [schedulerUnlink, ht, hon, hh', hone, hfind, ht']
    · show s.runCount - 1 = _
      simp [hone]
    · have hx := h.mem x
      by_cases hxt : x = t
      · simp [unlinkOnly_thread, hxt]
      · simpa [unlinkOnly_thread, hxt] using hx
    · rw [unlinkOnly_thread]
      split_ifs with hxt
      · exact .inr ⟨by simp [hxt], _, _, rfl⟩
      · exact .inl rfl
    · simp [unlinkOnly_thread]
  · have hlast : (post ++ pre).getLast? = some previous := by
      cases hr : post ++ pre with
      | nil =>
        obtain ⟨rfl, rfl⟩ := List.append_eq_nil_iff.mp hr
        exact absurd h.count hone
      | cons b r => simpa [hr] using hp
    refine ⟨s.unlinkAfter t previous tail, ?_, h.unlinkAfter hlast ht, ⟨fun x => ?_, rfl⟩, ?_⟩
    · simp [schedulerUnlink, ht, hon, hh, hc, hfind, hone]
    · rw [unlinkAfter_thread h hlast ht]
      split_ifs with hx hx'
      · exact .inr ⟨by simp [hx], _, _, rfl⟩
      · have := List.mem_of_mem_getLast? hlast
        simp only [hx', List.mem_append] at this ⊢
        tauto
      · exact .inl rfl
    · simp [unlinkAfter_thread h hlast ht]

/-! ### Searching -/

/-- The search behind `current` finds the first eligible thread there. -/
theorem schedulerFindNextInterruptThread_eq {current : ThreadRef} {pre post : List ThreadRef}
    (h : QueueInv s (pre ++ current :: post)) : s.schedulerFindNextInterruptThread current =
      (post ++ pre).find? fun x => s.Eligible (some current) x := by
  have hrot : Ring (fun x => (s.thread x).runNext) (current :: (post ++ pre)) := h.ring.rotate
  have hlen := h.count_behind
  unfold schedulerFindNextInterruptThread
  by_cases htwo : s.runCount < 2
  · have hnil : post ++ pre = [] := List.length_eq_zero_iff.mp (by omega)
    rw [if_pos (.inr htwo), hnil]
    rfl
  · rw [if_neg (not_or.mpr ⟨h.runNext_ne_none (by simp), htwo⟩), hlen]
    exact hrot.walk_next_eq_find?

/-- It finds an eligible thread of the queue, if there is one. -/
theorem schedulerFindNextInterruptThread_spec {current : ThreadRef} (h : QueueInv s l)
    (hm : current ∈ l) :
    (∃ chosen, s.schedulerFindNextInterruptThread current = some chosen ∧ chosen ∈ l ∧
      s.Eligible (some current) chosen) ∨
    (s.schedulerFindNextInterruptThread current = none ∧
      ∀ x ∈ l, ¬ s.Eligible (some current) x) := by
  obtain ⟨pre, post, rfl⟩ := List.append_of_mem hm
  have hfind := schedulerFindNextInterruptThread_eq h
  cases hf : (post ++ pre).find? (fun x => s.Eligible (some current) x) with
  | some chosen =>
    have hel := List.find?_some hf
    exact .inl ⟨chosen, hfind.trans hf, (h.mem _).mpr (h.mem_behind.mpr (.inr (List.mem_of_find?_eq_some hf))),
      by simpa using hel⟩
  | none =>
    refine .inr ⟨hfind.trans hf, fun x hx hel => ?_⟩
    rcases h.mem_behind.mp ((h.mem x).mp hx) with rfl | hx
    · exact hel.1 rfl
    · exact absurd hel (by simpa using List.find?_eq_none.mp hf x hx)

end SchedState

end JcosKernel
