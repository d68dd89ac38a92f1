import JcosKernel.Lib.Run
import Mathlib.Algebra.Ring.Nat

/-!
# JcosKernel.Audio.Ring

`kernel/audio.c`: the ring of 32 descriptors that `audio_write_user` fills and the AC'97
controller plays.

The controller plays from CIV to LVI (`play`), halts when it has finished LVI, goes on behind it
when LVI is written and starts at CIV when RUN is set. A reset completes, drops what is queued and
sets CIV to zero; it is one step, since the controller stands still when RUN is clear. Otherwise the
driver takes one step for each access to a register that the controller shares with it, and the
stores to a buffer and its descriptor are one. `audio_init` has succeeded. What `user_memory_read`
does is an argument of the call.

`log` and `done` record the buffers announced since the last reset, and how many of them have been
played completely; nothing reads them.
-/

namespace JcosKernel

open Lib

/-- A call of `audio_write_user`. -/
structure AudioWrite where
  /-- `audio_authorized`. -/
  authorized : Bool
  samples : Nat
  byteCount : Nat
  /-- What `user_memory_read` copies before it returns. -/
  copied : List UInt8
  copiedAll : Bool
  length_copied : copiedAll = true → copied.length = byteCount

/-- The arguments are taken; `byte_count & 3` is the remainder. -/
def AudioWrite.Valid (w : AudioWrite) : Prop :=
  w.authorized ∧ w.samples ≠ 0 ∧ w.byteCount ≠ 0 ∧ w.byteCount ≤ 4096 ∧ w.byteCount % 4 = 0

instance AudioWrite.decValid (w : AudioWrite) : Decidable w.Valid := inferInstanceAs (Decidable (_ ∧ _))

/-- Where the driver stands. -/
inductive AudioPc
  | idle
  /-- Before CIV is read. -/
  | current (w : AudioWrite)
  /-- CIV was the next index; before SR is read. -/
  | status (w : AudioWrite)
  | filling (w : AudioWrite) (index : Nat)
  /-- Before LVI is written. -/
  | announcing (w : AudioWrite) (index : Nat)
  | announced (w : AudioWrite)

/-- The buffer of a call that is about to return true. -/
def AudioPc.inFlight : AudioPc → List (List UInt8)
  | announced w => [w.copied]
  | _ => []

structure AudioState where
  /-- `g_started`. -/
  started : Bool
  /-- `g_last_valid`. -/
  lastValid : Nat
  /-- `g_buffers`. -/
  buffers : Nat → List UInt8
  /-- The sample counts in `g_descriptors`. -/
  control : Nat → Nat
  civ : Nat
  lvi : Nat
  /-- DCH. -/
  halted : Bool
  running : Bool
  /-- How much of the buffer at CIV has been played. -/
  position : Nat
  pc : AudioPc
  log : List (List UInt8)
  done : Nat

inductive AudioEvent
  | quiet
  | played (b : UInt8)
  /-- `audio_write_user` returns true. -/
  | accepted (bytes : List UInt8)
  /-- `audio_write_user` returns false. -/
  | refused (w : AudioWrite)
  | reset

namespace AudioState

/-- After `audio_init`. -/
def init : AudioState where
  started := false
  lastValid := 0
  buffers _ := List.replicate 4096 0
  control _ := 0
  civ := 0
  lvi := 0
  halted := false
  running := false
  position := 0
  pc := .idle
  log := []
  done := 0

variable (s : AudioState)

/-- What the controller plays of a buffer: samples have two bytes. -/
def sound (i : Nat) : List UInt8 := (s.buffers i).take (2 * s.control i)

/-- The controller goes on by one byte, or to the next buffer. -/
def play : AudioEvent × AudioState :=
  if s.running = false ∨ s.halted then (.quiet, s)
  else match (s.sound s.civ)[s.position]? with
    | some b => (.played b, { s with position := s.position + 1 })
    | none =>
      (.quiet, { s with
        civ := if s.civ = s.lvi then s.civ else (s.civ + 1) % 32
        halted := decide (s.civ = s.lvi), position := 0, done := s.done + 1 })

/-- `(g_last_valid + 1) & (AC97_DESCRIPTOR_COUNT - 1)`. -/
def next : Nat := (s.lastValid + 1) % 32

def writeLvi (i : Nat) : AudioState :=
  if s.running ∧ s.halted then { s with lvi := i, civ := (s.civ + 1) % 32, halted := false }
  else { s with lvi := i }

def setRun : AudioState := if s.running then s else { s with running := true, halted := false }

/-- The driver goes on; when it is idle, `audio_write_user` is called, or
`audio_session_reset`. -/
def driver (call : Option AudioWrite) : AudioEvent × AudioState :=
  match s.pc with
  | .idle =>
    match call with
    | none =>
      (.reset, { s with
        running := false, civ := 0, lvi := 0, position := 0, log := [], done := 0, lastValid := 0
        started := false })
    | some w =>
      if ¬ w.Valid then (.refused w, s)
      else if s.started then (.quiet, { s with pc := .current w })
      else (.quiet, { s with pc := .filling w 0 })
  | .current w =>
    if s.next = s.civ then (.quiet, { s with pc := .status w })
    else (.quiet, { s with pc := .filling w s.next })
  | .status w =>
    if s.halted then (.quiet, { s with pc := .filling w s.next })
    else (.refused w, { s with pc := .idle })
  | .filling w i =>
    if w.copiedAll then
      (.quiet, { s with
        buffers := Function.update s.buffers i
          (w.copied ++ List.replicate (4096 - w.byteCount) 0)
        control := Function.update s.control i (w.byteCount / 2 % 2 ^ 16)
        pc := .announcing w i })
    else
      (.refused w, { s with
        buffers := Function.update s.buffers i
          (w.copied ++ (s.buffers i).drop w.copied.length)
        pc := .idle })
  | .announcing w i =>
    (.quiet, { s.writeLvi i with
      lastValid := i, log := s.log ++ [w.copied], pc := .announced w })
  | .announced w =>
    -- when RUN is set the controller still stands where SR was read: it is stopped or has halted
    (.accepted w.copied,
      if s.started = false ∨ s.halted then { s.setRun with started := true, pc := .idle }
      else { s with pc := .idle })

/-- The buffers not played completely are in the ring as they were submitted. -/
def Intact : Prop := ∀ k x, s.done ≤ k → s.log[k]? = some x → s.sound (k % 32) = x

end AudioState

/-- Whose turn it is. -/
inductive AudioTurn
  | controller
  | driver (call : Option AudioWrite)

def AudioTurn.exec : AudioTurn → AudioState → AudioEvent × AudioState
  | controller => AudioState.play
  | driver call => (·.driver call)

def AudioStep (s : AudioState) (e : AudioEvent) (s' : AudioState) : Prop :=
  ∃ turn : AudioTurn, turn.exec s = (e, s')

/-! ### What was accepted and what was played since the last reset -/

namespace AudioEvent

def accept (log : List (List UInt8)) : AudioEvent → List (List UInt8)
  | accepted bytes => log ++ [bytes]
  | reset => []
  | _ => log

def hear (heard : List UInt8) : AudioEvent → List UInt8
  | played b => heard ++ [b]
  | reset => []
  | _ => heard

end AudioEvent

def acceptedBuffers (es : List AudioEvent) : List (List UInt8) := es.foldl AudioEvent.accept []

def playedBytes (es : List AudioEvent) : List UInt8 := es.foldl AudioEvent.hear []

variable {es : List AudioEvent} {e : AudioEvent} {s : AudioState} {pc : AudioPc}

@[simp] theorem acceptedBuffers_concat :
    acceptedBuffers (es ++ [e]) = e.accept (acceptedBuffers es) := List.foldl_append ..

@[simp] theorem playedBytes_concat : playedBytes (es ++ [e]) = e.hear (playedBytes es) :=
  List.foldl_append ..

/-! ### The invariant -/

/-- What the driver relies on where it stands. -/
def AudioPc.Ok (s : AudioState) : AudioPc → Prop
  | current w => w.Valid ∧ s.running
  | status w => w.Valid ∧ s.running
  | filling w i => w.Valid ∧ i = s.log.length % 32 ∧ s.log.length < s.done + 32
  | announcing w i => s.sound i = w.copied ∧ i = s.log.length % 32 ∧ s.log.length < s.done + 32
  | _ => True

/-- The controller does not disturb the driver. -/
theorem AudioPc.Ok.advance (hok : pc.Ok s) (civ position n : Nat) (halted : Bool) :
    pc.Ok { s with civ, halted, position, done := s.done + n } := by
  cases pc with
  | filling w i | announcing w i =>
    exact ⟨hok.1, hok.2.1, Nat.lt_of_lt_of_le hok.2.2 (by dsimp only; omega)⟩
  | _ => exact hok

/-- What was announced is what calls returned true for, and what was played is a beginning of
it. -/
structure AudioTally (es : List AudioEvent) (s : AudioState) : Prop where
  accepted : acceptedBuffers es ++ s.pc.inFlight = s.log
  played : playedBytes es =
    (s.log.take s.done).flatten ++ (s.log[s.done]?.getD []).take s.position

/-- The registers and the ring fit the record of what was announced and played. -/
structure AudioInv (es : List AudioEvent) (s : AudioState) : Prop extends AudioTally es s where
  intact : s.Intact
  done_le : s.done ≤ s.log.length
  room : s.log.length ≤ s.done + 32
  rest : s.done = s.log.length → s.position = 0
  lvi : s.lvi = s.lastValid
  last : s.log ≠ [] → s.lastValid = (s.log.length + 31) % 32
  halted : s.running → s.halted → s.done = s.log.length ∧ s.civ = s.lvi
  playing : s.running → s.halted = false → s.done < s.log.length ∧ s.civ = s.done % 32
  running : s.running → s.log ≠ []
  stopped : s.running = false → s.civ = 0 ∧ s.done = 0 ∧ s.log = s.pc.inFlight
  started : s.started = s.running
  at_pc : s.pc.Ok s

theorem AudioInv.init : AudioInv [] .init where
  accepted := rfl
  played := rfl
  intact := nofun
  done_le := Nat.le_refl _
  room := Nat.zero_le _
  rest _ := rfl
  lvi := rfl
  last hn := absurd rfl hn
  halted := nofun
  playing := nofun
  running := nofun
  stopped _ := ⟨rfl, rfl, rfl⟩
  started := rfl
  at_pc := trivial

namespace AudioInv

variable (h : AudioInv es s)
include h

/-- The driver looks, or gives up; it may have stored to the buffer behind the last one that was
announced. -/
theorem goto (pc' : AudioPc) {buffers : Nat → List UInt8} {control : Nat → Nat} (hpc : s.pc = pc)
    (hfl : pc'.inFlight = pc.inFlight) (hok : pc'.Ok { s with buffers, control })
    (hs : ∀ j, (j = s.log.length % 32 → s.done + 32 ≤ s.log.length) →
      (buffers j).take (2 * control j) = s.sound j)
    (he : e = .quiet ∨ ∃ w, e = .refused w) :
    AudioInv (es ++ [e]) { s with buffers, control, pc := pc' } := by
  subst hpc
  exact { h with
    accepted := by obtain rfl | ⟨w, rfl⟩ := he <;> simpa [AudioEvent.accept, hfl] using h.accepted
    played := by obtain rfl | ⟨w, rfl⟩ := he <;> simpa [AudioEvent.hear] using h.played
    intact := fun k x hk hx => by
      have hlt := (List.getElem?_eq_some_iff.mp hx).1
      dsimp only at hk hlt
      exact (hs _ fun hj => by omega).trans (h.intact k x hk hx)
    stopped := hfl ▸ h.stopped
    at_pc := by cases pc' <;> exact hok }

theorem play : AudioInv (es ++ [s.play.1]) s.play.2 := by
  unfold AudioState.play
  by_cases hstop : s.running = false ∨ s.halted
  · rw [if_pos hstop]
    exact h.goto s.pc rfl rfl h.at_pc (fun _ _ => rfl) (.inl rfl)
  rw [if_neg hstop]
  simp only [not_or, Bool.not_eq_false, Bool.not_eq_true] at hstop
  obtain ⟨hlt, hciv⟩ := h.playing hstop.1 hstop.2
  have hx := List.getElem?_eq_getElem hlt
  rw [hciv, h.intact _ _ (Nat.le_refl _) hx, ← hciv]
  have hplayed := h.played
  rw [hx, Option.getD_some] at hplayed
  split
  · next b hb =>
    exact { h with
      accepted := by simpa [AudioEvent.accept] using h.accepted
      played := by simp [AudioEvent.hear, hplayed, hx, List.take_add_one, hb]
      rest := fun he => absurd he (Nat.ne_of_lt hlt)
      at_pc := h.at_pc.advance _ _ 0 _ }
  · next hb =>
    -- at its end the next buffer begins, or the engine halts behind LVI
    have hall : s.log[s.done].take s.position = s.log[s.done] :=
      List.take_of_length_le (List.getElem?_eq_none_iff.mp hb)
    have hlast := h.last (List.ne_nil_of_length_pos (by omega))
    have hroom := h.room
    have hlvi := h.lvi
    exact { h with
      accepted := by simpa [AudioEvent.accept] using h.accepted
      played := by
        simp only [playedBytes_concat, AudioEvent.hear, List.take_zero, List.append_nil]
        rw [hplayed, hall, List.take_succ_eq_append_getElem hlt, List.flatten_append,
          List.flatten_singleton]
      intact := fun k x hk => h.intact k x (Nat.le_of_succ_le hk)
      done_le := hlt
      room := Nat.le_succ_of_le hroom
      rest := fun _ => rfl
      halted := fun _ hh => by
        have hh := of_decide_eq_true hh
        dsimp only
        rw [if_pos hh]
        exact ⟨by omega, hh⟩
      playing := fun _ hh => by
        have hh := of_decide_eq_false hh
        dsimp only
        rw [if_neg hh]
        omega
      stopped := fun hs => absurd hs (by simp [hstop.1])
      at_pc := h.at_pc.advance _ _ 1 _ }

/-- The controller is told of one more buffer. -/
theorem announce {w : AudioWrite} {i : Nat} (hpc : s.pc = .announcing w i) :
    AudioInv (es ++ [.quiet])
      { s.writeLvi i with lastValid := i, log := s.log ++ [w.copied], pc := .announced w } := by
  obtain ⟨hsound, hi, hlt⟩ : (AudioPc.announcing w i).Ok s := hpc ▸ h.at_pc
  have haccepted := h.accepted
  have hstop := h.stopped
  rw [hpc] at haccepted hstop
  -- whether it had halted or was still playing, it now plays the first buffer that is left
  obtain ⟨civ, halted, heq, hplaying, hciv⟩ : ∃ civ halted,
      s.writeLvi i = { s with lvi := i, civ, halted } ∧
      (s.running → halted = false ∧ civ = s.done % 32) ∧ (s.running = false → civ = s.civ) := by
    unfold AudioState.writeLvi
    split_ifs with hh
    · obtain ⟨hd, hc⟩ := h.halted hh.1 hh.2
      have hlast := h.last (h.running hh.1)
      have hlvi := h.lvi
      exact ⟨_, _, rfl, fun _ => ⟨rfl, by omega⟩, by simp [hh.1]⟩
    · have hh (hr : s.running) : s.halted = false := by simpa [hr] using hh
      exact ⟨_, _, rfl, fun hr => ⟨hh hr, (h.playing hr (hh hr)).2⟩, fun _ => rfl⟩
  rw [heq]
  exact { h with
    accepted := by simpa [AudioEvent.accept, AudioPc.inFlight] using haccepted
    played := by
      simp only [playedBytes_concat, AudioEvent.hear, h.played, List.take_append_of_le_length h.done_le]
      rcases Nat.lt_or_eq_of_le h.done_le with hd | hd
      · rw [List.getElem?_append_left hd]
      · simp [h.rest hd]
    intact := fun k x hk hx => by
      rcases Nat.lt_or_ge k s.log.length with hn | hn
      · exact h.intact k x hk (by rwa [List.getElem?_append_left hn] at hx)
      · obtain ⟨rfl, rfl⟩ : k = s.log.length ∧ w.copied = x := by grind
        exact hi ▸ hsound
    done_le := by simpa using Nat.le_succ_of_le h.done_le
    room := by simpa using Nat.le_of_lt_succ hlt
    rest := fun hd => absurd hd (by have := h.done_le; simp; omega)
    lvi := rfl
    last := fun _ => by simp; omega
    halted := fun hr hh => by simp [(hplaying hr).1] at hh
    playing := fun hr _ => ⟨by have := h.done_le; simp; omega, (hplaying hr).2⟩
    running := fun _ => by simp
    stopped := fun hs => by
      obtain ⟨hc, hd, hl⟩ := hstop hs
      exact ⟨(hciv hs).trans hc, hd, by simp [hl, AudioPc.inFlight]⟩
    at_pc := trivial }

theorem driver (call : Option AudioWrite) : AudioInv (es ++ [(s.driver call).1]) (s.driver call).2 := by
  have haccepted := h.accepted
  have hstop := h.stopped
  have hok := h.at_pc
  unfold AudioState.driver
  generalize hpc : s.pc = pc at haccepted hstop hok ⊢
  cases pc with
  | idle =>
    cases call with
    | none =>
      exact { h with
        accepted := by simp [AudioEvent.accept, AudioPc.inFlight]
        played := by simp [AudioEvent.hear]
        intact := nofun
        done_le := Nat.le_refl _
        room := Nat.zero_le _
        rest := fun _ => rfl
        lvi := rfl
        last := fun hn => absurd rfl hn
        halted := nofun
        playing := nofun
        running := nofun
        stopped := fun _ => ⟨rfl, rfl, rfl⟩
        started := rfl
        at_pc := trivial }
    | some w =>
      dsimp only
      split_ifs with hw hs
      · exact h.goto (.current w) hpc rfl ⟨hw, h.started.symm.trans hs⟩ (fun _ _ => rfl) (.inl rfl)
      · obtain ⟨-, hd, hl⟩ := hstop (h.started.symm.trans (by simpa using hs))
        exact h.goto (.filling w 0) hpc rfl ⟨hw, by rw [hl]; rfl, by rw [hl, hd]; decide⟩
          (fun _ _ => rfl) (.inl rfl)
      · exact h.goto s.pc rfl rfl h.at_pc (fun _ _ => rfl) (.inr ⟨w, rfl⟩)
  | current w =>
    have hlast := h.last (h.running hok.2)
    -- CIV names the buffer that is played, or the last one after a halt
    have hciv : s.done = s.log.length ∧ s.civ = s.lvi ∨
        s.done < s.log.length ∧ s.civ = s.done % 32 := by
      cases hh : s.halted with
      | true => exact .inl (h.halted hok.2 hh)
      | false => exact .inr (h.playing hok.2 hh)
    have hroom := h.room
    have hlvi := h.lvi
    dsimp only
    split_ifs with hnext <;> rw [AudioState.next] at hnext
    · exact h.goto (.status w) hpc rfl hok (fun _ _ => rfl) (.inl rfl)
    · have hfree : s.next = s.log.length % 32 ∧ s.log.length < s.done + 32 := by
        rw [AudioState.next]
        omega
      exact h.goto (.filling w _) hpc rfl ⟨hok.1, hfree⟩ (fun _ _ => rfl) (.inl rfl)
  | status w =>
    dsimp only
    split_ifs with hhalt
    · have hlast := h.last (h.running hok.2)
      obtain ⟨hd, -⟩ := h.halted hok.2 hhalt
      have hfree : s.next = s.log.length % 32 ∧ s.log.length < s.done + 32 := by
        rw [AudioState.next]
        omega
      exact h.goto (.filling w _) hpc rfl ⟨hok.1, hfree⟩ (fun _ _ => rfl) (.inl rfl)
    · exact h.goto .idle hpc rfl trivial (fun _ _ => rfl) (.inr ⟨w, rfl⟩)
  | filling w i =>
    obtain ⟨⟨-, -, -, hmax, hmod⟩, rfl, hlt⟩ := hok
    dsimp only
    split_ifs with hcopied
    · refine h.goto (.announcing w _) hpc rfl ⟨?_, rfl, hlt⟩ (fun j hj => ?_) (.inl rfl)
      · have hlen := w.length_copied hcopied
        have htwo : 2 * (w.byteCount / 2 % 2 ^ 16) = w.copied.length := by omega
        simp only [AudioState.sound, Function.update_self, htwo]
        exact List.take_left
      · have hj : j ≠ s.log.length % 32 := by omega
        simp [AudioState.sound, hj]
    · refine h.goto .idle hpc rfl trivial (fun j hj => ?_) (.inr ⟨w, rfl⟩)
      have hj : j ≠ s.log.length % 32 := by omega
      simp [AudioState.sound, hj]
  | announcing w i => exact h.announce hpc
  | announced w =>
    -- RUN starts a stopped engine and leaves a running one as it is
    have heq : (if s.started = false ∨ s.halted then { s.setRun with started := true, pc := .idle }
        else { s with pc := .idle } : AudioState) =
        { s with running := true, started := true, halted := s.running && s.halted, pc := .idle } := by
      have hstarted := h.started
      unfold AudioState.setRun
      grind
    rw [heq]
    exact { h with
      accepted := by simpa [AudioEvent.accept, AudioPc.inFlight] using haccepted
      played := by simpa [AudioEvent.hear] using h.played
      halted := fun _ hh => by
        obtain ⟨hr, hh⟩ := Bool.and_eq_true_iff.mp hh
        exact h.halted hr hh
      playing := fun _ hh => by
        cases hr : s.running with
        | true => exact h.playing hr (by simpa [hr] using hh)
        | false =>
          obtain ⟨hc, hd, hl⟩ := hstop hr
          simp [hc, hd, hl, AudioPc.inFlight]
      running := fun _ => by simp [← haccepted, AudioPc.inFlight]
      stopped := nofun
      started := rfl
      at_pc := trivial }

/-- What is left is being played. -/
theorem live (hpc : s.pc = .idle) (hd : s.done < s.log.length) : s.running ∧ s.halted = false := by
  cases hr : s.running with
  | true => exact ⟨rfl, by simpa using fun hh => Nat.ne_of_lt hd (h.halted hr hh).1⟩
  | false => simp [(h.stopped hr).2.2, hpc, AudioPc.inFlight] at hd

end AudioInv

/-! ### Refusals -/

theorem AudioInv.of_run (hrun : Run AudioStep .init es s) : AudioInv es s := by
  refine hrun.history AudioInv.init fun es s e s' h ⟨turn, hturn⟩ => ?_
  obtain ⟨rfl, rfl⟩ := Prod.mk.inj hturn
  cases turn with
  | controller => exact h.play
  | driver call => exact h.driver call

end JcosKernel
