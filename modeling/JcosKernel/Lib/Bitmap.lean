import Mathlib.Data.BitVec
import Mathlib.Data.Finset.Card
import Mathlib.Data.Finset.Range
import Mathlib.Logic.Function.Basic
import Mathlib.Tactic.Tauto

/-!
# JcosKernel.Lib.Bitmap

**Bitmaps in bytes.** Bit `i` is bit `i % 8` of byte `i / 8`; a set bit is a used
element. `used_set` and `used_clear` carry the shift-and-mask operations over to bits.

`scan` looks for the next clear bit with wrap-around, `findRun` for the first run of clear
bits of a given length.
-/

namespace JcosKernel.Lib

open Function

/-- Bytes of a bitmap. -/
abbrev Bitmap := Nat → BitVec 8

namespace Bitmap

variable (b : Bitmap) (i : Nat)

/-- The mask of bit `i` in its byte. -/
def mask : BitVec 8 := 1#8 <<< (i % 8)

def used : Bool := b (i / 8) &&& mask i != 0#8

def set : Bitmap := update b (i / 8) (b (i / 8) ||| mask i)

def clear : Bitmap := update b (i / 8) (b (i / 8) &&& ~~~ mask i)

/-- Fill the first `n` bytes with ones. -/
def fill (n : Nat) : Bitmap := fun k => if k < n then 0xFF#8 else b k

/-- Set `n` bits from `i` on. -/
def setRange : Nat → Bitmap
  | 0 => b
  | n + 1 => (setRange n).set (i + n)

/-- Clear `n` bits from `i` on. -/
def clearRange : Nat → Bitmap
  | 0 => b
  | n + 1 => (clearRange n).clear (i + n)

/-- The number of clear bits below `n`. -/
def freeCount (n : Nat) : Nat := ((Finset.range n).filter fun i => b.used i = false).card

variable {count fuel index k length n start : Nat}

section Bits

variable {b i} {j : Nat}

theorem getLsbD_mask (hk : k < 8) : (mask i).getLsbD k = decide (k = i % 8) := by
  have hi : i % 8 < 8 := Nat.mod_lt _ (by decide)
  rw [mask, BitVec.getLsbD_shiftLeft]
  by_cases h : k = i % 8
  · subst h
    simp [hi]
  · simp only [h]
    simp
    omega

theorem used_eq_getLsbD : b.used i = (b (i / 8)).getLsbD (i % 8) := by
  have hi : i % 8 < 8 := Nat.mod_lt _ (by decide)
  rw [used, Bool.eq_iff_iff, bne_iff_ne]
  constructor
  · intro hne
    by_contra hf
    refine hne (BitVec.eq_of_getLsbD_eq fun k hk => ?_)
    rw [BitVec.getLsbD_and, getLsbD_mask hk]
    by_cases h : k = i % 8
    · subst h
      simpa using hf
    · simp [h]
  · intro ht he
    have := congrArg (fun v => v.getLsbD (i % 8)) he
    simp [getLsbD_mask hi, ht] at this

theorem eq_of_div_mod (hd : j / 8 = i / 8) (hm : j % 8 = i % 8) : j = i := by omega

@[simp] theorem used_set : (b.set i).used j = (decide (j = i) || b.used j) := by
  have hj : j % 8 < 8 := Nat.mod_lt _ (by decide)
  rw [used_eq_getLsbD, used_eq_getLsbD, set]
  by_cases hd : j / 8 = i / 8
  · rw [hd, update_self, BitVec.getLsbD_or, getLsbD_mask hj, Bool.or_comm]
    congr 1
    exact decide_eq_decide.mpr ⟨fun hm => eq_of_div_mod hd hm, fun he => he ▸ rfl⟩
  · rw [update_of_ne hd]
    have hne : j ≠ i := fun he => hd (he ▸ rfl)
    simp [hne]

@[simp] theorem used_clear : (b.clear i).used j = (!decide (j = i) && b.used j) := by
  have hj : j % 8 < 8 := Nat.mod_lt _ (by decide)
  rw [used_eq_getLsbD, used_eq_getLsbD, clear]
  by_cases hd : j / 8 = i / 8
  · have hiff : decide (j % 8 = i % 8) = decide (j = i) :=
      decide_eq_decide.mpr ⟨fun hm => eq_of_div_mod hd hm, fun he => he ▸ rfl⟩
    rw [hd, update_self, BitVec.getLsbD_and, BitVec.getLsbD_not, getLsbD_mask hj, hiff,
      Bool.and_comm]
    simp [hj]
  · rw [update_of_ne hd]
    have hne : j ≠ i := fun he => hd (he ▸ rfl)
    simp [hne]

theorem used_fill (h : i / 8 < n) : (b.fill n).used i = true := by
  have hi : i % 8 < 8 := Nat.mod_lt _ (by decide)
  rw [used_eq_getLsbD, fill, if_pos h]
  have : (0xFF#8 : BitVec 8) = BitVec.allOnes 8 := by decide
  rw [this, BitVec.getLsbD_allOnes]
  simpa using hi

@[simp] theorem used_setRange :
    (b.setRange i n).used j = (decide (i ≤ j ∧ j < i + n) || b.used j) := by
  induction n with
  | zero =>
    have : ¬ (i ≤ j ∧ j < i + 0) := by omega
    rw [setRange, decide_eq_false this, Bool.false_or]
  | succ n ih =>
    rw [setRange, used_set, ih, ← Bool.or_assoc]
    congr 1
    rw [← Bool.decide_or]
    exact decide_eq_decide.mpr (by omega)

@[simp] theorem used_clearRange :
    (b.clearRange i n).used j = (!decide (i ≤ j ∧ j < i + n) && b.used j) := by
  induction n with
  | zero =>
    have : ¬ (i ≤ j ∧ j < i + 0) := by omega
    rw [clearRange, decide_eq_false this, Bool.not_false, Bool.true_and]
  | succ n ih =>
    rw [clearRange, used_clear, ih, ← Bool.and_assoc]
    congr 1
    rw [← Bool.not_or, ← Bool.decide_or]
    congr 1
    exact decide_eq_decide.mpr (by omega)

end Bits

/-! ### Counting -/

section Count

variable {b i} {c : Nat}

theorem freeCount_eq_zero : b.freeCount n = 0 ↔ ∀ i < n, b.used i = true := by
  rw [freeCount, Finset.card_eq_zero]
  simp

theorem freeCount_set (hi : i < n) (hf : b.used i = false) :
    (b.set i).freeCount n + 1 = b.freeCount n := by
  have hmem : i ∈ (Finset.range n).filter fun i => b.used i = false := by simp [hi, hf]
  have herase : (Finset.range n).filter (fun j => (b.set i).used j = false) =
      ((Finset.range n).filter fun j => b.used j = false).erase i := by
    ext j
    simp only [Finset.mem_filter, Finset.mem_erase, used_set, Bool.or_eq_false_iff,
      decide_eq_false_iff_not]
    tauto
  rw [freeCount, freeCount, herase, Finset.card_erase_add_one hmem]

theorem freeCount_setRange (hc : i + c ≤ n)
    (hf : ∀ j, i ≤ j → j < i + c → b.used j = false) :
    (b.setRange i c).freeCount n + c = b.freeCount n := by
  induction c with
  | zero => rfl
  | succ c ih =>
    have hprev := ih (by omega) fun j h1 h2 => hf j h1 (by omega)
    have hlast : (b.setRange i c).used (i + c) = false := by
      rw [used_setRange, hf (i + c) (by omega) (by omega), Bool.or_false, decide_eq_false]
      omega
    have hstep := freeCount_set (n := n) (by omega) hlast
    rw [setRange]
    omega

/-- Setting the bits again undoes the clearing. -/
theorem freeCount_clearRange (hc : i + c ≤ n)
    (hu : ∀ j, i ≤ j → j < i + c → b.used j = true) :
    (b.clearRange i c).freeCount n = b.freeCount n + c := by
  have hback : ∀ j, ((b.clearRange i c).setRange i c).used j = b.used j := fun j => by
    by_cases hj : i ≤ j ∧ j < i + c
    · simp [hj, hu j hj.1 hj.2]
    · simp [hj]
  have hset : ((b.clearRange i c).setRange i c).freeCount n + c = (b.clearRange i c).freeCount n :=
    freeCount_setRange hc fun j h1 h2 => by simp [h1, h2]
  rw [← hset, freeCount, freeCount]
  simp only [hback]

end Count

/-! ### Searching -/

/-- The next clear bit from `index` on, of `size` bits with wrap-around, among the
next `fuel` ones. -/
def scan (size : Nat) : Nat → Nat → Option Nat
  | 0, _ => none
  | fuel + 1, index =>
    if b.used index then scan size fuel (if size ≤ index + 1 then 0 else index + 1) else some index

/-- `count` bits from `start` on are clear. -/
def FreeRun (start count : Nat) : Prop := ∀ j, start ≤ j → j < start + count → b.used j = false

/-- Go through `fuel` bits from `index` on, with a run of `length` clear bits from
`start` on just behind, until a run of `count` is complete. -/
def findRun (count : Nat) : Nat → Nat → Nat → Nat → Option Nat
  | 0, _, _, _ => none
  | fuel + 1, index, start, length =>
    if b.used index then findRun count fuel (index + 1) start 0
    else
      let start := if length = 0 then index else start
      if length + 1 < count then findRun count fuel (index + 1) start (length + 1) else some start

section Search

variable {b} {size : Nat}

/-- `scan` returns a clear bit, or the bits it looked at are used. -/
theorem scan_spec (hi : index < size) :
    (∃ k < size, b.scan size fuel index = some k ∧ b.used k = false) ∨
      b.scan size fuel index = none ∧ ∀ k < fuel, b.used ((index + k) % size) = true := by
  induction fuel generalizing index with
  | zero => exact .inr ⟨rfl, fun k hk => absurd hk (Nat.not_lt_zero k)⟩
  | succ fuel ih =>
    have hnext : (if size ≤ index + 1 then 0 else index + 1) = (index + 1) % size := by
      split_ifs with hw
      · rw [show index + 1 = size by omega, Nat.mod_self]
      · rw [Nat.mod_eq_of_lt (by omega)]
    rw [scan, hnext]
    split_ifs with hu
    · refine (ih (Nat.mod_lt _ (by omega))).imp id fun ⟨hr, hall⟩ => ⟨hr, fun k hk => ?_⟩
      cases k with
      | zero => rwa [Nat.add_zero, Nat.mod_eq_of_lt hi]
      | succ k =>
        have hk := hall k (by omega)
        rwa [Nat.mod_add_mod, Nat.add_right_comm] at hk
    · exact .inl ⟨index, hi, rfl, by simpa using hu⟩

/-- Searching all `size` bits fails only if all of them are used. -/
theorem scan_all (hi : index < size) :
    (∃ k < size, b.scan size size index = some k ∧ b.used k = false) ∨
      b.scan size size index = none ∧ ∀ k < size, b.used k = true := by
  refine (scan_spec hi).imp id fun ⟨hr, hall⟩ => ⟨hr, fun k hk => ?_⟩
  by_cases hle : index ≤ k
  · have := hall (k - index) (by omega)
    rwa [Nat.add_sub_cancel' hle, Nat.mod_eq_of_lt hk] at this
  · have := hall (k + size - index) (by omega)
    rwa [Nat.add_sub_cancel' (by omega), Nat.add_mod_right, Nat.mod_eq_of_lt hk] at this

/-- What `findRun` knows at `index`: the `length` clear bits just behind it are all
there are, and no complete run lies before it. -/
structure RunInv (b : Bitmap) (count index start length : Nat) : Prop where
  short : length < count
  fits : length ≤ index
  start_eq : length ≠ 0 → start = index - length
  clear : ∀ j, index - length ≤ j → j < index → b.used j = false
  maximal : ∀ a ≤ index, (∀ j, a ≤ j → j < index → b.used j = false) → index - length ≤ a
  none_before : ∀ a, a + count ≤ index → ¬ b.FreeRun a count

section

variable (h : RunInv b count index start length)
include h

theorem RunInv.used (hu : b.used index = true) : RunInv b count (index + 1) start 0 where
  short := by have := h.short; omega
  fits := by omega
  start_eq hn := absurd rfl hn
  clear j h1 h2 := by omega
  maximal a ha hc := by
    by_contra hlt
    have := hc index (by omega) (by omega)
    rw [hu] at this
    cases this
  none_before a ha hr := by
    by_cases hle : a + count ≤ index
    · exact h.none_before a hle hr
    · have hpos := h.short
      have := hr index (by omega) (by omega)
      rw [hu] at this
      cases this

theorem RunInv.free (hf : b.used index = false) (hlt : length + 1 < count) :
    RunInv b count (index + 1) (if length = 0 then index else start) (length + 1) where
  short := hlt
  fits := by have := h.fits; omega
  start_eq _ := by
    split_ifs with h0
    · omega
    · rw [h.start_eq h0]
      omega
  clear j h1 h2 := by
    by_cases hj : j = index
    · exact hj ▸ hf
    · exact h.clear j (by omega) (by omega)
  maximal a ha hc := by
    by_cases hle : a ≤ index
    · have := h.maximal a hle fun j h1 h2 => hc j h1 (by omega)
      omega
    · omega
  none_before a ha hr := by
    by_cases hle : a + count ≤ index
    · exact h.none_before a hle hr
    · have := h.maximal a (by omega) fun j h1 h2 => hr j h1 (by omega)
      omega

/-- `findRun` returns the first run, if there is one. -/
theorem findRun_spec :
    (∃ a, b.findRun count fuel index start length = some a ∧ a + count ≤ index + fuel ∧
      b.FreeRun a count ∧ ∀ a' < a, ¬ b.FreeRun a' count) ∨
    (b.findRun count fuel index start length = none ∧
      ∀ a, a + count ≤ index + fuel → ¬ b.FreeRun a count) := by
  induction fuel generalizing index start length with
  | zero => exact .inr ⟨rfl, h.none_before⟩
  | succ fuel ih =>
    have hend : index + (fuel + 1) = index + 1 + fuel := by omega
    rw [findRun, hend]
    by_cases hu : b.used index = true
    · rw [if_pos hu]
      exact ih (h.used hu)
    · rw [if_neg hu]
      have hf : b.used index = false := by simpa using hu
      by_cases hlt : length + 1 < count
      · rw [if_pos hlt]
        exact ih (h.free hf hlt)
      · rw [if_neg hlt]
        have hshort := h.short
        have hfits := h.fits
        have hstart : (if length = 0 then index else start) = index + 1 - count := by
          split_ifs with h0
          · omega
          · rw [h.start_eq h0]
            omega
        refine .inl ⟨_, rfl, by omega, fun j h1 h2 => ?_, fun a ha => ?_⟩
        · by_cases hj : j = index
          · exact hj ▸ hf
          · exact h.clear j (by omega) (by omega)
        · exact h.none_before a (by omega)

end

theorem runInv_start (h : 0 < count) : RunInv b count 0 0 0 where
  short := h
  fits := le_rfl
  start_eq hn := absurd rfl hn
  clear j h1 h2 := by omega
  maximal a ha _ := by omega
  none_before a ha := by omega

end Search

end Bitmap

end JcosKernel.Lib
