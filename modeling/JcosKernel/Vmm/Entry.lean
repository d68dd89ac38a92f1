import JcosKernel.Vmm.Model

/-!
# JcosKernel.Vmm.Entry

What can be read back from a page-table entry.

An entry is the address of a frame, which lies within `pteAddressMask`, and bits outside of
that mask. A leaf written for `frame` and `flags` reads back as exactly these
(`entryFrame_leaf`, `leafFlags_leaf`), provided the tables above it permit everything
(`effectiveFlags_eq`).
-/

namespace JcosKernel

open Lib

/-! ### Frames -/

variable {bits entry : Pte} {frame : Nat} {flags : VmFlags}

theorem frameToPhys_eq (h : frameToPhys frame ≠ 0) :
    frameToPhys frame = frame * 4096 ∧ frame ≤ max64 / 4096 := by
  unfold frameToPhys at h ⊢
  split_ifs at h ⊢ with h1 h2
  · exact absurd rfl h
  · exact absurd rfl h
  · exact ⟨rfl, Nat.le_of_not_lt h2⟩

theorem framePte_toNat (h : frameToPhys frame ≠ 0) : (framePte frame).toNat = frame * 4096 := by
  obtain ⟨heq, hle⟩ := frameToPhys_eq h
  rw [framePte, BitVec.toNat_ofNat, heq, Nat.mod_eq_of_lt]
  simp only [max64] at hle
  omega

theorem physToFrame_mul (frame : Nat) : physToFrame (frame * 4096) = frame := by
  unfold physToFrame frameSize
  rw [if_neg (by omega), Nat.mul_div_cancel _ (by decide)]

/-- The frame of an entry that was made of it. -/
theorem entryFrame_framePte (h : ValidMappingFrame frame) (hb : bits &&& pteAddressMask = 0) :
    entryFrame (framePte frame ||| bits) = frame := by
  rw [entryFrame, h.2.2.or_and hb, framePte_toNat h.2.1, physToFrame_mul]

theorem entryFrame_or (hb : bits &&& pteAddressMask = 0) :
    entryFrame (entry ||| bits) = entryFrame entry := by
  rw [entryFrame, or_and_of_and_eq_zero hb, entryFrame]

theorem entryFrame_and_not (hb : bits &&& pteAddressMask = 0) :
    entryFrame (entry &&& ~~~bits) = entryFrame entry := by
  rw [entryFrame, and_not_and_of_and_eq_zero hb, entryFrame]

/-- The address field is aligned, so the frame of an entry is a frame number. -/
theorem entryFrame_lt (entry : Pte) : entryFrame entry < 2 ^ 40 := by
  have hmod : (entry &&& pteAddressMask).toNat % 4096 = 0 := by
    have hlow : (entry &&& pteAddressMask) &&& 0xFFF = 0 := by
      rw [BitVec.and_assoc, show pteAddressMask &&& 0xFFF = 0 by decide]
      simp
    have hnat := congrArg BitVec.toNat hlow
    rw [BitVec.toNat_and] at hnat
    have hmask : (0xFFF : BitVec 64).toNat = 2 ^ 12 - 1 := by decide
    rw [hmask, Nat.and_two_pow_sub_one_eq_mod] at hnat
    simpa using hnat
  have hle : (entry &&& pteAddressMask).toNat ≤ pteAddressMask.toNat := by
    exact Nat.and_le_right
  have hmask : pteAddressMask.toNat < 2 ^ 52 := by decide
  unfold entryFrame physToFrame frameSize
  rw [if_neg (not_not_intro hmod)]
  omega

theorem entryFrame_ne_invalid (entry : Pte) : entryFrame entry ≠ frameInvalid := by
  have := entryFrame_lt entry
  simp only [frameInvalid, max64]
  omega

/-! ### Entries that lead to tables -/

/-- The table that an entry leads to. -/
def tableChild (entry : Pte) : Option Nat :=
  if Has entry ptePresent ∧ ¬ Has entry pteHuge then some (entryFrame entry) else none

@[simp] theorem tableChild_zero : tableChild 0 = none :=
  if_neg fun h => not_has_zero h.1

theorem tableBits_and_mask (user : Bool) : tableBits user &&& pteAddressMask = 0 := by
  cases user <;> decide

/-- The bits that the source sets in an entry that leads to a table already. -/
def permitBits (user : Bool) : Pte := pteWrite ||| if user then pteUser else 0

theorem permitBits_and_mask (user : Bool) : permitBits user &&& pteAddressMask = 0 := by
  cases user <;> decide

theorem or_permitBits (entry : Pte) (user : Bool) :
    (if user then entry ||| pteWrite ||| pteUser else entry ||| pteWrite) =
      entry ||| permitBits user := by
  cases user
  · simp [permitBits]
  · simp [permitBits, BitVec.or_assoc]

/-- An entry that leads to a table, as the VMM writes it. -/
structure TableEntry (entry : Pte) : Prop where
  present : Has entry ptePresent
  notHuge : ¬ Has entry pteHuge
  write : Has entry pteWrite
  exec : ¬ Has entry pteNx

theorem TableEntry.child (h : TableEntry entry) :
    tableChild entry = some (entryFrame entry) := if_pos ⟨h.present, h.notHuge⟩

theorem TableEntry.ne_zero (h : TableEntry entry) : entry ≠ 0 := by
  rintro rfl
  exact not_has_zero h.present

theorem TableEntry.permit (h : TableEntry entry) (user : Bool) :
    TableEntry (entry ||| permitBits user) where
  present := has_or.mpr (.inl h.present)
  notHuge := by
    rw [has_or, not_or]
    exact ⟨h.notHuge, by cases user <;> decide⟩
  write := has_or.mpr (.inl h.write)
  exec := by
    rw [has_or, not_or]
    exact ⟨h.exec, by cases user <;> decide⟩

theorem TableEntry.child_permit (h : TableEntry entry) (user : Bool) :
    tableChild (entry ||| permitBits user) = tableChild entry := by
  rw [(h.permit user).child, h.child, entryFrame_or (permitBits_and_mask user)]

theorem tableEntry_link (h : ValidMappingFrame frame) (user : Bool) :
    TableEntry (framePte frame ||| tableBits user) := by
  have hfree : ∀ {m : Pte}, m &&& pteAddressMask = 0 → ¬ Has (framePte frame) m :=
    fun hm => h.2.2.not_has hm
  constructor <;> rw [has_or]
  · exact .inr (by cases user <;> decide)
  · exact not_or.mpr ⟨hfree (by decide), by cases user <;> decide⟩
  · exact .inr (by cases user <;> decide)
  · exact not_or.mpr ⟨hfree (by decide), by cases user <;> decide⟩

theorem tableChild_link (h : ValidMappingFrame frame) (user : Bool) :
    tableChild (framePte frame ||| tableBits user) = some frame := by
  rw [(tableEntry_link h user).child, entryFrame_framePte h (tableBits_and_mask user)]

/-! ### Leaves -/

/-- A leaf, as the VMM writes it. -/
structure LeafEntry (entry : Pte) : Prop where
  present : Has entry ptePresent
  notHuge : ¬ Has entry pteHuge
  notGlobal : ¬ Has entry pteGlobal

theorem LeafEntry.ne_zero (h : LeafEntry entry) : entry ≠ 0 := by
  rintro rfl
  exact not_has_zero h.present

theorem leafBits_and_mask (flags : VmFlags) : leafBits flags &&& pteAddressMask = 0 := by
  simp only [leafBits]
  split_ifs <;> decide

theorem leafEntry_leaf (h : ValidMappingFrame frame) (flags : VmFlags) :
    LeafEntry (framePte frame ||| leafBits flags) := by
  have hfree : ∀ {m : Pte}, m &&& pteAddressMask = 0 → ¬ Has (framePte frame) m :=
    fun hm => h.2.2.not_has hm
  constructor <;> rw [has_or]
  · refine .inr ?_
    simp only [leafBits]
    split_ifs <;> decide
  · refine not_or.mpr ⟨hfree (by decide), ?_⟩
    simp only [leafBits]
    split_ifs <;> decide
  · refine not_or.mpr ⟨hfree (by decide), ?_⟩
    simp only [leafBits]
    split_ifs <;> decide

/-- The leaf with its WRITE bit set or cleared. -/
def withWrite (entry : Pte) (writable : Bool) : Pte :=
  if writable then entry ||| pteWrite else entry &&& ~~~pteWrite

theorem has_withWrite (entry : Pte) {m : Pte} (writable : Bool) (hm : m &&& pteWrite = 0) :
    Has (withWrite entry writable) m ↔ Has entry m := by
  have hw : ¬ Has pteWrite m := by
    rw [Has, BitVec.and_comm, hm]
    simp
  cases writable
  · exact has_and_not hm
  · exact has_or.trans (or_iff_left hw)

theorem has_write_withWrite (entry : Pte) (writable : Bool) :
    Has (withWrite entry writable) pteWrite ↔ writable = true := by
  cases writable
  · exact iff_of_false not_has_and_not (by decide)
  · exact iff_of_true (has_or.mpr (.inr (by decide))) rfl

theorem LeafEntry.withWrite (h : LeafEntry entry) (writable : Bool) :
    LeafEntry (withWrite entry writable) where
  present := (has_withWrite entry writable (by decide)).mpr h.present
  notHuge := fun hh => h.notHuge ((has_withWrite entry writable (by decide)).mp hh)
  notGlobal := fun hg => h.notGlobal ((has_withWrite entry writable (by decide)).mp hg)

theorem entryFrame_withWrite (entry : Pte) (writable : Bool) :
    entryFrame (withWrite entry writable) = entryFrame entry := by
  cases writable
  · exact entryFrame_and_not (by decide)
  · exact entryFrame_or (by decide)

/-- The flags that the leaf alone stands for. -/
def leafFlags (pte : Pte) : VmFlags :=
  (if Has pte pteWrite then vmWrite else 0) ||| (if Has pte pteUser then vmUser else 0) |||
  (if ¬ Has pte pteNx then vmExec else 0) |||
  (if pte &&& (ptePcd ||| ptePwt) = ptePcd ||| ptePwt then vmDevice
    else if Has pte ptePcd then vmUncached else 0)

/-- Tables that permit what the leaf permits do not show. -/
theorem effectiveFlags_eq {pml4e pdpte pde pte : Pte} (h4 : TableEntry pml4e)
    (h3 : TableEntry pdpte) (h2 : TableEntry pde)
    (hu : Has pte pteUser → Has pml4e pteUser ∧ Has pdpte pteUser ∧ Has pde pteUser) :
    effectiveFlags pml4e pdpte pde pte = leafFlags pte := by
  have hw : (Has pml4e pteWrite ∧ Has pdpte pteWrite ∧ Has pde pteWrite ∧ Has pte pteWrite) ↔
      Has pte pteWrite :=
    ⟨fun h => h.2.2.2, fun h => ⟨h4.write, h3.write, h2.write, h⟩⟩
  have huser : (Has pml4e pteUser ∧ Has pdpte pteUser ∧ Has pde pteUser ∧ Has pte pteUser) ↔
      Has pte pteUser :=
    ⟨fun h => h.2.2.2, fun h => ⟨(hu h).1, (hu h).2.1, (hu h).2.2, h⟩⟩
  have hx : Has (pml4e ||| pdpte ||| pde ||| pte) pteNx ↔ Has pte pteNx := by
    rw [has_or, has_or, has_or]
    simp [h4.exec, h3.exec, h2.exec]
  simp only [effectiveFlags, leafFlags, hw, huser, hx]

/-- The flags of a mapping that the source accepts. -/
structure FlagsAccepted (flags : VmFlags) : Prop where
  known : Within flags vmAllFlags
  cache : ¬ (Has flags vmDevice ∧ Has flags vmUncached)

theorem leafFlags_leafBits (h : FlagsAccepted flags) : leafFlags (leafBits flags) = flags := by
  -- thirty-two words, of which those with both cache bits are excluded
  have hall : ∀ n : Fin 32, ¬ (Has (BitVec.ofNat 64 n) vmDevice ∧ Has (BitVec.ofNat 64 n) vmUncached) →
      leafFlags (leafBits (BitVec.ofNat 64 n)) = BitVec.ofNat 64 n := by decide +kernel
  have hself : flags &&& vmAllFlags = flags := by
    simpa using h.known.or_and (show (0 : VmFlags) &&& vmAllFlags = 0 by decide)
  have hlt : flags.toNat < 32 := by
    rw [← hself, BitVec.toNat_and]
    exact Nat.lt_of_le_of_lt Nat.and_le_right (by decide)
  have hflags : BitVec.ofNat 64 flags.toNat = flags := by simp
  have := hall ⟨flags.toNat, hlt⟩
  simp only [hflags] at this
  exact this h.cache

/-- The flags that were mapped are the flags that are reported. -/
theorem leafFlags_leaf (hf : ValidMappingFrame frame) (h : FlagsAccepted flags) :
    leafFlags (framePte frame ||| leafBits flags) = flags := by
  have hsame : ∀ {m : Pte}, m &&& pteAddressMask = 0 →
      (Has (framePte frame ||| leafBits flags) m ↔ Has (leafBits flags) m) := by
    intro m hm
    rw [Has, hf.2.2.or_and_flags hm, Has]
  have hcache : (framePte frame ||| leafBits flags) &&& (ptePcd ||| ptePwt) =
      leafBits flags &&& (ptePcd ||| ptePwt) := hf.2.2.or_and_flags (by decide)
  have hw := hsame (show pteWrite &&& pteAddressMask = 0 by decide)
  have hu := hsame (show pteUser &&& pteAddressMask = 0 by decide)
  have hx := hsame (show pteNx &&& pteAddressMask = 0 by decide)
  have hc := hsame (show ptePcd &&& pteAddressMask = 0 by decide)
  have heq : leafFlags (framePte frame ||| leafBits flags) = leafFlags (leafBits flags) := by
    simp only [leafFlags, hw, hu, hx, hc, hcache]
  rw [heq, leafFlags_leafBits h]

/-- Setting or clearing the WRITE bit of a leaf shows in the WRITE flag only. -/
theorem leafFlags_withWrite (pte : Pte) (writable : Bool) :
    leafFlags (withWrite pte writable) =
      if writable then leafFlags pte ||| vmWrite else leafFlags pte &&& ~~~vmWrite := by
  have hu := has_withWrite pte writable (show pteUser &&& pteWrite = 0 by decide)
  have hx := has_withWrite pte writable (show pteNx &&& pteWrite = 0 by decide)
  have hc := has_withWrite pte writable (show ptePcd &&& pteWrite = 0 by decide)
  have hcache : withWrite pte writable &&& (ptePcd ||| ptePwt) = pte &&& (ptePcd ||| ptePwt) := by
    cases writable
    · exact and_not_and_of_and_eq_zero (by decide)
    · exact or_and_of_and_eq_zero (by decide)
  simp only [leafFlags, has_write_withWrite, hu, hx, hc, hcache]
  cases writable <;> split_ifs <;> decide

/-! ### Paths -/

/-- A page address is determined by its four indices. -/
theorem address_unique {a b : Nat} (ha : PageAligned a) (hb : PageAligned b)
    (hac : VirtualAddressCanonical a) (hbc : VirtualAddressCanonical b)
    (hpath : tablePath a = tablePath b) (hpt : ptIndex a = ptIndex b) : a = b := by
  simp only [tablePath, pml4Index, pdptIndex, pdIndex, ptIndex, tableIndex, pageTableEntries,
    List.cons.injEq, Fin.mk.injEq, and_true] at hpath hpt
  obtain ⟨h4, h3, h2⟩ := hpath
  unfold PageAligned at ha hb
  have hlow : a % 2 ^ 48 = b % 2 ^ 48 := by
    clear hac hbc
    omega
  clear h4 h3 h2 hpt ha hb
  have hbit : a / 2 ^ 47 % 2 = b / 2 ^ 47 % 2 := by
    clear hac hbc
    omega
  -- the upper bits repeat bit 47
  have hhigh : a / 2 ^ 48 = b / 2 ^ 48 := by
    unfold VirtualAddressCanonical at hac hbc
    rw [hbit] at hac
    by_cases hb47 : b / 2 ^ 47 % 2 ≠ 0
    · rw [if_pos hb47] at hac hbc
      exact hac.trans hbc.symm
    · rw [if_neg hb47] at hac hbc
      exact hac.trans hbc.symm
  rw [← Nat.div_add_mod a (2 ^ 48), ← Nat.div_add_mod b (2 ^ 48), hhigh, hlow]

end JcosKernel
