import JcosKernel.BootArchive.Names
import Mathlib.Data.List.GetD

/-!
# JcosKernel.BootArchive.Find

The second reader finds the entries of the first.

On the headers that `tar_mount` accepts the two readers agree about magic, checksum, size and stored
name, so `jcos_boot_archive_next` walks along the same `Entries`. `jcos_boot_archive_find` returns the
first file or directory whose name normalises to the path.
-/

namespace JcosKernel

namespace BootArchive

/-! ### Fields -/

/-- `octal_field` refuses what does not fit into 64 bits; short fields always fit. -/
theorem octalFieldDigits_eq {l : List UInt8} {value : Nat} {sawDigit : Bool}
    (hsaw : sawDigit = true ∨ value = 0) (hfit : (value + 1) * 8 ^ l.length ≤ 2 ^ 60) :
    octalFieldDigits l value sawDigit = octalDigits l value := by
  induction l generalizing value sawDigit with
  | nil => rw [octalFieldDigits, octalDigits, if_pos hsaw]
  | cons c l ih =>
    rw [octalFieldDigits, octalDigits, if_pos hsaw]
    by_cases hend : c = 0 ∨ c = space
    · rw [if_pos hend, if_pos hend]
    rw [if_neg hend, if_neg hend]
    by_cases hdigit : c < 48 ∨ 55 < c
    · rw [if_pos hdigit, if_pos hdigit]
    have hc : c.toNat - 48 ≤ 7 := by
      rw [not_or, UInt8.not_lt, UInt8.not_lt] at hdigit
      have hhigh : c.toNat ≤ 55 := hdigit.2
      omega
    have hpow : (value + 1) * 8 * 8 ^ l.length ≤ 2 ^ 60 := by
      rwa [List.length_cons, Nat.pow_succ, Nat.mul_comm (8 ^ l.length), ← Nat.mul_assoc] at hfit
    have hvalue : (value + 1) * 8 ≤ 2 ^ 60 :=
      le_trans (Nat.le_mul_of_pos_right _ (Nat.pow_pos (by decide))) hpow
    rw [if_neg hdigit, if_neg hdigit, Nat.mod_eq_of_lt (by omega)]
    rw [if_neg (by omega)]
    exact ih (.inl rfl) (le_trans (Nat.mul_le_mul_right _ (by omega)) hpow)

variable {block canonical : List UInt8} {length offset : Nat}

theorem length_field (h : offset + length ≤ block.length) :
    (field block offset length).length = length := by
  rw [field, List.length_take, List.length_drop]
  omega

theorem octalField_eq (hpos : 0 < length) (hlen : length ≤ 12)
    (h : offset + length ≤ block.length) :
    octalField (field block offset length) = parseOctal (field block offset length) := by
  have hfield := length_field h
  rw [octalField, if_neg (by rw [← List.length_eq_zero_iff]; omega)]
  refine octalFieldDigits_eq (.inr rfl) ?_
  have hle : ((field block offset length).dropWhile fun c => c == space || c == 0).length ≤ 12 :=
    (List.dropWhile_sublist _).length_le.trans (by omega)
  calc (0 + 1) * 8 ^ _ ≤ (0 + 1) * 8 ^ 12 := Nat.mul_le_mul_left _ (Nat.pow_le_pow_right (by decide) hle)
    _ ≤ 2 ^ 60 := by decide

theorem fieldAppend_eq {dst src : List UInt8} (hdst : dst.length < vfsPathMax) :
    fieldAppend dst src = appendField dst src := by
  induction src generalizing dst with
  | nil =>
    rw [fieldAppend, appendField, if_neg (by simpa using hdst)]
    simp
  | cons b src ih =>
    rw [fieldAppend]
    split_ifs with hzero hfull
    · rw [appendField, hzero, if_neg (by simpa using hdst)]
      simp
    · rw [appendField, List.takeWhile_cons_of_pos (by simpa using hzero), if_pos]
      rw [List.length_cons]
      exact le_trans hfull (by omega)
    · rw [ih (by rw [List.length_append]; exact Nat.lt_of_not_le hfull), appendField,
        appendField, List.takeWhile_cons_of_pos (by simpa using hzero)]
      simp only [List.length_append, List.length_cons, List.length_nil, List.append_assoc]
      congr 2
      omega

theorem rawName_eq (hlen : block.length = tarBlockSize) : rawName block = joinedName block := by
  have hfirst : block.getD 345 0 ≠ 0 ↔ (prefixField block).takeWhile (· ≠ 0) ≠ [] := by
    have hlt : 345 < block.length := by rw [hlen]; decide
    have hcons : prefixField block = block.getD 345 0 :: (block.drop 346).take 154 := by
      rw [prefixField, field, List.drop_eq_getElem_cons hlt, List.take_succ_cons,
        List.getD_eq_getElem _ _ hlt]
    rw [hcons]
    by_cases hzero : block.getD 345 0 = 0
    · rw [List.takeWhile_cons_of_neg (by simpa using hzero)]
      exact iff_of_false (not_not_intro hzero) (not_not_intro rfl)
    · rw [List.takeWhile_cons_of_pos (by simpa using hzero)]
      exact iff_of_true hzero (List.cons_ne_nil _ _)
  rw [rawName, joinedName]
  simp only [hfirst]
  have hname : ∀ dst : List UInt8, dst.length < vfsPathMax →
      fieldAppend dst (field block 0 100) = appendField dst (nameField block) := fun dst hdst =>
    fieldAppend_eq hdst
  have hfield : fieldAppend [] (field block 345 155) = appendField [] (prefixField block) :=
    fieldAppend_eq (by decide)
  rw [hfield]
  split_ifs with hpre
  · rcases appendField [] (prefixField block) with _ | raw
    · rfl
    · simp only
      rw [show pathCapacity = vfsPathMax from rfl]
      split_ifs with hfull
      · rfl
      · exact hname _ (by rw [List.length_append]; exact Nat.lt_of_not_le hfull)
  · exact hname [] (by decide)

/-! ### One header -/

/-- The entry as the second reader describes it. -/
def entryOf (e : TarEntry) : Entry :=
  ⟨(normalizePath e.name pathCapacity).getD [], e.dataOffset - tarBlockSize, e.dataOffset, e.size,
    if e.typeflag = 53 then .directory
    else if e.typeflag = 0 ∨ e.typeflag = 48 then .file else .none⟩

variable {bytes : List UInt8} {e : TarEntry}

theorem length_blockAt (h : offset + tarBlockSize ≤ bytes.length) :
    (blockAt bytes offset).length = tarBlockSize := by
  rw [blockAt, List.length_take, List.length_drop]
  omega

theorem entryFromHeader_eq (h : HeaderAt bytes offset e) (hlen : bytes.length < 2 ^ 64)
    (hpad : e.dataOffset + paddedTo e.size ≤ bytes.length) :
    entryFromHeader (blockAt bytes offset) offset bytes.length =
      some (entryOf e, e.dataOffset + paddedTo e.size) := by
  have hin := h.inside
  have hoff := h.dataOffset
  have hblock := length_blockAt hin
  have hmagic : tarMagicValid (blockAt bytes offset) = true := by
    have hm := h.magic
    rw [JcosKernel.tarMagicValid, magicField, field, List.take_take] at hm
    exact hm
  have hsum : headerChecksumValid (blockAt bytes offset) = true := by
    have hs := h.checksum
    rw [checksumValid, checksumField] at hs
    rw [headerChecksumValid, octalField_eq (by decide) (by decide) (by rw [hblock]; decide)]
    rcases hp : parseOctal (field (blockAt bytes offset) 148 8) with _ | stored
    · rw [hp] at hs
      cases hs
    · rw [hp] at hs
      simp only [beq_iff_eq] at hs ⊢
      exact hs.symm
  have hsize : octalField (field (blockAt bytes offset) 124 12) = some e.size := by
    rw [octalField_eq (by decide) (by decide) (by rw [hblock]; decide)]
    exact h.size
  have hraw : rawName (blockAt bytes offset) = some e.name := (rawName_eq hblock).trans h.name
  have htype : (blockAt bytes offset).getD 156 0 = e.typeflag := h.type.symm
  have hpadded : (e.size + (tarBlockSize - 1)) / tarBlockSize * tarBlockSize = paddedTo e.size := rfl
  have hge : e.size ≤ paddedTo e.size := by
    have hdiv := Nat.lt_div_mul_add (a := e.size + (tarBlockSize - 1)) (b := tarBlockSize) (by decide)
    omega
  rw [entryFromHeader]
  simp only [hmagic, hsum, hsize, hraw, htype, hpadded]
  rw [if_neg (by simp), if_neg (by omega), if_neg (by omega), if_neg (by omega)]
  simp only [entryOf, hoff, Nat.add_sub_cancel]

/-! ### The walk -/

/-- The entries `jcos_boot_archive_next` returns. -/
def Listed (e : TarEntry) : Prop := (entryOf e).path ≠ [] ∧ (entryOf e).type ≠ .none

instance (e : TarEntry) : Decidable (Listed e) := inferInstanceAs (Decidable (_ ∧ _))

variable {portal : Portal} {archive : BootArchive} {es : List TarEntry} {steps : Nat}

theorem paddedTo_mod (size : Nat) : paddedTo size % tarBlockSize = 0 := Nat.mul_mod_left _ _

section

variable (ho : Opened portal archive) (hlen : portal.bytes.length < 2 ^ 64)
include ho hlen

theorem nextLoop_zero (hin : offset + tarBlockSize ≤ portal.bytes.length)
    (hzero : blockIsZero (blockAt portal.bytes offset) = true) :
    nextLoop portal archive (steps + 1) offset = some .finished := by
  have hmod : (offset + tarBlockSize) % 2 ^ 64 = offset + tarBlockSize := Nat.mod_eq_of_lt (by omega)
  rw [nextLoop, ho.size, hmod, if_pos hin, bootArchiveRead_eq ho (by decide) hin]
  exact if_pos hzero

theorem nextLoop_header (h : HeaderAt portal.bytes offset e)
    (hpad : e.dataOffset + paddedTo e.size ≤ portal.bytes.length) :
    nextLoop portal archive (steps + 1) offset =
      if Listed e then some (.entry (entryOf e) (e.dataOffset + paddedTo e.size))
      else if portal.bytes.length ≤ e.dataOffset + paddedTo e.size then some .finished
      else nextLoop portal archive steps (e.dataOffset + paddedTo e.size) := by
  have hin := h.inside
  have hdata := h.dataOffset
  have hpos : 0 < tarBlockSize := by decide
  have hmod : (offset + tarBlockSize) % 2 ^ 64 = offset + tarBlockSize := Nat.mod_eq_of_lt (by omega)
  have hnext : ¬ (e.dataOffset + paddedTo e.size ≤ offset) := by omega
  have hzero : blockZero ((portal.bytes.drop offset).take tarBlockSize) = false := h.nonzero
  have hentry : entryFromHeader ((portal.bytes.drop offset).take tarBlockSize) offset portal.bytes.length =
      some (entryOf e, e.dataOffset + paddedTo e.size) := entryFromHeader_eq h hlen hpad
  rw [nextLoop, ho.size, hmod, if_pos hin, bootArchiveRead_eq ho hpos hin]
  simp only [hzero, hentry, if_neg hnext]
  rfl

/-- `jcos_boot_archive_next` goes to the next entry that is listed. -/
theorem nextLoop_entries (hes : Entries portal.bytes offset es)
    (hoff : offset ≤ portal.bytes.length) (hmod : offset % tarBlockSize = 0)
    (hsteps : (portal.bytes.length - offset) / tarBlockSize < steps) :
    (∃ r, nextLoop portal archive steps offset = some r ∧ (∀ e cursor, r ≠ .entry e cursor) ∧
      ∀ e ∈ es, ¬ Listed e) ∨
    ∃ before e after next, es = before ++ e :: after ∧ (∀ f ∈ before, ¬ Listed f) ∧ Listed e ∧
      nextLoop portal archive steps offset = some (.entry (entryOf e) next) ∧
      Entries portal.bytes next after ∧ next ≤ portal.bytes.length ∧ next % tarBlockSize = 0 ∧
      offset + tarBlockSize ≤ next := by
  induction steps generalizing offset es with
  | zero => exact absurd hsteps (Nat.not_lt_zero _)
  | succ steps ih =>
    cases hes with
    | done hdone =>
      rw [nextLoop]
      -- even if the sum in the condition overflows, the block cannot be read
      rw [bootArchiveRead_beyond ho hdone]
      refine .inl ?_
      split_ifs
      all_goals exact ⟨_, rfl, nofun, nofun⟩
    | zero hin hzero =>
      exact .inl ⟨_, nextLoop_zero ho hlen hin hzero, nofun, nofun⟩
    | entry hheader hpad hrest =>
      rename_i e es
      have hdata := hheader.dataOffset
      have hmod' : (e.dataOffset + paddedTo e.size) % tarBlockSize = 0 := by
        rw [hdata, Nat.add_mod, paddedTo_mod, Nat.add_mod_right, hmod]
        rfl
      rw [nextLoop_header ho hlen hheader hpad]
      by_cases hlisted : Listed e
      · rw [if_pos hlisted]
        exact .inr ⟨[], e, es, _, rfl, nofun, hlisted, rfl, hrest, hpad, hmod', by omega⟩
      rw [if_neg hlisted]
      by_cases hend : portal.bytes.length ≤ e.dataOffset + paddedTo e.size
      · -- nothing is left, so there are no more entries
        rw [if_pos hend]
        refine .inl ⟨_, rfl, nofun, fun f hf => ?_⟩
        cases hrest with
        | done _ | zero hin' _ =>
          rw [List.mem_singleton.mp hf]
          exact hlisted
        | entry hheader' _ _ =>
          have hin' := hheader'.inside
          have hpos : 0 < tarBlockSize := by decide
          omega
      · rw [if_neg hend]
        rcases ih hrest hpad hmod' (blocks_left (by omega) hpad hsteps) with ⟨r, hr, hne, hnone⟩ |
          ⟨before, f, after, next, rfl, hbefore, hf, hr, hafter, hle, hnmod, hge⟩
        · exact .inl ⟨r, hr, hne, List.forall_mem_cons.mpr ⟨hlisted, hnone⟩⟩
        · exact .inr ⟨e :: before, f, after, next, rfl,
            List.forall_mem_cons.mpr ⟨hlisted, hbefore⟩, hf, hr, hafter, hle, hnmod, by omega⟩

/-- `jcos_boot_archive_find` returns the first entry with the name. -/
theorem findLoop_entries (hes : Entries portal.bytes offset es)
    (hoff : offset ≤ portal.bytes.length) (hmod : offset % tarBlockSize = 0)
    (hsteps : (portal.bytes.length - offset) / tarBlockSize < steps) :
    findLoop portal archive canonical steps offset =
      some ((es.find? fun e => Listed e ∧ (entryOf e).path = canonical).map entryOf) := by
  induction steps generalizing offset es with
  | zero => exact absurd hsteps (Nat.not_lt_zero _)
  | succ steps ih =>
    have hmore : (portal.bytes.length - offset) / tarBlockSize < archive.size / tarBlockSize + 1 := by
      rw [ho.size]
      exact Nat.lt_succ_of_le (Nat.div_le_div_right (Nat.sub_le _ _))
    have hnext : bootArchiveNext portal archive offset =
        nextLoop portal archive (archive.size / tarBlockSize + 1) offset := by
      rw [bootArchiveNext, if_neg (by rw [ho.ready]; simp [hmod])]
    rw [findLoop, hnext]
    rcases nextLoop_entries ho hlen hes hoff hmod hmore with ⟨r, hr, hne, hnone⟩ |
      ⟨before, e, after, next, rfl, hbefore, he, hr, hafter, hle, hnmod, hge⟩
    · have hfind : (es.find? fun e => Listed e ∧ (entryOf e).path = canonical) = none :=
        List.find?_eq_none.mpr fun e he => by simp [hnone e he]
      rw [hr, hfind]
      cases r with
      | entry e cursor => exact absurd rfl (hne e cursor)
      | finished => rfl
      | malformed => rfl
    · have hfind : (before.find? fun e => Listed e ∧ (entryOf e).path = canonical) = none :=
        List.find?_eq_none.mpr fun f hf => by simp [hbefore f hf]
      rw [hr, List.find?_append, hfind, List.find?_cons]
      dsimp only
      by_cases hpath : (entryOf e).path = canonical
      · simp [he, hpath]
      · rw [ih hafter hle hnmod (blocks_left hge hle hsteps)]
        simp [hpath]

theorem bootArchiveFind_eq (hes : Entries portal.bytes 0 es) {path : CString}
    (hpath : normalizePath path.val pathCapacity = some canonical) :
    bootArchiveFind portal archive path =
      some ((es.find? fun e => Listed e ∧ (entryOf e).path = canonical).map entryOf) := by
  rw [bootArchiveFind, if_neg (by simp [ho.ready]), hpath]
  refine findLoop_entries ho hlen hes (Nat.zero_le _) rfl ?_
  rw [ho.size]
  exact Nat.lt_succ_self _

end

end BootArchive

end JcosKernel
