import JcosKernel.BootArchive.Model

/-!
# JcosKernel.BootArchive.Read

`jcos_boot_archive_read` returns the bytes of the archive.

The reply to a request of `n` bytes carries them packed into one word, and unpacking gives them back.
Replies to an earlier incarnation are skipped, if there are no more than three of them.
-/

namespace JcosKernel

/-! ### Bytes in a word -/

theorem packBytes_shiftRight (b : UInt8) (l : List UInt8) (i : Nat) :
    packBytes (b :: l) >>> ((i + 1) * 8) = packBytes l >>> (i * 8) := by
  have hb : b.toNat >>> 8 = 0 := Nat.shiftRight_eq_zero _ _ b.toNat_lt
  rw [packBytes, show (i + 1) * 8 = 8 + i * 8 by omega, Nat.shiftRight_add, Nat.shiftRight_or_distrib, hb,
    Nat.zero_or, Nat.shiftLeft_shiftRight]

theorem packBytes_low (b : UInt8) (l : List UInt8) : packBytes (b :: l) &&& 0xFF = b.toNat := by
  have hmask : (0xFF : Nat) = 2 ^ 8 - 1 := rfl
  rw [packBytes, hmask, Nat.and_two_pow_sub_one_eq_mod, Nat.or_mod_two_pow, Nat.shiftLeft_eq,
    Nat.mul_mod_left, Nat.or_zero, Nat.mod_eq_of_lt b.toNat_lt]

theorem unpackBytes_packBytes (l : List UInt8) : BootArchive.unpackBytes (packBytes l) l.length = l := by
  induction l with
  | nil => rfl
  | cons b l ih =>
    rw [BootArchive.unpackBytes, List.length_cons, List.range_succ_eq_map, List.map_cons, List.map_map]
    congr 1
    · rw [Nat.shiftRight_zero, packBytes_low, UInt8.ofNat_toNat]
    · refine Eq.trans (List.map_congr_left fun i _ => ?_) ih
      rw [Function.comp_apply, packBytes_shiftRight]

/-! ### One request -/

/-- At most three replies are in the way, none of them for this incarnation. -/
def Portal.Current (portal : Portal) (incarnation : Nat) : Prop :=
  ∀ request, (portal.stale request).length ≤ 3 ∧
    ∀ reply ∈ portal.stale request, ¬ (reply.wordCount = 4 ∧ word reply 1 = incarnation)

theorem portalReceiveCurrent_skip {incarnation attempts : Nat} {stale rest : List IpcMessage}
    {reply : IpcMessage}
    (hlen : stale.length < attempts)
    (hstale : ∀ m ∈ stale, ¬ (m.wordCount = 4 ∧ word m 1 = incarnation))
    (hreply : reply.wordCount = 4 ∧ word reply 1 = incarnation) :
    portalReceiveCurrent incarnation attempts (stale ++ reply :: rest) = some reply := by
  induction stale generalizing attempts with
  | nil =>
    obtain ⟨k, rfl⟩ : ∃ k, attempts = k + 1 := Nat.exists_eq_add_one.mpr hlen
    rw [List.nil_append, portalReceiveCurrent, if_pos hreply]
  | cons m stale ih =>
    obtain ⟨k, rfl⟩ : ∃ k, attempts = k + 1 := Nat.exists_eq_add_one.mpr (by omega)
    rw [List.cons_append, portalReceiveCurrent, if_neg (hstale m List.mem_cons_self)]
    exact ih (by simpa using hlen) fun m hm => hstale m (List.mem_cons_of_mem _ hm)

variable {portal : Portal} {incarnation : Nat}

theorem portalCall_eq (hportal : portal.Current incarnation) {request : IpcMessage}
    (hreply : (portalHandle portal request).wordCount = 4 ∧
      word (portalHandle portal request) 1 = incarnation) :
    portalCall portal incarnation request = some (portalHandle portal request) :=
  portalReceiveCurrent_skip (Nat.lt_succ_of_le (hportal request).1) (hportal request).2 hreply

/-- The fields of a header word. -/
theorem portalHeader_fields : ∀ count < 9,
    (∀ code ∈ [portalOpInfo, portalOpRead, portalReplyInfo, portalReplyData],
      portalHeaderCode (portalHeader code portalProtocolVersion count) = code ∧
      portalHeaderVersion (portalHeader code portalProtocolVersion count) = portalProtocolVersion ∧
      portalHeaderCount (portalHeader code portalProtocolVersion count) = count) := by
  decide

section words

variable {n w₀ w₁ w₂ w₃ : Nat}

@[simp] theorem portalMessage_wordCount : (portalMessage n w₀ w₁ w₂ w₃).wordCount = n := rfl
@[simp] theorem word_portalMessage_zero : word (portalMessage n w₀ w₁ w₂ w₃) 0 = w₀ := rfl
@[simp] theorem word_portalMessage_one : word (portalMessage n w₀ w₁ w₂ w₃) 1 = w₁ := rfl
@[simp] theorem word_portalMessage_two : word (portalMessage n w₀ w₁ w₂ w₃) 2 = w₂ := rfl
@[simp] theorem word_portalMessage_three : word (portalMessage n w₀ w₁ w₂ w₃) 3 = w₃ := rfl

end words

/-- A request for bytes inside the archive. -/
theorem portalHandle_read {count offset : Nat} (hinc : incarnation ≠ 0) (hpos : 0 < count)
    (hmax : count ≤ portalMaxReadBytes) (hin : offset + count ≤ portal.bytes.length) :
    portalHandle portal (portalMessage 3 (portalHeader portalOpRead portalProtocolVersion count) incarnation
        offset 0) =
      portalMessage 4 (portalHeader portalReplyData portalProtocolVersion count) incarnation offset
        (packBytes ((portal.bytes.drop offset).take count)) := by
  obtain ⟨hcode, hversion, hcount⟩ := portalHeader_fields count (Nat.lt_succ_of_le hmax) portalOpRead
    (by simp)
  simp only [portalHandle, portalMessage_wordCount, word_portalMessage_zero, word_portalMessage_one,
    word_portalMessage_two, hcode, hversion, hcount]
  rw [if_neg (by decide), if_neg hinc, if_neg (by simp), if_neg (by decide), if_pos trivial,
    if_neg (by omega), if_neg (by omega)]

/-! ### The client -/

namespace BootArchive

/-- A client that has opened the portal. -/
structure Opened (portal : Portal) (archive : BootArchive) : Prop where
  current : portal.Current archive.incarnation
  incarnation : archive.incarnation ≠ 0
  size : archive.size = portal.bytes.length
  ready : archive.ready = true

theorem opened_of_open {archive : BootArchive} (hportal : portal.Current incarnation)
    (h : bootArchiveOpen portal incarnation = some archive) : Opened portal archive := by
  rw [bootArchiveOpen] at h
  split_ifs at h with hinc
  obtain ⟨hcode, hversion, hcount⟩ := portalHeader_fields 0 (by decide) portalOpInfo (by simp)
  have hhandle : portalHandle portal
      (portalMessage 2 (portalHeader portalOpInfo portalProtocolVersion 0) incarnation 0 0) =
        portalMessage 4 (portalHeader portalReplyInfo portalProtocolVersion 0) incarnation
          portal.bytes.length portalMaxReadBytes := by
    simp only [portalHandle, portalMessage_wordCount, word_portalMessage_zero, word_portalMessage_one,
      hcode, hversion, hcount]
    rw [if_neg (by decide), if_neg hinc, if_neg (by simp), if_pos trivial, if_neg (by simp)]
  rw [portalCall_eq hportal (by rw [hhandle]; exact ⟨rfl, rfl⟩), hhandle] at h
  simp only at h
  split_ifs at h
  cases h
  exact ⟨hportal, hinc, rfl, rfl⟩

variable {archive : BootArchive} {offset count : Nat}

theorem readLoop_eq (ho : Opened portal archive) {steps done : Nat} {out : List UInt8}
    (hin : offset + count ≤ portal.bytes.length) (hdone : done ≤ count) (hsteps : count - done < steps) :
    readLoop portal archive offset count steps done out =
      some (out ++ (portal.bytes.drop (offset + done)).take (count - done)) := by
  induction steps generalizing done out with
  | zero => exact absurd hsteps (Nat.not_lt_zero _)
  | succ steps ih =>
    rw [readLoop]
    by_cases hall : count ≤ done
    · rw [if_pos hall, Nat.sub_eq_zero_of_le hall, List.take_zero, List.append_nil]
    rw [if_neg hall]
    generalize hchunk : min (count - done) portalMaxReadBytes = chunk
    have hmax : chunk ≤ portalMaxReadBytes := hchunk ▸ Nat.min_le_right _ _
    have hle : chunk ≤ count - done := hchunk ▸ Nat.min_le_left _ _
    have hpos : 0 < chunk := by
      rw [← hchunk]
      exact Nat.lt_min.mpr ⟨by omega, by decide⟩
    have hhandle := portalHandle_read ho.incarnation hpos hmax
      (show offset + done + chunk ≤ portal.bytes.length by omega)
    obtain ⟨hcode, hversion, hcount⟩ := portalHeader_fields chunk (Nat.lt_succ_of_le hmax) portalReplyData
      (by simp)
    have hlen : ((portal.bytes.drop (offset + done)).take chunk).length = chunk := by
      rw [List.length_take, List.length_drop]
      omega
    simp only
    rw [portalCall_eq ho.current (by rw [hhandle]; exact ⟨rfl, rfl⟩), hhandle]
    simp only [word_portalMessage_zero, word_portalMessage_three, hcode, hversion,
      hcount]
    rw [if_neg (by simp)]
    have hunpack := unpackBytes_packBytes ((portal.bytes.drop (offset + done)).take chunk)
    rw [hlen] at hunpack
    rw [hunpack, ih (by omega) (by omega), List.append_assoc]
    -- this chunk and what the remaining turns read
    have hsplit := List.take_add (l := portal.bytes.drop (offset + done)) (i := chunk)
      (j := count - done - chunk)
    rw [List.drop_drop, Nat.add_sub_cancel' hle] at hsplit
    rw [hsplit, Nat.sub_sub, Nat.add_assoc]

theorem bootArchiveRead_eq (ho : Opened portal archive) (hcount : 0 < count)
    (hin : offset + count ≤ portal.bytes.length) :
    bootArchiveRead portal archive offset count = some ((portal.bytes.drop offset).take count) := by
  rw [bootArchiveRead, if_neg]
  · exact readLoop_eq ho hin (Nat.zero_le _) (Nat.lt_succ_self _)
  · rw [ho.ready, ho.size]
    simp only [Bool.true_eq_false, false_or]
    omega

theorem bootArchiveRead_beyond (ho : Opened portal archive) (hin : portal.bytes.length < offset + count) :
    bootArchiveRead portal archive offset count = none := by
  rw [bootArchiveRead, if_pos]
  rw [ho.size]
  omega

end BootArchive

end JcosKernel
