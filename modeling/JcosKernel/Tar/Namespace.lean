import JcosKernel.Tar.Mount

/-!
# JcosKernel.Tar.Namespace

`tar_mount` builds the namespace of the archive.

Entries are the same file when the components of their names are the same. That the normalised
names are the same is more: `a/b` and `a//b` are two names of one file. And there is a size at which
the condition of the loop overflows, `2 ^ 64 - 512`; the archives here are smaller.
-/

namespace JcosKernel

open Lib

/-- **`tar_mount` and the tree.** It returns, reads inside the archive only and hands over data
inside the archive only. If it returns true, and the tree was empty, the tree holds the files of the
archive and no others. -/
theorem tarMount_namespace (archive : Nat) (bytes : List UInt8) (s : VfsState)
    (hlen : bytes.length + tarBlockSize < 2 ^ 64) :
    ∃ ok s' calls, tarMount archive bytes s = some (.returned ok, s') ∧
      s' = s.execCalls calls ∧ (∀ call ∈ calls, call.Inside archive bytes.length) ∧
      (ok = true → ∀ s₀ : VfsState, s = s₀.vfsInit →
        ∃ es, Entries bytes 0 es ∧ Namespace archive es s') := by
  rw [tarMount]
  split_ifs with hnone
  · exact ⟨false, s, [], rfl, rfl, nofun, nofun⟩
  · obtain ⟨ok, s', hloop⟩ := mountLoop_returns hlen (Nat.zero_le _) (Nat.lt_succ_self _)
    obtain ⟨calls, hs', hinside, hok⟩ := mountLoop_cases (by omega) hloop
    refine ⟨ok, s', calls, hloop, hs', hinside, fun htrue s₀ hs => ?_⟩
    obtain ⟨hrun, es, hes, rfl⟩ := hok (congrArg _ htrue)
    obtain ⟨h', hfiles⟩ := filesAt_of_entries hes (hs ▸ hrun)
    exact ⟨es, hes, hfiles.toNamespace h'⟩

/-! ### Sample archives -/

/-- Six octal digits. -/
def octalText (n : Nat) : List UInt8 :=
  [5, 4, 3, 2, 1, 0].map fun i => UInt8.ofNat (n / 8 ^ i % 8 + 48)

/-- A header. -/
def sampleHeader (name : List UInt8) (type : UInt8) (size : Nat := 0) : List UInt8 :=
  let before := name ++ List.replicate (124 - name.length) 0 ++ octalText size ++ List.replicate 18 0
  let after := type :: (List.replicate 100 0 ++ [117, 115, 116, 97, 114] ++ List.replicate 250 0)
  let sum := (before.map UInt8.toNat).sum + 8 * space.toNat + (after.map UInt8.toNat).sum
  before ++ (octalText sum ++ [0, space]) ++ after

/-- `a/b` and `a//b`. -/
def nameAB : List UInt8 := [97, 47, 98]
def nameASlashB : List UInt8 := [97, 47, 47, 98]

def twoNames : List UInt8 := sampleHeader nameAB 48 ++ sampleHeader nameASlashB 48

/-- A tree before `vfs_init`. -/
def noTree : VfsState := ⟨fun _ => .zero, 0, none⟩

theorem tarMount_namespace_twoNames : twoNames.length + tarBlockSize < 2 ^ 64 ∧
    ∃ ok s' calls, tarMount 4096 twoNames noTree.vfsInit = some (.returned ok, s') ∧
      s' = noTree.vfsInit.execCalls calls ∧ (∀ call ∈ calls, call.Inside 4096 twoNames.length) ∧
      (ok = true → ∀ s₀ : VfsState, noTree.vfsInit = s₀.vfsInit →
        ∃ es, Entries twoNames 0 es ∧ Namespace 4096 es s') :=
  ⟨by decide +kernel, tarMount_namespace 4096 twoNames noTree.vfsInit (by decide +kernel)⟩

def entryAB : TarEntry := ⟨nameAB, cString (slash :: nameAB), 48, 512, 0⟩
def entryASlashB : TarEntry := ⟨nameASlashB, cString (slash :: nameASlashB), 48, 1024, 0⟩

theorem entries_twoNames : Entries twoNames 0 [entryAB, entryASlashB] := by
  refine .entry ⟨?_, ?_, ?_, ?_, ?_, ?_, ?_, ?_, ?_, ?_⟩ ?_
    (.entry ⟨?_, ?_, ?_, ?_, ?_, ?_, ?_, ?_, ?_, ?_⟩ ?_ (.done ?_)) <;> decide +kernel

/-- The second entry has another name and replaces the file of the first. -/
theorem twoNames_mounted :
    (tarMount 4096 twoNames noTree.vfsInit).map (fun r =>
      (r.1, r.2.vfsResolve none entryAB.normalised, (r.2.node 2).data)) =
        some (.returned true, some 2, 4096 + entryASlashB.dataOffset) := by
  decide +kernel

/-! ### The largest archive -/

/-- A link, which `tar_mount` skips. -/
def linkHeader : List UInt8 := sampleHeader [97] 50

/-- As many such headers as fit below `2 ^ 64 - 512`. -/
def links (n : Nat) : List UInt8 := (List.replicate n linkHeader).flatten

theorem length_linkHeader : linkHeader.length = tarBlockSize := by decide +kernel

theorem length_links (n : Nat) : (links n).length = n * tarBlockSize := by
  simp [links, length_linkHeader]

theorem blockAt_links {n k : Nat} (hk : k < n) : blockAt (links n) (k * tarBlockSize) = linkHeader := by
  obtain ⟨m, rfl⟩ : ∃ m, n = k + (m + 1) := ⟨n - k - 1, by omega⟩
  have hsplit : links (k + (m + 1)) = links k ++ (linkHeader ++ links m) := by
    simp [links, List.replicate_add, List.replicate_succ]
  rw [blockAt, hsplit, ← length_links k, List.drop_left, ← length_linkHeader, List.take_left]

theorem readEntry_linkHeader {archiveSize offset : Nat} (hoff : offset + tarBlockSize < 2 ^ 64) :
    readEntry archiveSize offset linkHeader =
      some ⟨[97], cString (slash :: [97]), 50, offset + tarBlockSize, 0⟩ := by
  have hmod : (offset + tarBlockSize) % 2 ^ 64 = offset + tarBlockSize := Nat.mod_eq_of_lt hoff
  have hmagic : tarMagicValid linkHeader = true := by decide +kernel
  have hsum : checksumValid linkHeader = true := by decide +kernel
  have hsize : parseOctal (sizeField linkHeader) = some 0 := by decide +kernel
  have hname : joinedName linkHeader = some [97] := by decide +kernel
  have hpath : buildPath linkHeader = some (cString (slash :: [97])) := by decide +kernel
  have htype : typeflag linkHeader = 50 := by decide +kernel
  simp only [readEntry, hmagic, hsum, hsize, hname, hpath, htype, hmod]
  rw [if_neg (by simp), if_neg (by simp), if_neg (by omega), if_neg (by omega)]

/-- From every header of the largest archive the loop goes on to its end, and reads there. -/
theorem mountLoop_links {archive steps n k : Nat} {s : VfsState} (hn : (n + 1) * tarBlockSize = 2 ^ 64)
    (hk : k ≤ n) (hsteps : n - k < steps) :
    mountLoop archive (links n) steps (k * tarBlockSize) s =
      some (.readBeyond (n * tarBlockSize), s) := by
  have hlen := length_links n
  have hblock : 0 < tarBlockSize := by decide
  rw [Nat.add_one_mul] at hn
  induction steps generalizing k with
  | zero => exact absurd hsteps (Nat.not_lt_zero _)
  | succ steps ih =>
    rcases Nat.eq_or_lt_of_le hk with rfl | hlt
    · -- the sum in the condition is zero
      rw [mountLoop, hn, Nat.mod_self, if_pos (Nat.zero_le _), readBlock, if_neg (by omega)]
    · have hle : (k + 1) * tarBlockSize ≤ n * tarBlockSize := Nat.mul_le_mul_right _ hlt
      rw [Nat.add_one_mul] at hle
      have hmod : (k * tarBlockSize + tarBlockSize) % 2 ^ 64 = k * tarBlockSize + tarBlockSize :=
        Nat.mod_eq_of_lt (by omega)
      have hzero : blockIsZero linkHeader = false := by decide +kernel
      rw [mountLoop, hmod, if_pos (by omega), readBlock, if_pos (by omega), blockAt_links hlt]
      simp only [hzero, readEntry_linkHeader (show k * tarBlockSize + tarBlockSize < 2 ^ 64 by omega)]
      rw [if_neg Bool.false_ne_true]
      have hnext : (TarEntry.mk [97] (cString (slash :: [97])) 50 (k * tarBlockSize + tarBlockSize) 0).next
          (links n).length = some ((k + 1) * tarBlockSize) := by
        have hpad : (0 + (tarBlockSize - 1)) % 2 ^ 64 / tarBlockSize * tarBlockSize = 0 := by decide
        simp only [TarEntry.next, hpad, Nat.add_zero, hmod]
        rw [if_neg (lt_irrefl _), if_neg (by omega), Nat.add_one_mul]
      simp only [TarEntry.call, if_neg (show ¬ ((50 : UInt8) = 0 ∨ (50 : UInt8) = 48) by decide),
        if_neg (show ¬ (50 : UInt8) = 53 by decide), Option.elim_none, hnext]
      exact ih hlt (by omega)

/-- Neither the normalised name of a file nor the size of the archive can be taken as they are. The
file `a/b` has the data of an entry with another normalised name; and in an archive of
`2 ^ 64 - 512` bytes the block behind the last one is read. -/
theorem tarMount_names_and_size :
    (∃ s' es e n, tarMount 4096 twoNames noTree.vfsInit = some (.returned true, s') ∧
      Entries twoNames 0 es ∧ e ∈ es ∧ e.IsFile ∧
      (∀ f ∈ es, f.IsFile → f.normalised = e.normalised → f = e) ∧
      s'.vfsResolve none e.normalised = some n ∧ (s'.node n).data ≠ 4096 + e.dataOffset) ∧
    ∃ bytes : List UInt8, bytes.length < 2 ^ 64 ∧ ∀ s₀ : VfsState,
      tarMount 1 bytes s₀.vfsInit = some (.readBeyond bytes.length, s₀.vfsInit) := by
  constructor
  · obtain ⟨⟨r, s'⟩, hmount, hr⟩ := Option.map_eq_some_iff.mp twoNames_mounted
    obtain ⟨rfl, hr⟩ := Prod.mk.inj hr
    obtain ⟨hresolve, hdata⟩ := Prod.mk.inj hr
    refine ⟨s', _, entryAB, 2, hmount, entries_twoNames, by simp, by decide, ?_, hresolve, ?_⟩
    · intro f hf _ hsame
      rcases List.mem_cons.mp hf with rfl | hf
      · rfl
      · rw [List.mem_singleton.mp hf] at hsame
        exact absurd (congrArg Subtype.val hsame) (by decide)
    · rw [hdata]
      decide
  · have hblock : tarBlockSize = 512 := rfl
    have hlen := length_links (2 ^ 55 - 1)
    refine ⟨links (2 ^ 55 - 1), by omega, fun s₀ => ?_⟩
    have hsteps : 2 ^ 55 - 1 - 0 < (links (2 ^ 55 - 1)).length / tarBlockSize + 1 := by
      rw [hlen, Nat.mul_div_cancel _ (by decide)]
      omega
    have hloop := @mountLoop_links 1 _ (2 ^ 55 - 1) 0 s₀.vfsInit (by decide) (Nat.zero_le _) hsteps
    rw [tarMount, if_neg]
    · rw [Nat.zero_mul, ← hlen] at hloop
      exact hloop
    · rw [(VfsState.vfsInit_inv s₀).root]
      simp only [reduceCtorEq, or_false]
      omega

end JcosKernel
