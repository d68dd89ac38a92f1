import JcosKernel.Vfs.Runs
import Mathlib.Algebra.Ring.Nat
import Mathlib.Data.List.DropRight

/-!
# JcosKernel.Tar.Model

`tar_mount` of `kernel/tar.c`, which fills the file tree from a USTAR archive.

* The archive is a list of bytes at the address `archive`; its length is `archive_size`. A header is
  read as a block of 512 bytes, and a read that is not inside the archive is an outcome of its own.
* Offsets and sizes are `u64`: sums are taken modulo `2 ^ 64`.
* A buffer of characters is the list of what was stored, and `cString` is what a reader of the
  buffer sees.
* The loop is given a number of steps; `none` is a loop that has not ended by then.
-/

namespace JcosKernel

/-- `TAR_BLOCK_SIZE`. -/
def tarBlockSize : Nat := 512

def space : UInt8 := 32

/-- The bytes up to a terminator. -/
def cString (buffer : List UInt8) : CString :=
  ⟨buffer.takeWhile (· ≠ 0), fun h => by simpa using List.mem_takeWhile_imp h⟩

/-- A field of a header. -/
def field (block : List UInt8) (offset length : Nat) : List UInt8 := (block.drop offset).take length

/-! ### The fields of a header -/

def nameField (block : List UInt8) : List UInt8 := field block 0 100
def sizeField (block : List UInt8) : List UInt8 := field block 124 12
def checksumField (block : List UInt8) : List UInt8 := field block 148 8
def typeflag (block : List UInt8) : UInt8 := block.getD 156 0
def magicField (block : List UInt8) : List UInt8 := field block 257 6
def prefixField (block : List UInt8) : List UInt8 := field block 345 155

/-- `block_is_zero`. -/
def blockIsZero (block : List UInt8) : Bool := block.all (· == 0)

/-- The digits of `parse_octal`. -/
def octalDigits : List UInt8 → Nat → Option Nat
  | [], value => some value
  | c :: field, value =>
    if c = 0 ∨ c = space then some value
    else if c < 48 ∨ 55 < c then none
    else octalDigits field ((value * 8 + (c.toNat - 48)) % 2 ^ 64)

/-- `parse_octal`. -/
def parseOctal (field : List UInt8) : Option Nat :=
  octalDigits (field.dropWhile fun c => c == space || c == 0) 0

/-- `tar_magic_valid`: `ustar`. -/
def tarMagicValid (block : List UInt8) : Bool := (magicField block).take 5 == [117, 115, 116, 97, 114]

/-- The sum of the bytes, those of the checksum field counted as spaces. -/
def checksum (block : List UInt8) : Nat :=
  (block.zipIdx.map fun (b, i) => if 148 ≤ i ∧ i < 156 then space.toNat else b.toNat).sum

/-- `checksum_valid`. -/
def checksumValid (block : List UInt8) : Bool :=
  match parseOctal (checksumField block) with
  | none => false
  | some stored => stored == checksum block

/-! ### `build_path` -/

/-- `append_field`, for a buffer of `VFS_PATH_MAX` bytes. -/
def appendField (destination field : List UInt8) : Option (List UInt8) :=
  let text := field.takeWhile (· ≠ 0)
  if vfsPathMax ≤ destination.length + text.length then none else some (destination ++ text)

/-- Prefix and name with a slash between them. -/
def joinedName (block : List UInt8) : Option (List UInt8) :=
  let temporary :=
    if (prefixField block).takeWhile (· ≠ 0) ≠ [] then
      match appendField [] (prefixField block) with
      | none => none
      | some temporary =>
        if vfsPathMax ≤ temporary.length + 1 then none else some (temporary ++ [slash])
    else some []
  temporary.bind fun temporary => appendField temporary (nameField block)

/-- Leading `./`, any number of times. -/
def stripDotSlash : List UInt8 → List UInt8
  | 46 :: 47 :: source => stripDotSlash source
  | source => source

/-- The name without leading `./`, then without leading and trailing slashes. -/
def normalisedName (temporary : List UInt8) : List UInt8 :=
  ((stripDotSlash temporary).dropWhile (· == slash)).rdropWhile (· == slash)

/-- `build_path`. -/
def buildPath (block : List UInt8) : Option CString :=
  match joinedName block with
  | none => none
  | some temporary =>
    let source := normalisedName temporary
    if source = [] ∨ source = dot then some (cString [slash])
    else if vfsPathMax < source.length + 2 then none
    else some (cString (slash :: source))

/-! ### `tar_mount` -/

/-- What one turn of the loop reads from a header. -/
structure TarEntry where
  /-- Prefix and name, as stored. -/
  name : List UInt8
  path : CString
  typeflag : UInt8
  dataOffset : Nat
  size : Nat
  deriving DecidableEq

/-- The header checks up to `build_path`, for the header at `offset`. -/
def readEntry (archiveSize offset : Nat) (block : List UInt8) : Option TarEntry :=
  if ¬ tarMagicValid block then none
  else if ¬ checksumValid block then none
  else
    match parseOctal (sizeField block) with
    | none => none
    | some fileSize =>
      let dataOffset := (offset + tarBlockSize) % 2 ^ 64
      if dataOffset < offset then none
      else if archiveSize - dataOffset < fileSize then none
      else
        match joinedName block, buildPath block with
        | some name, some path => some ⟨name, path, typeflag block, dataOffset, fileSize⟩
        | _, _ => none

/-- The `switch` over the type: a regular file, a directory, or nothing. -/
def TarEntry.call (archive : Nat) (e : TarEntry) : Option VfsCall :=
  if e.typeflag = 0 ∨ e.typeflag = 48 then some (.addFile e.path (archive + e.dataOffset) e.size)
  else if e.typeflag = 53 then some (.addDirectory e.path)
  else none

/-- The offset of the next header. -/
def TarEntry.next (archiveSize : Nat) (e : TarEntry) : Option Nat :=
  let paddedSize := (e.size + (tarBlockSize - 1)) % 2 ^ 64 / tarBlockSize * tarBlockSize
  if paddedSize < e.size then none
  else
    let next := (e.dataOffset + paddedSize) % 2 ^ 64
    if next < e.dataOffset ∨ archiveSize < next then none else some next

/-- How `tar_mount` ends. -/
inductive MountResult
  | returned (ok : Bool)
  /-- A block is read that does not lie inside the archive. -/
  | readBeyond (offset : Nat)
  deriving Repr, DecidableEq

def blockAt (bytes : List UInt8) (offset : Nat) : List UInt8 := (bytes.drop offset).take tarBlockSize

def readBlock (bytes : List UInt8) (offset : Nat) : Option (List UInt8) :=
  if offset + tarBlockSize ≤ bytes.length then some (blockAt bytes offset) else none

/-- The loop of `tar_mount`. -/
def mountLoop (archive : Nat) (bytes : List UInt8) :
    Nat → Nat → VfsState → Option (MountResult × VfsState)
  | 0, _, _ => none
  | steps + 1, offset, s =>
    if (offset + tarBlockSize) % 2 ^ 64 ≤ bytes.length then
      match readBlock bytes offset with
      | none => some (.readBeyond offset, s)
      | some block =>
        if blockIsZero block then some (.returned true, s)
        else
          match readEntry bytes.length offset block with
          | none => some (.returned false, s)
          | some e =>
            match (e.call archive).elim (true, s) (VfsCall.exec · s) with
            | (false, s) => some (.returned false, s)
            | (true, s) =>
              match e.next bytes.length with
              | none => some (.returned false, s)
              | some next => mountLoop archive bytes steps next s
    else some (.returned true, s)

/-- `tar_mount`, for an archive that is not null. -/
def tarMount (archive : Nat) (bytes : List UInt8) (s : VfsState) : Option (MountResult × VfsState) :=
  if bytes.length < tarBlockSize ∨ s.root = none then some (.returned false, s)
  else mountLoop archive bytes (bytes.length / tarBlockSize + 1) 0 s

end JcosKernel
