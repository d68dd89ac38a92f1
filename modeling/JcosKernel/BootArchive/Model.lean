import JcosKernel.Endpoint.Model
import JcosKernel.Tar.Model

/-!
# JcosKernel.BootArchive.Model

The boot archive as user programs read it: the portal of `kernel/boot_archive_portal.c`, which hands
out up to eight bytes a request, and the second reader of USTAR headers, `user/lib/boot_archive.c`.

* The portal is the bytes of the archive (`archive`, `archive_size`); its counters are left out.
* A reply may find replies to an earlier service incarnation before it in the endpoint. What lies
  there when a request is answered is a parameter, `Portal.stale`.
* Paths are shorter than `2 ^ 32` bytes, so that no `u32` index wraps.
* Loops are given a number of steps. `none` is a loop that has not ended by then, or a failed call
  where the function has no other way to fail.
-/

namespace JcosKernel

/-! ### The protocol -/

/-- `JCOS_BOOT_ARCHIVE_PORTAL_HEADER`. -/
def portalHeader (code version count : Nat) : Nat :=
  (code &&& 0xFFFF) ||| ((version &&& 0xFFFF) <<< 16) ||| ((count &&& 0xFF) <<< 32)

def portalHeaderCode (value : Nat) : Nat := value &&& 0xFFFF
def portalHeaderVersion (value : Nat) : Nat := (value >>> 16) &&& 0xFFFF
def portalHeaderCount (value : Nat) : Nat := (value >>> 32) &&& 0xFF

/-- `JCOS_BOOT_ARCHIVE_PORTAL_PROTOCOL_VERSION` and the other constants of the protocol. -/
def portalProtocolVersion : Nat := 1
def portalMaxReadBytes : Nat := 8
def portalOpInfo : Nat := 1
def portalOpRead : Nat := 2
def portalReplyInfo : Nat := 0x8001
def portalReplyData : Nat := 0x8002
def portalReplyIncompatibleVersion : Nat := 0x8FF1
def portalReplyInvalidRequest : Nat := 0x8FF2
def portalReplyOutOfRange : Nat := 0x8FF3

def portalMessage (wordCount w₀ w₁ w₂ w₃ : Nat) : IpcMessage :=
  ⟨fun i => [w₀, w₁, w₂, w₃].getD i.val 0, wordCount⟩

/-- A word of a message. -/
def word (message : IpcMessage) (i : Fin 4) : Nat := message.words i

/-- `pack_bytes`. -/
def packBytes : List UInt8 → Nat
  | [] => 0
  | b :: data => b.toNat ||| (packBytes data <<< 8)

/-- `portal_reply_error`. -/
def portalReplyError (code incarnation detail : Nat) : IpcMessage :=
  portalMessage 4 (portalHeader code portalProtocolVersion 0) incarnation detail 0

structure Portal where
  /-- `archive` and `archive_size`. -/
  bytes : List UInt8
  /-- The replies in the endpoint before the one to this request. -/
  stale : IpcMessage → List IpcMessage

/-- `portal_handle`. -/
def portalHandle (portal : Portal) (request : IpcMessage) : IpcMessage :=
  if request.wordCount < 2 then portalReplyError portalReplyInvalidRequest 0 0
  else
    let header := word request 0
    let operation := portalHeaderCode header
    let version := portalHeaderVersion header
    let count := portalHeaderCount header
    let incarnation := word request 1
    if incarnation = 0 then portalReplyError portalReplyInvalidRequest 0 operation
    else if version ≠ portalProtocolVersion then
      portalReplyError portalReplyIncompatibleVersion incarnation version
    else if operation = portalOpInfo then
      if request.wordCount ≠ 2 ∨ count ≠ 0 then
        portalReplyError portalReplyInvalidRequest incarnation operation
      else
        portalMessage 4 (portalHeader portalReplyInfo portalProtocolVersion 0) incarnation
          portal.bytes.length portalMaxReadBytes
    else if operation = portalOpRead then
      if request.wordCount ≠ 3 ∨ count = 0 ∨ portalMaxReadBytes < count then
        portalReplyError portalReplyInvalidRequest incarnation operation
      else
        let offset := word request 2
        if portal.bytes.length ≤ offset ∨ portal.bytes.length - offset < count then
          portalReplyError portalReplyOutOfRange incarnation offset
        else
          portalMessage 4 (portalHeader portalReplyData portalProtocolVersion count) incarnation offset
            (packBytes ((portal.bytes.drop offset).take count))
    else portalReplyError portalReplyInvalidRequest incarnation operation

/-! ### The client -/

/-- `JcosBootArchive`. -/
structure BootArchive where
  incarnation : Nat
  size : Nat
  ready : Bool
  deriving Repr, DecidableEq

/-- The loop of `portal_receive_current` over the replies in the endpoint. -/
def portalReceiveCurrent (incarnation : Nat) : Nat → List IpcMessage → Option IpcMessage
  | 0, _ => none
  | _, [] => none
  | attempts + 1, reply :: replies =>
    if reply.wordCount = 4 ∧ word reply 1 = incarnation then some reply
    else portalReceiveCurrent incarnation attempts replies

/-- `portal_call`. -/
def portalCall (portal : Portal) (incarnation : Nat) (request : IpcMessage) : Option IpcMessage :=
  portalReceiveCurrent incarnation 4 (portal.stale request ++ [portalHandle portal request])

namespace BootArchive

variable (portal : Portal)

/-- `jcos_boot_archive_open`: `jcos_boot_archive_init` and `jcos_boot_archive_probe`. -/
def bootArchiveOpen (serviceIncarnation : Nat) : Option BootArchive :=
  if serviceIncarnation = 0 then none
  else
    match portalCall portal serviceIncarnation
        (portalMessage 2 (portalHeader portalOpInfo portalProtocolVersion 0) serviceIncarnation 0 0) with
    | none => none
    | some reply =>
      if portalHeaderCode (word reply 0) ≠ portalReplyInfo ∨
          portalHeaderVersion (word reply 0) ≠ portalProtocolVersion ∨
          portalHeaderCount (word reply 0) ≠ 0 ∨ word reply 2 = 0 ∨
          word reply 3 ≠ portalMaxReadBytes then none
      else some ⟨serviceIncarnation, word reply 2, true⟩

variable (archive : BootArchive)

/-- The bytes of a reply. -/
def unpackBytes (packed chunk : Nat) : List UInt8 :=
  (List.range chunk).map fun i => UInt8.ofNat ((packed >>> (i * 8)) &&& 0xFF)

/-- The loop of `jcos_boot_archive_read`. -/
def readLoop (offset count : Nat) : Nat → Nat → List UInt8 → Option (List UInt8)
  | 0, _, _ => none
  | steps + 1, done, out =>
    if count ≤ done then some out
    else
      let chunk := min (count - done) portalMaxReadBytes
      let request := portalMessage 3 (portalHeader portalOpRead portalProtocolVersion chunk)
        archive.incarnation (offset + done) 0
      match portalCall portal archive.incarnation request with
      | none => none
      | some reply =>
        if portalHeaderCode (word reply 0) ≠ portalReplyData ∨
            portalHeaderVersion (word reply 0) ≠ portalProtocolVersion ∨
            portalHeaderCount (word reply 0) ≠ chunk ∨ word reply 2 ≠ offset + done then none
        else readLoop offset count steps (done + chunk) (out ++ unpackBytes (word reply 3) chunk)

/-- `jcos_boot_archive_read`. -/
def bootArchiveRead (offset count : Nat) : Option (List UInt8) :=
  if archive.ready = false ∨ count = 0 ∨ archive.size ≤ offset ∨ archive.size - offset < count then none
  else readLoop portal archive offset count (count + 1) 0 []

/-! ### Headers -/

/-- `block_zero`. -/
def blockZero (block : List UInt8) : Bool := block.all (· == 0)

/-- The digits of `octal_field`. -/
def octalFieldDigits : List UInt8 → Nat → Bool → Option Nat
  | [], value, sawDigit => if sawDigit = true ∨ value = 0 then some value else none
  | c :: field, value, sawDigit =>
    if c = 0 ∨ c = space then if sawDigit = true ∨ value = 0 then some value else none
    else if c < 48 ∨ 55 < c then none
    else
      let digit := c.toNat - 48
      if (2 ^ 64 - 1 - digit) / 8 < value then none
      else octalFieldDigits field (value * 8 + digit) true

/-- `octal_field`. -/
def octalField (field : List UInt8) : Option Nat :=
  if field = [] then none
  else octalFieldDigits (field.dropWhile fun c => c == space || c == 0) 0 false

/-- `header_checksum_valid`. -/
def headerChecksumValid (block : List UInt8) : Bool :=
  match octalField (field block 148 8) with
  | none => false
  | some expected => checksum block == expected

/-- `tar_magic_valid`. -/
def tarMagicValid (block : List UInt8) : Bool := field block 257 5 == [117, 115, 116, 97, 114]

/-- `JCOS_BOOT_ARCHIVE_PATH_CAPACITY`. -/
def pathCapacity : Nat := 256

/-- `path_component_parent`, for the component at the end of the path. -/
def pathComponentParent (path : List UInt8) (start : Nat) : Bool := path.drop start == dotDot

/-- The loop of `normalize_path`: the path and the start of its last component. -/
def normalizeLoop (capacity : Nat) : List UInt8 → List UInt8 → Nat → Option (List UInt8 × Nat)
  | [], output, component => some (output, component)
  | c :: input, output, component =>
    if c = slash then
      if output.getLast? = some slash then normalizeLoop capacity input output component
      else if pathComponentParent output component then none
      else if capacity ≤ output.length + 1 then none
      else normalizeLoop capacity input (output ++ [slash]) (output.length + 1)
    else if c < 32 ∨ 126 < c then none
    else if capacity ≤ output.length + 1 then none
    else normalizeLoop capacity input (output ++ [c]) component

/-- `normalize_path`. -/
def normalizePath (input : List UInt8) (capacity : Nat) : Option (List UInt8) :=
  if capacity < 2 then none
  else
    match normalizeLoop capacity (stripDotSlash (input.dropWhile (· == slash))) [] 0 with
    | none => none
    | some (output, component) =>
      if pathComponentParent output component then none
      else
        let output := output.rdropWhile (· == slash)
        if output = [] then none else some output

/-- `field_append`. -/
def fieldAppend : List UInt8 → List UInt8 → Option (List UInt8)
  | dst, [] => some dst
  | dst, b :: src =>
    if b = 0 then some dst
    else if pathCapacity ≤ dst.length + 1 then none
    else fieldAppend (dst ++ [b]) src

/-- The name `entry_from_header` collects. -/
def rawName (block : List UInt8) : Option (List UInt8) :=
  let raw :=
    if block.getD 345 0 ≠ 0 then
      match fieldAppend [] (field block 345 155) with
      | none => none
      | some raw => if pathCapacity ≤ raw.length + 1 then none else some (raw ++ [slash])
    else some []
  raw.bind fun raw => fieldAppend raw (field block 0 100)

inductive EntryType
  | none
  | file
  | directory
  deriving Repr, DecidableEq

/-- `JcosBootArchiveEntry`. -/
structure Entry where
  path : List UInt8
  headerOffset : Nat
  dataOffset : Nat
  size : Nat
  type : EntryType
  deriving Repr, DecidableEq

/-- `entry_from_header`: the entry and the offset of the next header. -/
def entryFromHeader (block : List UInt8) (headerOffset archiveSize : Nat) : Option (Entry × Nat) :=
  if ¬ tarMagicValid block ∨ ¬ headerChecksumValid block then none
  else
    match octalField (field block 124 12) with
    | none => none
    | some size =>
      if archiveSize < headerOffset ∨ archiveSize - headerOffset < tarBlockSize then none
      else
        let dataOffset := headerOffset + tarBlockSize
        if archiveSize - dataOffset < size ∨ 2 ^ 64 - 1 - (tarBlockSize - 1) < size then none
        else
          let padded := (size + (tarBlockSize - 1)) / tarBlockSize * tarBlockSize
          if padded < size ∨ archiveSize - dataOffset < padded then none
          else
            match rawName block with
            | none => none
            | some raw =>
              let type := block.getD 156 0
              some (⟨(normalizePath raw pathCapacity).getD [], headerOffset, dataOffset, size,
                if type = 53 then .directory
                else if type = 0 ∨ type = 48 then .file else .none⟩, dataOffset + padded)

/-- What `jcos_boot_archive_next` returns: an entry and the cursor after it, `0` or `-1`. -/
inductive NextResult
  | entry (e : Entry) (cursor : Nat)
  | finished
  | malformed
  deriving Repr, DecidableEq

/-- The loop of `jcos_boot_archive_next`. -/
def nextLoop : Nat → Nat → Option NextResult
  | 0, _ => none
  | steps + 1, offset =>
    if (offset + tarBlockSize) % 2 ^ 64 ≤ archive.size then
      match bootArchiveRead portal archive offset tarBlockSize with
      | none => some .malformed
      | some block =>
        if blockZero block then some .finished
        else
          match entryFromHeader block offset archive.size with
          | none => some .malformed
          | some (entry, next) =>
            if next ≤ offset then some .malformed
            else if entry.path ≠ [] ∧ entry.type ≠ .none then some (.entry entry next)
            else if archive.size ≤ next then some .finished
            else nextLoop steps next
    else some .finished

/-- `jcos_boot_archive_next`. -/
def bootArchiveNext (cursor : Nat) : Option NextResult :=
  if archive.ready = false ∨ cursor % tarBlockSize ≠ 0 then some .malformed
  else nextLoop portal archive (archive.size / tarBlockSize + 1) cursor

/-- The loop of `jcos_boot_archive_find`. -/
def findLoop (canonical : List UInt8) : Nat → Nat → Option (Option Entry)
  | 0, _ => none
  | steps + 1, cursor =>
    match bootArchiveNext portal archive cursor with
    | none => none
    | some (.entry candidate cursor) =>
      if candidate.path = canonical then some (some candidate) else findLoop canonical steps cursor
    | some _ => some none

/-- `jcos_boot_archive_find`. -/
def bootArchiveFind (path : CString) : Option (Option Entry) :=
  if archive.ready = false then some none
  else
    match normalizePath path.val pathCapacity with
    | none => some none
    | some canonical => findLoop portal archive canonical (archive.size / tarBlockSize + 1) 0

end BootArchive

end JcosKernel
