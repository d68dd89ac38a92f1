import JcosKernel.Lib.Allocator
import JcosKernel.Lib.Bits
import JcosKernel.Lib.Forest
import JcosKernel.Lib.Loop
import JcosKernel.Object.Model
import JcosKernel.Pmm.Model

/-!
# JcosKernel.Vmm.Model

The four-level page tables of `kernel/vmm.c`.

* A table is named by its frame number; a pointer to an entry is the frame of its table and
  an index. `VmState.table` is physical memory read as tables.
* Page maps live at addresses of an arbitrary type `R`, so that the same functions serve one
  map and a whole kernel of address spaces.
* The frame allocator is a parameter: any allocator that keeps the contract of
  `Lib.Allocator`.
* What the processor's registers hold is a parameter of every call (`Cpu`). Writing CR3 back
  to flush the TLB changes nothing here.

Addresses are natural numbers; entries and flags are 64-bit words. Null pointers, for which
every function returns false at once, are left out.
-/

namespace JcosKernel

open Lib Function

/-- A page-table entry. -/
abbrev Pte := BitVec 64

def ptePresent : Pte := 0x1
def pteWrite : Pte := 0x2
def pteUser : Pte := 0x4
def ptePwt : Pte := 0x8
def ptePcd : Pte := 0x10
def pteHuge : Pte := 0x80
/-- Bit 8, which the source writes as `1ULL << 8`. -/
def pteGlobal : Pte := 0x100
def pteNx : Pte := 0x8000000000000000
def pteAddressMask : Pte := 0x000FFFFFFFFFF000

/-- `vm_flags_t`. -/
abbrev VmFlags := BitVec 64

def vmWrite : VmFlags := 0x1
def vmUser : VmFlags := 0x2
def vmExec : VmFlags := 0x4
def vmUncached : VmFlags := 0x8
def vmDevice : VmFlags := 0x10

/-- The flags that `map_page_locked` understands. -/
def vmAllFlags : VmFlags := 0x1F

/-- `VM_PML4_ENTRY_COUNT` and `PAGE_TABLE_ENTRIES`. -/
abbrev pageTableEntries : Nat := 512

/-- `PHYS_MAP_SIZE`. -/
def physMapSize : Nat := 0x0000800000000000

/-- An index into a page table. -/
abbrev TableIndex := Fin pageTableEntries

/-- The registers that `vmm.c` reads. -/
structure Cpu where
  cr0 : BitVec 64
  cr3 : BitVec 64
  cr4 : BitVec 64
  /-- IA32_PAT. -/
  pat : BitVec 64
  /-- EDX of CPUID leaf 1. -/
  features : BitVec 32

/-- `profile_supported`: CR4.PCIDE is clear. -/
def Cpu.ProfileSupported (cpu : Cpu) : Prop := ¬ Has cpu.cr4 0x20000

instance (cpu : Cpu) : Decidable cpu.ProfileSupported := inferInstanceAs (Decidable (¬ _))

/-! ### Addresses and entries -/

/-- `page_aligned`. -/
def PageAligned (address : Nat) : Prop := address % 4096 = 0

instance (address : Nat) : Decidable (PageAligned address) := inferInstanceAs (Decidable (_ = _))

/-- `virtual_address_canonical`. -/
def VirtualAddressCanonical (address : Nat) : Prop :=
  if address / 2 ^ 47 % 2 ≠ 0 then address / 2 ^ 48 = 0xFFFF else address / 2 ^ 48 = 0

instance (address : Nat) : Decidable (VirtualAddressCanonical address) :=
  inferInstanceAs (Decidable
    (if address / 2 ^ 47 % 2 ≠ 0 then address / 2 ^ 48 = 0xFFFF else address / 2 ^ 48 = 0))

/-- The index that an address has at one level; `shift` is the first of its nine bits. -/
def tableIndex (shift address : Nat) : TableIndex :=
  ⟨address / 2 ^ shift % pageTableEntries, Nat.mod_lt _ (by decide)⟩

def pml4Index (address : Nat) : TableIndex := tableIndex 39 address
def pdptIndex (address : Nat) : TableIndex := tableIndex 30 address
def pdIndex (address : Nat) : TableIndex := tableIndex 21 address
def ptIndex (address : Nat) : TableIndex := tableIndex 12 address

/-- The way from the root to the last table. -/
def tablePath (address : Nat) : List TableIndex :=
  [pml4Index address, pdptIndex address, pdIndex address]

/-- `entry_frame`. -/
def entryFrame (entry : Pte) : Nat := physToFrame (entry &&& pteAddressMask).toNat

/-- The physical address of a frame, as a word. -/
def framePte (frame : Nat) : Pte := BitVec.ofNat 64 (frameToPhys frame)

/-- `valid_mapping_frame`. -/
def ValidMappingFrame (frame : Nat) : Prop :=
  frame ≠ frameInvalid ∧ frameToPhys frame ≠ 0 ∧ Within (framePte frame) pteAddressMask

instance (frame : Nat) : Decidable (ValidMappingFrame frame) :=
  inferInstanceAs (Decidable (_ ∧ _ ∧ _))

/-- The bits of a leaf entry for the flags of a mapping. -/
def leafBits (flags : VmFlags) : Pte :=
  let bits := ptePresent ||| pteNx
  let bits := if Has flags vmWrite then bits ||| pteWrite else bits
  let bits := if Has flags vmUser then bits ||| pteUser else bits
  let bits := if Has flags vmUncached then bits ||| ptePcd else bits
  let bits := if Has flags vmDevice then bits ||| (ptePcd ||| ptePwt) else bits
  if Has flags vmExec then bits &&& ~~~pteNx else bits

/-- The bits of an entry that leads to a table. -/
def tableBits (user : Bool) : Pte :=
  ptePresent ||| pteWrite ||| if user then pteUser else 0

/-- The flags that `vmm_query_page` reports for the entries of the four levels. -/
def effectiveFlags (pml4e pdpte pde pte : Pte) : VmFlags :=
  (if Has pml4e pteWrite ∧ Has pdpte pteWrite ∧ Has pde pteWrite ∧ Has pte pteWrite then vmWrite
    else 0) |||
  (if Has pml4e pteUser ∧ Has pdpte pteUser ∧ Has pde pteUser ∧ Has pte pteUser then vmUser
    else 0) |||
  (if ¬ Has (pml4e ||| pdpte ||| pde ||| pte) pteNx then vmExec else 0) |||
  (if pte &&& (ptePcd ||| ptePwt) = ptePcd ||| ptePwt then vmDevice
    else if Has pte ptePcd then vmUncached else 0)

/-! ### The state -/

/-- The injected faults of `vmm_test.h`. -/
inductive VmmTestFault
  | alloc
  | access
  | free
  deriving Repr, DecidableEq

/-- An element of `g_faults`. -/
structure ArmedFault (R : Type) where
  map : Option R
  skip : Nat
  armed : Bool

def ArmedFault.clear {R : Type} : ArmedFault R := ⟨none, 0, false⟩

/-- The page maps, the tables in memory and the static variables of `vmm.c`. -/
structure VmState (R σ : Type) where
  map : R → VmPageMap
  table : Nat → TableIndex → Pte
  pmm : σ
  unlinkedTable : Option Nat
  faults : VmmTestFault → ArmedFault R
  usePhysMap : Bool
  nxEnabled : Bool

/-- An entry that `map_page_locked` filled with a new table. -/
structure CreatedTable where
  parent : Nat
  index : TableIndex
  frame : Nat

/-- `map_active`. -/
def VmPageMap.Active (map : VmPageMap) (cpu : Cpu) : Prop :=
  ∃ root ∈ map.rootFrame, cpu.cr3 &&& pteAddressMask = framePte root

instance (map : VmPageMap) (cpu : Cpu) : Decidable (map.Active cpu) :=
  inferInstanceAs (Decidable (∃ root ∈ map.rootFrame, _))

/-- `map_owns_pml4_index`. -/
def VmPageMap.OwnsPml4Index (map : VmPageMap) (index : TableIndex) : Prop :=
  map.ownedPml4First ≤ index.val ∧ index.val < map.ownedPml4End

instance (map : VmPageMap) (index : TableIndex) : Decidable (map.OwnsPml4Index index) :=
  inferInstanceAs (Decidable (_ ∧ _))

/-- `map_reclaimable`. -/
def VmPageMap.Reclaimable (map : VmPageMap) (cpu : Cpu) : Prop :=
  map.rootFrame ≠ none ∧ map.ownedPml4First < map.ownedPml4End ∧
    map.ownedPml4End ≤ pageTableEntries ∧ ¬ map.sharedSource ∧ ¬ map.Active cpu ∧
    cpu.ProfileSupported

instance (map : VmPageMap) (cpu : Cpu) : Decidable (map.Reclaimable cpu) :=
  inferInstanceAs (Decidable (_ ∧ _))

/-- The indices from `first` on, `last` excluded. -/
def indexRange (first last : Nat) : List TableIndex :=
  (List.finRange pageTableEntries).filter fun i => first ≤ i.val ∧ i.val < last

namespace VmState

variable {R σ : Type} [DecidableEq R] (A : Allocator Nat σ) (cpu : Cpu) (s : VmState R σ) (map : R)

/-- Store a page map. -/
def setMap (value : VmPageMap) : VmState R σ := { s with map := update s.map map value }

/-- Store an entry. -/
def setEntry (frame : Nat) (index : TableIndex) (entry : Pte) : VmState R σ :=
  { s with table := Forest.set s.table frame index entry }

/-- `test_fault`. -/
def testFault (fault : VmmTestFault) : Bool × VmState R σ :=
  let f := s.faults fault
  if ¬ f.armed ∨ f.map ≠ some map then (false, s)
  else if f.skip ≠ 0 then
    (false, { s with faults := update s.faults fault { f with skip := f.skip - 1 } })
  else
    (true, { s with
      faults := update s.faults fault { f with armed := false, map := none } })

/-- `vmm_test_fail_once`. -/
def vmmTestFailOnce (fault : VmmTestFault) (skip : Nat) : Bool × VmState R σ :=
  if (s.faults fault).armed then (false, s)
  else (true, { s with faults := update s.faults fault ⟨some map, skip, true⟩ })

/-- `frame_free`. -/
def frameFree (frame : Nat) : Bool × VmState R σ :=
  match A.free frame s.pmm with
  | (result, pmm) => (result, { s with pmm := pmm })

/-- `vmm_reclaim_unlinked_table`. -/
def vmmReclaimUnlinkedTable : Bool × VmState R σ :=
  match s.unlinkedTable with
  | none => (true, s)
  | some frame =>
    match s.frameFree A frame with
    | (true, s) => (true, { s with unlinkedTable := none })
    | (false, s) => (false, s)

/-- `free_table`. -/
def freeTable (frame : Nat) : Bool × VmState R σ :=
  match s.testFault map .free with
  | (true, s) => (false, s)
  | (false, s) => s.frameFree A frame

/-- `table_pointer`: the table of a frame, if its memory can be reached. -/
def tablePointer (frame : Nat) : Option Nat :=
  if frameToPhys frame = 0 then none
  else if s.usePhysMap ∧ physMapSize ≤ frameToPhys frame then none
  else some frame

/-- The end of `allocate_table` when the new frame cannot be used. -/
def refuseTable (frame : Nat) : VmState R σ :=
  match s.freeTable A map frame with
  | (true, s) => s
  | (false, s) => { s with unlinkedTable := some frame }

/-- `allocate_table`: the frame of a zeroed table. -/
def allocateTable : Option Nat × VmState R σ :=
  if s.unlinkedTable ≠ none then (none, s)
  else
    match s.testFault map .alloc with
    | (true, s) => (none, s)
    | (false, s) =>
      match A.alloc s.pmm with
      | (none, pmm) => (none, { s with pmm := pmm })
      | (some frame, pmm) =>
        let s := { s with pmm := pmm }
        -- the fault is asked for a valid frame only
        match if ValidMappingFrame frame then s.testFault map .access else (true, s) with
        | (true, s) => (none, s.refuseTable A map frame)
        | (false, s) =>
          match s.tablePointer frame with
          | none => (none, s.refuseTable A map frame)
          | some table => (some table, { s with table := update s.table table fun _ => 0 })

/-- `existing_table`. -/
def existingTable (parent : Nat) (index : TableIndex) : Option Nat :=
  let entry := s.table parent index
  if ¬ Has entry ptePresent ∨ Has entry pteHuge ∨ entryFrame entry = frameInvalid then none
  else s.tablePointer (entryFrame entry)

/-- `create_or_get_table`: the frame of a new table, if one was needed, and the table. -/
def createOrGetTable (parent : Nat) (index : TableIndex) (user : Bool) :
    Option (Option Nat × Nat) × VmState R σ :=
  let entry := s.table parent index
  if Has entry ptePresent then
    if Has entry pteHuge then (none, s)
    else
      let entry := entry ||| pteWrite
      let entry := if user then entry ||| pteUser else entry
      let s := s.setEntry parent index entry
      if entryFrame entry = frameInvalid then (none, s)
      else
        match s.tablePointer (entryFrame entry) with
        | none => (none, s)
        | some table => (some (none, table), s)
  else if entry ≠ 0 then (none, s)
  else
    match s.allocateTable A map with
    | (none, s) => (none, s)
    | (some frame, s) =>
      (some (some frame, frame), s.setEntry parent index (framePte frame ||| tableBits user))

/-- `table_empty`. -/
def TableEmpty (table : Nat) : Prop := ∀ i, s.table table i = 0

instance (table : Nat) : Decidable (s.TableEmpty table) :=
  inferInstanceAs (Decidable (∀ i, s.table table i = 0))

/-- `release_empty_child`. -/
def releaseEmptyChild (parent : Nat) (index : TableIndex) : Bool × VmState R σ :=
  let entry := s.table parent index
  if ¬ Has entry ptePresent ∨ Has entry pteHuge then (false, s)
  else
    match s.tablePointer (entryFrame entry) with
    | none => (false, s)
    | some table =>
      if ¬ s.TableEmpty table then (false, s)
      else
        match (s.setEntry parent index 0).freeTable A map (entryFrame entry) with
        | (true, s) => (true, s)
        | (false, s) => (false, s.setEntry parent index entry)

/-- One turn of the loop in `rollback_created_tables`. -/
def rollbackTable (c : CreatedTable) (s : VmState R σ) : Bool × VmState R σ :=
  if entryFrame (s.table c.parent c.index) ≠ c.frame then (false, s)
  else s.releaseEmptyChild A map c.parent c.index

/-- `rollback_created_tables`; the last table that was created comes first. -/
def rollbackCreatedTables (created : List CreatedTable) : VmState R σ :=
  if (s.map map).Active cpu ∨ (s.map map).sharedSource then s
  else (each (rollbackTable A map) created s).2

/-- `tree_has_no_leaves`; the indices of the table are given as a list. -/
def treeHasNoLeaves : Nat → Nat → List TableIndex → Bool
  | 0, _, _ => false
  | level + 1, frame, indices =>
    (s.tablePointer frame).isSome && indices.all fun i =>
      let entry := s.table frame i
      entry = 0 || (level ≠ 0 ∧ Has entry ptePresent ∧ ¬ Has entry pteHuge ∧
          entryFrame entry ≠ frame) &&
        treeHasNoLeaves level (entryFrame entry) (List.finRange pageTableEntries)

/-- One turn of the loop in `collect_children`; `below` collects below a child. -/
def collectTurn (below : Nat → VmState R σ → Bool × VmState R σ) (frame : Nat) (i : TableIndex)
    (s : VmState R σ) : Bool × VmState R σ :=
  let entry := s.table frame i
  if entry = 0 then (true, s)
  else if ¬ Has entry ptePresent ∨ Has entry pteHuge then (false, s)
  else
    let child := entryFrame entry
    if child = frame then (false, s)
    else
      match below child s with
      | (false, s) => (false, s)
      | (true, s) =>
        if ∃ table ∈ s.tablePointer child, s.TableEmpty table then
          s.releaseEmptyChild A map frame i
        else (true, s)

/-- `collect_children`. -/
def collectChildren : Nat → Nat → List TableIndex → VmState R σ → Bool × VmState R σ
  | 0, _, _, s => (false, s)
  | level + 1, frame, indices, s =>
    if s.tablePointer frame = none then (false, s)
    else if level = 0 then (true, s)
    else
      each (collectTurn A map
        (fun child => collectChildren level child (List.finRange pageTableEntries)) frame) indices s

/-- The indices that a page map owns. -/
def ownedIndices : List TableIndex :=
  indexRange (s.map map).ownedPml4First (s.map map).ownedPml4End

/-! ### The operations -/

/-- `vmm_page_map_collect`. -/
def vmmPageMapCollect : Bool × VmState R σ :=
  match (s.map map).rootFrame with
  | none => (false, s)
  | some root =>
    if ¬ (s.map map).Reclaimable cpu then (false, s)
    else collectChildren A map 4 root (s.ownedIndices map) s

/-- `vmm_page_map_create_owned_range`. -/
def vmmPageMapCreateOwnedRange (first last : Nat) : Bool × VmState R σ :=
  if ¬ cpu.ProfileSupported ∨ last ≤ first ∨ pageTableEntries < last then (false, s)
  else
    match (s.setMap map .invalid).allocateTable A map with
    | (none, s) => (false, s)
    | (some root, s) => (true, s.setMap map ⟨some root, first, last, false, false⟩)

/-- `vmm_page_map_destroy`. -/
def vmmPageMapDestroy : Bool × VmState R σ :=
  match (s.map map).rootFrame with
  | none => (false, s)
  | some root =>
    if ¬ (s.map map).Reclaimable cpu then (false, s)
    else if ¬ s.treeHasNoLeaves 4 root (s.ownedIndices map) then (false, s)
    else
      let s := s.setMap map { s.map map with destroyPending := true }
      match collectChildren A map 4 root (s.ownedIndices map) s with
      | (false, s) => (false, s)
      | (true, s) =>
        match s.freeTable A map root with
        | (false, s) => (false, s)
        | (true, s) => (true, s.setMap map { s.map map with
            rootFrame := none, ownedPml4First := 0, ownedPml4End := 0, destroyPending := false })

/-- `vmm_device_memory_supported`. -/
def VmmDeviceMemorySupported : Prop :=
  s.nxEnabled ∧ cpu.ProfileSupported ∧ Has cpu.features 0x10000 ∧ Has cpu.cr0 0x10000 ∧
    ¬ Has cpu.cr0 0x60000000 ∧ cpu.pat >>> 24 &&& 0xFF = 0

instance : Decidable (s.VmmDeviceMemorySupported cpu) := inferInstanceAs (Decidable (_ ∧ _))

/-- The part of `map_page_locked` that walks down to the last table, creating what is
missing: the last table, if all could be had, and what was created. -/
def createTables (user : Bool) : Nat → List TableIndex → List CreatedTable → VmState R σ →
    Option Nat × List CreatedTable × VmState R σ
  | table, [], created, s => (some table, created, s)
  | table, i :: path, created, s =>
    match s.createOrGetTable A map table i user with
    | (none, s) => (none, created, s)
    | (some (none, next), s) => createTables user next path created s
    | (some (some frame, next), s) => createTables user next path (⟨table, i, frame⟩ :: created) s

/-- The checks at the head of `map_page_locked`. -/
def MapRefused (address frame : Nat) (flags : VmFlags) : Prop :=
  (s.map map).destroyPending ∨ ((s.map map).sharedSource ∧ ¬ (s.map map).Active cpu) ∨
    ¬ PageAligned address ∨ ¬ VirtualAddressCanonical address ∨ ¬ ValidMappingFrame frame ∨
    ¬ s.nxEnabled ∨ ¬ Within flags vmAllFlags ∨
    (Has flags vmDevice ∧ (Has flags vmUncached ∨ ¬ s.VmmDeviceMemorySupported cpu)) ∨
    ¬ (s.map map).OwnsPml4Index (pml4Index address)

instance (address frame : Nat) (flags : VmFlags) :
    Decidable (s.MapRefused cpu map address frame flags) := inferInstanceAs (Decidable (_ ∨ _))

/-- `vmm_map_page`. -/
def vmmMapPage (address frame : Nat) (flags : VmFlags) : Bool × VmState R σ :=
  match (s.map map).rootFrame with
  | none => (false, s)
  | some root =>
    if ¬ cpu.ProfileSupported ∨ s.MapRefused cpu map address frame flags then (false, s)
    else
      match s.tablePointer root with
      | none => (false, s)
      | some pml4 =>
        match createTables A map (Has flags vmUser) pml4 (tablePath address) [] s with
        | (none, created, s) => (false, s.rollbackCreatedTables A cpu map created)
        | (some pt, created, s) =>
          if s.table pt (ptIndex address) ≠ 0 then
            (false, s.rollbackCreatedTables A cpu map created)
          else (true, s.setEntry pt (ptIndex address) (framePte frame ||| leafBits flags))

/-- The tables on the way to an address, as `vmm_query_page` and `unmap_page_locked` find
them. -/
def existingTables (root address : Nat) : Option (Nat × Nat × Nat × Nat) :=
  match s.tablePointer root with
  | none => none
  | some pml4 =>
    match s.existingTable pml4 (pml4Index address) with
    | none => none
    | some pdpt =>
      match s.existingTable pdpt (pdptIndex address) with
      | none => none
      | some pd =>
        match s.existingTable pd (pdIndex address) with
        | none => none
        | some pt => some (pml4, pdpt, pd, pt)

/-- `vmm_query_page`: the frame and the flags, if the page is mapped. -/
def vmmQueryPage (address : Nat) : Option (Nat × VmFlags) :=
  match (s.map map).rootFrame with
  | none => none
  | some root =>
    if ¬ PageAligned address ∨ ¬ VirtualAddressCanonical address then none
    else
      match s.existingTables root address with
      | none => none
      | some (pml4, pdpt, pd, pt) =>
        let pte := s.table pt (ptIndex address)
        if ¬ Has pte ptePresent then none
        else some (entryFrame pte, effectiveFlags (s.table pml4 (pml4Index address))
          (s.table pdpt (pdptIndex address)) (s.table pd (pdIndex address)) pte)

/-- The pruning at the end of `unmap_page_locked`. -/
def pruneTables (address pml4 pdpt pd pt : Nat) : VmState R σ :=
  if (s.map map).Active cpu ∨ (s.map map).sharedSource ∨ ¬ s.TableEmpty pt then s
  else
    match s.releaseEmptyChild A map pd (pdIndex address) with
    | (false, s) => s
    | (true, s) =>
      if ¬ s.TableEmpty pd then s
      else
        match s.releaseEmptyChild A map pdpt (pdptIndex address) with
        | (false, s) => s
        | (true, s) =>
          if ¬ s.TableEmpty pdpt then s
          else (s.releaseEmptyChild A map pml4 (pml4Index address)).2

/-- `vmm_unmap_page`: the frame that was mapped, when it returns true. -/
def vmmUnmapPage (address : Nat) : Option Nat × VmState R σ :=
  match (s.map map).rootFrame with
  | none => (none, s)
  | some root =>
    if ¬ cpu.ProfileSupported ∨ (s.map map).destroyPending ∨
        ((s.map map).sharedSource ∧ ¬ (s.map map).Active cpu) ∨ ¬ PageAligned address ∨
        ¬ VirtualAddressCanonical address ∨ ¬ (s.map map).OwnsPml4Index (pml4Index address) then
      (none, s)
    else
      match s.existingTables root address with
      | none => (none, s)
      | some (pml4, pdpt, pd, pt) =>
        let entry := s.table pt (ptIndex address)
        if ¬ Has entry ptePresent ∨ Has entry pteGlobal then (none, s)
        else
          (some (entryFrame entry),
            (s.setEntry pt (ptIndex address) 0).pruneTables A cpu map address pml4 pdpt pd pt)

/-- `vmm_set_writable`. -/
def vmmSetWritable (address expected : Nat) (expectedFlags : VmFlags) (writable : Bool) :
    Bool × VmState R σ :=
  if ¬ cpu.ProfileSupported ∨ (s.map map).destroyPending ∨ ¬ PageAligned address ∨
      ¬ VirtualAddressCanonical address ∨ ¬ (s.map map).OwnsPml4Index (pml4Index address) ∨
      ((s.map map).sharedSource ∧ ¬ (s.map map).Active cpu) then (false, s)
  else
    match s.vmmQueryPage map address with
    | none => (false, s)
    | some (actual, permissions) =>
      if actual ≠ expected ∨ permissions ≠ expectedFlags ∨ Has permissions vmExec ∨
          (Has permissions vmDevice ∧ ¬ s.VmmDeviceMemorySupported cpu) then (false, s)
      else
        match (s.map map).rootFrame.bind (s.existingTables · address) with
        | none => (false, s)
        | some (pml4, pdpt, pd, pt) =>
          if ¬ Has (s.table pml4 (pml4Index address)) pteWrite ∨
              ¬ Has (s.table pdpt (pdptIndex address)) pteWrite ∨
              ¬ Has (s.table pd (pdIndex address)) pteWrite then (false, s)
          else
            let leaf := s.table pt (ptIndex address)
            if Has leaf (pteGlobal ||| pteHuge) ∨ ¬ Has leaf pteNx then (false, s)
            else
              (true, s.setEntry pt (ptIndex address)
                (if writable then leaf ||| pteWrite else leaf &&& ~~~pteWrite))

/-- `vmm_page_map_share_pml4_entry`. -/
def vmmPageMapSharePml4Entry (destination source : R) (index : TableIndex) :
    Bool × VmState R σ :=
  match (s.map destination).rootFrame, (s.map source).rootFrame with
  | some destinationRoot, some sourceRoot =>
    if ¬ cpu.ProfileSupported ∨ destination = source ∨ (s.map destination).destroyPending ∨
        (s.map source).destroyPending ∨ (s.map destination).Active cpu ∨
        (s.map destination).OwnsPml4Index index then (false, s)
    else
      match s.tablePointer destinationRoot, s.tablePointer sourceRoot with
      | some destinationPml4, some sourcePml4 =>
        if Has (s.table destinationPml4 index) ptePresent then (false, s)
        else
          let entry := s.table sourcePml4 index
          let s := s.setEntry destinationPml4 index entry
          (true, if Has entry ptePresent then
            s.setMap source { s.map source with sharedSource := true } else s)
      | _, _ => (false, s)
  | _, _ => (false, s)

end VmState

end JcosKernel
