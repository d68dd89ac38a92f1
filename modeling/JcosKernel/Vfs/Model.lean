import JcosKernel.Lib.Chain

/-!
# JcosKernel.Vfs.Model

The in-memory file tree of `kernel/vfs.c`.

* A node is named by its index in `g_nodes`; a null pointer is `none`. The children of a
  directory form a list through `first_child` and `next_sibling`.
* A C string is the list of its bytes, without the terminating zero (`CString`).
* Loops are given a number of steps: those over siblings `VFS_MAX_NODES`, those over the
  components of a path one more than the path has bytes.

Sizes and lengths are natural numbers: no `u32` in `vfs.c` exceeds the number of nodes times
`VFS_NAME_MAX + 1`. Null arguments, for which every function returns at once, are left out.
-/

namespace JcosKernel

open Lib Function

/-- A C string: bytes other than zero. -/
abbrev CString := { l : List UInt8 // 0 ∉ l }

abbrev NodeRef := Nat

/-- `VFS_NAME_MAX`. -/
def vfsNameMax : Nat := 63

/-- `VFS_PATH_MAX`. -/
def vfsPathMax : Nat := 256

/-- `VFS_MAX_NODES`. -/
def vfsMaxNodes : Nat := 256

/-- The character `/`. -/
def slash : UInt8 := 47

/-- The names `.` and `..`. -/
def dot : List UInt8 := [46]
def dotDot : List UInt8 := [46, 46]

inductive VfsNodeType
  | file
  | directory
  deriving Repr, DecidableEq

structure VfsNode where
  name : List UInt8
  type : VfsNodeType
  /-- An address. -/
  data : Nat
  size : Nat
  parent : Option NodeRef
  firstChild : Option NodeRef
  nextSibling : Option NodeRef
  deriving Repr, DecidableEq

/-- A zeroed node: `VFS_FILE` is zero. -/
def VfsNode.zero : VfsNode := ⟨[], .file, 0, 0, none, none, none⟩

/-- `g_nodes`, `g_node_count` and `g_root`. -/
structure VfsState where
  node : NodeRef → VfsNode
  nodeCount : Nat
  root : Option NodeRef

/-- What `next_component` finds. -/
inductive NextComponent
  /-- End of path. -/
  | done
  | tooLong
  /-- The component and the rest of the path. -/
  | read (component cursor : List UInt8)

/-- `next_component`. -/
def nextComponent (cursor : List UInt8) : NextComponent :=
  match cursor.dropWhile (· == slash) with
  | [] => .done
  | p =>
    let component := p.takeWhile (· != slash)
    if vfsNameMax < component.length then .tooLong
    else .read component (p.dropWhile (· != slash))

namespace VfsState

variable (s : VfsState)

/-- Store through a node pointer. -/
def modify (n : NodeRef) (f : VfsNode → VfsNode) : VfsState :=
  { s with node := update s.node n (f (s.node n)) }

/-- The pointer to the next sibling. -/
def next (n : NodeRef) : Option NodeRef := (s.node n).nextSibling

/-- `allocate_node`. -/
def allocateNode : Option NodeRef × VfsState :=
  if vfsMaxNodes ≤ s.nodeCount then (none, s)
  else
    (some s.nodeCount, { s with
      nodeCount := s.nodeCount + 1
      node := update s.node s.nodeCount .zero })

/-- `set_node_name`. -/
def setNodeName (n : NodeRef) (name : List UInt8) : Bool × VfsState :=
  if vfsNameMax < name.length then (false, s)
  else (true, s.modify n fun node => { node with name := name })

/-- `append_child`. -/
def appendChild (parent child : NodeRef) : VfsState :=
  let s := s.modify child fun node => { node with parent := some parent, nextSibling := none }
  match (s.node parent).firstChild with
  | none => s.modify parent fun node => { node with firstChild := some child }
  | some first =>
    s.modify (chainLast s.next vfsMaxNodes first) fun node => { node with nextSibling := some child }

/-- `vfs_init`. -/
def vfsInit : VfsState :=
  match { s with nodeCount := 0 }.allocateNode with
  | (none, s) => { s with root := none }
  | (some root, s) =>
    { s with root := some root }.modify root fun node =>
      { node with
        name := []
        type := .directory
        parent := none
        firstChild := none
        nextSibling := none }

/-- `vfs_find_child`. -/
def vfsFindChild (directory : NodeRef) (name : List UInt8) : Option NodeRef :=
  if (s.node directory).type ≠ .directory then none
  else
    chainFind s.next (fun n => (s.node n).name == name) vfsMaxNodes (s.node directory).firstChild

/-- A new child: the end of `ensure_directory` and of `vfs_add_file`. `fill` sets what is left
besides the name. -/
def newChild (parent : NodeRef) (name : List UInt8) (fill : VfsNode → VfsNode) :
    Option NodeRef × VfsState :=
  match s.allocateNode with
  | (none, s) => (none, s)
  | (some n, s) =>
    match s.setNodeName n name with
    | (false, s) => (none, s)
    | (true, s) => (some n, (s.modify n fill).appendChild parent n)

/-- `ensure_directory`. -/
def ensureDirectory (parent : NodeRef) (name : List UInt8) : Option NodeRef × VfsState :=
  match s.vfsFindChild parent name with
  | some existing =>
    if (s.node existing).type ≠ .directory then (none, s) else (some existing, s)
  | none => s.newChild parent name fun node => { node with type := .directory }

/-- The loop of `vfs_resolve`. -/
def resolveLoop : Nat → NodeRef → List UInt8 → Option NodeRef
  | 0, _, _ => none
  | steps + 1, current, cursor =>
    match nextComponent cursor with
    | .done => some current
    | .tooLong => none
    | .read component cursor =>
      if component = dot then resolveLoop steps current cursor
      else if component = dotDot then
        resolveLoop steps ((s.node current).parent.getD current) cursor
      else
        match s.vfsFindChild current component with
        | none => none
        | some child => resolveLoop steps child cursor

/-- `vfs_resolve`. -/
def vfsResolve (start : Option NodeRef) (path : CString) : Option NodeRef :=
  match s.root with
  | none => none
  | some root =>
    let current := if path.val.head? = some slash then root else start.getD root
    s.resolveLoop (path.val.length + 1) current path.val

/-- The loop of `vfs_add_directory`. -/
def addDirectoryLoop : Nat → NodeRef → List UInt8 → VfsState → Bool × VfsState
  | 0, _, _, s => (false, s)
  | steps + 1, current, cursor, s =>
    match nextComponent cursor with
    | .done => (true, s)
    | .tooLong => (false, s)
    | .read component cursor =>
      if component = dot then addDirectoryLoop steps current cursor s
      else if component = dotDot then (false, s)
      else
        match s.ensureDirectory current component with
        | (none, s) => (false, s)
        | (some child, s) => addDirectoryLoop steps child cursor s

/-- `vfs_add_directory`. -/
def vfsAddDirectory (path : CString) : Bool × VfsState :=
  match s.root with
  | none => (false, s)
  | some root => addDirectoryLoop (path.val.length + 1) root path.val s

/-- The last component in `vfs_add_file`. -/
def putFile (current : NodeRef) (component : List UInt8) (data size : Nat) : Bool × VfsState :=
  match s.vfsFindChild current component with
  | some existing =>
    if (s.node existing).type ≠ .file then (false, s)
    else (true, s.modify existing fun node => { node with data := data, size := size })
  | none =>
    match s.newChild current component fun node =>
      { node with type := .file, data := data, size := size } with
    | (none, s) => (false, s)
    | (some _, s) => (true, s)

/-- The loop of `vfs_add_file`. -/
def addFileLoop (data size : Nat) : Nat → NodeRef → List UInt8 → VfsState → Bool × VfsState
  | 0, _, _, s => (false, s)
  | steps + 1, current, cursor, s =>
    match nextComponent cursor with
    | .done => (false, s)
    | .tooLong => (false, s)
    | .read component cursor =>
      if component = dot then addFileLoop data size steps current cursor s
      else if component = dotDot then (false, s)
      else if cursor.dropWhile (· == slash) ≠ [] then
        match s.ensureDirectory current component with
        | (none, s) => (false, s)
        | (some child, s) => addFileLoop data size steps child cursor s
      else s.putFile current component data size

/-- `vfs_add_file`. -/
def vfsAddFile (path : CString) (data size : Nat) : Bool × VfsState :=
  match s.root with
  | none => (false, s)
  | some root => addFileLoop data size (path.val.length + 1) root path.val s

/-! ### `vfs_get_path` -/

/-- The first loop of `vfs_get_path`: the length of the path, if the loop arrives at the root. It
gives up after `VFS_MAX_NODES` turns. -/
def pathTotal : Nat → Option NodeRef → Nat → Option Nat
  | turns, current, total =>
    if current = s.root then some total
    else
      match turns, current with
      | turns + 1, some n =>
        let length := (s.node n).name.length
        if length = 0 then none
        else pathTotal turns (s.node n).parent (total + (length + 1))
      | _, _ => none

/-- Store bytes from a position on. -/
def storeBytes (buffer : Nat → UInt8) (position : Nat) (bytes : List UInt8) : Nat → UInt8 :=
  fun i => if h : position ≤ i ∧ i - position < bytes.length then bytes.get ⟨i - position, h.2⟩
    else buffer i

/-- The second loop of `vfs_get_path`, which fills the buffer from its end. -/
def fillPath : Nat → Option NodeRef → Nat → (Nat → UInt8) → Nat → UInt8
  | turns, current, position, buffer =>
    if current = s.root then buffer
    else
      match turns, current with
      | turns + 1, some n =>
        let name := (s.node n).name
        let position := position - name.length
        let buffer := storeBytes buffer position name
        let position := position - 1
        fillPath turns (s.node n).parent position (update buffer position slash)
      | _, _ => buffer

/-- `vfs_get_path`. -/
def vfsGetPath (node : NodeRef) (buffer : Nat → UInt8) (capacity : Nat) : Bool × (Nat → UInt8) :=
  if capacity = 0 then (false, buffer)
  else if s.root = some node then
    if capacity < 2 then (false, buffer)
    else (true, update (update buffer 0 slash) 1 0)
  else
    match s.pathTotal vfsMaxNodes (some node) 0 with
    | none => (false, buffer)
    | some total =>
      if capacity < total + 1 then (false, buffer)
      else (true, s.fillPath vfsMaxNodes (some node) total (update buffer total 0))

end VfsState

end JcosKernel
