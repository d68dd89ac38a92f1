import JcosKernel.Vfs.Path
import Mathlib.Data.List.Sort

/-!
# JcosKernel.Vfs.Tree

The nodes form a tree.

Every node but the root has a parent that was allocated before it and is a directory. The children
of a node, in the order of their allocation, are the nodes that have it as parent; `VfsInv` says
that the list through `first_child` and `next_sibling` is this list. So everything about the tree
is decided by the names, types and parents (`VfsNode.info`), and a new node changes one entry
there (`Grows`).
-/

namespace JcosKernel

open Lib Function

/-- The fields of a node that are not links between siblings. -/
structure NodeInfo where
  name : List UInt8
  type : VfsNodeType
  data : Nat
  size : Nat
  parent : Option NodeRef
  deriving Repr, DecidableEq

def VfsNode.info (node : VfsNode) : NodeInfo :=
  ⟨node.name, node.type, node.data, node.size, node.parent⟩

/-- A name that `vfs.c` gives to a node. -/
structure GoodName (name : List UInt8) : Prop where
  ne_nil : name ≠ []
  length_le : name.length ≤ vfsNameMax
  no_slash : slash ∉ name
  no_nul : 0 ∉ name
  ne_dot : name ≠ dot
  ne_dotDot : name ≠ dotDot

namespace VfsState

variable {s s' : VfsState} {n m p d c : NodeRef} {name : List UInt8}

/-- The nodes with a given parent. -/
def children (s : VfsState) (n : NodeRef) : List NodeRef :=
  (List.range s.nodeCount).filter fun c => (s.node c).parent = some n

theorem mem_children : c ∈ s.children n ↔ c < s.nodeCount ∧ (s.node c).parent = some n := by
  simp [children]

theorem nodup_children : (s.children n).Nodup := List.nodup_range.filter _

theorem length_children : (s.children n).length ≤ s.nodeCount := by
  have := List.length_filter_le (fun c => decide ((s.node c).parent = some n)) (List.range s.nodeCount)
  rwa [List.length_range] at this

structure VfsInv (s : VfsState) : Prop where
  root : s.root = some 0
  pos : 0 < s.nodeCount
  count : s.nodeCount ≤ vfsMaxNodes
  rootType : (s.node 0).type = .directory
  rootParent : (s.node 0).parent = none
  parent : ∀ n, 0 < n → n < s.nodeCount →
    ∃ p, p < n ∧ (s.node n).parent = some p ∧ (s.node p).type = .directory
  chain : ∀ n, n < s.nodeCount → Chain s.next (s.node n).firstChild (s.children n)
  name : ∀ n, 0 < n → n < s.nodeCount → GoodName (s.node n).name
  distinct : ∀ c d, c < s.nodeCount → d < s.nodeCount → (s.node c).parent = (s.node d).parent →
    (s.node c).name = (s.node d).name → c = d

namespace VfsInv

/-- A parent is an older node and a directory. -/
theorem parent_lt (h : VfsInv s) (hn : n < s.nodeCount) (hp : (s.node n).parent = some p) :
    p < n ∧ (s.node p).type = .directory := by
  rcases Nat.eq_zero_or_pos n with rfl | hpos
  · rw [h.rootParent] at hp
    cases hp
  · obtain ⟨q, hq, hq', htype⟩ := h.parent n hpos hn
    rw [hp] at hq'
    cases hq'
    exact ⟨hq, htype⟩

theorem pos_of_parent (h : VfsInv s) (hp : (s.node n).parent = some p) : 0 < n := by
  rcases Nat.eq_zero_or_pos n with rfl | hpos
  · rw [h.rootParent] at hp
    cases hp
  · exact hpos

/-- `vfs_find_child` finds the one child with the name. -/
theorem findChild_iff (h : VfsInv s) (hd : d < s.nodeCount) :
    s.vfsFindChild d name = some c ↔
      c < s.nodeCount ∧ (s.node c).parent = some d ∧ (s.node c).name = name := by
  unfold vfsFindChild
  by_cases htype : (s.node d).type = .directory
  swap
  · rw [if_pos htype]
    refine iff_of_false (by simp) ?_
    rintro ⟨hc, hp, -⟩
    exact htype (h.parent_lt hc hp).2
  rw [if_neg (not_not_intro htype), (h.chain d hd).find_eq (length_children.trans h.count)]
  constructor
  · intro hfind
    have hmem := mem_children.mp (List.mem_of_find?_eq_some hfind)
    have hname := List.find?_some hfind
    exact ⟨hmem.1, hmem.2, by simpa using hname⟩
  · rintro ⟨hc, hp, hname⟩
    -- no other child has the name
    rcases hfind : (s.children d).find? (fun n => (s.node n).name == name) with _ | c'
    · have hnone := List.find?_eq_none.mp hfind c (mem_children.mpr ⟨hc, hp⟩)
      simp [hname] at hnone
    · have hmem := mem_children.mp (List.mem_of_find?_eq_some hfind)
      have hname' : (s.node c').name = name := by simpa using List.find?_some hfind
      rw [h.distinct c' c hmem.1 hc (hmem.2.trans hp.symm) (hname'.trans hname.symm)]

theorem findChild_none (h : VfsInv s) (hd : d < s.nodeCount) (hnone : s.vfsFindChild d name = none)
    (hc : c < s.nodeCount) (hp : (s.node c).parent = some d) : (s.node c).name ≠ name := fun hname => by
  rw [(h.findChild_iff hd).mpr ⟨hc, hp, hname⟩] at hnone
  cases hnone

end VfsInv

/-! ### New nodes -/

/-- A node was allocated, with the given fields; the other nodes have theirs as before. -/
structure Grows (s s' : VfsState) (n : NodeRef) (i : NodeInfo) : Prop where
  eq_count : n = s.nodeCount
  count : s'.nodeCount = s.nodeCount + 1
  root : s'.root = s.root
  info : ∀ m, (s'.node m).info = if m = n then i else (s.node m).info

namespace Grows

variable {i : NodeInfo}

theorem info_old (g : Grows s s' n i) (hm : m < s.nodeCount) : (s'.node m).info = (s.node m).info := by
  rw [g.info, if_neg (hm.trans_eq g.eq_count.symm).ne]

theorem info_new (g : Grows s s' n i) : (s'.node n).info = i := by
  rw [g.info, if_pos rfl]

/-- The new node is the last child of its parent. -/
theorem children (g : Grows s s' n i) (m : NodeRef) :
    s'.children m = s.children m ++ if i.parent = some m then [n] else [] := by
  have hold : ∀ c < s.nodeCount, (s'.node c).parent = (s.node c).parent := fun c hc =>
    congrArg NodeInfo.parent (g.info_old hc)
  have hnew : (s'.node n).parent = i.parent := congrArg NodeInfo.parent g.info_new
  rw [VfsState.children, g.count, List.range_succ, List.filter_append, ← g.eq_count]
  congr 1
  · rw [VfsState.children, ← g.eq_count]
    refine List.filter_congr fun c hc => ?_
    rw [hold c (by rw [← g.eq_count]; exact List.mem_range.mp hc)]
  · by_cases hp : i.parent = some m <;> simp [hnew, hp]

theorem children_of_ne {type : VfsNodeType} {data size : Nat}
    (g : Grows s s' n ⟨name, type, data, size, some p⟩) (hm : m ≠ p) :
    s'.children m = s.children m := by
  rw [g.children, if_neg fun heq => hm (Option.some.inj heq).symm, List.append_nil]

end Grows

variable {type : VfsNodeType} {f fill : VfsNode → VfsNode} {i : NodeInfo} {data size : Nat}

/-- The invariant after a new node, which some directory has as its child. -/
theorem Grows.inv (h : VfsInv s) (g : Grows s s' n i) (hcount : s.nodeCount < vfsMaxNodes)
    (hp : i.parent = some p) (hlt : p < s.nodeCount) (htype : (s.node p).type = .directory)
    (hname : GoodName i.name) (hfresh : s.vfsFindChild p i.name = none)
    (hchain : ∀ m, m < s'.nodeCount → Chain s'.next (s'.node m).firstChild (s'.children m)) :
    VfsInv s' := by
  have hold : ∀ {m}, m < s'.nodeCount → m ≠ n → m < s.nodeCount := fun {m} hm hne => by
    rw [g.count] at hm
    exact Nat.lt_of_le_of_ne (Nat.lt_succ_iff.mp hm) (g.eq_count ▸ hne)
  have htype' : ∀ {m}, m < s.nodeCount → (s'.node m).type = (s.node m).type := fun hm =>
    congrArg NodeInfo.type (g.info_old hm)
  have hparent' : ∀ {m}, m < s.nodeCount → (s'.node m).parent = (s.node m).parent := fun hm =>
    congrArg NodeInfo.parent (g.info_old hm)
  have hname' : ∀ {m}, m < s.nodeCount → (s'.node m).name = (s.node m).name := fun hm =>
    congrArg NodeInfo.name (g.info_old hm)
  have hnparent : (s'.node n).parent = some p := (congrArg NodeInfo.parent g.info_new).trans hp
  have hnname : (s'.node n).name = i.name := congrArg NodeInfo.name g.info_new
  -- an old node with the parent and the name of the new one
  have hclash : ∀ {c}, c < s.nodeCount → (s'.node c).parent = some p → (s'.node c).name ≠ i.name :=
    fun hc hcp => by
      rw [hparent' hc] at hcp
      rw [hname' hc]
      exact h.findChild_none hlt hfresh hc hcp
  refine ⟨g.root.trans h.root, ?_, ?_, ?_, ?_, fun m hpos hm => ?_, hchain, fun m hpos hm => ?_,
    fun c d hc hd hparent hnm => ?_⟩
  · rw [g.count]
    exact Nat.succ_pos _
  · rw [g.count]
    exact hcount
  · rw [htype' h.pos, h.rootType]
  · rw [hparent' h.pos, h.rootParent]
  · by_cases hmn : m = n
    · subst hmn
      exact ⟨p, hlt.trans_eq g.eq_count.symm, hnparent, (htype' hlt).trans htype⟩
    · have hm := hold hm hmn
      obtain ⟨q, hq, hqp, hqt⟩ := h.parent m hpos hm
      exact ⟨q, hq, (hparent' hm).trans hqp, (htype' (hq.trans hm)).trans hqt⟩
  · by_cases hmn : m = n
    · rw [hmn, hnname]
      exact hname
    · have hm := hold hm hmn
      rw [hname' hm]
      exact h.name m hpos hm
  · by_cases hcn : c = n
    · by_cases hdn : d = n
      · rw [hcn, hdn]
      · rw [hcn, hnparent] at hparent
        rw [hcn, hnname] at hnm
        exact absurd hnm.symm (hclash (hold hd hdn) hparent.symm)
    · by_cases hdn : d = n
      · rw [hdn, hnparent] at hparent
        rw [hdn, hnname] at hnm
        exact absurd hnm (hclash (hold hc hcn) hparent)
      · have hc := hold hc hcn
        have hd := hold hd hdn
        rw [hparent' hc, hparent' hd] at hparent
        rw [hname' hc, hname' hd] at hnm
        exact h.distinct c d hc hd hparent hnm

/-- The new node as `append_child` leaves it. -/
def childNode (parent : NodeRef) (name : List UInt8) (type : VfsNodeType) (data size : Nat) : VfsNode :=
  ⟨name, type, data, size, some parent, none, none⟩

/-- The state in which the new node waits for the pointer to it. -/
def withChild (s : VfsState) (parent : NodeRef) (name : List UInt8) (type : VfsNodeType)
    (data size : Nat) : VfsState :=
  { s with
    nodeCount := s.nodeCount + 1
    node := update s.node s.nodeCount (childNode parent name type data size) }

/-- The pointer to the new node, from its parent or from the child before it. -/
def linkChild (s : VfsState) (parent child : NodeRef) : VfsState :=
  match (s.node parent).firstChild with
  | none => s.modify parent fun node => { node with firstChild := some child }
  | some first =>
    s.modify (chainLast s.next vfsMaxNodes first) fun node => { node with nextSibling := some child }

theorem newChild_eq (hcount : s.nodeCount < vfsMaxNodes) (hname : name.length ≤ vfsNameMax)
    (hfill : fill { VfsNode.zero with name := name } = ⟨name, type, data, size, none, none, none⟩) :
    s.newChild p name fill =
      (some s.nodeCount, (s.withChild p name type data size).linkChild p s.nodeCount) := by
  simp only [newChild, allocateNode, if_neg (Nat.not_le.mpr hcount), setNodeName,
    if_neg (Nat.not_lt.mpr hname), appendChild]
  have hnode : (((VfsState.modify { s with
      nodeCount := s.nodeCount + 1
      node := update s.node s.nodeCount VfsNode.zero } s.nodeCount
        fun node => { node with name := name }).modify s.nodeCount fill).modify s.nodeCount
            fun node => { node with parent := some p, nextSibling := none }) =
      s.withChild p name type data size := by
    simp [VfsState.modify, withChild, childNode, hfill]
  rw [hnode]
  rfl

theorem withChild_grows :
    Grows s (s.withChild p name type data size) s.nodeCount ⟨name, type, data, size, some p⟩ where
  eq_count := rfl
  count := rfl
  root := rfl
  info m := by
    by_cases hm : m = s.nodeCount
    · rw [hm]
      simp [withChild, childNode, VfsNode.info]
    · rw [if_neg hm]
      simp [withChild, update_of_ne hm]

/-- Changing links only. -/
theorem Grows.modify (g : Grows s s' n i) (hf : ∀ node, (f node).info = node.info) :
    Grows s (s'.modify m f) n i := by
  refine { g with info := fun k => ?_ }
  rw [← g.info k]
  by_cases hk : k = m
  · simp [VfsState.modify, hk, hf]
  · simp [VfsState.modify, update_of_ne hk]

theorem modify_next :
    (s.modify m f).next = update s.next m (f (s.node m)).nextSibling := by
  funext k
  by_cases hk : k = m
  · simp [next, VfsState.modify, hk]
  · simp [next, VfsState.modify, update_of_ne hk]

/-- The lists of children before the pointer to the new node is stored. -/
theorem withChild_chain (h : VfsInv s) (hm : m < s.nodeCount + 1) :
    Chain (s.withChild p name type data size).next
      ((s.withChild p name type data size).node m).firstChild (s.children m) := by
  by_cases hne : m = s.nodeCount
  · have hnone : s.children s.nodeCount = [] := by
      rw [List.eq_nil_iff_forall_not_mem]
      intro c hc
      obtain ⟨hc, hparent⟩ := mem_children.mp hc
      exact absurd (h.parent_lt hc hparent).1 (Nat.not_lt.mpr hc.le)
    simp [hne, hnone, withChild, childNode]
  · have hold := h.chain m (Nat.lt_of_le_of_ne (Nat.lt_succ_iff.mp hm) hne)
    simp only [withChild, update_of_ne hne]
    refine hold.congr fun c hc => ?_
    simp only [next, update_of_ne (mem_children.mp hc).1.ne]

theorem linkChild_grows (h : VfsInv s) (hp : p < s.nodeCount) (s1 : VfsState)
    (hs1 : s1 = s.withChild p name type data size) :
    Grows s (s1.linkChild p s.nodeCount) s.nodeCount ⟨name, type, data, size, some p⟩ ∧
      ∀ m, m < (s1.linkChild p s.nodeCount).nodeCount →
        Chain (s1.linkChild p s.nodeCount).next ((s1.linkChild p s.nodeCount).node m).firstChild
          ((s1.linkChild p s.nodeCount).children m) := by
  have g1 : Grows s s1 s.nodeCount ⟨name, type, data, size, some p⟩ := hs1 ▸ withChild_grows
  have hchain : ∀ m, m < s1.nodeCount → Chain s1.next (s1.node m).firstChild (s.children m) := by
    subst hs1
    exact fun m hm => withChild_chain h hm
  have hnextnew : s1.next s.nodeCount = none := by
    simp [hs1, next, withChild, childNode]
  have hchainp := hchain p (by rw [g1.count]; exact Nat.lt_succ_of_lt hp)
  unfold linkChild
  rcases hfirst : (s1.node p).firstChild with _ | first
  · -- the first child of its parent
    have g : Grows s (s1.modify p fun node => { node with firstChild := some s.nodeCount }) _ _ :=
      g1.modify fun _ => rfl
    have hnext' := (modify_next (s := s1) (m := p)
      (f := fun node => { node with firstChild := some s.nodeCount })).trans (update_eq_self _ _)
    have hpempty : s.children p = [] := by
      rw [hfirst] at hchainp
      rcases hch : s.children p with _ | ⟨c, l⟩
      · rfl
      · rw [hch] at hchainp
        cases hchainp.1
    refine ⟨g, fun m hm => ?_⟩
    rw [hnext']
    by_cases hmp : m = p
    · subst hmp
      rw [g.children]
      simp [VfsState.modify, hpempty, Lib.Chain, hnextnew]
    · rw [g.children_of_ne hmp]
      simp only [VfsState.modify, update_of_ne hmp]
      exact hchain m hm
  · -- after the last of its siblings
    rcases hch : s.children p with _ | ⟨c, l⟩ <;> rw [hch, hfirst] at hchainp
    · cases hchainp
    obtain rfl : first = c := Option.some.inj hchainp.1
    have hlen : l.length ≤ vfsMaxNodes := by
      have hle : (s.children p).length ≤ s.nodeCount := length_children
      rw [hch] at hle
      exact (Nat.le_of_succ_le hle).trans h.count
    have hlastmem : (first :: l).getLast (by simp) ∈ s.children p := by
      rw [hch]
      exact List.getLast_mem _
    dsimp only
    rw [hchainp.last_eq hlen]
    set last := (first :: l).getLast (by simp) with hlastdef
    have g : Grows s (s1.modify last fun node => { node with nextSibling := some s.nodeCount }) _ _ :=
      g1.modify fun _ => rfl
    have hfirst' : ∀ m, ((s1.modify last fun node =>
        { node with nextSibling := some s.nodeCount }).node m).firstChild = (s1.node m).firstChild :=
      fun m => by
        by_cases hm : m = last
        · simp [VfsState.modify, hm]
        · simp [VfsState.modify, update_of_ne hm]
    refine ⟨g, fun m hm => ?_⟩
    rw [modify_next, hfirst' m]
    by_cases hmp : m = p
    · subst hmp
      have hnotmem : s.nodeCount ∉ s.children m := fun hmem => lt_irrefl _ (mem_children.mp hmem).1
      rw [hfirst, g.children, hch]
      simpa using hchainp.append (hch ▸ nodup_children) hnextnew (hch ▸ hnotmem)
    · rw [g.children_of_ne hmp]
      refine (hchain m hm).congr fun c hc => update_of_ne ?_ _ _
      rintro rfl
      have hcp := (mem_children.mp hc).2.symm.trans (mem_children.mp hlastmem).2
      exact hmp (Option.some.inj hcp)

/-- A new child that the directory did not have. -/
theorem newChild_cases {r : Option NodeRef} (h : VfsInv s) (hp : p < s.nodeCount)
    (htype : (s.node p).type = .directory) (hname : GoodName name)
    (hfresh : s.vfsFindChild p name = none)
    (hfill : fill { VfsNode.zero with name := name } = ⟨name, type, data, size, none, none, none⟩)
    (hr : s.newChild p name fill = (r, s')) :
    (r = none ∧ s' = s) ∨ (r = some s.nodeCount ∧ VfsInv s' ∧
      Grows s s' s.nodeCount ⟨name, type, data, size, some p⟩) := by
  by_cases hcount : s.nodeCount < vfsMaxNodes
  · rw [newChild_eq hcount hname.length_le hfill] at hr
    cases hr
    obtain ⟨g, hchain⟩ := linkChild_grows h hp _ rfl
    exact .inr ⟨rfl, g.inv h hcount rfl hp htype hname hfresh hchain, g⟩
  · rw [newChild, allocateNode, if_pos (Nat.le_of_not_lt hcount)] at hr
    cases hr
    exact .inl ⟨rfl, rfl⟩

end VfsState

end JcosKernel
