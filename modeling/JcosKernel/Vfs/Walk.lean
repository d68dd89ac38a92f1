import JcosKernel.Vfs.Tree
import Mathlib.Data.List.Induction

/-!
# JcosKernel.Vfs.Walk

Walking the tree, down by `vfs_resolve` and up by `vfs_get_path`.

`At s p n` says that the names `p` lead from the root to `n`. In a tree every node is at exactly
one list of names and no two nodes are at the same one; `vfs_get_path` writes this list with a slash
before each name, from the end of the buffer to its start, and `vfs_resolve` reads it back.
-/

namespace JcosKernel

open Lib

namespace VfsState

variable {s : VfsState} {n m d c : NodeRef} {p q : List (List UInt8)}

/-- The names lead from the root to the node. -/
inductive At (s : VfsState) : List (List UInt8) → NodeRef → Prop
  | root : At s [] 0
  | child {p : List (List UInt8)} {d c : NodeRef} : At s p d → c < s.nodeCount →
      (s.node c).parent = some d → At s (p ++ [(s.node c).name]) c

/-- Down from a node, one name after the other. -/
def descend (s : VfsState) : NodeRef → List (List UInt8) → Option NodeRef
  | d, [] => some d
  | d, name :: p => (s.vfsFindChild d name).bind fun child => descend s child p

theorem descend_append : s.descend d (p ++ q) = (s.descend d p).bind fun m => s.descend m q := by
  induction p generalizing d with
  | nil => rfl
  | cons name p ih => cases h : s.vfsFindChild d name <;> simp [descend, h, ih]

theorem descend_snoc {name : List UInt8} :
    s.descend d (p ++ [name]) = (s.descend d p).bind fun m => s.vfsFindChild m name := by
  rw [descend_append]
  congr 1
  funext m
  cases h : s.vfsFindChild m name <;> simp [descend, h]

/-- `vfs_resolve` on components without `..`. -/
theorem resolveList_eq_descend (hp : ∀ name ∈ p, name.length ≤ vfsNameMax ∧ name ≠ dotDot) :
    s.resolveList d p = s.descend d (p.filter (· ≠ dot)) := by
  induction p generalizing d with
  | nil => rfl
  | cons name p ih =>
    have ih := fun d => ih (d := d) fun c hc => hp c (List.mem_cons_of_mem _ hc)
    obtain ⟨hlen, hne⟩ := hp name List.mem_cons_self
    rw [resolveList, if_neg (Nat.not_lt.mpr hlen)]
    by_cases hdot : name = dot
    · rw [if_pos hdot, ih, List.filter_cons_of_neg (by simpa using hdot)]
    · rw [if_neg hdot, if_neg hne, List.filter_cons_of_pos (by simpa using hdot), descend]
      cases s.vfsFindChild d name with
      | none => rfl
      | some child => exact ih child

/-- If `vfs_resolve` arrives, no component was too long. -/
theorem descend_of_resolveList (hdots : dotDot ∉ p) (h : s.resolveList d p = some n) :
    s.descend d (p.filter (· ≠ dot)) = some n := by
  induction p generalizing d with
  | nil => exact h
  | cons name p ih =>
    rw [List.mem_cons, not_or] at hdots
    rw [resolveList] at h
    split_ifs at h with hlong hdot hdotDot
    · rw [List.filter_cons_of_neg (by simpa using hdot)]
      exact ih hdots.2 h
    · exact absurd hdotDot.symm hdots.1
    · rw [List.filter_cons_of_pos (by simpa using hdot), descend]
      split at h
      · cases h
      · next child hchild =>
        rw [hchild]
        exact ih hdots.2 h

namespace VfsInv

variable (h : VfsInv s)
include h

theorem findChild_lt {name : List UInt8} (hd : d < s.nodeCount)
    (hc : s.vfsFindChild d name = some c) : c < s.nodeCount :=
  ((h.findChild_iff hd).mp hc).1

/-- `vfs_resolve` never leaves the tree. -/
theorem resolveList_lt (hd : d < s.nodeCount) (hm : s.resolveList d p = some m) :
    m < s.nodeCount := by
  induction p generalizing d with
  | nil =>
    cases hm
    exact hd
  | cons name p ih =>
    rw [resolveList] at hm
    split_ifs at hm
    · exact ih hd hm
    · refine ih ?_ hm
      rcases hp : (s.node d).parent with _ | parent
      · exact hd
      · exact (h.parent_lt hd hp).1.trans hd
    · split at hm
      · cases hm
      · next child hc => exact ih (h.findChild_lt hd hc) hm

theorem at_lt (ha : At s p n) : n < s.nodeCount := by
  cases ha with
  | root => exact h.pos
  | child _ hc _ => exact hc

theorem at_iff_descend : At s p n ↔ s.descend 0 p = some n := by
  constructor
  · intro ha
    induction ha with
    | root => rfl
    | child ha hc hp ih =>
      rw [descend_snoc, ih]
      exact (h.findChild_iff (h.at_lt ha)).mpr ⟨hc, hp, rfl⟩
  · intro hd
    induction p using List.reverseRecOn generalizing n with
    | nil =>
      cases hd
      exact .root
    | append_singleton p name ih =>
      rw [descend_snoc, Option.bind_eq_some_iff] at hd
      obtain ⟨d, hd, hc⟩ := hd
      have ha := ih hd
      obtain ⟨hlt, hp, rfl⟩ := (h.findChild_iff (h.at_lt ha)).mp hc
      exact .child ha hlt hp

theorem at_unique (ha : At s p n) (hb : At s p m) : n = m := by
  rw [h.at_iff_descend] at ha hb
  exact Option.some.inj (ha.symm.trans hb)

/-- A node is at one list of names only. -/
theorem at_names (ha : At s p n) (hb : At s q n) : p = q := by
  induction ha generalizing q with
  | root =>
    cases hb with
    | root => rfl
    | child _ _ hp => exact absurd (h.pos_of_parent hp) (lt_irrefl _)
  | child ha hc hp ih =>
    cases hb with
    | root => exact absurd (h.pos_of_parent hp) (lt_irrefl _)
    | child hb _ hp' =>
      rw [hp] at hp'
      cases hp'
      rw [ih hb]

theorem exists_at (hn : n < s.nodeCount) : ∃ p, At s p n := by
  induction n using Nat.strongRecOn with
  | _ n ih =>
    rcases Nat.eq_zero_or_pos n with rfl | hpos
    · exact ⟨[], .root⟩
    · obtain ⟨d, hd, hp, -⟩ := h.parent n hpos hn
      obtain ⟨p, ha⟩ := ih d hd (hd.trans hn)
      exact ⟨_, .child ha hn hp⟩

theorem at_good (ha : At s p n) : ∀ name ∈ p, GoodName name := by
  induction ha with
  | root => simp
  | child ha hc hp ih =>
    intro name hname
    rcases List.mem_append.mp hname with hname | hname
    · exact ih name hname
    · rw [List.mem_singleton.mp hname]
      exact h.name _ (h.pos_of_parent hp) hc

theorem at_depth (ha : At s p n) : p.length ≤ n := by
  induction ha with
  | root => exact Nat.zero_le _
  | child ha hc hp ih =>
    rw [List.length_append]
    exact Nat.succ_le_of_lt (Nat.lt_of_le_of_lt ih (h.parent_lt hc hp).1)

/-- Good names are resolved as they are. -/
theorem resolveList_at (ha : At s p n) : s.resolveList 0 p = some n := by
  have hgood := h.at_good ha
  rw [resolveList_eq_descend fun name hname => ⟨(hgood name hname).length_le, (hgood name hname).ne_dotDot⟩,
    List.filter_eq_self.mpr fun name hname => by simpa using (hgood name hname).ne_dot]
  exact h.at_iff_descend.mp ha

end VfsInv

/-! ### The path of a node -/

/-- The names, a slash before each. -/
def pathString (p : List (List UInt8)) : List UInt8 := p.flatMap (slash :: ·)

theorem pathString_snoc {name : List UInt8} : pathString (p ++ [name]) = pathString p ++ slash :: name := by
  simp [pathString]

theorem components_pathString (hp : ∀ name ∈ p, name ≠ [] ∧ slash ∉ name) :
    components (pathString p) = p := by
  induction p with
  | nil => rfl
  | cons name p ih =>
    obtain ⟨hne, hslash⟩ := hp name List.mem_cons_self
    rw [pathString, List.flatMap_cons, List.cons_append, components_slash, components_append hne hslash,
      ← pathString, ih fun c hc => hp c (List.mem_cons_of_mem _ hc)]
    cases p with
    | nil => exact .inl rfl
    | cons c p => exact .inr rfl

/-- The path of the node at `p`. -/
def nodePath (p : List (List UInt8)) : List UInt8 := if p = [] then [slash] else pathString p

theorem head_nodePath : (nodePath p).head? = some slash := by
  cases p with
  | nil => rfl
  | cons c p => rfl

theorem VfsInv.components_nodePath (h : VfsInv s) (ha : At s p n) : components (nodePath p) = p := by
  unfold nodePath
  split_ifs with hp
  · rw [components_slash, hp, components_nil]
  · exact components_pathString fun name hname =>
      ⟨(h.at_good ha name hname).ne_nil, (h.at_good ha name hname).no_slash⟩

theorem VfsInv.nodePath_no_nul (h : VfsInv s) (ha : At s p n) : 0 ∉ nodePath p := by
  unfold nodePath
  split_ifs
  · decide
  · intro hmem
    obtain ⟨name, hname, hmem⟩ := List.mem_flatMap.mp hmem
    rcases List.mem_cons.mp hmem with hzero | hmem
    · exact absurd hzero (by decide)
    · exact (h.at_good ha name hname).no_nul hmem

/-- What a buffer holds as a C string. -/
def Holds (buffer : Nat → UInt8) (path : List UInt8) : Prop :=
  ∀ i b, (path ++ [0])[i]? = some b → buffer i = b

theorem storeBytes_append (buffer : Nat → UInt8) (k : Nat) (xs ys : List UInt8) :
    storeBytes (storeBytes buffer (k + xs.length) ys) k xs = storeBytes buffer k (xs ++ ys) := by
  funext i
  unfold storeBytes
  by_cases hi : k ≤ i
  swap
  · rw [dif_neg (by omega), dif_neg (by omega), dif_neg (by omega)]
  by_cases hx : i - k < xs.length
  · rw [dif_pos ⟨hi, hx⟩, dif_pos ⟨hi, by rw [List.length_append]; omega⟩]
    simp [List.getElem_append_left hx]
  rw [dif_neg (by omega)]
  by_cases hy : i - (k + xs.length) < ys.length
  · rw [dif_pos ⟨by omega, hy⟩, dif_pos ⟨hi, by rw [List.length_append]; omega⟩]
    simp [List.getElem_append_right (Nat.le_of_not_lt hx), Nat.sub_sub]
  · rw [dif_neg (by omega), dif_neg (by rw [List.length_append]; omega)]

theorem storeBytes_singleton (buffer : Nat → UInt8) (k : Nat) (b : UInt8) :
    storeBytes buffer k [b] = Function.update buffer k b := by
  funext i
  unfold storeBytes
  by_cases hi : i = k
  · subst hi
    simp
  · rw [Function.update_of_ne hi, dif_neg (by simp; omega)]

theorem storeBytes_nil (buffer : Nat → UInt8) (k : Nat) : storeBytes buffer k [] = buffer := by
  funext i
  simp [storeBytes]

theorem holds_storeBytes (buffer : Nat → UInt8) (path : List UInt8) :
    Holds (storeBytes buffer 0 (path ++ [0])) path := by
  intro i b hb
  obtain ⟨hi, rfl⟩ := List.getElem?_eq_some_iff.mp hb
  simp only [storeBytes]
  rw [dif_pos ⟨Nat.zero_le _, hi⟩]
  rfl

namespace VfsInv

variable (h : VfsInv s) (ha : At s p n)
include h ha

/-- The first loop of `vfs_get_path`. -/
theorem pathTotal_at {turns total : Nat} (hturns : p.length ≤ turns) :
    s.pathTotal turns (some n) total = some (total + (pathString p).length) := by
  induction ha generalizing turns total with
  | root =>
    unfold pathTotal
    exact if_pos h.root.symm
  | child ha hc hp ih =>
    rename_i p d c
    rw [List.length_append, List.length_singleton] at hturns
    obtain ⟨turns, rfl⟩ : ∃ k, turns = k + 1 := Nat.exists_eq_add_one.mpr (by omega)
    have hpos := h.pos_of_parent hp
    have hne : ¬ (some c = s.root) := by
      rw [h.root]
      exact fun heq => hpos.ne' (Option.some.inj heq)
    have hname := List.length_pos_of_ne_nil (h.name c hpos hc).ne_nil
    rw [pathTotal, if_neg hne]
    simp only [hp]
    rw [if_neg hname.ne', ih (by omega), pathString_snoc, List.length_append, List.length_cons]
    congr 1
    omega

/-- The second loop of `vfs_get_path`. -/
theorem fillPath_at {turns : Nat} {buffer : Nat → UInt8} (hturns : p.length ≤ turns) :
    s.fillPath turns (some n) (pathString p).length buffer = storeBytes buffer 0 (pathString p) := by
  induction ha generalizing turns buffer with
  | root =>
    unfold fillPath
    exact (if_pos h.root.symm).trans (storeBytes_nil buffer 0).symm
  | child ha hc hp ih =>
    rename_i p d c
    rw [List.length_append, List.length_singleton] at hturns
    obtain ⟨turns, rfl⟩ : ∃ k, turns = k + 1 := Nat.exists_eq_add_one.mpr (by omega)
    have hne : ¬ (some c = s.root) := by
      rw [h.root]
      exact fun heq => (h.pos_of_parent hp).ne' (Option.some.inj heq)
    rw [fillPath, if_neg hne]
    simp only [hp, pathString_snoc]
    have hlen : (pathString p ++ slash :: (s.node c).name).length - (s.node c).name.length - 1 =
        (pathString p).length := by
      rw [List.length_append, List.length_cons]
      omega
    have hlen' : (pathString p ++ slash :: (s.node c).name).length - (s.node c).name.length =
        (pathString p).length + [slash].length := by
      rw [List.length_append, List.length_cons, List.length_singleton]
      omega
    -- the name, the slash before it and then the rest of the path
    rw [hlen, ih (by omega), hlen', ← storeBytes_singleton, storeBytes_append]
    have happend := storeBytes_append buffer 0 (pathString p) ([slash] ++ (s.node c).name)
    rw [Nat.zero_add] at happend
    exact happend

/-- `vfs_get_path` succeeds exactly if the path fits with its terminator, and then it stores just
these bytes. -/
theorem vfsGetPath_at (buffer : Nat → UInt8) (capacity : Nat) :
    s.vfsGetPath n buffer capacity =
      if (nodePath p).length + 1 ≤ capacity then (true, storeBytes buffer 0 (nodePath p ++ [0]))
      else (false, buffer) := by
  unfold vfsGetPath
  by_cases hzero : capacity = 0
  · rw [if_pos hzero, if_neg (by omega)]
  rw [if_neg hzero]
  by_cases hroot : n = 0
  · obtain rfl : p = [] := h.at_names ha (hroot ▸ .root)
    rw [if_pos (by rw [h.root, hroot])]
    by_cases hcap : capacity < 2
    · rw [if_pos hcap, if_neg (by simp [nodePath]; omega)]
    · rw [if_neg hcap, if_pos (by simp [nodePath]; omega), nodePath, if_pos rfl,
        ← storeBytes_append buffer 0 [slash] [0], storeBytes_singleton, storeBytes_singleton]
      rw [Function.update_comm (by decide)]
      rfl
  · have hp : p ≠ [] := by
      rintro rfl
      exact hroot (h.at_unique ha .root)
    have hdepth : p.length ≤ vfsMaxNodes :=
      (h.at_depth ha).trans ((h.at_lt ha).le.trans h.count)
    rw [if_neg (by rw [h.root]; exact fun heq => hroot (Option.some.inj heq).symm), h.pathTotal_at ha hdepth,
      Nat.zero_add, nodePath, if_neg hp]
    by_cases hcap : capacity < (pathString p).length + 1
    · simp only [if_pos hcap, if_neg (Nat.not_le.mpr hcap)]
    · simp only [if_neg hcap, if_pos (Nat.le_of_not_lt hcap)]
      have happend := storeBytes_append buffer 0 (pathString p) [0]
      rw [Nat.zero_add, storeBytes_singleton] at happend
      rw [h.fillPath_at ha hdepth, happend]

/-- The path of a node leads to it, wherever one starts. -/
theorem vfsResolve_nodePath (start : Option NodeRef) :
    s.vfsResolve start ⟨nodePath p, h.nodePath_no_nul ha⟩ = some n := by
  simp only [vfsResolve, h.root]
  rw [if_pos head_nodePath, resolveLoop_eq (Nat.lt_succ_self _), h.components_nodePath ha]
  exact h.resolveList_at ha

end VfsInv

end VfsState

end JcosKernel
