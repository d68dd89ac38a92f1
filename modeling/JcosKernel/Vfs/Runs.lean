import JcosKernel.Vfs.Walk

/-!
# JcosKernel.Vfs.Runs

What `vfs_add_directory` and `vfs_add_file` do to the tree, and what holds after any number of them.

The tree as its users see it is a partial map from lists of names to directories and files
(`entryAt`). A successful call changes this map at the names of its path and at the prefixes of
these, and nowhere else (`AddsDirectory`, `AddsFile`).
-/

namespace JcosKernel

open Lib

/-- What a path leads to. -/
inductive VfsEntry
  | directory
  | file (data size : Nat)
  deriving Repr, DecidableEq

def NodeInfo.entry (i : NodeInfo) : VfsEntry :=
  match i.type with
  | .directory => .directory
  | .file => .file i.data i.size

/-- What `next_component` can return. -/
structure IsComponent (name : List UInt8) : Prop where
  ne_nil : name ≠ []
  no_slash : slash ∉ name
  no_nul : 0 ∉ name

theorem IsComponent.good {name : List UInt8} (h : IsComponent name) (hlen : name.length ≤ vfsNameMax)
    (hdot : name ≠ dot) (hdots : name ≠ dotDot) : GoodName name :=
  ⟨h.ne_nil, hlen, h.no_slash, h.no_nul, hdot, hdots⟩

theorem CString.isComponent (path : CString) : ∀ name ∈ components path.val, IsComponent name :=
  fun _ hname =>
    have h := mem_components hname
    ⟨h.1, h.2.1, fun hzero => path.property (h.2.2 _ hzero)⟩

variable {ok : Bool} {data size : Nat}

namespace VfsState

variable {s s' s'' : VfsState} {n m d c : NodeRef} {p q f : List (List UInt8)} {name : List UInt8}

def entryAt (s : VfsState) (p : List (List UInt8)) : Option VfsEntry :=
  (s.descend 0 p).map fun n => (s.node n).info.entry

namespace VfsInv

theorem entryAt_iff (h : VfsInv s) {e : VfsEntry} :
    s.entryAt p = some e ↔ ∃ n, At s p n ∧ (s.node n).info.entry = e := by
  rw [entryAt, Option.map_eq_some_iff]
  simp only [h.at_iff_descend]

theorem entryAt_at (h : VfsInv s) (ha : At s p n) : s.entryAt p = some (s.node n).info.entry :=
  h.entryAt_iff.mpr ⟨n, ha, rfl⟩

theorem entryAt_none (h : VfsInv s) : s.entryAt p = none ↔ ∀ n, ¬ At s p n := by
  rw [Option.eq_none_iff_forall_ne_some]
  constructor
  · intro hnone n ha
    exact hnone _ (h.entryAt_at ha)
  · intro hnone e he
    obtain ⟨n, ha, -⟩ := h.entryAt_iff.mp he
    exact hnone n ha

/-- A name that the directory does not have. -/
theorem entryAt_fresh (h : VfsInv s) (ha : At s p d) (hfind : s.vfsFindChild d name = none) :
    s.entryAt (p ++ [name]) = none := by
  rw [entryAt, descend_snoc, h.at_iff_descend.mp ha]
  simp [hfind]

/-- The nodes above a directory, and the directory itself. -/
theorem directories_above (h : VfsInv s) (ha : At s p d) (htype : (s.node d).type = .directory)
    (hq : q <+: p) : s.entryAt q = some .directory := by
  have hself : ∀ {p d}, At s p d → (s.node d).type = .directory → s.entryAt p = some .directory :=
    fun ha htype => by
      rw [h.entryAt_at ha, NodeInfo.entry, VfsNode.info, htype]
  induction ha with
  | root =>
    rw [List.prefix_nil.mp hq]
    exact hself .root htype
  | child ha hc hp ih =>
    rcases List.prefix_concat_iff.mp hq with rfl | hq
    · exact hself (.child ha hc hp) htype
    · exact ih (h.parent_lt hc hp).2 hq

end VfsInv

/-! ### One new node -/

section grows

variable {i : NodeInfo}

variable (g : Grows s s' n i) (h : VfsInv s) (h' : VfsInv s') (hp : i.parent = some d)
  (ha : At s p d)
include g h h' hp ha

theorem Grows.at_iff : At s' q m ↔ At s q m ∨ (q = p ++ [i.name] ∧ m = n) := by
  have hold : ∀ {q m}, At s q m → At s' q m := fun {q m} hq => by
    induction hq with
    | root => exact .root
    | child hq hc hparent ih =>
      have hinfo := g.info_old hc
      have hname : (s'.node _).name = (s.node _).name := congrArg NodeInfo.name hinfo
      have hchild := At.child ih (hc.trans (by rw [g.count]; exact Nat.lt_succ_self _))
        ((congrArg NodeInfo.parent hinfo).trans hparent)
      rwa [hname] at hchild
  have hnparent : (s'.node n).parent = some d := (congrArg NodeInfo.parent g.info_new).trans hp
  have hnname : (s'.node n).name = i.name := congrArg NodeInfo.name g.info_new
  have hnew : At s' (p ++ [i.name]) n := by
    rw [← hnname]
    exact .child (hold ha) (by rw [g.eq_count, g.count]; exact Nat.lt_succ_self _) hnparent
  constructor
  · intro hq
    by_cases hm : m = n
    · subst hm
      exact .inr ⟨h'.at_names hq hnew, rfl⟩
    · -- an old node is where it was
      have hlt : m < s.nodeCount := by
        have hlt := h'.at_lt hq
        rw [g.count] at hlt
        exact Nat.lt_of_le_of_ne (Nat.lt_succ_iff.mp hlt) (g.eq_count ▸ hm)
      obtain ⟨q', hq'⟩ := h.exists_at hlt
      rw [h'.at_names hq (hold hq')]
      exact .inl hq'
  · rintro (hq | ⟨rfl, rfl⟩)
    · exact hold hq
    · exact hnew

theorem Grows.entryAt (q : List (List UInt8)) :
    s'.entryAt q = if q = p ++ [i.name] then some i.entry else s.entryAt q := by
  have hat : ∀ {q m}, At s' q m ↔ _ := g.at_iff h h' hp ha
  split_ifs with hq
  · rw [h'.entryAt_at (hat.mpr (.inr ⟨hq, rfl⟩)), g.info_new]
  · rcases he : s.entryAt q with _ | e
    · rw [h'.entryAt_none]
      intro m hm
      rcases hat.mp hm with hm | ⟨hm, -⟩
      · exact h.entryAt_none.mp he m hm
      · exact hq hm
    · obtain ⟨m, hm, rfl⟩ := h.entryAt_iff.mp he
      rw [h'.entryAt_at (hat.mpr (.inl hm)), g.info_old (h.at_lt hm)]

end grows

/-! ### Directories -/

/-- A directory and those above it are there. -/
structure AddsDirectory (s s' : VfsState) (p : List (List UInt8)) : Prop where
  before : ∀ q, q <+: p → s.entryAt q = none ∨ s.entryAt q = some .directory
  after : ∀ q, s'.entryAt q = if q <+: p then some .directory else s.entryAt q

/-- A file is there, and the directories above it. -/
structure AddsFile (s s' : VfsState) (p : List (List UInt8)) (data size : Nat) : Prop where
  before : ∀ q, q <+: p → q ≠ p → s.entryAt q = none ∨ s.entryAt q = some .directory
  target : s.entryAt p ≠ some .directory
  after : ∀ q, s'.entryAt q =
    if q = p then some (.file data size) else if q <+: p then some .directory else s.entryAt q

theorem AddsDirectory.trans (h : AddsDirectory s s' p) (h' : AddsDirectory s' s'' q) (hpq : p <+: q) :
    AddsDirectory s s'' q := by
  refine ⟨fun r hr => ?_, fun r => ?_⟩
  · by_cases hrp : r <+: p
    · exact h.before r hrp
    · have hbefore := h'.before r hr
      rwa [h.after, if_neg hrp] at hbefore
  · rw [h'.after, h.after]
    by_cases hr : r <+: q
    · rw [if_pos hr, if_pos hr]
    · rw [if_neg hr, if_neg hr, if_neg fun hrp => hr (hrp.trans hpq)]

theorem AddsDirectory.file (h : AddsDirectory s s' p) (h' : AddsFile s' s'' q data size)
    (hpq : p <+: q) : AddsFile s s'' q data size := by
  -- the file is not one of the directories
  have hq : ¬ q <+: p := fun hqp => h'.target (by rw [h.after, if_pos hqp])
  refine ⟨fun r hr hrq => ?_, ?_, fun r => ?_⟩
  · by_cases hrp : r <+: p
    · exact h.before r hrp
    · have hbefore := h'.before r hr hrq
      rwa [h.after, if_neg hrp] at hbefore
  · have htarget := h'.target
    rwa [h.after, if_neg hq] at htarget
  · rw [h'.after, h.after]
    by_cases hrq : r = q
    · rw [if_pos hrq, if_pos hrq]
    · rw [if_neg hrq, if_neg hrq]
      by_cases hr : r <+: q
      · rw [if_pos hr, if_pos hr]
      · rw [if_neg hr, if_neg hr, if_neg fun hrp => hr (hrp.trans hpq)]

/-- What a loop has done that took the components `q` from the directory at `p`. -/
def Walked (G : VfsState → VfsState → List (List UInt8) → Prop) (s s' : VfsState)
    (p q : List (List UInt8)) (ok : Bool) : Prop :=
  VfsInv s' ∧ (ok = true → (∀ name ∈ q, name.length ≤ vfsNameMax ∧ name ≠ dotDot) ∧
    G s s' (p ++ q.filter (· ≠ dot)))

namespace Walked

variable {G : VfsState → VfsState → List (List UInt8) → Prop}

theorem refused (h : VfsInv s') : Walked G s s' p q false := ⟨h, nofun⟩

theorem skip (hw : Walked G s s' p q ok) : Walked G s s' p (dot :: q) ok :=
  ⟨hw.1, fun hok => ⟨List.forall_mem_cons.mpr ⟨by decide, (hw.2 hok).1⟩, (hw.2 hok).2⟩⟩

end Walked

/-- Other data in a file. -/
theorem setData_cases (h : VfsInv s) (ha : At s p c) (htype : (s.node c).type = .file)
    (hs' : s' = s.modify c fun node => { node with data := data, size := size }) :
    VfsInv s' ∧ ∀ q, s'.entryAt q = if q = p then some (.file data size) else s.entryAt q := by
  have hfields : ∀ n, (s'.node n).name = (s.node n).name ∧ (s'.node n).type = (s.node n).type ∧
      (s'.node n).parent = (s.node n).parent ∧ (s'.node n).firstChild = (s.node n).firstChild ∧
      s'.next n = s.next n ∧ (n ≠ c → s'.node n = s.node n) := fun n => by
    subst hs'
    by_cases hn : n = c
    · subst hn
      simp [VfsState.modify, next]
    · simp [VfsState.modify, next, Function.update_of_ne hn]
  have hcount : s'.nodeCount = s.nodeCount := by rw [hs']; rfl
  have hroot : s'.root = s.root := by rw [hs']; rfl
  have hentry : (s'.node c).info.entry = .file data size := by
    subst hs'
    simp [VfsState.modify, VfsNode.info, NodeInfo.entry, htype]
  have hchildren : ∀ n, s'.children n = s.children n := fun n => by
    simp only [children, hcount, (hfields _).2.2.1]
  have hnext : s'.next = s.next := funext fun n => (hfields n).2.2.2.2.1
  have h' : VfsInv s' := by
    refine ⟨hroot.trans h.root, hcount ▸ h.pos, hcount ▸ h.count, (hfields 0).2.1.trans h.rootType,
      (hfields 0).2.2.1.trans h.rootParent, fun n hpos hn => ?_, fun n hn => ?_, fun n hpos hn => ?_,
      fun c d hc hd hparent hname => ?_⟩
    · obtain ⟨p, hp, hparent, hdir⟩ := h.parent n hpos (hcount ▸ hn)
      exact ⟨p, hp, (hfields n).2.2.1.trans hparent, (hfields p).2.1.trans hdir⟩
    · rw [hnext, hchildren, (hfields n).2.2.2.1]
      exact h.chain n (hcount ▸ hn)
    · rw [(hfields n).1]
      exact h.name n hpos (hcount ▸ hn)
    · rw [(hfields c).2.2.1, (hfields d).2.2.1] at hparent
      rw [(hfields c).1, (hfields d).1] at hname
      exact h.distinct c d (hcount ▸ hc) (hcount ▸ hd) hparent hname
  have hfind : ∀ d name, s'.vfsFindChild d name = s.vfsFindChild d name := fun d name => by
    simp only [vfsFindChild, (hfields _).2.1, hnext, (hfields _).1, (hfields d).2.2.2.1]
  -- data is not part of the tree: every path leads where it led
  have hdescend : ∀ q d, s'.descend d q = s.descend d q := fun q => by
    induction q with
    | nil => exact fun d => rfl
    | cons name q ih => simp [descend, hfind, ih]
  have hat : ∀ {q m}, At s' q m ↔ At s q m := by
    intro q m
    rw [h'.at_iff_descend, h.at_iff_descend, hdescend]
  refine ⟨h', fun q => ?_⟩
  split_ifs with hq
  · rw [h'.entryAt_at (hat.mpr (hq ▸ ha)), hentry]
  · rw [entryAt, hdescend, entryAt]
    rcases hm : s.descend 0 q with _ | m
    · rfl
    · have hne : m ≠ c := by
        rintro rfl
        exact hq (h.at_names (h.at_iff_descend.mpr hm) ha)
      rw [Option.map_some, Option.map_some, (hfields m).2.2.2.2.2 hne]

section

variable (h : VfsInv s) (ha : At s p d) (htype : (s.node d).type = .directory)
include h ha htype

theorem AddsDirectory.refl : AddsDirectory s s p := by
  refine ⟨fun q hq => .inr (h.directories_above ha htype hq), fun q => ?_⟩
  split_ifs with hq
  · exact h.directories_above ha htype hq
  · rfl

/-- What is above a name in the directory. -/
theorem entryAt_above (q : List (List UInt8)) (hq : q <+: p ++ [name]) (hne : q ≠ p ++ [name]) :
    s.entryAt q = some .directory :=
  h.directories_above ha htype ((List.prefix_concat_iff.mp hq).resolve_left hne)

/-- `ensure_directory`. -/
theorem ensureDirectory_cases {r : Option NodeRef} (hname : GoodName name)
    (hr : s.ensureDirectory d name = (r, s')) :
    VfsInv s' ∧ ∀ c, r = some c → At s' (p ++ [name]) c ∧ (s'.node c).type = .directory ∧
      AddsDirectory s s' (p ++ [name]) := by
  have hd := h.at_lt ha
  rw [ensureDirectory] at hr
  rcases hfind : s.vfsFindChild d name with _ | existing
  · rw [hfind] at hr
    rcases newChild_cases h hd htype hname hfind rfl hr with ⟨rfl, rfl⟩ | ⟨rfl, h', g⟩
    · exact ⟨h, nofun⟩
    · refine ⟨h', fun c hc => ?_⟩
      cases hc
      have hat : At s' (p ++ [name]) s.nodeCount := (g.at_iff h h' rfl ha).mpr (.inr ⟨rfl, rfl⟩)
      refine ⟨hat, congrArg NodeInfo.type g.info_new, fun q hq => ?_, fun q => ?_⟩
      · by_cases hne : q = p ++ [name]
        · exact .inl (hne ▸ h.entryAt_fresh ha hfind)
        · exact .inr (entryAt_above h ha htype q hq hne)
      · rw [g.entryAt h h' rfl ha]
        by_cases hq : q = p ++ [name]
        · rw [if_pos hq, if_pos (hq ▸ List.prefix_rfl)]
          rfl
        · rw [if_neg hq]
          split_ifs with hqp
          · exact entryAt_above h ha htype q hqp hq
          · rfl
  · rw [hfind] at hr
    obtain ⟨hlt, hparent, rfl⟩ := (h.findChild_iff hd).mp hfind
    dsimp only at hr
    split_ifs at hr with hdir
    · cases hr
      exact ⟨h, nofun⟩
    · cases hr
      refine ⟨h, fun c hc => ?_⟩
      cases hc
      have hat := At.child ha hlt hparent
      exact ⟨hat, not_not.mp hdir, .refl h hat (not_not.mp hdir)⟩

/-- A component that is a directory. -/
theorem Walked.directory {G : VfsState → VfsState → List (List UInt8) → Prop}
    {F : NodeRef → VfsState → Bool × VfsState} (hname : GoodName name)
    (hr : (match s.ensureDirectory d name with
      | (none, s) => (false, s)
      | (some child, s) => F child s) = (ok, s'))
    (hG : ∀ {s1 r1 r}, AddsDirectory s s1 r1 → G s1 s' r → r1 <+: r → G s s' r)
    (hrest : ∀ {s1 c}, VfsInv s1 → At s1 (p ++ [name]) c → (s1.node c).type = .directory →
      F c s1 = (ok, s') → Walked G s1 s' (p ++ [name]) q ok) : Walked G s s' p (name :: q) ok := by
  rcases hens : s.ensureDirectory d name with ⟨_ | c, s1⟩ <;> rw [hens] at hr
  · cases hr
    exact .refused (ensureDirectory_cases h ha htype hname hens).1
  · obtain ⟨h1, hc⟩ := ensureDirectory_cases h ha htype hname hens
    obtain ⟨hat, hdir, hadds⟩ := hc c rfl
    obtain ⟨h', hok⟩ := hrest h1 hat hdir hr
    refine ⟨h', fun htrue => ⟨?_, ?_⟩⟩
    · exact List.forall_mem_cons.mpr ⟨⟨hname.length_le, hname.ne_dotDot⟩, (hok htrue).1⟩
    · have hadded := hG hadds (hok htrue).2 (List.prefix_append _ _)
      rwa [List.append_assoc, List.singleton_append,
        ← List.filter_cons_of_pos (by simpa using hname.ne_dot)] at hadded

/-- The loop of `vfs_add_directory`. -/
theorem addDirectoryList_cases (hq : ∀ name ∈ q, IsComponent name)
    (hr : addDirectoryList d q s = (ok, s')) :
    Walked AddsDirectory s s' p q ok := by
  induction q generalizing p d s with
  | nil =>
    cases hr
    refine ⟨h, fun _ => ⟨by simp, ?_⟩⟩
    rw [List.filter_nil, List.append_nil]
    exact .refl h ha htype
  | cons name q ih =>
    obtain ⟨hname, hq⟩ := List.forall_mem_cons.mp hq
    rw [addDirectoryList] at hr
    split_ifs at hr with hlong hdot hdots
    · cases hr
      exact .refused h
    · exact hdot ▸ (ih h ha htype hq hr).skip
    · cases hr
      exact .refused h
    · exact .directory h ha htype (hname.good (Nat.le_of_not_lt hlong) hdot hdots) hr .trans
        fun h1 hat hdir => ih h1 hat hdir hq

/-- The last component in `vfs_add_file`. -/
theorem putFile_cases (hname : GoodName name) (hr : s.putFile d name data size = (ok, s')) :
    VfsInv s' ∧ (ok = true → AddsFile s s' (p ++ [name]) data size) := by
  have hd := h.at_lt ha
  have habove (q) (hq : q <+: p ++ [name]) := entryAt_above h ha htype q hq
  -- the entry of the file is all that changes
  have hadds : s.entryAt (p ++ [name]) ≠ some .directory →
      (∀ q, s'.entryAt q = if q = p ++ [name] then some (.file data size) else s.entryAt q) →
        AddsFile s s' (p ++ [name]) data size := fun htarget hafter => by
    refine ⟨fun q hq hne => .inr (habove q hq hne), htarget, fun q => ?_⟩
    rw [hafter]
    by_cases hq : q = p ++ [name]
    · rw [if_pos hq, if_pos hq]
    · split_ifs with hqp
      · exact habove q hqp hq
      · rfl
  rw [putFile] at hr
  rcases hfind : s.vfsFindChild d name with _ | existing
  · rw [hfind] at hr
    rcases hnew : s.newChild d name fun node =>
      { node with type := .file, data := data, size := size } with ⟨_ | c, s1⟩
    · simp only [hnew] at hr
      cases hr
      rcases newChild_cases h hd htype hname hfind rfl hnew with ⟨-, rfl⟩ | ⟨hc, -, -⟩
      · exact ⟨h, (absurd · Bool.false_ne_true)⟩
      · cases hc
    · simp only [hnew] at hr
      cases hr
      rcases newChild_cases h hd htype hname hfind rfl hnew with ⟨⟨⟩, -⟩ | ⟨-, h', g⟩
      exact ⟨h', fun _ => hadds (by simp [h.entryAt_fresh ha hfind]) (g.entryAt h h' rfl ha)⟩
  · rw [hfind] at hr
    obtain ⟨hlt, hparent, rfl⟩ := (h.findChild_iff hd).mp hfind
    dsimp only at hr
    split_ifs at hr with hfile
    · cases hr
      exact ⟨h, (absurd · Bool.false_ne_true)⟩
    · cases hr
      have hat := At.child ha hlt hparent
      obtain ⟨h', hafter⟩ := setData_cases h hat (not_not.mp hfile) rfl
      refine ⟨h', fun _ => hadds ?_ hafter⟩
      rw [h.entryAt_at hat, VfsNode.info, not_not.mp hfile]
      rintro ⟨⟩

/-- The loop of `vfs_add_file`. -/
theorem addFileList_cases (hq : ∀ name ∈ q, IsComponent name)
    (hr : addFileList data size d q s = (ok, s')) :
    Walked (AddsFile · · · data size) s s' p q ok := by
  induction q generalizing p d s with
  | nil =>
    cases hr
    exact .refused h
  | cons name q ih =>
    obtain ⟨hname, hq⟩ := List.forall_mem_cons.mp hq
    rw [addFileList] at hr
    split_ifs at hr with hlong hdot hdots hmore
    · cases hr
      exact .refused h
    · exact hdot ▸ (ih h ha htype hq hr).skip
    · cases hr
      exact .refused h
    · exact .directory h ha htype (hname.good (Nat.le_of_not_lt hlong) hdot hdots) hr AddsDirectory.file
        fun h1 hat hdir => ih h1 hat hdir hq
    · have hgood := hname.good (Nat.le_of_not_lt hlong) hdot hdots
      obtain ⟨h', hok⟩ := putFile_cases h ha htype hgood hr
      obtain rfl : q = [] := not_not.mp hmore
      refine ⟨h', fun htrue => ⟨by simpa using ⟨hgood.length_le, hdots⟩, ?_⟩⟩
      rw [List.filter_cons_of_pos (by simpa using hdot)]
      exact hok htrue

end

end VfsState

/-! ### Runs -/

/-- The calls that build the tree. -/
inductive VfsCall
  | addDirectory (path : CString)
  | addFile (path : CString) (data size : Nat)

/-- The names a path stands for: its components but for `.`. -/
def pathNames (path : CString) : List (List UInt8) := (components path.val).filter (· ≠ dot)

namespace VfsCall

def exec : VfsCall → VfsState → Bool × VfsState
  | addDirectory path, s => s.vfsAddDirectory path
  | addFile path data size, s => s.vfsAddFile path data size

def path : VfsCall → CString
  | addDirectory path => path
  | addFile path _ _ => path

/-- What a successful call does. -/
def Adds (call : VfsCall) (s s' : VfsState) : Prop :=
  match call with
  | addDirectory path => s.AddsDirectory s' (pathNames path)
  | addFile path data size => pathNames path ≠ [] ∧ s.AddsFile s' (pathNames path) data size

end VfsCall

namespace VfsState

variable {s s' : VfsState}

theorem vfsInit_inv (s : VfsState) : VfsInv s.vfsInit := by
  have hnode : s.vfsInit = ⟨Function.update (Function.update s.node 0 VfsNode.zero) 0
      ⟨[], .directory, 0, 0, none, none, none⟩, 1, some 0⟩ := by
    simp [vfsInit, allocateNode, vfsMaxNodes, VfsState.modify, VfsNode.zero]
  have hlt : ∀ {n : NodeRef}, n < 1 → n = 0 := fun hn => Nat.lt_one_iff.mp hn
  rw [hnode]
  refine ⟨rfl, Nat.one_pos, show 1 ≤ vfsMaxNodes by decide, by simp, by simp, fun n hpos hn => ?_, fun n hn => ?_,
    fun n hpos hn => ?_, fun c d hc hd _ _ => (hlt hc).trans (hlt hd).symm⟩
  · exact absurd (hlt hn) hpos.ne'
  · obtain rfl := hlt hn
    simp [children]
  · exact absurd (hlt hn) hpos.ne'

theorem VfsInv.exec {call : VfsCall} (h : VfsInv s) (hr : call.exec s = (ok, s')) :
    VfsInv s' ∧ (ok = true → (∀ name ∈ components call.path.val, name.length ≤ vfsNameMax ∧
      name ≠ dotDot) ∧ call.Adds s s') := by
  cases call with
  | addDirectory path =>
    rw [VfsCall.exec, vfsAddDirectory, h.root] at hr
    simp only [addDirectoryLoop_eq (Nat.lt_succ_self _)] at hr
    exact addDirectoryList_cases h .root h.rootType path.isComponent hr
  | addFile path data size =>
    rw [VfsCall.exec, vfsAddFile, h.root] at hr
    simp only [addFileLoop_eq (Nat.lt_succ_self _)] at hr
    obtain ⟨h', hok⟩ := addFileList_cases h .root h.rootType path.isComponent hr
    refine ⟨h', fun htrue => ⟨(hok htrue).1, fun hnil => (hok htrue).2.target ?_, (hok htrue).2⟩⟩
    rw [show (components path.val).filter (· ≠ dot) = [] from hnil]
    exact h.directories_above .root h.rootType List.prefix_rfl

/-- The state after the calls. -/
def execCalls (calls : List VfsCall) (s : VfsState) : VfsState :=
  calls.foldl (fun s call => (call.exec s).2) s

theorem VfsInv.execCalls {calls : List VfsCall} (h : VfsInv s) : VfsInv (s.execCalls calls) := by
  induction calls generalizing s with
  | nil => exact h
  | cons call calls ih => exact ih (h.exec rfl).1

/-- The nodes found from the root by the lists of children. -/
inductive Reachable (s : VfsState) : NodeRef → Prop
  | root {n : NodeRef} : s.root = some n → Reachable s n
  | child {d c : NodeRef} {l : List NodeRef} : Reachable s d →
      Chain s.next (s.node d).firstChild l → c ∈ l → Reachable s c

theorem VfsInv.reachable_iff (h : VfsInv s) {n : NodeRef} : Reachable s n ↔ n < s.nodeCount := by
  constructor
  · intro hr
    induction hr with
    | root hroot =>
      rw [h.root] at hroot
      cases hroot
      exact h.pos
    | child _ hchain hmem ih =>
      rw [hchain.unique (h.chain _ ih)] at hmem
      exact (mem_children.mp hmem).1
  · intro hn
    induction n using Nat.strongRecOn with
    | _ n ih =>
      rcases Nat.eq_zero_or_pos n with rfl | hpos
      · exact .root h.root
      · obtain ⟨d, hd, hp, -⟩ := h.parent n hpos hn
        exact .child (ih d hd (hd.trans hn)) (h.chain d (hd.trans hn)) (mem_children.mpr ⟨hn, hp⟩)

/-- **The tree and its paths.** After any calls the nodes form a tree (`VfsInv`). Each node has a
path: `vfs_get_path` stores it exactly if the buffer has room for it and its terminator, and
`vfs_resolve` leads from it back to the node. `vfs_resolve` reads any path to its end and stays in
the tree. -/
theorem vfs_tree_and_paths (s₀ : VfsState) (calls : List VfsCall) :
    let s := s₀.vfsInit.execCalls calls
    VfsInv s ∧
      (∀ n, Reachable s n → ∃ path : CString,
        (∀ buffer capacity,
          ((s.vfsGetPath n buffer capacity).1 = true ↔ path.val.length + 1 ≤ capacity) ∧
          ((s.vfsGetPath n buffer capacity).1 = true →
            Holds (s.vfsGetPath n buffer capacity).2 path.val)) ∧
        ∀ start, s.vfsResolve start path = some n) ∧
      ∀ (path : CString) (start : Option NodeRef), (∀ n ∈ start, Reachable s n) →
        (∀ steps current, path.val.length < steps →
          s.resolveLoop steps current path.val = s.resolveList current (components path.val)) ∧
        ∀ n, s.vfsResolve start path = some n → Reachable s n := by
  intro s
  have h : VfsInv s := (vfsInit_inv s₀).execCalls
  refine ⟨h, fun n hn => ?_, fun path start hstart => ⟨fun steps current hlt => resolveLoop_eq hlt, ?_⟩⟩
  · obtain ⟨p, ha⟩ := h.exists_at (h.reachable_iff.mp hn)
    refine ⟨⟨nodePath p, h.nodePath_no_nul ha⟩, fun buffer capacity => ?_, h.vfsResolve_nodePath ha⟩
    rw [h.vfsGetPath_at ha]
    by_cases hcap : (nodePath p).length + 1 ≤ capacity
    · rw [if_pos hcap]
      exact ⟨iff_of_true rfl hcap, fun _ => holds_storeBytes buffer _⟩
    · rw [if_neg hcap]
      exact ⟨iff_of_false Bool.false_ne_true hcap, nofun⟩
  · intro n hn
    simp only [vfsResolve, h.root] at hn
    rw [resolveLoop_eq (Nat.lt_succ_self _)] at hn
    refine h.reachable_iff.mpr (h.resolveList_lt ?_ hn)
    split_ifs
    · exact h.pos
    · rcases start with _ | m
      · exact h.pos
      · exact h.reachable_iff.mp (hstart m rfl)

end VfsState

end JcosKernel
