import JcosKernel.BootArchive.Find
import JcosKernel.Tar.Namespace

/-!
# JcosKernel.BootArchive.Agreement

The tree that `tar_mount` builds and `jcos_boot_archive_find` agree on files.

Their notions of a name differ. The tree compares components and skips `.`; the second reader
compares normalised strings, in which `.` components stay, and so does a slash behind a leading `./`.
Of several entries for one file the tree has the last and the second reader the first. So they
agree about a path if at most one regular file stands for it and both are written plainly.
-/

namespace JcosKernel

/-! ### The entries of an archive -/

variable {bytes : List UInt8} {e : TarEntry} {offset : Nat} {n : NodeRef}

theorem HeaderAt.unique {e f : TarEntry} (he : HeaderAt bytes offset e)
    (hf : HeaderAt bytes offset f) : e = f := by
  obtain ⟨name, path, type, dataOffset, size⟩ := e
  have hname := Option.some.inj (he.name.symm.trans hf.name)
  have hpath := Option.some.inj (he.path.symm.trans hf.path)
  have htype := he.type.trans hf.type.symm
  have hoffset := he.dataOffset.trans hf.dataOffset.symm
  have hsize := Option.some.inj (he.size.symm.trans hf.size)
  simp only at hname hpath htype hoffset hsize
  rw [hname, hpath, htype, hoffset, hsize]

theorem Entries.unique {es fs : List TarEntry} (he : Entries bytes offset es)
    (hf : Entries bytes offset fs) : es = fs := by
  induction he generalizing fs with
  | done hlt =>
    cases hf with
    | done => rfl
    | zero hin _ => omega
    | entry h _ _ =>
      have hin := h.inside
      omega
  | zero hin hzero =>
    cases hf with
    | done => rfl
    | zero => rfl
    | entry h _ _ => exact absurd (hzero.symm.trans h.nonzero) (by decide)
  | entry h _ _ ih =>
    have hin := h.inside
    cases hf with
    | done hlt => omega
    | zero _ hzero => exact absurd (hzero.symm.trans h.nonzero) (by decide)
    | entry h' _ hrest =>
      cases h.unique h'
      rw [ih hrest]

theorem length_joinedName {block name : List UInt8} (h : joinedName block = some name) :
    name.length < vfsPathMax := by
  rw [joinedName, Option.bind_eq_some_iff] at h
  obtain ⟨_, -, h⟩ := h
  rw [appendField] at h
  split_ifs at h with hfull
  cases h
  rw [List.length_append]
  exact Nat.lt_of_not_le hfull

theorem filesAt_of_mount {archive : Nat} {s0 s' : VfsState} (hlen : bytes.length < 2 ^ 64)
    (h : tarMount archive bytes s0.vfsInit = some (.returned true, s')) :
    ∃ es, Entries bytes 0 es ∧ VfsState.VfsInv s' ∧ FilesAt archive es s' := by
  rw [tarMount] at h
  split_ifs at h
  · cases h
  · obtain ⟨_, -, -, hok⟩ := mountLoop_cases hlen h
    obtain ⟨hrun, es, hes, rfl⟩ := hok rfl
    exact ⟨es, hes, filesAt_of_entries hes hrun⟩

namespace BootArchive

/-! ### Agreement -/

theorem dotDot_of_stripped {path : List UInt8} (h : dotDot ∉ components (stripped path)) :
    dotDot ∉ components path := by
  have hfilter : ∀ l, dotDot ∈ components l ↔ dotDot ∈ namesOf l := fun l => by
    rw [namesOf]
    simp [show dotDot ≠ dot by decide]
  rwa [hfilter, ← namesOf_stripped, ← hfilter]

/-- At most one regular file stands for the path, and it and the path are written plainly. -/
structure Unambiguous (es : List TarEntry) (path : CString) : Prop where
  plain : ∀ c, normalizePath path.val pathCapacity = some c → Plain c
  entry : ∀ e ∈ es, e.IsFile → e.names = pathNames path → ∀ c,
    normalizePath e.name pathCapacity = some c → Plain c
  unique : ∀ e ∈ es, ∀ f ∈ es, e.IsFile → f.IsFile → e.names = pathNames path →
    f.names = pathNames path → e = f

variable {portal : Portal} {client : BootArchive} {es : List TarEntry} {path : CString} {canonical : List UInt8}
  {archive : Nat} {s : VfsState}

theorem path_entryOf (hne : canonical ≠ []) :
    (entryOf e).path = canonical ↔ normalizePath e.name pathCapacity = some canonical := by
  rw [entryOf]
  rcases normalizePath e.name pathCapacity with _ | c
  · exact iff_of_false (fun h => hne h.symm) (by simp)
  · simp

theorem type_entryOf_file : (entryOf e).type = .file ↔ e.IsFile := by
  rw [entryOf, TarEntry.IsFile]
  by_cases hdir : e.typeflag = 53
  · rw [hdir]
    exact iff_of_false (by simp) (by decide)
  · rw [if_neg hdir]
    by_cases hfile : e.typeflag = 0 ∨ e.typeflag = 48
    · rw [if_pos hfile]
      exact iff_of_true rfl hfile
    · rw [if_neg hfile]
      exact iff_of_false (by simp) hfile

theorem type_entryOf_directory : (entryOf e).type = .directory ↔ e.IsDirectory := by
  rw [entryOf]
  by_cases hdir : e.typeflag = 53
  · rw [if_pos hdir]
    exact iff_of_true rfl hdir
  · refine iff_of_false ?_ hdir
    split_ifs <;> simp

theorem canonical_ne_nil (h : normalizePath path.val pathCapacity = some canonical) : canonical ≠ [] := by
  rintro rfl
  exact (normalizePath_cases h).2.1 ((components_normalizePath h).symm.trans components_nil)

/-- A match of the second reader has the names of the path. -/
theorem names_of_find (hes : Entries bytes offset es)
    (hcanon : normalizePath path.val pathCapacity = some canonical)
    (h : (es.find? fun e => Listed e ∧ (entryOf e).path = canonical) = some e) :
    e ∈ es ∧ (entryOf e).type ≠ .none ∧ e.names = pathNames path := by
  have he := List.mem_of_find?_eq_some h
  obtain ⟨hlisted, hpath⟩ : Listed e ∧ (entryOf e).path = canonical := by simpa using List.find?_some h
  obtain ⟨_, hheader⟩ := hes.header he
  refine ⟨he, hlisted.2, ?_⟩
  rw [TarEntry.names_eq_namesOf hheader,
    namesOf_normalizePath ((path_entryOf (canonical_ne_nil hcanon)).mp hpath),
    ← namesOf_normalizePath hcanon]
  rfl

/-- An entry in the tree has a normalised name. -/
theorem normalizePath_entry (h : VfsState.VfsInv s) (hheader : HeaderAt bytes offset e)
    (ha : VfsState.At s e.names n) (htype : (s.node n).type = .file)
    (hprint : ∀ b ∈ e.name, Printable b) :
    ∃ c, normalizePath e.name pathCapacity = some c := by
  have hnames : namesOf (stripped e.name) = e.names :=
    (namesOf_stripped _).trans (TarEntry.names_eq_namesOf hheader).symm
  have hlen := ((length_collapsed_le none).trans (stripped_suffix e.name).length_le).trans_lt
    (length_joinedName hheader.name)
  refine ⟨_, normalizePath_eq hlen hprint (fun hnil => ?_) fun hdots => ?_⟩
  · -- the root is a directory
    rw [namesOf, hnil] at hnames
    rw [← hnames] at ha
    rw [h.at_unique ha .root, h.rootType] at htype
    cases htype
  · have hmem : dotDot ∈ e.names := by
      rw [← hnames]
      exact List.mem_filter.mpr ⟨hdots, by decide⟩
    exact (h.at_good ha _ hmem).ne_dotDot rfl

/-- The first match of the second reader is the entry of the file. -/
theorem find_of_file (h : VfsState.VfsInv s) (hes : Entries bytes offset es)
    (hfiles : FilesAt archive es s) (hcanon : normalizePath path.val pathCapacity = some canonical)
    (hu : Unambiguous es path) (he : e ∈ es) (hfile : e.IsFile) (hnames : e.names = pathNames path)
    (ha : VfsState.At s (pathNames path) n) (htype : (s.node n).type = .file)
    (hprint : ∀ b ∈ e.name, Printable b) :
    (es.find? fun e => Listed e ∧ (entryOf e).path = canonical) = some e := by
  have hne := canonical_ne_nil hcanon
  obtain ⟨_, hheader⟩ := hes.header he
  obtain ⟨c, hc⟩ := normalizePath_entry h hheader (hnames ▸ ha) htype hprint
  -- plain names with the same components are equal
  obtain rfl : c = canonical := by
    rw [normalizePath_plain hc (hu.entry e he hfile hnames c hc),
      normalizePath_plain hcanon (hu.plain _ hcanon), ← TarEntry.names_eq_namesOf hheader, hnames]
    rfl
  have hlisted : Listed e := by
    refine ⟨?_, ?_⟩
    · rw [(path_entryOf hne).mpr hc]
      exact hne
    · rw [type_entryOf_file.mpr hfile]
      exact nofun
  rcases hfind : es.find? fun e => Listed e ∧ (entryOf e).path = c with _ | f
  · have hnone := List.find?_eq_none.mp hfind e he
    simp [hlisted, (path_entryOf hne).mpr hc] at hnone
  · obtain ⟨hf, hlisted, hfnames⟩ := names_of_find hes hcanon hfind
    cases hftype : (entryOf f).type with
    | none => exact absurd hftype hlisted
    | file => rw [hu.unique f hf e he (type_entryOf_file.mp hftype) hfile hfnames hnames]
    | directory =>
      -- a directory of that name is not a file of the tree
      have hentry := hfiles.directory f hf (type_entryOf_directory.mp hftype)
      rw [hfnames, h.entryAt_at ha, VfsNode.info, htype] at hentry
      cases hentry

/-- **Kernel and user programs agree on the files of the boot archive**, where names are unambiguous. -/
theorem boot_archive_agrees {incarnation : Nat} {s₀ : VfsState} (hlen : portal.bytes.length < 2 ^ 64)
    (hmount : tarMount archive portal.bytes s₀.vfsInit = some (.returned true, s))
    (hcurrent : portal.Current incarnation) (hopen : bootArchiveOpen portal incarnation = some client)
    (hes : Entries portal.bytes 0 es) (hprint : ∀ e ∈ es, ∀ b ∈ e.name, Printable b)
    (hcanon : normalizePath path.val pathCapacity = some canonical) (hu : Unambiguous es path) (d n : Nat) :
    (∃ entry, bootArchiveFind portal client path = some (some entry) ∧ entry.type = .file ∧
      entry.dataOffset = d ∧ entry.size = n) ↔
    ∃ node, s.vfsResolve none path = some node ∧ (s.node node).type = .file ∧
      (s.node node).data = archive + d ∧ (s.node node).size = n := by
  obtain ⟨es', hes', h, hfiles⟩ := filesAt_of_mount hlen hmount
  obtain rfl := hes.unique hes'
  have hfind := bootArchiveFind_eq (opened_of_open hcurrent hopen) hlen hes hcanon
  constructor
  · rintro ⟨entry, hentry, htype, rfl, rfl⟩
    rw [hfind] at hentry
    obtain ⟨e, he, rfl⟩ := Option.map_eq_some_iff.mp (Option.some.inj hentry)
    obtain ⟨hmem, -, hnames⟩ := names_of_find hes hcanon he
    have hfile := type_entryOf_file.mp htype
    obtain ⟨node, last, hlast, ha, hnode, hdata, hsize⟩ := hfiles.holds e hmem hfile
    -- it is the only entry with these names
    obtain ⟨before, after, hsplit, -⟩ := hlast.split
    obtain rfl := hu.unique last (by rw [hsplit]; simp) e hmem hlast.file hfile
      (hlast.names_eq.trans hnames) hnames
    exact ⟨node, vfsResolve_at h (hnames ▸ ha), hnode, hdata, hsize⟩
  · rintro ⟨node, hresolve, htype, hdata, rfl⟩
    have ha : VfsState.At s (pathNames path) node := by
      simp only [VfsState.vfsResolve, h.root, Option.getD_none, ite_self] at hresolve
      rw [VfsState.resolveLoop_eq (Nat.lt_succ_self _)] at hresolve
      exact h.at_iff_descend.mpr
        (VfsState.descend_of_resolveList (dotDot_of_stripped (normalizePath_cases hcanon).2.2) hresolve)
    obtain ⟨e, he, hlast, hdata', hsize⟩ := hfiles.only _ node ha htype
    have hfirst := find_of_file h hes hfiles hcanon hu he hlast.file hlast.names_eq ha htype (hprint e he)
    refine ⟨entryOf e, by rw [hfind, hfirst]; rfl, type_entryOf_file.mpr hlast.file, ?_, hsize.symm⟩
    exact Nat.add_left_cancel (hdata'.symm.trans hdata)

/-! ### Samples -/

def samplePortal (bytes : List UInt8) : Portal := ⟨bytes, fun _ => []⟩

def sampleClient (bytes : List UInt8) : BootArchive := ⟨1, bytes.length, true⟩

theorem samplePortal_current (bytes : List UInt8) : (samplePortal bytes).Current 1 :=
  fun _ => ⟨Nat.zero_le _, nofun⟩

/-- The name `a`, once as a file and twice. -/
def nameA : List UInt8 := [97]
def fileA : List UInt8 := sampleHeader nameA 48
def entryA (dataOffset : Nat) : TarEntry := ⟨nameA, cString (slash :: nameA), 48, dataOffset, 0⟩

/-- The directory `./d/`, the file `./d/a` with one byte, and the file `a`. -/
def nameDA : List UInt8 := [100, 47, 97]
def filesDA : List UInt8 :=
  sampleHeader [46, 47, 100, 47] 53 ++ sampleHeader (46 :: 47 :: nameDA) 48 1 ++
    7 :: List.replicate 511 0 ++ fileA
def entriesDA : List TarEntry :=
  [⟨[46, 47, 100, 47], cString [47, 100], 53, 512, 0⟩,
    ⟨46 :: 47 :: nameDA, cString (slash :: nameDA), 48, 1024, 1⟩, entryA 2048]

theorem entries_filesDA : Entries filesDA 0 entriesDA := by
  refine .entry ⟨?_, ?_, ?_, ?_, ?_, ?_, ?_, ?_, ?_, ?_⟩ ?_
    (.entry ⟨?_, ?_, ?_, ?_, ?_, ?_, ?_, ?_, ?_, ?_⟩ ?_
      (.entry ⟨?_, ?_, ?_, ?_, ?_, ?_, ?_, ?_, ?_, ?_⟩ ?_ (.done ?_))) <;> decide +kernel

theorem returned_of_map {m : Option (MountResult × VfsState)} {r : MountResult}
    (h : m.map Prod.fst = some r) : ∃ s, m = some (r, s) := by
  obtain ⟨⟨r', s⟩, hm, rfl⟩ := Option.map_eq_some_iff.mp h
  exact ⟨s, hm⟩

instance (b : UInt8) : Decidable (Printable b) := inferInstanceAs (Decidable (_ ∧ _))

instance (c : List UInt8) : Decidable (Plain c) := inferInstanceAs (Decidable (_ ∧ _))

theorem boot_archive_agrees_filesDA :
    ∃ s, tarMount 4096 filesDA noTree.vfsInit = some (.returned true, s) ∧ ∀ d n,
      ((∃ entry, bootArchiveFind (samplePortal filesDA) (sampleClient filesDA) (cString nameDA) =
        some (some entry) ∧ entry.type = .file ∧ entry.dataOffset = d ∧ entry.size = n) ↔
      ∃ node, s.vfsResolve none (cString nameDA) = some node ∧ (s.node node).type = .file ∧
        (s.node node).data = 4096 + d ∧ (s.node node).size = n) := by
  obtain ⟨s, hmount⟩ := returned_of_map (show (tarMount 4096 filesDA noTree.vfsInit).map Prod.fst =
    some (.returned true) by decide +kernel)
  have hu : Unambiguous entriesDA (cString nameDA) := by
    refine ⟨?_, ?_, ?_⟩
    · show ∀ c ∈ normalizePath (cString nameDA).val pathCapacity, Plain c
      decide +kernel
    · show ∀ e ∈ entriesDA, e.IsFile → e.names = pathNames (cString nameDA) →
        ∀ c ∈ normalizePath e.name pathCapacity, Plain c
      decide +kernel
    · decide +kernel
  exact ⟨s, hmount, boot_archive_agrees (by decide +kernel) hmount (samplePortal_current filesDA)
    (by decide +kernel) entries_filesDA (by decide +kernel)
    (show _ = some nameDA by decide +kernel) hu⟩

/-- The two readers differ about a path of an archive that `tar_mount` accepts. -/
def Disagree (bytes : List UInt8) (path : CString) : Prop :=
  ∃ s es d n, tarMount 4096 bytes noTree.vfsInit = some (.returned true, s) ∧ Entries bytes 0 es ∧
    (∀ e ∈ es, ∀ b ∈ e.name, Printable b) ∧ (normalizePath path.val pathCapacity).isSome ∧
    bootArchiveOpen (samplePortal bytes) 1 = some (sampleClient bytes) ∧
    ¬ ((∃ entry, bootArchiveFind (samplePortal bytes) (sampleClient bytes) path = some (some entry) ∧
        entry.type = .file ∧ entry.dataOffset = d ∧ entry.size = n) ↔
      ∃ node, s.vfsResolve none path = some node ∧ (s.node node).type = .file ∧
        (s.node node).data = 4096 + d ∧ (s.node node).size = n)

/-- Two answers that differ are enough. -/
theorem disagree_of_answers {bytes canonical : List UInt8} {path : CString} {es : List TarEntry}
    {node : NodeRef} {data size d n : Nat} {found : Option Entry} (hlen : bytes.length < 2 ^ 64)
    (hmount : (tarMount 4096 bytes noTree.vfsInit).map (fun r => (r.1, r.2.vfsResolve none path,
      (r.2.node node).type, (r.2.node node).data, (r.2.node node).size)) =
        some (.returned true, some node, .file, data, size))
    (hes : Entries bytes 0 es) (hprint : ∀ e ∈ es, ∀ b ∈ e.name, Printable b)
    (hcanon : normalizePath path.val pathCapacity = some canonical)
    (hopen : bootArchiveOpen (samplePortal bytes) 1 = some (sampleClient bytes))
    (hfound : (es.find? fun e => Listed e ∧ (entryOf e).path = canonical).map entryOf = found)
    (hdiffer : ¬ ((∃ entry, found = some entry ∧ entry.type = .file ∧ entry.dataOffset = d ∧ entry.size = n) ↔
      data = 4096 + d ∧ size = n)) :
    Disagree bytes path := by
  obtain ⟨⟨r, s⟩, hm, hr⟩ := Option.map_eq_some_iff.mp hmount
  simp only [Prod.mk.injEq] at hr
  obtain ⟨rfl, hresolve, htype, rfl, rfl⟩ := hr
  have hfind := bootArchiveFind_eq (opened_of_open (samplePortal_current bytes) hopen) hlen hes hcanon
  rw [hfound] at hfind
  refine ⟨s, es, d, n, hm, hes, hprint, hcanon ▸ rfl, hopen, fun hiff => hdiffer ?_⟩
  simpa [hfind, hresolve, htype] using hiff

/-- `a` twice. -/
def fileATwice : List UInt8 := fileA ++ fileA

theorem entries_fileATwice : Entries fileATwice 0 [entryA 512, entryA 1024] := by
  refine .entry ⟨?_, ?_, ?_, ?_, ?_, ?_, ?_, ?_, ?_, ?_⟩ ?_
    (.entry ⟨?_, ?_, ?_, ?_, ?_, ?_, ?_, ?_, ?_, ?_⟩ ?_ (.done ?_)) <;> decide +kernel

/-- `a/b`, and the path `a/./b`. -/
def fileAB : List UInt8 := sampleHeader nameAB 48
def pathADotB : CString := cString [97, 47, 46, 47, 98]

theorem entries_fileAB : Entries fileAB 0 [entryAB] := by
  refine .entry ⟨?_, ?_, ?_, ?_, ?_, ?_, ?_, ?_, ?_, ?_⟩ ?_ (.done ?_) <;> decide +kernel

/-- `.//a`. -/
def nameDotSlashA : List UInt8 := [46, 47, 47, 97]
def fileDotSlashA : List UInt8 := sampleHeader nameDotSlashA 48
def entryDotSlashA : TarEntry := ⟨nameDotSlashA, cString (slash :: nameA), 48, 512, 0⟩

theorem entries_fileDotSlashA : Entries fileDotSlashA 0 [entryDotSlashA] := by
  refine .entry ⟨?_, ?_, ?_, ?_, ?_, ?_, ?_, ?_, ?_, ?_⟩ ?_ (.done ?_) <;> decide +kernel

/-- The two readers differ if a file is in the archive twice, about a path with a `.` in it, and about
a name that begins with `.//`. -/
theorem boot_archive_disagrees : Disagree fileATwice (cString nameA) ∧ Disagree fileAB pathADotB ∧
    Disagree fileDotSlashA (cString nameA) := by
  refine ⟨?_, ?_, ?_⟩
  · refine @disagree_of_answers _ nameA _ _ 1 (4096 + 1024) 0 512 0 (some (entryOf (entryA 512)))
      (by decide +kernel) (by decide +kernel) entries_fileATwice (by decide +kernel) (by decide +kernel)
      (by decide +kernel) (by decide +kernel) ?_
    exact fun hiff => absurd (hiff.mp ⟨_, rfl, by decide, by decide, by decide⟩) (by decide)
  · refine @disagree_of_answers _ pathADotB.val _ _ 2 (4096 + 512) 0 512 0 none (by decide +kernel)
      (by decide +kernel) entries_fileAB (by decide +kernel) (by decide +kernel) (by decide +kernel)
      (by decide +kernel) ?_
    exact fun hiff => absurd (hiff.mpr ⟨rfl, rfl⟩) (by simp)
  · refine @disagree_of_answers _ nameA _ _ 1 (4096 + 512) 0 512 0 none (by decide +kernel) (by decide +kernel)
      entries_fileDotSlashA (by decide +kernel) (by decide +kernel) (by decide +kernel) (by decide +kernel) ?_
    exact fun hiff => absurd (hiff.mpr ⟨rfl, rfl⟩) (by simp)

end BootArchive

end JcosKernel
