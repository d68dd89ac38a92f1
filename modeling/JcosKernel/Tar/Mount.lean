import JcosKernel.Tar.Model
import JcosKernel.Vfs.Contents

/-!
# JcosKernel.Tar.Mount

What `tar_mount` does to the tree.

`Entries bytes offset es` lists the entries of an archive from an offset on, up to the first zero
block or the end. The loop hands each regular file and each directory to the tree in this order
(`mountLoop_spec`); if it returns true every call succeeded, and the tree is what `VfsState.Contents`
says of these calls.

Two entries stand for the same file if the components of their names agree, empty ones and `.` left
out: this is how the tree reads a path, whatever `build_path` did to the name.
-/

namespace JcosKernel

open Lib

/-! ### Entries -/

/-- The size in the archive, with padding. -/
def paddedTo (size : Nat) : Nat := (size + (tarBlockSize - 1)) / tarBlockSize * tarBlockSize

/-- A valid header at the offset and the entry it describes, whose data is inside the archive. -/
structure HeaderAt (bytes : List UInt8) (offset : Nat) (e : TarEntry) : Prop where
  inside : offset + tarBlockSize ≤ bytes.length
  nonzero : blockIsZero (blockAt bytes offset) = false
  magic : tarMagicValid (blockAt bytes offset) = true
  checksum : checksumValid (blockAt bytes offset) = true
  size : parseOctal (sizeField (blockAt bytes offset)) = some e.size
  name : joinedName (blockAt bytes offset) = some e.name
  path : buildPath (blockAt bytes offset) = some e.path
  type : e.typeflag = typeflag (blockAt bytes offset)
  dataOffset : e.dataOffset = offset + tarBlockSize
  data : e.dataOffset + e.size ≤ bytes.length

/-- The entries from an offset on, before the first zero block. -/
inductive Entries (bytes : List UInt8) : Nat → List TarEntry → Prop
  | done {offset : Nat} : bytes.length < offset + tarBlockSize → Entries bytes offset []
  | zero {offset : Nat} : offset + tarBlockSize ≤ bytes.length →
      blockIsZero (blockAt bytes offset) = true → Entries bytes offset []
  | entry {offset : Nat} {e : TarEntry} {es : List TarEntry} : HeaderAt bytes offset e →
      e.dataOffset + paddedTo e.size ≤ bytes.length →
      Entries bytes (e.dataOffset + paddedTo e.size) es → Entries bytes offset (e :: es)

namespace TarEntry

/-- The claimed name: without leading `./` and slashes and without trailing slashes. -/
def normalised (e : TarEntry) : CString := cString (normalisedName e.name)

/-- The names the tree reads in it. -/
def names (e : TarEntry) : List (List UInt8) := pathNames e.normalised

/-- A regular file. -/
def IsFile (e : TarEntry) : Prop := e.typeflag = 0 ∨ e.typeflag = 48

instance (e : TarEntry) : Decidable e.IsFile := inferInstanceAs (Decidable (_ ∨ _))

def IsDirectory (e : TarEntry) : Prop := e.typeflag = 53

end TarEntry

/-! ### Names and paths -/

variable {es : List TarEntry} {block l : List UInt8} {q : List (List UInt8)} {e : TarEntry}
  {path : CString} {data size : Nat}

theorem cString_eq (h : 0 ∉ l) : (cString l).val = l := by
  rw [cString, List.takeWhile_eq_self_iff]
  intro b hb
  have hne : b ≠ 0 := fun hzero => h (hzero ▸ hb)
  simpa using hne

theorem stripDotSlash_suffix (l : List UInt8) : stripDotSlash l <:+ l := by
  fun_induction stripDotSlash l with
  | case1 source ih => exact ih.trans ⟨[46, 47], rfl⟩
  | case2 source => exact List.suffix_rfl

theorem mem_normalisedName {b : UInt8} (h : b ∈ normalisedName l) : b ∈ l :=
  (stripDotSlash_suffix l).subset ((List.dropWhile_sublist _).subset ((List.rdropWhile_prefix _ _).subset h))

theorem appendField_no_nul {destination text l : List UInt8} (hd : 0 ∉ destination)
    (h : appendField destination text = some l) : 0 ∉ l := by
  rw [appendField] at h
  split_ifs at h
  cases h
  intro hmem
  rcases List.mem_append.mp hmem with hmem | hmem
  · exact hd hmem
  · simpa using List.mem_takeWhile_imp hmem

theorem joinedName_no_nul (h : joinedName block = some l) : 0 ∉ l := by
  rw [joinedName, Option.bind_eq_some_iff] at h
  obtain ⟨temporary, ht, h⟩ := h
  refine appendField_no_nul ?_ h
  split_ifs at ht
  · split at ht
    · cases ht
    · next t happend =>
      split_ifs at ht
      cases ht
      have hno := appendField_no_nul (by simp) happend
      rw [List.mem_append, not_or]
      exact ⟨hno, by decide⟩
  · cases ht
    simp

/-- The path handed to the tree has the names of the entry. -/
theorem pathNames_buildPath {block name : List UInt8} (hname : joinedName block = some name)
    (h : buildPath block = some path) :
    pathNames path = pathNames (cString (normalisedName name)) := by
  have hno : 0 ∉ normalisedName name := fun hzero => joinedName_no_nul hname (mem_normalisedName hzero)
  simp only [buildPath, hname] at h
  split_ifs at h with hroot
  · cases h
    rcases hroot with hroot | hroot <;> rw [hroot] <;> decide
  · cases h
    have hno' : 0 ∉ slash :: normalisedName name := by
      rw [List.mem_cons, not_or]
      exact ⟨by decide, hno⟩
    rw [pathNames, pathNames, cString_eq hno, cString_eq hno', components_slash]

/-! ### One header -/

section header

variable {bytes : List UInt8} {offset next : Nat}

theorem headerAt_of_readEntry (hlen : bytes.length < 2 ^ 64)
    (hinside : offset + tarBlockSize ≤ bytes.length) (hzero : blockIsZero (blockAt bytes offset) = false)
    (h : readEntry bytes.length offset (blockAt bytes offset) = some e) : HeaderAt bytes offset e := by
  have hmod : (offset + tarBlockSize) % 2 ^ 64 = offset + tarBlockSize :=
    Nat.mod_eq_of_lt (by omega)
  rw [readEntry] at h
  split_ifs at h with hmagic hsum
  rcases hsize : parseOctal (sizeField (blockAt bytes offset)) with _ | fileSize
  · simp [hsize] at h
  simp only [hsize, hmod] at h
  split_ifs at h with hlt hfit
  rcases hname : joinedName (blockAt bytes offset) with _ | name
  · simp [hname] at h
  rcases hpath : buildPath (blockAt bytes offset) with _ | path
  · simp [hpath] at h
  simp only [hname, hpath, Option.some.injEq] at h
  subst h
  exact ⟨hinside, hzero, hmagic, hsum, hsize, hname, hpath, rfl, rfl,
    show offset + tarBlockSize + fileSize ≤ bytes.length by omega⟩

/-- The sums do not overflow, or the header is refused. -/
theorem HeaderAt.next_eq (h : HeaderAt bytes offset e) (hlen : bytes.length < 2 ^ 64)
    (hnext : e.next bytes.length = some next) :
    next = e.dataOffset + paddedTo e.size ∧ next ≤ bytes.length ∧ offset + tarBlockSize ≤ next := by
  have hdata := h.data
  have hoff := h.dataOffset
  have hpad : (e.size + (tarBlockSize - 1)) % 2 ^ 64 / tarBlockSize * tarBlockSize = paddedTo e.size := by
    rw [Nat.mod_eq_of_lt (by omega), paddedTo]
  have hle : paddedTo e.size ≤ e.size + (tarBlockSize - 1) := Nat.div_mul_le_self _ _
  rw [TarEntry.next] at hnext
  simp only [hpad] at hnext
  split_ifs at hnext with h1 h2
  cases hnext
  have hmod : (e.dataOffset + paddedTo e.size) % 2 ^ 64 = e.dataOffset + paddedTo e.size := by omega
  exact ⟨hmod, by omega, by omega⟩

theorem HeaderAt.names_path (h : HeaderAt bytes offset e) : pathNames e.path = e.names :=
  pathNames_buildPath h.name h.path

end header

/-! ### The loop -/

/-- The data of a call lies inside the archive. -/
def VfsCall.Inside (archive archiveSize : Nat) : VfsCall → Prop
  | addDirectory _ => True
  | addFile _ data size => archive ≤ data ∧ data + size ≤ archive + archiveSize

theorem HeaderAt.call_inside {bytes : List UInt8} {offset archive : Nat}
    (h : HeaderAt bytes offset e) : ∀ call ∈ e.call archive, call.Inside archive bytes.length := by
  intro call hcall
  have hdata := h.data
  rw [TarEntry.call] at hcall
  split_ifs at hcall
  · cases hcall
    exact ⟨Nat.le_add_right _ _, by omega⟩
  · cases hcall
    trivial
  · cases hcall

variable {archive : Nat} {bytes : List UInt8} {steps offset : Nat} {s s' : VfsState}

/-- One turn of the loop: it ends, or goes on behind the entry of a header. -/
theorem mountLoop_turn (archive : Nat) (steps : Nat) (s : VfsState) (hlen : bytes.length < 2 ^ 64) :
    (∃ r, mountLoop archive bytes (steps + 1) offset s = some (r, s) ∧
      (r = .returned true → Entries bytes offset []) ∧
      ((∀ ok, r ≠ .returned ok) → (offset + tarBlockSize) % 2 ^ 64 ≤ bytes.length ∧
        bytes.length < offset + tarBlockSize)) ∨
    ∃ e, HeaderAt bytes offset e ∧ mountLoop archive bytes (steps + 1) offset s =
      match (e.call archive).elim (true, s) (VfsCall.exec · s) with
      | (false, s) => some (.returned false, s)
      | (true, s) =>
        match e.next bytes.length with
        | none => some (.returned false, s)
        | some next => mountLoop archive bytes steps next s := by
  rw [mountLoop]
  by_cases hcond : (offset + tarBlockSize) % 2 ^ 64 ≤ bytes.length
  swap
  · rw [if_neg hcond]
    have hlt : bytes.length < offset + tarBlockSize :=
      (Nat.lt_of_not_le hcond).trans_le (Nat.mod_le _ _)
    exact .inl ⟨_, rfl, fun _ => .done hlt, fun hr => absurd rfl (hr true)⟩
  rw [if_pos hcond, readBlock]
  by_cases hmore : offset + tarBlockSize ≤ bytes.length
  swap
  · rw [if_neg hmore]
    exact .inl ⟨_, rfl, (fun h => by cases h), fun _ => ⟨hcond, Nat.lt_of_not_le hmore⟩⟩
  rw [if_pos hmore]
  cases hzero : blockIsZero (blockAt bytes offset) with
  | true =>
    simp only [hzero]
    exact .inl ⟨_, rfl, fun _ => .zero hmore hzero, fun hr => absurd rfl (hr true)⟩
  | false =>
    rcases hread : readEntry bytes.length offset (blockAt bytes offset) with _ | e
    · simp only [hzero, hread]
      exact .inl ⟨_, rfl, (fun h => by cases h), fun hr => absurd rfl (hr false)⟩
    · simp only [hzero, hread]
      exact .inr ⟨e, headerAt_of_readEntry hlen hmore hzero hread, rfl⟩

/-- The call of an entry, if it has one. -/
theorem call_run {ok : Bool} {s1 : VfsState}
    (hcall : (e.call archive).elim (true, s) (VfsCall.exec · s) = (ok, s1)) :
    s1 = s.execCalls (e.call archive).toList ∧
      (ok = true → Run VfsState.Success s (e.call archive).toList s1) := by
  cases hc : e.call archive with
  | none =>
    rw [hc] at hcall
    cases hcall
    exact ⟨rfl, fun _ => .nil s⟩
  | some call =>
    rw [hc] at hcall
    refine ⟨(congrArg Prod.snd hcall).symm, ?_⟩
    rintro rfl
    exact Run.single hcall

/-- The calls the loop makes, and what they are if it returns true. -/
theorem mountLoop_cases {r : MountResult} (hlen : bytes.length < 2 ^ 64)
    (h : mountLoop archive bytes steps offset s = some (r, s')) :
    ∃ calls, s' = s.execCalls calls ∧ (∀ call ∈ calls, call.Inside archive bytes.length) ∧
      (r = .returned true → Run VfsState.Success s calls s' ∧
        ∃ es, Entries bytes offset es ∧ calls = es.filterMap (TarEntry.call archive)) := by
  induction steps generalizing offset s with
  | zero => cases h
  | succ steps ih =>
    rcases mountLoop_turn archive steps s hlen with ⟨r', hr', hes, -⟩ | ⟨e, hat, hturn⟩
    · rw [hr'] at h
      cases h
      exact ⟨[], rfl, nofun, fun hr => ⟨.nil _, [], hes hr, rfl⟩⟩
    rw [hturn] at h
    have hinside : ∀ call ∈ (e.call archive).toList, call.Inside archive bytes.length :=
      fun call hmem => hat.call_inside call (Option.mem_toList.mp hmem)
    rcases hcall : (e.call archive).elim (true, s) (VfsCall.exec · s) with ⟨ok, s1⟩
    obtain ⟨hstate, hrun⟩ := call_run hcall
    rw [hcall] at h
    cases ok with
    | false =>
      cases h
      exact ⟨_, hstate, hinside, nofun⟩
    | true =>
      rcases hnext : e.next bytes.length with _ | next
      · simp only [hnext] at h
        cases h
        exact ⟨_, hstate, hinside, nofun⟩
      simp only [hnext] at h
      obtain ⟨hnexteq, hle, -⟩ := hat.next_eq hlen hnext
      obtain ⟨calls, hs', hin, hok⟩ := ih h
      refine ⟨(e.call archive).toList ++ calls, ?_, List.forall_mem_append.mpr ⟨hinside, hin⟩,
        fun htrue => ?_⟩
      · rw [hs', hstate, VfsState.execCalls, VfsState.execCalls, VfsState.execCalls,
          List.foldl_append]
      · obtain ⟨hrun', es, hes, hcalls⟩ := hok htrue
        refine ⟨(hrun rfl).append hrun', e :: es, .entry hat (hnexteq ▸ hle) (hnexteq ▸ hes), ?_⟩
        rw [hcalls, List.filterMap_cons]
        cases e.call archive <;> rfl

/-- Behind an entry there is room for fewer headers. -/
theorem blocks_left {size next : Nat} (hge : offset + tarBlockSize ≤ next) (hle : next ≤ size)
    (h : (size - offset) / tarBlockSize < steps + 1) : (size - next) / tarBlockSize < steps := by
  have hsub : size - next + tarBlockSize ≤ size - offset := by omega
  have hdiv := Nat.div_le_div_right (c := tarBlockSize) hsub
  rw [Nat.add_div_right _ (by decide)] at hdiv
  omega

/-- The loop ends, and before the end of the archive. -/
theorem mountLoop_returns (hlen : bytes.length + tarBlockSize < 2 ^ 64) (hoff : offset ≤ bytes.length)
    (hsteps : (bytes.length - offset) / tarBlockSize < steps) :
    ∃ ok s', mountLoop archive bytes steps offset s = some (.returned ok, s') := by
  induction steps generalizing offset s with
  | zero => exact absurd hsteps (Nat.not_lt_zero _)
  | succ steps ih =>
    have hlen' : bytes.length < 2 ^ 64 := by omega
    rcases mountLoop_turn archive steps s hlen' with ⟨r, hr, -, hbeyond⟩ | ⟨e, hat, hturn⟩
    · cases r with
      | returned ok => exact ⟨ok, s, hr⟩
      | readBeyond _ =>
        obtain ⟨hcond, hlt⟩ := hbeyond nofun
        rw [Nat.mod_eq_of_lt (by omega)] at hcond
        exact absurd hcond (Nat.not_le.mpr hlt)
    rw [hturn]
    rcases (e.call archive).elim (true, s) (VfsCall.exec · s) with ⟨_ | _, s1⟩
    · exact ⟨false, s1, rfl⟩
    rcases hnext : e.next bytes.length with _ | next
    · exact ⟨false, s1, rfl⟩
    obtain ⟨-, hle, hge⟩ := hat.next_eq hlen' hnext
    exact ih hle (blocks_left hge hle hsteps)

/-! ### The namespace -/

/-- The last of a list on which a partial function is defined. -/
theorem getLast?_filterMap_split {α β : Type*} {f : α → Option β} {l : List α} {b : β}
    (h : (l.filterMap f).getLast? = some b) :
    ∃ before a after, l = before ++ a :: after ∧ f a = some b ∧ ∀ x ∈ after, f x = none := by
  induction l using List.reverseRecOn with
  | nil => simp at h
  | append_singleton l x ih =>
    rcases hx : f x with _ | y
    · have hlast : (l.filterMap f).getLast? = some b := by simpa [hx] using h
      obtain ⟨before, a, after, rfl, ha, hafter⟩ := ih hlast
      exact ⟨before, a, after ++ [x], by simp, ha,
        List.forall_mem_append.mpr ⟨hafter, List.forall_mem_singleton.mpr hx⟩⟩
    · have hy : y = b := by simpa [hx] using h
      exact ⟨l, x, [], rfl, hx.trans (congrArg some hy), nofun⟩

/-- The entry that decides about a path: the last regular file with these names. -/
structure LastFile (es : List TarEntry) (names : List (List UInt8)) (e : TarEntry) : Prop where
  file : e.IsFile
  names_eq : e.names = names
  split : ∃ before after, es = before ++ e :: after ∧ ∀ f ∈ after, f.IsFile → f.names ≠ names

/-- The entries of an archive come from headers. -/
theorem Entries.header (h : Entries bytes offset es) (he : e ∈ es) :
    ∃ offset, HeaderAt bytes offset e := by
  induction h with
  | done => cases he
  | zero => cases he
  | entry hheader _ _ ih =>
    rcases List.mem_cons.mp he with rfl | he
    · exact ⟨_, hheader⟩
    · exact ih he

section call

theorem TarEntry.call_of_file (archive : Nat) (h : e.IsFile) :
    e.call archive = some (.addFile e.path (archive + e.dataOffset) e.size) := if_pos h

theorem TarEntry.call_of_directory (h : e.IsDirectory) : e.call archive = some (.addDirectory e.path) := by
  rw [TarEntry.call, if_neg (by rw [show e.typeflag = 53 from h]; decide)]
  exact if_pos h

theorem TarEntry.fileAt_call (h : ((e.call archive).bind (VfsCall.fileAt q)) = some (data, size)) :
    e.IsFile ∧ pathNames e.path = q ∧ data = archive + e.dataOffset ∧ size = e.size := by
  rw [TarEntry.call] at h
  split_ifs at h with hfile hdir
  · rw [Option.bind_some, VfsCall.fileAt] at h
    split_ifs at h with hq
    cases h
    exact ⟨hfile, hq, rfl, rfl⟩
  · cases h
  · cases h

end call

/-- `vfs_resolve` of a path that stands for the names of a node. -/
theorem vfsResolve_at (h : VfsState.VfsInv s) {n : NodeRef}
    (ha : VfsState.At s (pathNames path) n) : s.vfsResolve none path = some n := by
  -- the components are `.` and good names
  have hnames : ∀ name ∈ components path.val, name.length ≤ vfsNameMax ∧ name ≠ dotDot := fun name hname => by
    by_cases hdot : name = dot
    · rw [hdot]
      decide
    · have hgood := h.at_good ha name (List.mem_filter.mpr ⟨hname, by simpa using hdot⟩)
      exact ⟨hgood.length_le, hgood.ne_dotDot⟩
  simp only [VfsState.vfsResolve, h.root, Option.getD_none, ite_self]
  rw [VfsState.resolveLoop_eq (Nat.lt_succ_self _), VfsState.resolveList_eq_descend hnames]
  exact h.at_iff_descend.mp ha

/-- The files of the tree are those of the archive, each at its names. -/
structure FilesAt (archive : Nat) (es : List TarEntry) (s : VfsState) : Prop where
  holds : ∀ e ∈ es, e.IsFile → ∃ n last, LastFile es e.names last ∧ VfsState.At s e.names n ∧
    (s.node n).type = .file ∧ (s.node n).data = archive + last.dataOffset ∧ (s.node n).size = last.size
  only : ∀ q n, VfsState.At s q n → (s.node n).type = .file → ∃ e ∈ es, LastFile es q e ∧
    (s.node n).data = archive + e.dataOffset ∧ (s.node n).size = e.size
  directory : ∀ e ∈ es, e.IsDirectory → s.entryAt e.names = some .directory
  above : ∀ e ∈ es, e.IsFile ∨ e.IsDirectory → ∀ q, q <+: e.names → q ≠ e.names →
    s.entryAt q = some .directory

/-- The last file with the given names, as an entry. -/
theorem Entries.lastFile (hes : Entries bytes offset es)
    (hq : JcosKernel.lastFile (es.filterMap (TarEntry.call archive)) q = some (data, size)) :
    ∃ e ∈ es, LastFile es q e ∧ data = archive + e.dataOffset ∧ size = e.size := by
  rw [JcosKernel.lastFile, List.filterMap_filterMap] at hq
  obtain ⟨before, e, after, hsplit, he, hafter⟩ := getLast?_filterMap_split hq
  have hmem : e ∈ es := by rw [hsplit]; simp
  obtain ⟨_, hheader⟩ := hes.header hmem
  obtain ⟨hfile, hnames, hdata, hsize⟩ := TarEntry.fileAt_call he
  refine ⟨e, hmem,
    ⟨hfile, hheader.names_path ▸ hnames, before, after, hsplit, fun f hf hffile hfnames => ?_⟩, hdata, hsize⟩
  obtain ⟨_, hfheader⟩ := hes.header (show f ∈ es by rw [hsplit]; simp [hf])
  have hnone := hafter f hf
  rw [TarEntry.call_of_file archive hffile, Option.bind_some, VfsCall.fileAt,
    if_pos (hfheader.names_path.trans hfnames)] at hnone
  cases hnone

theorem filesAt_of_entries {s0 : VfsState} (hes : Entries bytes 0 es)
    (hrun : Run VfsState.Success s0.vfsInit (es.filterMap (TarEntry.call archive)) s') :
    VfsState.VfsInv s' ∧ FilesAt archive es s' := by
  have h0 := VfsState.vfsInit_inv s0
  obtain ⟨h', hc⟩ := h0.contents hrun
  refine ⟨h', fun e he hfile => ?_, fun q n ha htype => ?_, fun e he hdir => ?_,
    fun e he htype q hq hne => ?_⟩
  · obtain ⟨_, hheader⟩ := hes.header he
    have hcall := List.mem_filterMap.mpr ⟨e, he, TarEntry.call_of_file archive hfile⟩
    have hsome : (lastFile (es.filterMap (TarEntry.call archive)) e.names).isSome :=
      lastFile_isSome hcall (by rw [VfsCall.fileAt, if_pos hheader.names_path]; rfl)
    obtain ⟨⟨data, size⟩, hq⟩ := Option.isSome_iff_exists.mp hsome
    obtain ⟨last, -, hlast, rfl, rfl⟩ := hes.lastFile hq
    obtain ⟨n, ha, hentry⟩ := h'.entryAt_iff.mp (hc.file _ _ _ hq)
    refine ⟨n, last, hlast, ha, ?_⟩
    rw [NodeInfo.entry, VfsNode.info] at hentry
    cases htype : (s'.node n).type with
    | directory => simp [htype] at hentry
    | file => simpa [htype] using hentry
  · have hentry : s'.entryAt q = some (.file (s'.node n).data (s'.node n).size) := by
      rw [h'.entryAt_at ha, NodeInfo.entry, VfsNode.info, htype]
    rcases hq : lastFile (es.filterMap (TarEntry.call archive)) q with _ | ⟨data, size⟩
    · -- neither an entry nor above one: it was in the tree before
      by_cases habove : ∃ call ∈ es.filterMap (TarEntry.call archive), call.Above q
      · rw [hc.directory q habove] at hentry
        cases hentry
      · rw [hc.rest q hq habove] at hentry
        obtain ⟨m, hm, hmentry⟩ := h0.entryAt_iff.mp hentry
        have hm0 : m = 0 := Nat.lt_one_iff.mp (h0.at_lt hm)
        rw [hm0, VfsNode.info] at hmentry
        cases hmentry
    · obtain ⟨e, hmem, hlast, rfl, rfl⟩ := hes.lastFile hq
      rw [hc.file _ _ _ hq] at hentry
      obtain ⟨hdata, hsize⟩ := VfsEntry.file.inj (Option.some.inj hentry)
      exact ⟨e, hmem, hlast, hdata.symm, hsize.symm⟩
  · obtain ⟨_, hheader⟩ := hes.header he
    have hself : e.names <+: pathNames e.path := hheader.names_path ▸ List.prefix_rfl
    exact hc.directory _ ⟨_, List.mem_filterMap.mpr ⟨e, he, TarEntry.call_of_directory hdir⟩, hself⟩
  · obtain ⟨_, hheader⟩ := hes.header he
    have hq' : q <+: pathNames e.path := hheader.names_path.symm ▸ hq
    refine hc.directory q ?_
    rcases htype with hfile | hdir
    · exact ⟨_, List.mem_filterMap.mpr ⟨e, he, TarEntry.call_of_file archive hfile⟩,
        hq', hheader.names_path.symm ▸ hne⟩
    · exact ⟨_, List.mem_filterMap.mpr ⟨e, he, TarEntry.call_of_directory hdir⟩, hq'⟩

/-- The tree holds what the archive holds. -/
structure Namespace (archive : Nat) (es : List TarEntry) (s : VfsState) : Prop where
  /-- A regular file is found under its name, with the data of the last entry of that name. -/
  resolves : ∀ e ∈ es, e.IsFile → ∃ n last, LastFile es e.names last ∧
    s.vfsResolve none e.normalised = some n ∧ (s.node n).type = .file ∧
    (s.node n).data = archive + last.dataOffset ∧ (s.node n).size = last.size
  /-- There are no other files. -/
  only : ∀ n, VfsState.Reachable s n → (s.node n).type = .file → ∃ e ∈ es, LastFile es e.names e ∧
    s.vfsResolve none e.normalised = some n ∧
    (s.node n).data = archive + e.dataOffset ∧ (s.node n).size = e.size
  /-- Above a file or directory there are directories. -/
  above : ∀ e ∈ es, e.IsFile ∨ e.IsDirectory → ∀ q, q <+: e.names → q ≠ e.names →
    s.entryAt q = some .directory

theorem FilesAt.toNamespace (h : VfsState.VfsInv s) (f : FilesAt archive es s) :
    Namespace archive es s := by
  refine ⟨fun e he hfile => ?_, fun n hn htype => ?_, f.above⟩
  · obtain ⟨n, last, hlast, ha, hnode⟩ := f.holds e he hfile
    exact ⟨n, last, hlast, vfsResolve_at h ha, hnode⟩
  · obtain ⟨q, ha⟩ := h.exists_at (h.reachable_iff.mp hn)
    obtain ⟨e, he, hlast, hnode⟩ := f.only q n ha htype
    have hnames := hlast.names_eq
    subst hnames
    exact ⟨e, he, hlast, vfsResolve_at h ha, hnode⟩

end JcosKernel
