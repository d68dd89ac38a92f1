import JcosKernel.Vfs.Model
import Mathlib.Data.List.TakeWhile

/-!
# JcosKernel.Vfs.Path

Paths as lists of components.

`next_component` reads a path from left to right; `components` is the list of what it reads until
the end. The loops of `vfs_resolve`, `vfs_add_directory` and `vfs_add_file` become recursions over
that list, and the number of steps they are given is always enough.
-/

namespace JcosKernel

open Lib

/-- The maximal parts of a path without a slash. -/
def components (path : List UInt8) : List (List UInt8) :=
  (path.splitOnP (· == slash)).filter (· ≠ [])

@[simp] theorem components_nil : components [] = [] := rfl

theorem components_slash (path : List UInt8) : components (slash :: path) = components path := by
  rfl

theorem components_dropWhile (path : List UInt8) :
    components (path.dropWhile (· == slash)) = components path := by
  induction path with
  | nil => rfl
  | cons b path ih =>
    by_cases hb : b = slash
    · rw [List.dropWhile_cons_of_pos (by simp [hb]), ih, hb, components_slash]
    · rw [List.dropWhile_cons_of_neg (by simp [hb])]

/-- A component ends with the path or at a slash. -/
theorem components_append {c rest : List UInt8} (hne : c ≠ []) (hc : slash ∉ c)
    (hrest : rest = [] ∨ rest.head? = some slash) :
    components (c ++ rest) = c :: components rest := by
  have hno : ∀ x ∈ c, (x == slash) = false := fun x hx => by
    rw [beq_eq_false_iff_ne]
    rintro rfl
    exact hc hx
  rcases rest with _ | ⟨b, rest⟩
  · rw [List.append_nil, components, List.splitOnP_eq_singleton hno]
    simp [hne]
  · obtain rfl : b = slash := by simpa using hrest
    rw [components_slash, components, List.splitOnP_append_cons_of_forall_mem hno slash (by simp)]
    simp [components, hne]

theorem components_singleton {c : List UInt8} (hne : c ≠ []) (hc : slash ∉ c) : components c = [c] := by
  have h := components_append hne hc (.inl rfl)
  rwa [List.append_nil] at h

/-- A path can be cut at any slash. -/
theorem components_append_slash (l m : List UInt8) :
    components (l ++ slash :: m) = components l ++ components m := by
  -- `c` is the part of the current component that has been read
  suffices h : ∀ c, slash ∉ c → components (c ++ (l ++ slash :: m)) = components (c ++ l) ++ components m by
    exact h [] (by simp)
  induction l with
  | nil =>
    intro c hc
    rw [List.nil_append, List.append_nil]
    by_cases hne : c = []
    · rw [hne, List.nil_append, components_slash, components_nil, List.nil_append]
    · rw [components_append hne hc (.inr rfl), components_singleton hne hc]
      rfl
  | cons b l ih =>
    intro c hc
    by_cases hb : b = slash
    · subst hb
      have ih := ih [] (by simp)
      rw [List.nil_append, List.nil_append] at ih
      rw [List.cons_append]
      by_cases hne : c = []
      · rw [hne, List.nil_append, List.nil_append, components_slash, components_slash, ih]
      · rw [components_append hne hc (.inr rfl), components_append hne hc (.inr rfl), components_slash,
          components_slash, ih, List.cons_append]
    · have hc' : slash ∉ c ++ [b] := by
        rw [List.mem_append, List.mem_singleton, not_or]
        exact ⟨hc, fun heq => hb heq.symm⟩
      have ih := ih (c ++ [b]) hc'
      rwa [List.append_assoc, List.append_assoc, List.singleton_append] at ih

/-- What `next_component` does. -/
theorem nextComponent_cases (path : List UInt8) :
    (components path = [] ∧ path.dropWhile (· == slash) = [] ∧ nextComponent path = .done) ∨
      ∃ c rest, components path = c :: components rest ∧ path.dropWhile (· == slash) = c ++ rest ∧
        c ≠ [] ∧ slash ∉ c ∧ (rest = [] ∨ rest.head? = some slash) ∧ rest.length < path.length ∧
        nextComponent path = if vfsNameMax < c.length then .tooLong else .read c rest := by
  rcases hp : path.dropWhile (· == slash) with _ | ⟨b, p⟩
  · refine .inl ⟨?_, rfl, ?_⟩
    · rw [← components_dropWhile, hp, components_nil]
    · rw [nextComponent, hp]
  have hb : b ≠ slash := by
    have hnot := List.head_dropWhile_not (· == slash) (show path.dropWhile (· == slash) ≠ [] by simp [hp])
    simpa [hp] using hnot
  have htake : (b :: p).takeWhile (· != slash) ++ (b :: p).dropWhile (· != slash) = b :: p :=
    List.takeWhile_append_dropWhile
  have hne : (b :: p).takeWhile (· != slash) ≠ [] := by
    rw [List.takeWhile_cons_of_pos (by simpa using hb)]
    simp
  have hc : slash ∉ (b :: p).takeWhile (· != slash) := fun hmem => by
    simpa using List.mem_takeWhile_imp hmem
  have hrest : (b :: p).dropWhile (· != slash) = [] ∨
      ((b :: p).dropWhile (· != slash)).head? = some slash := by
    rcases hd : (b :: p).dropWhile (· != slash) with _ | ⟨d, q⟩
    · exact .inl rfl
    · have hnot := List.head_dropWhile_not (· != slash)
        (show (b :: p).dropWhile (· != slash) ≠ [] by simp [hd])
      simpa [hd] using hnot
  refine .inr ⟨_, _, ?_, htake.symm, hne, hc, hrest, ?_, ?_⟩
  · rw [← components_dropWhile, hp, ← htake, components_append hne hc hrest, htake]
  · have hlen := congrArg List.length htake
    have hle : (b :: p).length ≤ path.length := hp ▸ (List.dropWhile_sublist _).length_le
    have hpos := List.length_pos_of_ne_nil hne
    rw [List.length_append] at hlen
    omega
  · rw [nextComponent, hp]

/-- Induction over the components of a path. -/
theorem path_induction {P : List UInt8 → Prop} (path : List UInt8)
    (done : ∀ path, components path = [] → P path)
    (read : ∀ path c rest, components path = c :: components rest →
      path.dropWhile (· == slash) = c ++ rest → c ≠ [] → slash ∉ c → P rest → P path) : P path := by
  generalize hn : path.length = n
  induction n using Nat.strongRecOn generalizing path with
  | _ n ih =>
    rcases nextComponent_cases path with ⟨h, -, -⟩ | ⟨c, rest, h, hp, hne, hc, -, hlt, -⟩
    · exact done path h
    · exact read path c rest h hp hne hc (ih _ (hn ▸ hlt) rest rfl)

theorem mem_components {path c : List UInt8} (h : c ∈ components path) :
    c ≠ [] ∧ slash ∉ c ∧ ∀ b ∈ c, b ∈ path := by
  induction path using path_induction with
  | done path hnil =>
    rw [hnil] at h
    cases h
  | read path d rest hcons hp hne hd ih =>
    have hsub : ∀ b ∈ d ++ rest, b ∈ path := fun b hb =>
      (List.dropWhile_sublist _).subset (hp ▸ hb)
    rw [hcons] at h
    rcases List.mem_cons.mp h with rfl | h
    · exact ⟨hne, hd, fun b hb => hsub b (List.mem_append_left _ hb)⟩
    · obtain ⟨h1, h2, h3⟩ := ih h
      exact ⟨h1, h2, fun b hb => hsub b (List.mem_append_right _ (h3 b hb))⟩

theorem components_eq_nil_iff {path : List UInt8} :
    components path = [] ↔ path.dropWhile (· == slash) = [] := by
  rcases nextComponent_cases path with ⟨h, hd, -⟩ | ⟨c, rest, h, hp, hne, -⟩
  · exact iff_of_true h hd
  · refine iff_of_false (by simp [h]) ?_
    rw [hp]
    simp [hne]

namespace VfsState

variable {s : VfsState} {steps : Nat} {path : List UInt8} {current : NodeRef}

/-! ### The loops as recursions -/

/-- `vfs_resolve` over the components. -/
def resolveList (s : VfsState) : NodeRef → List (List UInt8) → Option NodeRef
  | current, [] => some current
  | current, c :: cs =>
    if vfsNameMax < c.length then none
    else if c = dot then resolveList s current cs
    else if c = dotDot then resolveList s ((s.node current).parent.getD current) cs
    else
      match s.vfsFindChild current c with
      | none => none
      | some child => resolveList s child cs

/-- `vfs_add_directory` over the components. -/
def addDirectoryList : NodeRef → List (List UInt8) → VfsState → Bool × VfsState
  | _, [], s => (true, s)
  | current, c :: cs, s =>
    if vfsNameMax < c.length then (false, s)
    else if c = dot then addDirectoryList current cs s
    else if c = dotDot then (false, s)
    else
      match s.ensureDirectory current c with
      | (none, s) => (false, s)
      | (some child, s) => addDirectoryList child cs s

/-- `vfs_add_file` over the components. -/
def addFileList (data size : Nat) : NodeRef → List (List UInt8) → VfsState → Bool × VfsState
  | _, [], s => (false, s)
  | current, c :: cs, s =>
    if vfsNameMax < c.length then (false, s)
    else if c = dot then addFileList data size current cs s
    else if c = dotDot then (false, s)
    else if cs ≠ [] then
      match s.ensureDirectory current c with
      | (none, s) => (false, s)
      | (some child, s) => addFileList data size child cs s
    else s.putFile current c data size

theorem resolveLoop_eq (h : path.length < steps) :
    s.resolveLoop steps current path = s.resolveList current (components path) := by
  induction steps generalizing path current with
  | zero => omega
  | succ steps ih =>
    rcases nextComponent_cases path with ⟨hnil, -, hnext⟩ | ⟨c, rest, hcons, -, -, -, -, hlt, hnext⟩
    · rw [resolveLoop, hnext, hnil]
      rfl
    rw [resolveLoop, hnext, hcons, resolveList]
    have ih' : ∀ current, s.resolveLoop steps current rest =
        s.resolveList current (components rest) := fun current => ih (by omega)
    by_cases hlong : vfsNameMax < c.length
    · rw [if_pos hlong, if_pos hlong]
    rw [if_neg hlong, if_neg hlong]
    dsimp only
    split_ifs
    · exact ih' _
    · exact ih' _
    · rcases s.vfsFindChild current c with _ | child
      · rfl
      · exact ih' _

theorem addDirectoryLoop_eq (h : path.length < steps) :
    addDirectoryLoop steps current path s = addDirectoryList current (components path) s := by
  induction steps generalizing path current s with
  | zero => omega
  | succ steps ih =>
    rcases nextComponent_cases path with ⟨hnil, -, hnext⟩ | ⟨c, rest, hcons, -, -, -, -, hlt, hnext⟩
    · rw [addDirectoryLoop, hnext, hnil]
      rfl
    rw [addDirectoryLoop, hnext, hcons, addDirectoryList]
    have ih' : ∀ current s, addDirectoryLoop steps current rest s =
        addDirectoryList current (components rest) s := fun current s => ih (by omega)
    by_cases hlong : vfsNameMax < c.length
    · rw [if_pos hlong, if_pos hlong]
    rw [if_neg hlong, if_neg hlong]
    dsimp only
    split_ifs
    · exact ih' _ _
    · rfl
    · rcases s.ensureDirectory current c with ⟨_ | child, s'⟩
      · rfl
      · exact ih' _ _

theorem addFileLoop_eq {data size : Nat} (h : path.length < steps) :
    addFileLoop data size steps current path s =
      addFileList data size current (components path) s := by
  induction steps generalizing path current s with
  | zero => omega
  | succ steps ih =>
    rcases nextComponent_cases path with ⟨hnil, -, hnext⟩ | ⟨c, rest, hcons, -, -, -, -, hlt, hnext⟩
    · rw [addFileLoop, hnext, hnil]
      rfl
    rw [addFileLoop, hnext, hcons, addFileList]
    have ih' : ∀ current s, addFileLoop data size steps current rest s =
        addFileList data size current (components rest) s := fun current s => ih (by omega)
    by_cases hlong : vfsNameMax < c.length
    · rw [if_pos hlong, if_pos hlong]
    rw [if_neg hlong, if_neg hlong]
    simp only [ne_eq, components_eq_nil_iff]
    split_ifs
    · exact ih' _ _
    · rfl
    · rfl
    · rcases s.ensureDirectory current c with ⟨_ | child, s'⟩
      · rfl
      · exact ih' _ _

end VfsState

end JcosKernel
