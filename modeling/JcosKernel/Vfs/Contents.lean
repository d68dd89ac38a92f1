import JcosKernel.Lib.Run
import JcosKernel.Vfs.Runs

/-!
# JcosKernel.Vfs.Contents

The tree after calls that all succeeded, as a function of the calls.

At a list of names there is the file that was added there last; else a directory, if one was added
there or something was added below; else what was there before.
-/

namespace JcosKernel

open Lib

namespace VfsCall

/-- The file a call adds at the names. -/
def fileAt (q : List (List UInt8)) : VfsCall → Option (Nat × Nat)
  | addDirectory _ => none
  | addFile path data size => if pathNames path = q then some (data, size) else none

/-- The call needs a directory at the names. -/
def Above (q : List (List UInt8)) : VfsCall → Prop
  | addDirectory path => q <+: pathNames path
  | addFile path _ _ => q <+: pathNames path ∧ q ≠ pathNames path

end VfsCall

/-- The file added last at the names. -/
def lastFile (calls : List VfsCall) (q : List (List UInt8)) : Option (Nat × Nat) :=
  (calls.filterMap (VfsCall.fileAt q)).getLast?

variable {calls : List VfsCall} {call : VfsCall} {q : List (List UInt8)}

theorem lastFile_snoc : lastFile (calls ++ [call]) q = (call.fileAt q).or (lastFile calls q) := by
  cases h : call.fileAt q <;> simp [lastFile, h]

theorem lastFile_isSome (hmem : call ∈ calls) (h : (call.fileAt q).isSome) : (lastFile calls q).isSome := by
  obtain ⟨e, he⟩ := Option.isSome_iff_exists.mp h
  have hne : calls.filterMap (VfsCall.fileAt q) ≠ [] :=
    List.ne_nil_of_mem (List.mem_filterMap.mpr ⟨call, hmem, he⟩)
  rw [lastFile, List.getLast?_eq_getLast_of_ne_nil hne]
  rfl

namespace VfsState

variable {s s' : VfsState}

/-- A call that succeeds. -/
def Success (s : VfsState) (call : VfsCall) (s' : VfsState) : Prop := call.exec s = (true, s')

/-- The tree after the calls. -/
structure Contents (s s' : VfsState) (calls : List VfsCall) : Prop where
  file : ∀ q data size, lastFile calls q = some (data, size) → s'.entryAt q = some (.file data size)
  directory : ∀ q, (∃ call ∈ calls, call.Above q) → s'.entryAt q = some .directory
  rest : ∀ q, lastFile calls q = none → (¬ ∃ call ∈ calls, call.Above q) → s'.entryAt q = s.entryAt q

/-- One more call. What it does to the entry at `q`, and what this says of the calls before. -/
theorem Contents.snoc {s1 : VfsState} (c : Contents s s1 calls)
    (hfile : ∀ q data size, call.fileAt q = some (data, size) →
      s'.entryAt q = some (.file data size) ∧ s1.entryAt q ≠ some .directory)
    (habove : ∀ q, call.Above q → s'.entryAt q = some .directory ∧
      ∀ data size, s1.entryAt q ≠ some (.file data size))
    (hrest : ∀ q, call.fileAt q = none → ¬ call.Above q → s'.entryAt q = s1.entryAt q) :
    Contents s s' (calls ++ [call]) := by
  refine ⟨fun q data size hlast => ?_, fun q hex => ?_, fun q hlast hnot => ?_⟩
  · rw [lastFile_snoc] at hlast
    rcases he : call.fileAt q with _ | e
    · rw [he] at hlast
      have hentry := c.file q data size hlast
      rw [hrest q he fun ha => (habove q ha).2 data size hentry, hentry]
    · rw [he] at hlast
      cases hlast
      exact (hfile q data size he).1
  · obtain ⟨call', hmem, ha⟩ := hex
    rcases List.mem_append.mp hmem with hmem | hmem
    · have hentry := c.directory q ⟨call', hmem, ha⟩
      by_cases hnow : call.Above q
      · exact (habove q hnow).1
      · rcases he : call.fileAt q with _ | ⟨data, size⟩
        · rw [hrest q he hnow, hentry]
        · exact absurd hentry (hfile q data size he).2
    · rw [List.mem_singleton.mp hmem] at ha
      exact (habove q ha).1
  · rw [lastFile_snoc, Option.or_eq_none_iff] at hlast
    rw [hrest q hlast.1 fun ha => hnot ⟨call, by simp, ha⟩]
    exact c.rest q hlast.2 fun ⟨call', hmem, ha⟩ => hnot ⟨call', List.mem_append_left _ hmem, ha⟩

/-- **The tree is what the calls say.** -/
theorem VfsInv.contents (h : VfsInv s) (hrun : Run Success s calls s') :
    VfsInv s' ∧ Contents s s' calls := by
  induction hrun with
  | nil => exact ⟨h, nofun, nofun, fun _ _ _ => rfl⟩
  | snoc hrun hstep ih =>
    rename_i s1 s' calls call
    obtain ⟨h1, c⟩ := ih
    obtain ⟨h', hok⟩ := h1.exec hstep
    refine ⟨h', ?_⟩
    obtain ⟨-, hadds⟩ := hok rfl
    cases call with
    | addDirectory path =>
      refine c.snoc nofun (fun q ha => ⟨?_, fun data size hentry => ?_⟩) fun q _ hnot => ?_
      · rw [hadds.after]
        exact if_pos ha
      · rcases hadds.before q ha with hb | hb <;> rw [hb] at hentry <;> cases hentry
      · rw [hadds.after]
        exact if_neg hnot
    | addFile path data size =>
      obtain ⟨-, hadds⟩ := hadds
      refine c.snoc (fun q data' size' he => ?_) (fun q ha => ⟨?_, fun data size hentry => ?_⟩)
        fun q hnone hnot => ?_
      · simp only [VfsCall.fileAt] at he
        split_ifs at he with hq
        cases he
        rw [hadds.after, if_pos hq.symm, ← hq]
        exact ⟨rfl, hadds.target⟩
      · rw [hadds.after, if_neg ha.2, if_pos ha.1]
      · rcases hadds.before q ha.1 ha.2 with hb | hb <;> rw [hb] at hentry <;> cases hentry
      · have hq : q ≠ pathNames path := fun hq => by simp [VfsCall.fileAt, hq] at hnone
        rw [hadds.after, if_neg hq, if_neg fun hpre => hnot ⟨hpre, hq⟩]

end VfsState

end JcosKernel
