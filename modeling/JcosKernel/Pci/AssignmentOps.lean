import JcosKernel.Pci.Model

/-!
# JcosKernel.Pci.AssignmentOps

What the operations of `pci_assignment.c` do to an assignment, each said once: an operation of an
owner fails and changes nothing, or its condition holds and it stores to the one assignment.
-/

namespace JcosKernel

open Lib

/-- The fields that `assignment_valid_locked` checks. -/
structure PciAssignment.Ok (x : PciAssignment) : Prop where
  initialized : x.initialized
  state : x.state ≠ .invalid
  vendor : x.device.vendorId ≠ 0xFFFF
  device : x.device.address.device < 32
  function : x.device.address.function < 8
  children : x.childResourceCount ≤ pciAssignmentChildResourceLimit
  accesses : x.activeAccessCount ≤ pciAssignmentActiveAccessLimit
  stateOk : x.StateOk

/-- Resources whose capability counts may differ. -/
structure ResourceState.SameResources (s s' : ResourceState) : Prop where
  storage : s'.storage = s.storage
  resource : ∀ r, s'.resource r = { s.resource r with capabilityRefs := (s'.resource r).capabilityRefs }

namespace ResourceState.SameResources

variable {s s' s'' : ResourceState}

theorem refl (s : ResourceState) : s.SameResources s := ⟨rfl, fun _ => rfl⟩

section

variable (h : s.SameResources s') (r : ResourceRef)
include h

theorem valid_iff : s'.DeviceResourceValid r ↔ s.DeviceResourceValid r := by
  rw [DeviceResourceValid, DeviceResourceValid, h.storage, h.resource r]

theorem id : (s'.resource r).id = (s.resource r).id := by
  rw [h.resource r]

theorem kind : (s'.resource r).kind = (s.resource r).kind := by
  rw [h.resource r]

end

end ResourceState.SameResources

namespace AssignState

variable {s s' : AssignState} {a b : AssignmentRef} {owner : Nat}

theorem assignmentValid_iff : s.AssignmentValid a ↔ s.assignments.Live a ∧ (s.assignment a).Ok ∧
    s.resources.DeviceResourceValid (assignmentResource a) ∧
    (s.resources.resource (assignmentResource a)).kind = .pciFunction := by
  constructor
  · intro ⟨hl, hi, hs, hv, hd, hf, hr, hk, hc, ha, hok⟩
    exact ⟨hl, ⟨hi, hs, hv, hd, hf, hc, ha, hok⟩, hr, hk⟩
  · intro ⟨hl, h, hr, hk⟩
    exact ⟨hl, h.initialized, h.state, h.vendor, h.device, h.function, hr, hk, h.children,
      h.accesses, h.stateOk⟩

@[simp] theorem modifyAssignment_self (f : PciAssignment → PciAssignment) :
    (s.modifyAssignment a f).assignment a = f (s.assignment a) := Function.update_self ..

theorem modifyAssignment_of_ne (f : PciAssignment → PciAssignment) (h : b ≠ a) :
    (s.modifyAssignment a f).assignment b = s.assignment b := Function.update_of_ne h ..

theorem ownerUpdate_cases (s : AssignState) (a : AssignmentRef) (owner : Nat) (allowed : Prop)
    [Decidable allowed] (f : PciAssignment → PciAssignment) :
    s.ownerUpdate a owner allowed f = (false, s) ∨
      (owner ≠ 0 ∧ s.AssignmentValid a ∧ (s.assignment a).ownerProcessId = owner ∧ allowed) ∧
        s.ownerUpdate a owner allowed f = (true, s.modifyAssignment a f) := by
  rw [ownerUpdate]
  split_ifs with h
  · exact .inr ⟨h, rfl⟩
  · exact .inl rfl

/-- The store keeps the assignment valid if the fields are. -/
theorem AssignmentValid.modify (h : s.AssignmentValid a) {f : PciAssignment → PciAssignment}
    (hf : (f (s.assignment a)).Ok) : (s.modifyAssignment a f).AssignmentValid a := by
  obtain ⟨hl, -, hr, hk⟩ := assignmentValid_iff.mp h
  rw [← modifyAssignment_self f] at hf
  exact assignmentValid_iff.mpr ⟨hl, hf, hr, hk⟩

theorem AssignmentValid.ok (h : s.AssignmentValid a) : (s.assignment a).Ok :=
  (assignmentValid_iff.mp h).2.1

theorem assignmentValid_of_ne {f : PciAssignment → PciAssignment} (h : b ≠ a) :
    (s.modifyAssignment a f).AssignmentValid b ↔ s.AssignmentValid b := by
  rw [assignmentValid_iff, assignmentValid_iff, modifyAssignment_of_ne f h]
  exact Iff.rfl

/-- Resources, registry and record are as before. -/
theorem assignmentValid_congr (hl : s'.assignments = s.assignments)
    (hx : s'.assignment a = s.assignment a) (hr : s.resources.SameResources s'.resources) :
    s'.AssignmentValid a ↔ s.AssignmentValid a := by
  rw [assignmentValid_iff, assignmentValid_iff, hl, hx, hr.valid_iff, hr.kind]

theorem pciAssignmentState_eq_assigned :
    s.pciAssignmentState a = .assigned ↔ s.AssignmentValid a ∧ (s.assignment a).state = .assigned := by
  rw [pciAssignmentState]
  split_ifs with h
  · exact ⟨fun hs => ⟨h, hs⟩, And.right⟩
  · exact ⟨nofun, fun hs => absurd hs.1 h⟩

theorem assignmentMatches_iff {id : Nat} : s.AssignmentMatches a owner id ↔ s.AssignmentValid a ∧
    (s.resources.resource (assignmentResource a)).id = id ∧
    (s.assignment a).ownerProcessId = owner := by
  rw [AssignmentMatches, pciAssignmentOwnerProcessId]
  constructor
  · intro ⟨⟨hv, hid⟩, ho⟩
    rw [if_pos hv] at ho
    exact ⟨hv, hid, ho⟩
  · intro ⟨hv, hid, ho⟩
    rw [if_pos hv]
    exact ⟨⟨hv, hid⟩, ho⟩

end AssignState

namespace PciAssignment

variable {x : PciAssignment}

/-- The number of accesses changes, within the limit. -/
theorem Ok.setAccesses (h : x.Ok) (hs : x.state ≠ .available) {n : Nat}
    (hn : n ≤ pciAssignmentActiveAccessLimit) : { x with activeAccessCount := n }.Ok := by
  refine { h with accesses := hn, stateOk := ?_ }
  obtain ⟨ha, -⟩ | hok := h.stateOk
  · exact absurd ha hs
  · exact .inr hok

end PciAssignment

namespace PciState

variable {s s' : PciState}

variable (s : PciState) (a : Option AssignmentRef) (owner : Nat)

/-- An operation on the assignment behind a pointer fails and changes nothing, or stores to the
assignment. -/
theorem onAssignment_ownerUpdate (allowed : AssignState → AssignmentRef → Prop)
    [∀ k a, Decidable (allowed k a)] (f : PciAssignment → PciAssignment) :
    s.onAssignment (fun k a => k.ownerUpdate a owner (allowed k a) f) a = (false, s) ∨
      ∃ a', s.AssignmentValid a' ∧ allowed s.toAssignState a' ∧
        s.onAssignment (fun k a => k.ownerUpdate a owner (allowed k a) f) a =
          (true, s.withAssign (s.toAssignState.modifyAssignment a' f)) := by
  cases a with
  | none => exact .inl rfl
  | some a =>
    obtain h | ⟨⟨-, hv, -, hall⟩, h⟩ :=
      AssignState.ownerUpdate_cases s.toAssignState a owner (allowed s.toAssignState a) f
    · left
      rw [onAssignment, h]
      rfl
    · right
      refine ⟨a, hv, hall, ?_⟩
      rw [onAssignment, h]

theorem accessAcquire_cases :
    s.onAssignment (·.pciAssignmentAccessAcquire · owner) a = (false, s) ∨
      ∃ a', s.AssignmentValid a' ∧ ((s.assignment a').state = .assigned ∧
          (s.assignment a').activeAccessCount < pciAssignmentActiveAccessLimit) ∧
        s.onAssignment (·.pciAssignmentAccessAcquire · owner) a =
          (true, s.withAssign (s.toAssignState.modifyAssignment a' fun x =>
            { x with activeAccessCount := x.activeAccessCount + 1 })) :=
  s.onAssignment_ownerUpdate a owner (fun k a => (k.assignment a).state = .assigned ∧
    (k.assignment a).activeAccessCount < pciAssignmentActiveAccessLimit) _

theorem accessRelease_cases :
    s.onAssignment (·.pciAssignmentAccessRelease · owner) a = (false, s) ∨
      ∃ a', s.AssignmentValid a' ∧ ((s.assignment a').state ≠ .available ∧
          (s.assignment a').activeAccessCount ≠ 0) ∧
        s.onAssignment (·.pciAssignmentAccessRelease · owner) a =
          (true, s.withAssign (s.toAssignState.modifyAssignment a' fun x =>
            { x with activeAccessCount := x.activeAccessCount - 1 })) :=
  s.onAssignment_ownerUpdate a owner (fun k a => (k.assignment a).state ≠ .available ∧
    (k.assignment a).activeAccessCount ≠ 0) _

end PciState

end JcosKernel
