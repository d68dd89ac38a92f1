import JcosKernel.Pci.IrqChannel
import JcosKernel.Pci.AssignmentOps
import JcosKernel.Capability.Pins
import JcosKernel.Ipc.Delivery

/-!
# JcosKernel.Pci.IrqProtocol

**The event protocol of a PCI interrupt.** The operations of `pci_irq_resource.c` on one resource,
in any order and interleaved with the owner's receives, make the moves of `IrqChannel`.
-/

namespace JcosKernel

open Lib IpcState World

/-! ### What IPC leaves alone -/

/-- The endpoint is still the same one. -/
structure Endpoint.SameIdentity (ep ep' : Endpoint) : Prop where
  id : ep'.id = ep.id
  initialized : ep'.initialized = ep.initialized
  owner : ep'.ownerProcessId = ep.ownerProcessId

variable {a : Option AssignmentRef} {accepted : List Accepted} {ep ep' : Endpoint} {k : IpcState}
  {notes : List IpcNote} {env : IpcEnv} {ok : Bool} {owner : Nat}

theorem Endpoint.SameIdentity.of_eq (h : ep' = ep) : ep.SameIdentity ep' := by
  subst h
  exact ⟨rfl, rfl, rfl⟩

theorem Endpoint.SameIdentity.trans {ep ep' ep'' : Endpoint} (h : ep.SameIdentity ep')
    (h' : ep'.SameIdentity ep'') : ep.SameIdentity ep'' :=
  ⟨h'.id.trans h.id, h'.initialized.trans h.initialized, h'.owner.trans h.owner⟩

/-- The endpoints are registered as before, and are the same ones. -/
structure EndpointState.SameEndpoints (s s' : EndpointState) : Prop where
  storage : s'.storage = s.storage
  identity : ∀ e, (s.endpoint e).SameIdentity (s'.endpoint e)

namespace EndpointState.SameEndpoints

variable {s s' s'' : EndpointState}

theorem refl (s : EndpointState) : s.SameEndpoints s := ⟨rfl, fun _ => ⟨rfl, rfl, rfl⟩⟩

theorem trans (h : s.SameEndpoints s') (h' : s'.SameEndpoints s'') : s.SameEndpoints s'' :=
  ⟨h'.storage.trans h.storage, fun e => (h.identity e).trans (h'.identity e)⟩

/-- Only endpoint `e` changes. -/
theorem of_others {e : EndpointRef} (hs : s'.storage = s.storage)
    (h : (s.endpoint e).SameIdentity (s'.endpoint e))
    (ho : ∀ e', e' ≠ e → s'.endpoint e' = s.endpoint e') : s.SameEndpoints s' := by
  refine ⟨hs, fun e' => ?_⟩
  by_cases hee : e' = e
  · exact hee ▸ h
  · exact .of_eq (ho e' hee)

theorem of_relabel {k k' : IpcState} {e : EndpointRef} (r : Relabel k k' e)
    (he : k'.endpoints.endpoint e = ep) (h : (k.endpoints.endpoint e).SameIdentity ep) :
    k.endpoints.SameEndpoints k'.endpoints :=
  of_others r.endpointStorage (he ▸ h) r.others

end EndpointState.SameEndpoints

theorem Move.sameEndpoints {w w' : World} (m : Move w notes w') :
    w.kernel.endpoints.SameEndpoints w'.kernel.endpoints := by
  cases m with
  | quiet h =>
    refine ⟨h.endpoints.storage, fun e => ?_⟩
    rw [setKernel_kernel, h.endpoints.endpoint e]
    exact ⟨rfl, rfl, rfl⟩
  | call | refused | nothing => exact .refl _
  | put h | take h | promote h | close h => exact .of_relabel h.relabel h.endpoint ⟨rfl, rfl, rfl⟩
  | settle h =>
    refine .of_relabel h.relabel h.endpoint ?_
    split_ifs <;> exact ⟨rfl, rfl, rfl⟩
  | @reserve t kind e staged =>
    refine .of_others rfl ?_ fun _ => reserved_endpoint_of_ne
    rw [nextCall, setParked_kernel, setKernel_kernel, reserved_endpoint_self]
    cases staged <;> exact ⟨rfl, rfl, rfl⟩
  | register hp r =>
    obtain ⟨slot, entry, -, hk, -⟩ := r.stored
    rw [setParked_kernel, hk]
    exact .refl _
  | finish | release =>
    refine .of_others rfl ?_ fun _ => released_endpoint_of_ne
    rw [setParked_kernel, setKernel_kernel, released_endpoint_self]
    first | exact ⟨rfl, rfl, rfl⟩ | rw [Endpoint.release]; split_ifs <;> exact ⟨rfl, rfl, rfl⟩

theorem IpcStep.sameEndpoints {w w' : World} (h : WorldInv w) (hs : IpcStep w notes w') :
    w.kernel.endpoints.SameEndpoints w'.kernel.endpoints := by
  obtain ⟨moves, hrun, -⟩ := hs.refines h
  exact hrun.between trivial (fun _ _ _ _ _ => trivial)
    (fun _ => .refl _) (fun _ _ _ => .trans) fun _ _ _ _ hm => hm.sameEndpoints

/-! ### The system -/

/-- The PCI objects next to the blocking calls that are inside their loops. -/
structure IrqWorld where
  pci : PciState
  parked : ThreadRef → Option (Nat × ParkedCall)
  calls : Nat

namespace IrqWorld

def world (w : IrqWorld) : World := ⟨w.pci.toIpcState, w.parked, w.calls⟩

def setPci (w : IrqWorld) (s : PciState) : IrqWorld := { w with pci := s }

end IrqWorld

namespace PciState

variable (s s' : PciState) (q : IrqRef)

/-- The record of the interrupt, and what is in its event endpoint. -/
def irqChannel : IrqChannel := ⟨s.irq q, (s.endpoints.endpoint (irqEndpoint q)).mailbox⟩

/-- The sequence number that a signal used up. -/
def numberTaken : Option Nat :=
  if (s'.irq q).nextSequence = (s.irq q).nextSequence then none else some (s.irq q).nextSequence

/-- The slot of the kernel's SEND handle names the event endpoint as long as it has the generation
of the handle. -/
def KernelHandleNames : Prop :=
  ∀ kernel i o, s.processKernel = some kernel →
    i.val = (s.irq q).kernelSendHandle.toNat % 2 ^ 32 →
    ((s.table (processTable kernel)).slots i).generation =
      (s.irq q).kernelSendHandle.toNat / 2 ^ 32 →
    ((s.table (processTable kernel)).slots i).object = some o → o = irqEndpoint q

end PciState

/-- IPC and the rest of the kernel go on next to the interrupt: nobody but the interrupt sends to its
event endpoint, and the PCI objects stay. -/
structure IrqAside (q : IrqRef) (w : IrqWorld) (notes : List IpcNote) (w' : IrqWorld) : Prop where
  step : IpcStep w.world notes w'.world
  pci : w'.pci = w.pci.withIpc w'.pci.toIpcState
  unsent : acceptedAt (irqEndpoint q) notes = []
  unstaged : (w'.pci.endpoints.endpoint (irqEndpoint q)).waitingSender = none

/-- Capabilities and device resources come and go; the handle of the kernel is not reissued. -/
structure IrqElsewhere (q : IrqRef) (w : IrqWorld) (notes : List IpcNote) (w' : IrqWorld) : Prop
    extends IrqAside q w notes w' where
  resources : w.pci.resources.SameResources w'.pci.resources
  handle : w'.pci.KernelHandleNames q

/-- One operation on the interrupt `q`, or a step of the rest. -/
inductive IrqStep (q : IrqRef) : IrqWorld → IrqEvent → IrqWorld → Prop
  | arm {w : IrqWorld} (p : ProcessRef) (handle : CapabilityHandle) :
      IrqStep q w (.armed (w.pci.pciIrqResourceArm q p handle).1)
        (w.setPci (w.pci.pciIrqResourceArm q p handle).2)
  | disarm {w : IrqWorld} {ok : Bool} {s : PciState} (p : ProcessRef) (handle : CapabilityHandle)
      (h : w.pci.pciIrqResourceDisarm q p handle = some (ok, s)) :
      IrqStep q w (.disarmed ok) (w.setPci s)
  | forceDisarm {w : IrqWorld} {ok : Bool} {s : PciState} (owner : Nat)
      (h : w.pci.pciIrqResourceForceDisarm q owner = some (ok, s)) :
      IrqStep q w (.disarmed ok) (w.setPci s)
  | signal {w : IrqWorld} {ok : Bool} {accepted : List Accepted} {s : PciState} (env : IpcEnv)
      (h : w.pci.pciIrqResourceSignal q env = some (ok, accepted, s)) :
      IrqStep q w (.signalled (w.pci.irq q).state (w.pci.numberTaken s q) accepted) (w.setPci s)
  | acknowledge {w : IrqWorld} (p : ProcessRef) (handle : CapabilityHandle) (sequence : Nat) :
      IrqStep q w
        (.acknowledged sequence (w.pci.pciIrqResourceAcknowledge q p handle sequence).1)
        (w.setPci (w.pci.pciIrqResourceAcknowledge q p handle sequence).2)
  | recoverStorm {w : IrqWorld} (p : ProcessRef) (handle : CapabilityHandle) :
      IrqStep q w (.recovered (w.pci.pciIrqResourceRecoverStorm q p handle).1)
        (w.setPci (w.pci.pciIrqResourceRecoverStorm q p handle).2)
  /-- An operation of `ipc.c`: the owner receives the event, or closes the endpoint. -/
  | ipc {w w' : IrqWorld} {notes : List IpcNote} (env : IpcEnv) (o : IpcOp)
      (h : o.exec env w.world = some (notes, w'.world)) (ha : IrqAside q w notes w') :
      IrqStep q w (.ipc notes) w'
  | elsewhere {w w' : IrqWorld} {notes : List IpcNote} (h : IrqElsewhere q w notes w') :
      IrqStep q w (.ipc notes) w'

/-! ### What the operations keep -/

/-- What ties the record to the other objects is the same. -/
structure PciIrqResource.SameTies (x y : PciIrqResource) : Prop where
  assignment : y.assignment = x.assignment
  resourceId : y.assignmentResourceId = x.assignmentResourceId
  owner : y.ownerProcessId = x.ownerProcessId
  handle : y.kernelSendHandle = x.kernelSendHandle
  initialized : y.initialized = x.initialized

namespace PciState

variable {s s' s'' : PciState} {q : IrqRef}

@[simp] theorem modifyIrq_self (f : PciIrqResource → PciIrqResource) :
    (s.modifyIrq q f).irq q = f (s.irq q) := Function.update_self ..

/-- What `irq_valid_locked` asks beyond the state of the record. -/
structure IrqStatic (s : PciState) (q : IrqRef) : Prop where
  live : s.irqs.Live q
  initialized : (s.irq q).initialized
  owner : (s.irq q).ownerProcessId ≠ 0
  assignment : s.MatchesAssignment (s.irq q).ownerProcessId (s.irq q).assignmentResourceId
    (s.irq q).assignment
  resource : s.resources.DeviceResourceValid (irqResource q)
  kind : (s.resources.resource (irqResource q)).kind = .pciIrq
  endpoint : s.IpcEndpointValid (irqEndpoint q)
  endpointOwner :
    (s.endpoints.endpoint (irqEndpoint q)).ownerProcessId = (s.irq q).ownerProcessId
  handle : (s.irq q).kernelSendHandle ≠ 0

theorem irqValid_iff : s.IrqValid q ↔ s.IrqStatic q ∧ (s.irq q).StateOk := by
  constructor
  · intro ⟨h1, h2, h3, h4, h5, h6, h7, h8, h9, hok⟩
    exact ⟨⟨h1, h2, h3, h4, h5, h6, h7, h8, h9⟩, hok⟩
  · intro ⟨h, hok⟩
    exact ⟨h.live, h.initialized, h.owner, h.assignment, h.resource, h.kind, h.endpoint,
      h.endpointOwner, h.handle, hok⟩

/-- Valid assignments stay valid, with their identity, owner and state. -/
def KeepsAssignments (s s' : PciState) : Prop :=
  ∀ b, s.AssignmentValid b → s'.AssignmentValid b ∧
    (s'.resources.resource (assignmentResource b)).id =
      (s.resources.resource (assignmentResource b)).id ∧
    (s'.assignment b).ownerProcessId = (s.assignment b).ownerProcessId ∧
    (s'.assignment b).state = (s.assignment b).state

theorem KeepsAssignments.matches (h : s.KeepsAssignments s') {owner id : Nat}
    (hm : s.MatchesAssignment owner id a) :
    s'.MatchesAssignment owner id a := by
  cases a with
  | none => exact hm
  | some b =>
    obtain ⟨hv, hid, ho⟩ := AssignState.assignmentMatches_iff.mp hm
    obtain ⟨hv', hid', ho', -⟩ := h b hv
    exact AssignState.assignmentMatches_iff.mpr ⟨hv', hid'.trans hid, ho'.trans ho⟩

theorem KeepsAssignments.assigned (h : s.KeepsAssignments s')
    (ha : s.assignmentStateOf a = .assigned) : s'.assignmentStateOf a = .assigned := by
  cases a with
  | none => exact ha
  | some b =>
    obtain ⟨hv, hs⟩ := AssignState.pciAssignmentState_eq_assigned.mp ha
    obtain ⟨hv', -, -, hs'⟩ := h b hv
    exact AssignState.pciAssignmentState_eq_assigned.mpr ⟨hv', hs'.trans hs⟩

/-- What is checked about the interrupt but for its state holds afterwards too. -/
structure IrqKeeps (q : IrqRef) (s s' : PciState) : Prop where
  static : s.IrqStatic q → s'.IrqStatic q
  assigned : s.assignmentStateOf (s.irq q).assignment = .assigned →
    s'.assignmentStateOf (s'.irq q).assignment = .assigned
  handle : s.KernelHandleNames q → s'.KernelHandleNames q

namespace IrqKeeps

theorem refl (q : IrqRef) (s : PciState) : IrqKeeps q s s := ⟨id, id, id⟩

theorem trans (h : IrqKeeps q s s') (h' : IrqKeeps q s' s'') : IrqKeeps q s s'' :=
  ⟨h'.static ∘ h.static, h'.assigned ∘ h.assigned, h'.handle ∘ h.handle⟩

/-- A store to the record that leaves its ties alone. -/
theorem modifyIrq {f : PciIrqResource → PciIrqResource} (hf : (s.irq q).SameTies (f (s.irq q))) :
    IrqKeeps q s (s.modifyIrq q f) where
  static h := by
    refine ⟨h.live, ?_, ?_, ?_, h.resource, h.kind, h.endpoint, ?_, ?_⟩ <;> rw [modifyIrq_self]
    · rw [hf.initialized]
      exact h.initialized
    · rw [hf.owner]
      exact h.owner
    · rw [hf.assignment, hf.resourceId, hf.owner]
      exact h.assignment
    · rw [hf.owner]
      exact h.endpointOwner
    · rw [hf.handle]
      exact h.handle
  assigned h := by
    rw [modifyIrq_self, hf.assignment]
    exact h
  handle h := by
    intro kernel i o hk hi hg ho
    rw [modifyIrq_self, hf.handle] at hi hg
    exact h kernel i o hk hi hg ho

/-- The number of accesses of an assignment changes. -/
theorem accesses {a : AssignmentRef} {f : PciAssignment → PciAssignment} {n : Nat}
    (hf : f (s.assignment a) = { s.assignment a with activeAccessCount := n })
    (hs : (s.assignment a).state ≠ .available) (hn : n ≤ pciAssignmentActiveAccessLimit) :
    IrqKeeps q s (s.withAssign (s.toAssignState.modifyAssignment a f)) := by
  have hkeeps : s.KeepsAssignments (s.withAssign (s.toAssignState.modifyAssignment a f)) := by
    intro b hb
    by_cases hba : b = a
    · subst hba
      have hx : (s.toAssignState.modifyAssignment b f).assignment b =
          { s.assignment b with activeAccessCount := n } :=
        (AssignState.modifyAssignment_self f).trans hf
      refine ⟨hb.modify (hf ▸ hb.ok.setAccesses hs hn), rfl, ?_, ?_⟩
      · exact (congrArg PciAssignment.ownerProcessId hx).trans rfl
      · exact (congrArg PciAssignment.state hx).trans rfl
    · have hx := AssignState.modifyAssignment_of_ne f hba (s := s.toAssignState)
      exact ⟨(AssignState.assignmentValid_of_ne hba).mpr hb, rfl,
        congrArg PciAssignment.ownerProcessId hx, congrArg PciAssignment.state hx⟩
  exact ⟨fun h => { h with assignment := hkeeps.matches h.assignment }, hkeeps.assigned, id⟩

/-- IPC goes on. -/
theorem ipc (hr : s.resources.SameResources k.resources)
    (he : s.endpoints.SameEndpoints k.endpoints)
    (hh : s.KernelHandleNames q → (s.withIpc k).KernelHandleNames q) :
    IrqKeeps q s (s.withIpc k) := by
  have hkeeps : s.KeepsAssignments (s.withIpc k) := by
    intro b hb
    have hv : (s.withIpc k).AssignmentValid b ↔ s.AssignmentValid b :=
      AssignState.assignmentValid_congr rfl rfl hr
    exact ⟨hv.mpr hb, hr.id _, rfl, rfl⟩
  refine ⟨fun h => ⟨h.live, h.initialized, h.owner, hkeeps.matches h.assignment,
    (hr.valid_iff _).mpr h.resource, (hr.kind _).trans h.kind, ?_,
    (he.identity _).owner.trans h.endpointOwner, h.handle⟩, hkeeps.assigned, hh⟩
  obtain ⟨hl, hi, hid⟩ := h.endpoint
  refine ⟨?_, (he.identity _).initialized.trans hi, fun h0 => hid ((he.identity _).id.symm.trans h0)⟩
  show k.endpoints.storage.Live _
  rw [he.storage]
  exact hl

end IrqKeeps

/-! ### The operations make moves -/

theorem irqChannel_modifyIrq (f : PciIrqResource → PciIrqResource) :
    (s.modifyIrq q f).irqChannel q = ⟨f (s.irq q), (s.irqChannel q).mail⟩ := by
  rw [irqChannel, modifyIrq_self]
  rfl

/-- What an operation that has nothing to do with the endpoint does. -/
structure Silent (q : IrqRef) (s : PciState) (e : IrqEvent) (s' : PciState) : Prop where
  keeps : IrqKeeps q s s'
  ipc : s'.toIpcState = s.toIpcState
  move : IrqMove (s.irqChannel q) e (s'.irqChannel q)

theorem Silent.refused {e : IrqEvent} (h : e.Refused) : Silent q s e s :=
  ⟨.refl q s, rfl, .refused h⟩

variable {p : ProcessRef} {handle : CapabilityHandle}

theorem arm_silent : Silent q s (.armed (s.pciIrqResourceArm q p handle).1)
    (s.pciIrqResourceArm q p handle).2 := by
  rw [pciIrqResourceArm]
  split_ifs with hno
  · exact .refused (.inl rfl)
  · simp only [not_or, not_not] at hno
    obtain ⟨-, hstate, -⟩ := hno
    obtain hf | ⟨a, hv, ⟨hass, hlt⟩, ht⟩ :=
      s.accessAcquire_cases (s.irq q).assignment (s.irq q).ownerProcessId
    · rw [hf]
      exact .refused (.inl rfl)
    · rw [ht]
      dsimp only
      refine ⟨.trans (.accesses rfl ?_ hlt) (.modifyIrq ⟨rfl, rfl, rfl, rfl, rfl⟩), rfl, ?_⟩
      · rw [hass]
        decide
      · rw [irqChannel_modifyIrq]
        exact .arm hstate

section

variable (hi : s.IpcInv) (hs : s.IrqStatic q)
include hi hs

/-- `endpoint_message_ready` is about the mailbox. -/
theorem mail_eq_nil_of_not_ready (h : ¬ s.endpoints.EndpointMessageReady (irqEndpoint q)) :
    (s.irqChannel q).mail = [] :=
  if_neg fun hready => h ⟨hi.usable hs.endpoint, hready⟩

theorem acknowledge_silent {sequence : Nat} :
    Silent q s (.acknowledged sequence (s.pciIrqResourceAcknowledge q p handle sequence).1)
      (s.pciIrqResourceAcknowledge q p handle sequence).2 := by
  rw [pciIrqResourceAcknowledge]
  split_ifs with h0 hyes
  · exact .refused (.inr (.inr (.inl ⟨_, rfl⟩)))
  · obtain ⟨-, hstate, rfl, hready⟩ := hyes
    have hempty := mail_eq_nil_of_not_ready hi hs hready
    refine ⟨.modifyIrq ?_, rfl, ?_⟩
    · rw [PciIrqResource.acknowledge]
      split_ifs <;> exact ⟨rfl, rfl, rfl, rfl, rfl⟩
    · rw [irqChannel_modifyIrq, PciIrqResource.acknowledge]
      obtain hstate | hstate := hstate
      · rw [if_pos hstate]
        exact .acknowledge hstate h0 hempty
      · rw [if_neg (by rw [hstate]; decide)]
        exact .settle hstate h0 hempty
  · exact .refused (.inr (.inr (.inl ⟨_, rfl⟩)))

theorem recover_silent :
    Silent q s (.recovered (s.pciIrqResourceRecoverStorm q p handle).1)
      (s.pciIrqResourceRecoverStorm q p handle).2 := by
  rw [pciIrqResourceRecoverStorm]
  split_ifs with hyes
  · obtain ⟨-, hstate, hpending, hready⟩ := hyes
    dsimp only
    refine ⟨.modifyIrq ⟨rfl, rfl, rfl, rfl, rfl⟩, rfl, ?_⟩
    rw [irqChannel_modifyIrq]
    exact .recover hstate hpending (mail_eq_nil_of_not_ready hi hs hready)
  · exact .refused (.inr (.inr (.inr rfl)))

/-! ### Disarming -/

/-- The mailbox is empty afterwards. -/
theorem discardEvent_spec (hun : (s.endpoints.endpoint (irqEndpoint q)).waitingSender = none) :
    ∃ k, s.discardEvent q = some (s.withIpc k) ∧
      (k.endpoints.endpoint (irqEndpoint q)).mailbox = [] ∧
      (k = s.toIpcState ∨ k = s.toIpcState.modifyEndpoint (irqEndpoint q) (·.dropMessage) ∧
        ∃ message, Take s.toIpcState k (irqEndpoint q) message) := by
  rw [discardEvent]
  split_ifs with hready
  · have hcoh := hi.coherent _ hs.endpoint
    have hopen : ¬ (s.endpoints.endpoint (irqEndpoint q)).closed := fun hc =>
      (hcoh.closed hc).1 hready.2
    have hstaged : ¬ (s.endpoints.endpoint (irqEndpoint q)).waitingSenderMessageReady := by
      intro hst
      obtain ⟨t, ht, -⟩ := hcoh.staged.mp hst
      cases hun.symm.trans ht
    rw [EndpointState.endpointTryReceive_eq hready.1 hopen hready.2]
    refine ⟨s.toIpcState.modifyEndpoint (irqEndpoint q) (·.dropMessage), rfl, ?_,
      .inr ⟨rfl, (s.endpoints.endpoint (irqEndpoint q)).message, ?_⟩⟩
    · rw [Endpoint.mailbox]
      simp [Endpoint.dropMessage]
    · exact ⟨.modifyEndpoint hi.sched Endpoint.dropMessage_sameLinks, hs.endpoint, hready.2, rfl,
        hstaged, by simp, fun _ => rfl⟩
  · exact ⟨s.toIpcState, rfl, mail_eq_nil_of_not_ready hi hs hready, .inl rfl⟩

end

/-- What an operation on the interrupt does. -/
structure IrqDoes (q : IrqRef) (w : IrqWorld) (e : IrqEvent) (s : PciState) : Prop where
  keeps : IrqKeeps q w.pci s
  world : WorldInv (w.setPci s).world
  unstaged : (s.endpoints.endpoint (irqEndpoint q)).waitingSender = none
  move : IrqMove (w.pci.irqChannel q) e (s.irqChannel q)

/-- The state in which the operations are made. -/
structure IrqBase (q : IrqRef) (w : IrqWorld) : Prop where
  world : WorldInv w.world
  static : w.pci.IrqStatic q
  ok : (w.pci.irq q).StateOk
  assigned : w.pci.assignmentStateOf (w.pci.irq q).assignment = .assigned
  unstaged : (w.pci.endpoints.endpoint (irqEndpoint q)).waitingSender = none
  handle : w.pci.KernelHandleNames q

variable {w w' : IrqWorld} {e : IrqEvent}

theorem IrqBase.inv (h : IrqBase q w) : w.pci.IpcInv := h.world.inv

theorem Silent.does (h : Silent q w.pci e s) (hb : IrqBase q w) : IrqDoes q w e s := by
  refine ⟨h.keeps, ?_, ?_, h.move⟩
  · rw [IrqWorld.world, IrqWorld.setPci, h.ipc]
    exact hb.world
  · rw [h.ipc]
    exact hb.unstaged

theorem IrqDoes.base (h : IrqDoes q w e s) (hb : IrqBase q w) : IrqBase q (w.setPci s) :=
  ⟨h.world, h.keeps.static hb.static, h.move.ok hb.ok, h.keeps.assigned hb.assigned, h.unstaged,
    h.keeps.handle hb.handle⟩

theorem disarm_refused (hb : IrqBase q w) (h : some (false, w.pci) = some (ok, s)) :
    IrqDoes q w (.disarmed ok) s := by
  obtain ⟨rfl, rfl⟩ := Prod.mk.inj (Option.some.inj h)
  exact (Silent.refused (.inr (.inl rfl))).does hb

theorem forceDisarmLocked_does (hb : IrqBase q w)
    (h : w.pci.forceDisarmLocked q owner = some (ok, s)) : IrqDoes q w (.disarmed ok) s := by
  rw [forceDisarmLocked] at h
  split_ifs at h with hno hdis
  · exact disarm_refused hb h
  · obtain ⟨rfl, rfl⟩ := Prod.mk.inj (Option.some.inj h)
    exact Silent.does ⟨.refl q _, rfl, .still hdis⟩ hb
  · obtain ⟨k, hk, hmail, htake⟩ := discardEvent_spec hb.inv hb.static hb.unstaged
    rw [hk, Option.bind_some] at h
    dsimp only at h
    split_ifs at h with hheld
    obtain hf | ⟨a, hv, ⟨havail, -⟩, ht⟩ := ((w.pci.withIpc k).modifyIrq q
      (·.disarm)).accessRelease_cases (((w.pci.withIpc k).modifyIrq q (·.disarm)).irq q).assignment owner
    · rw [hf] at h
      cases h
    · rw [ht] at h
      obtain ⟨rfl, rfl⟩ := Prod.mk.inj (Option.some.inj h)
      have hkeeps : IrqKeeps q w.pci (w.pci.withIpc k) := by
        obtain rfl | ⟨rfl, message, htk⟩ := htake
        · exact .refl q _
        · exact .ipc (.refl _) (.of_relabel htk.relabel htk.endpoint ⟨rfl, rfl, rfl⟩) id
      refine ⟨hkeeps.trans (.trans (.modifyIrq ⟨rfl, rfl, rfl, rfl, rfl⟩) (.trans
        (.accesses rfl havail ((Nat.sub_le _ _).trans hv.ok.accesses))
        (.modifyIrq ⟨rfl, rfl, rfl, rfl, rfl⟩))), ?_, ?_, ?_⟩
      · obtain rfl | ⟨-, message, htk⟩ := htake
        · exact hb.world
        · exact hb.world.relabel htk.relabel (hb.inv.take htk)
      · obtain rfl | ⟨-, message, htk⟩ := htake
        · exact hb.unstaged
        · exact (congrArg Endpoint.waitingSender htk.endpoint).trans hb.unstaged
      · rw [irqChannel_modifyIrq]
        show IrqMove _ _ ⟨{ ((w.pci.withIpc k).modifyIrq q (·.disarm)).irq q with
          assignmentAccessHeld := false }, (k.endpoints.endpoint (irqEndpoint q)).mailbox⟩
        rw [modifyIrq_self, hmail]
        exact .disarm hdis

theorem disarm_does (hb : IrqBase q w) (h : w.pci.pciIrqResourceDisarm q p handle = some (ok, s)) :
    IrqDoes q w (.disarmed ok) s := by
  rw [pciIrqResourceDisarm] at h
  split_ifs at h
  · exact forceDisarmLocked_does hb h
  · exact disarm_refused hb h

theorem forceDisarm_does (hb : IrqBase q w)
    (h : w.pci.pciIrqResourceForceDisarm q owner = some (ok, s)) :
    IrqDoes q w (.disarmed ok) s := by
  rw [pciIrqResourceForceDisarm] at h
  split_ifs at h
  · exact disarm_refused hb h
  · exact forceDisarmLocked_does hb h

/-! ### Signals -/

/-- A send either changes nothing, or puts the message into the endpoint that the handle names. -/
theorem ipcTrySend_spec (env : IpcEnv) (p : ProcessRef) (handle : CapabilityHandle)
    (message : IpcMessage) (h : k.IpcInv) :
    ∃ r, k.ipcTrySend env p handle message = some r ∧
      (r = ⟨false, [], k⟩ ∨ ∃ e k', k.ipcResolveEndpoint env p handle capabilityRightSend = some e ∧
        r = ⟨true, [⟨e, none, message.copied⟩], k'⟩ ∧ Put k k' e message.copied) := by
  rw [ipcTrySend]
  split_ifs
  · cases hres : ipcResolveEndpoint env k p handle capabilityRightSend with
    | none => exact ⟨_, rfl, .inl rfl⟩
    | some e =>
      obtain ⟨r, hr, ⟨rfl, -⟩ | ⟨k', rfl, hput⟩⟩ := ipcSendLocked_spec e message h
      · exact ⟨_, hr, .inl rfl⟩
      · exact ⟨_, hr, .inr ⟨e, k', rfl, rfl, hput⟩⟩
  · exact ⟨_, rfl, .inl rfl⟩

/-- A lookup reads the slot that the handle names. -/
theorem capabilityLookupRights_slot {k : CapState} {t : TableRef} {type : CapabilityType}
    {rights : CapabilityRights} {o : Nat}
    (h : k.capabilityLookupRights t handle type rights = some o) :
    ∃ i, k.resolveSlot t handle = some i ∧ ((k.table t).slots i).object = some o := by
  unfold CapState.capabilityLookupRights at h
  split at h
  · cases h
  · rename_i i hi
    dsimp only at h
    split at h
    · cases h
    · exact ⟨i, hi, h⟩

/-- The handle of the kernel leads to the event endpoint. -/
theorem resolve_kernelSendHandle {kernel : ProcessRef} {e : EndpointRef}
    (hh : s.KernelHandleNames q) (hkernel : s.processKernel = some kernel)
    (h : ipcResolveEndpoint (s.ipcEnv env) s.toIpcState kernel (s.irq q).kernelSendHandle
      capabilityRightSend = some e) :
    e = irqEndpoint q := by
  rw [ipcResolveEndpoint] at h
  cases hcaps : (s.ipcEnv env).capabilities kernel with
  | none =>
    rw [hcaps] at h
    cases h
  | some caps =>
    rw [hcaps] at h
    dsimp only at h
    obtain rfl : processTable kernel = caps := by
      change s.processCapabilities kernel = some caps at hcaps
      rw [AssignState.processCapabilities] at hcaps
      split_ifs at hcaps
      exact Option.some.inj hcaps
    cases hlook : s.capabilityLookupRights (processTable kernel) (s.irq q).kernelSendHandle .endpoint
        capabilityRightSend with
    | none =>
      rw [hlook] at h
      cases h
    | some o =>
      rw [hlook] at h
      dsimp only at h
      split_ifs at h
      obtain rfl := Option.some.inj h
      obtain ⟨i, hi, ho⟩ := capabilityLookupRights_slot hlook
      obtain ⟨-, -, hindex, hgen⟩ := CapState.resolveSlot_spec hi
      exact hh kernel i o hkernel hindex hgen ho

theorem pciIrqEvent_copied (resourceId sequence suppressed : Nat) :
    (pciIrqEvent resourceId sequence suppressed).copied.words 2 = sequence := rfl

theorem numberTaken_of_eq (h : (s'.irq q).nextSequence = (s.irq q).nextSequence) :
    s.numberTaken s' q = none := if_pos h

theorem numberTaken_succ (h : (s'.irq q).nextSequence = succ64 (s.irq q).nextSequence) :
    s.numberTaken s' q = some (s.irq q).nextSequence := by
  refine if_neg fun heq => ?_
  rw [succ64] at h
  omega

/-- A signal that finds the record ARMED takes the next number, and sends. -/
theorem sendEvent_does (hb : IrqBase q w) (hstate : (w.pci.irq q).state = .armed)
    (hn : (w.pci.irq q).nextSequence ≠ 0)
    (h : w.pci.sendEvent q env (w.pci.irq q).nextSequence = some (ok, accepted, s)) :
    IrqDoes q w (.signalled (w.pci.irq q).state (w.pci.numberTaken s q) accepted) s := by
  rw [hstate]
  rw [sendEvent] at h
  generalize hs1 : w.pci.modifyIrq q (fun x => { x with
    nextSequence := succ64 (w.pci.irq q).nextSequence,
    pendingSequence := (w.pci.irq q).nextSequence, deliveryMasked := true,
    state := .pending }) = s1 at h
  have hirq : s1.irq q = { w.pci.irq q with
      nextSequence := succ64 (w.pci.irq q).nextSequence,
      pendingSequence := (w.pci.irq q).nextSequence, deliveryMasked := true,
      state := .pending } := by
    rw [← hs1, modifyIrq_self]
  have hipc : s1.toIpcState = w.pci.toIpcState := by
    rw [← hs1]
    rfl
  have hkeeps : IrqKeeps q w.pci s1 := by
    rw [← hs1]
    exact .modifyIrq ⟨rfl, rfl, rfl, rfl, rfl⟩
  have hmail : (s1.irqChannel q).mail = (w.pci.irqChannel q).mail := by
    rw [irqChannel, hipc]
    rfl
  -- whatever stops the send, the number is gone and the record is STORMED
  have hfail : some (s1.signalFailed q) = some (ok, accepted, s) →
      IrqDoes q w (.signalled .armed (w.pci.numberTaken s q) accepted) s := by
    intro h
    obtain rfl : (s1.signalFailed q).2.2 = s := congrArg (·.2.2) (Option.some.inj h)
    obtain rfl : [] = accepted := congrArg (·.2.1) (Option.some.inj h)
    have hnext : ((s1.signalFailed q).2.2.irq q).nextSequence =
        succ64 (w.pci.irq q).nextSequence := by
      rw [signalFailed, modifyIrq_self, hirq]
    rw [numberTaken_succ hnext]
    refine ⟨hkeeps.trans ?_, ?_, ?_, ?_⟩
    · rw [signalFailed]
      dsimp only
      exact .modifyIrq ⟨rfl, rfl, rfl, rfl, rfl⟩
    · show WorldInv ⟨s1.toIpcState, w.parked, w.calls⟩
      rw [hipc]
      exact hb.world
    · show (s1.endpoints.endpoint (irqEndpoint q)).waitingSender = none
      rw [hipc]
      exact hb.unstaged
    · rw [signalFailed, irqChannel_modifyIrq, hirq, hmail]
      exact .fail hstate hn
  have hinv : s1.toIpcState.IpcInv := hipc ▸ hb.inv
  cases hkernel : s1.processKernel with
  | none =>
    rw [hkernel] at h
    exact hfail h
  | some kernel =>
    rw [hkernel] at h
    dsimp only at h
    generalize hm : pciIrqEvent (s1.resources.resource (irqResource q)).id
      (w.pci.irq q).nextSequence (s1.irq q).suppressedCount = message at h
    have hword : message.copied.words 2 = (w.pci.irq q).nextSequence := by
      rw [← hm, pciIrqEvent_copied]
    obtain ⟨r, hr, rfl | ⟨e, k, hres, rfl, hput⟩⟩ := ipcTrySend_spec (s1.ipcEnv env) kernel
      (s1.irq q).kernelSendHandle message hinv
    · rw [hr] at h
      exact hfail h
    · rw [hr] at h
      obtain ⟨-, h⟩ := Prod.mk.inj (Option.some.inj h)
      obtain ⟨rfl, rfl⟩ := Prod.mk.inj h
      rw [resolve_kernelSendHandle (hkeeps.handle hb.handle) hkernel hres] at hput
      have hput' : Put w.world.kernel k (irqEndpoint q) _ := hipc ▸ hput
      have hcaps := hput.relabel.caps
      have hsent : IrqKeeps q s1 (s1.withIpc k) := by
        refine .ipc ?_ (.of_relabel hput.relabel hput.endpoint ⟨rfl, rfl, rfl⟩) ?_
        · rw [hcaps.resources]
          exact .refl _
        · intro hh kernel' i o hk' hi hg ho
          refine hh kernel' i o hk' hi ?_ ?_
          · exact (congrArg (fun t => ((t (processTable kernel')).slots i).generation)
              hcaps.table).symm.trans hg
          · exact (congrArg (fun t => ((t (processTable kernel')).slots i).object)
              hcaps.table).symm.trans ho
      have hnext : (((s1.withIpc k).modifyIrq q fun x =>
          { x with deliveredCount := increment64 x.deliveredCount }).irq q).nextSequence =
          succ64 (w.pci.irq q).nextSequence := by
        rw [modifyIrq_self]
        exact congrArg PciIrqResource.nextSequence hirq
      rw [numberTaken_succ hnext]
      refine ⟨hkeeps.trans (hsent.trans (.modifyIrq ⟨rfl, rfl, rfl, rfl, rfl⟩)), ?_, ?_, ?_⟩
      · exact hb.world.relabel hput'.relabel (hb.inv.put hput')
      · exact (congrArg Endpoint.waitingSender hput'.endpoint).trans hb.unstaged
      · rw [irqChannel_modifyIrq]
        show IrqMove _ _ ⟨{ s1.irq q with
          deliveredCount := increment64 (s1.irq q).deliveredCount },
          (k.endpoints.endpoint (irqEndpoint q)).mailbox⟩
        rw [hput'.endpoint, hirq]
        have hempty : (w.pci.irqChannel q).mail = [] := if_neg hput'.empty
        exact .deliver hstate hn hword hempty

theorem signal_does (hb : IrqBase q w)
    (h : w.pci.pciIrqResourceSignal q env = some (ok, accepted, s)) :
    IrqDoes q w (.signalled (w.pci.irq q).state (w.pci.numberTaken s q) accepted) s := by
  have hok := hb.ok
  -- nothing but the counters changes, if anything does
  have hunheard : (w.pci.irq q).state = .disarmed ∨ (w.pci.irq q).state = .armed →
      some (false, [], w.pci) = some (ok, accepted, s) →
      IrqDoes q w (.signalled (w.pci.irq q).state (w.pci.numberTaken s q) accepted) s := by
    intro hstate h
    obtain ⟨-, h⟩ := Prod.mk.inj (Option.some.inj h)
    obtain ⟨rfl, rfl⟩ := Prod.mk.inj h
    rw [numberTaken_of_eq rfl]
    exact Silent.does ⟨.refl q _, rfl, .unheard hstate⟩ hb
  rw [pciIrqResourceSignal] at h
  split_ifs at h with hno hsup hmasked hn
  · exact absurd hno (not_or.mpr ⟨not_not.mpr (irqValid_iff.mpr ⟨hb.static, hok⟩),
      not_not.mpr hb.assigned⟩)
  · obtain ⟨-, h⟩ := Prod.mk.inj (Option.some.inj h)
    obtain ⟨rfl, rfl⟩ := Prod.mk.inj h
    rw [numberTaken_of_eq (by rw [modifyIrq_self, PciIrqResource.suppress])]
    refine Silent.does ⟨.modifyIrq ⟨rfl, rfl, rfl, rfl, rfl⟩, rfl, ?_⟩ hb
    rw [irqChannel_modifyIrq]
    exact .suppress hsup
  · refine hunheard (.inl ?_) h
    rw [not_or] at hsup
    rw [PciIrqResource.StateOk] at hok
    split at hok
    · exact hok.elim
    · assumption
    · rename_i hstate
      exact absurd hmasked (by simp [hstate, hok])
    · exact absurd ‹_› hsup.1
    · exact absurd ‹_› hsup.2
  · simp only [not_or, not_not] at hmasked
    exact hunheard (.inr hmasked.1) h
  · simp only [not_or, not_not] at hmasked
    exact sendEvent_does hb hmasked.1 hn h

/-! ### The rest of the system -/

end PciState

namespace IrqAside

open PciState

variable {q : IrqRef} {w w' : IrqWorld}

section

variable (h : IrqAside q w notes w') (hb : IrqBase q w)
include h hb

theorem world_inv : WorldInv w'.world :=
  (h.step.refines hb.world).inv hb.world

/-- The event stays in the mailbox, or is received, or is dropped when the endpoint is closed. -/
theorem mail (hv : w'.pci.IpcEndpointValid (irqEndpoint q)) :
    (w'.pci.irqChannel q).mail = (w.pci.irqChannel q).mail ∨ (w'.pci.irqChannel q).mail = [] := by
  by_cases hclosed : (w'.pci.endpoints.endpoint (irqEndpoint q)).closed
  · have hcoh := (h.world_inv hb).inv.coherent _ hv
    exact .inr (if_neg (hcoh.closed hclosed).1)
  · obtain ⟨-, heq⟩ := (h.step.refines hb.world).conserves hb.world (irqEndpoint q) hclosed
    rw [h.unsent, List.append_nil] at heq
    change (w.pci.irqChannel q).mail = _ ++ (w'.pci.irqChannel q).mail at heq
    -- a mailbox holds one message at most
    have hlen : (w.pci.irqChannel q).mail.length ≤ 1 := by
      rw [irqChannel, Endpoint.mailbox]
      split_ifs <;> simp
    cases hd : deliveredAt (irqEndpoint q) notes with
    | nil =>
      rw [hd] at heq
      exact .inl heq.symm
    | cons m ms =>
      rw [heq, hd, List.length_append, List.length_cons] at hlen
      exact .inr (List.length_eq_zero_iff.mp (by omega))

/-- The record of the interrupt is not touched, and what is checked about it still holds. -/
theorem base (hr : w.pci.resources.SameResources w'.pci.resources)
    (hh : w'.pci.KernelHandleNames q) :
    IrqBase q w' ∧ IrqMove (w.pci.irqChannel q) (.ipc notes) (w'.pci.irqChannel q) := by
  have hkeeps : IrqKeeps q w.pci w'.pci := by
    rw [h.pci] at hh ⊢
    exact .ipc hr (h.step.sameEndpoints hb.world) fun _ => hh
  have hirq : w'.pci.irq q = w.pci.irq q := congrFun (congrArg PciState.irq h.pci) q
  have hstatic := hkeeps.static hb.static
  refine ⟨⟨h.world_inv hb, hstatic, hirq ▸ hb.ok, hkeeps.assigned hb.assigned, h.unstaged, hh⟩, ?_⟩
  have hchannel : w'.pci.irqChannel q =
      { w.pci.irqChannel q with mail := (w'.pci.irqChannel q).mail } := by
    rw [irqChannel, hirq]
    rfl
  rw [hchannel]
  exact .ipc (h.mail hb hstatic.endpoint)

/-- `ipc.c` leaves the capabilities alone. -/
theorem base_of_exec {o : IpcOp} (he : o.exec env w.world = some (notes, w'.world)) :
    IrqBase q w' ∧ IrqMove (w.pci.irqChannel q) (.ipc notes) (w'.pci.irqChannel q) := by
  obtain ⟨r, hr, hserves⟩ := o.exec_refines env hb.world
  obtain rfl := Option.some.inj (he.symm.trans hr)
  have hcaps : w.pci.toIpcState.CapsKept w'.pci.toIpcState := hserves.caps
  refine h.base hb ?_ fun kernel i o hk hi hg ho => ?_
  · rw [hcaps.resources]
    exact .refl _
  · rw [hcaps.table] at hg ho
    rw [h.pci] at hk hi hg
    exact hb.handle kernel i o hk hi hg ho

end

end IrqAside

/-! ### Whole runs -/

section Runs

open PciState

variable {q : IrqRef} {w w' : IrqWorld} {e : IrqEvent} {es : List IrqEvent}

/-- Every step of the system is a move of the channel. -/
theorem IrqStep.move (hb : IrqBase q w) (h : IrqStep q w e w') :
    IrqBase q w' ∧ IrqMove (w.pci.irqChannel q) e (w'.pci.irqChannel q) := by
  have of_does : ∀ {e : IrqEvent} {s : PciState}, IrqDoes q w e s →
      IrqBase q (w.setPci s) ∧ IrqMove (w.pci.irqChannel q) e ((w.setPci s).pci.irqChannel q) :=
    fun hd => ⟨hd.base hb, hd.move⟩
  cases h with
  | arm p handle => exact of_does (arm_silent.does hb)
  | disarm p handle h => exact of_does (disarm_does hb h)
  | forceDisarm owner h => exact of_does (forceDisarm_does hb h)
  | signal env h => exact of_does (signal_does hb h)
  | acknowledge p handle sequence => exact of_does ((acknowledge_silent hb.inv hb.static).does hb)
  | recoverStorm p handle => exact of_does ((recover_silent hb.inv hb.static).does hb)
  | ipc env o h ha => exact ha.base_of_exec hb h
  | elsewhere h => exact h.toIrqAside.base hb h.resources h.handle

theorem IrqStep.run_moves (hb : IrqBase q w) (hrun : Run (IrqStep q) w es w') :
    IrqBase q w' ∧ Run IrqMove (w.pci.irqChannel q) es (w'.pci.irqChannel q) := by
  induction hrun with
  | nil => exact ⟨hb, .nil _⟩
  | @snoc mid w' es e _ hs ih =>
    obtain ⟨hmid, hmoves⟩ := ih
    obtain ⟨hb', hmove⟩ := hs.move hmid
    exact ⟨hb', .snoc hmoves hmove⟩

theorem ChannelInv.of_run {c c' : IrqChannel} (h : c.Fresh) (hrun : Run IrqMove c es c') :
    ChannelInv es c' :=
  hrun.history h.inv fun _ _ _ _ hc m => hc.move m

end Runs

end JcosKernel
