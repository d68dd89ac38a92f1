import JcosKernel.Pci.IrqProtocol
import JcosKernel.Ipc.Runs

/-!
# JcosKernel.Pci.IrqRuns

**The event protocol of a PCI interrupt over whole runs**: from a disarmed resource that has not
sent anything yet (`IrqChannel.Fresh`), and whatever the owner, the device and the receivers do, the
events keep to `IrqEventProtocol`.
-/

namespace JcosKernel

open Lib PciState

/-- What holds of an interrupt after the steps `es`, and of the next step. -/
structure IrqEventProtocol (q : IrqRef) (es : List IrqEvent) (w : IrqWorld) : Prop where
  /-- Signals take the numbers 1, 2, 3, … -/
  numbers : es.filterMap IrqEvent.taken = List.range' 1 (es.filterMap IrqEvent.taken).length
  /-- An event carries the number that was taken for it; a number whose send fails is skipped. -/
  carried : ∀ e ∈ es, ∀ n, e.sent = some n → e.taken = some n
  increasing : (es.filterMap IrqEvent.sent).Pairwise (· < ·)
  single : ∀ n n', IrqOutstanding es n → IrqOutstanding es n' → n = n'
  /-- An event is sent only when none is outstanding, and none is in the mailbox. -/
  sends : ∀ e w', IrqStep q w e w' → e.sent ≠ none →
    (∀ n, ¬ IrqOutstanding es n) ∧ (w.pci.endpoints.endpoint (irqEndpoint q)).mailbox = []
  /-- An event is acknowledged once, while it is outstanding, and after it left the mailbox. -/
  acknowledges : ∀ n w', IrqStep q w (.acknowledged n true) w' →
    IrqOutstanding es n ∧ (w.pci.endpoints.endpoint (irqEndpoint q)).mailbox = [] ∧
      .acknowledged n true ∉ es
  masked : (w.pci.irq q).deliveryMasked = false ↔ (w.pci.irq q).state = .armed
  /-- The counter stays at its largest value once it is there. -/
  suppressed : ∀ e w', IrqStep q w e w' → (w'.pci.irq q).suppressedCount =
    min (2 ^ 64 - 1) ((w.pci.irq q).suppressedCount + if e.suppressed then 1 else 0)
  /-- After `PCI_IRQ_STORM_THRESHOLD` signals without an acknowledgement (`es₂`), nothing is sent
  until `recover_storm`, or until the interrupt is disarmed and armed again. -/
  storm : ∀ es₁ es₂ es₃, es = es₁ ++ es₂ ++ es₃ →
    pciIrqStormThreshold ≤ es₂.countP IrqEvent.suppressed →
    (∀ e ∈ es₂, (∀ n, e ≠ .acknowledged n true) ∧ e ≠ .recovered true ∧ e ≠ .disarmed true) →
    .recovered true ∉ es₃ → ¬ [.disarmed true, .armed true].Sublist es₃ → ∀ e ∈ es₃, e.sent = none

variable {q : IrqRef} {w w₀ w' : IrqWorld} {e : IrqEvent} {es : List IrqEvent} {c c' : IrqChannel}

/-! ### What a move shows of the channel -/

/-- Nothing is pending when an event is sent. -/
theorem IrqMove.of_sent (m : IrqMove c e c') (hok : c.irq.StateOk) (hs : e.sent ≠ none) :
    c.irq.pendingSequence = 0 ∧ c.mail = [] := by
  cases m with
  | deliver h hn hx hempty => exact ⟨hok.pending_eq_zero (.inr h), hempty⟩
  | refused he => obtain rfl | rfl | ⟨n, rfl⟩ | rfl := he <;> exact absurd rfl hs
  | arm | disarm | still | unheard | suppress | fail | acknowledge | settle | recover | ipc =>
    exact absurd rfl hs

theorem IrqMove.of_acknowledged {n : Nat} (m : IrqMove c (.acknowledged n true) c') :
    n ≠ 0 ∧ c.irq.pendingSequence = n ∧ c.mail = [] := by
  cases m with
  | refused he => simp [IrqEvent.Refused] at he
  | acknowledge h hn hempty | settle h hn hempty => exact ⟨hn, rfl, hempty⟩

/-- The numbers that were sent are some of those that were taken. -/
theorem sent_sublist_taken (h : ∀ e ∈ es, ∀ n, e.sent = some n → e.taken = some n) :
    (es.filterMap IrqEvent.sent).Sublist (es.filterMap IrqEvent.taken) := by
  induction es with
  | nil => exact .slnil
  | cons e es ih =>
    have ih := ih fun d hd => h d (List.mem_cons_of_mem _ hd)
    rw [List.filterMap_cons, List.filterMap_cons]
    cases hs : e.sent with
    | none =>
      cases e.taken with
      | none => exact ih
      | some n => exact ih.cons n
    | some n =>
      rw [h e List.mem_cons_self n hs]
      exact ih.cons_cons n

theorem PciIrqResource.StateOk.masked {x : PciIrqResource} (h : x.StateOk) :
    x.deliveryMasked = false ↔ x.state = .armed := by
  rw [PciIrqResource.StateOk] at h
  split at h
  · exact h.elim
  all_goals simp_all

/-- **The event protocol of a PCI interrupt.** -/
theorem pci_irq_event_protocol (hb : IrqBase q w₀) (hfresh : (w₀.pci.irqChannel q).Fresh)
    (hrun : Run (IrqStep q) w₀ es w) : IrqEventProtocol q es w := by
  obtain ⟨hb', hmoves⟩ := IrqStep.run_moves hb hrun
  have hinv := ChannelInv.of_run hfresh hmoves
  refine
    { numbers := hinv.numbers
      carried := hinv.carried
      increasing := ?_
      single := ?_
      sends := ?_
      acknowledges := ?_
      masked := hinv.ok.masked
      suppressed := ?_
      storm := ?_ }
  · have hlt : (es.filterMap IrqEvent.taken).Pairwise (· < ·) := by
      rw [hinv.numbers]
      exact List.pairwise_lt_range'
    exact hlt.sublist (sent_sublist_taken hinv.carried)
  · intro n n' hn hn'
    exact ((hinv.active n).mp hn).2.symm.trans ((hinv.active n').mp hn').2
  · intro e w' hs hsent
    obtain ⟨hpending, hmail⟩ := (hs.move hb').2.of_sent hinv.ok hsent
    refine ⟨fun n hn => ?_, hmail⟩
    obtain ⟨hn0, hpn⟩ := (hinv.active n).mp hn
    exact hn0 (hpn.symm.trans hpending)
  · intro n w' hs
    obtain ⟨hn0, hpn, hmail⟩ := (hs.move hb').2.of_acknowledged
    exact ⟨(hinv.active n).mpr ⟨hn0, hpn⟩, hmail, fun hmem => (hinv.acknowledged n hmem).1 hpn.symm⟩
  · intro e w' hs
    have hnext := hinv.move (hs.move hb').2
    have hcount := hnext.suppressed
    rw [List.countP_append, List.countP_singleton] at hcount
    have hold := hinv.suppressed
    change (w'.pci.irq q).suppressedCount = _ at hcount
    change (w.pci.irq q).suppressedCount = _ at hold
    omega
  · intro es₁ es₂ es₃ hes hlarge hquiet hrec harm
    subst hes
    obtain ⟨c₂, hrun₂, hrun₃⟩ := hmoves.split
    obtain ⟨c₁, hrun₁, hrun₂⟩ := hrun₂.split
    have hstorm := (ChannelInv.of_run hfresh hrun₁).storm
    have hstate := (Suppressing.run hrun₂ hstorm hquiet).stormed hlarge
    exact (IrqMove.run_quiet hrun₃ hstate hrec harm).2

/-! ### A run -/

/-- Process `8` owns assignment `0` and its interrupt `5`, which has just been created; process `9`
is the kernel. -/
def portIrq : IrqWorld where
  pci :=
    { portWorld.kernel with
      endpoints := { portWorld.kernel.endpoints with
        endpoint := fun e =>
          if e = 5 then
            { Endpoint.zero with
              id := 1, initialized := true, capabilityRefs := 2, ownerProcessId := 7 }
          else .zero }
      resources := {
        resource := fun r =>
          if r = assignmentResource 0 then ⟨1, 1, .pciFunction, true⟩
          else if r = irqResource 5 then ⟨2, 1, .pciIrq, true⟩
          else .zero
        nextId := 3
        storage := (Slots.empty.put 0 (assignmentResource 0)).put 1 (irqResource 5) }
      table := fun t =>
        { CapabilityTable.zero with
          slots := fun i =>
            if i = 0 then
              if t = 9 then ⟨some 5, 1, capabilityRightSend, 1, .endpoint, true⟩
              else ⟨some (irqResource 5), 2, pciIrqResourceOwnerRights, 1, .deviceResource, true⟩
            else if i = 1 ∧ t = 8 then ⟨some 5, 1, capabilityRightReceive, 2, .endpoint, true⟩
            else .zero
          count := if t = 8 then 2 else 1
          initialized := true }
      tables := (Slots.empty.put 0 9).put 1 8
      process := fun p =>
        if p = 9 then ⟨1, true, true⟩ else ⟨7, false, true⟩
      processes := (Slots.empty.put 0 9).put 1 8
      kernelProcess := 9
      processesInitialized := true
      assignment := fun _ => ⟨⟨⟨1, 0⟩, 1⟩, 7, 1, 0, .assigned, false, false, true⟩
      assignments := Slots.empty.put 0 0
      irq := fun _ => { PciIrqResource.zero with
        assignment := some 0, assignmentResourceId := 1, ownerProcessId := 7,
        kernelSendHandle := capabilityHandle 1 0, nextSequence := 1, state := .disarmed,
        deliveryMasked := true, initialized := true }
      irqs := Slots.empty.put 0 5 }
  parked := fun _ => none
  calls := 0

theorem portIrq_base : IrqBase 5 portIrq where
  world := by
    refine IpcBoot.inv ⟨portWorld_boot.sched, fun e _ => ⟨rfl, ?_⟩, portWorld_boot.threads,
      fun _ => rfl, fun _ => rfl⟩
    simp only [IrqWorld.world, portIrq]
    split_ifs <;> exact ⟨⟨rfl, rfl⟩, ⟨rfl, rfl⟩, by decide, by decide⟩
  static := by
    refine ⟨?_, ?_, ?_, ?_, ?_, ?_, ?_, ?_, ?_⟩ <;> decide +kernel
  ok := by decide +kernel
  assigned := by decide +kernel
  unstaged := rfl
  handle kernel i o hk hi _ ho := by
    obtain rfl : 9 = kernel := Option.some.inj hk
    obtain rfl : i = 0 := Fin.ext hi
    exact (Option.some.inj ho).symm

theorem portIrq_fresh : (portIrq.pci.irqChannel 5).Fresh :=
  ⟨by decide +kernel, rfl, rfl, rfl, rfl, rfl⟩

/-- The interrupt is armed. -/
def portArmed : PciState := (portIrq.pci.pciIrqResourceArm 5 8 (capabilityHandle 1 0)).2

/-- The receive of the owner. -/
def portReceive : IpcOp := .tryReceive 8 (capabilityHandle 2 1)

/-- The interrupt is armed and signalled; the owner receives the event and acknowledges it. -/
theorem pci_irq_event_protocol_acknowledged : ∃ es w, Run (IrqStep 5) portIrq es w ∧
    es.filterMap IrqEvent.sent = [1] ∧ .acknowledged 1 true ∈ es ∧ IrqEventProtocol 5 es w := by
  have hfacts : ((portArmed.pciIrqResourceSignal 5 portEnv).bind fun r =>
      (portReceive.exec (portArmed.ipcEnv portEnv) (portIrq.setPci r.2.2).world).map fun x =>
        (r.2.1.map (·.message.words 2), (acceptedAt 5 x.1).isEmpty,
          (x.2.kernel.endpoints.endpoint 5).waitingSender,
          ((r.2.2.withIpc x.2.kernel).pciIrqResourceAcknowledge 5 8 (capabilityHandle 1 0) 1).1)) =
      some ([1], true, none, true) := by decide +kernel
  obtain ⟨⟨ok, accepted, s₂⟩, hsignal, hfacts⟩ := Option.bind_eq_some_iff.mp hfacts
  obtain ⟨⟨notes, v⟩, hreceive, hfacts⟩ := Option.map_eq_some_iff.mp hfacts
  simp only [Prod.mk.injEq, List.isEmpty_iff] at hfacts
  obtain ⟨hwords, hunsent, hunstaged, hack⟩ := hfacts
  let w₃ : IrqWorld := ⟨s₂.withIpc v.kernel, v.parked, v.calls⟩
  have harmed : IrqStep 5 portIrq _ (portIrq.setPci portArmed) := .arm 8 (capabilityHandle 1 0)
  generalize portArmed = s₁ at hsignal hreceive harmed
  have hsignalled : IrqStep 5 (portIrq.setPci s₁) _ (portIrq.setPci s₂) := .signal portEnv hsignal
  have hreceived : IrqStep 5 (portIrq.setPci s₂) (.ipc notes) w₃ :=
    .ipc _ portReceive hreceive ⟨.op _ portReceive hreceive, rfl, hunsent, hunstaged⟩
  have hacknowledged : IrqStep 5 w₃ _ _ := .acknowledge 8 (capabilityHandle 1 0) 1
  have hrun := (((Run.single harmed).snoc hsignalled).snoc hreceived).snoc hacknowledged
  refine ⟨_, _, hrun, ?_, ?_, pci_irq_event_protocol portIrq_base portIrq_fresh hrun⟩
  · obtain ⟨x, rfl, hx⟩ := List.map_eq_singleton_iff.mp hwords
    show [x.message.words 2] = [1]
    rw [hx]
  · simp only [List.mem_append, List.mem_singleton]
    right
    rw [hack]

end JcosKernel
