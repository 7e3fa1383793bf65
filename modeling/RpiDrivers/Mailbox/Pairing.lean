import RpiDrivers.Mailbox.Tokens
import RpiDrivers.Mailbox.Buffers

/-!
# Answers and requests of the mailbox

As long as answers come in order, the DPC takes requests that have been answered, and what it frees
the firmware does not have any more.

- `pairingSound_of_inOrder`: **runs in order are sound**.
- `answered_out_of_order`: the second of two requests is answered first.
-/

namespace RpiDrivers.Mailbox

open RpiDrivers.Lib

/-! ## What the DPC completes -/

/-- The request that the DPC has taken has been answered, and so has what it has completed with
success. -/
structure DpcInv (s : Rpiq) : Prop where
  took : ∀ r, s.dpc = .took r → .request r ∈ s.answered
  paired : ∀ c ∈ s.completions, c.status = .success →
    c.copied = some (.request c.request) ∧ c.answered = true

namespace DpcInv

variable {s : Rpiq}

theorem frame (h : DpcInv s) {s' : Rpiq} (hdpc : s'.dpc = s.dpc)
    (hanswered : s'.answered = s.answered) (hcompletions : s'.completions = s.completions) :
    DpcInv s' := by
  refine ⟨fun r hr => ?_, ?_⟩
  · rw [hdpc] at hr
    rw [hanswered]
    exact h.took r hr
  · rw [hcompletions]
    exact h.paired

/-- A completion that is not a success says nothing about an answer. -/
theorem refuse (h : DpcInv s) (r : Nat) {status : Status} (hstatus : status ≠ .success)
    (copied : Option Buffer) : DpcInv (s.complete r status copied) := by
  refine ⟨h.took, fun c hc hsuccess => ?_⟩
  rcases List.mem_append.1 hc with hs | hnew
  · exact h.paired c hs hsuccess
  · rw [List.mem_singleton.1 hnew] at hsuccess
    exact absurd hsuccess hstatus

theorem failWrite (h : DpcInv s) (c : Call) (w : Write) {status : Status}
    (hstatus : status ≠ .success) : DpcInv (s.failWrite c w status) := by
  have hgo : DpcInv { s.goOn c [] with writeLock := false } := h.frame rfl rfl rfl
  cases hw : w.writer with
  | mac =>
    simp only [Rpiq.failWrite, hw]
    exact hgo.frame rfl rfl rfl
  | property r =>
    simp only [Rpiq.failWrite, hw]
    exact hgo.refuse r hstatus none
  | vchiq =>
    simp only [Rpiq.failWrite, hw]
    exact hgo

theorem completeDpc (h : DpcInv s) {r : Nat} (hdpc : s.dpc = .took r) (success : Bool) :
    DpcInv (s.completeDpc r success) := by
  have hanswered := h.took r hdpc
  have hidle : DpcInv { s with dpc := .idle } := ⟨fun _ hr => Dpc.noConfusion hr, h.paired⟩
  cases success with
  | false => exact hidle.refuse r (by decide) none
  | true =>
    refine ⟨hidle.took, fun c hc hsuccess => ?_⟩
    rcases List.mem_append.1 hc with hs | hnew
    · exact h.paired c hs hsuccess
    · rw [List.mem_singleton.1 hnew]
      exact ⟨rfl, decide_eq_true hanswered⟩

theorem effect (h : DpcInv s) {a : RpiqAction} (hok : InOrder s a) (hen : s.enabled a) :
    DpcInv (s.effect a) := by
  cases a with
  | startMac memory => cases memory <;> exact h.frame rfl rfl rfl
  | pollMac =>
    simp only [Rpiq.effect, Rpiq.pollMac]
    split_ifs
    · exact h.frame rfl rfl rfl
    · split <;> exact h.frame rfl rfl rfl
  | ioctlProperty i =>
    simp only [Rpiq.effect, Rpiq.ioctlProperty]
    have hissued : DpcInv { s with issued := s.issued + 1 } := h.frame rfl rfl rfl
    split_ifs with hcheck
    · exact h.frame rfl rfl rfl
    · exact hissued.refuse _ hcheck none
  | ioctlVchiq | acquire => exact h.frame rfl rfl rfl
  | allocate r memory =>
    cases memory with
    | none =>
      have hgo : DpcInv (s.goOn (.allocate r) []) := h.frame rfl rfl rfl
      exact hgo.refuse r (by decide) none
    | some address => exact h.frame rfl rfl rfl
  | poll w count full =>
    simp only [Rpiq.effect, Rpiq.poll]
    split_ifs
    · exact h.failWrite _ w (by decide)
    · exact h.frame rfl rfl rfl
    · exact h.frame rfl rfl rfl
  | forward w success =>
    simp only [Rpiq.effect, Rpiq.forward]
    split
    · split_ifs
      · exact h.frame rfl rfl rfl
      · exact h.failWrite _ w (by decide)
    · exact h.frame rfl rfl rfl
    · exact h.frame rfl rfl rfl
  | write w => exact h.frame rfl rfl rfl
  | answer m => exact ⟨fun r hr => List.mem_append_left _ (h.took r hr), h.paired⟩
  | readDpc m => exact ⟨fun r hr => Dpc.noConfusion hr, h.paired⟩
  | retrieveDpc m =>
    simp only [Rpiq.effect, Rpiq.retrieveDpc]
    split
    · next r rest hnext =>
      refine ⟨fun q hq => ?_, h.paired⟩
      -- the answer is that of the request at the head
      obtain rfl := Dpc.took.inj hq
      exact hok _ hnext
    · exact ⟨fun r hr => Dpc.noConfusion hr, h.paired⟩
  | completeDpc r success => exact h.completeDpc hen success
  | cancel queue r =>
    simp only [Rpiq.effect, Rpiq.cancel]
    split
    · have hcancelled : DpcInv (s.complete r .cancelled none) := h.refuse r (by decide) none
      exact hcancelled.frame rfl rfl rfl
    · exact h

end DpcInv

/-! ## Runs -/

namespace BufferInv

variable {s : Rpiq}

/-- When the query is done, its buffer is freed. -/
theorem endMac (h : BufferInv s) (hpending : s.pending .mac = 0) :
    BufferInv { s.free .mac with mac := .done } := by
  refine (h.free hpending).mono rfl rfl rfl (fun _ hb => hb) fun b => ?_
  cases b with
  | mac => simpa [Rpiq.handed] using Rpiq.handed_le _ .mac
  | request r => exact le_refl _

/-- The query frees its buffer when the firmware has answered it. -/
theorem pollMac (h : BufferInv s) (hmacInv : MacInv s) (hok : InOrder s .pollMac)
    (hen : s.enabled .pollMac) : BufferInv s.pollMac := by
  obtain ⟨n, hmac, hcalls, hrest⟩ := hmacInv.waiting hen.1 hen.2.1 hen.2.2
  rcases hrest with ⟨hsent, hinbox⟩ | ⟨hsent, hinbox⟩
  · rw [hmacInv.pollMac_empty hinbox hmac]
    split_ifs with hn
    · subst hn
      exact h.endMac (h.pending_of_answered (hok hmac))
    · refine h.mono rfl rfl rfl (fun _ hb => hb) fun b => ?_
      cases b with
      | mac => simpa [Rpiq.handed] using Rpiq.handed_le _ .mac
      | request r => exact le_refl _
  · have hread : BufferInv { s with inbox := [] } :=
      h.mono rfl rfl rfl (fun _ hb => hb) fun _ => le_refl _
    rw [hmacInv.pollMac_answered hinbox]
    refine hread.endMac ?_
    show pendingOf .mac s.calls s.sent = 0
    rw [hcalls, hsent]
    rfl

/-- In order, what is freed has been answered. -/
theorem effect (h : BufferInv s) (hmac : MacInv s) (hdpc : DpcInv s) {a : RpiqAction}
    (hok : InOrder s a) (hen : s.enabled a) : BufferInv (s.effect a) := by
  cases a with
  | startMac memory => exact h.startMac hen.1 memory
  | pollMac => exact h.pollMac hmac hok hen
  | ioctlProperty i => exact h.ioctlProperty i
  | ioctlVchiq channel value => exact h.ioctlVchiq channel value
  | allocate r memory => exact h.allocate hen memory
  | acquire w => exact h.acquire hen.1
  | poll w count full => exact h.poll hen full
  | forward w success => exact h.forward hen success
  | write w => exact h.write hen
  | answer m => exact h.answer hen
  | readDpc m => exact h.mono rfl rfl rfl (fun _ hb => hb) fun _ => le_refl _
  | retrieveDpc m =>
    simp only [Rpiq.effect, Rpiq.retrieveDpc]
    split <;> exact h.mono rfl rfl rfl (fun _ hb => hb) fun _ => le_refl _
  | completeDpc r success =>
    have hidle : BufferInv { s with dpc := .idle } :=
      h.mono rfl rfl rfl (fun _ hb => hb) fun _ => le_refl _
    have hpending := h.pending_of_answered (hdpc.took r hen)
    cases success <;> exact hidle.complete hpending _ _
  | cancel queue r =>
    simp only [Rpiq.effect, Rpiq.cancel]
    split
    · have hcomplete := h.complete (h.pending_of_answered hok) .cancelled none
      exact hcomplete.mono rfl rfl rfl (fun _ hb => hb) fun _ => le_refl _
    · exact h

end BufferInv

/-- **Runs in order are sound**. -/
theorem pairingSound_of_inOrder {s : Rpiq} (h : rpiqMachine.Reach InOrder s) : PairingSound s := by
  have hinv : BufferInv s ∧ MacInv s ∧ DpcInv s := by
    refine Machine.Reach.inv_guarded (P := fun s => BufferInv s ∧ MacInv s ∧ DpcInv s)
      (fun s hs => ?_) (fun s a hinv hok hen => ?_) h
    · subst hs
      refine ⟨⟨fun b => ?_, fun c hc => (nomatch hc), fun m hm => (nomatch hm)⟩,
        ⟨rfl, by decide, rfl, rfl, rfl⟩, ⟨fun r hr => Dpc.noConfusion hr, fun c hc => (nomatch hc)⟩⟩
      exact Nat.zero_le _
    · obtain ⟨hbuffers, hmac, hdpc⟩ := hinv
      exact ⟨hbuffers.effect hmac hdpc hok hen, hmac.effect hen, hdpc.effect hok hen⟩
  obtain ⟨hbuffers, _, hdpc⟩ := hinv
  exact ⟨completedOnce h, hdpc.paired, hbuffers.sent⟩

/-- A request of 28 bytes. -/
def getRequest : PropertyIoctl := ⟨28, 28, 28⟩

/-- The call of a request, until it is in the queue of its channel. -/
def queueProperty (r address : Nat) : List RpiqAction :=
  let w : Write := ⟨.property r, channelPropertyArmVc, busAddress address⟩
  [.ioctlProperty getRequest, .allocate r (some address), .acquire w, .poll w 0 false,
    .forward w true]

/-- The write to the mailbox, at the end of the call. -/
def writeProperty (r address : Nat) : RpiqAction :=
  .write ⟨.property r, channelPropertyArmVc, busAddress address⟩

/-- What the firmware gets from a request. -/
def propertyMessage (r address : Nat) : Message :=
  ⟨withoutChannel (busAddress address) ||| channelPropertyArmVc, some (.request r)⟩

/-- The answer to a request, and the DPC for it. -/
def answerProperty (r address : Nat) : List RpiqAction :=
  [.answer (propertyMessage r address), .readDpc (propertyMessage r address),
    .retrieveDpc (propertyMessage r address), .completeDpc r true]

/-- The query for the MAC address, and two requests that are queued on one channel and answered in
order. -/
def inOrderRun : List RpiqAction :=
  [RpiqAction.startMac (some 0x1000), .acquire (macWrite 0x1000), .poll (macWrite 0x1000) 0 false,
    .forward (macWrite 0x1000) true, .write (macWrite 0x1000), .pollMac,
    .answer (macMessage 0x1000), .pollMac] ++
  queueProperty 0 0x2000 ++ [writeProperty 0 0x2000] ++
  queueProperty 1 0x3000 ++ [writeProperty 1 0x3000] ++
  answerProperty 0 0x2000 ++ answerProperty 1 0x3000

theorem pairingSound_of_inOrder_requests :
    ∃ s, rpiqMachine.Reach InOrder s ∧
      s.completions = [⟨0, .success, some (.request 0), true⟩,
        ⟨1, .success, some (.request 1), true⟩] ∧ PairingSound s :=
  have h := rpiqMachine.reach_execOk_get InOrder inOrderRun (s := Rpiq.start) rfl (by rfl)
  ⟨_, h, by rfl, pairingSound_of_inOrder h⟩

/-- Two requests, and the firmware answers the second one first. -/
def outOfOrderRun : List RpiqAction :=
  [RpiqAction.startMac none] ++ queueProperty 0 0x2000 ++ [writeProperty 0 0x2000] ++
  queueProperty 1 0x3000 ++ [writeProperty 1 0x3000] ++
  [RpiqAction.answer (propertyMessage 1 0x3000), .readDpc (propertyMessage 1 0x3000),
    .retrieveDpc (propertyMessage 1 0x3000), .completeDpc 0 true]

/-- **The wrong request is completed**: the DPC completes request 0 with success, and frees its
buffer, when the firmware has answered request 1. -/
theorem answered_out_of_order : ¬ ∀ s, rpiqMachine.Reachable s → PairingSound s := by
  intro h
  have hrun := rpiqMachine.reach_exec_get outOfOrderRun (s := Rpiq.start) rfl (by rfl)
  exact absurd (h _ hrun).paired (by decide)

end RpiDrivers.Mailbox
