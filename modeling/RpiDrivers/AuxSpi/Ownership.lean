import Mathlib.Logic.Function.Basic
import RpiDrivers.Lib.Machine
import RpiDrivers.Lib.Pool

/-!
# Who completes an AUX SPI request (`bcmauxspi.cpp`)

A transfer is started by one of the SPB callbacks (`EvtSpbIoRead`, `EvtSpbIoWrite`,
`EvtSpbIoSequence`, `EvtSpbIoOther`), which all end the same way: store the request in
`Request.SpbRequest`, mark it cancelable, enable the interrupt. From then on the DPC
and the cancel callback compete for the request: each exchanges `SpbRequest` with
null, and the one that gets the pointer owns the request. The DPC has to unmark the
request first, and when the framework answers `STATUS_CANCELLED` it returns without
completing it, trusting the cancel callback, which finds the pointer gone and returns too.

Requests are numbered in the order the framework presents them; the next one is
presented once the previous ones are completed. The ISR and the section of the cancel
callback under the interrupt lock are one step each.

- `CompletedOnce`: no request is completed twice, and when nothing is left to happen
  every request presented has been completed.
- `NotCancelling`: the condition. The DPC takes a request only while it is marked and no
  cancellation of it is committed, and none is committed before it has unmarked it.
- `completedOnce_of_notCancelling`: runs that keep to the condition have the property.
- `request_lost`: a cancellation between the exchange and the unmark loses the request.
-/

namespace RpiDrivers.AuxSpi

open RpiDrivers.Lib

/-- `_TRANSFER_STATE` -/
inductive TransferState
  | invalid
  | write
  | read
  | sequenceWrite
  | sequenceReadInit
  | sequenceRead
  | fullDuplex
  deriving DecidableEq

/-- The state the start of a transfer leaves, one per kind of transfer; a sequence whose
write fits the FIFO goes on to its read at once. -/
inductive TransferKind
  | read
  | write
  | sequence (allWritten : Bool)
  | fullDuplex

def TransferKind.start : TransferKind → TransferState
  | .read => .read
  | .write => .write
  | .sequence allWritten => if allWritten then .sequenceReadInit else .sequenceWrite
  | .fullDuplex => .fullDuplex

/-- What an interrupt comes to. -/
inductive IsrResult
  /-- the transfer goes on in the given state -/
  | goesOn (state : TransferState)
  /-- all bytes are transferred: disable the interrupt, queue the DPC -/
  | finished
  /-- no transfer is under way: disable the interrupt -/
  | spurious

/-- `EvtInterruptIsr`. `allBytes` tells whether the bytes of the current phase are all
transferred. -/
def evtInterruptIsr : TransferState → Bool → IsrResult
  | .write, allBytes => if allBytes then .finished else .goesOn .write
  | .read, allBytes => if allBytes then .finished else .goesOn .read
  | .sequenceWrite, allBytes => .goesOn (if allBytes then .sequenceReadInit else .sequenceWrite)
  | .sequenceReadInit, _ => .goesOn .sequenceRead
  | .sequenceRead, allBytes => if allBytes then .finished else .goesOn .sequenceRead
  | .fullDuplex, allBytes => if allBytes then .finished else .goesOn .fullDuplex
  | .invalid, _ => .spurious

/-- What the framework knows about a request. -/
inductive Cancelability
  | unmarked
  | marked
  /-- a cancellation is committed: the cancel callback will be called -/
  | cancelling
  /-- the cancel callback has been called -/
  | called
  deriving DecidableEq

/-- A callback that is under way, and what it does next. -/
inductive CallbackStep
  /-- start: `WdfRequestMarkCancelableEx` -/
  | markCancelable (r : Nat)
  /-- start: marking failed, `abortTransfer` -/
  | startAbort (r : Nat)
  /-- start: complete the request with the failure -/
  | startComplete (r : Nat)
  /-- start: set `DoneIrq` -/
  | enableIrq
  /-- DPC: exchange `SpbRequest` with null -/
  | dpcExchange
  /-- DPC: `WdfRequestUnmarkCancelable` -/
  | dpcUnmark (r : Nat)
  /-- DPC: `processRequestCompletion`, then `TransferState = INVALID` -/
  | dpcFinish (r : Nat)
  /-- DPC: `SpbRequestComplete` -/
  | dpcComplete (r : Nat)
  /-- cancel callback: `abortTransfer` -/
  | cancelAbort (r : Nat)
  /-- cancel callback: `SpbRequestComplete` -/
  | cancelComplete (r : Nat)
  deriving DecidableEq

/-- The device and the framework. `completed` is the log of completions. -/
structure Controller where
  /-- requests `0, .., presented - 1` have been handed to the controller -/
  presented : Nat
  /-- `Request.SpbRequest` -/
  spbRequest : Option Nat
  /-- `Request.TransferState` -/
  transferState : TransferState
  /-- `Cntl1Reg.DoneIrq` -/
  doneIrq : Bool
  dpcQueued : Bool
  mark : Nat → Cancelability
  /-- the request was cancelled while it was not cancelable -/
  cancelRequested : Nat → Bool
  completed : List Nat
  running : List CallbackStep

namespace Controller

/-- `SpbRequestComplete` -/
def complete (s : Controller) (r : Nat) : Controller := { s with completed := s.completed ++ [r] }

/-- A callback goes on to its next step, or returns when `next` is `none`. -/
def goOn (s : Controller) (p : CallbackStep) (next : Option CallbackStep) : Controller :=
  { s with running := advance s.running p next.toList }

def setMark (s : Controller) (r : Nat) (c : Cancelability) : Controller :=
  { s with mark := Function.update s.mark r c }

/-- A transfer callback prepares the request context and goes on to mark the request. -/
def startTransfer (s : Controller) (kind : TransferKind) : Controller :=
  { s with
    presented := s.presented + 1
    spbRequest := some s.presented
    transferState := kind.start
    running := .markCancelable s.presented :: s.running }

/-- A request the controller completes at once: a lock or unlock, or one that fails validation. -/
def answerAtOnce (s : Controller) : Controller :=
  { s with presented := s.presented + 1, completed := s.completed ++ [s.presented] }

/-- The next atomic step of a callback under way. -/
def runStep (s : Controller) : CallbackStep → Controller
  | .markCancelable r =>
    if s.cancelRequested r then s.goOn (.markCancelable r) (some (.startAbort r))
    else (s.setMark r .marked).goOn (.markCancelable r) (some .enableIrq)
  -- abortTransfer does not clear SpbRequest
  | .startAbort r =>
    { s.goOn (.startAbort r) (some (.startComplete r)) with transferState := .invalid }
  | .startComplete r => (s.complete r).goOn (.startComplete r) none
  | .enableIrq => { s.goOn .enableIrq none with doneIrq := true }
  | .dpcExchange =>
    match s.spbRequest with
    | none => s.goOn .dpcExchange none
    | some r => { s.goOn .dpcExchange (some (.dpcUnmark r)) with spbRequest := none }
  | .dpcUnmark r =>
    match s.mark r with
    | .marked => (s.setMark r .unmarked).goOn (.dpcUnmark r) (some (.dpcFinish r))
    -- any other error: the DPC completes the request with it
    | .unmarked => s.goOn (.dpcUnmark r) (some (.dpcComplete r))
    -- STATUS_CANCELLED: the DPC returns
    | .cancelling | .called => s.goOn (.dpcUnmark r) none
  | .dpcFinish r =>
    { s.goOn (.dpcFinish r) (some (.dpcComplete r)) with transferState := .invalid }
  | .dpcComplete r => (s.complete r).goOn (.dpcComplete r) none
  | .cancelAbort r =>
    { s.goOn (.cancelAbort r) (some (.cancelComplete r)) with transferState := .invalid }
  | .cancelComplete r => (s.complete r).goOn (.cancelComplete r) none

/-- `EvtInterruptIsr` with its register writes. -/
def interrupt (s : Controller) (allBytes : Bool) : Controller :=
  match evtInterruptIsr s.transferState allBytes with
  | .goesOn state => { s with transferState := state }
  | .finished => { s with doneIrq := false, dpcQueued := true }
  | .spurious => { s with doneIrq := false }

/-- The framework calls `EvtRequestCancel`, which exchanges `SpbRequest` with null and, if it
got a request, disables the interrupt and goes on to abort and complete. -/
def evtRequestCancel (s : Controller) (r : Nat) : Controller :=
  let s := s.setMark r .called
  match s.spbRequest with
  | none => s
  | some _ =>
    { s with spbRequest := none, doneIrq := false, running := .cancelAbort r :: s.running }

/-- Somebody cancels the request: a marked one is committed to its cancel callback. -/
def cancel (s : Controller) (r : Nat) : Controller :=
  if s.mark r = .marked then s.setMark r .cancelling
  else { s with cancelRequested := Function.update s.cancelRequested r true }

end Controller

/-- The atomic steps of the framework, the hardware and the callbacks. -/
inductive AuxAction
  | startTransfer (kind : TransferKind)
  | answerAtOnce
  | run (p : CallbackStep)
  | interrupt (allBytes : Bool)
  | dpc
  | cancel (r : Nat)
  | evtRequestCancel (r : Nat)

/-- When a step can happen. -/
def auxEnabled (s : Controller) : AuxAction → Prop
  | .startTransfer _ | .answerAtOnce => ∀ r < s.presented, r ∈ s.completed
  | .run p => p ∈ s.running
  | .interrupt _ => s.doneIrq = true
  | .dpc => s.dpcQueued = true
  | .cancel r => r < s.presented ∧ r ∉ s.completed
  | .evtRequestCancel r => s.mark r = .cancelling

instance : ∀ s a, Decidable (auxEnabled s a)
  | _, .startTransfer _ | _, .answerAtOnce => inferInstanceAs (Decidable (∀ _ < _, _))
  | _, .run _ => inferInstanceAs (Decidable (_ ∈ _))
  | _, .interrupt _ | _, .dpc | _, .evtRequestCancel _ => inferInstanceAs (Decidable (_ = _))
  | _, .cancel _ => inferInstanceAs (Decidable (_ ∧ _))

/-- What a step does. -/
def auxEffect (s : Controller) : AuxAction → Controller
  | .startTransfer kind => s.startTransfer kind
  | .answerAtOnce => s.answerAtOnce
  | .run p => s.runStep p
  | .interrupt allBytes => s.interrupt allBytes
  | .dpc => { s with dpcQueued := false, running := .dpcExchange :: s.running }
  | .cancel r => s.cancel r
  | .evtRequestCancel r => s.evtRequestCancel r

/-- The controller before its first request. -/
def Controller.start : Controller where
  presented := 0
  spbRequest := none
  transferState := .invalid
  doneIrq := false
  dpcQueued := false
  mark _ := .unmarked
  cancelRequested _ := false
  completed := []
  running := []

/-- The controller as an interleaving of atomic steps. -/
def auxMachine : Machine Controller AuxAction :=
  Machine.guarded (· = Controller.start) auxEnabled auxEffect

/-! ## The property and the condition -/

/-- Nothing is left to happen: no callback is under way or queued, the interrupt is
disabled, and the framework owes no cancel callback. -/
structure Controller.Quiet (s : Controller) : Prop where
  running : s.running = []
  dpcQueued : s.dpcQueued = false
  doneIrq : s.doneIrq = false
  callbacks : ∀ r, s.mark r ≠ .cancelling

/-- Every request is completed exactly once. -/
structure CompletedOnce (s : Controller) : Prop where
  atMostOnce : ∀ r, s.completed.count r ≤ 1
  settled : s.Quiet → ∀ r < s.presented, s.completed.count r = 1

/-- The DPC takes a request only while it is marked and no cancellation is committed, and
no cancellation is committed between the exchange of the DPC and its unmark. -/
def NotCancelling (s : Controller) : AuxAction → Prop
  | .run .dpcExchange => ∀ r, s.spbRequest = some r → s.mark r = .marked
  | .cancel r => .dpcUnmark r ∉ s.running
  | _ => True

/-! ## The invariant -/

/-- The step of a callback that owns the request, as a number. -/
def CallbackStep.owns (r : Nat) : CallbackStep → Nat
  | .markCancelable r' | .startAbort r' | .startComplete r' | .dpcUnmark r' | .dpcFinish r'
  | .dpcComplete r' | .cancelAbort r' | .cancelComplete r' => if r' = r then 1 else 0
  | .enableIrq | .dpcExchange => 0

/-- The request is owned through `SpbRequest`: the DPC or the cancel callback will take it. -/
def Controller.live (s : Controller) (r : Nat) : Nat :=
  if s.spbRequest = some r ∧ (s.mark r = .marked ∨ s.mark r = .cancelling) then 1 else 0

/-- What every state of an undisturbed run satisfies. -/
structure OwnerInv (s : Controller) : Prop where
  earlier : ∀ r, r + 1 < s.presented → r ∈ s.completed
  /-- a request presented is completed, or owned by one callback, or owned through
  `SpbRequest` -/
  token : ∀ r, s.completed.count r + total (CallbackStep.owns r) s.running + s.live r =
    if r < s.presented then 1 else 0
  fresh : ∀ r, s.presented ≤ r → s.mark r = .unmarked
  marking : ∀ r, .markCancelable r ∈ s.running → s.spbRequest = some r ∧ s.mark r = .unmarked
  unmarking : ∀ r, .dpcUnmark r ∈ s.running → s.mark r = .marked
  owned : ∀ r, s.mark r = .marked → s.spbRequest = some r ∨ .dpcUnmark r ∈ s.running
  committed : ∀ r, s.mark r = .cancelling → s.spbRequest = some r
  active : ∀ r, s.spbRequest = some r ∧ s.mark r = .marked ∨ .markCancelable r ∈ s.running →
    s.transferState ≠ .invalid
  /-- the DPC will run for a marked request -/
  awaited : ∀ r, s.spbRequest = some r → s.mark r = .marked →
    .enableIrq ∈ s.running ∨ s.doneIrq = true ∨ s.dpcQueued = true ∨ .dpcExchange ∈ s.running

theorem ownerInv_init : OwnerInv Controller.start where
  earlier r hr := by simp [Controller.start] at hr
  token r := by simp [Controller.start, Controller.live]
  fresh _ _ := rfl
  marking r hr := by simp [Controller.start] at hr
  unmarking r hr := by simp [Controller.start] at hr
  owned r hr := by simp [Controller.start] at hr
  committed r hr := by simp [Controller.start] at hr
  active r hr := by simp [Controller.start] at hr
  awaited r hr := by simp [Controller.start] at hr

/-- The property is read off the invariant. -/
theorem OwnerInv.completedOnce {s : Controller} (h : OwnerInv s) : CompletedOnce s where
  atMostOnce r := by
    have := h.token r
    split at this <;> omega
  settled hq r hr := by
    have htoken := h.token r
    have hlive : s.live r = 0 := by
      refine if_neg fun hl => ?_
      rcases hl.2 with hm | hc
      · have := h.awaited r hl.1 hm
        simp [hq.running, hq.doneIrq, hq.dpcQueued] at this
      · exact hq.callbacks r hc
    rw [if_pos hr, hq.running, hlive] at htoken
    simpa using htoken

/-- A completed request is owned by nobody. -/
theorem OwnerInv.of_completed {s : Controller} (h : OwnerInv s) {r : Nat}
    (hr : r ∈ s.completed) :
    r < s.presented ∧ total (CallbackStep.owns r) s.running = 0 ∧ s.live r = 0 := by
  have htoken := h.token r
  have hpos := List.count_pos_iff.2 hr
  split at htoken
  · exact ⟨by assumption, by omega, by omega⟩
  · omega

/-- The owner of a request is the only one, and the request is the last presented. -/
theorem OwnerInv.sole {s : Controller} (h : OwnerInv s) {p : CallbackStep} {r : Nat}
    (hp : p ∈ s.running) (hr : p.owns r = 1) :
    r + 1 = s.presented ∧ r ∉ s.completed ∧ (∀ r', s.live r' = 0) ∧
      ∀ q ∈ s.running.erase p, ∀ r', q.owns r' = 0 := by
  have hle := le_total (CallbackStep.owns r) hp
  have htoken := h.token r
  split at htoken
  case isFalse => omega
  next hlt =>
  have hnot : r ∉ s.completed := fun hc => by
    have := (h.of_completed hc).2.1
    omega
  have hlast : r + 1 = s.presented := by
    by_contra hne
    exact hnot (h.earlier r (by omega))
  -- whoever else is owned is the last one presented too
  have hothers : ∀ r', r' ≠ r → total (CallbackStep.owns r') s.running + s.live r' = 0 := by
    intro r' hne
    have htoken' := h.token r'
    split at htoken'
    · have hpos := List.count_pos_iff.2 (h.earlier r' (by omega))
      omega
    · omega
  refine ⟨hlast, hnot, fun r' => ?_, fun q hq r' => ?_⟩
  · by_cases heq : r' = r
    · subst heq
      omega
    · have := hothers r' heq
      omega
  · by_cases heq : r' = r
    · subst heq
      have hsum := sum_advance (CallbackStep.owns r') hp []
      have := le_total (CallbackStep.owns r') hq
      simp only [advance, List.nil_append, total_nil] at hsum
      omega
    · have := hothers r' heq
      have := le_total (CallbackStep.owns r') (List.mem_of_mem_erase hq)
      omega

/-- While a callback other than a DPC before its unmark owns a request, none is marked. -/
theorem OwnerInv.noneMarked {s : Controller} (h : OwnerInv s) {p : CallbackStep} {r : Nat}
    (hp : p ∈ s.running) (hr : p.owns r = 1) (hnot : ∀ r', p ≠ .dpcUnmark r') (r' : Nat) :
    s.mark r' ≠ .marked := by
  obtain ⟨-, -, hlive, hothers⟩ := h.sole hp hr
  intro hm
  rcases h.owned r' hm with hspb | hdpc
  · have := hlive r'
    simp [Controller.live, hspb, hm] at this
  · have hmem := (List.mem_erase_of_ne (Ne.symm (hnot r'))).2 hdpc
    have := hothers _ hmem r'
    simp [CallbackStep.owns] at this

/-! ## The invariant is preserved by each step -/

theorem ownerInv_startTransfer {s : Controller} (h : OwnerInv s) (kind : TransferKind)
    (hen : ∀ r < s.presented, r ∈ s.completed) : OwnerInv (s.startTransfer kind) := by
  -- every request before has been completed, so nobody owns one
  have hidle : ∀ r, total (CallbackStep.owns r) s.running = 0 ∧ s.live r = 0 := by
    intro r
    by_cases hr : r < s.presented
    · exact (h.of_completed (hen r hr)).2
    · have := h.token r
      rw [if_neg hr] at this
      omega
  have hnone : ∀ {p r}, p ∈ s.running → CallbackStep.owns r p = 0 := fun {p r} hp => by
    have := le_total (CallbackStep.owns r) hp
    have := (hidle r).1
    omega
  have hfresh : s.mark s.presented = .unmarked := h.fresh _ (le_refl _)
  constructor <;> simp only [Controller.startTransfer]
  · exact fun r hr => hen r (by omega)
  · intro r
    have htoken := h.token r
    have hlive : Controller.live (s.startTransfer kind) r = 0 := by
      refine if_neg fun hl => ?_
      obtain rfl : s.presented = r := Option.some.inj hl.1
      simp [Controller.startTransfer, hfresh] at hl
    rw [(hidle r).1, (hidle r).2] at htoken
    rw [total_cons, (hidle r).1]
    show s.completed.count r + _ + Controller.live (s.startTransfer kind) r =
      if r < s.presented + 1 then 1 else 0
    rw [hlive]
    by_cases heq : r = s.presented
    · subst heq
      simp [CallbackStep.owns] at htoken ⊢
      omega
    · simp only [CallbackStep.owns, Ne.symm heq, if_false]
      split at htoken <;> split <;> omega
  · exact fun r hr => h.fresh r (by omega)
  · intro r hr
    rcases List.mem_cons.1 hr with heq | hmem
    · injection heq with heq
      exact ⟨by rw [heq], by rw [heq]; exact hfresh⟩
    · have := hnone hmem (r := r)
      simp [CallbackStep.owns] at this
  · intro r hr
    rcases List.mem_cons.1 hr with heq | hmem
    · nomatch heq
    · exact h.unmarking r hmem
  · intro r hm
    rcases h.owned r hm with hspb | hdpc
    · have := (hidle r).2
      simp [Controller.live, hspb, hm] at this
    · exact .inr (List.mem_cons_of_mem _ hdpc)
  · intro r hc
    have := (hidle r).2
    simp [Controller.live, h.committed r hc, hc] at this
  · intro r _
    cases kind with
    | sequence allWritten => cases allWritten <;> exact nofun
    | read | write | fullDuplex => exact nofun
  · intro r hspb hm
    obtain rfl : s.presented = r := Option.some.inj hspb
    rw [hfresh] at hm
    nomatch hm

theorem ownerInv_answerAtOnce {s : Controller} (h : OwnerInv s)
    (hen : ∀ r < s.presented, r ∈ s.completed) : OwnerInv s.answerAtOnce := by
  constructor <;> simp only [Controller.answerAtOnce]
  · exact fun r hr => List.mem_append_left _ (hen r (by omega))
  · intro r
    have htoken := h.token r
    show (s.completed ++ [s.presented]).count r + _ + s.live r =
      if r < s.presented + 1 then 1 else 0
    rw [List.count_append, List.count_singleton]
    by_cases heq : r = s.presented
    · subst heq
      simp at htoken ⊢
      omega
    · simp only [beq_iff_eq, Ne.symm heq, if_false]
      split at htoken <;> split <;> omega
  · exact fun r hr => h.fresh r (by omega)
  · exact h.marking
  · exact h.unmarking
  · exact h.owned
  · exact h.committed
  · exact h.active
  · exact h.awaited

/-- A callback that owns a request goes on to another step that owns it, and may set the
transfer state: nobody else depends on it. -/
theorem ownerInv_pass {s : Controller} (h : OwnerInv s) {p q : CallbackStep} {r : Nat}
    {state : TransferState} (hp : p ∈ s.running) (hr : p.owns r = 1)
    (howns : ∀ r', q.owns r' = p.owns r') (hp' : ∀ r', p ≠ .dpcUnmark r')
    (hmark : ∀ r', q ≠ .markCancelable r') (hunmark : ∀ r', q ≠ .dpcUnmark r') :
    OwnerInv { s.goOn p (some q) with transferState := state } := by
  obtain ⟨-, -, -, hothers⟩ := h.sole hp hr
  have hnone := h.noneMarked hp hr hp'
  have hmem : ∀ {x r'}, x ∈ advance s.running p [q] → CallbackStep.owns r' x = 1 → x = q := by
    intro x r' hx hown
    rcases List.mem_append.1 hx with hq | herase
    · exact List.mem_singleton.1 hq
    · have := hothers x herase r'
      omega
  constructor <;> simp only [Controller.goOn, Option.toList_some]
  · exact h.earlier
  · intro r'
    have hsum := sum_advance (CallbackStep.owns r') hp [q]
    have htoken := h.token r'
    simp only [total_cons, total_nil, howns r'] at hsum
    show s.completed.count r' + total _ (advance s.running p [q]) + s.live r' =
      if r' < s.presented then 1 else 0
    omega
  · exact h.fresh
  · exact fun r' hr' => absurd (hmem hr' (if_pos rfl)).symm (hmark r')
  · exact fun r' hr' => absurd (hmem hr' (if_pos rfl)).symm (hunmark r')
  · exact fun r' hm => absurd hm (hnone r')
  · exact h.committed
  · rintro r' (⟨-, hm⟩ | hmarking)
    · exact absurd hm (hnone r')
    · exact absurd (hmem hmarking (if_pos rfl)).symm (hmark r')
  · exact fun r' _ hm => absurd hm (hnone r')

/-- The owner of a request completes it and returns. -/
theorem ownerInv_complete {s : Controller} (h : OwnerInv s) {p : CallbackStep} {r : Nat}
    (hp : p ∈ s.running) (hr : ∀ r', p.owns r' = if r = r' then 1 else 0)
    (hp' : ∀ r', p ≠ .dpcUnmark r') : OwnerInv ((s.complete r).goOn p none) := by
  have hown : p.owns r = 1 := by rw [hr r, if_pos rfl]
  obtain ⟨-, -, -, hothers⟩ := h.sole hp hown
  have hnone := h.noneMarked hp hown hp'
  have hmem : ∀ {x} r', x ∈ advance s.running p [] → CallbackStep.owns r' x ≠ 1 := by
    intro x r' hx hx1
    have := hothers x hx r'
    omega
  constructor <;> simp only [Controller.complete, Controller.goOn, Option.toList_none]
  · exact fun r' hr' => List.mem_append_left _ (h.earlier r' hr')
  · intro r'
    have hsum := sum_advance (CallbackStep.owns r') hp []
    have htoken := h.token r'
    rw [hr r', total_nil] at hsum
    show (s.completed ++ [r]).count r' + total _ (advance s.running p []) + s.live r' =
      if r' < s.presented then 1 else 0
    rw [List.count_append, List.count_singleton]
    by_cases heq : r = r'
    · subst heq
      simp only [beq_self_eq_true, if_true] at hsum ⊢
      omega
    · simp only [beq_iff_eq, heq, if_false] at hsum ⊢
      omega
  · exact h.fresh
  · exact fun r' hr' => absurd (if_pos rfl) (hmem r' hr')
  · exact fun r' hr' => absurd (if_pos rfl) (hmem r' hr')
  · exact fun r' hm => absurd hm (hnone r')
  · exact h.committed
  · rintro r' (⟨-, hm⟩ | hmarking)
    · exact absurd hm (hnone r')
    · exact absurd (if_pos rfl) (hmem r' hmarking)
  · exact fun r' _ hm => absurd hm (hnone r')

/-- Marking hands the request from the start callback to `SpbRequest`. -/
theorem ownerInv_mark {s : Controller} (h : OwnerInv s) {r : Nat}
    (hp : .markCancelable r ∈ s.running) :
    OwnerInv ((s.setMark r .marked).goOn (.markCancelable r) (some .enableIrq)) := by
  have hown : (CallbackStep.markCancelable r).owns r = 1 := if_pos rfl
  -- the callback is the only owner, and the request goes from it to the device
  obtain ⟨hlast, -, hlive, hothers⟩ := h.sole hp hown
  have hnone := h.noneMarked hp hown nofun
  have hspb := (h.marking r hp).1
  have hactive := h.active r (.inr hp)
  have hmem : ∀ {x} r', x ∈ advance s.running (.markCancelable r) [.enableIrq] →
      CallbackStep.owns r' x ≠ 1 := by
    intro x r' hx hx1
    rcases List.mem_append.1 hx with hq | herase
    · rw [List.mem_singleton.1 hq] at hx1
      nomatch hx1
    · have := hothers x herase r'
      omega
  constructor <;> simp only [Controller.setMark, Controller.goOn, Option.toList_some]
  · exact h.earlier
  · intro r'
    have hsum := sum_advance (CallbackStep.owns r') hp [.enableIrq]
    have htoken := h.token r'
    have hzero : (CallbackStep.enableIrq).owns r' = 0 := rfl
    simp only [total_cons, total_nil, hzero] at hsum
    show s.completed.count r' + total _ (advance s.running _ _) +
      (if s.spbRequest = some r' ∧ (Function.update s.mark r .marked r' = .marked ∨
        Function.update s.mark r .marked r' = .cancelling) then 1 else 0) =
      if r' < s.presented then 1 else 0
    rw [hlive r'] at htoken
    by_cases heq : r' = r
    · subst heq
      rw [hown] at hsum
      simp only [hspb, Function.update_self, true_and, true_or, if_true]
      omega
    · have hne : s.spbRequest ≠ some r' := by
        rw [hspb]
        exact fun he => heq (Option.some.inj he).symm
      have : (CallbackStep.markCancelable r).owns r' = 0 := if_neg (Ne.symm heq)
      simp only [hne, false_and, if_false]
      omega
  · intro r' hr'
    rw [Function.update_of_ne (by omega)]
    exact h.fresh r' hr'
  · exact fun r' hr' => absurd (if_pos rfl) (hmem r' hr')
  · exact fun r' hr' => absurd (if_pos rfl) (hmem r' hr')
  · intro r' hm
    by_cases heq : r' = r
    · exact .inl (heq ▸ hspb)
    · rw [Function.update_of_ne heq] at hm
      exact absurd hm (hnone r')
  · intro r' hc
    by_cases heq : r' = r
    · exact heq ▸ hspb
    · rw [Function.update_of_ne heq] at hc
      exact h.committed r' hc
  · exact fun _ _ => hactive
  · exact fun _ _ _ => .inl (List.mem_append_left _ (List.mem_singleton_self _))

/-- A step that leaves the request, the marks and the owners as they are, and still lets the
DPC run for a marked request. -/
theorem OwnerInv.of_same {s s' : Controller} (h : OwnerInv s)
    (hpresented : s'.presented = s.presented) (hspb : s'.spbRequest = s.spbRequest)
    (hmark : s'.mark = s.mark) (hcompleted : s'.completed = s.completed)
    (htotal : ∀ r, total (CallbackStep.owns r) s'.running = total (CallbackStep.owns r) s.running)
    (hmem : ∀ p r, CallbackStep.owns r p = 1 → (p ∈ s'.running ↔ p ∈ s.running))
    (hstate : s.transferState ≠ .invalid → s'.transferState ≠ .invalid)
    (hawaited : ∀ r, s.spbRequest = some r → s.mark r = .marked →
      .enableIrq ∈ s'.running ∨ s'.doneIrq = true ∨ s'.dpcQueued = true ∨
        .dpcExchange ∈ s'.running) :
    OwnerInv s' where
  earlier r hr := by
    rw [hpresented] at hr
    rw [hcompleted]
    exact h.earlier r hr
  token r := by
    have hlive : s'.live r = s.live r := by rw [Controller.live, Controller.live, hspb, hmark]
    rw [hcompleted, htotal, hlive, h.token r]
    simp only [hpresented]
  fresh r hr := by
    rw [hpresented] at hr
    rw [hmark]
    exact h.fresh r hr
  marking r hr := by
    rw [hspb, hmark]
    exact h.marking r ((hmem (.markCancelable r) r (if_pos rfl)).1 hr)
  unmarking r hr := by
    rw [hmark]
    exact h.unmarking r ((hmem (.dpcUnmark r) r (if_pos rfl)).1 hr)
  owned r hm := by
    rw [hmark] at hm
    rw [hspb]
    exact (h.owned r hm).imp_right (hmem (.dpcUnmark r) r (if_pos rfl)).2
  committed r hc := by
    rw [hmark] at hc
    rw [hspb]
    exact h.committed r hc
  active r hr := by
    rw [hspb, hmark] at hr
    exact hstate (h.active r (hr.imp_right (hmem (.markCancelable r) r (if_pos rfl)).1))
  awaited r hr hm := by
    rw [hspb] at hr
    rw [hmark] at hm
    exact hawaited r hr hm

/-- A callback that owns nothing returns. -/
theorem total_return {s : Controller} {p : CallbackStep} (hp : p ∈ s.running)
    (hp0 : ∀ r, p.owns r = 0) (r : Nat) :
    total (CallbackStep.owns r) (advance s.running p []) = total (CallbackStep.owns r) s.running := by
  have hsum := sum_advance (CallbackStep.owns r) hp []
  rw [hp0 r, total_nil] at hsum
  omega

theorem mem_return {s : Controller} {p q : CallbackStep} {r : Nat} (hp0 : ∀ r, p.owns r = 0)
    (hq : q.owns r = 1) : q ∈ advance s.running p [] ↔ q ∈ s.running := by
  have hne : q ≠ p := by
    rintro rfl
    rw [hp0 r] at hq
    nomatch hq
  exact ⟨fun h => (mem_advance h).resolve_left List.not_mem_nil, fun h => mem_advance_of_ne h hne⟩

theorem ownerInv_enableIrq {s : Controller} (h : OwnerInv s) (hp : .enableIrq ∈ s.running) :
    OwnerInv { s.goOn .enableIrq none with doneIrq := true } :=
  h.of_same rfl rfl rfl rfl (total_return hp fun _ => rfl) (fun _ _ => mem_return fun _ => rfl) id
    fun _ _ _ => .inr (.inl rfl)

/-- The exchange of the DPC hands a marked request from `SpbRequest` to the DPC. -/
theorem ownerInv_dpcExchange {s : Controller} (h : OwnerInv s) (hp : .dpcExchange ∈ s.running)
    (hok : ∀ r, s.spbRequest = some r → s.mark r = .marked) :
    OwnerInv (s.runStep .dpcExchange) := by
  simp only [Controller.runStep]
  cases hspb : s.spbRequest with
  | none =>
    refine h.of_same rfl rfl rfl rfl (total_return hp fun _ => rfl)
      (fun _ _ => mem_return fun _ => rfl) id fun r hr => ?_
    rw [hspb] at hr
    nomatch hr
  | some r =>
    have hm := hok r hspb
    -- the request is marked, so no callback is about to mark it
    have hmarking : ∀ r', .markCancelable r' ∈ s.running → False := by
      intro r' hr'
      obtain ⟨hspb', hun⟩ := h.marking r' hr'
      obtain rfl : r = r' := Option.some.inj (hspb.symm.trans hspb')
      rw [hm] at hun
      nomatch hun
    have hnot : ∀ r', .markCancelable r' ∉ advance s.running .dpcExchange [.dpcUnmark r] := by
      intro r' hr'
      rcases mem_advance hr' with hq | hq
      · exact nomatch List.mem_singleton.1 hq
      · exact hmarking r' hq
    constructor <;> simp only [Controller.goOn, Option.toList_some]
    · exact h.earlier
    · intro r'
      have hsum := sum_advance (CallbackStep.owns r') hp [.dpcUnmark r]
      have htoken := h.token r'
      have hzero : (CallbackStep.dpcExchange).owns r' = 0 := rfl
      simp only [total_cons, total_nil, hzero] at hsum
      have hlive : s.live r' = (CallbackStep.dpcUnmark r).owns r' := by
        rw [Controller.live, CallbackStep.owns, hspb]
        by_cases heq : r = r'
        · subst heq
          simp [hm]
        · simp [heq]
      show s.completed.count r' + total _ (advance s.running _ _) + 0 =
        if r' < s.presented then 1 else 0
      omega
    · exact h.fresh
    · exact fun r' hr' => absurd hr' (hnot r')
    · intro r' hr'
      rcases mem_advance hr' with hq | hq
      · injection List.mem_singleton.1 hq with heq
        rw [heq]
        exact hm
      · exact h.unmarking r' hq
    · intro r' hm'
      rcases h.owned r' hm' with hspb' | hdpc
      · obtain rfl : r = r' := Option.some.inj (hspb.symm.trans hspb')
        exact .inr (List.mem_append_left _ (List.mem_singleton_self _))
      · exact .inr (mem_advance_of_ne hdpc nofun)
    · intro r' hc
      obtain rfl : r = r' := Option.some.inj (hspb.symm.trans (h.committed r' hc))
      rw [hm] at hc
      nomatch hc
    · rintro r' (⟨hspb', -⟩ | hr')
      · nomatch hspb'
      · exact absurd hr' (hnot r')
    · exact fun _ hspb' => nomatch hspb'

/-- The DPC unmarks its request: no cancellation is committed, so it succeeds. -/
theorem ownerInv_dpcUnmark {s : Controller} (h : OwnerInv s) {r : Nat}
    (hp : .dpcUnmark r ∈ s.running) : OwnerInv (s.runStep (.dpcUnmark r)) := by
  have hm := h.unmarking r hp
  have hown : (CallbackStep.dpcUnmark r).owns r = 1 := if_pos rfl
  obtain ⟨hlast, -, hlive, hothers⟩ := h.sole hp hown
  -- nothing else works for the request, and no other one is marked
  have hmem : ∀ {x r'}, x ∈ advance s.running (.dpcUnmark r) [.dpcFinish r] →
      CallbackStep.owns r' x = 1 → x = .dpcFinish r := by
    intro x r' hx hx1
    rcases List.mem_append.1 hx with hq | herase
    · exact List.mem_singleton.1 hq
    · have := hothers x herase r'
      omega
  have hmarked : ∀ r', r' ≠ r → s.mark r' ≠ .marked := by
    intro r' hne hm'
    rcases h.owned r' hm' with hspb | hdpc
    · have := hlive r'
      simp [Controller.live, hspb, hm'] at this
    · have hq : CallbackStep.dpcUnmark r' ∈ s.running.erase (.dpcUnmark r) :=
        (List.mem_erase_of_ne (by simp [hne])).2 hdpc
      have := hothers _ hq r'
      simp [CallbackStep.owns] at this
  simp only [Controller.runStep, hm]
  constructor <;> simp only [Controller.setMark, Controller.goOn, Option.toList_some]
  · exact h.earlier
  · intro r'
    have hsum := sum_advance (CallbackStep.owns r') hp [.dpcFinish r]
    have htoken := h.token r'
    have hsame : (CallbackStep.dpcFinish r).owns r' = (CallbackStep.dpcUnmark r).owns r' := rfl
    simp only [total_cons, total_nil, hsame] at hsum
    have hlive' : (if s.spbRequest = some r' ∧ (Function.update s.mark r .unmarked r' = .marked ∨
        Function.update s.mark r .unmarked r' = .cancelling) then 1 else 0) = 0 := by
      by_cases heq : r' = r
      · subst heq
        simp
      · rw [Function.update_of_ne heq]
        exact hlive r'
    rw [hlive r'] at htoken
    show s.completed.count r' + total _ (advance s.running _ _) + (if _ then 1 else 0) =
      if r' < s.presented then 1 else 0
    rw [hlive']
    omega
  · intro r' hr'
    rw [Function.update_of_ne (by omega)]
    exact h.fresh r' hr'
  · exact fun r' hr' => nomatch hmem hr' (if_pos rfl)
  · exact fun r' hr' => nomatch hmem hr' (if_pos rfl)
  · intro r' hm'
    by_cases heq : r' = r
    · rw [heq, Function.update_self] at hm'
      nomatch hm'
    · rw [Function.update_of_ne heq] at hm'
      exact absurd hm' (hmarked r' heq)
  · intro r' hc
    by_cases heq : r' = r
    · rw [heq, Function.update_self] at hc
      nomatch hc
    · rw [Function.update_of_ne heq] at hc
      exact h.committed r' hc
  · rintro r' (⟨-, hm'⟩ | hr')
    · by_cases heq : r' = r
      · rw [heq, Function.update_self] at hm'
        nomatch hm'
      · rw [Function.update_of_ne heq] at hm'
        exact absurd hm' (hmarked r' heq)
    · exact nomatch hmem hr' (if_pos rfl)
  · intro r' _ hm'
    by_cases heq : r' = r
    · rw [heq, Function.update_self] at hm'
      nomatch hm'
    · rw [Function.update_of_ne heq] at hm'
      exact absurd hm' (hmarked r' heq)

/-- The cancel callback finds its request in `SpbRequest` and becomes its owner. -/
theorem ownerInv_evtRequestCancel {s : Controller} (h : OwnerInv s) {r : Nat}
    (hen : s.mark r = .cancelling) : OwnerInv (s.evtRequestCancel r) := by
  have hspb := h.committed r hen
  have hpresented : r < s.presented := by
    by_contra hge
    rw [h.fresh r (by omega)] at hen
    nomatch hen
  -- the request is live, so no callback owns any
  have hlive : s.live r = 1 := if_pos ⟨hspb, .inr hen⟩
  have hnone : ∀ {p r'}, p ∈ s.running → CallbackStep.owns r' p ≠ 1 := by
    intro p r' hp hp1
    have := (h.sole hp hp1).2.2.1 r
    omega
  have hmarked : ∀ r', Function.update s.mark r .called r' ≠ .marked := by
    intro r' hm
    by_cases heq : r' = r
    · rw [heq, Function.update_self] at hm
      nomatch hm
    · rw [Function.update_of_ne heq] at hm
      rcases h.owned r' hm with hspb' | hdpc
      · exact heq (Option.some.inj (hspb'.symm.trans hspb))
      · exact hnone hdpc (if_pos rfl)
  have hstate : s.evtRequestCancel r = { s.setMark r .called with
      spbRequest := none, doneIrq := false, running := .cancelAbort r :: s.running } := by
    simp only [Controller.evtRequestCancel, Controller.setMark, hspb]
  have hmem : ∀ {x r'}, x ∈ CallbackStep.cancelAbort r :: s.running →
      CallbackStep.owns r' x = 1 → x = .cancelAbort r := by
    intro x r' hx hx1
    exact (List.mem_cons.1 hx).resolve_right fun hx' => hnone hx' hx1
  rw [hstate]
  constructor <;> simp only [Controller.setMark]
  · exact h.earlier
  · intro r'
    have htoken := h.token r'
    show s.completed.count r' + total _ (.cancelAbort r :: s.running) + 0 =
      if r' < s.presented then 1 else 0
    have hlive' : s.live r' = (CallbackStep.cancelAbort r).owns r' := by
      rw [Controller.live, CallbackStep.owns, hspb]
      by_cases heq : r = r'
      · subst heq
        simp [hen]
      · simp [heq]
    rw [total_cons]
    omega
  · intro r' hr'
    rw [Function.update_of_ne (by omega)]
    exact h.fresh r' hr'
  · exact fun r' hr' => nomatch hmem hr' (if_pos rfl)
  · exact fun r' hr' => nomatch hmem hr' (if_pos rfl)
  · exact fun r' hm => absurd hm (hmarked r')
  · intro r' hc
    by_cases heq : r' = r
    · rw [heq, Function.update_self] at hc
      nomatch hc
    · rw [Function.update_of_ne heq] at hc
      exact absurd (Option.some.inj ((h.committed r' hc).symm.trans hspb)) heq
  · rintro r' (⟨-, hm⟩ | hr')
    · exact absurd hm (hmarked r')
    · exact nomatch hmem hr' (if_pos rfl)
  · exact fun r' _ hm => absurd hm (hmarked r')

/-- The interrupt of a transfer under way never disables itself without queueing the DPC. -/
theorem ownerInv_interrupt {s : Controller} (h : OwnerInv s) (hen : s.doneIrq = true)
    (allBytes : Bool) : OwnerInv (s.interrupt allBytes) := by
  have hvalid : ∀ state, evtInterruptIsr s.transferState allBytes = .goesOn state →
      state ≠ .invalid := by
    intro state hstate
    cases hts : s.transferState <;> cases allBytes <;>
      simp only [hts, evtInterruptIsr, Bool.false_eq_true, if_true, if_false] at hstate <;>
      cases hstate <;> exact nofun
  have hspurious : evtInterruptIsr s.transferState allBytes = .spurious →
      s.transferState = .invalid := by
    intro hs
    cases hts : s.transferState <;> cases allBytes <;>
      simp only [hts, evtInterruptIsr, Bool.false_eq_true, if_true, if_false] at hs <;>
      cases hs <;> rfl
  unfold Controller.interrupt
  split
  · next state hstate =>
    exact h.of_same rfl rfl rfl rfl (fun _ => rfl) (fun _ _ _ => Iff.rfl)
      (fun _ => hvalid state hstate) fun r hr hm => .inr (.inl hen)
  · exact h.of_same rfl rfl rfl rfl (fun _ => rfl) (fun _ _ _ => Iff.rfl) id
      fun r hr hm => .inr (.inr (.inl rfl))
  · next hs =>
    exact h.of_same rfl rfl rfl rfl (fun _ => rfl) (fun _ _ _ => Iff.rfl) id
      fun r hr hm => absurd (hspurious hs) (h.active r (.inl ⟨hr, hm⟩))

theorem ownerInv_dpc {s : Controller} (h : OwnerInv s) :
    OwnerInv { s with dpcQueued := false, running := .dpcExchange :: s.running } := by
  refine h.of_same rfl rfl rfl rfl (fun r => ?_) (fun p r hown => ?_) id fun _ _ _ => ?_
  · show total _ (.dpcExchange :: s.running) = _
    rw [total_cons]
    exact Nat.zero_add _
  · refine ⟨fun hp => (List.mem_cons.1 hp).resolve_left ?_, List.mem_cons_of_mem _⟩
    rintro rfl
    nomatch hown
  · exact .inr (.inr (.inr List.mem_cons_self))

/-- A cancellation commits a request that is in `SpbRequest`: no DPC holds it. -/
theorem ownerInv_cancel {s : Controller} (h : OwnerInv s) {r : Nat}
    (hok : .dpcUnmark r ∉ s.running) : OwnerInv (s.cancel r) := by
  unfold Controller.cancel
  split
  case isFalse =>
    exact h.of_same rfl rfl rfl rfl (fun _ => rfl) (fun _ _ _ => Iff.rfl) id h.awaited
  next hm =>
  -- the DPC has not taken the request, so the device has it
  have hspb := (h.owned r hm).resolve_right hok
  have hpresented : r < s.presented := by
    by_contra hge
    rw [h.fresh r (by omega)] at hm
    nomatch hm
  have hother : ∀ {r'}, r' ≠ r → Function.update s.mark r .cancelling r' = s.mark r' :=
    fun hne => Function.update_of_ne hne _ _
  constructor <;> simp only [Controller.setMark]
  · exact h.earlier
  · intro r'
    have htoken := h.token r'
    have hlive : Controller.live (s.setMark r .cancelling) r' = s.live r' := by
      by_cases heq : r' = r
      · subst heq
        simp [Controller.live, Controller.setMark, hspb, hm]
      · simp [Controller.live, Controller.setMark, hother heq]
    show s.completed.count r' + total _ s.running + Controller.live (s.setMark r .cancelling) r' =
      if r' < s.presented then 1 else 0
    rw [hlive]
    exact htoken
  · intro r' hr'
    rw [hother (by omega)]
    exact h.fresh r' hr'
  · intro r' hr'
    obtain ⟨hspb', hun⟩ := h.marking r' hr'
    obtain rfl : r = r' := Option.some.inj (hspb.symm.trans hspb')
    rw [hm] at hun
    nomatch hun
  · intro r' hr'
    have hne : r' ≠ r := by
      rintro rfl
      exact hok hr'
    rw [hother hne]
    exact h.unmarking r' hr'
  · intro r' hm'
    by_cases heq : r' = r
    · exact .inl (heq ▸ hspb)
    · rw [hother heq] at hm'
      exact h.owned r' hm'
  · intro r' hc
    by_cases heq : r' = r
    · exact heq ▸ hspb
    · rw [hother heq] at hc
      exact h.committed r' hc
  · rintro r' (⟨hspb', -⟩ | hr')
    · obtain rfl : r = r' := Option.some.inj (hspb.symm.trans hspb')
      exact h.active r (.inl ⟨hspb, hm⟩)
    · exact h.active r' (.inr hr')
  · intro r' hspb' _
    obtain rfl : r = r' := Option.some.inj (hspb.symm.trans hspb')
    exact h.awaited r hspb hm

/-- The next step of a callback under way, one case per step. -/
theorem ownerInv_run {s : Controller} (h : OwnerInv s) {p : CallbackStep} (hp : p ∈ s.running)
    (hok : NotCancelling s (.run p)) : OwnerInv (s.runStep p) := by
  cases p with
  | markCancelable r =>
    simp only [Controller.runStep]
    split
    · exact ownerInv_pass h (r := r) hp (if_pos rfl) (fun _ => rfl) nofun nofun nofun
    · exact ownerInv_mark h hp
  | startAbort r => exact ownerInv_pass h (r := r) hp (if_pos rfl) (fun _ => rfl) nofun nofun nofun
  | startComplete r => exact ownerInv_complete h hp (fun _ => rfl) nofun
  | enableIrq => exact ownerInv_enableIrq h hp
  | dpcExchange => exact ownerInv_dpcExchange h hp hok
  | dpcUnmark r => exact ownerInv_dpcUnmark h hp
  | dpcFinish r => exact ownerInv_pass h (r := r) hp (if_pos rfl) (fun _ => rfl) nofun nofun nofun
  | dpcComplete r => exact ownerInv_complete h hp (fun _ => rfl) nofun
  | cancelAbort r => exact ownerInv_pass h (r := r) hp (if_pos rfl) (fun _ => rfl) nofun nofun nofun
  | cancelComplete r => exact ownerInv_complete h hp (fun _ => rfl) nofun

/-! ## Whole runs -/

/-- **Every state of an undisturbed run satisfies the invariant.** -/
theorem ownerInv_reach {s : Controller} (h : auxMachine.Reach NotCancelling s) : OwnerInv s := by
  refine h.inv_guarded (fun s hs => ?_) fun s a hinv hok hen => ?_
  · rw [hs]
    exact ownerInv_init
  · cases a with
    | startTransfer kind => exact ownerInv_startTransfer hinv kind hen
    | answerAtOnce => exact ownerInv_answerAtOnce hinv hen
    | run p => exact ownerInv_run hinv hen hok
    | interrupt allBytes => exact ownerInv_interrupt hinv hen allBytes
    | dpc => exact ownerInv_dpc hinv
    | cancel r => exact ownerInv_cancel hinv hok
    | evtRequestCancel r => exact ownerInv_evtRequestCancel hinv hen

/-- **Every request is completed exactly once**, in every run in which the DPC takes no
request whose cancellation is or becomes committed before it is unmarked. -/
theorem completedOnce_of_notCancelling {s : Controller} (h : auxMachine.Reach NotCancelling s) :
    CompletedOnce s :=
  (ownerInv_reach h).completedOnce

/-- A read is cancelled when its DPC runs already. The cancel callback takes it, and the DPC finds
nothing. -/
theorem completedOnce_of_notCancelling_canceled :
    ∃ s, auxMachine.Reach NotCancelling s ∧ s.Quiet ∧ s.presented = 1 ∧ s.mark 0 = .called ∧
      CompletedOnce s := by
  have h0 : auxMachine.Reach NotCancelling Controller.start := .init rfl
  have h1 := Machine.Reach.step (a := .startTransfer .read) h0 (by trivial) rfl
  have h2 := Machine.Reach.step (a := .run (.markCancelable 0)) h1 (by trivial) rfl
  have h3 := Machine.Reach.step (a := .run .enableIrq) h2 (by trivial) rfl
  have h4 := Machine.Reach.step (a := .interrupt true) h3 (by trivial) rfl
  have h5 := Machine.Reach.step (a := .dpc) h4 (by trivial) rfl
  have h6 := Machine.Reach.step (a := .cancel 0) h5 (by show _ ∉ [_]; decide) rfl
  have h7 := Machine.Reach.step (a := .evtRequestCancel 0) h6 (by trivial) rfl
  have h8 := Machine.Reach.step (a := .run .dpcExchange) h7 (by exact nofun) rfl
  have h9 := Machine.Reach.step (a := .run (.cancelAbort 0)) h8 (by trivial) rfl
  have h10 := Machine.Reach.step (a := .run (.cancelComplete 0)) h9 (by trivial) rfl
  refine ⟨_, h10, ⟨rfl, rfl, rfl, fun r => ?_⟩, rfl, rfl, completedOnce_of_notCancelling h10⟩
  cases r <;> exact nofun

/-- The run that loses a request: it is cancelled after the DPC has taken it and before the
DPC has unmarked it. -/
def lostRun : List AuxAction :=
  [.startTransfer .read, .run (.markCancelable 0), .run .enableIrq, .interrupt true, .dpc,
    .run .dpcExchange, .cancel 0, .run (.dpcUnmark 0), .evtRequestCancel 0]

/-- **A request that nobody completes.** -/
theorem request_lost : ¬ ∀ s, auxMachine.Reachable s → CompletedOnce s := by
  intro h
  have hrun := auxMachine.reach_exec_get lostRun (s := Controller.start) rfl (by rfl)
  have hquiet : ((auxMachine.exec Controller.start lostRun).get (by rfl)).Quiet := by
    refine ⟨rfl, rfl, rfl, fun r => ?_⟩
    cases r <;> exact nofun
  exact absurd ((h _ hrun).settled hquiet 0 (by decide)) (by decide)

end RpiDrivers.AuxSpi
