import RpiDrivers.Lib.EventLedger
import RpiDrivers.Lib.Machine

/-!
# Waiting for events (`waitmask.c`, `isr.c`, `utils.c`)

`SET_WAIT_MASK` tells which events are of interest, and `WAIT_ON_MASK` waits for one of them. The
interrupt collects events in `HistoryMask`, or gives them to the wait through `IrpMaskLocation` and
has a DPC complete it. Requests, the cancel routine and the DPC hold the lock of the device; the
interrupt comes in between wherever they do not synchronize with it.

- `State`, `machine`: the device extension, the requests, and who holds the lock.
- `Sound`: **every wait completes once, and every event is reported once**, kept or dropped by a new
  mask.
- `Ok`: the condition: the DPC does not find that the wait is being canceled.
-/

namespace RpiDrivers.MiniUart

open RpiDrivers.Lib

/-! ## Requests -/

/-- A request for the mask queue. -/
inductive MaskIoctl
  /-- `IOCTL_SERIAL_SET_WAIT_MASK` -/
  | setWaitMask (mask : BitVec 32)
  /-- `IOCTL_SERIAL_WAIT_ON_MASK` -/
  | waitOnMask

structure MaskRequest where
  id : Nat
  ioctl : MaskIoctl

/-- The `REQUEST_CONTEXT` of a wait. `RefCount` has two bits here, and `canceling` is the
framework's: the request has been taken to be canceled, and its cancel routine is to be called. -/
structure RequestContext where
  systemBuffer : BitVec 32
  information : Nat
  refIsr : Bool
  refCancel : Bool
  canceling : Bool

/-- `STATUS_*` -/
inductive Status
  | success
  | cancelled
  | invalidParameter
  deriving DecidableEq

/-- A request that has been completed, with its buffer. `newMask` is set when it is a wait that a
new mask finished. -/
structure Completion where
  id : Nat
  status : Status
  information : Nat
  mask : BitVec 32
  newMask : Bool
  deriving DecidableEq

/-- Who holds the lock of the device, and what he is about to do. -/
inductive Holder
  | idle
  /-- `SerialStartMask`: look at the current mask request -/
  | startMask
  /-- complete it, after `SerialFinishOldWait` -/
  | finishedOldWait
  /-- `SerialGiveWaitToIsr` -/
  | giveWait
  /-- get the next mask request, without completing this one -/
  | gaveWait
  /-- `SerialCancelWait`: `SerialGrabWaitFromIsr` -/
  | cancelWait
  /-- run down the references -/
  | cancelRundown
  /-- `SerialCompleteWait`: run down the references -/
  | completeRundown
  deriving DecidableEq

/-- The device extension, the requests, and what is noted about them. -/
structure State where
  isrWaitMask : BitVec 32
  historyMask : BitVec 32
  /-- the request whose buffer it points to -/
  irpMaskLocation : Option Nat
  currentWaitRequest : Option Nat
  currentMaskRequest : Option MaskRequest
  maskQueue : List MaskRequest
  /-- `CommWaitDpc` is queued -/
  commWaitDpc : Bool
  requests : Nat → RequestContext
  holder : Holder
  /-- the requests so far -/
  submitted : List Nat
  completions : List Completion
  /-- the current wait has been finished by a new mask -/
  newMask : Bool
  ledger : EventLedger Nat
  /-- no assertion has failed -/
  asserted : Bool

namespace State

variable (s : State)

/-- After `SerialDeviceOpen`. -/
def start : State where
  isrWaitMask := 0
  historyMask := 0
  irpMaskLocation := none
  currentWaitRequest := none
  currentMaskRequest := none
  maskQueue := []
  commWaitDpc := false
  requests _ := ⟨0, 0, false, false, false⟩
  holder := .idle
  submitted := []
  completions := []
  newMask := false
  ledger := .empty
  asserted := true

/-- A change of the context of a request. -/
def modify (id : Nat) (f : RequestContext → RequestContext) : State :=
  { s with requests := Function.update s.requests id (f (s.requests id)) }

def assert (b : Bool) : State := { s with asserted := s.asserted && b }

/-- `SerialCompleteRequest`, which asserts that there are no references. -/
def serialCompleteRequest (id : Nat) (status : Status) (information : Nat) (newMask : Bool) :
    State :=
  { s with
    completions := s.completions ++
      [⟨id, status, information, (s.requests id).systemBuffer, newMask⟩]
    asserted := s.asserted && !(s.requests id).refIsr && !(s.requests id).refCancel }

/-! ## The interrupt -/

/-- What is written through `IrpMaskLocation`. The pointer is cleared, and the DPC queued. -/
def writeMaskLocation (mask : BitVec 32) : State :=
  match s.irpMaskLocation with
  | none => s
  | some id =>
    { s.modify id fun r => { r with systemBuffer := mask } with
      irpMaskLocation := none
      commWaitDpc := true }

/-- `reqContext->Information = sizeof(ULONG)`, of the current wait. -/
def setInformation : State :=
  match s.currentWaitRequest with
  | none => s.assert false
  | some id => s.modify id fun r => { r with information := 4 }

/-- The events of an interrupt are noted, and given to a wait if there is one. -/
def event (bits : BitVec 32) : State :=
  if s.isrWaitMask = 0 then s
  else
    let s := { s with
      historyMask := s.historyMask ||| (bits &&& s.isrWaitMask)
      ledger := s.ledger.raise (bits &&& s.isrWaitMask) }
    if s.irpMaskLocation.isSome && s.historyMask != 0 then
      { (s.writeMaskLocation s.historyMask).setInformation with
        historyMask := 0
        ledger := s.ledger.give }
    else s

/-! ## `SerialStartMask` -/

/-- `SerialGetNextRequest`; when there is another request, `SerialStartMask` goes on with it. -/
def serialGetNextRequest : State :=
  match s.maskQueue with
  | [] => { s with currentMaskRequest := none, holder := .idle }
  | r :: rest =>
    { s with currentMaskRequest := some r, maskQueue := rest, holder := .startMask }

/-- `SerialFinishOldWait` -/
def serialFinishOldWait (mask : BitVec 32) : State :=
  let s :=
    if s.irpMaskLocation.isSome then
      { (s.writeMaskLocation 0).setInformation with newMask := true }
    else s
  { s with
    historyMask := s.historyMask &&& mask
    isrWaitMask := mask
    ledger := s.ledger.keep mask }

/-- `SerialGiveWaitToIsr` -/
def serialGiveWaitToIsr (id : Nat) : State :=
  let s := s.assert s.irpMaskLocation.isNone
  -- `SERIAL_SET_REFERENCE` asserts that it is not set
  let s := (s.assert !(s.requests id).refIsr).modify id fun r => { r with refIsr := true }
  if s.historyMask = 0 then { s with irpMaskLocation := some id }
  else
    { s.modify id fun r => { r with systemBuffer := s.historyMask, information := 4 } with
      historyMask := 0
      commWaitDpc := true
      ledger := s.ledger.give }

/-- The loop of `SerialStartMask`, up to its next synchronization with the interrupt. -/
def serialStartMask : State :=
  match s.currentMaskRequest with
  | none => { s.assert false with holder := .idle }
  | some ⟨_, .setWaitMask mask⟩ => { s.serialFinishOldWait mask with holder := .finishedOldWait }
  | some ⟨id, .waitOnMask⟩ =>
    if s.isrWaitMask = 0 || s.currentWaitRequest.isSome then
      (s.serialCompleteRequest id .invalidParameter 0 false).serialGetNextRequest
    else
      -- `SERIAL_INIT_REFERENCE` and `SerialSetCancelRoutine`
      let s := s.modify id fun r => { r with refIsr := false, refCancel := true }
      let s := s.assert (s.irpMaskLocation.isNone && s.currentWaitRequest.isNone)
      { s with currentWaitRequest := some id, newMask := false, holder := .giveWait }

/-! ## `SerialCancelWait` and `SerialCompleteWait` -/

/-- `SerialGrabWaitFromIsr` -/
def serialGrabWaitFromIsr (id : Nat) : State :=
  if s.irpMaskLocation.isSome then
    let s := { s.modify id fun r => { r with systemBuffer := 0, information := 4 } with
      irpMaskLocation := none }
    (s.assert (s.requests id).refIsr).modify id fun r => { r with refIsr := false }
  else s

/-- The end of `SerialTryToCompleteCurrent`: without references the wait is completed, and told
what it was given if it has information. -/
def completeUnreferenced (id : Nat) (status : Status) : State :=
  let r := s.requests id
  if r.refIsr || r.refCancel then s
  else
    let information := if status = .cancelled then 0 else r.information
    { s.serialCompleteRequest id status information s.newMask with
      currentWaitRequest := none
      ledger := if information = 0 then s.ledger.lose else s.ledger.report id }

/-- `SerialRundownIrpRefs` of the cancel routine. -/
def cancelRundown (id : Nat) : State :=
  let s := (s.assert (s.requests id).refCancel).modify id
    fun r => { r with refCancel := false, canceling := false }
  s.completeUnreferenced id .cancelled

/-- `SerialRundownIrpRefs` of the DPC; `WdfRequestUnmarkCancelable` fails when the request is being
canceled. -/
def completeRundown (id : Nat) : State :=
  let r := s.requests id
  let s := if r.refCancel && !r.canceling then s.modify id fun r => { r with refCancel := false }
    else s
  s.completeUnreferenced id .success

/-- `SerialCompleteWait`, until the references are run down. -/
def serialCompleteWait : State :=
  match s.currentWaitRequest with
  | none => s.assert false
  | some id =>
    { (s.assert (s.requests id).refIsr).modify id fun r => { r with refIsr := false } with
      holder := .completeRundown }

/-- The holder of the lock goes on, up to his next synchronization with the interrupt. -/
def advance : State :=
  match s.holder, s.currentWaitRequest with
  | .idle, _ => s
  | .startMask, _ => s.serialStartMask
  | .finishedOldWait, _ =>
    match s.currentMaskRequest with
    | none => s.assert false
    | some r =>
      ((s.assert s.irpMaskLocation.isNone).serialCompleteRequest r.id .success 0
        false).serialGetNextRequest
  | .giveWait, some id => { s.serialGiveWaitToIsr id with holder := .gaveWait }
  | .gaveWait, _ => s.serialGetNextRequest
  | .cancelWait, some id => { s.serialGrabWaitFromIsr id with holder := .cancelRundown }
  | .cancelRundown, some id => { s.cancelRundown id with holder := .idle }
  | .completeRundown, some id => { s.completeRundown id with holder := .idle }
  -- `CurrentWaitRequest` is null
  | _, none => { s.assert false with holder := .idle }

/-- `SerialStartOrQueue` -/
def serialStartOrQueue (r : MaskRequest) : State :=
  let s := { s with submitted := s.submitted ++ [r.id] }
  if s.maskQueue = [] && s.currentMaskRequest.isNone then
    { s with currentMaskRequest := some r, holder := .startMask }
  else { s with maskQueue := s.maskQueue ++ [r] }

end State

/-! ## The machine -/

inductive Action
  | setWaitMask (mask : BitVec 32)
  | waitOnMask
  /-- events in the interrupt, or in a routine that is synchronized with it -/
  | event (bits : BitVec 32)
  /-- the framework takes a request to be canceled -/
  | cancel (id : Nat)
  /-- it calls the cancel routine -/
  | cancelRoutine (id : Nat)
  /-- `CommWaitDpc` runs -/
  | dpc
  /-- the holder of the lock goes on -/
  | advance

/-- Requests, cancel routines and the DPC begin when nobody holds the lock of the device. -/
def enabled (s : State) : Action → Prop
  | .setWaitMask _ | .waitOnMask => s.holder = .idle
  | .event _ => True
  | .cancel id => (s.requests id).refCancel = true ∧ (s.requests id).canceling = false
  | .cancelRoutine id => s.holder = .idle ∧ (s.requests id).canceling = true
  | .dpc => s.holder = .idle ∧ s.commWaitDpc = true
  | .advance => s.holder ≠ .idle

instance (s : State) : ∀ a : Action, Decidable (enabled s a)
  | .setWaitMask _ | .waitOnMask => inferInstanceAs (Decidable (s.holder = .idle))
  | .event _ => inferInstanceAs (Decidable True)
  | .cancel _ | .cancelRoutine _ | .dpc => inferInstanceAs (Decidable (_ ∧ _))
  | .advance => inferInstanceAs (Decidable (s.holder ≠ .idle))

def effect (s : State) : Action → State
  | .setWaitMask mask => s.serialStartOrQueue ⟨s.submitted.length, .setWaitMask mask⟩
  | .waitOnMask => s.serialStartOrQueue ⟨s.submitted.length, .waitOnMask⟩
  | .event bits => s.event bits
  | .cancel id => s.modify id fun r => { r with canceling := true }
  | .cancelRoutine _ => { s with holder := .cancelWait }
  | .dpc => { s with commWaitDpc := false }.serialCompleteWait
  | .advance => s.advance

/-- The holders of the lock, the interrupt and the framework, interleaved. -/
def machine : Machine State Action := .guarded (· = .start) enabled effect

/-! ## The property and the condition -/

namespace State

/-- Who has a request: it is completed, or the current wait, or a mask request. -/
def owners (s : State) (id : Nat) : Nat :=
  (s.completions.map (·.id)).count id + (if s.currentWaitRequest = some id then 1 else 0) +
    (if s.holder = .giveWait ∨ s.holder = .gaveWait then 0
     else (s.currentMaskRequest.toList.map (·.id)).count id) +
    (s.maskQueue.map (·.id)).count id

/-- **The property.** -/
structure Sound (s : State) : Prop where
  asserted : s.asserted = true
  /-- each request is completed once, or owned by one, and there is one wait at most -/
  served : ∀ id, s.owners id = if id < s.submitted.length then 1 else 0
  location : ∀ id, s.irpMaskLocation = some id → s.currentWaitRequest = some id
  /-- each event is in one place: reported to one wait, kept, or dropped -/
  events : s.ledger.Exact
  history : Shows s.historyMask s.ledger.pending
  /-- what is given is given to the current wait, and in its buffer -/
  given_nil : s.currentWaitRequest = none → s.ledger.given = []
  given : ∀ id, s.currentWaitRequest = some id → s.ledger.given ≠ [] →
    Shows (s.requests id).systemBuffer s.ledger.given
  /-- a wait that is completed is told what its buffer has -/
  told : ∀ c ∈ s.completions,
    if c.information = 0 then s.ledger.told c.id = [] else Shows c.mask (s.ledger.told c.id)
  /-- a wait that is finished by a new mask is completed with mask zero -/
  newMask : ∀ c ∈ s.completions, c.newMask = true →
    c.status = .success ∧ c.information = 4 ∧ c.mask = 0
  finishesOldWait : ∀ r mask id, s.holder = .startMask →
    s.currentMaskRequest = some ⟨r, .setWaitMask mask⟩ → s.irpMaskLocation = some id →
      s.advance.newMask = true ∧ s.advance.currentWaitRequest = some id ∧
        s.advance.commWaitDpc = true
  /-- a wait that is finished is going to be completed -/
  owed : ∀ id, s.holder = .idle → s.currentWaitRequest = some id →
    s.irpMaskLocation = some id ∨ s.commWaitDpc = true

end State

/-- **The condition**: the DPC that completes a wait does not find that it is being canceled. -/
def Ok (s : State) : Action → Prop
  | .advance => s.holder = .completeRundown →
    ∀ id ∈ s.currentWaitRequest, (s.requests id).canceling = false
  | _ => True

instance (s : State) : ∀ a : Action, Decidable (Ok s a)
  | .advance => inferInstanceAs (Decidable (_ → _))
  | .setWaitMask _ | .waitOnMask | .event _ | .cancel _ | .cancelRoutine _ | .dpc =>
    inferInstanceAs (Decidable True)

end RpiDrivers.MiniUart
