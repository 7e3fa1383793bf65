import RpiDrivers.Lib.Machine
import RpiDrivers.Lib.Tab
import Mathlib.Logic.Function.Basic

/-!
# Output (`write.c`, `immediat.c`, `purge.c`, `utils.c`)

Writes and XOFF counters share a queue, and one of them is the current write. An XOFF counter acts
as a write of one byte first; when that has been sent it becomes the current XOFF counter, which
the interrupt counts down. An immediate character has a place of its own. `TotalCharsQueued` is
raised when a request is started or queued, and lowered where it is completed, in four places.

- `State`, `machine`: the device extension, the requests, and who holds the lock of the device; the
  interrupt comes in between wherever he does not synchronize with it.
- `Sound`: **`TotalCharsQueued` is what is charged to the open requests**, and what
  `GET_COMMSTATUS` reports is that less the bytes of the current write that have been sent.
- `Ok`: the condition.
-/

namespace RpiDrivers.MiniUart.Output

open RpiDrivers.Lib

/-! ## Requests -/

inductive Kind
  | write (length : BitVec 32)
  | immediateChar
  | xoffCounter (counter : Nat) (timeout : Nat)
  deriving DecidableEq

structure Request where
  id : Nat
  kind : Kind
  deriving DecidableEq

namespace Request

/-- `reqContext->Length`, which only `SerialEvtIoWrite` sets. -/
def length (r : Request) : BitVec 32 :=
  match r.kind with
  | .write length => length
  | .immediateChar | .xoffCounter .. => 0

/-- `reqContext->MajorFunction == IRP_MJ_WRITE` -/
def isWrite (r : Request) : Bool :=
  match r.kind with
  | .write _ => true
  | .immediateChar | .xoffCounter .. => false

/-- What it adds to `TotalCharsQueued`. -/
def chars (r : Request) : BitVec 32 := if r.isWrite then r.length else 1

def charge (r : Request) : Nat := r.chars.toNat

end Request

/-- `Current*Request`, its timer and its DPC. -/
inductive Op
  | write
  | immediate
  | xoff
  deriving DecidableEq

/-- `SERIAL_REF_*` -/
inductive RefType
  | isr
  | cancel
  | totalTimer
  | xoffRef
  deriving DecidableEq

inductive Status
  | success
  | cancelled
  | timeout
  | counterTimeout
  | moreWrites
  deriving DecidableEq

/-- The `REQUEST_CONTEXT`. The last two fields are the framework's: the cancel routine that the
request is marked with, and the one that it is going to call. -/
structure RequestContext where
  refCount : RefType → Bool
  status : Status
  cancelled : Bool
  cancelable : Option Op
  canceling : Option Op

namespace RequestContext

def setReference (ref : RefType) (b : Bool) (c : RequestContext) : RequestContext :=
  { c with refCount := Function.update c.refCount ref b }

/-- `SERIAL_REFERENCE_COUNT` -/
def referenced (c : RequestContext) : Bool :=
  c.refCount .isr || c.refCount .cancel || c.refCount .totalTimer || c.refCount .xoffRef

end RequestContext

/-- In the queue of the system, or waiting for the lock to run. -/
structure Timer where
  queued : Bool
  fired : Bool

/-- Who holds the lock of the device, and what he is about to do. -/
inductive Holder
  | idle
  /-- `SerialTryToCompleteCurrent`: take the request from the interrupt -/
  | grab (op : Op) (status : Status) (ref : RefType)
  /-- `SerialGiveWriteToIsr` -/
  | giveWrite
  /-- `SerialGiveImmediateToIsr` -/
  | giveImmediate
  /-- `SerialGetNextWrite`: `SerialGiveXoffToIsr` -/
  | giveXoff
  /-- `SerialStartPurge`: flush the XOFF counter -/
  | flushXoff
  deriving DecidableEq

/-- What `GET_COMMSTATUS` has reported, what was charged then, and what had been sent. -/
structure Report where
  amountInOutQueue : BitVec 32
  due : Nat
  sent : Nat
  deriving DecidableEq

/-- The device extension, the requests, and what is noted about them. -/
structure State where
  totalCharsQueued : BitVec 32
  current : Op → Option Request
  writeQueue : List Request
  /-- canceled in the queue, and `SerialEvtCanceledOnQueue` has not been called -/
  canceledOnQueue : List Request
  requests : Nat → RequestContext
  writeLength : BitVec 32
  transmitImmediate : Bool
  countSinceXoff : Nat
  timer : Op → Timer
  dpc : Op → Bool
  /-- `WriteTotalTimeoutConstant` or `WriteTotalTimeoutMultiplier` is set -/
  useATimer : Bool
  holder : Holder
  /-- `SerialStartPurge` goes on with the XOFF counter -/
  purging : Bool
  /-- a null pointer has been followed -/
  faulted : Bool
  /-- the requests so far -/
  submitted : Nat
  /-- those that are not completed; an XOFF counter is waived when it stops to act as a write -/
  tab : Tab Request
  /-- bytes of the current write that have been given to the hardware -/
  sent : Nat
  reports : List Report
  /-- `TotalCharsQueued` has been lowered by more than it was -/
  wrapped : Bool

namespace State

variable (s : State)

/-- After `SerialDeviceOpen`. -/
def start : State where
  totalCharsQueued := 0
  current _ := none
  writeQueue := []
  canceledOnQueue := []
  requests _ := ⟨fun _ => false, .success, false, none, none⟩
  writeLength := 0
  transmitImmediate := false
  countSinceXoff := 0
  timer _ := ⟨false, false⟩
  dpc _ := false
  useATimer := false
  holder := .idle
  purging := false
  faulted := false
  submitted := 0
  tab := .empty
  sent := 0
  reports := []
  wrapped := false

/-- The sum of what is charged to the requests that are not completed. -/
def due : Nat := s.tab.due Request.id Request.charge

/-- A change of the context of a request. -/
def modify (id : Nat) (f : RequestContext → RequestContext) : State :=
  { s with requests := Function.update s.requests id (f (s.requests id)) }

def setCurrent (op : Op) (r : Option Request) : State :=
  { s with current := Function.update s.current op r }

def setTimerState (op : Op) (t : Timer) : State :=
  { s with timer := Function.update s.timer op t }

def setDpc (op : Op) (b : Bool) : State := { s with dpc := Function.update s.dpc op b }

def setReference (id : Nat) (ref : RefType) : State := s.modify id (.setReference ref true)

def clearReference (id : Nat) (ref : RefType) : State := s.modify id (.setReference ref false)

def fault : State := { s with faulted := true }

/-- The end of a section with the lock. -/
def finish : State :=
  if s.purging then { s with purging := false, holder := .flushXoff }
  else { s with holder := .idle }

/-- `TotalCharsQueued -= n` -/
def lower (n : BitVec 32) : State :=
  { s with
    totalCharsQueued := s.totalCharsQueued - n
    wrapped := s.wrapped || s.totalCharsQueued < n }

/-- `SerialCompleteRequest` -/
def serialCompleteRequest (id : Nat) : State :=
  { s.modify id fun c => { c with cancelable := none } with tab := s.tab.close Request.id id }

/-- `SerialSetCancelRoutine` -/
def serialSetCancelRoutine (id : Nat) (op : Op) : State :=
  (s.modify id fun c => { c with cancelable := some op }).setReference id .cancel

/-- `SerialClearCancelRoutine`, with `ClearReference`. `WdfRequestUnmarkCancelable` fails when the
request is being canceled. -/
def serialClearCancelRoutine (id : Nat) : State :=
  if (s.requests id).refCount .cancel && (s.requests id).cancelable.isSome then
    (s.modify id fun c => { c with cancelable := none }).clearReference id .cancel
  else s

/-- `SerialSetTimer`, and the reference of the timer. -/
def serialSetTimer (op : Op) (id : Nat) : State :=
  let result := (s.timer op).queued
  let s := s.setTimerState op { s.timer op with queued := true }
  if result then s else s.setReference id .totalTimer

/-! ## Starting -/

/-- `SerialStartWrite`, after the XOFF counter. -/
def startCurrentWrite : State :=
  match s.current .write with
  | none => { s.fault with holder := .idle }
  | some r =>
    -- `SERIAL_INIT_REFERENCE`
    let s := s.modify r.id fun c => { c with refCount := fun _ => false }
    let s := s.serialSetCancelRoutine r.id .write
    let s := if s.useATimer then s.serialSetTimer .write r.id else s
    { s with holder := .giveWrite }

/-- `SerialStartWrite`: an XOFF counter is completed before. -/
def serialStartWrite : State :=
  match s.current .xoff with
  | none => s.startCurrentWrite
  | some x =>
    if (s.requests x.id).referenced then
      -- `SerialTryToCompleteCurrent` clears it at once
      { (s.setReference x.id .xoffRef).clearReference x.id .xoffRef with
        holder := .grab .xoff .moreWrites .xoffRef }
    else s.startCurrentWrite

/-- `SerialStartImmediate` -/
def serialStartImmediate (id : Nat) : State :=
  let s := s.modify id fun c => { c with refCount := fun _ => false }
  let s := s.serialSetCancelRoutine id .immediate
  let s := if s.useATimer then s.serialSetTimer .immediate id else s
  { s with holder := .giveImmediate }

/-- `SerialStartOrQueue` for the write queue. `queueIdle` and `forwarded` are what
`WdfIoQueueGetState` and `WdfRequestForwardToIoQueue` return. -/
def serialStartOrQueue (kind : Kind) (queueIdle forwarded : Bool) : State :=
  let r : Request := ⟨s.submitted, kind⟩
  let s := { s with
    totalCharsQueued := s.totalCharsQueued + r.chars
    submitted := s.submitted + 1
    tab := s.tab.add r }
  if queueIdle && (s.current .write).isNone then
    { s.setCurrent .write (some r) with sent := 0 }.serialStartWrite
  else if forwarded then { s with writeQueue := s.writeQueue ++ [r] }
  else s.serialCompleteRequest r.id

/-- `IOCTL_SERIAL_IMMEDIATE_CHAR`; when there is one already it is refused. -/
def immediateChar : State :=
  if (s.current .immediate).isSome then s
  else
    let r : Request := ⟨s.submitted, .immediateChar⟩
    { s.setCurrent .immediate (some r) with
      totalCharsQueued := s.totalCharsQueued + 1
      submitted := s.submitted + 1
      tab := s.tab.add r }.serialStartImmediate r.id

/-! ## Completing -/

/-- `SerialGetNextRequest`, and `SerialStartWrite` when there is one. -/
def serialGetNextRequest (complete : Option Nat) : State :=
  let next := s.writeQueue.head?
  let s := { s.setCurrent .write next with writeQueue := s.writeQueue.tail, sent := 0 }
  let s := match complete with
    | none => s
    | some id => s.serialCompleteRequest id
  if next.isSome then s.serialStartWrite else s.finish

/-- `SerialGetNextWrite`. An XOFF counter that has been sent becomes the current one. -/
def serialGetNextWrite (r : Request) : State :=
  if r.isWrite then (s.lower r.length).serialGetNextRequest (some r.id)
  else
    let s := s.lower 1
    let c := s.requests r.id
    if c.status ≠ .success || c.cancelled then s.serialGetNextRequest (some r.id)
    else
      { (s.serialSetCancelRoutine r.id .xoff).setCurrent .xoff (some r) with
        tab := s.tab.waive r.id
        holder := .giveXoff }

/-- `SerialGetNextImmediate` -/
def serialGetNextImmediate (id : Nat) : State :=
  (((s.lower 1).setCurrent .immediate none).serialCompleteRequest id).finish

/-- `SerialCancelTimer`, of `SerialRundownIrpRefs`. -/
def cancelTimer (op : Op) (id : Nat) (ref : RefType) : State :=
  if (s.timer op).queued then
    (s.setTimerState op { s.timer op with queued := false }).clearReference id .totalTimer
  else if ref = .totalTimer then s.clearReference id .totalTimer
  else s

/-- `SerialRundownIrpRefs` -/
def serialRundownIrpRefs (op : Op) (id : Nat) (ref : RefType) : State :=
  let s := if ref = .cancel then s.clearReference id .cancel else s.serialClearCancelRoutine id
  -- `SerialTimeoutXoff` passes no timer
  if op = .xoff && ref = .totalTimer then s else s.cancelTimer op id ref

/-- An XOFF counter that is no longer current; `SerialStartWrite` goes on after it. -/
def afterXoff (ref : RefType) : State :=
  if ref = .xoffRef then s.startCurrentWrite else s.finish

/-- `SerialTryToCompleteCurrent`, after the synchronization. -/
def tryToComplete (op : Op) (r : Request) (status : Status) (ref : RefType) : State :=
  let s := s.serialRundownIrpRefs op r.id ref
  let s := if status = .cancelled then s.modify r.id fun c => { c with cancelled := true } else s
  if (s.requests r.id).referenced then
    match op with
    | .write | .immediate => s.finish
    | .xoff => s.afterXoff ref
  else
    let s := s.modify r.id fun c => { c with status := status }
    match op with
    | .write => s.serialGetNextWrite r
    | .immediate => s.serialGetNextImmediate r.id
    | .xoff => ((s.setCurrent .xoff none).serialCompleteRequest r.id).afterXoff ref

/-- `SerialTryToCompleteCurrent`, up to the synchronization; DPCs do not need one. -/
def serialTryToCompleteCurrent (op : Op) (status : Status) (ref : RefType) : State :=
  match s.current op with
  | none => s.fault
  | some r =>
    if ref = .isr then (s.clearReference r.id .isr).tryToComplete op r status ref
    else { s with holder := .grab op status ref }

/-- `SerialGrabWriteFromIsr`, `SerialGrabImmediateFromIsr`, `SerialGrabXoffFromIsr` -/
def grabFromIsr (op : Op) (id : Nat) : State :=
  match op with
  | .write =>
    if s.writeLength = 0 then s else { s.clearReference id .isr with writeLength := 0 }
  | .immediate =>
    if s.transmitImmediate then { s.clearReference id .isr with transmitImmediate := false } else s
  | .xoff =>
    if s.countSinceXoff = 0 then s else { s.clearReference id .isr with countSinceXoff := 0 }

/-- `SerialGiveWriteToIsr` -/
def serialGiveWriteToIsr (r : Request) : State :=
  { s.setReference r.id .isr with writeLength := r.chars }

/-- `SerialGiveXoffToIsr` and the timer, then the next write. -/
def giveXoff (r : Request) : State :=
  match r.kind with
  | .xoffCounter counter timeout =>
    let s := { s.setReference r.id .isr with countSinceXoff := counter }
    let s := if timeout = 0 then s else s.serialSetTimer .xoff r.id
    s.serialGetNextRequest none
  | .write _ | .immediateChar => s.fault

/-- `WdfIoQueuePurge` -/
def wdfIoQueuePurge : State :=
  { s with writeQueue := [], canceledOnQueue := s.canceledOnQueue ++ s.writeQueue }

/-- The current request is canceled, unless the framework is about to. -/
def cancelCurrent (op : Op) : State :=
  match s.current op with
  | none => s.finish
  | some r =>
    if (s.requests r.id).refCount .cancel && (s.requests r.id).cancelable.isSome then
      (s.modify r.id fun c => { c with cancelable := none }).serialTryToCompleteCurrent op
        .cancelled .cancel
    else s.finish

/-- `SerialPurgeRequests` -/
def serialPurgeRequests (op : Op) : State := s.wdfIoQueuePurge.cancelCurrent op

/-- The holder of the lock goes on, up to his next synchronization with the interrupt. -/
def advance : State :=
  match s.holder with
  | .idle => s
  | .grab op status ref =>
    match s.current op with
    | none => s.fault
    | some r => (s.grabFromIsr op r.id).tryToComplete op r status ref
  | .giveWrite =>
    match s.current .write with
    | none => s.fault
    | some r => (s.serialGiveWriteToIsr r).finish
  | .giveImmediate =>
    match s.current .immediate with
    | none => s.fault
    | some r => { s.setReference r.id .isr with transmitImmediate := true }.finish
  | .giveXoff =>
    match s.current .xoff with
    | none => s.fault
    | some r => s.giveXoff r
  | .flushXoff => s.serialPurgeRequests .xoff

/-- `SerialEvtCanceledOnQueue` -/
def serialEvtCanceledOnQueue (r : Request) : State :=
  { s.lower r.chars with canceledOnQueue := s.canceledOnQueue.erase r }.serialCompleteRequest r.id

/-! ## The interrupt -/

/-- Bytes of the current write are given to the hardware. -/
def transmit (n : BitVec 32) : State :=
  let s := { s with writeLength := s.writeLength - n, sent := s.sent + n.toNat }
  if s.writeLength = 0 then s.setDpc .write true else s

/-- A byte is received. -/
def receive : State :=
  if s.countSinceXoff = 0 then s
  else
    let s := { s with countSinceXoff := s.countSinceXoff - 1 }
    if s.countSinceXoff ≠ 0 then s
    else
      match s.current .xoff with
      | none => s.fault
      | some r => (s.modify r.id fun c => { c with status := .success }).setDpc .xoff true

/-! ## `GET_COMMSTATUS` -/

/-- `AmountInOutQueue`, of `SerialGetCommStatus`. -/
def amountInOutQueue : BitVec 32 :=
  match s.current .write with
  | none => s.totalCharsQueued
  | some r =>
    if s.writeLength = 0 then s.totalCharsQueued
    else s.totalCharsQueued - (r.length - s.writeLength)

def getCommStatus : State :=
  { s with reports := s.reports ++ [⟨s.amountInOutQueue, s.due, s.sent⟩] }

end State

/-! ## The machine -/

inductive Action
  | write (length : BitVec 32) (queueIdle forwarded : Bool)
  | xoffCounter (counter timeout : Nat) (queueIdle forwarded : Bool)
  | immediateChar
  | getCommStatus
  /-- `IOCTL_SERIAL_PURGE` with `SERIAL_PURGE_TXABORT` -/
  | purge
  /-- `SerialCommError` -/
  | commError
  | setTimeouts (useATimer : Bool)
  /-- the holder of the lock goes on -/
  | advance
  /-- the interrupt gives bytes of the current write to the hardware -/
  | transmit (n : BitVec 32)
  /-- it gives the immediate character to the hardware -/
  | transmitImmediate
  /-- it receives a byte -/
  | receive
  /-- `SerialCompleteWrite`, `SerialCompleteImmediate`, `SerialCompleteXoff` -/
  | dpc (op : Op)
  | timerFires (op : Op)
  /-- `SerialWriteTimeout`, `SerialTimeoutImmediate`, `SerialTimeoutXoff` -/
  | timeout (op : Op)
  /-- the framework takes a request to be canceled -/
  | cancel (id : Nat)
  /-- it calls the cancel routine -/
  | cancelRoutine (id : Nat) (op : Op)
  /-- a request is canceled in the queue -/
  | cancelOnQueue (r : Request)
  | evtCanceledOnQueue (r : Request)

/-- What begins with the lock begins when nobody holds it. `SerialEvtCanceledOnQueue` may also be
called by `WdfIoQueuePurge`, whose caller holds it. The framework does not pass on writes of length
zero, and its queue is idle only when it is empty. -/
def enabled (s : State) : Action → Prop
  | .write length queueIdle _ =>
    s.holder = .idle ∧ length ≠ 0 ∧ (queueIdle = true → s.writeQueue = [])
  | .xoffCounter counter _ queueIdle _ =>
    s.holder = .idle ∧ counter ≠ 0 ∧ (queueIdle = true → s.writeQueue = [])
  | .immediateChar | .getCommStatus | .purge | .commError => s.holder = .idle
  | .setTimeouts _ => True
  | .advance => s.holder ≠ .idle
  | .transmit n => n ≠ 0 ∧ n.toNat ≤ s.writeLength.toNat
  | .transmitImmediate => s.transmitImmediate = true
  | .receive => True
  | .dpc op => s.holder = .idle ∧ s.dpc op = true
  | .timerFires op => (s.timer op).queued = true
  | .timeout op => s.holder = .idle ∧ (s.timer op).fired = true
  | .cancel id => (s.requests id).cancelable.isSome = true
  | .cancelRoutine id op => s.holder = .idle ∧ (s.requests id).canceling = some op
  | .cancelOnQueue r => r ∈ s.writeQueue
  | .evtCanceledOnQueue r => r ∈ s.canceledOnQueue

instance (s : State) : ∀ a : Action, Decidable (enabled s a)
  | .write .. | .xoffCounter .. => inferInstanceAs (Decidable (_ ∧ _ ∧ (_ → _)))
  | .immediateChar | .getCommStatus | .purge | .commError =>
    inferInstanceAs (Decidable (s.holder = .idle))
  | .setTimeouts _ | .receive => inferInstanceAs (Decidable True)
  | .advance => inferInstanceAs (Decidable (s.holder ≠ .idle))
  | .transmit _ | .dpc _ | .timeout _ | .cancelRoutine .. => inferInstanceAs (Decidable (_ ∧ _))
  | .transmitImmediate | .timerFires _ | .cancel _ => inferInstanceAs (Decidable (_ = true))
  | .cancelOnQueue _ | .evtCanceledOnQueue _ => inferInstanceAs (Decidable (_ ∈ _))

/-- The status of a timer's routine. -/
def timeoutStatus : Op → Status
  | .write | .immediate => .timeout
  | .xoff => .counterTimeout

def effect (s : State) : Action → State
  | .write length queueIdle forwarded => s.serialStartOrQueue (.write length) queueIdle forwarded
  | .xoffCounter counter timeout queueIdle forwarded =>
    s.serialStartOrQueue (.xoffCounter counter timeout) queueIdle forwarded
  | .immediateChar => s.immediateChar
  | .getCommStatus => s.getCommStatus
  | .purge => { s with purging := true }.serialPurgeRequests .write
  | .commError => s.serialPurgeRequests .write
  | .setTimeouts useATimer => { s with useATimer := useATimer }
  | .advance => s.advance
  | .transmit n => s.transmit n
  | .transmitImmediate => { s with transmitImmediate := false }.setDpc .immediate true
  | .receive => s.receive
  | .dpc op => (s.setDpc op false).serialTryToCompleteCurrent op .success .isr
  | .timerFires op => s.setTimerState op ⟨false, true⟩
  | .timeout op =>
    (s.setTimerState op { s.timer op with fired := false }).serialTryToCompleteCurrent op
      (timeoutStatus op) .totalTimer
  | .cancel id =>
    s.modify id fun c => { c with cancelable := none, canceling := c.cancelable }
  | .cancelRoutine id op =>
    (s.modify id fun c => { c with canceling := none }).serialTryToCompleteCurrent op
      .cancelled .cancel
  | .cancelOnQueue r =>
    { s with
      writeQueue := s.writeQueue.erase r
      canceledOnQueue := s.canceledOnQueue ++ [r] }
  | .evtCanceledOnQueue r => s.serialEvtCanceledOnQueue r

/-- The holders of the lock, the interrupt and the framework, interleaved. A run ends where a null
pointer is followed. -/
def machine : Machine State Action :=
  .guarded (· = .start) (fun s a => s.faulted = false ∧ enabled s a) effect

/-! ## The property and the condition -/

/-- **The property.** -/
structure Sound (s : State) : Prop where
  total : s.totalCharsQueued.toNat = s.due
  wrapped : s.wrapped = false
  reports : ∀ p ∈ s.reports, p.amountInOutQueue.toNat + p.sent = p.due

/-- The framework queues what is not started. -/
def Accepted (s : State) (queueIdle forwarded : Bool) : Prop :=
  queueIdle = true ∧ s.current .write = none ∨ forwarded = true

/-- **The condition**: `TotalCharsQueued` does not overflow, what is not started is queued, and
`GET_COMMSTATUS` finds no XOFF counter that is being sent, and no current write that has been sent,
or taken from the interrupt after a part of it has been sent. -/
def Ok (s : State) : Action → Prop
  | .write length queueIdle forwarded =>
    s.due + length.toNat < 2 ^ 32 ∧ Accepted s queueIdle forwarded
  | .xoffCounter _ _ queueIdle forwarded => s.due + 1 < 2 ^ 32 ∧ Accepted s queueIdle forwarded
  | .immediateChar => s.due + 1 < 2 ^ 32
  | .getCommStatus =>
    ∀ r ∈ s.current .write, if s.writeLength = 0 then s.sent = 0 else r.isWrite = true
  | _ => True

instance (s : State) (queueIdle forwarded : Bool) : Decidable (Accepted s queueIdle forwarded) :=
  inferInstanceAs (Decidable (_ ∨ _))

instance (s : State) : ∀ a : Action, Decidable (Ok s a)
  | .write .. | .xoffCounter .. => inferInstanceAs (Decidable (_ ∧ _))
  | .immediateChar => inferInstanceAs (Decidable (_ < _))
  | .getCommStatus => inferInstanceAs (Decidable (∀ r ∈ s.current .write, _))
  | .purge | .commError | .setTimeouts _ | .advance | .transmit _ | .transmitImmediate | .receive
  | .dpc _ | .timerFires _ | .timeout _ | .cancel _ | .cancelRoutine .. | .cancelOnQueue _
  | .evtCanceledOnQueue _ => inferInstanceAs (Decidable True)

end RpiDrivers.MiniUart.Output
