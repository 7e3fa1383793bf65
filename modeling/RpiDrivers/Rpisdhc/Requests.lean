import Mathlib.Logic.Function.Basic
import RpiDrivers.Lib.Machine
import RpiDrivers.Lib.Pool

/-!
# Requests of the SDHC (`rpisdhc.cpp`)

Sdport issues a request in phases: the command, and for a command with a transfer the start of
the transfer. A phase may be completed by the DPC when its required events have come, by the
thread that issues it, or by the transfer worker. `resetHost` takes a request back that the
worker has not picked up.

All parties are interleaved: any number of calls of `sdhcIssueRequest`, the ISR with any status
register, the DPC, the worker and resets.

- `CompletionSound`: a phase is completed once, a transfer successfully only when it has
  finished, and the worker leaves alone what was handed to it before a reset.
- `Awaited`: the condition. The DPC only completes a request that waits for events.
-/

namespace RpiDrivers.Rpisdhc

open RpiDrivers.Lib

/-! ## Events and errors -/

/-- The `NTSTATUS` values of requests. -/
inductive Status
  | success
  | ioTimeout
  | crcError
  | deviceDataError
  | deviceProtocolError
  | ioDeviceError
  deriving DecidableEq

/-- `_HSTS`, the status register; required events are kept in the same layout. -/
structure Hsts where
  dataFlag : Bool := false
  fifoError : Bool := false
  crc7Error : Bool := false
  crc16Error : Bool := false
  cmdTimeOut : Bool := false
  rewTimeOut : Bool := false
  sdioIrpt : Bool := false
  blockIrpt : Bool := false
  busyIrpt : Bool := false
  deriving DecidableEq

namespace Hsts

/-- `hsts & UINT32_EVENTS_MASK` -/
def events (h : Hsts) : Hsts :=
  { dataFlag := h.dataFlag, sdioIrpt := h.sdioIrpt, blockIrpt := h.blockIrpt,
    busyIrpt := h.busyIrpt }

/-- `hsts & UINT32_ERROR_MASK` -/
def errors (h : Hsts) : Hsts :=
  { fifoError := h.fifoError, crc7Error := h.crc7Error, crc16Error := h.crc16Error,
    cmdTimeOut := h.cmdTimeOut, rewTimeOut := h.rewTimeOut }

/-- `a & ~b` -/
def clear (a b : Hsts) : Hsts where
  dataFlag := a.dataFlag && !b.dataFlag
  fifoError := a.fifoError && !b.fifoError
  crc7Error := a.crc7Error && !b.crc7Error
  crc16Error := a.crc16Error && !b.crc16Error
  cmdTimeOut := a.cmdTimeOut && !b.cmdTimeOut
  rewTimeOut := a.rewTimeOut && !b.rewTimeOut
  sdioIrpt := a.sdioIrpt && !b.sdioIrpt
  blockIrpt := a.blockIrpt && !b.blockIrpt
  busyIrpt := a.busyIrpt && !b.busyIrpt

@[simp] theorem clear_empty (h : Hsts) : clear {} h = {} := rfl

end Hsts

/-- `_SDPORT_EVENTS` -/
structure SdportEvents where
  cardResponse : Bool := false
  cardRwEnd : Bool := false
  bufferEmpty : Bool := false
  bufferFull : Bool := false
  cardInterrupt : Bool := false

/-- `a | b` -/
def SdportEvents.or (a b : SdportEvents) : SdportEvents :=
  ⟨a.cardResponse || b.cardResponse, a.cardRwEnd || b.cardRwEnd, a.bufferEmpty || b.bufferEmpty,
    a.bufferFull || b.bufferFull, a.cardInterrupt || b.cardInterrupt⟩

/-- `_SDPORT_ERRORS` -/
structure SdportErrors where
  cmdTimeout : Bool := false
  cmdCrcError : Bool := false
  dataTimeout : Bool := false
  dataCrcError : Bool := false
  genericIoError : Bool := false

/-- `a | b` -/
def SdportErrors.or (a b : SdportErrors) : SdportErrors :=
  ⟨a.cmdTimeout || b.cmdTimeout, a.cmdCrcError || b.cmdCrcError, a.dataTimeout || b.dataTimeout,
    a.dataCrcError || b.dataCrcError, a.genericIoError || b.genericIoError⟩

def getSdportEventsFromSdhcEvents (sdhcEvents : Hsts) : SdportEvents where
  cardRwEnd := sdhcEvents.blockIrpt
  cardResponse := sdhcEvents.busyIrpt
  bufferEmpty := sdhcEvents.dataFlag
  bufferFull := sdhcEvents.dataFlag
  cardInterrupt := sdhcEvents.sdioIrpt

def getSdportErrorsFromSdhcErrors (sdhcErrors : Hsts) : SdportErrors where
  cmdCrcError := sdhcErrors.crc7Error || sdhcErrors.crc16Error
  cmdTimeout := sdhcErrors.cmdTimeOut
  dataCrcError := sdhcErrors.crc7Error || sdhcErrors.crc16Error
  dataTimeout := sdhcErrors.rewTimeOut
  genericIoError := sdhcErrors.fifoError

def getSdhcEventsFromSdportEvents (sdportEvents : SdportEvents) : Hsts where
  blockIrpt := sdportEvents.cardRwEnd
  busyIrpt := sdportEvents.cardResponse
  dataFlag := sdportEvents.bufferEmpty || sdportEvents.bufferFull
  sdioIrpt := sdportEvents.cardInterrupt

def getSdhcErrorsFromSdportErrors (sdportErrors : SdportErrors) : Hsts where
  crc7Error := sdportErrors.cmdCrcError || sdportErrors.dataCrcError
  crc16Error := sdportErrors.cmdCrcError || sdportErrors.dataCrcError
  cmdTimeOut := sdportErrors.cmdTimeout
  rewTimeOut := sdportErrors.dataTimeout
  fifoError := sdportErrors.genericIoError

/-- Events reach the DPC as the ISR has read them. -/
theorem sdhcEvents_roundTrip (hsts : Hsts) :
    getSdhcEventsFromSdportEvents (getSdportEventsFromSdhcEvents hsts.events) = hsts.events := by
  simp [getSdhcEventsFromSdportEvents, getSdportEventsFromSdhcEvents, Hsts.events]

/-- The two CRC errors are not told apart any more. -/
theorem sdhcErrors_roundTrip (hsts : Hsts) :
    getSdhcErrorsFromSdportErrors (getSdportErrorsFromSdhcErrors hsts.errors) =
      { hsts.errors with
        crc7Error := hsts.crc7Error || hsts.crc16Error
        crc16Error := hsts.crc7Error || hsts.crc16Error } := by
  simp [getSdhcErrorsFromSdportErrors, getSdportErrorsFromSdhcErrors, Hsts.errors]

/-- `getErrorStatus` -/
def getErrorStatus (hsts : Hsts) : Status :=
  if hsts.fifoError then .deviceDataError
  else if hsts.crc7Error || hsts.crc16Error then .crcError
  else if hsts.cmdTimeOut || hsts.rewTimeOut then .ioTimeout
  else .ioDeviceError

theorem getErrorStatus_ne_success (hsts : Hsts) : getErrorStatus hsts ≠ .success := by
  unfold getErrorStatus
  split_ifs <;> simp

/-! ## Requests -/

inductive RequestType
  | commandNoTransfer
  | commandWithTransfer
  | startTransfer
  deriving DecidableEq

inductive ResponseType
  | none | r1 | r1b | r2 | r3 | r4 | r5 | r5b | r6
  deriving DecidableEq

inductive TransferType
  | singleBlock
  | multiBlock
  | multiBlockNoStop
  deriving DecidableEq

/-- `SDPORT_REQUEST`, as it is in one phase. -/
structure Request where
  type : RequestType
  index : Nat
  responseType : ResponseType
  transferType : TransferType
  blockCount : Nat
  requiredEvents : Hsts
  status : Status

/-- `SDCMD_SELECT_CARD` -/
def sdcmdSelectCard : Nat := 7

def Request.multiBlock (r : Request) : Bool :=
  r.transferType = .multiBlock || r.transferType = .multiBlockNoStop

/-! ## The parties -/

/-- What a call of `sdhcIssueRequest` does next. -/
inductive Issue
  /-- set `RequiredEvents` -/
  | prepare (p : Nat)
  /-- `waitCompletion = (RequestPtr->RequiredEvents == 0)` -/
  | test (p : Nat)
  /-- `sendCommandInternal` -/
  | send (p : Nat) (waitCompletion : Bool)
  /-- complete the request inline -/
  | complete (p : Nat) (status : Status)
  /-- compare-exchange `outstandingRequestPtr` -/
  | post (p : Nat)
  /-- set `transferWorkerDoIoEvt` -/
  | wake
  deriving DecidableEq

/-- Where the transfer worker is. -/
inductive Worker
  | waiting
  /-- it goes to acquire the mutex -/
  | woken
  | transfer (p : Nat)
  | complete (p : Nat) (status : Status)
  /-- send `STOP_TRANSMISSION` -/
  | stop
  /-- release the mutex -/
  | release
  deriving DecidableEq

/-- Who holds `outstandingRequestLock`. -/
inductive Holder
  | transferWorker
  | resetHost
  deriving DecidableEq

/-- A call of `SdPortCompleteRequest`. -/
structure Completion where
  phase : Nat
  status : Status
  deriving DecidableEq

/-- The driver and Sdport. Phases are numbered as they are issued; `requests p` is the request in
phase `p`. -/
structure Sdhc where
  requests : Nat → Request
  issued : Nat
  /-- the phase that Sdport has outstanding -/
  outstanding : Option Nat
  issues : List Issue
  outstandingRequestPtr : Option Nat
  transferWorkerDoIoEvt : Bool
  outstandingRequestLock : Option Holder
  worker : Worker
  /-- the DPC is about to complete this phase -/
  dpc : Option Completion
  /-- what the ISR has returned since the last DPC -/
  pendingEvents : SdportEvents
  pendingErrors : SdportErrors
  completions : List Completion
  /-- the phases that have been handed to the worker -/
  posted : List Nat
  /-- the multi-block transfers whose status the worker has recorded -/
  recorded : List Nat
  /-- the transfers that have been made in full -/
  finished : List Nat
  /-- the phases that had been handed to the worker when the host was last reset -/
  beforeReset : List Nat
  /-- the worker has transferred or completed one of those -/
  afterReset : Bool

namespace Sdhc

def setRequest (s : Sdhc) (p : Nat) (r : Request) : Sdhc :=
  { s with requests := Function.update s.requests p r }

/-- Sdport is done with the phase. -/
def endPhase (s : Sdhc) (p : Nat) : Sdhc :=
  { s with outstanding := if s.outstanding = some p then none else s.outstanding }

/-- `completeRequest` -/
def completeRequest (s : Sdhc) (p : Nat) (status : Status) : Sdhc :=
  { (s.setRequest p { s.requests p with status := status }).endPhase p with
    completions := s.completions ++ [⟨p, status⟩] }

/-! ### `sdhcIssueRequest` -/

/-- Sdport issues a request as its next phase. -/
def issue (s : Sdhc) (r : Request) : Sdhc :=
  { s.setRequest s.issued r with
    issued := s.issued + 1
    outstanding := some s.issued
    issues := .prepare s.issued :: s.issues }

/-- The call goes on to `next`, or returns. -/
def issueGoOn (s : Sdhc) (i : Issue) (next : Option Issue) : Sdhc :=
  { s with issues := advance s.issues i next.toList }

/-- The events that `sendRequestCommand` or `startTransferPio` requires. -/
def requiredEvents (r : Request) : Hsts :=
  match r.type with
  | .startTransfer =>
    if r.multiBlock then { r.requiredEvents with busyIrpt := true } else r.requiredEvents
  | .commandWithTransfer => { dataFlag := true, busyIrpt := r.responseType = .r1b }
  | .commandNoTransfer => { busyIrpt := r.responseType = .r1b }

/-- The next step of a call; `status` is the result of `sendCommandInternal`. -/
def runIssue (s : Sdhc) (status : Status) : Issue → Sdhc
  | .prepare p =>
    (s.setRequest p { s.requests p with requiredEvents := requiredEvents (s.requests p) }).issueGoOn
      (.prepare p) (some (if (s.requests p).type = .startTransfer then .post p else .test p))
  | .test p =>
    s.issueGoOn (.test p) (some (.send p ((s.requests p).requiredEvents = {})))
  | .send p waitCompletion =>
    if waitCompletion then
      s.issueGoOn (.send p waitCompletion) (some (.complete p status))
    else if status = .success then
      s.issueGoOn (.send p waitCompletion) none
    else
      -- the call fails, and so does the request
      (s.issueGoOn (.send p waitCompletion) none).endPhase p
  | .complete p result => (s.completeRequest p result).issueGoOn (.complete p result) none
  | .post p =>
    match s.outstandingRequestPtr with
    | none =>
      { s.issueGoOn (.post p) (some .wake) with
        outstandingRequestPtr := some p
        posted := p :: s.posted }
    -- "A stale request not acquired by transfer worker"
    | some _ => (s.issueGoOn (.post p) none).endPhase p
  | .wake => { s.issueGoOn .wake none with transferWorkerDoIoEvt := true }

/-! ### `sdhcInterrupt` and `sdhcRequestDpc` -/

/-- `sdhcInterrupt`, for a register with an event or an error -/
def sdhcInterrupt (s : Sdhc) (hsts : Hsts) : Sdhc :=
  { s with
    pendingEvents := s.pendingEvents.or (getSdportEventsFromSdhcEvents hsts.events)
    pendingErrors := s.pendingErrors.or (getSdportErrorsFromSdhcErrors hsts.errors) }

/-- The errors that count: deselecting the card raises a time-out. -/
def dpcErrors (r : Request) (errors : SdportErrors) : Hsts :=
  let errors := getSdhcErrorsFromSdportErrors errors
  if errors.cmdTimeOut ∧ r.index = sdcmdSelectCard then { errors with cmdTimeOut := false }
  else errors

/-- `sdhcRequestDpc`: the request after it, and the status it calls `completeRequest` with. -/
def sdhcRequestDpc (r : Request) (events : SdportEvents) (errors : SdportErrors) :
    Request × Option Status :=
  let events := getSdhcEventsFromSdportEvents events
  let requiredEvents := r.requiredEvents.clear events
  let errors := dpcErrors r errors
  if errors ≠ {} then ({ r with requiredEvents := {} }, some (getErrorStatus errors))
  else if requiredEvents = {} then
    let isMultiBlockPioTransfer := r.type = .startTransfer ∧ r.multiBlock
    let status := if isMultiBlockPioTransfer then r.status else .success
    ({ r with
        requiredEvents := {}
        status := status }, some status)
  else ({ r with requiredEvents := requiredEvents }, none)

/-- Sdport's DPC takes what the ISR has returned, and calls `sdhcRequestDpc` for the outstanding
request. -/
def takeEvents (s : Sdhc) : Sdhc :=
  let s' := { s with
    pendingEvents := {}
    pendingErrors := {} }
  match s.outstanding with
  | some p =>
    let (r, status) := sdhcRequestDpc (s.requests p) s.pendingEvents s.pendingErrors
    { s'.setRequest p r with dpc := status.map (⟨p, ·⟩) }
  | none => s'

/-- The call of `completeRequest` in the DPC. -/
def runDpc (s : Sdhc) : Sdhc :=
  match s.dpc with
  | some c => { s.completeRequest c.phase c.status with dpc := none }
  | none => s

/-! ### `transferWorker` and `resetHost` -/

/-- The worker acquires the mutex and takes the request; without one it goes back to wait. -/
def workerTake (s : Sdhc) : Sdhc :=
  match s.outstandingRequestPtr with
  | some p =>
    { s with
      outstandingRequestPtr := none
      outstandingRequestLock := some .transferWorker
      worker := .transfer p }
  | none => { s with worker := .waiting }

/-- The worker does something for the phase. -/
def touch (s : Sdhc) (p : Nat) : Sdhc :=
  { s with afterReset := s.afterReset || decide (p ∈ s.beforeReset) }

/-- The transfer has ended. -/
def finish (s : Sdhc) (p : Nat) (status : Status) : Sdhc :=
  { s with finished := if status = .success then p :: s.finished else s.finished }

/-- The end of the loop of `transferMultiBlockPio` -/
def recordStatus (s : Sdhc) (p : Nat) (status : Status) : Sdhc :=
  { (s.setRequest p { s.requests p with status := status }).finish p status with
    recorded := p :: s.recorded
    worker := .stop }

/-- `transferSingleBlockPio` with the given result, alone or in the loop of
`transferMultiBlockPio`. -/
def transferBlock (s : Sdhc) (p : Nat) (status : Status) : Sdhc :=
  let r := s.requests p
  if r.transferType = .singleBlock then
    { (s.touch p).finish p status with worker := .complete p status }
  else if r.blockCount = 0 then s.recordStatus p .success
  else if status = .success then
    (s.touch p).setRequest p { r with blockCount := r.blockCount - 1 }
  else (s.touch p).recordStatus p status

/-- The next step of the worker; `status` is the result of a block. -/
def runWorker (s : Sdhc) (status : Status) : Sdhc :=
  match s.worker with
  | .waiting => { s with transferWorkerDoIoEvt := false, worker := .woken }
  | .woken => s.workerTake
  | .transfer p => s.transferBlock p status
  | .complete p result => { (s.touch p).completeRequest p result with worker := .release }
  | .stop => { s with worker := .release }
  | .release => { s with outstandingRequestLock := none, worker := .waiting }

/-- `resetHost` acquires the mutex and takes the request back. -/
def resetTake (s : Sdhc) : Sdhc :=
  { s with
    outstandingRequestLock := some .resetHost
    outstandingRequestPtr := none
    beforeReset := s.posted }

end Sdhc

/-! ## The machine -/

/-- The atomic steps of all parties. -/
inductive SdhcAction
  /-- Sdport issues a command -/
  | issueCommand (transfer : Bool) (index : Nat) (responseType : ResponseType)
      (transferType : TransferType) (blockCount : Nat)
  /-- Sdport starts the transfer of the command before -/
  | issueTransfer
  | runIssue (i : Issue) (status : Status)
  /-- Sdport times out -/
  | giveUp
  | interrupt (hsts : Hsts)
  /-- Sdport's DPC -/
  | dpc
  | runDpc
  | runWorker (status : Status)
  | resetHost
  /-- `resetHost` releases the mutex and returns -/
  | resetReturn

/-- The phase that Sdport issues for a command. -/
def commandRequest (transfer : Bool) (index : Nat) (responseType : ResponseType)
    (transferType : TransferType) (blockCount : Nat) : Request where
  type := if transfer then .commandWithTransfer else .commandNoTransfer
  index := index
  responseType := responseType
  transferType := transferType
  blockCount := blockCount
  requiredEvents := {}
  status := .success

namespace Sdhc

/-- The command before has been completed with success, and has a transfer. -/
def TransferDue (s : Sdhc) : Prop :=
  0 < s.issued ∧ (s.requests (s.issued - 1)).type = .commandWithTransfer ∧
    ⟨s.issued - 1, .success⟩ ∈ s.completions

instance (s : Sdhc) : Decidable s.TransferDue := inferInstanceAs (Decidable (_ ∧ _ ∧ _))

/-- The worker waits for its event and for the mutex. -/
def WorkerEnabled (s : Sdhc) : Prop :=
  (s.worker = .waiting → s.transferWorkerDoIoEvt = true) ∧
    (s.worker = .woken → s.outstandingRequestLock = none)

instance (s : Sdhc) : Decidable s.WorkerEnabled :=
  inferInstanceAs (Decidable ((_ → _) ∧ (_ → _)))

/-- When a step can happen. Sdport has one request outstanding at a time, and one DPC. -/
def enabled (s : Sdhc) : SdhcAction → Prop
  | .issueCommand .. => s.outstanding = none
  | .issueTransfer => s.outstanding = none ∧ s.TransferDue
  | .runIssue i _ => i ∈ s.issues
  | .giveUp => s.outstanding.isSome
  | .interrupt hsts => hsts ≠ {}
  | .dpc => s.dpc = none
  | .runDpc => s.dpc ≠ none
  | .runWorker _ => s.WorkerEnabled
  | .resetHost => s.outstandingRequestLock = none
  | .resetReturn => s.outstandingRequestLock = some .resetHost

instance : ∀ (s : Sdhc) (a : SdhcAction), Decidable (s.enabled a)
  | _, .issueCommand .. | _, .giveUp | _, .dpc | _, .resetHost | _, .resetReturn =>
    inferInstanceAs (Decidable (_ = _))
  | _, .issueTransfer => inferInstanceAs (Decidable (_ ∧ _))
  | _, .runIssue .. => inferInstanceAs (Decidable (_ ∈ _))
  | _, .interrupt _ | _, .runDpc => inferInstanceAs (Decidable (_ ≠ _))
  | s, .runWorker _ => inferInstanceAs (Decidable s.WorkerEnabled)

/-- What a step does. -/
def effect (s : Sdhc) : SdhcAction → Sdhc
  | .issueCommand transfer index responseType transferType blockCount =>
    s.issue (commandRequest transfer index responseType transferType blockCount)
  | .issueTransfer => s.issue { s.requests (s.issued - 1) with type := .startTransfer }
  | .runIssue i status => s.runIssue status i
  | .giveUp => { s with outstanding := none }
  | .interrupt hsts => s.sdhcInterrupt hsts
  | .dpc => s.takeEvents
  | .runDpc => s.runDpc
  | .runWorker status => s.runWorker status
  | .resetHost => s.resetTake
  | .resetReturn => { s with outstandingRequestLock := none }

/-- The driver after `sdhcInitialize`. -/
def start : Sdhc where
  requests _ := commandRequest false 0 .none .singleBlock 0
  issued := 0
  outstanding := none
  issues := []
  outstandingRequestPtr := none
  transferWorkerDoIoEvt := false
  outstandingRequestLock := none
  worker := .waiting
  dpc := none
  pendingEvents := {}
  pendingErrors := {}
  completions := []
  posted := []
  recorded := []
  finished := []
  beforeReset := []
  afterReset := false

end Sdhc

/-- All interleavings. -/
def sdhcMachine : Machine Sdhc SdhcAction :=
  Machine.guarded (· = Sdhc.start) Sdhc.enabled Sdhc.effect

/-! ## The property and the condition -/

/-- A phase is completed once, a transfer successfully only when it has finished, and the worker
leaves alone what was handed to it before a reset. -/
structure CompletionSound (s : Sdhc) : Prop where
  once : ∀ p, (s.completions.map Completion.phase).count p ≤ 1
  transferred : ∀ c ∈ s.completions, c.status = .success →
    (s.requests c.phase).type = .startTransfer → c.phase ∈ s.finished
  reset : s.afterReset = false

/-- The call has not yet tested the required events of the phase. -/
def Issue.Starts (p : Nat) (i : Issue) : Prop := i = .prepare p ∨ i = .test p

namespace Sdhc

/-- The errors fail the phase. -/
def Failed (s : Sdhc) (p : Nat) : Prop := dpcErrors (s.requests p) s.pendingErrors ≠ {}

/-- All events have come that the phase requires. -/
def Arrived (s : Sdhc) (p : Nat) : Prop :=
  (s.requests p).requiredEvents.clear (getSdhcEventsFromSdportEvents s.pendingEvents) = {}

end Sdhc

/-- When the DPC completes a request, then the request has waited for events: its mask was not
empty, the call that issues it is past its test, and of a transfer the worker has recorded the
status, unless it fails. -/
def Awaited (s : Sdhc) : SdhcAction → Prop
  | .dpc => ∀ p, s.outstanding = some p → s.Failed p ∨ s.Arrived p →
    (s.requests p).requiredEvents ≠ {} ∧ (∀ i ∈ s.issues, ¬ i.Starts p) ∧
      ((s.requests p).type = .startTransfer → ¬ s.Failed p → p ∈ s.recorded)
  | _ => True

end RpiDrivers.Rpisdhc
