import Mathlib.Logic.Function.Basic
import RpiDrivers.Sdhc.Cmd53

/-!
# The outstanding request (`bcm2836sdhc.c`)

Sdport has one request at a time in progress (`MaximumOutstandingRequests`). It issues the command,
and issues the request again for each block. The driver keeps the request in `OutstandingRequest`;
the pointer is what `SdhcRequestDpc` looks at to tell a request from one that has not been issued
yet.

Sdport makes its calls one at a time. A DPC may run between the steps of `SdhcSlotIssueRequest`,
which exchanges the pointer, then dispatches the request and moves a block as in `Cmd53`.

- `Tracked`: the pointer is the request in progress, `SdhcCompleteRequest` finds it there, and
  nothing else is completed.
- `Cleared`: the condition, that no request is refused with the pointer set and no error comes
  before the last block.
- `tracked_of_cleared`: **runs that keep to it are tracked**; `tracked_iff_cleared`: a step that
  does not meet it leaves the pointer set with no request in progress.
- `stale_request`: the pointer that a refused request leaves, and the one of a failed read.
-/

namespace RpiDrivers.Sdhc.Outstanding

open RpiDrivers.Lib

/-! ## Requests -/

/-- The `NTSTATUS` values that occur. -/
inductive Status
  | success
  | pending
  | moreProcessingRequired
  | invalidParameter
  | notSupported
  | notImplemented
  | ioTimeout
  | crcError
  | deviceDataError
  | deviceProtocolError
  | devicePowerFailure
  | ioDeviceError
  deriving DecidableEq

/-- `NT_SUCCESS` -/
def Status.ntSuccess : Status → Bool
  | .success | .pending => true
  | _ => false

/-- A failure; `STATUS_MORE_PROCESSING_REQUIRED` asks for the next transfer. -/
def Status.failed (status : Status) : Bool :=
  !status.ntSuccess && status ≠ .moreProcessingRequired

/-- `SDPORT_REQUEST_TYPE`; `unspecified` stands for every other value. -/
inductive RequestType
  | unspecified
  | commandNoTransfer
  | commandWithTransfer
  | startTransfer
  deriving DecidableEq

/-- `SDPORT_TRANSFER_TYPE` -/
inductive TransferType
  | undefined
  | none
  | singleBlock
  | multiBlock
  deriving DecidableEq

/-- `SDPORT_TRANSFER_METHOD` -/
inductive TransferMethod
  | undefined
  | pio
  | sgDma
  deriving DecidableEq

/-- `SDPORT_TRANSFER_DIRECTION` -/
inductive TransferDirection
  | undefined
  | read
  | write
  deriving DecidableEq

/-- `SDPORT_RESPONSE_TYPE`; `undefined` stands for every value that the driver does not know. -/
inductive ResponseType
  | undefined
  | none
  | r1
  | r1b
  | r2
  | r3
  | r4
  | r5
  | r5b
  | r6
  deriving DecidableEq

/-- `SDPORT_COMMAND`; `dataBuffer` is the offset in the buffer of the caller. -/
structure Command where
  index : Nat
  responseType : ResponseType
  transferType : TransferType
  transferMethod : TransferMethod
  transferDirection : TransferDirection
  length : Nat
  blockSize : UInt16
  blockCount : UInt16
  dataBuffer : Nat

/-- `SDPORT_REQUEST` -/
structure Request where
  type : RequestType
  command : Command
  requiredEvents : BitVec 32
  status : Status

/-- `TransferType` is neither `SdTransferTypeNone` nor `SdTransferTypeUndefined`. -/
def Command.hasData (command : Command) : Bool :=
  command.transferType ≠ .none && command.transferType ≠ .undefined

/-- `IsCommandCompleted`: data commands are done after all data has been transferred. -/
def Command.isCompleted (command : Command) : Bool :=
  !command.hasData || command.blockCount = 0

/-! ## Events and errors -/

/-- `SDHC_IS_CMD_COMPLETE` -/
def isCmdComplete : BitVec 32 := 0x0001

/-- `SDHC_IS_TRANSFER_COMPLETE` -/
def isTransferComplete : BitVec 32 := 0x0002

/-- `SDHC_IS_BUFFER_WRITE_READY` -/
def isBufferWriteReady : BitVec 32 := 0x0010

/-- `SDHC_IS_BUFFER_READ_READY` -/
def isBufferReadReady : BitVec 32 := 0x0020

/-- `SDHC_IS_COMMAND_EVENT` -/
def isCommandEvent : BitVec 32 :=
  isCmdComplete ||| isTransferComplete ||| isBufferWriteReady ||| isBufferReadReady

/-- `SdhcConvertErrorToStatus` -/
def sdhcConvertErrorToStatus (error : BitVec 16) : Status :=
  if error = 0 then .success
  -- SDHC_ES_CMD_TIMEOUT, SDHC_ES_DATA_TIMEOUT
  else if error &&& (0x0001 ||| 0x0010) ≠ 0 then .ioTimeout
  -- SDHC_ES_CMD_CRC_ERROR, SDHC_ES_DATA_CRC_ERROR
  else if error &&& (0x0002 ||| 0x0020) ≠ 0 then .crcError
  -- SDHC_ES_CMD_END_BIT_ERROR, SDHC_ES_DATA_END_BIT_ERROR
  else if error &&& (0x0004 ||| 0x0040) ≠ 0 then .deviceDataError
  -- SDHC_ES_CMD_INDEX_ERROR
  else if error &&& 0x0008 ≠ 0 then .deviceProtocolError
  -- SDHC_ES_BUS_POWER_ERROR
  else if error &&& 0x0080 ≠ 0 then .devicePowerFailure
  else .ioDeviceError

/-- Every error is a failure. -/
theorem failed_sdhcConvertErrorToStatus {error : BitVec 16} (h : error ≠ 0) :
    (sdhcConvertErrorToStatus error).failed = true := by
  rw [sdhcConvertErrorToStatus, if_neg h]
  repeat' split
  all_goals rfl

/-! ## The driver and Sdport -/

/-- Where `SdhcSlotIssueRequest` is. -/
inductive Call
  /-- it has exchanged the pointer -/
  | dispatch (r : Nat)
  /-- `SdhcStartPioTransfer` has taken `CurrentEvents` -/
  | looked (r : Nat) (currentEvents : BitVec 32)
  /-- it has moved the block -/
  | accessed (r : Nat) (currentEvents : BitVec 32)
  deriving DecidableEq

def Call.request : Call → Nat
  | .dispatch r | .looked r _ | .accessed r _ => r

/-- What Sdport is doing. -/
inductive Port
  | idle
  /-- it has a request that it has not issued yet -/
  | prepared (r : Nat)
  /-- it has issued the request, and waits for its completion -/
  | waiting (r : Nat)
  /-- the request is to be issued again for the next block -/
  | owed (r : Nat)
  deriving DecidableEq

/-- The request that has been issued, and neither completed for good, refused nor aborted. -/
def Port.inProgress : Port → Option Nat
  | .waiting r | .owed r => some r
  | .idle | .prepared _ => none

/-- `SDHC_EXTENSION`, with the requests of Sdport. -/
structure Host where
  outstandingRequest : Option Nat
  currentEvents : BitVec 32
  unalignedReqState : UnalignedReqState
  unalignedRequest : Request
  cmdIssued : Nat
  cmdCompleted : Nat
  cmdAborted : Nat
  requests : Nat → Request
  call : Option Call
  port : Port
  /-- `NT_ASSERT` has failed in `SdhcCompleteRequest` -/
  assertFailed : Bool
  /-- a request was completed that is not in progress -/
  spurious : Bool

def Host.setRequest (h : Host) (r : Nat) (request : Request) : Host :=
  { h with requests := Function.update h.requests r request }

/-! ## Completing a request -/

/-- `SdPortCompleteRequest`: a failure ends the request, and so does the last block. -/
def sdPortCompleteRequest (h : Host) (r : Nat) (status : Status) : Host :=
  if h.port.inProgress = some r then
    { h with
      port :=
        if status.failed || (h.requests r).command.isCompleted then .idle else .owed r }
  else { h with spurious := true }

/-- `SdhcCompleteRequest`, for a request that is not the internal one -/
def sdhcCompleteRequest (h : Host) (r : Nat) (status : Status) : Host :=
  let h := if (h.requests r).command.isCompleted then
      { h with
        outstandingRequest := none
        assertFailed := h.assertFailed || h.outstandingRequest ≠ some r }
    else h
  sdPortCompleteRequest { h with cmdCompleted := h.cmdCompleted + 1 } r status

/-! ## Sending a command -/

/-- `SDCMD_IO_RW_EXTENDED` -/
def sdcmdIoRwExtended : Nat := 53

/-- `SdhcPrepareInternalRequest` -/
def sdhcPrepareInternalRequest (request : Request) : Request :=
  let command := request.command
  let length := command.length % command.blockSize.toNat
  { request with
    command := { command with
      transferType := .singleBlock
      length := length
      blockCount := 1
      blockSize := UInt16.ofNat length
      dataBuffer := command.dataBuffer + command.blockSize.toNat * command.blockCount.toNat } }

/-- `SdhcStartNonBlockSizeAlignedRequest` -/
def sdhcStartNonBlockSizeAlignedRequest (h : Host) (request : Request) (internal : Bool) : Host :=
  let command := request.command
  if command.index ≠ sdcmdIoRwExtended then { h with unalignedReqState := .idle }
  else if internal then h
  else if command.blockCount.toNat * command.blockSize.toNat < command.length then
    { h with
      unalignedRequest := sdhcPrepareInternalRequest request
      unalignedReqState := .ready }
  else h

/-- The adjustment of `BlockSize` and `BlockCount` in `SdhcSetTransferMode`. -/
def adjustBlocks (command : Command) : Command :=
  let blockCount := UInt16.ofNat (command.length / command.blockSize.toNat)
  if blockCount = 0 then
    { command with
      blockCount := 1
      blockSize := UInt16.ofNat command.length }
  else { command with blockCount := blockCount }

/-- `SdhcSetTransferMode` -/
def sdhcSetTransferMode (h : Host) (request : Request) (internal : Bool) :
    Host × Request × Status :=
  if 2048 < request.command.blockSize then (h, request, .invalidParameter)
  else if request.command.transferDirection = .undefined then (h, request, .invalidParameter)
  else
    let request := { request with command := adjustBlocks request.command }
    (sdhcStartNonBlockSizeAlignedRequest h request internal, request, .success)

/-- `SdhcBuildTransfer` -/
def sdhcBuildTransfer (h : Host) (request : Request) (internal : Bool) : Host × Request × Status :=
  match request.command.transferMethod with
  | .pio => sdhcSetTransferMode h request internal
  -- `SdhcBuildAdmaTransfer`
  | .sgDma => (h, request, .notImplemented)
  | .undefined => (h, request, .notSupported)

/-- The events that fire after the command register has been written. -/
def commandEvents (command : Command) : BitVec 32 :=
  let response :=
    if command.responseType = .r1b ∨ command.responseType = .r5b then isTransferComplete else 0
  let data :=
    if command.transferType ≠ .none then
      match command.transferMethod with
      | .sgDma => isTransferComplete
      | .pio =>
        if command.transferDirection = .read then isBufferReadReady else isBufferWriteReady
      | .undefined => 0
    else 0
  isCmdComplete ||| response ||| data

/-- `SdhcSendCommand` -/
def sdhcSendCommand (h : Host) (request : Request) (internal : Bool) : Host × Request × Status :=
  let (h, request, status) :=
    if request.command.hasData then sdhcBuildTransfer h request internal
    else (h, request, .success)
  if !status.ntSuccess then (h, request, status)
  else if request.command.responseType = .undefined then (h, request, .invalidParameter)
  else
    ({ h with currentEvents := 0 },
      { request with requiredEvents := commandEvents request.command }, .pending)

/-! ## Transfers -/

/-- The end of `SdhcStartPioTransfer`: the request after it, and the status. The status is
`STATUS_SUCCESS` when the request is to be completed. -/
def finishPioTransfer (request : Request) (currentEvents : BitVec 32) : Request × Status :=
  let command := { request.command with blockCount := request.command.blockCount - 1 }
  if 1 ≤ command.blockCount then
    let ready :=
      if command.transferDirection = .read then isBufferReadReady else isBufferWriteReady
    ({ request with
        command := { command with dataBuffer := command.dataBuffer + command.blockSize.toNat }
        requiredEvents := request.requiredEvents ||| ready
        status := .moreProcessingRequired }, .pending)
  else if currentEvents &&& isTransferComplete ≠ 0 then
    ({ request with command := command, status := .success }, .success)
  else
    ({ request with
        command := command
        requiredEvents := request.requiredEvents ||| isTransferComplete
        status := .success }, .pending)

/-- `SdhcStartTransfer` for the internal request, whose completion `SdhcCompleteRequest` does not
report -/
def startInternal (h : Host) : Host × Status :=
  match h.unalignedRequest.command.transferMethod with
  | .pio =>
    let (request, status) := finishPioTransfer h.unalignedRequest h.currentEvents
    ({ h with
        currentEvents := 0
        unalignedRequest := request }, status)
  -- `SdhcStartAdmaTransfer` completes it with Sdport
  | .sgDma =>
    ({ h with
        unalignedRequest := { h.unalignedRequest with status := .success }
        spurious := true }, .success)
  | .undefined => (h, .notSupported)

/-- `SdhcNonBlockSizeAlignedRequestSM` -/
def sdhcNonBlockSizeAlignedRequestSM (h : Host) (request : Request) : Host × Status :=
  match h.unalignedReqState with
  | .idle => (h, .success)
  | .ready =>
    -- the aligned part is not done
    if request.command.blockCount ≠ 0 then (h, .success)
    else
      let (h, internal, status) :=
        sdhcSendCommand { h with unalignedReqState := .sendCommand } h.unalignedRequest true
      let h := { h with unalignedRequest := internal }
      if !status.ntSuccess then ({ h with unalignedReqState := .idle }, status)
      else (h, .moreProcessingRequired)
  | .sendCommand =>
    let (h, status) := startInternal { h with unalignedReqState := .startTransfer }
    if !status.ntSuccess then ({ h with unalignedReqState := .idle }, status)
    else if status = .pending then (h, .moreProcessingRequired)
    else ({ h with unalignedReqState := .idle }, .success)
  | .startTransfer => ({ h with unalignedReqState := .idle }, .success)

/-- `SdhcCompleteNonBlockSizeAlignedRequest` -/
def sdhcCompleteNonBlockSizeAlignedRequest (h : Host) (request : Request) (status : Status) :
    Host × Status :=
  if status.failed then ({ h with unalignedReqState := .idle }, .success)
  else sdhcNonBlockSizeAlignedRequestSM h request

/-! ## The calls of Sdport -/

/-- The end of `SdhcSlotIssueRequest` with a failure: Sdport gives the request up. -/
def Host.refuse (h : Host) (r : Nat) : Host :=
  { h with
    call := none
    port := if h.port.inProgress = some r then .idle else h.port }

/-- The exchange of `SdhcSlotIssueRequest`. -/
def issueRequest (h : Host) (r : Nat) : Host :=
  { h with
    outstandingRequest := some r
    cmdIssued := h.cmdIssued + 1
    call := some (.dispatch r)
    port := .waiting r }

/-- The switch of `SdhcSlotIssueRequest`. -/
def dispatchRequest (h : Host) (r : Nat) : Host :=
  let request := h.requests r
  match request.type with
  | .commandNoTransfer | .commandWithTransfer =>
    let (h, request, status) := sdhcSendCommand h request false
    let h := h.setRequest r request
    if status.ntSuccess then { h with call := none } else h.refuse r
  | .startTransfer =>
    match request.command.transferMethod with
    | .pio =>
      { h with
        call := some (.looked r h.currentEvents)
        currentEvents := 0 }
    -- `SdhcStartAdmaTransfer`
    | .sgDma =>
      sdPortCompleteRequest
        { h.setRequest r { request with status := .success } with call := none } r .success
    | .undefined => h.refuse r
  | .unspecified => h.refuse r

/-- The last step of `SdhcStartPioTransfer` for the request. -/
def finishTransfer (h : Host) (r : Nat) (currentEvents : BitVec 32) : Host :=
  let (request, status) := finishPioTransfer (h.requests r) currentEvents
  let h := { h.setRequest r request with call := none }
  if status = .success then sdhcCompleteRequest h r .success else h

/-- `SdhcRequestDpc` once it has found a request outstanding -/
def requestDpcBody (h : Host) (r : Nat) (events : BitVec 32) (errors : BitVec 16) : Host :=
  let request :=
    { h.requests r with requiredEvents := (h.requests r).requiredEvents &&& ~~~events }
  if errors ≠ 0 then
    let status := sdhcConvertErrorToStatus errors
    let (h, _) := sdhcCompleteNonBlockSizeAlignedRequest h request status
    sdhcCompleteRequest
      { h.setRequest r { request with requiredEvents := 0 } with currentEvents := 0 } r status
  else if request.requiredEvents = 0 then
    let status :=
      if request.status ≠ .moreProcessingRequired then .success else request.status
    let request := { request with status := status }
    let (h, more) := sdhcCompleteNonBlockSizeAlignedRequest (h.setRequest r request) request status
    -- the trailing bytes are being transferred
    if more = .moreProcessingRequired then h
    else sdhcCompleteRequest h r status
  else h.setRequest r request

/-- `SdhcRequestDpc` -/
def sdhcRequestDpc (h : Host) (r : Nat) (events : BitVec 32) (errors : BitVec 16) : Host :=
  if events &&& isCommandEvent = 0 ∧ errors = 0 then h
  else
    -- the events may be those of the next phase of the command
    let h := { h with currentEvents := h.currentEvents ||| events }
    if h.outstandingRequest = none then h
    else requestDpcBody h r events errors

/-- `SDPORT_RESET_TYPE`; `other` stands for every value that the driver does not know. -/
inductive ResetType
  | all
  | cmd
  | dat
  | other
  deriving DecidableEq

/-- `SdhcResetHost` -/
def sdhcResetHost (h : Host) : ResetType → Host
  | .all | .cmd | .dat =>
    { h with
      outstandingRequest := none
      cmdAborted := h.cmdAborted + h.outstandingRequest.isSome.toNat
      unalignedReqState := .idle
      port := if h.port.inProgress.isSome then .idle else h.port }
  | .other => h

/-! ## Runs -/

/-- The atomic steps. -/
inductive SlotAction
  /-- Sdport takes up a request -/
  | prepare (r : Nat) (request : Request)
  /-- Sdport issues its request, and the driver exchanges the pointer -/
  | issueRequest
  | dispatch
  /-- `SdhcStartPioTransfer` moves the block -/
  | accessPort
  | finishTransfer
  | requestDpc (r : Nat) (events : BitVec 32) (errors : BitVec 16)
  | resetHost (type : ResetType)

/-- The calls of Sdport come one at a time, and the DPC is called for the request in progress, if
there is one. Sdport starts a transfer by issuing the request of a command again. -/
def slotStep (h : Host) : SlotAction → Option Host
  | .prepare r request =>
    if h.call = none ∧ h.port = .idle ∧ request.type ≠ .startTransfer then
      some { h.setRequest r request with port := .prepared r }
    else none
  | .issueRequest =>
    match h.call, h.port with
    | none, .prepared r => some (issueRequest h r)
    | none, .owed r =>
      some (issueRequest (h.setRequest r { h.requests r with type := .startTransfer }) r)
    | _, _ => none
  | .dispatch =>
    match h.call with
    | some (.dispatch r) => some (dispatchRequest h r)
    | _ => none
  | .accessPort =>
    match h.call with
    | some (.looked r currentEvents) => some { h with call := some (.accessed r currentEvents) }
    | _ => none
  | .finishTransfer =>
    match h.call with
    | some (.accessed r currentEvents) => some (finishTransfer h r currentEvents)
    | _ => none
  | .requestDpc r events errors =>
    if h.port.inProgress = none ∨ h.port.inProgress = some r then
      some (sdhcRequestDpc h r events errors)
    else none
  | .resetHost type => if h.call = none then some (sdhcResetHost h type) else none

/-- The driver when it has been loaded; Sdport has its requests anywhere. -/
def Host.Initial (h : Host) : Prop :=
  h.outstandingRequest = none ∧ h.unalignedReqState = .idle ∧ h.call = none ∧ h.port = .idle ∧
    h.assertFailed = false ∧ h.spurious = false

def slotMachine : Machine Host SlotAction where
  init := Host.Initial
  step := slotStep

/-- The pointer is the request in progress, `SdhcCompleteRequest` has always found the request
that it completes there, and a DPC with no request in progress only collects its events. -/
structure Tracked (h : Host) : Prop where
  outstanding : h.outstandingRequest = h.port.inProgress
  asserts : h.assertFailed = false
  inProgress : h.spurious = false
  quiet : h.port.inProgress = none → ∀ r events errors, ∃ currentEvents,
    sdhcRequestDpc h r events errors = { h with currentEvents := currentEvents }

/-- The driver takes the request: it knows its type, its response and its way to move data. -/
def Request.Accepted (request : Request) : Prop :=
  match request.type with
  | .commandNoTransfer | .commandWithTransfer =>
    (request.command.hasData = true → request.command.transferMethod = .pio ∧
      request.command.blockSize ≤ 2048 ∧ request.command.transferDirection ≠ .undefined) ∧
      request.command.responseType ≠ .undefined
  | .startTransfer => request.command.transferMethod ≠ .undefined
  | .unspecified => False

instance (request : Request) : Decidable request.Accepted := by
  unfold Request.Accepted
  split <;> infer_instance

/-- The condition: no request is refused while it is in progress, and errors come for a request in
progress only when it has no data to transfer or none left. -/
def Cleared (h : Host) : SlotAction → Prop
  | .dispatch => ∀ r ∈ h.port.inProgress, h.call = some (.dispatch r) → (h.requests r).Accepted
  | .requestDpc r _ errors =>
    errors ≠ 0 → h.port.inProgress = some r → (h.requests r).command.isCompleted = true
  | _ => True

instance (h : Host) (a : SlotAction) : Decidable (Cleared h a) := by
  unfold Cleared
  split <;> infer_instance

/-! ## What the functions leave alone -/

@[simp] theorem setRequest_self (h : Host) (r : Nat) (request : Request) :
    (h.setRequest r request).requests r = request :=
  Function.update_self ..

theorem setRequest_of_ne (h : Host) {r r' : Nat} (hne : r' ≠ r) (request : Request) :
    (h.setRequest r request).requests r' = h.requests r' :=
  Function.update_of_ne hne ..

/-- What all requests keep when one of them keeps it. -/
theorem setRequest_keeps {β : Type} (f : Request → β) (h : Host) {r : Nat} {request : Request}
    (hf : f request = f (h.requests r)) (r' : Nat) :
    f ((h.setRequest r request).requests r') = f (h.requests r') := by
  by_cases hr : r' = r
  · rw [hr, setRequest_self, hf]
  · rw [setRequest_of_ne h hr]

/-- The parts of the state that sending a command and the state machine of the internal request
leave alone. -/
structure SameSlot (h h' : Host) : Prop where
  outstandingRequest : h'.outstandingRequest = h.outstandingRequest
  requests : h'.requests = h.requests
  call : h'.call = h.call
  port : h'.port = h.port
  assertFailed : h'.assertFailed = h.assertFailed
  spurious : h'.spurious = h.spurious

theorem SameSlot.refl (h : Host) : SameSlot h h := ⟨rfl, rfl, rfl, rfl, rfl, rfl⟩

/-! ## Sending a command -/

theorem adjustBlocks_transferType (command : Command) :
    (adjustBlocks command).transferType = command.transferType := by
  rw [adjustBlocks]
  split <;> rfl

theorem adjustBlocks_transferMethod (command : Command) :
    (adjustBlocks command).transferMethod = command.transferMethod := by
  rw [adjustBlocks]
  split <;> rfl

theorem adjustBlocks_responseType (command : Command) :
    (adjustBlocks command).responseType = command.responseType := by
  rw [adjustBlocks]
  split <;> rfl

theorem hasData_adjustBlocks (command : Command) :
    (adjustBlocks command).hasData = command.hasData := by
  rw [Command.hasData, adjustBlocks_transferType, Command.hasData]

/-- The internal request moves data, and when its command has been sent it does so by PIO. -/
structure Internal (h : Host) : Prop where
  ready : h.unalignedReqState = .ready → h.unalignedRequest.command.hasData = true
  sent : h.unalignedReqState = .sendCommand →
    h.unalignedRequest.command.transferMethod = .pio

theorem internal_of_idle {h : Host} (hidle : h.unalignedReqState = .idle) : Internal h := by
  constructor
  · intro hc
    rw [hidle] at hc
    cases hc
  · intro hc
    rw [hidle] at hc
    cases hc

theorem sameSlot_start (h : Host) (request : Request) (internal : Bool) :
    SameSlot h (sdhcStartNonBlockSizeAlignedRequest h request internal) := by
  simp only [sdhcStartNonBlockSizeAlignedRequest]
  split_ifs <;> exact ⟨rfl, rfl, rfl, rfl, rfl, rfl⟩

theorem internal_start {h : Host} (hi : Internal h) (request : Request) (internal : Bool) :
    Internal (sdhcStartNonBlockSizeAlignedRequest h request internal) := by
  simp only [sdhcStartNonBlockSizeAlignedRequest]
  split_ifs
  · exact internal_of_idle rfl
  · exact hi
  · exact ⟨fun _ => rfl, (fun hc => by cases hc)⟩
  · exact hi

/-- What sending a command does: the request keeps its kind, and it is accepted when the driver
can move its data and knows its response. -/
structure Sent (h : Host) (request : Request) (sent : Host × Request × Status) : Prop where
  same : SameSlot h sent.1
  internal : Internal h → Internal sent.1
  type : sent.2.1.type = request.type
  hasData : sent.2.1.command.hasData = request.command.hasData
  transferMethod : sent.2.1.command.transferMethod = request.command.transferMethod
  accepted : sent.2.2.ntSuccess = true ↔
    (request.command.hasData = true → request.command.transferMethod = .pio ∧
      request.command.blockSize ≤ 2048 ∧ request.command.transferDirection ≠ .undefined) ∧
      request.command.responseType ≠ .undefined

/-- What building a transfer does. -/
structure Built (h : Host) (request : Request) (built : Host × Request × Status) : Prop where
  same : SameSlot h built.1
  internal : Internal h → Internal built.1
  type : built.2.1.type = request.type
  hasData : built.2.1.command.hasData = request.command.hasData
  transferMethod : built.2.1.command.transferMethod = request.command.transferMethod
  responseType : built.2.1.command.responseType = request.command.responseType
  accepted : built.2.2.ntSuccess = true ↔ request.command.transferMethod = .pio ∧
    request.command.blockSize ≤ 2048 ∧ request.command.transferDirection ≠ .undefined

theorem built_sdhcBuildTransfer (h : Host) (request : Request) (internal : Bool) :
    Built h request (sdhcBuildTransfer h request internal) := by
  rw [sdhcBuildTransfer]
  split
  · next hpio =>
    rw [sdhcSetTransferMode]
    split
    · next hsize =>
      refine ⟨.refl h, id, rfl, rfl, rfl, rfl, iff_of_false Bool.false_ne_true ?_⟩
      rintro ⟨-, hle, -⟩
      exact absurd hsize (UInt16.not_lt.2 hle)
    · next hsize =>
      split
      · next hdir =>
        exact ⟨.refl h, id, rfl, rfl, rfl, rfl,
          iff_of_false Bool.false_ne_true fun hc => hc.2.2 hdir⟩
      · next hdir =>
        exact ⟨sameSlot_start h _ internal, fun hi => internal_start hi _ internal, rfl,
          hasData_adjustBlocks _, adjustBlocks_transferMethod _, adjustBlocks_responseType _,
          iff_of_true rfl ⟨hpio, UInt16.not_lt.1 hsize, hdir⟩⟩
  · next hdma =>
    refine ⟨.refl h, id, rfl, rfl, rfl, rfl, iff_of_false Bool.false_ne_true ?_⟩
    rintro ⟨hpio, -⟩
    rw [hdma] at hpio
    cases hpio
  · next hundef =>
    refine ⟨.refl h, id, rfl, rfl, rfl, rfl, iff_of_false Bool.false_ne_true ?_⟩
    rintro ⟨hpio, -⟩
    rw [hundef] at hpio
    cases hpio

/-- The part of `SdhcSendCommand` after the transfer has been built. -/
theorem sent_of_built {h : Host} {request : Request} (built : Host × Request × Status)
    (hb : SameSlot h built.1 ∧ (Internal h → Internal built.1) ∧
      built.2.1.type = request.type ∧ built.2.1.command.hasData = request.command.hasData ∧
      built.2.1.command.transferMethod = request.command.transferMethod ∧
      built.2.1.command.responseType = request.command.responseType)
    (haccepted : built.2.2.ntSuccess = true ↔
      (request.command.hasData = true → request.command.transferMethod = .pio ∧
        request.command.blockSize ≤ 2048 ∧ request.command.transferDirection ≠ .undefined)) :
    Sent h request
      (if !built.2.2.ntSuccess then built
      else if built.2.1.command.responseType = .undefined then
        (built.1, built.2.1, .invalidParameter)
      else
        ({ built.1 with currentEvents := 0 },
          { built.2.1 with requiredEvents := commandEvents built.2.1.command }, .pending)) := by
  obtain ⟨hsame, hinternal, htype, hdata, hmethod, hresponse⟩ := hb
  cases hs : built.2.2.ntSuccess with
  | false =>
    rw [if_pos (by rfl)]
    refine ⟨hsame, hinternal, htype, hdata, hmethod, ?_⟩
    rw [hs] at haccepted ⊢
    exact iff_of_false Bool.false_ne_true fun hc => Bool.false_ne_true (haccepted.2 hc.1)
  | true =>
    rw [if_neg (by simp)]
    split
    · next hundef =>
      refine ⟨hsame, hinternal, htype, hdata, hmethod, iff_of_false Bool.false_ne_true ?_⟩
      rintro ⟨-, hc⟩
      exact hc (hresponse.symm.trans hundef)
    · next hknown =>
      refine ⟨{ hsame with }, ?_, htype, hdata, hmethod,
        iff_of_true rfl ⟨haccepted.1 hs, fun hc => hknown (hresponse.trans hc)⟩⟩
      intro hi
      exact ⟨(hinternal hi).ready, (hinternal hi).sent⟩

theorem sent_sdhcSendCommand (h : Host) (request : Request) (internal : Bool) :
    Sent h request (sdhcSendCommand h request internal) := by
  rw [sdhcSendCommand]
  cases hdata : request.command.hasData with
  | true =>
    have hb := built_sdhcBuildTransfer h request internal
    refine sent_of_built (sdhcBuildTransfer h request internal) ⟨hb.same, hb.internal, hb.type,
      hb.hasData, hb.transferMethod, hb.responseType⟩ (hb.accepted.trans ?_)
    rw [hdata]
    exact ⟨fun hc _ => hc, fun hc => hc rfl⟩
  | false =>
    refine sent_of_built (h, request, .success) ⟨.refl h, id, rfl, rfl, rfl, rfl⟩
      (iff_of_true rfl ?_)
    intro hc
    rw [hdata] at hc
    cases hc

/-! ## The state machine of the internal request -/

/-- It leaves the request of Sdport alone. -/
theorem sdhcNonBlockSizeAlignedRequestSM_spec {h : Host} (hi : Internal h) (request : Request) :
    SameSlot h (sdhcNonBlockSizeAlignedRequestSM h request).1 ∧
      Internal (sdhcNonBlockSizeAlignedRequestSM h request).1 := by
  rw [sdhcNonBlockSizeAlignedRequestSM]
  cases hstate : h.unalignedReqState with
  | idle => exact ⟨.refl h, hi⟩
  | ready =>
    simp only []
    split
    · exact ⟨.refl h, hi⟩
    · have hdata := hi.ready hstate
      have hsent := sent_sdhcSendCommand { h with unalignedReqState := .sendCommand }
        h.unalignedRequest true
      revert hsent
      generalize sdhcSendCommand { h with unalignedReqState := .sendCommand } h.unalignedRequest
        true = sent
      obtain ⟨h', internal, status⟩ := sent
      intro hsent
      have hsame : SameSlot h h' := ⟨hsent.same.1, hsent.same.2, hsent.same.3, hsent.same.4,
        hsent.same.5, hsent.same.6⟩
      split
      · exact ⟨{ hsame with }, internal_of_idle rfl⟩
      · next hok =>
        have hpio := ((hsent.accepted.1 (by simpa using hok)).1 hdata).1
        exact ⟨{ hsame with },
          fun _ => hsent.hasData.trans hdata, fun _ => hsent.transferMethod.trans hpio⟩
  | sendCommand =>
    have hpio := hi.sent hstate
    simp only [startInternal, hpio]
    split_ifs
    · exact ⟨⟨rfl, rfl, rfl, rfl, rfl, rfl⟩, internal_of_idle rfl⟩
    · refine ⟨⟨rfl, rfl, rfl, rfl, rfl, rfl⟩, ?_⟩
      exact ⟨(fun hc => by cases hc), (fun hc => by cases hc)⟩
    · exact ⟨⟨rfl, rfl, rfl, rfl, rfl, rfl⟩, internal_of_idle rfl⟩
  | startTransfer => exact ⟨⟨rfl, rfl, rfl, rfl, rfl, rfl⟩, internal_of_idle rfl⟩

theorem sdhcCompleteNonBlockSizeAlignedRequest_spec {h : Host} (hi : Internal h)
    (request : Request) (status : Status) :
    SameSlot h (sdhcCompleteNonBlockSizeAlignedRequest h request status).1 ∧
      Internal (sdhcCompleteNonBlockSizeAlignedRequest h request status).1 := by
  rw [sdhcCompleteNonBlockSizeAlignedRequest]
  split
  · exact ⟨⟨rfl, rfl, rfl, rfl, rfl, rfl⟩, internal_of_idle rfl⟩
  · exact sdhcNonBlockSizeAlignedRequestSM_spec hi request

/-! ## The invariant -/

/-- The call moves a block. -/
def Call.Transfers (h : Host) : Call → Prop
  | .dispatch r => (h.requests r).type = .startTransfer
  | .looked _ _ | .accessed _ _ => True

/-- What every state of such a run satisfies. -/
structure SlotInv (h : Host) : Prop where
  outstanding : h.outstandingRequest = h.port.inProgress
  asserts : h.assertFailed = false
  inProgress : h.spurious = false
  internal : Internal h
  prepared : ∀ r, h.port = .prepared r → (h.requests r).type ≠ .startTransfer
  owed : ∀ r, h.port = .owed r → (h.requests r).command.hasData = true
  pio : h.call = none → ∀ r, h.port.inProgress = some r →
    (h.requests r).command.hasData = true → (h.requests r).command.transferMethod = .pio
  /-- a DPC may have completed the request of the call -/
  call : ∀ c, h.call = some c → h.port.inProgress = some c.request ∨ h.port = .idle
  transfers : ∀ c, h.call = some c → c.Transfers h →
    (h.requests c.request).command.hasData = true ∧
      (h.requests c.request).command.transferMethod = .pio ∧
      (h.port = .idle → (h.requests c.request).command.blockCount = 0)

theorem slotInv_initial {h : Host} (hi : h.Initial) : SlotInv h := by
  obtain ⟨hout, hstate, hcall, hport, hassert, hspurious⟩ := hi
  refine ⟨by rw [hout, hport]; rfl, hassert, hspurious, internal_of_idle hstate, ?_, ?_, ?_, ?_, ?_⟩
  · intro r hr
    rw [hport] at hr
    cases hr
  · intro r hr
    rw [hport] at hr
    cases hr
  · intro _ r hr
    rw [hport] at hr
    cases hr
  · intro c hc
    rw [hcall] at hc
    cases hc
  · intro c hc
    rw [hcall] at hc
    cases hc

namespace SlotInv

variable {h : Host}

/-- Parts of the state that the invariant does not look at. -/
theorem same (hi : SlotInv h) {h' : Host} (hs : SameSlot h h') (hint : Internal h') :
    SlotInv h' := by
  obtain ⟨hout, hreq, hcall, hport, hassert, hspurious⟩ := hs
  have htransfers : ∀ c : Call, c.Transfers h' = c.Transfers h := by
    intro c
    cases c with
    | dispatch r =>
      show ((h'.requests r).type = _) = ((h.requests r).type = _)
      rw [hreq]
    | looked _ _ => rfl
    | accessed _ _ => rfl
  refine ⟨?_, hassert.trans hi.asserts, hspurious.trans hi.inProgress, hint, ?_, ?_, ?_, ?_, ?_⟩
  · rw [hout, hport]
    exact hi.outstanding
  · rw [hport, hreq]
    exact hi.prepared
  · rw [hport, hreq]
    exact hi.owed
  · rw [hcall, hport, hreq]
    exact hi.pio
  · rw [hcall, hport]
    exact hi.call
  · intro c
    rw [hcall, hport, hreq, htransfers]
    exact hi.transfers c

/-- Updating a request, but neither its type nor its command. -/
theorem setRequest (hi : SlotInv h) (r : Nat) {request : Request}
    (htype : request.type = (h.requests r).type)
    (hcommand : request.command = (h.requests r).command) : SlotInv (h.setRequest r request) := by
  have htypes := setRequest_keeps Request.type h htype
  have hcommands := setRequest_keeps Request.command h hcommand
  refine ⟨hi.outstanding, hi.asserts, hi.inProgress, ⟨hi.internal.ready, hi.internal.sent⟩,
    ?_, ?_, ?_, hi.call, ?_⟩
  · intro r' hr'
    rw [htypes]
    exact hi.prepared r' hr'
  · intro r' hr'
    rw [hcommands]
    exact hi.owed r' hr'
  · intro hcall r' hr'
    rw [hcommands]
    exact hi.pio hcall r' hr'
  · intro c hc ht
    rw [hcommands]
    refine hi.transfers c hc ?_
    cases c with
    | dispatch r' => exact (htypes r').symm.trans ht
    | looked _ _ => trivial
    | accessed _ _ => trivial

/-- The call of the request in progress. -/
theorem request_of_call (hi : SlotInv h) {r : Nat} (hr : h.port.inProgress = some r) {c : Call}
    (hc : h.call = some c) : c.request = r := by
  rcases hi.call c hc with hin | hidle
  · exact Option.some.inj (hin.symm.trans hr)
  · rw [hidle] at hr
    cases hr

/-- Completing the request in progress, unless it fails before its last block. -/
theorem complete (hi : SlotInv h) {r : Nat} (hr : h.port.inProgress = some r) {status : Status}
    (hdone : status.failed = true → (h.requests r).command.isCompleted = true) :
    SlotInv (sdhcCompleteRequest h r status) := by
  have hout := hi.outstanding.trans hr
  cases hcompleted : (h.requests r).command.isCompleted with
  | true =>
    -- the request ends, and the pointer is cleared
    have heq : sdhcCompleteRequest h r status =
        { h with
          outstandingRequest := none
          cmdCompleted := h.cmdCompleted + 1
          port := .idle } := by
      simp [sdhcCompleteRequest, sdPortCompleteRequest, hcompleted, hr, hout, hi.asserts]
    rw [heq]
    refine ⟨rfl, hi.asserts, hi.inProgress, ⟨hi.internal.ready, hi.internal.sent⟩, ?_, ?_, ?_, ?_,
      ?_⟩
    · intro r' hr'
      cases hr'
    · intro r' hr'
      cases hr'
    · intro _ r' hr'
      cases hr'
    · intro c hc
      exact .inr rfl
    · intro c hc ht
      obtain ⟨hdata, hpio, -⟩ := hi.transfers c hc ht
      refine ⟨hdata, hpio, fun _ => ?_⟩
      have hc' := hi.request_of_call hr hc
      rw [← hc', Command.isCompleted, hdata] at hcompleted
      simpa using hcompleted
  | false =>
    -- Sdport owes the next transfer
    have hok : status.failed = false := by
      by_contra hf
      rw [hdone (by simpa using hf)] at hcompleted
      cases hcompleted
    have heq : sdhcCompleteRequest h r status =
        { h with
          cmdCompleted := h.cmdCompleted + 1
          port := .owed r } := by
      simp [sdhcCompleteRequest, sdPortCompleteRequest, hcompleted, hr, hok]
    rw [heq]
    refine ⟨hout, hi.asserts, hi.inProgress, ⟨hi.internal.ready, hi.internal.sent⟩, ?_, ?_, ?_, ?_,
      ?_⟩
    · intro r' hr'
      cases hr'
    · intro r' hr'
      cases hr'
      by_contra hdata
      simp [Command.isCompleted, hdata] at hcompleted
    · intro hcall r' hr'
      exact hi.pio hcall r' (hr.trans hr')
    · intro c hc
      exact .inl (congrArg some (hi.request_of_call hr hc).symm)
    · intro c hc ht
      obtain ⟨hdata, hpio, -⟩ := hi.transfers c hc ht
      exact ⟨hdata, hpio, (fun hc => by cases hc)⟩

/-! ### The calls -/

theorem prepare (hi : SlotInv h) (hcall : h.call = none) (hport : h.port = .idle) (r : Nat)
    {request : Request} (htype : request.type ≠ .startTransfer) :
    SlotInv { h.setRequest r request with port := .prepared r } := by
  have hout := hi.outstanding
  rw [hport] at hout
  refine ⟨hout, hi.asserts, hi.inProgress, ⟨hi.internal.ready, hi.internal.sent⟩, ?_, ?_, ?_, ?_,
    ?_⟩
  · intro r' hr'
    cases hr'
    show ((h.setRequest r request).requests r).type ≠ _
    rw [setRequest_self]
    exact htype
  · intro r' hr'
    cases hr'
  · intro _ r' hr'
    cases hr'
  · intro c hc
    cases hcall.symm.trans hc
  · intro c hc
    cases hcall.symm.trans hc

/-- The exchange, for a new request or for a transfer. -/
theorem issue (hi : SlotInv h) (requests : Nat → Request) {r : Nat}
    (htransfer : (requests r).type = .startTransfer → (requests r).command.hasData = true ∧
      (requests r).command.transferMethod = .pio) :
    SlotInv (issueRequest { h with requests := requests } r) := by
  refine ⟨rfl, hi.asserts, hi.inProgress, ⟨hi.internal.ready, hi.internal.sent⟩, ?_, ?_, ?_, ?_, ?_⟩
  · intro r' hr'
    cases hr'
  · intro r' hr'
    cases hr'
  · intro hc
    cases hc
  · intro c hc
    cases hc
    exact .inl rfl
  · intro c hc ht
    cases hc
    obtain ⟨hdata, hpio⟩ := htransfer ht
    exact ⟨hdata, hpio, (fun hc => by cases hc)⟩

/-- The next step of a transfer. -/
theorem transferring (hi : SlotInv h) {c : Call} (c' : Call) (hc : h.call = some c)
    (ht : c.Transfers h) (hr : c'.request = c.request) (currentEvents : BitVec 32) :
    SlotInv { h with call := some c', currentEvents := currentEvents } := by
  refine ⟨hi.outstanding, hi.asserts, hi.inProgress, ⟨hi.internal.ready, hi.internal.sent⟩,
    hi.prepared, hi.owed, ?_, ?_, ?_⟩
  · intro hcall
    cases hcall
  · intro d hd
    cases hd
    rw [hr]
    exact hi.call c hc
  · intro d hd _
    cases hd
    rw [hr]
    exact hi.transfers c hc ht

/-- The call returns, with its request updated but of the same kind. -/
theorem returned (hi : SlotInv h) {c : Call} (hc : h.call = some c) (request : Request)
    (htype : request.type = (h.requests c.request).type)
    (hdata : request.command.hasData = (h.requests c.request).command.hasData)
    (hpio : h.port.inProgress = some c.request → request.command.hasData = true →
      request.command.transferMethod = .pio) :
    SlotInv { h.setRequest c.request request with call := none } := by
  refine ⟨hi.outstanding, hi.asserts, hi.inProgress, ⟨hi.internal.ready, hi.internal.sent⟩,
    ?_, ?_, ?_, ?_, ?_⟩
  · intro r hr
    show ((h.setRequest c.request request).requests r).type ≠ _
    rw [setRequest_keeps Request.type h htype]
    exact hi.prepared r hr
  · intro r hr
    show ((h.setRequest c.request request).requests r).command.hasData = true
    rw [setRequest_keeps (fun request => request.command.hasData) h hdata]
    exact hi.owed r hr
  · intro _ r hr hd
    obtain rfl := hi.request_of_call hr hc
    have hself := setRequest_self h c.request request
    show ((h.setRequest c.request request).requests c.request).command.transferMethod = _
    rw [hself]
    refine hpio hr ?_
    rw [← hd]
    show _ = ((h.setRequest c.request request).requests c.request).command.hasData
    rw [hself]
  · intro d hd
    cases hd
  · intro d hd
    cases hd

/-- The request of a call is refused when it is not in progress any more. -/
theorem refuse (hi : SlotInv h) {r : Nat} (hc : h.call = some (.dispatch r))
    (hr : h.port.inProgress ≠ some r) : SlotInv (h.refuse r) := by
  have heq : h.refuse r = { h.setRequest r (h.requests r) with call := none } := by
    rw [Host.refuse, if_neg hr, Host.setRequest, Function.update_eq_self]
  rw [heq]
  exact hi.returned hc _ rfl rfl fun hin => absurd hin hr

/-- A command has been sent, or refused. -/
theorem sent (hi : SlotInv h) {r : Nat} (hc : h.call = some (.dispatch r)) {h' : Host}
    {request : Request} {status : Status} (hsent : Sent h (h.requests r) (h', request, status))
    (hok : h.port.inProgress = some r → status.ntSuccess = true) :
    SlotInv (if status.ntSuccess then { h'.setRequest r request with call := none }
      else (h'.setRequest r request).refuse r) := by
  have hi' : SlotInv h' := hi.same hsent.same (hsent.internal hi.internal)
  have hc' : h'.call = some (.dispatch r) := hsent.same.call.trans hc
  have hreq : h'.requests = h.requests := hsent.same.requests
  have hport : h'.port = h.port := hsent.same.port
  have htype : request.type = (h'.requests r).type := by
    rw [hreq]
    exact hsent.type
  have hdata : request.command.hasData = (h'.requests r).command.hasData := by
    rw [hreq]
    exact hsent.hasData
  cases hstatus : status.ntSuccess with
  | true =>
    rw [if_pos rfl]
    refine hi'.returned hc' _ htype hdata fun _ hd => ?_
    have hpio := ((hsent.accepted.1 hstatus).1 (hsent.hasData.symm.trans hd)).1
    exact hsent.transferMethod.trans hpio
  | false =>
    -- a request in progress is accepted
    have hnot : h'.port.inProgress ≠ some r := by
      rw [hport]
      intro hin
      rw [hok hin] at hstatus
      cases hstatus
    have heq : (h'.setRequest r request).refuse r =
        { h'.setRequest r request with call := none } := by
      rw [Host.refuse]
      exact congrArg (fun port => { h'.setRequest r request with call := none, port := port })
        (if_neg hnot)
    rw [if_neg Bool.false_ne_true, heq]
    exact hi'.returned hc' _ htype hdata fun hin => absurd hin hnot

/-- The switch on the type of the request. -/
theorem dispatch (hi : SlotInv h) {r : Nat} (hc : h.call = some (.dispatch r))
    (hok : h.port.inProgress = some r → (h.requests r).Accepted) :
    SlotInv (dispatchRequest h r) := by
  have hsent := sent_sdhcSendCommand h (h.requests r) false
  simp only [Request.Accepted] at hok
  rw [dispatchRequest]
  cases htype : (h.requests r).type with
  | commandNoTransfer =>
    simp only [htype] at hok
    exact hi.sent hc hsent fun hin => hsent.accepted.2 (hok hin)
  | commandWithTransfer =>
    simp only [htype] at hok
    exact hi.sent hc hsent fun hin => hsent.accepted.2 (hok hin)
  | startTransfer =>
    obtain ⟨-, hpio, -⟩ := hi.transfers _ hc htype
    simp only [show (h.requests r).command.transferMethod = .pio from hpio]
    exact hi.transferring (.looked r h.currentEvents) hc htype rfl 0
  | unspecified =>
    simp only [htype] at hok
    exact hi.refuse hc hok

/-- The end of a transfer. -/
theorem finish (hi : SlotInv h) {r : Nat} {currentEvents : BitVec 32}
    (hc : h.call = some (.accessed r currentEvents)) :
    SlotInv (finishTransfer h r currentEvents) := by
  obtain ⟨hdata, hpio, hleft⟩ := hi.transfers _ hc trivial
  simp only [Call.request] at hdata hpio hleft
  -- the kind of the request stays, and the last block was not moved after the request had ended
  have hfinish : (finishPioTransfer (h.requests r) currentEvents).1.type = (h.requests r).type ∧
      (finishPioTransfer (h.requests r) currentEvents).1.command.hasData =
        (h.requests r).command.hasData ∧
      (finishPioTransfer (h.requests r) currentEvents).1.command.transferMethod =
        (h.requests r).command.transferMethod ∧
      ((finishPioTransfer (h.requests r) currentEvents).2 = .success → h.port ≠ .idle) := by
    simp only [finishPioTransfer]
    split
    · exact ⟨rfl, rfl, rfl, (fun hc => by cases hc)⟩
    · next hlast =>
      have hport : h.port ≠ .idle := by
        intro hidle
        rw [hleft hidle] at hlast
        exact hlast (by decide)
      split
      · exact ⟨rfl, rfl, rfl, fun _ => hport⟩
      · exact ⟨rfl, rfl, rfl, (fun hc => by cases hc)⟩
  obtain ⟨htype, hdata', hmethod, hport⟩ := hfinish
  have hi' := hi.returned hc (finishPioTransfer (h.requests r) currentEvents).1
    htype hdata' fun _ _ => hmethod.trans hpio
  simp only [finishTransfer]
  split
  · next hsuccess =>
    have hin := (hi.call _ hc).resolve_right (hport hsuccess)
    exact hi'.complete hin fun hf => by cases hf
  · exact hi'

/-! ### The DPC and the reset -/

/-- The request fails, and has no block left. -/
theorem fail (hi : SlotInv h) {r : Nat} (hr : h.port.inProgress = some r)
    (hdone : (h.requests r).command.isCompleted = true) {h' : Host} (hs : SameSlot h h')
    (hint : Internal h') (status : Status) :
    SlotInv (sdhcCompleteRequest
      { h'.setRequest r { h.requests r with requiredEvents := 0 } with currentEvents := 0 } r
      status) := by
  have hreq : h'.requests r = h.requests r := congrFun hs.requests r
  have hset : SlotInv (h'.setRequest r { h.requests r with requiredEvents := 0 }) := by
    refine (hi.same hs hint).setRequest r ?_ ?_
    · rw [hreq]
    · rw [hreq]
  have hcleared : SlotInv
      { h'.setRequest r { h.requests r with requiredEvents := 0 } with currentEvents := 0 } :=
    hset.same ⟨rfl, rfl, rfl, rfl, rfl, rfl⟩ ⟨hint.ready, hint.sent⟩
  refine hcleared.complete ?_ fun _ => ?_
  · exact (congrArg Port.inProgress hs.port).trans hr
  · show (((h'.setRequest r _).requests r).command).isCompleted = true
    rw [setRequest_self]
    exact hdone

/-- The request gets to its next phase, or to its end. -/
theorem progress (hi : SlotInv h) {r : Nat} (hr : h.port.inProgress = some r) (request : Request)
    (htype : request.type = (h.requests r).type)
    (hcommand : request.command = (h.requests r).command) {status : Status}
    (hok : status.failed = false) :
    SlotInv (
      let (h, more) :=
        sdhcCompleteNonBlockSizeAlignedRequest (h.setRequest r request) request status
      if more = .moreProcessingRequired then h else sdhcCompleteRequest h r status) := by
  have hset := hi.setRequest r htype hcommand
  obtain ⟨hsame, hint⟩ :=
    sdhcCompleteNonBlockSizeAlignedRequest_spec hset.internal request status
  have hdone := hset.same hsame hint
  simp only []
  split
  · exact hdone
  · refine hdone.complete ((congrArg Port.inProgress hsame.port).trans hr) fun hf => ?_
    rw [hok] at hf
    cases hf

/-- The part of the DPC that touches the request in progress. -/
theorem requestDpcBody (hi : SlotInv h) {r : Nat} (hr : h.port.inProgress = some r)
    (events : BitVec 32) {errors : BitVec 16}
    (hok : errors ≠ 0 → (h.requests r).command.isCompleted = true) :
    SlotInv (requestDpcBody h r events errors) := by
  rw [Outstanding.requestDpcBody]
  split
  · next herrors =>
    obtain ⟨hsame, hint⟩ := sdhcCompleteNonBlockSizeAlignedRequest_spec hi.internal
      { h.requests r with requiredEvents := (h.requests r).requiredEvents &&& ~~~events }
      (sdhcConvertErrorToStatus errors)
    exact hi.fail hr (hok herrors) hsame hint _
  · split
    · refine hi.progress hr
        { h.requests r with
          requiredEvents := (h.requests r).requiredEvents &&& ~~~events
          status := if (h.requests r).status ≠ .moreProcessingRequired then .success
            else (h.requests r).status } rfl rfl ?_
      split
      · rfl
      · next hmore =>
        rw [not_not.1 hmore]
        rfl
    · exact hi.setRequest r rfl rfl

theorem requestDpc (hi : SlotInv h) {r : Nat}
    (hr : h.port.inProgress = none ∨ h.port.inProgress = some r) (events : BitVec 32)
    {errors : BitVec 16}
    (hok : errors ≠ 0 → h.port.inProgress = some r →
      (h.requests r).command.isCompleted = true) :
    SlotInv (sdhcRequestDpc h r events errors) := by
  have hi' : SlotInv { h with currentEvents := h.currentEvents ||| events } :=
    hi.same ⟨rfl, rfl, rfl, rfl, rfl, rfl⟩ ⟨hi.internal.ready, hi.internal.sent⟩
  simp only [sdhcRequestDpc]
  split
  · exact hi
  · split
    · exact hi'
    · next hout =>
      have hin : h.port.inProgress = some r := hr.resolve_left fun hc =>
        hout (hi.outstanding.trans hc)
      exact hi'.requestDpcBody hin events fun herrors => hok herrors hin

/-- A reset aborts the request in progress. -/
theorem resetHost (hi : SlotInv h) (hcall : h.call = none) (type : ResetType) :
    SlotInv (sdhcResetHost h type) := by
  have aborted : SlotInv { h with
      outstandingRequest := none
      cmdAborted := h.cmdAborted + h.outstandingRequest.isSome.toNat
      unalignedReqState := .idle
      port := if h.port.inProgress.isSome then .idle else h.port } := by
    have hport : ∀ r, (if h.port.inProgress.isSome then Port.idle else h.port).inProgress ≠
        some r := by
      intro r
      cases hp : h.port <;> simp [Port.inProgress]
    refine ⟨?_, hi.asserts, hi.inProgress, internal_of_idle rfl, ?_, ?_, ?_, ?_, ?_⟩
    · exact (Option.eq_none_iff_forall_ne_some.2 hport).symm
    · intro r hr
      cases hp : h.port with
      | prepared r' =>
        simp only [hp] at hr
        exact hi.prepared r (hp.trans hr)
      | _ => simp [hp, Port.inProgress] at hr
    · intro r hr
      exact absurd (congrArg Port.inProgress hr) (hport r)
    · intro _ r hr
      exact absurd hr (hport r)
    · intro c hc
      cases hcall.symm.trans hc
    · intro c hc
      cases hcall.symm.trans hc
  cases type with
  | other => exact hi
  | _ => exact aborted

/-- **Steps that meet the condition keep the invariant.** -/
theorem step (hi : SlotInv h) {a : SlotAction} {h' : Host} (hok : Cleared h a)
    (hs : slotStep h a = some h') : SlotInv h' := by
  cases a with
  | prepare r request =>
    simp only [slotStep, Option.ite_none_right_eq_some, Option.some.injEq] at hs
    obtain ⟨⟨hcall, hport, htype⟩, rfl⟩ := hs
    exact hi.prepare hcall hport r htype
  | issueRequest =>
    simp only [slotStep] at hs
    split at hs
    · next r hcall hport =>
      cases hs
      exact hi.issue h.requests fun htype => absurd htype (hi.prepared r hport)
    · next r hcall hport =>
      cases hs
      have hdata := hi.owed r hport
      have hpio := hi.pio hcall r (by rw [hport]; rfl) hdata
      refine hi.issue (Function.update h.requests r _) fun _ => ?_
      rw [Function.update_self]
      exact ⟨hdata, hpio⟩
    · cases hs
  | dispatch =>
    simp only [slotStep] at hs
    split at hs
    · next r hcall =>
      cases hs
      exact hi.dispatch hcall fun hin => hok r hin hcall
    · cases hs
  | accessPort =>
    simp only [slotStep] at hs
    split at hs
    · next r currentEvents hcall =>
      cases hs
      exact hi.transferring (.accessed r currentEvents) hcall trivial rfl h.currentEvents
    · cases hs
  | finishTransfer =>
    simp only [slotStep] at hs
    split at hs
    · next r currentEvents hcall =>
      cases hs
      exact hi.finish hcall
    · cases hs
  | requestDpc r events errors =>
    simp only [slotStep, Option.ite_none_right_eq_some, Option.some.injEq] at hs
    obtain ⟨hr, rfl⟩ := hs
    exact hi.requestDpc hr events hok
  | resetHost type =>
    simp only [slotStep, Option.ite_none_right_eq_some, Option.some.injEq] at hs
    obtain ⟨hcall, rfl⟩ := hs
    exact hi.resetHost hcall type

/-- The invariant is more than the property. -/
theorem tracked (hi : SlotInv h) : Tracked h where
  outstanding := hi.outstanding
  asserts := hi.asserts
  inProgress := hi.inProgress
  quiet hin r events errors := by
    simp only [sdhcRequestDpc]
    split
    · exact ⟨h.currentEvents, rfl⟩
    · rw [if_pos (hi.outstanding.trans hin)]
      exact ⟨_, rfl⟩

end SlotInv

theorem slotInv_of_cleared {h : Host} (hr : slotMachine.Reach Cleared h) : SlotInv h :=
  hr.inv (fun _ => slotInv_initial) fun _ _ _ hi hok hs => hi.step hok hs

/-- **Runs in which no request is refused while it is in progress, and errors come with no block
left, keep track of their request.** -/
theorem tracked_of_cleared {h : Host} (hr : slotMachine.Reach Cleared h) : Tracked h :=
  (slotInv_of_cleared hr).tracked

/-! ### Steps that do not meet the condition -/

/-- The pointer is left set with nothing in progress. -/
def Host.Stale (h : Host) : Prop :=
  h.outstandingRequest.isSome = true ∧ h.port.inProgress = none

theorem Host.Stale.not_tracked {h : Host} (hs : h.Stale) : ¬ Tracked h := by
  intro ht
  have hout := hs.1
  rw [ht.outstanding, hs.2] at hout
  cases hout

theorem stale_refuse {h : Host} {r : Nat} (hout : h.outstandingRequest = some r)
    (hr : h.port.inProgress = some r) : (h.refuse r).Stale := by
  constructor
  · show h.outstandingRequest.isSome = true
    rw [hout]
    rfl
  · show (if h.port.inProgress = some r then Port.idle else h.port).inProgress = none
    rw [if_pos hr]
    rfl

/-- A request that the driver does not take leaves its pointer behind. -/
theorem stale_dispatch {h : Host} (hi : SlotInv h) {r : Nat} (hc : h.call = some (.dispatch r))
    (hr : h.port.inProgress = some r) (hno : ¬ (h.requests r).Accepted) :
    (dispatchRequest h r).Stale := by
  have hout := hi.outstanding.trans hr
  have hsent := sent_sdhcSendCommand h (h.requests r) false
  have command : (sdhcSendCommand h (h.requests r) false).2.2.ntSuccess ≠ true →
      (let (h, request, status) := sdhcSendCommand h (h.requests r) false
        let h := h.setRequest r request
        if status.ntSuccess then { h with call := none } else h.refuse r).Stale := by
    intro hrefused
    simp only [if_neg hrefused]
    exact stale_refuse (hsent.same.outstandingRequest.trans hout)
      ((congrArg Port.inProgress hsent.same.port).trans hr)
  simp only [Request.Accepted] at hno
  rw [dispatchRequest]
  cases htype : (h.requests r).type with
  | commandNoTransfer =>
    simp only [htype] at hno
    exact command fun hs => hno (hsent.accepted.1 hs)
  | commandWithTransfer =>
    simp only [htype] at hno
    exact command fun hs => hno (hsent.accepted.1 hs)
  | startTransfer =>
    obtain ⟨-, hpio, -⟩ := hi.transfers _ hc htype
    simp only [htype] at hno
    exact absurd hpio (by simp [not_not.1 hno, Call.request])
  | unspecified => exact stale_refuse hout hr

/-- So does a request that is completed with a failure before its last block. -/
theorem stale_complete {h : Host} {r : Nat} (hout : h.outstandingRequest = some r)
    (hr : h.port.inProgress = some r) (hleft : (h.requests r).command.isCompleted = false)
    {status : Status} (hf : status.failed = true) : (sdhcCompleteRequest h r status).Stale := by
  have heq : sdhcCompleteRequest h r status =
      { h with
        cmdCompleted := h.cmdCompleted + 1
        port := .idle } := by
    simp [sdhcCompleteRequest, sdPortCompleteRequest, hleft, hr, hf]
  rw [heq]
  refine ⟨?_, rfl⟩
  show h.outstandingRequest.isSome = true
  rw [hout]
  rfl

theorem stale_requestDpc {h : Host} (hi : SlotInv h) {r : Nat} (hr : h.port.inProgress = some r)
    (events : BitVec 32) {errors : BitVec 16} (herrors : errors ≠ 0)
    (hleft : (h.requests r).command.isCompleted = false) :
    (sdhcRequestDpc h r events errors).Stale := by
  have hout := hi.outstanding.trans hr
  have hsome : h.outstandingRequest ≠ none := by
    rw [hout]
    exact Option.some_ne_none r
  have hfailed := failed_sdhcConvertErrorToStatus herrors
  rw [sdhcRequestDpc, if_neg fun hc => herrors hc.2]
  simp only [if_neg hsome, requestDpcBody, if_pos herrors, sdhcCompleteNonBlockSizeAlignedRequest,
    hfailed, if_true]
  refine stale_complete (r := r) ?_ ?_ ?_ hfailed
  · exact hout
  · exact hr
  · simp only [Host.setRequest, Function.update_self]
    exact hleft

/-- A step that does not meet the condition is one of the two. -/
theorem stale_of_not_cleared {h h' : Host} {a : SlotAction} (hi : SlotInv h)
    (hs : slotStep h a = some h') (hno : ¬ Cleared h a) : h'.Stale := by
  cases a with
  | dispatch =>
    simp only [Cleared, not_forall] at hno
    obtain ⟨r, hin, hcall, hrefused⟩ := hno
    simp only [slotStep, hcall, Option.some.injEq] at hs
    subst hs
    exact stale_dispatch hi hcall hin hrefused
  | requestDpc r events errors =>
    simp only [Cleared, not_forall] at hno
    obtain ⟨herrors, hin, hleft⟩ := hno
    simp only [slotStep, hin, or_true, if_true, Option.some.injEq] at hs
    subst hs
    exact stale_requestDpc hi hin events herrors (by simpa using hleft)
  | _ => exact absurd trivial hno

/-- **The condition is exact**: a step leads to a tracked state exactly when it meets it, and any
other one leaves the pointer set with no request in progress. -/
theorem tracked_iff_cleared {h h' : Host} {a : SlotAction} (hr : slotMachine.Reach Cleared h)
    (hs : slotStep h a = some h') :
    (Tracked h' ↔ Cleared h a) ∧ (¬ Cleared h a → h'.Stale) := by
  have hi := slotInv_of_cleared hr
  refine ⟨⟨fun ht => ?_, fun hok => (hi.step hok hs).tracked⟩, stale_of_not_cleared hi hs⟩
  by_contra hno
  exact (stale_of_not_cleared hi hs hno).not_tracked ht

/-! ## Runs on fixed inputs -/

/-- A request that Sdport has not filled in. -/
def Request.blank : Request where
  type := .commandNoTransfer
  command :=
    { index := 13
      responseType := .r1
      transferType := .none
      transferMethod := .undefined
      transferDirection := .undefined
      length := 0
      blockSize := 0
      blockCount := 0
      dataBuffer := 0 }
  requiredEvents := 0
  status := .pending

/-- A read of one block (CMD17). -/
def Request.readBlock : Request :=
  { Request.blank with
    type := .commandWithTransfer
    command :=
      { index := 17
        responseType := .r1
        transferType := .singleBlock
        transferMethod := .pio
        transferDirection := .read
        length := 512
        blockSize := 512
        blockCount := 1
        dataBuffer := 0 } }

/-- The driver when it has been loaded. -/
def Host.start : Host where
  outstandingRequest := none
  currentEvents := 0
  unalignedReqState := .idle
  unalignedRequest := Request.blank
  cmdIssued := 0
  cmdCompleted := 0
  cmdAborted := 0
  requests := fun _ => Request.blank
  call := none
  port := .idle
  assertFailed := false
  spurious := false

theorem Host.initial_start : Host.start.Initial := ⟨rfl, rfl, rfl, rfl, rfl, rfl⟩

/-- A block is read, and the next request is refused a completion by a timeout. -/
theorem tracked_of_cleared_read : ∃ h, slotMachine.Reach Cleared h ∧ h.cmdIssued = 3 ∧
    h.cmdCompleted = 3 ∧ h.port = .idle ∧ Tracked h := by
  obtain ⟨h, hr, hp⟩ := slotMachine.reach_execOk_any Cleared
    [.prepare 0 Request.readBlock, .issueRequest, .dispatch,
      .requestDpc 0 (isCmdComplete ||| isBufferReadReady) 0, .issueRequest, .dispatch, .accessPort,
      .finishTransfer, .requestDpc 0 isTransferComplete 0, .prepare 1 Request.blank,
      .issueRequest, .dispatch, .requestDpc 1 0 0x0001]
    (p := fun h => h.cmdIssued = 3 && h.cmdCompleted = 3 && h.port = .idle) Host.initial_start
    (by decide +kernel)
  simp only [Bool.and_eq_true, decide_eq_true_eq] at hp
  exact ⟨h, hr, hp.1.1, hp.1.2, hp.2, tracked_of_cleared hr⟩

/-- The command of a read times out. An event comes in for the next request before it has been
issued. -/
def timeoutRun : List SlotAction :=
  [.prepare 0 Request.readBlock, .issueRequest, .dispatch, .requestDpc 0 0 0x0001,
    .prepare 1 Request.blank, .requestDpc 1 isCmdComplete 0]

/-- A request with a response that the driver does not know is refused. -/
def refusedRun : List SlotAction :=
  [.prepare 0 { Request.blank with
      command := { Request.blank.command with responseType := .undefined } }, .issueRequest,
    .dispatch]

/-- The pointer of a refused request stays, since the step does not meet the condition. -/
theorem tracked_iff_cleared_refused :
    ∃ h h', slotMachine.Reach Cleared h ∧ slotStep h .dispatch = some h' ∧ ¬ Tracked h' ∧
      h'.Stale := by
  obtain ⟨h, hr, hp⟩ := slotMachine.reach_execOk_any Cleared (refusedRun.take 2)
    (p := fun h => (slotStep h .dispatch).isSome && !decide (Cleared h .dispatch))
    Host.initial_start (by decide +kernel)
  simp only [Bool.and_eq_true, Bool.not_eq_true', decide_eq_false_iff_not] at hp
  obtain ⟨h', hs⟩ := Option.isSome_iff_exists.1 hp.1
  obtain ⟨hiff, hstale⟩ := tracked_iff_cleared hr hs
  exact ⟨h, h', hr, hs, fun ht => hp.2 (hiff.1 ht), hstale hp.2⟩

/-- **The pointer of a read that has failed**: the driver completes a request that has not been
issued, and finds another one in the pointer. A refused request leaves its pointer, too. -/
theorem stale_request :
    (∃ h, slotMachine.Reachable h ∧ h.assertFailed = true ∧ h.spurious = true) ∧
      (∃ h, slotMachine.Reachable h ∧ h.outstandingRequest = some 0 ∧ h.port = .idle) ∧
      ¬ ∀ h, slotMachine.Reachable h → Tracked h := by
  obtain ⟨h, hr, hp⟩ := slotMachine.reach_exec_any timeoutRun
    (p := fun h => h.assertFailed && h.spurious) Host.initial_start (by decide +kernel)
  obtain ⟨h', hr', hp'⟩ := slotMachine.reach_exec_any refusedRun
    (p := fun h => h.outstandingRequest = some 0 && h.port = .idle) Host.initial_start
    (by decide +kernel)
  simp only [Bool.and_eq_true, decide_eq_true_eq] at hp hp'
  refine ⟨⟨h, hr, hp⟩, ⟨h', hr', hp'⟩, fun hall => ?_⟩
  have hasserts := (hall h hr).asserts
  rw [hp.1] at hasserts
  cases hasserts

end RpiDrivers.Sdhc.Outstanding
