import Mathlib.Algebra.Ring.Nat
import Mathlib.Data.List.Basic
import Mathlib.Data.List.Range
import RpiDrivers.Lib.Machine
import RpiDrivers.Sdhc.Events

/-!
# CMD53 requests whose length is no multiple of the block size (`bcm2836sdhc.c`)

A CMD53 request is sent as a command of whole blocks. What is left over is sent as an internal
request, which the DPC of the first one runs through a state machine when the blocks are done
(`UnalignedReqState`). The port driver calls `SdhcSlotIssueRequest` for the command, again for
each block when it is told to, and `SdhcRequestDpc` for the events of the controller.

`SdhcStartPioTransfer` takes the events collected so far, accesses the data port and then says
which events it waits for. These are three steps, and a DPC may run between them.

- `Cmd53Sound`: blocks are accessed when they are ready and in order, success means that all
  bytes were moved, and the state machine ends where it started.
- `DeliveredInTurn`: the condition on the delivery of events.
- `cmd53Sound_of_inTurn`: **runs that keep to it are sound**.
- `inTurn_goesOn`: such a run does not get stuck before the request has ended.
- `trailing_unready`: the command-complete event of the internal command, delivered alone,
  makes the driver access the port before the buffer is ready.
-/

namespace RpiDrivers.Sdhc

open RpiDrivers.Lib

/-! ## Requests -/

/-- The `NTSTATUS` values that occur. -/
inductive Status
  | success
  | pending
  | moreProcessingRequired
  | invalidParameter
  /-- what `SdhcConvertErrorToStatus` makes of an error event -/
  | error
  deriving DecidableEq

/-- `NT_SUCCESS` -/
def Status.ok : Status → Bool
  | .success | .pending => true
  | _ => false

inductive TransferDirection
  | read
  | write
  deriving DecidableEq

/-- `SDPORT_REQUEST`; `dataBuffer` is the offset in the buffer of the caller. -/
structure Request where
  length : Nat
  blockSize : Nat
  blockCount : Nat
  dataBuffer : Nat
  direction : TransferDirection
  requiredEvents : Events
  status : Status

/-- `BLOCKSIZE_UNALIGNED_REQ_STATE` -/
inductive UnalignedReqState
  | idle
  | ready
  | sendCommand
  | startTransfer
  deriving DecidableEq

/-- The controller: the command in progress and the events it has raised for it. -/
structure Controller where
  blocks : Nat
  cmdComplete : Bool
  /-- the number of buffer-ready events -/
  ready : Nat
  /-- the number of blocks accessed at the data port -/
  accessed : Nat
  transferComplete : Bool

/-- What the port driver waits for. -/
inductive Port
  | idle
  /-- the completion of the command -/
  | command
  /-- it has been told to start the next transfer and has not done so -/
  | startOwed
  /-- the completion of a transfer -/
  | transfer
  | done (status : Status)
  deriving DecidableEq

/-- Where `SdhcStartPioTransfer` is; it has taken `currentEvents`. -/
inductive Starting
  | looked (currentEvents : Events)
  | accessed (currentEvents : Events)

/-- The driver with its one request, the controller and the port driver. -/
structure Host where
  outstandingRequest : Bool
  currentEvents : Events
  unalignedReqState : UnalignedReqState
  unalignedRequest : Request
  request : Request
  starting : Option Starting
  controller : Controller
  port : Port
  /-- the offsets of the bytes moved between the buffer and the data port -/
  moved : List Nat
  /-- a block was accessed before its buffer-ready event -/
  unready : Bool
  /-- the internal command could not be sent or started -/
  trailingFailed : Bool

/-! ## Sending a command -/

/-- `SdhcPrepareInternalRequest` -/
def sdhcPrepareInternalRequest (request : Request) : Request :=
  { request with
    length := request.length % request.blockSize
    blockCount := 1
    blockSize := request.length % request.blockSize % 65536
    dataBuffer := request.dataBuffer + request.blockSize * request.blockCount }

/-- `SdhcStartNonBlockSizeAlignedRequest`, for a request that is not the internal one -/
def sdhcStartNonBlockSizeAlignedRequest (h : Host) (request : Request) : Host :=
  if request.blockCount * request.blockSize < request.length then
    { h with
      unalignedRequest := sdhcPrepareInternalRequest request
      unalignedReqState := .ready }
  else h

/-- The adjustment of `BlockSize` and `BlockCount` in `SdhcSetTransferMode`. -/
def adjustBlocks (request : Request) : Request :=
  let blockCount := request.length / request.blockSize % 65536
  if blockCount = 0 then
    { request with
      blockCount := 1
      blockSize := request.length % 65536 }
  else { request with blockCount := blockCount }

/-- The part of `SdhcSendCommand` after the transfer mode has been set. -/
def issueCommand (h : Host) (request : Request) : Host × Request :=
  ({ h with
      currentEvents := {}
      controller := ⟨request.blockCount, false, 0, 0, false⟩ },
    { request with requiredEvents := { cmdComplete := true, bufferReady := true } })

/-- `SdhcSendCommand` for the request -/
def sendRequest (h : Host) : Host × Status :=
  if 2048 < h.request.blockSize then (h, .invalidParameter)
  else
    let request := adjustBlocks h.request
    let (h, request) := issueCommand (sdhcStartNonBlockSizeAlignedRequest h request) request
    ({ h with request := request }, .pending)

/-- `SdhcSendCommand` for the internal request -/
def sendInternal (h : Host) : Host × Status :=
  if 2048 < h.unalignedRequest.blockSize then (h, .invalidParameter)
  else
    let (h, request) := issueCommand h (adjustBlocks h.unalignedRequest)
    ({ h with unalignedRequest := request }, .pending)

/-! ## Transfers -/

/-- What the port driver makes of a completion: the command and each transfer but the last are
followed by another transfer. -/
def Port.complete : Port → Status → Port
  | .command, .success => .startOwed
  | .transfer, .moreProcessingRequired => .startOwed
  | .startOwed, .moreProcessingRequired => .startOwed
  | .command, status => .done status
  | .transfer, status => .done status
  | .startOwed, status => .done status
  | port, _ => port

/-- `SdhcCompleteRequest`, for a request that is not the internal one -/
def sdhcCompleteRequest (h : Host) (status : Status) : Host :=
  { h with
    outstandingRequest := h.outstandingRequest && h.request.blockCount ≠ 0
    port := h.port.complete status }

/-- `SdhcReadDataPort` and `SdhcWriteDataPort`: the offsets they go through, word by word. -/
def dataPort (buffer length : Nat) : List Nat :=
  (List.range (length / 4)).flatMap (fun word => List.range' (buffer + 4 * word) 4) ++
    List.range' (buffer + 4 * (length / 4)) (length % 4)

/-- One block at the data port. -/
def accessBlock (h : Host) (request : Request) : Host :=
  { h with
    moved := h.moved ++ dataPort request.dataBuffer request.blockSize
    unready := h.unready || h.controller.ready ≤ h.controller.accessed
    controller := { h.controller with accessed := h.controller.accessed + 1 } }

/-- The end of `SdhcStartPioTransfer`: the request after it, whether it is to be completed, and
the status. -/
def finishPioTransfer (request : Request) (currentEvents : Events) : Request × Bool × Status :=
  -- `BlockCount` is a `USHORT`
  let blockCount := if request.blockCount = 0 then 65536 - 1 else request.blockCount - 1
  if 1 ≤ blockCount then
    ({ request with
        blockCount := blockCount
        dataBuffer := request.dataBuffer + request.blockSize
        requiredEvents := { request.requiredEvents with bufferReady := true }
        status := .moreProcessingRequired }, false, .pending)
  else if currentEvents.transferComplete then
    ({ request with
        blockCount := blockCount
        status := .success }, true, .success)
  else
    ({ request with
        blockCount := blockCount
        requiredEvents := { request.requiredEvents with transferComplete := true }
        status := .success }, false, .pending)

/-- The last step of `SdhcStartPioTransfer` for the request. -/
def finishTransfer (h : Host) (currentEvents : Events) : Host :=
  let finished := finishPioTransfer h.request currentEvents
  let h := { h with
    starting := none
    request := finished.1 }
  if finished.2.1 then sdhcCompleteRequest h .success else h

/-- `SdhcStartTransfer` for the internal request; its completion is not reported -/
def startInternal (h : Host) : Host × Status :=
  let currentEvents := h.currentEvents
  let h := accessBlock { h with currentEvents := {} } h.unalignedRequest
  let (request, _, status) := finishPioTransfer h.unalignedRequest currentEvents
  ({ h with unalignedRequest := request }, status)

/-- `SdhcNonBlockSizeAlignedRequestSM` -/
def sdhcNonBlockSizeAlignedRequestSM (h : Host) : Host × Status :=
  match h.unalignedReqState with
  | .idle => (h, .success)
  | .ready =>
    -- the aligned part is not done
    if h.request.blockCount ≠ 0 then (h, .success)
    else
      let (h, status) := sendInternal { h with unalignedReqState := .sendCommand }
      if !status.ok then
        ({ h with
            unalignedReqState := .idle
            trailingFailed := true }, status)
      else (h, .moreProcessingRequired)
  | .sendCommand =>
    let (h, status) := startInternal { h with unalignedReqState := .startTransfer }
    if !status.ok then
      ({ h with
          unalignedReqState := .idle
          trailingFailed := true }, status)
    else if status = .pending then (h, .moreProcessingRequired)
    else ({ h with unalignedReqState := .idle }, .success)
  | .startTransfer => ({ h with unalignedReqState := .idle }, .success)

/-- `SdhcRequestDpc` -/
def sdhcRequestDpc (h : Host) (events : Events) (errors : Bool) : Host :=
  let h := { h with currentEvents := h.currentEvents.or events }
  if !h.outstandingRequest then h
  else
    let requiredEvents := h.request.requiredEvents.clear events
    let h := { h with request := { h.request with requiredEvents := requiredEvents } }
    if errors then
      -- `SdhcCompleteNonBlockSizeAlignedRequest` resets the state machine
      sdhcCompleteRequest { h with
        unalignedReqState := .idle
        currentEvents := {}
        request := { h.request with requiredEvents := {} } } .error
    else if requiredEvents = {} then
      let status :=
        if h.request.status ≠ .moreProcessingRequired then Status.success else h.request.status
      let (h, more) := sdhcNonBlockSizeAlignedRequestSM
        { h with request := { h.request with status := status } }
      if more = .moreProcessingRequired then h else sdhcCompleteRequest h h.request.status
    else h

/-! ## The driver, the controller and the port driver -/

/-- The atomic steps. -/
inductive Cmd53Action
  /-- the port driver issues the command -/
  | issueRequest (length blockSize : Nat) (direction : TransferDirection)
  /-- it starts a transfer, and `SdhcStartPioTransfer` takes the events -/
  | startTransfer
  /-- `SdhcStartPioTransfer` accesses the data port -/
  | accessPort
  /-- it says what it waits for and returns -/
  | finishTransfer
  /-- the port driver calls the DPC for these events -/
  | deliver (events : Events) (errors : Bool)

/-- The controller has raised the events: buffer ready for the block after those accessed,
transfer complete once the last block is ready to be read or has been written. -/
def Controller.Raised (c : Controller) (direction : TransferDirection) (events : Events) : Prop :=
  (events.cmdComplete → !c.cmdComplete) ∧
  (events.bufferReady → c.ready = c.accessed ∧ c.ready < c.blocks) ∧
  (events.transferComplete → !c.transferComplete ∧
    match direction with
    | .read => c.blocks ≤ c.ready + events.bufferReady.toNat
    | .write => c.blocks ≤ c.accessed)

instance (c : Controller) (direction : TransferDirection) (events : Events) :
    Decidable (c.Raised direction events) :=
  match direction with
  | .read => inferInstanceAs (Decidable (_ ∧ _ ∧ (_ → _ ∧ (_ ≤ _))))
  | .write => inferInstanceAs (Decidable (_ ∧ _ ∧ (_ → _ ∧ (_ ≤ _))))

/-- Events that have been delivered. -/
def Controller.delivered (c : Controller) (events : Events) : Controller :=
  { c with
    cmdComplete := c.cmdComplete || events.cmdComplete
    ready := c.ready + events.bufferReady.toNat
    transferComplete := c.transferComplete || events.transferComplete }

/-- The controller has raised the events, and the port driver calls the DPC for them. -/
def Host.delivered (h : Host) (events : Events) : Host :=
  { h with controller := h.controller.delivered events }

/-- The port driver has a request outstanding. -/
def Port.Outstanding : Port → Prop
  | .command | .startOwed | .transfer => True
  | _ => False

instance : DecidablePred Port.Outstanding
  | .command | .startOwed | .transfer => isTrue trivial
  | .idle | .done _ => isFalse id

/-- `SdhcSlotIssueRequest` for the command. -/
def issueRequest (h : Host) (length blockSize : Nat) (direction : TransferDirection) : Host :=
  let request : Request := ⟨length, blockSize, 0, 0, direction, {}, .pending⟩
  match sendRequest { h with
      outstandingRequest := true
      request := request
      port := .command } with
  | (h, .pending) => h
  | (h, status) => { h with port := .done status }

/-- One step. -/
def cmd53Step (h : Host) : Cmd53Action → Option Host
  | .issueRequest length blockSize direction =>
    -- a block size that is adjusted to zero is divided by
    if h.port = .idle ∧ 0 < length ∧ length < 2 ^ 32 ∧ 0 < blockSize ∧ blockSize < 65536 ∧
        (length / blockSize % 65536 = 0 → length % 65536 ≠ 0) then
      some (issueRequest h length blockSize direction)
    else none
  | .startTransfer =>
    if h.port = .startOwed ∧ h.starting = none then
      some { h with
        outstandingRequest := true
        port := .transfer
        starting := some (.looked h.currentEvents)
        currentEvents := {} }
    else none
  | .accessPort =>
    match h.starting with
    | some (.looked currentEvents) =>
      some { accessBlock h h.request with starting := some (.accessed currentEvents) }
    | _ => none
  | .finishTransfer =>
    match h.starting with
    | some (.accessed currentEvents) => some (finishTransfer h currentEvents)
    | _ => none
  | .deliver events errors =>
    if h.port.Outstanding ∧ (events ≠ {} ∨ errors = true) ∧
        h.controller.Raised h.request.direction events then
      some (sdhcRequestDpc (h.delivered events) events errors)
    else none

/-- The driver before its request, with whatever it kept of an earlier one. -/
def Host.Initial (h : Host) : Prop :=
  h.unalignedReqState = .idle ∧ h.starting = none ∧ h.port = .idle ∧ h.moved = [] ∧
    h.unready = false ∧ h.trailingFailed = false

/-- All interleavings. -/
def cmd53Machine : Machine Host Cmd53Action where
  init := Host.Initial
  step := cmd53Step

/-! ## The property and the condition -/

/-- Blocks are accessed when they are ready and in order; success means that all bytes were
moved and that the internal command was sent and started; at the end the state machine is idle. -/
def Cmd53Sound (h : Host) : Prop :=
  h.unready = false ∧ h.moved <+: List.range h.request.length ∧
    (∀ status, h.port = .done status → h.unalignedReqState = .idle) ∧
    (h.port = .done .success →
      h.moved = List.range h.request.length ∧ h.trailingFailed = false)

/-- Events are delivered in turn. The state machine does not look at the required events of the
internal request, and the DPC takes a request that waits for nothing for a finished one. -/
def DeliveredInTurn (h : Host) : Cmd53Action → Prop
  | .issueRequest length blockSize _ => length / blockSize < 65536
  | .deliver events errors =>
    errors = true ∨
      h.starting = none ∧
        match h.unalignedReqState with
        | .idle => h.port ≠ .startOwed
        | .ready =>
          h.port ≠ .startOwed ∧ (events.transferComplete = true → h.request.blockCount = 0)
        | .sendCommand => events.bufferReady = true
        | .startTransfer => True
  | _ => True

/-! ## Blocks -/

/-- The words and the last bytes are one run of offsets. -/
theorem dataPort_eq (buffer length : Nat) : dataPort buffer length = List.range' buffer length := by
  have words : ∀ count, (List.range count).flatMap (fun word => List.range' (buffer + 4 * word) 4) =
      List.range' buffer (4 * count) := by
    intro count
    induction count with
    | zero => rfl
    | succ count ih =>
      rw [List.range_succ, List.flatMap_append, ih, List.flatMap_singleton,
        List.range'_append_1]
      congr 1
  rw [dataPort, words, List.range'_append_1, Nat.div_add_mod]

/-- Accessing a block appends its offsets to those of the blocks before it. -/
theorem range_append_dataPort (done size : Nat) :
    List.range done ++ dataPort done size = List.range (done + size) := by
  rw [dataPort_eq, List.range_eq_range', List.range_eq_range']
  simpa using List.range'_append_1 (s := 0) (m := done) (n := size)

theorem range_prefix {m n : Nat} (h : m ≤ n) : List.range m <+: List.range n := by
  obtain ⟨d, rfl⟩ := Nat.exists_eq_add_of_le h
  exact ⟨dataPort m d, range_append_dataPort m d⟩

/-- The aligned part: `n` blocks of which `k` have been accessed. -/
structure Blocks (h : Host) (n k : Nat) : Prop where
  ready : h.unready = false
  blocks : h.controller.blocks = n
  accessed : h.controller.accessed = k
  moved : h.moved = List.range (k * h.request.blockSize)
  le : k ≤ n
  small : n < 65536
  fits : n * h.request.blockSize ≤ h.request.length
  complete : h.controller.transferComplete = true → n ≤ h.controller.ready
  trailingFailed : h.trailingFailed = false

/-- The internal request is prepared for the bytes after the first `n` blocks. -/
structure Prepared (h : Host) (n : Nat) : Prop where
  count : h.unalignedRequest.blockCount = 1
  length : h.unalignedRequest.length = h.unalignedRequest.blockSize
  pos : 0 < h.unalignedRequest.blockSize
  size : h.unalignedRequest.blockSize ≤ 2048
  buffer : h.unalignedRequest.dataBuffer = n * h.request.blockSize
  total : n * h.request.blockSize + h.unalignedRequest.blockSize = h.request.length

/-- What the state machine is going to do when the `n` blocks are done. -/
inductive Trailer (h : Host) (n : Nat) : Prop
  /-- nothing -/
  | none (state : h.unalignedReqState = .idle) (total : h.request.length = n * h.request.blockSize)
  /-- send the internal command; no transfer-complete event has been delivered before its turn -/
  | some (state : h.unalignedReqState = .ready) (prepared : Prepared h n)
      (early : h.request.blockCount ≠ 0 → h.controller.transferComplete = false)

/-- Where a request is that has been delivered its events in turn. -/
inductive Phase (h : Host) : Prop
  /-- not issued -/
  | idle (hi : h.Initial)
  /-- the command has been sent -/
  | command {n : Nat} (hb : Blocks h n 0) (ht : Trailer h n) (pos : 0 < n)
      (port : h.port = .command) (starting : h.starting = none)
      (outstanding : h.outstandingRequest = true)
      (count : h.request.blockCount = n) (buffer : h.request.dataBuffer = 0)
      (required : h.request.requiredEvents =
        ⟨!h.controller.cmdComplete, h.controller.ready == 0, false⟩)
      (waits : h.request.requiredEvents ≠ {}) (once : h.controller.ready ≤ 1)
      (status : h.request.status = .pending)
      (current : h.currentEvents.transferComplete = h.controller.transferComplete)
  /-- a block is ready and the port driver is going to start its transfer -/
  | owed {n k : Nat} (hb : Blocks h n k) (ht : Trailer h n) (lt : k < n)
      (port : h.port = .startOwed) (starting : h.starting = none)
      (outstanding : h.outstandingRequest = true)
      (count : h.request.blockCount = n - k)
      (buffer : h.request.dataBuffer = k * h.request.blockSize)
      (required : h.request.requiredEvents = {}) (raised : h.controller.ready = k + 1)
      (current : h.currentEvents.transferComplete = h.controller.transferComplete)
  /-- the events have been taken -/
  | looked {n k : Nat} {current : Events} (hb : Blocks h n k) (ht : Trailer h n) (lt : k < n)
      (port : h.port = .transfer) (starting : h.starting = some (.looked current))
      (outstanding : h.outstandingRequest = true)
      (count : h.request.blockCount = n - k)
      (buffer : h.request.dataBuffer = k * h.request.blockSize)
      (required : h.request.requiredEvents = {}) (raised : h.controller.ready = k + 1)
      (taken : current.transferComplete = h.controller.transferComplete)
      (current : h.currentEvents = {})
  /-- the block has been accessed -/
  | accessed {n k : Nat} {current : Events} (hb : Blocks h n (k + 1)) (ht : Trailer h n)
      (port : h.port = .transfer) (starting : h.starting = some (.accessed current))
      (outstanding : h.outstandingRequest = true)
      (count : h.request.blockCount = n - k)
      (buffer : h.request.dataBuffer = k * h.request.blockSize)
      (required : h.request.requiredEvents = {}) (raised : h.controller.ready = k + 1)
      (taken : current.transferComplete = h.controller.transferComplete)
      (current : h.currentEvents = {})
  /-- the next block is waited for -/
  | waiting {n k : Nat} (hb : Blocks h n k) (ht : Trailer h n) (lt : k < n)
      (port : h.port = .transfer) (starting : h.starting = none)
      (outstanding : h.outstandingRequest = true)
      (count : h.request.blockCount = n - k)
      (buffer : h.request.dataBuffer = k * h.request.blockSize)
      (required : h.request.requiredEvents = { bufferReady := true })
      (raised : h.controller.ready = k) (status : h.request.status = .moreProcessingRequired)
      (current : h.currentEvents.transferComplete = h.controller.transferComplete)
  /-- the transfer-complete event of the aligned part is waited for -/
  | last {n : Nat} (hb : Blocks h n n) (ht : Trailer h n)
      (port : h.port = .transfer) (starting : h.starting = none)
      (outstanding : h.outstandingRequest = true) (count : h.request.blockCount = 0)
      (required : h.request.requiredEvents = { transferComplete := true })
      (raised : h.controller.ready = n) (status : h.request.status = .success)
      (incomplete : h.controller.transferComplete = false)
  /-- the internal command has been sent -/
  | sent {n : Nat} (prepared : Prepared h n) (ready : h.unready = false)
      (moved : h.moved = List.range (n * h.request.blockSize))
      (state : h.unalignedReqState = .sendCommand) (port : h.port = .transfer)
      (starting : h.starting = none) (outstanding : h.outstandingRequest = true)
      (count : h.request.blockCount = 0) (required : h.request.requiredEvents = {})
      (status : h.request.status = .success) (current : h.currentEvents = {})
      (sent : h.controller = ⟨1, false, 0, 0, false⟩)
      (trailingFailed : h.trailingFailed = false)
  /-- the internal transfer has been started -/
  | started (ready : h.unready = false) (moved : h.moved = List.range h.request.length)
      (state : h.unalignedReqState = .startTransfer) (port : h.port = .transfer)
      (starting : h.starting = none) (outstanding : h.outstandingRequest = true)
      (count : h.request.blockCount = 0) (required : h.request.requiredEvents = {})
      (status : h.request.status = .success)
      (raised : h.controller.ready = 1 ∧ h.controller.accessed = 1 ∧ h.controller.blocks = 1)
      (incomplete : h.controller.transferComplete = false)
      (trailingFailed : h.trailingFailed = false)
  /-- an error event has failed the request while a block was about to be accessed -/
  | aborted {n k : Nat} {current : Events} (hb : Blocks h n k) (lt : k < n)
      (port : h.port = .done .error) (starting : h.starting = some (.looked current))
      (state : h.unalignedReqState = .idle)
      (buffer : h.request.dataBuffer = k * h.request.blockSize)
      (raised : h.controller.ready = k + 1)
  /-- completed -/
  | done {status : Status} (ready : h.unready = false)
      (moved : h.moved <+: List.range h.request.length)
      (port : h.port = .done status) (starting : ∀ current, h.starting ≠ some (.looked current))
      (state : h.unalignedReqState = .idle)
      (success : status = .success →
        h.moved = List.range h.request.length ∧ h.trailingFailed = false)

/-! ## Phases are sound -/

theorem Blocks.le_length {h : Host} {n k : Nat} (hb : Blocks h n k) :
    k * h.request.blockSize ≤ h.request.length :=
  (Nat.mul_le_mul_right _ hb.le).trans hb.fits

theorem Blocks.moved_prefix {h : Host} {n k : Nat} (hb : Blocks h n k) :
    h.moved <+: List.range h.request.length := by
  rw [hb.moved]
  exact range_prefix hb.le_length

/-- What a request that is not completed has in common in all phases. -/
theorem Phase.underway {h : Host} (hp : Phase h) (ho : h.port.Outstanding) :
    h.outstandingRequest = true ∧ h.unready = false ∧ h.moved <+: List.range h.request.length := by
  cases hp with
  | idle hi =>
    rw [hi.2.2.1] at ho
    exact ho.elim
  | command hb _ _ _ _ outstanding => exact ⟨outstanding, hb.ready, hb.moved_prefix⟩
  | owed hb _ _ _ _ outstanding => exact ⟨outstanding, hb.ready, hb.moved_prefix⟩
  | looked hb _ _ _ _ outstanding => exact ⟨outstanding, hb.ready, hb.moved_prefix⟩
  | accessed hb _ _ _ outstanding => exact ⟨outstanding, hb.ready, hb.moved_prefix⟩
  | waiting hb _ _ _ _ outstanding => exact ⟨outstanding, hb.ready, hb.moved_prefix⟩
  | last hb _ _ _ outstanding => exact ⟨outstanding, hb.ready, hb.moved_prefix⟩
  | sent prepared ready moved _ _ _ outstanding =>
    have := prepared.total
    exact ⟨outstanding, ready, moved ▸ range_prefix (by omega)⟩
  | started ready moved _ _ _ outstanding => exact ⟨outstanding, ready, moved ▸ List.prefix_rfl⟩
  | aborted _ _ port =>
    rw [port] at ho
    exact ho.elim
  | done _ _ port =>
    rw [port] at ho
    exact ho.elim

theorem Phase.sound {h : Host} (hp : Phase h) : Cmd53Sound h := by
  by_cases ho : h.port.Outstanding
  · obtain ⟨-, ready, moved⟩ := hp.underway ho
    refine ⟨ready, moved, fun status hd => ?_, fun hd => ?_⟩
    · rw [hd] at ho
      exact ho.elim
    · rw [hd] at ho
      exact ho.elim
  · cases hp with
    | idle hi =>
      obtain ⟨-, -, port, moved, ready, -⟩ := hi
      refine ⟨ready, ?_, fun status hd => ?_, fun hd => ?_⟩
      · rw [moved]
        exact List.nil_prefix
      · rw [port] at hd
        cases hd
      · rw [port] at hd
        cases hd
    | aborted hb _ port _ state =>
      refine ⟨hb.ready, hb.moved_prefix, fun _ _ => state, fun hd => ?_⟩
      rw [port] at hd
      cases hd
    | done ready moved port _ state success =>
      refine ⟨ready, moved, fun _ _ => state, fun hd => success ?_⟩
      rw [port] at hd
      exact Port.done.inj hd
    | command _ _ _ port => exact absurd (port ▸ trivial) ho
    | owed _ _ _ port => exact absurd (port ▸ trivial) ho
    | looked _ _ _ port => exact absurd (port ▸ trivial) ho
    | accessed _ _ port => exact absurd (port ▸ trivial) ho
    | waiting _ _ _ port => exact absurd (port ▸ trivial) ho
    | last _ _ port => exact absurd (port ▸ trivial) ho
    | sent _ _ _ _ port => exact absurd (port ▸ trivial) ho
    | started _ _ _ port => exact absurd (port ▸ trivial) ho

/-! ## Sending the command -/

/-- The command of a request with fewer than `65536` blocks. -/
theorem phase_issueRequest {h : Host} {length blockSize : Nat} {direction : TransferDirection}
    (hi : h.Initial) (hl : 0 < length) (hs : 0 < blockSize) (hn : length / blockSize < 65536) :
    Phase (issueRequest h length blockSize direction) := by
  obtain ⟨state, starting, -, moved, ready, failed⟩ := hi
  by_cases hbig : 2048 < blockSize
  · simp only [issueRequest, sendRequest, if_pos hbig]
    refine .done ready ?_ rfl (by simp [starting]) state (by simp)
    rw [moved]
    exact List.nil_prefix
  have hmod : length / blockSize % 65536 = length / blockSize := Nat.mod_eq_of_lt hn
  have hdiv := Nat.div_add_mod length blockSize
  have hlt := Nat.mod_lt length hs
  by_cases hz : length / blockSize = 0
  · -- a short request is one block of its length
    have hshort : length % 65536 = length := by
      rw [hz, Nat.mul_zero] at hdiv
      omega
    simp only [issueRequest, sendRequest, if_neg hbig, adjustBlocks, hz, if_true, hshort,
      sdhcStartNonBlockSizeAlignedRequest, Nat.one_mul, Nat.lt_irrefl, if_false, issueCommand]
    exact .command (n := 1) ⟨ready, rfl, rfl, by simp [moved], by omega, by omega, by simp, by simp,
        failed⟩ (.none state (by simp)) (by omega) rfl starting rfl rfl rfl rfl (by simp) (by simp) rfl rfl
  · have hpos : 0 < length / blockSize := by omega
    rw [Nat.mul_comm] at hdiv
    have hfits : length / blockSize * blockSize ≤ length := by omega
    simp only [issueRequest, sendRequest, if_neg hbig, adjustBlocks, hmod, hz, if_false,
      sdhcStartNonBlockSizeAlignedRequest, issueCommand]
    by_cases hrest : length / blockSize * blockSize < length
    · rw [if_pos hrest]
      have hsmall : length % blockSize % 65536 = length % blockSize := by omega
      refine .command (n := length / blockSize)
        ⟨ready, rfl, rfl, by simp [moved], by omega, hn, hfits, by simp, failed⟩
        (.some rfl ?_ fun _ => rfl) hpos rfl starting rfl rfl rfl rfl (by simp) (by simp) rfl rfl
      simp only [sdhcPrepareInternalRequest, hsmall]
      have hpos : 0 < length % blockSize := by omega
      have hsize : length % blockSize ≤ 2048 := by omega
      exact ⟨rfl, rfl, hpos, hsize, by simp [Nat.mul_comm], hdiv⟩
    · rw [if_neg hrest]
      exact .command (n := length / blockSize)
        ⟨ready, rfl, rfl, by simp [moved], by omega, hn, hfits, by simp, failed⟩
        (.none state (Nat.le_antisymm (Nat.not_lt.1 hrest) hfits)) hpos rfl starting rfl rfl rfl rfl (by simp) (by simp) rfl rfl

/-! ## Transfers -/

/-- The state machine and what it prepared, carried over a step that leaves them alone. -/
theorem Trailer.frame {h h' : Host} {n : Nat} (ht : Trailer h n)
    (state : h'.unalignedReqState = h.unalignedReqState)
    (unaligned : h'.unalignedRequest = h.unalignedRequest)
    (size : h'.request.blockSize = h.request.blockSize)
    (length : h'.request.length = h.request.length)
    (early : h.unalignedReqState = .ready → h'.request.blockCount ≠ 0 →
      (h.request.blockCount ≠ 0 → h.controller.transferComplete = false) →
      h'.controller.transferComplete = false) : Trailer h' n := by
  cases ht with
  | none hs total => exact .none (state.trans hs) (by rw [size, length, total])
  | some hs prepared he =>
    refine .some (state.trans hs) ⟨?_, ?_, ?_, ?_, ?_, ?_⟩ fun hc => early hs hc he
    · rw [unaligned, prepared.count]
    · rw [unaligned, prepared.length]
    · rw [unaligned]
      exact prepared.pos
    · rw [unaligned]
      exact prepared.size
    · rw [unaligned, size, prepared.buffer]
    · rw [unaligned, size, length, prepared.total]

theorem phase_startTransfer {h : Host} (hp : Phase h) (port : h.port = .startOwed) :
    Phase { h with
      outstandingRequest := true
      port := .transfer
      starting := some (.looked h.currentEvents)
      currentEvents := {} } := by
  cases hp with
  | owed hb ht lt _ _ _ count buffer required raised current =>
    exact .looked { hb with }
      (ht.frame rfl rfl rfl rfl fun _ hc he => he hc) lt rfl rfl rfl count buffer required raised
      current rfl
  | idle hi => simp [hi.2.2.1] at port
  | _ => simp_all only [reduceCtorEq]

/-- The next block is accessed when it is ready. -/
theorem Blocks.access {h : Host} {n k : Nat} (hb : Blocks h n k) (lt : k < n)
    (buffer : h.request.dataBuffer = k * h.request.blockSize) (raised : h.controller.ready = k + 1)
    (current : Events) :
    Blocks { accessBlock h h.request with starting := some (.accessed current) } n (k + 1) := by
  have hk := hb.accessed
  refine ⟨?_, hb.blocks, ?_, ?_, lt, hb.small, hb.fits, hb.complete,
    hb.trailingFailed⟩
  · simp [accessBlock, hb.ready, hk, raised]
  · simp [accessBlock, hk]
  · simp only [accessBlock, hb.moved, buffer, range_append_dataPort, Nat.succ_mul]

theorem phase_accessPort {h : Host} (hp : Phase h) {current : Events}
    (hs : h.starting = some (.looked current)) :
    Phase { accessBlock h h.request with starting := some (.accessed current) } := by
  cases hp with
  | @looked _ _ cur hb ht lt port starting outstanding count buffer required raised taken current' =>
    obtain rfl : cur = current := by
      rw [starting] at hs
      simpa using hs
    exact .accessed (hb.access lt buffer raised cur) (ht.frame rfl rfl rfl rfl fun _ hc he => he hc)
      port rfl outstanding count buffer required raised taken current'
  | aborted hb lt port _ state buffer raised =>
    have hb' := hb.access lt buffer raised current
    exact .done hb'.ready hb'.moved_prefix port (by simp) state (by simp)
  | idle hi => simp [hi.2.1] at hs
  | done _ _ _ starting => exact absurd hs (starting current)
  | _ => simp_all only [reduceCtorEq, Option.some.injEq]

/-- The end of a transfer that is followed by another one. -/
theorem finishPioTransfer_more {request : Request} (current : Events)
    (hmore : 1 < request.blockCount) :
    finishPioTransfer request current =
      ({ request with
          blockCount := request.blockCount - 1
          dataBuffer := request.dataBuffer + request.blockSize
          requiredEvents := { request.requiredEvents with bufferReady := true }
          status := .moreProcessingRequired }, false, .pending) := by
  have hne : request.blockCount ≠ 0 := by omega
  have hone : 1 ≤ request.blockCount - 1 := by omega
  simp only [finishPioTransfer, if_neg hne, if_pos hone]

/-- The end of the last transfer. -/
theorem finishPioTransfer_last {request : Request} (current : Events)
    (hlast : request.blockCount = 1) :
    finishPioTransfer request current =
      if current.transferComplete then
        ({ request with
            blockCount := 0
            status := .success }, true, .success)
      else
        ({ request with
            blockCount := 0
            requiredEvents := { request.requiredEvents with transferComplete := true }
            status := .success }, false, .pending) := by
  simp [finishPioTransfer, hlast]

theorem finishPioTransfer_length (request : Request) (current : Events) :
    (finishPioTransfer request current).1.length = request.length := by
  simp only [finishPioTransfer]
  split_ifs <;> rfl

theorem phase_finishTransfer {h : Host} (hp : Phase h) {current : Events}
    (hs : h.starting = some (.accessed current)) : Phase (finishTransfer h current) := by
  cases hp with
  | @accessed n k cur hb ht port starting outstanding count buffer required raised taken current' =>
    obtain rfl : cur = current := by
      rw [starting] at hs
      simpa using hs
    have hle := hb.le
    have hsmall := hb.small
    by_cases hmore : k + 1 < n
    · -- the next block has not been raised yet, so the transfer is not complete
      have hc : h.controller.transferComplete = false := by
        by_contra hc
        have := hb.complete (by simpa using hc)
        omega
      have hfin := @finishPioTransfer_more h.request cur (by omega)
      rw [finishTransfer, hfin]
      refine .waiting (n := n) (k := k + 1)
        { hb with }
        (ht.frame rfl rfl rfl rfl fun _ _ he => he (by omega)) hmore port rfl outstanding ?_ ?_ ?_
        raised rfl ?_
      · show h.request.blockCount - 1 = n - (k + 1)
        omega
      · show h.request.dataBuffer + h.request.blockSize = (k + 1) * h.request.blockSize
        rw [buffer, Nat.succ_mul]
      · show { h.request.requiredEvents with bufferReady := true } = _
        rw [required]
      · show h.currentEvents.transferComplete = h.controller.transferComplete
        rw [current', hc]
    · obtain rfl : n = k + 1 := by omega
      have hone : h.request.blockCount = 1 := by omega
      simp only [finishTransfer, finishPioTransfer_last cur hone]
      cases htc : cur.transferComplete with
      | true =>
        cases ht with
        | none state total =>
          simp only [if_true, sdhcCompleteRequest, port, Port.complete]
          refine .done hb.ready hb.moved_prefix rfl (by simp) state fun _ => ?_
          exact ⟨hb.moved.trans (congrArg List.range total.symm), hb.trailingFailed⟩
        | some state prepared early =>
          have := early (by omega)
          rw [← taken, htc] at this
          cases this
      | false =>
        simp only [Bool.false_eq_true, if_false]
        refine .last (n := k + 1) { hb with }
          (ht.frame rfl rfl rfl rfl fun _ _ he => he (by omega)) port rfl outstanding rfl ?_ raised
          rfl (taken ▸ htc)
        show { h.request.requiredEvents with transferComplete := true } = _
        rw [required]
  | @done status ready moved port starting state success =>
    have hlen := finishPioTransfer_length h.request current
    simp only [finishTransfer]
    generalize finishPioTransfer h.request current = finished at hlen ⊢
    rw [← hlen] at moved success
    split_ifs
    · exact .done ready moved (by simp [sdhcCompleteRequest, port, Port.complete])
        (by simp [sdhcCompleteRequest]) state success
    · exact .done ready moved port (by simp) state success
  | idle hi => simp [hi.2.1] at hs
  | _ => simp_all only [reduceCtorEq, Option.some.injEq]

/-! ## Events -/

/-- What the DPC passes on to the state machine when nothing more is required. -/
def arrived (h : Host) (events : Events) : Host :=
  { h with
    currentEvents := h.currentEvents.or events
    request := { h.request with
      requiredEvents := {}
      status := if h.request.status ≠ .moreProcessingRequired then .success
        else h.request.status } }

theorem sdhcRequestDpc_error {h : Host} {events : Events} (ho : h.outstandingRequest = true) :
    sdhcRequestDpc h events true =
      sdhcCompleteRequest { h with
        unalignedReqState := .idle
        currentEvents := {}
        request := { h.request with requiredEvents := {} } } .error := by
  simp [sdhcRequestDpc, ho]

theorem sdhcRequestDpc_wait {h : Host} {events : Events} (ho : h.outstandingRequest = true)
    (hr : h.request.requiredEvents.clear events ≠ {}) :
    sdhcRequestDpc h events false =
      { h with
        currentEvents := h.currentEvents.or events
        request := { h.request with
          requiredEvents := h.request.requiredEvents.clear events } } := by
  simp [sdhcRequestDpc, ho, hr]

theorem sdhcRequestDpc_arrived {h : Host} {events : Events} (ho : h.outstandingRequest = true)
    (hr : h.request.requiredEvents.clear events = {}) :
    sdhcRequestDpc h events false =
      if (sdhcNonBlockSizeAlignedRequestSM (arrived h events)).2 = .moreProcessingRequired then
        (sdhcNonBlockSizeAlignedRequestSM (arrived h events)).1
      else
        sdhcCompleteRequest (sdhcNonBlockSizeAlignedRequestSM (arrived h events)).1
          (sdhcNonBlockSizeAlignedRequestSM (arrived h events)).1.request.status := by
  simp [sdhcRequestDpc, ho, hr, arrived]

/-- While blocks are left, the state machine waits. -/
theorem sm_of_trailer {h : Host} {n : Nat} (ht : Trailer h n) (hc : h.request.blockCount ≠ 0) :
    sdhcNonBlockSizeAlignedRequestSM h = (h, .success) := by
  cases ht with
  | none state => simp [sdhcNonBlockSizeAlignedRequestSM, state]
  | some state => simp [sdhcNonBlockSizeAlignedRequestSM, state, hc]

/-- Raised events keep to the blocks. -/
theorem Blocks.deliver {h : Host} {n k : Nat} {events : Events} (hb : Blocks h n k)
    (hr : h.controller.Raised h.request.direction events) (hk : k ≤ h.controller.ready) :
    Blocks (h.delivered events) n k := by
  refine { hb with complete := fun hc => ?_ }
  have hblocks := hb.blocks
  have haccessed := hb.accessed
  show n ≤ h.controller.ready + events.bufferReady.toNat
  rcases Bool.or_eq_true _ _ ▸ hc with hc | hc
  · have := hb.complete hc
    omega
  · have hraised := (hr.2.2 hc).2
    cases hd : h.request.direction <;> rw [hd] at hraised
    · exact hblocks ▸ hraised
    · have hraised : h.controller.blocks ≤ h.controller.accessed := hraised
      omega

/-- An error event fails the request. -/
theorem phase_deliver_error {h : Host} {events : Events} (hp : Phase h) (ho : h.port.Outstanding)
    (hr : h.controller.Raised h.request.direction events) :
    Phase (sdhcRequestDpc (h.delivered events) events true) := by
  obtain ⟨outstanding, ready, moved⟩ := hp.underway ho
  have port : h.port.complete .error = .done .error := by
    cases hport : h.port <;> simp_all [Port.Outstanding, Port.complete]
  rw [sdhcRequestDpc_error (h := h.delivered events) outstanding]
  by_cases hs : ∃ current, h.starting = some (.looked current)
  · obtain ⟨current, hs⟩ := hs
    cases hp with
    | @looked n k cur hb _ lt _ starting _ _ buffer _ raised =>
      have hb' := hb.deliver hr (by omega)
      have hnot : events.bufferReady = false := by
        by_contra hbuf
        have := (hr.2.1 (by simpa using hbuf)).1
        have := hb.accessed
        omega
      refine .aborted (n := n) (k := k)
        { hb' with } lt port starting rfl buffer ?_
      show h.controller.ready + events.bufferReady.toNat = k + 1
      rw [hnot, raised]
      rfl
    | idle hi => simp [hi.2.1] at hs
    | done _ _ _ starting => exact absurd hs (starting current)
    | aborted _ _ hd =>
      rw [hd] at ho
      exact ho.elim
    | _ => simp_all only [reduceCtorEq, Option.some.injEq]
  · exact .done ready moved port (fun current hc => hs ⟨current, hc⟩) rfl (by simp)

/-- A completion that leaves blocks makes the port driver start the next transfer. -/
theorem phase_complete_more {h : Host} {n k : Nat} {status : Status} (hb : Blocks h n k)
    (ht : Trailer h n) (lt : k < n) (port : h.port.complete status = .startOwed)
    (starting : h.starting = none) (outstanding : h.outstandingRequest = true)
    (count : h.request.blockCount = n - k)
    (buffer : h.request.dataBuffer = k * h.request.blockSize)
    (required : h.request.requiredEvents = {}) (raised : h.controller.ready = k + 1)
    (current : h.currentEvents.transferComplete = h.controller.transferComplete) :
    Phase (sdhcCompleteRequest h status) := by
  refine .owed (n := n) (k := k) { hb with }
    (ht.frame rfl rfl rfl rfl fun _ hc he => he hc) lt port starting ?_ count buffer required raised
    current
  have hc : h.request.blockCount ≠ 0 := by omega
  simp [sdhcCompleteRequest, outstanding, hc]

/-- Before its turn, the internal command still waits when events are delivered. -/
theorem Trailer.deliver {h : Host} {n : Nat} {events : Events} (ht : Trailer h n)
    (hc : h.request.blockCount ≠ 0)
    (turn : h.unalignedReqState = .ready → events.transferComplete = false) :
    Trailer (h.delivered events) n :=
  ht.frame rfl rfl rfl rfl fun hs _ he => by
    simp only [Host.delivered, Controller.delivered, he hc, turn hs, Bool.or_self]

/-- The block that is waited for is ready, and the port driver is going to start its transfer. -/
theorem phase_block_ready {h : Host} {n k : Nat} {events : Events} (hb : Blocks h n k)
    (ht : Trailer h n) (lt : k < n) (starting : h.starting = none)
    (outstanding : h.outstandingRequest = true) (count : h.request.blockCount = n - k)
    (buffer : h.request.dataBuffer = k * h.request.blockSize)
    (hclear : h.request.requiredEvents.clear events = {}) (raised : h.controller.ready = k + 1)
    (port : h.port.complete (arrived h events).request.status = .startOwed)
    (current : (h.currentEvents.or events).transferComplete = h.controller.transferComplete) :
    Phase (sdhcRequestDpc h events false) := by
  have hc : (arrived h events).request.blockCount ≠ 0 := by
    show h.request.blockCount ≠ 0
    omega
  have ht' : Trailer (arrived h events) n :=
    ht.frame rfl rfl rfl rfl fun _ hc he => he hc
  rw [sdhcRequestDpc_arrived outstanding hclear, sm_of_trailer ht' hc]
  simp only [reduceCtorEq, if_false]
  exact phase_complete_more { hb with } ht' lt port starting outstanding count buffer rfl raised
    current

theorem current_delivered {h : Host} {events : Events}
    (current : h.currentEvents.transferComplete = h.controller.transferComplete) :
    (h.currentEvents.or events).transferComplete =
      (h.controller.delivered events).transferComplete := by
  simp only [Events.or, Controller.delivered, current]

/-- The command waits on, or the first block is ready. -/
theorem phase_deliver_command {h : Host} {n : Nat} {events : Events} (hb : Blocks h n 0)
    (ht : Trailer h n) (pos : 0 < n) (port : h.port = .command) (starting : h.starting = none)
    (outstanding : h.outstandingRequest = true) (count : h.request.blockCount = n)
    (buffer : h.request.dataBuffer = 0)
    (required : h.request.requiredEvents =
      ⟨!h.controller.cmdComplete, h.controller.ready == 0, false⟩)
    (once : h.controller.ready ≤ 1) (status : h.request.status = .pending)
    (current : h.currentEvents.transferComplete = h.controller.transferComplete)
    (hr : h.controller.Raised h.request.direction events)
    (turn : h.unalignedReqState = .ready → events.transferComplete = false) :
    Phase (sdhcRequestDpc (h.delivered events) events false) := by
  have hb' := hb.deliver hr (Nat.zero_le _)
  have ht' := ht.deliver (by omega) turn
  have hbuf : events.bufferReady = true → h.controller.ready = 0 := fun hbuf => by
    rw [(hr.2.1 hbuf).1, hb.accessed]
  have hclear : h.request.requiredEvents.clear events =
      ⟨!(h.controller.delivered events).cmdComplete, (h.controller.delivered events).ready == 0,
        false⟩ := by
    rw [required]
    cases hb : events.bufferReady <;>
      simp_all [Events.clear, Controller.delivered]
  have honce : (h.controller.delivered events).ready ≤ 1 := by
    show h.controller.ready + events.bufferReady.toNat ≤ 1
    cases he : events.bufferReady with
    | true =>
      rw [hbuf he]
      decide
    | false => exact once
  by_cases hdone : h.request.requiredEvents.clear events = {}
  · refine phase_block_ready hb' ht' pos starting outstanding count ?_ hdone ?_ ?_
      (current_delivered current)
    · show h.request.dataBuffer = 0 * h.request.blockSize
      rw [buffer, Nat.zero_mul]
    · have hpos : (h.controller.delivered events).ready ≠ 0 := by
        rw [hclear] at hdone
        simpa using congrArg Events.bufferReady hdone
      show (h.controller.delivered events).ready = 0 + 1
      omega
    · simp [arrived, Host.delivered, status, port, Port.complete]
  · rw [sdhcRequestDpc_wait (h := h.delivered events) outstanding hdone]
    exact .command { hb' with } (ht'.frame rfl rfl rfl rfl fun _ hc he => he hc) pos port starting
      outstanding count buffer hclear hdone honce status (current_delivered current)

/-- The next block is ready, or nothing of the request has happened. -/
theorem phase_deliver_waiting {h : Host} {n k : Nat} {events : Events} (hb : Blocks h n k)
    (ht : Trailer h n) (lt : k < n) (port : h.port = .transfer) (starting : h.starting = none)
    (outstanding : h.outstandingRequest = true) (count : h.request.blockCount = n - k)
    (buffer : h.request.dataBuffer = k * h.request.blockSize)
    (required : h.request.requiredEvents = { bufferReady := true })
    (raised : h.controller.ready = k) (status : h.request.status = .moreProcessingRequired)
    (current : h.currentEvents.transferComplete = h.controller.transferComplete)
    (hr : h.controller.Raised h.request.direction events)
    (turn : h.unalignedReqState = .ready → events.transferComplete = false) :
    Phase (sdhcRequestDpc (h.delivered events) events false) := by
  have hb' := hb.deliver hr raised.ge
  have ht' := ht.deliver (by omega) turn
  cases hbuf : events.bufferReady with
  | true =>
    have hclear : h.request.requiredEvents.clear events = {} := by
      simp [required, Events.clear, hbuf]
    refine phase_block_ready hb' ht' lt starting outstanding count buffer hclear ?_ ?_
      (current_delivered current)
    · show h.controller.ready + events.bufferReady.toNat = k + 1
      rw [raised, hbuf]
      rfl
    · simp [arrived, Host.delivered, status, port, Port.complete]
  | false =>
    have hclear : h.request.requiredEvents.clear events = { bufferReady := true } := by
      simp [required, Events.clear, hbuf]
    rw [sdhcRequestDpc_wait (h := h.delivered events) outstanding (by
      rw [show (h.delivered events).request.requiredEvents.clear events = _ from hclear]
      simp)]
    refine .waiting (k := k) { hb' with } (ht'.frame rfl rfl rfl rfl fun _ hc he => he hc) lt port
      starting outstanding count buffer hclear ?_ status (current_delivered current)
    show h.controller.ready + events.bufferReady.toNat = k
    rw [raised, hbuf]
    rfl

/-- Sending the internal command. -/
theorem sendInternal_prepared {h : Host} {n : Nat} (hp : Prepared h n) :
    sendInternal h =
      ({ h with
          currentEvents := {}
          controller := ⟨1, false, 0, 0, false⟩
          unalignedRequest := { h.unalignedRequest with
            requiredEvents := { cmdComplete := true, bufferReady := true } } }, .pending) := by
  have hsize := Nat.not_lt.2 hp.size
  have hone : h.unalignedRequest.length / h.unalignedRequest.blockSize % 65536 = 1 := by
    rw [hp.length, Nat.div_self hp.pos]
  have hadjust : adjustBlocks h.unalignedRequest = h.unalignedRequest := by
    have hcount := hp.count
    cases hu : h.unalignedRequest
    simp_all [adjustBlocks]
  simp only [sendInternal, if_neg hsize, hadjust, issueCommand, hp.count]

/-- The state machine sends the internal command. -/
theorem sm_of_prepared {h : Host} {n : Nat} (hp : Prepared h n) (state : h.unalignedReqState = .ready)
    (count : h.request.blockCount = 0) :
    sdhcNonBlockSizeAlignedRequestSM h =
      ({ h with
          currentEvents := {}
          unalignedReqState := .sendCommand
          controller := ⟨1, false, 0, 0, false⟩
          unalignedRequest := { h.unalignedRequest with
            requiredEvents := { cmdComplete := true, bufferReady := true } } },
        .moreProcessingRequired) := by
  have hsend := sendInternal_prepared (h := { h with unalignedReqState := .sendCommand })
    { hp with }
  simp only [sdhcNonBlockSizeAlignedRequestSM, state, count, ne_eq, not_true_eq_false, if_false,
    hsend, Status.ok, Bool.not_true, Bool.false_eq_true]

/-- The aligned part is complete: the request ends, or the internal command is sent. -/
theorem phase_deliver_last {h : Host} {n : Nat} {events : Events} (hb : Blocks h n n)
    (ht : Trailer h n) (port : h.port = .transfer) (starting : h.starting = none)
    (outstanding : h.outstandingRequest = true) (count : h.request.blockCount = 0)
    (required : h.request.requiredEvents = { transferComplete := true })
    (raised : h.controller.ready = n) (status : h.request.status = .success)
    (incomplete : h.controller.transferComplete = false)
    (hr : h.controller.Raised h.request.direction events) :
    Phase (sdhcRequestDpc (h.delivered events) events false) := by
  have hb' := hb.deliver hr raised.ge
  -- no block is left to become ready
  have hbuf : events.bufferReady = false := by
    by_contra hbuf
    have := (hr.2.1 (by simpa using hbuf)).2
    have := hb.blocks
    omega
  have hstatus : (arrived (h.delivered events) events).request.status = .success := by
    simp [arrived, Host.delivered, status]
  have hport : h.port.complete .success = .done .success := by
    rw [port]
    rfl
  cases htc : events.transferComplete with
  | true =>
    have hclear : h.request.requiredEvents.clear events = {} := by
      simp [required, Events.clear, htc]
    rw [sdhcRequestDpc_arrived (h := h.delivered events) outstanding hclear]
    cases ht with
    | none state total =>
      have hsm : sdhcNonBlockSizeAlignedRequestSM (arrived (h.delivered events) events) =
          (arrived (h.delivered events) events, .success) := by
        simp only [sdhcNonBlockSizeAlignedRequestSM, arrived, Host.delivered, state]
      rw [hsm]
      simp only [reduceCtorEq, if_false, hstatus]
      refine .done hb.ready hb.moved_prefix hport (by simp [sdhcCompleteRequest, arrived,
        Host.delivered, starting]) state fun _ => ?_
      exact ⟨hb.moved.trans (congrArg List.range total.symm), hb.trailingFailed⟩
    | some state prepared _ =>
      have hp : Prepared (arrived (h.delivered events) events) n :=
        ⟨prepared.1, prepared.2, prepared.3, prepared.4, prepared.5, prepared.6⟩
      rw [sm_of_prepared hp state count]
      simp only [if_true]
      exact .sent (n := n) ⟨prepared.1, prepared.2, prepared.3, prepared.4, prepared.5, prepared.6⟩
        hb.ready hb.moved rfl port starting outstanding count rfl hstatus rfl rfl hb.trailingFailed
  | false =>
    have hclear : h.request.requiredEvents.clear events = { transferComplete := true } := by
      simp [required, Events.clear, htc]
    rw [sdhcRequestDpc_wait (h := h.delivered events) outstanding (by
      rw [show (h.delivered events).request.requiredEvents.clear events = _ from hclear]
      simp)]
    refine .last (n := n) { hb' with }
      (ht.frame rfl rfl rfl rfl fun _ hc _ => absurd count hc) port starting outstanding count
      hclear ?_ status ?_
    · show h.controller.ready + events.bufferReady.toNat = n
      rw [raised, hbuf]
      rfl
    · show (h.controller.transferComplete || events.transferComplete) = false
      rw [incomplete, htc]
      rfl

/-- The state machine starts the internal transfer, and ends with it if it is complete. -/
theorem sm_of_sendCommand {h : Host} (state : h.unalignedReqState = .sendCommand)
    (count : h.unalignedRequest.blockCount = 1) :
    ∃ request : Request, sdhcNonBlockSizeAlignedRequestSM h =
      ({ accessBlock h h.unalignedRequest with
          currentEvents := {}
          unalignedReqState :=
            if h.currentEvents.transferComplete then .idle else .startTransfer
          unalignedRequest := request },
        if h.currentEvents.transferComplete then .success else .moreProcessingRequired) := by
  cases htc : h.currentEvents.transferComplete with
  | true =>
    refine ⟨{ h.unalignedRequest with
      blockCount := 0
      status := .success }, ?_⟩
    simp only [sdhcNonBlockSizeAlignedRequestSM, state, startInternal, accessBlock,
      finishPioTransfer_last _ count, htc, if_true, Status.ok, Bool.not_true, Bool.false_eq_true,
      if_false, reduceCtorEq]
  | false =>
    refine ⟨{ h.unalignedRequest with
      blockCount := 0
      requiredEvents := { h.unalignedRequest.requiredEvents with transferComplete := true }
      status := .success }, ?_⟩
    simp only [sdhcNonBlockSizeAlignedRequestSM, state, startInternal, accessBlock,
      finishPioTransfer_last _ count, htc, if_true, Status.ok, Bool.not_true, Bool.false_eq_true,
      if_false]

/-- The state machine transfers the last bytes. -/
theorem phase_deliver_sent {h : Host} {n : Nat} {events : Events} (prepared : Prepared h n)
    (ready : h.unready = false) (moved : h.moved = List.range (n * h.request.blockSize))
    (state : h.unalignedReqState = .sendCommand) (port : h.port = .transfer)
    (starting : h.starting = none) (outstanding : h.outstandingRequest = true)
    (count : h.request.blockCount = 0) (required : h.request.requiredEvents = {})
    (status : h.request.status = .success) (current : h.currentEvents = {})
    (sent : h.controller = ⟨1, false, 0, 0, false⟩) (trailingFailed : h.trailingFailed = false)
    (turn : events.bufferReady = true) :
    Phase (sdhcRequestDpc (h.delivered events) events false) := by
  have hclear : h.request.requiredEvents.clear events = {} := by
    simp [required, Events.clear]
  have hstatus : (arrived (h.delivered events) events).request.status = .success := by
    simp [arrived, Host.delivered, status]
  have hmoved : h.moved ++ dataPort h.unalignedRequest.dataBuffer h.unalignedRequest.blockSize =
      List.range h.request.length := by
    rw [moved, prepared.buffer, range_append_dataPort, prepared.total]
  have hready : (accessBlock (arrived (h.delivered events) events) h.unalignedRequest).unready =
      false := by
    simp [accessBlock, arrived, Host.delivered, Controller.delivered, ready, sent, turn]
  obtain ⟨request, hsm⟩ := sm_of_sendCommand
    (h := arrived (h.delivered events) events) state prepared.count
  have hcur : (arrived (h.delivered events) events).currentEvents.transferComplete =
      events.transferComplete := by
    simp [arrived, Host.delivered, current, Events.or]
  rw [sdhcRequestDpc_arrived (h := h.delivered events) outstanding hclear, hsm, hcur]
  cases htc : events.transferComplete with
  | true =>
    simp only [if_true, reduceCtorEq, if_false]
    refine .done hready ?_ (?_ : _ = Port.done .success) ?_ rfl fun _ => ⟨hmoved, trailingFailed⟩
    · exact hmoved ▸ List.prefix_rfl
    · show h.port.complete (arrived (h.delivered events) events).request.status = _
      rw [hstatus, port]
      rfl
    · show ∀ c, h.starting ≠ some (.looked c)
      simp [starting]
  | false =>
    simp only [Bool.false_eq_true, if_true, if_false]
    refine .started hready hmoved rfl port starting outstanding count rfl hstatus ⟨?_, ?_, ?_⟩ ?_
      trailingFailed
    · show h.controller.ready + events.bufferReady.toNat = 1
      rw [sent, turn]
      rfl
    · show h.controller.accessed + 1 = 1
      rw [sent]
    · show h.controller.blocks = 1
      rw [sent]
    · show (h.controller.transferComplete || events.transferComplete) = false
      rw [sent, htc]
      rfl

/-- Any event completes the request when its last bytes have been transferred. -/
theorem phase_deliver_started {h : Host} {events : Events} (ready : h.unready = false)
    (moved : h.moved = List.range h.request.length) (state : h.unalignedReqState = .startTransfer)
    (port : h.port = .transfer) (starting : h.starting = none)
    (outstanding : h.outstandingRequest = true) (required : h.request.requiredEvents = {})
    (status : h.request.status = .success) (trailingFailed : h.trailingFailed = false) :
    Phase (sdhcRequestDpc (h.delivered events) events false) := by
  have hclear : h.request.requiredEvents.clear events = {} := by
    simp [required, Events.clear]
  have hstatus : (arrived (h.delivered events) events).request.status = .success := by
    simp [arrived, Host.delivered, status]
  have hsm : sdhcNonBlockSizeAlignedRequestSM (arrived (h.delivered events) events) =
      ({ arrived (h.delivered events) events with unalignedReqState := .idle }, .success) := by
    simp only [sdhcNonBlockSizeAlignedRequestSM, arrived, Host.delivered, state]
  rw [sdhcRequestDpc_arrived (h := h.delivered events) outstanding hclear, hsm]
  simp only [reduceCtorEq, if_false, hstatus]
  refine .done ready ?_ (?_ : _ = Port.done .success) ?_ rfl fun _ => ⟨moved, trailingFailed⟩
  · exact moved ▸ List.prefix_rfl
  · show h.port.complete .success = _
    rw [port]
    rfl
  · show ∀ c, h.starting ≠ some (.looked c)
    simp [starting]

/-- Events that are delivered in turn. -/
theorem phase_deliver {h : Host} {events : Events} {errors : Bool} (hp : Phase h)
    (ho : h.port.Outstanding) (hr : h.controller.Raised h.request.direction events)
    (hok : DeliveredInTurn h (.deliver events errors)) :
    Phase (sdhcRequestDpc (h.delivered events) events errors) := by
  cases errors with
  | true => exact phase_deliver_error hp ho hr
  | false =>
    obtain ⟨starting, turn⟩ := hok.resolve_left (by simp)
    have hturn : ∀ {n : Nat}, Trailer h n → h.request.blockCount ≠ 0 →
        h.port ≠ .startOwed ∧ (h.unalignedReqState = .ready → events.transferComplete = false) := by
      intro n ht hc
      cases ht with
      | none state =>
        rw [state] at turn
        exact ⟨turn, fun hs => by simp [state] at hs⟩
      | some state =>
        rw [state] at turn
        exact ⟨turn.1, fun _ => by
          by_contra htc
          exact hc (turn.2 (by simpa using htc))⟩
    cases hp with
    | idle hi =>
      rw [hi.2.2.1] at ho
      exact ho.elim
    | command hb ht pos port _ outstanding count buffer required _ once status current =>
      exact phase_deliver_command hb ht pos port starting outstanding count buffer required once
        status current hr (hturn ht (by omega)).2
    | owed _ ht lt port _ _ count => exact absurd port (hturn ht (by omega)).1
    | looked _ _ _ _ hs => simp [starting] at hs
    | accessed _ _ _ hs => simp [starting] at hs
    | waiting hb ht lt port _ outstanding count buffer required raised status current =>
      exact phase_deliver_waiting hb ht lt port starting outstanding count buffer required raised
        status current hr (hturn ht (by omega)).2
    | last hb ht port _ outstanding count required raised status incomplete =>
      exact phase_deliver_last hb ht port starting outstanding count required raised status
        incomplete hr
    | sent prepared ready moved state port _ outstanding count required status current sent failed =>
      rw [state] at turn
      exact phase_deliver_sent prepared ready moved state port starting outstanding count required
        status current sent failed turn
    | started ready moved state port _ outstanding _ required status _ _ failed =>
      exact phase_deliver_started ready moved state port starting outstanding required status failed
    | aborted _ _ hd =>
      rw [hd] at ho
      exact ho.elim
    | done _ _ hd =>
      rw [hd] at ho
      exact ho.elim

/-! ## Runs -/

/-- A step in turn keeps the phases. -/
theorem phase_step {h h' : Host} {a : Cmd53Action} (hp : Phase h) (hok : DeliveredInTurn h a)
    (hs : cmd53Step h a = some h') : Phase h' := by
  cases a with
  | issueRequest length blockSize direction =>
    simp only [cmd53Step, Option.ite_none_right_eq_some, Option.some.injEq] at hs
    obtain ⟨⟨port, hl, -, hb, -, -⟩, rfl⟩ := hs
    cases hp with
    | idle hi => exact phase_issueRequest hi hl hb hok
    | _ => simp_all only [reduceCtorEq]
  | startTransfer =>
    simp only [cmd53Step, Option.ite_none_right_eq_some, Option.some.injEq] at hs
    obtain ⟨⟨port, -⟩, rfl⟩ := hs
    exact phase_startTransfer hp port
  | accessPort =>
    simp only [cmd53Step] at hs
    split at hs
    · next hstart =>
      cases hs
      exact phase_accessPort hp hstart
    · cases hs
  | finishTransfer =>
    simp only [cmd53Step] at hs
    split at hs
    · next hstart =>
      cases hs
      exact phase_finishTransfer hp hstart
    · cases hs
  | deliver events errors =>
    simp only [cmd53Step, Option.ite_none_right_eq_some, Option.some.injEq] at hs
    obtain ⟨⟨ho, -, hr⟩, rfl⟩ := hs
    exact phase_deliver hp ho hr hok

/-- **Runs whose events are delivered in turn** access blocks when they are ready and in order, and
end with success only when all bytes have been moved. -/
theorem cmd53Sound_of_inTurn {h : Host} (hr : cmd53Machine.Reach DeliveredInTurn h) :
    Cmd53Sound h := by
  refine Phase.sound (hr.inv (fun h hi => .idle hi) fun h a h' hp hok hs => ?_)
  exact phase_step hp hok hs

/-- **A request that has not ended goes on**: a step in turn that is no error is enabled. -/
theorem inTurn_goesOn {h : Host} (hr : cmd53Machine.Reach DeliveredInTurn h)
    (ho : h.port.Outstanding) :
    ∃ a h', cmd53Step h a = some h' ∧ DeliveredInTurn h a ∧ ∀ events, a ≠ .deliver events true := by
  have hp : Phase h := hr.inv (fun h hi => .idle hi) fun h a h' hp hok hs => phase_step hp hok hs
  -- what a delivery needs
  have deliver : ∀ events : Events, events ≠ {} →
      h.controller.Raised h.request.direction events → DeliveredInTurn h (.deliver events false) →
      ∃ a h', cmd53Step h a = some h' ∧ DeliveredInTurn h a ∧
        ∀ events, a ≠ .deliver events true := by
    intro events hne hraised hok
    refine ⟨.deliver events false, _, if_pos ⟨ho, .inl hne, hraised⟩, hok, ?_⟩
    intro _ hc
    cases hc
  have inTurn : ∀ {n : Nat} (events : Events), Trailer h n → h.starting = none →
      h.port ≠ .startOwed → (events.transferComplete = true → h.request.blockCount = 0) →
      DeliveredInTurn h (.deliver events false) := by
    intro n events ht starting port htc
    refine .inr ⟨starting, ?_⟩
    cases ht with
    | none state => simpa only [state] using port
    | some state => simpa only [state] using ⟨port, htc⟩
  cases hp with
  | idle hi =>
    rw [hi.2.2.1] at ho
    exact ho.elim
  | command hb ht pos port starting _ _ _ required waits =>
    have hnot : h.port ≠ .startOwed := by simp [port]
    cases hcmd : h.controller.cmdComplete with
    | false =>
      exact deliver { cmdComplete := true } (by simp) ⟨by simp [hcmd], by simp, by simp⟩
        (inTurn _ ht starting hnot (by simp))
    | true =>
      have hzero : h.controller.ready = 0 := by
        by_contra hne
        simp [required, hcmd, hne] at waits
      have hlt : h.controller.ready < h.controller.blocks := by
        rw [hzero, hb.blocks]
        exact pos
      exact deliver { bufferReady := true } (by simp)
        ⟨by simp, fun _ => ⟨hzero.trans hb.accessed.symm, hlt⟩, by simp⟩
        (inTurn _ ht starting hnot (by simp))
  | owed _ _ _ port starting =>
    exact ⟨.startTransfer, _, if_pos ⟨port, starting⟩, trivial, fun _ hc => by cases hc⟩
  | @looked _ _ current _ _ _ _ starting =>
    have hs : cmd53Step h .accessPort =
        some { accessBlock h h.request with starting := some (.accessed current) } := by
      simp only [cmd53Step, starting]
    exact ⟨.accessPort, _, hs, trivial, fun _ hc => by cases hc⟩
  | @accessed _ _ current _ _ _ starting =>
    have hs : cmd53Step h .finishTransfer = some (finishTransfer h current) := by
      simp only [cmd53Step, starting]
    exact ⟨.finishTransfer, _, hs, trivial, fun _ hc => by cases hc⟩
  | waiting hb ht lt port starting _ _ _ _ raised =>
    have hlt : h.controller.ready < h.controller.blocks := by
      rw [raised, hb.blocks]
      exact lt
    exact deliver { bufferReady := true } (by simp)
      ⟨by simp, fun _ => ⟨raised.trans hb.accessed.symm, hlt⟩, by simp⟩
      (inTurn _ ht starting (by simp [port]) (by simp))
  | last hb ht port starting _ count _ raised _ incomplete =>
    have hblocks := hb.blocks
    have haccessed := hb.accessed
    refine deliver { transferComplete := true } (by simp) ⟨by simp, by simp, fun _ => ?_⟩
      (inTurn _ ht starting (by simp [port]) fun _ => count)
    refine ⟨by simp [incomplete], ?_⟩
    cases h.request.direction
    · show h.controller.blocks ≤ h.controller.ready + 0
      omega
    · show h.controller.blocks ≤ h.controller.accessed
      omega
  | sent _ _ _ state _ starting _ _ _ _ _ sent =>
    refine deliver { cmdComplete := true, bufferReady := true } (by simp)
      ⟨by simp [sent], by simp [sent], by simp⟩ (.inr ⟨starting, ?_⟩)
    simp only [state]
  | started _ _ state _ starting _ _ _ _ raised incomplete =>
    obtain ⟨hready, haccessed, hblocks⟩ := raised
    refine deliver { transferComplete := true } (by simp) ⟨by simp, by simp, fun _ => ?_⟩
      (.inr ⟨starting, ?_⟩)
    · refine ⟨by simp [incomplete], ?_⟩
      cases h.request.direction
      · show h.controller.blocks ≤ h.controller.ready + 0
        omega
      · show h.controller.blocks ≤ h.controller.accessed
        omega
    · simp only [state]
  | aborted _ _ hd =>
    rw [hd] at ho
    exact ho.elim
  | done _ _ hd =>
    rw [hd] at ho
    exact ho.elim

/-! ## Runs on fixed inputs -/

/-- The driver when it has been loaded. -/
def Host.start : Host where
  outstandingRequest := false
  currentEvents := {}
  unalignedReqState := .idle
  unalignedRequest := ⟨0, 0, 0, 0, .read, {}, .success⟩
  request := ⟨0, 0, 0, 0, .read, {}, .success⟩
  starting := none
  controller := ⟨0, false, 0, 0, false⟩
  port := .idle
  moved := []
  unready := false
  trailingFailed := false

/-- Three bytes in blocks of two: a block, and a trailing byte by the internal request. -/
theorem cmd53Sound_of_inTurn_trailing :
    ∃ h, cmd53Machine.Reach DeliveredInTurn h ∧ h.port = .done .success ∧ h.moved = [0, 1, 2] ∧
      Cmd53Sound h := by
  have h0 : cmd53Machine.Reach DeliveredInTurn Host.start := .init (by simp [cmd53Machine,
    Host.Initial, Host.start])
  have h1 := Machine.Reach.step (a := .issueRequest 3 2 .read) h0
    (by exact show 3 / 2 < 65536 by decide) rfl
  have h2 := Machine.Reach.step (a := .deliver ⟨true, true, false⟩ false) h1
    (by exact .inr ⟨rfl, by decide, by decide⟩) rfl
  have h3 := Machine.Reach.step (a := .startTransfer) h2 (by trivial) rfl
  have h4 := Machine.Reach.step (a := .accessPort) h3 (by trivial) rfl
  have h5 := Machine.Reach.step (a := .finishTransfer) h4 (by trivial) rfl
  have h6 := Machine.Reach.step (a := .deliver ⟨false, false, true⟩ false) h5
    (by exact .inr ⟨rfl, by decide, by decide⟩) rfl
  have h7 := Machine.Reach.step (a := .deliver ⟨true, true, false⟩ false) h6
    (by exact .inr ⟨rfl, rfl⟩) rfl
  have h8 := Machine.Reach.step (a := .deliver ⟨false, false, true⟩ false) h7
    (by exact .inr ⟨rfl, trivial⟩) rfl
  exact ⟨_, h8, rfl, rfl, cmd53Sound_of_inTurn h8⟩

/-- The request goes on after it has been issued. -/
theorem inTurn_goesOn_issued :
    ∃ h, cmd53Machine.Reach DeliveredInTurn h ∧ h.port.Outstanding ∧ ∃ a h',
      cmd53Step h a = some h' ∧ DeliveredInTurn h a ∧ ∀ events, a ≠ .deliver events true := by
  have h0 : cmd53Machine.Reach DeliveredInTurn Host.start := .init (by simp [cmd53Machine,
    Host.Initial, Host.start])
  have h1 := Machine.Reach.step (a := .issueRequest 3 2 .read) h0
    (by exact show 3 / 2 < 65536 by decide) rfl
  exact ⟨_, h1, trivial, inTurn_goesOn h1 trivial⟩

/-- The same request; the internal command completes before its buffer is ready. -/
def unreadyRun : List Cmd53Action :=
  [.issueRequest 3 2 .read, .deliver ⟨true, true, false⟩ false, .startTransfer, .accessPort,
    .finishTransfer, .deliver ⟨false, false, true⟩ false, .deliver ⟨true, false, false⟩ false]

/-- **The trailing byte is read before it is there.** -/
theorem trailing_unready : ¬ ∀ h, cmd53Machine.Reachable h → Cmd53Sound h := by
  intro h
  have hrun := cmd53Machine.reach_exec_get unreadyRun (s := Host.start)
    (by simp [cmd53Machine, Host.Initial, Host.start]) (by rfl)
  exact absurd (h _ hrun).1 (by decide)

end RpiDrivers.Sdhc
