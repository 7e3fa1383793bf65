import Mathlib.Logic.Basic
import RpiDrivers.Lib.Machine
import RpiDrivers.Lib.Pool
import RpiDrivers.Sdhc.Events

/-!
# Events of the slot (`SlotExtension.cpp` of brcme88c)

Sdport issues a request in phases: the command, and after it the transfer, by PIO block by block
or by DMA in one phase that is complete at once. A phase says in `RequiredEvents` what it waits
for. The DPC takes the events away that have come and completes the phase when none is left.

`SendCommand` sets `RequiredEvents` before it writes the command register. `StartPioTransfer`
accesses the data port first, then sets the status and adds what it waits for. These are separate
steps, and interrupts and the DPC may come between them.

- `EventsSound`: phases are completed once and not before their events, blocks are accessed when
  they are ready, and no event is lost.
- `Prepared`: the condition. The DPC is called for a phase when `RequiredEvents` has been set.
-/

namespace RpiDrivers.Brcme88c

open RpiDrivers.Lib
open RpiDrivers.Sdhc (Event Events)

/-! ## Requests -/

/-- The `NTSTATUS` values that occur. -/
inductive Status
  | success
  | pending
  | moreProcessingRequired
  | notSupported
  | ioTimeout
  | crcError
  | deviceDataError
  | deviceProtocolError
  | devicePowerFailure
  | ioDeviceError
  deriving DecidableEq

inductive RequestType
  | commandNoTransfer
  | commandWithTransfer
  | startTransfer
  deriving DecidableEq

inductive ResponseType
  | none | r1 | r1b | r2 | r3 | r4 | r5 | r5b | r6 | unknown
  deriving DecidableEq

inductive CommandType
  | undefined | suspend | resume | abort | unknown
  deriving DecidableEq

inductive TransferType
  | none | singleBlock | multiBlock | multiBlockNoStop | unknown
  deriving DecidableEq

inductive TransferDirection
  | undefined | read | write
  deriving DecidableEq

inductive TransferMethod
  | pio | sgDma | unknown
  deriving DecidableEq

/-- `SDPORT_REQUEST` -/
structure Request where
  type : RequestType
  responseType : ResponseType
  commandType : CommandType
  transferType : TransferType
  transferDirection : TransferDirection
  transferMethod : TransferMethod
  blockCount : Nat
  requiredEvents : Events
  status : Status

namespace Request

def hasData (r : Request) : Prop := r.transferType ≠ .none

instance (r : Request) : Decidable r.hasData := inferInstanceAs (Decidable (_ ≠ _))

/-- The response comes with a busy signal. -/
def busy (r : Request) : Prop := r.responseType = .r1b ∨ r.responseType = .r5b

instance (r : Request) : Decidable r.busy := inferInstanceAs (Decidable (_ ∨ _))

/-- What `SendCommand` and `StartPioTransfer` assert of the requests of Sdport, and two conditions on
Sdport: the type that goes with the data, and the initial status. -/
structure WellFormed (r : Request) : Prop where
  type : r.type = if r.hasData then .commandWithTransfer else .commandNoTransfer
  blockCount : r.hasData ↔ r.blockCount ≠ 0
  singleBlock : r.transferType = .singleBlock → r.blockCount = 1
  range : r.blockCount < 65536
  /-- Sdport does not issue a request with the status that keeps a transfer going. The source does
  not assert this: `SendCommand` leaves `Status` as it is. -/
  status : r.status ≠ .moreProcessingRequired

instance (r : Request) : Decidable r.WellFormed :=
  decidable_of_iff (r.type = (if r.hasData then .commandWithTransfer else .commandNoTransfer) ∧
      (r.hasData ↔ r.blockCount ≠ 0) ∧ (r.transferType = .singleBlock → r.blockCount = 1) ∧
      r.blockCount < 65536 ∧ r.status ≠ .moreProcessingRequired)
    ⟨fun ⟨h₁, h₂, h₃, h₄, h₅⟩ => ⟨h₁, h₂, h₃, h₄, h₅⟩, fun ⟨h₁, h₂, h₃, h₄, h₅⟩ =>
      ⟨h₁, h₂, h₃, h₄, h₅⟩⟩

end Request

/-! ## Interrupts -/

/-- `SdRegErrorInterrupts` -/
structure SdRegErrorInterrupts where
  commandTimeout : Bool := false
  commandCrc : Bool := false
  commandEndBit : Bool := false
  commandIndex : Bool := false
  dataTimeout : Bool := false
  dataCrc : Bool := false
  dataEndBit : Bool := false
  currentLimit : Bool := false
  autoCmd : Bool := false
  adma : Bool := false
  tuning : Bool := false
  response : Bool := false
  deriving DecidableEq

/-- `a | b` -/
def SdRegErrorInterrupts.or (a b : SdRegErrorInterrupts) : SdRegErrorInterrupts where
  commandTimeout := a.commandTimeout || b.commandTimeout
  commandCrc := a.commandCrc || b.commandCrc
  commandEndBit := a.commandEndBit || b.commandEndBit
  commandIndex := a.commandIndex || b.commandIndex
  dataTimeout := a.dataTimeout || b.dataTimeout
  dataCrc := a.dataCrc || b.dataCrc
  dataEndBit := a.dataEndBit || b.dataEndBit
  currentLimit := a.currentLimit || b.currentLimit
  autoCmd := a.autoCmd || b.autoCmd
  adma := a.adma || b.adma
  tuning := a.tuning || b.tuning
  response := a.response || b.response

/-- `ErrorInterruptToStatus` -/
def errorInterruptToStatus (e : SdRegErrorInterrupts) : Status :=
  if e = {} then .success
  else if e.commandTimeout || e.dataTimeout then .ioTimeout
  else if e.commandCrc || e.dataCrc then .crcError
  else if e.commandEndBit || e.dataEndBit then .deviceDataError
  else if e.commandIndex then .deviceProtocolError
  else if e.currentLimit then .devicePowerFailure
  else .ioDeviceError

/-- A status that does not end the request as a failure. -/
def Status.succeeds : Status → Bool
  | .success | .moreProcessingRequired => true
  | _ => false

/-- Errors fail the request. -/
theorem errorInterruptToStatus_succeeds {e : SdRegErrorInterrupts} (he : e ≠ {}) :
    (errorInterruptToStatus e).succeeds = false := by
  unfold errorInterruptToStatus
  rw [if_neg he]
  split_ifs <;> rfl

/-- What an interrupt reports: completion events, interrupts that are none (`other`), errors. -/
structure Interrupts where
  events : Events := {}
  other : Bool := false
  errors : SdRegErrorInterrupts := {}
  deriving DecidableEq

/-- `a | b` -/
def Interrupts.or (a b : Interrupts) : Interrupts :=
  ⟨a.events.or b.events, a.other || b.other, a.errors.or b.errors⟩

/-! ## The controller -/

/-- How the data of a command is moved. -/
inductive Transfer
  | none
  | pio
  | dma
  deriving DecidableEq

/-- The controller: the last command it was given, and what it has raised for it. -/
structure Controller where
  busy : Bool
  transfer : Transfer
  blocks : Nat
  cmdComplete : Bool
  /-- the number of buffer-ready events -/
  ready : Nat
  /-- the number of blocks accessed at the data port -/
  accessed : Nat
  transferComplete : Bool
  /-- an error has stopped the command -/
  failed : Bool

namespace Controller

/-- Nothing to do. -/
def reset : Controller := ⟨false, .none, 0, true, 0, 0, false, false⟩

/-- The command ends with a transfer-complete event. -/
def ends (c : Controller) : Bool := c.busy || c.transfer ≠ .none

def finished (c : Controller) : Bool := c.cmdComplete && (!c.ends || c.transferComplete)

def running (c : Controller) : Bool := !c.failed && !c.finished

/-- The events that the controller raises next. Buffer-ready is raised for one block after the
other, transfer-complete when the port has been accessed for all of them. -/
def raises (c : Controller) : Events :=
  if c.running then
    { cmdComplete := !c.cmdComplete
      bufferReady := c.transfer = .pio && c.ready < c.blocks && c.ready ≤ c.accessed
      transferComplete := c.ends && !c.transferComplete &&
        (c.transfer ≠ .pio || c.blocks ≤ c.accessed) }
  else {}

/-- The events that have been raised and stand for something not yet done. -/
def raised (c : Controller) : Events :=
  ⟨c.cmdComplete, c.accessed < c.ready, c.transferComplete⟩

def raise (c : Controller) : Event → Controller
  | .cmdComplete => { c with cmdComplete := true }
  | .bufferReady => { c with ready := c.ready + 1 }
  | .transferComplete => { c with transferComplete := true }

/-- The controller when the command has been written to it. -/
def command (r : Request) (dmaInProgress : TransferDirection) : Controller where
  busy := r.busy
  transfer :=
    if ¬ r.hasData then .none
    else if dmaInProgress = .undefined then .pio
    else .dma
  blocks := r.blockCount
  cmdComplete := false
  ready := 0
  accessed := 0
  transferComplete := false
  failed := false

end Controller

/-! ## The parties -/

/-- Where a call of `SlotIssueRequest` for a phase is. -/
inductive Call
  /-- in `SendCommand`, with the result of `CommandShouldUseDma` -/
  | sendCommand (phase : Nat) (useDma : Bool)
  /-- `RequiredEvents` is set, the command register is not written -/
  | writeCommand (phase : Nat)
  /-- in `StartPioTransfer`, before the data port is accessed -/
  | accessPort (phase : Nat)
  | setStatus (phase : Nat)
  | setRequired (phase : Nat)
  /-- in `StartDmaTransfer` -/
  | completeDma (phase : Nat)
  deriving DecidableEq

/-- Where `SlotRequestDpc` is. -/
inductive Dpc
  /-- all events have come; it reads `Status` -/
  | readStatus (phase : Nat)
  | complete (phase : Nat) (status : Status)
  /-- there are errors; it clears `RequiredEvents` -/
  | clear (phase : Nat) (status : Status)
  | fail (phase : Nat) (status : Status)

/-- What Sdport waits for. -/
inductive Port
  | idle
  | outstanding (phase : Nat)
  /-- the next phase is a transfer -/
  | transferDue
  /-- the request has failed, the host is to be reset -/
  | failed
  deriving DecidableEq

/-- A completion of a phase. -/
structure Completion where
  phase : Nat
  status : Status

/-- The slot with the request that Sdport has, Sdport and the controller. -/
structure Slot where
  port : Port
  issued : Nat
  request : Request
  dmaInProgress : TransferDirection
  calls : List Call
  controller : Controller
  /-- the interrupt status registers -/
  interruptStatus : Interrupts
  /-- what `SlotInterrupt` has read and not yet acknowledged -/
  isr : Option Interrupts
  /-- what Sdport has collected for the DPC -/
  pending : Option Interrupts
  dpc : Option Dpc
  completions : List Completion
  /-- a block was accessed before its buffer-ready event -/
  unready : Bool
  /-- a phase was completed with success before its events -/
  premature : Bool

namespace Slot

/-! ### Completing a phase -/

/-- What Sdport does after a completion. -/
def portAfter (r : Request) (status : Status) : Port :=
  if status = .moreProcessingRequired then .transferDue
  else if status ≠ .success then .failed
  else if r.type = .commandWithTransfer then .transferDue
  else .idle

/-- The phase has what it may be completed after with the given status. -/
def PhaseDone (r : Request) (c : Controller) (status : Status) : Prop :=
  if r.type = .startTransfer then
    if c.transfer = .pio ∧ c.accessed < c.blocks then
      status = .moreProcessingRequired ∧ c.accessed < c.ready
    else status = .success ∧ c.transferComplete = true
  else
    status = .success ∧ c.cmdComplete = true ∧ (c.transfer = .pio → 0 < c.ready) ∧
      (r.busy ∨ c.transfer = .dma → c.transferComplete = true)

instance (r : Request) (c : Controller) (status : Status) : Decidable (PhaseDone r c status) :=
  inferInstanceAs (Decidable (ite _ (ite _ _ _) _))

/-- The completion is a success that comes before its time, or for another phase. -/
def early (s : Slot) (p : Nat) (status : Status) : Bool :=
  status.succeeds && !(s.port = .outstanding p ∧ PhaseDone s.request s.controller status)

/-- `SdPortCompleteRequest`, or the return of `SlotIssueRequest` with a status that fails. -/
def complete (s : Slot) (p : Nat) (status : Status) : Slot :=
  { s with
    completions := s.completions ++ [⟨p, status⟩]
    premature := s.premature || s.early p status
    port := if s.port = .outstanding p then portAfter s.request status else s.port }

/-! ### `SlotIssueRequest` -/

/-- Sdport issues a command. -/
def issue (s : Slot) (r : Request) (useDma : Bool) : Slot :=
  { s with
    port := .outstanding s.issued
    issued := s.issued + 1
    request := r
    calls := .sendCommand s.issued useDma :: s.calls }

/-- Sdport issues the transfer; `SlotIssueRequest` looks at `m_dmaInProgress`. -/
def startTransfer (s : Slot) : Slot :=
  { s with
    port := .outstanding s.issued
    issued := s.issued + 1
    request := { s.request with type := .startTransfer }
    calls :=
      (if s.dmaInProgress ≠ .undefined then .completeDma s.issued else .accessPort s.issued) ::
        s.calls }

/-- How `SendCommand` moves the data, or `none` for `STATUS_NOT_SUPPORTED`. -/
def transferOf (r : Request) (useDma : Bool) : Option Transfer :=
  if r.responseType = .unknown ∨ r.commandType = .unknown then none
  else
    match r.transferType with
    | .none => some .none
    | .unknown => none
    | .singleBlock | .multiBlock | .multiBlockNoStop =>
      if r.transferMethod ≠ .pio ∨ r.transferDirection = .undefined then none
      else if useDma then some .dma
      else some .pio

/-- `SendCommand` up to `RequiredEvents` -/
def sendCommand (s : Slot) (p : Nat) (useDma : Bool) : Slot :=
  let s := { s with dmaInProgress := .undefined }
  let done := advance s.calls (.sendCommand p useDma)
  match transferOf s.request useDma with
  | none => { s.complete p .notSupported with calls := done [] }
  | some transfer =>
    { s with
      dmaInProgress := if transfer = .dma then s.request.transferDirection else .undefined
      request :=
        { s.request with
          requiredEvents :=
            { cmdComplete := true
              bufferReady := transfer = .pio
              transferComplete := s.request.busy ∨ transfer = .dma } }
      calls := done [.writeCommand p] }

/-- `SendCommand` writes the command register. -/
def writeCommand (s : Slot) (p : Nat) : Slot :=
  { s with
    controller := .command s.request s.dmaInProgress
    calls := advance s.calls (.writeCommand p) [] }

/-- `StartPioTransfer` moves one block. -/
def accessPort (s : Slot) (p : Nat) : Slot :=
  { s with
    unready := s.unready || s.controller.ready ≤ s.controller.accessed
    controller := { s.controller with accessed := s.controller.accessed + 1 }
    calls := advance s.calls (.accessPort p) [.setStatus p] }

/-- `BlockCount -= 1`, and the `Status` that goes with it -/
def countBlock (r : Request) : Request :=
  -- `BlockCount` is a `USHORT`
  let blockCount := if r.blockCount = 0 then 65535 else r.blockCount - 1
  { r with
    blockCount := blockCount
    status := if blockCount = 0 then .success else .moreProcessingRequired }

/-- `StartPioTransfer` counts the block and sets `Status`. -/
def setStatus (s : Slot) (p : Nat) : Slot :=
  { s with
    request := countBlock s.request
    calls := advance s.calls (.setStatus p) [.setRequired p] }

/-- `InterlockedOrNoFence` at the end of `StartPioTransfer`. -/
def setRequired (s : Slot) (p : Nat) : Slot :=
  { s with
    request :=
      { s.request with
        requiredEvents :=
          s.request.requiredEvents.or
            (if s.request.blockCount = 0 then { transferComplete := true }
              else { bufferReady := true }) }
    calls := advance s.calls (.setRequired p) [] }

/-- `StartDmaTransfer` -/
def completeDma (s : Slot) (p : Nat) : Slot :=
  { { s with
        dmaInProgress := .undefined
        request := { s.request with status := .success } }.complete p .success with
    calls := advance s.calls (.completeDma p) [] }

/-- The next step of a call. -/
def runCall (s : Slot) : Call → Slot
  | .sendCommand p useDma => s.sendCommand p useDma
  | .writeCommand p => s.writeCommand p
  | .accessPort p => s.accessPort p
  | .setStatus p => s.setStatus p
  | .setRequired p => s.setRequired p
  | .completeDma p => s.completeDma p

/-! ### The controller raises interrupts -/

def raise (s : Slot) (e : Event) : Slot :=
  { s with
    controller := s.controller.raise e
    interruptStatus :=
      { s.interruptStatus with events := s.interruptStatus.events.or (.single e) } }

def raiseErrors (s : Slot) (errors : SdRegErrorInterrupts) : Slot :=
  { s with
    controller := { s.controller with failed := true }
    interruptStatus := { s.interruptStatus with errors := s.interruptStatus.errors.or errors } }

/-- An interrupt that completes nothing. -/
def raiseOther (s : Slot) : Slot :=
  { s with interruptStatus := { s.interruptStatus with other := true } }

/-! ### `SlotInterrupt` and `SlotRequestDpc` -/

/-- `SlotInterrupt` reads the status registers. -/
def readInterrupts (s : Slot) : Slot :=
  { s with isr := some s.interruptStatus }

/-- The registers without what is acknowledged; acknowledging the error interrupt clears the
error register. -/
def acknowledge (interrupts acknowledged : Interrupts) : Interrupts where
  events := interrupts.events.clear acknowledged.events
  other := interrupts.other && !acknowledged.other
  errors := if acknowledged.errors = {} then interrupts.errors else {}

/-- `AcknowledgeInterrupts`, and Sdport queues its DPC. -/
def acknowledgeInterrupts (s : Slot) : Slot :=
  match s.isr with
  | some interrupts =>
    { s with
      interruptStatus := acknowledge s.interruptStatus interrupts
      isr := none
      pending := some ((s.pending.getD {}).or interrupts) }
  | none => s

/-- `SlotRequestDpc` for the outstanding phase: `RequiredEvents`, and what it will do. -/
def slotRequestDpc (originalRequired : Events) (p : Nat) (interrupts : Interrupts) :
    Events × Option Dpc :=
  let required := originalRequired.clear interrupts.events
  (required,
    if interrupts.errors ≠ {} then some (.clear p (errorInterruptToStatus interrupts.errors))
    else if required = {} then some (.readStatus p)
    else none)

/-- Sdport calls `SlotRequestDpc`. -/
def callDpc (s : Slot) : Slot :=
  match s.port, s.pending with
  | .outstanding p, some interrupts =>
    let (required, dpc) := slotRequestDpc s.request.requiredEvents p interrupts
    { s with
      request := { s.request with requiredEvents := required }
      pending := none
      dpc := dpc }
  | _, _ => s

/-- `SlotRequestDpc` writes `Status`, unless more processing is required, and completes the
phase. -/
def completeDone (s : Slot) (p : Nat) (status : Status) : Slot :=
  if status = .moreProcessingRequired then s.complete p status
  else { s with request := { s.request with status := status } }.complete p status

/-- The next step of `SlotRequestDpc`. -/
def runDpc (s : Slot) : Slot :=
  match s.dpc with
  | some (.readStatus p) =>
    let status := if s.request.status = .moreProcessingRequired then s.request.status else .success
    { s with dpc := some (.complete p status) }
  | some (.complete p status) =>
    { s.completeDone p status with dpc := none }
  | some (.clear p status) =>
    { s with
      request := { s.request with requiredEvents := {} }
      dpc := some (.fail p status) }
  | some (.fail p status) => { s.complete p status with dpc := none }
  | none => s

/-- After a failure Sdport resets the host and forgets what it has collected. -/
def recover (s : Slot) : Slot :=
  { s with
    port := .idle
    controller := .reset
    interruptStatus := {}
    pending := none }

/-! ## The machine -/

/-- What is on its way to the DPC. -/
def coming (s : Slot) : Events :=
  s.interruptStatus.events.or (s.pending.getD {}).events

def ErrorsComing (s : Slot) : Prop :=
  s.interruptStatus.errors ≠ {} ∨ (s.pending.getD {}).errors ≠ {}

end Slot

/-- The atomic steps of all parties. -/
inductive SlotAction
  | issue (r : Request) (useDma : Bool)
  | startTransfer
  | runCall (call : Call)
  | raise (e : Event)
  | raiseErrors (errors : SdRegErrorInterrupts)
  | raiseOther
  | readInterrupts
  | acknowledgeInterrupts
  | callDpc
  | runDpc
  | recover

def Port.isOutstanding : Port → Bool
  | .outstanding _ => true
  | _ => false

namespace Slot

/-- When a step can happen. Sdport has one phase outstanding at a time, and one DPC. -/
def enabled (s : Slot) : SlotAction → Prop
  | .issue r _ => s.port = .idle ∧ r.WellFormed
  | .startTransfer => s.port = .transferDue
  | .runCall call => call ∈ s.calls
  | .raise e => s.controller.raises.has e = true
  | .raiseErrors errors => s.controller.running = true ∧ errors ≠ {}
  | .raiseOther => True
  | .readInterrupts => s.isr = none ∧ s.interruptStatus ≠ {}
  | .acknowledgeInterrupts => s.isr.isSome = true
  | .callDpc => s.port.isOutstanding = true ∧ s.pending.isSome = true ∧ s.dpc = none
  | .runDpc => s.dpc.isSome = true
  | .recover => s.port = .failed ∧ s.isr = none ∧ s.dpc = none

instance : ∀ (s : Slot) (a : SlotAction), Decidable (s.enabled a)
  | _, .issue .. | _, .raiseErrors _ | _, .readInterrupts =>
    inferInstanceAs (Decidable (_ ∧ _))
  | _, .startTransfer | _, .raise _ | _, .acknowledgeInterrupts | _, .runDpc =>
    inferInstanceAs (Decidable (_ = _))
  | _, .runCall _ => inferInstanceAs (Decidable (_ ∈ _))
  | _, .raiseOther => inferInstanceAs (Decidable True)
  | _, .callDpc | _, .recover => inferInstanceAs (Decidable (_ ∧ _ ∧ _))

/-- What a step does. -/
def effect (s : Slot) : SlotAction → Slot
  | .issue r useDma => s.issue r useDma
  | .startTransfer => s.startTransfer
  | .runCall call => s.runCall call
  | .raise e => s.raise e
  | .raiseErrors errors => s.raiseErrors errors
  | .raiseOther => s.raiseOther
  | .readInterrupts => s.readInterrupts
  | .acknowledgeInterrupts => s.acknowledgeInterrupts
  | .callDpc => s.callDpc
  | .runDpc => s.runDpc
  | .recover => s.recover

/-- A slot that has been started, with no request yet. -/
def start : Slot where
  port := .idle
  issued := 0
  request :=
    { type := .commandNoTransfer
      responseType := .none
      commandType := .undefined
      transferType := .none
      transferDirection := .undefined
      transferMethod := .pio
      blockCount := 0
      requiredEvents := {}
      status := .success }
  dmaInProgress := .undefined
  calls := []
  controller := .reset
  interruptStatus := {}
  isr := none
  pending := none
  dpc := none
  completions := []
  unready := false
  premature := false

end Slot

/-- All interleavings. -/
def slotMachine : Machine Slot SlotAction :=
  Machine.guarded (· = Slot.start) Slot.enabled Slot.effect

/-! ## The property and the condition -/

/-- Phases are completed once and not before their events, blocks are accessed when they are
ready, and what a phase waits for is on its way or still to be raised. -/
structure EventsSound (s : Slot) : Prop where
  once : (s.completions.map Completion.phase).Nodup
  premature : s.premature = false
  unready : s.unready = false
  notLost : s.port.isOutstanding = true → s.calls = [] → s.dpc = none → s.ErrorsComing ∨
    s.request.requiredEvents ≠ {} ∧
      ∀ e, s.request.requiredEvents.has e = true →
        s.coming.has e = true ∨ s.controller.raises.has e = true

def Call.writesCommand : Call → Bool
  | .writeCommand _ => true
  | _ => false

/-- `SlotRequestDpc` is called when `RequiredEvents` of the phase has been set, and commands with
a busy response move no data by PIO. -/
def Prepared (s : Slot) : SlotAction → Prop
  | .issue r useDma => r.busy → r.hasData → useDma = true
  | .callDpc => ∀ call ∈ s.calls, call.writesCommand = true
  | _ => True

instance : ∀ (s : Slot) (a : SlotAction), Decidable (Prepared s a)
  | _, .issue .. => inferInstanceAs (Decidable (_ → _ → _))
  | s, .callDpc => inferInstanceAs (Decidable (∀ call ∈ s.calls, _))
  | _, .startTransfer | _, .runCall _ | _, .raise _ | _, .raiseErrors _ | _, .raiseOther
  | _, .readInterrupts | _, .acknowledgeInterrupts | _, .runDpc | _, .recover =>
    inferInstanceAs (Decidable True)

end RpiDrivers.Brcme88c
