import RpiDrivers.Spi0.Sequence
import RpiDrivers.Lib.Machine

/-!
# The state of the SPI0 bus (`controller.cpp`, `device.cpp`)

The SPB framework delivers one request at a time, and between a lock and its unlock only
requests of the target that holds the lock. `OnRequest` makes the request current and wakes
the transfer thread; the thread sets the `TA` bit of `CS` for a request that is single or the
first of a lock, polls the transfers and completes the request. The bit is cleared again at
the end of a request outside a lock, and by the unlock.

- `Bus`: the device context, the `CS` register, the transfer thread and what the framework
  has delivered; `asserted` collects the assertions of the code.
- `BusSound`: no assertion has failed, `TA` is clear when there is neither a lock nor a
  request, and it stays set from the first request of a lock that is done to the unlock.
- `busSound_of_accepted`: **the bus is sound in every run in which the first request of a
  lock is not a full-duplex request that `OnSequenceRequest` rejects**.
- `chipSelect_dropped`: after such a rejection the next request of the lock is polled with
  `TA` clear.
- `controllerCompleteTransfer_toPbcDevice`: for a sequence, the completion is the one of
  `Spi0.Sequence`.
-/

namespace RpiDrivers.Spi0

open RpiDrivers.Lib

/-! ## Registers -/

def bcmSpiRegCsCspol0 : BitVec 32 := 0x00200000
def bcmSpiRegCsTa : BitVec 32 := 0x00000080
def bcmSpiRegCsCspol : BitVec 32 := 0x00000040
def bcmSpiRegCsClearrx : BitVec 32 := 0x00000020
def bcmSpiRegCsCleartx : BitVec 32 := 0x00000010
def bcmSpiRegCsCpol : BitVec 32 := 0x00000008
def bcmSpiRegCsCpha : BitVec 32 := 0x00000004
def bcmSpiRegCsCs : BitVec 32 := 0x00000003
def bcmSpiRegCsPollDefault : BitVec 32 := 0
def bcmApbClk : UInt32 := 250000000
def bcmSpiRegClkCdiv : UInt32 := 0x0000ffff
def bcmSpiRegClkCdivMax : UInt32 := 0x0000fffe
def bcmSpiRegClkCdivMin : UInt32 := 0x00000002
/-- `BCM_SPI_REG_CLK_DEFAULT`, in Hz -/
def bcmSpiRegClkDefault : UInt32 := 100000
def bcmSpiClkMaxHz : UInt32 := bcmApbClk / bcmSpiRegClkCdivMin
def bcmSpiClkMinHz : UInt32 := bcmApbClk / bcmSpiRegClkCdivMax

/-- `SPI_DEVICEPOLARITY_BIT` -/
def spiDevicepolarityBit : BitVec 16 := 0x02
/-- `SPI_WIREMODE_BIT` -/
def spiWiremodeBit : BitVec 16 := 0x01

/-- The transfer-active bit is set. -/
def transferActive (cs : BitVec 32) : Bool := cs &&& bcmSpiRegCsTa != 0

/-! ## Targets and requests -/

/-- `PBC_TARGET_SETTINGS`, of a target that `OnTargetConnect` has accepted. -/
structure TargetSettings where
  connectionSpeed : UInt32
  phase : Bool
  polarity : Bool
  deviceSelection : Nat
  typeSpecificFlags : BitVec 16
  supported : deviceSelection < 3 ∧ typeSpecificFlags &&& spiWiremodeBit = 0

/-- `SPB_REQUEST_TYPE` -/
inductive SpbRequestType
  | read
  | write
  | sequence
  | other
  deriving DecidableEq

/-- A request as the framework delivers it: a read or a write is one transfer, a sequence has at
least one. -/
structure SpbRequest where
  type : SpbRequestType
  transfers : List Descriptor
  single : type = .read ∨ type = .write → transfers.length = 1
  nonempty : type = .sequence → transfers ≠ []

/-- `PBC_REQUEST`, with the transfers that `SpbRequestGetTransferParameters` looks up. -/
structure Request where
  type : SpbRequestType
  transfers : List Descriptor
  pbc : PbcRequest

/-- The position of a transfer in its sequence. -/
def sequencePosition (transferCount transferIndex : Nat) : SequencePosition :=
  if transferCount = 1 then .single
  else if transferIndex = 0 then .first
  else if transferIndex = transferCount - 1 then .last
  else .continue

/-- `PbcRequestSetNthTransferInfo`, given the transfer's descriptor. -/
def Request.setNthTransferInfo (r : Request) (transferIndex : Nat) (d : Descriptor) : Request :=
  { r with pbc := { r.pbc with
      currentTransferInformation := 0
      currentTransferDirection := d.direction
      currentTransferDelayInUs := d.delayInUs
      currentTransferReadLength :=
        if d.direction = .fromDevice then d.transferLength
        else if r.type ≠ .other then 0 else r.pbc.currentTransferReadLength
      currentTransferWriteLength :=
        if d.direction = .toDevice then d.transferLength
        else if r.type ≠ .other then 0 else r.pbc.currentTransferWriteLength
      pCurrentTransferReadMdlChain :=
        if d.direction = .fromDevice then d.mdl else r.pbc.pCurrentTransferReadMdlChain
      pCurrentTransferWriteMdlChain :=
        if d.direction = .toDevice then d.mdl else r.pbc.pCurrentTransferWriteMdlChain
      currentTransferSequencePosition :=
        if r.type = .sequence then sequencePosition r.pbc.transferCount transferIndex
        else r.pbc.currentTransferSequencePosition } }

/-- The request context as the handlers initialize it. -/
def Request.prepareContext (q : SpbRequest) (position : SequencePosition) (transferCount : Nat) :
    Request where
  type := q.type
  transfers := q.transfers
  pbc := { PbcRequest.prepare transferCount with currentTransferSequencePosition := position }

/-- The part of `OnSequenceRequest` for a full-duplex request of two transfers: the second one has
to be a read, the first one a write, both without a delay. -/
def Request.fullDuplex (r : Request) (first second : Descriptor) : Except NtStatus Request :=
  let r := r.setNthTransferInfo 1 second
  if r.pbc.currentTransferDirection ≠ .fromDevice then .error .invalidParameter
  else if 0 < r.pbc.currentTransferDelayInUs then .error .invalidParameter
  else
    let r := r.setNthTransferInfo 0 first
    if r.pbc.currentTransferDirection ≠ .toDevice then .error .invalidParameter
    else if 0 < r.pbc.currentTransferDelayInUs then .error .invalidParameter
    else .ok { r with pbc := { r.pbc with currentTransferDirection := .none } }

/-- The request with the information of the transfer that has been run. -/
def Request.account (r : Request) : Request :=
  { r with pbc := { r.pbc with
      totalInformation := r.pbc.totalInformation + r.pbc.currentTransferInformation
      currentTransferInformation := 0
      currentTransferIndex := r.pbc.currentTransferIndex + 1 } }

/-! ## The state -/

/-- Where `TransferPollModeThread` is. -/
inductive Thread
  /-- in `KeWaitForSingleObject` -/
  | waiting
  /-- about to call `OnRequestPollMode` -/
  | woken
  /-- about to run the next transfer of the request -/
  | polling (r : Request)
  /-- about to call `ControllerCompleteTransfer` with the status of the transfer -/
  | polled (r : Request) (status : NtStatus)

/-- The device context and the hardware, the transfer thread, and the framework's part. -/
@[ext] structure Bus where
  spiCsCopy : BitVec 32
  /-- the `CS` register as it was written last -/
  cs : BitVec 32
  /-- the `CLK` register -/
  clk : UInt32
  currentConnectionSpeed : UInt32
  locked : Bool
  pCurrentTarget : Option Nat
  /-- `pCurrentRequest` of each target -/
  pCurrentRequest : Nat → Option Request
  transferThreadWakeEvt : Bool
  thread : Thread
  /-- the target that has locked the controller -/
  lockHolder : Option Nat
  /-- the number of requests of this lock that are completed -/
  completed : Nat
  /-- a request has been delivered and is not completed -/
  outstanding : Bool
  /-- every assertion has held, and no null pointer was followed -/
  asserted : Bool

namespace Bus

variable (s : Bus)

/-- `NT_ASSERT` -/
def ntAssert (p : Bool) : Bus := { s with asserted := s.asserted && p }

/-- The position the framework gives a request that it delivers now. -/
def position : SequencePosition :=
  match s.lockHolder with
  | none => .single
  | some _ => if s.completed = 0 then .first else .continue

/-- `SpbRequestComplete` -/
def spbRequestComplete : Bus :=
  { s with
    outstanding := false
    completed := if s.lockHolder.isSome then s.completed + 1 else s.completed }

/-! ## The controller -/

/-- `ControllerFlushFifos`: waiting for the Tx FIFO changes no state. -/
def controllerFlushFifos : Bus :=
  { s.ntAssert (transferActive s.cs) with cs := s.spiCsCopy ||| bcmSpiRegCsClearrx }

/-- `ControllerActivateTransfer` -/
def controllerActivateTransfer : Bus :=
  let spiCsCopy := s.spiCsCopy ||| bcmSpiRegCsTa
  { s.ntAssert (!transferActive s.spiCsCopy) with spiCsCopy := spiCsCopy, cs := spiCsCopy }

/-- `ControllerDeactivateTransfer` -/
def controllerDeactivateTransfer : Bus :=
  let spiCsCopy := s.spiCsCopy &&& ~~~bcmSpiRegCsTa
  { s with spiCsCopy := spiCsCopy, cs := spiCsCopy }

/-- `ControllerUnlockTransfer` -/
def controllerUnlockTransfer : Bus :=
  if transferActive s.spiCsCopy then s.controllerFlushFifos.controllerDeactivateTransfer else s

/-- `ControllerConfigClock` -/
def controllerConfigClock (clockHz : UInt32) : Bus :=
  let cdiv :=
    if clockHz ≤ bcmSpiClkMinHz then bcmSpiRegClkCdivMax
    else if bcmSpiClkMaxHz ≤ clockHz then bcmSpiRegClkCdivMin
    else bcmApbClk / clockHz &&& ~~~1
  { s with clk := cdiv &&& bcmSpiRegClkCdiv }

end Bus

/-- The bits of `CS` that `ControllerConfigForTargetAndActivate` sets up for a target. -/
def TargetSettings.configure (p : TargetSettings) (spiCsCopy : BitVec 32) : BitVec 32 :=
  let spiCsCopy := spiCsCopy &&& ~~~(bcmSpiRegCsCs ||| bcmSpiRegCsCpha ||| bcmSpiRegCsCpol)
  let spiCsCopy := spiCsCopy ||| (BitVec.ofNat 32 p.deviceSelection &&& bcmSpiRegCsCs)
  let spiCsCopy := if p.polarity then spiCsCopy ||| bcmSpiRegCsCpol else spiCsCopy
  let spiCsCopy := if p.phase then spiCsCopy ||| bcmSpiRegCsCpha else spiCsCopy
  let csPolarityBit := bcmSpiRegCsCspol0 <<< p.deviceSelection
  if p.typeSpecificFlags &&& spiDevicepolarityBit ≠ 0 then
    spiCsCopy ||| (csPolarityBit ||| bcmSpiRegCsCspol)
  else spiCsCopy &&& ~~~(csPolarityBit ||| bcmSpiRegCsCspol)

namespace Bus

variable (s : Bus)

/-- `ControllerConfigForTargetAndActivate` for the current target, which has the settings `p`. -/
def controllerConfigForTargetAndActivate (p : TargetSettings) : Bus :=
  let s := if s.currentConnectionSpeed ≠ p.connectionSpeed then
      { s with currentConnectionSpeed := p.connectionSpeed }.controllerConfigClock p.connectionSpeed
    else s
  let s := s.ntAssert (p.typeSpecificFlags &&& spiWiremodeBit == 0)
  let spiCsCopy := p.configure s.spiCsCopy
  { s with
    spiCsCopy := spiCsCopy
    cs := spiCsCopy ||| bcmSpiRegCsCleartx ||| bcmSpiRegCsClearrx }.controllerActivateTransfer

/-! ## The callbacks of the framework -/

/-- `OnControllerLock` -/
def onControllerLock (t : Nat) : Bus :=
  { s.ntAssert (s.pCurrentTarget.isNone && !s.locked) with
    pCurrentTarget := some t
    locked := true }

/-- `OnControllerUnlock` -/
def onControllerUnlock (t : Nat) : Bus :=
  let s := s.controllerUnlockTransfer
  { s.ntAssert (s.pCurrentTarget == some t && s.locked) with
    pCurrentTarget := none
    locked := false }

/-- `OnRequest` -/
def onRequest (t : Nat) (r : Request) : Bus :=
  let s :=
    if s.locked then s.ntAssert (s.pCurrentTarget == some t)
    else { s.ntAssert s.pCurrentTarget.isNone with pCurrentTarget := some t }
  { s.ntAssert (s.pCurrentRequest t).isNone with
    pCurrentRequest := Function.update s.pCurrentRequest t (some r)
    transferThreadWakeEvt := true }

/-- `OnNonSequenceRequest` -/
def onNonSequenceRequest (t : Nat) (q : SpbRequest) : Bus :=
  s.onRequest t (.prepareContext q s.position 1)

/-- `OnSequenceRequest`: a request that is rejected is completed at once. -/
def onSequenceRequest (t : Nat) (q : SpbRequest) : Bus :=
  match q.type, q.transfers with
  | .other, [first, second] =>
    let s := s.ntAssert (decide (if s.locked then s.position = .first ∨ s.position = .continue
      else s.position = .single))
    match (Request.prepareContext q s.position 1).fullDuplex first second with
    | .ok r => s.onRequest t r
    | .error _ => s.spbRequestComplete
  | .other, _ => s.spbRequestComplete
  | _, [] => s.ntAssert false
  | _, first :: _ =>
    let s := s.ntAssert (s.position = .single && q.type = .sequence)
    s.onRequest t ((Request.prepareContext q s.position q.transfers.length).setNthTransferInfo 0 first)

/-- The framework delivers a request. -/
def onIo (t : Nat) (q : SpbRequest) : Bus :=
  let s := { s with outstanding := true }
  match q.type with
  | .read | .write => s.onNonSequenceRequest t q
  | .sequence | .other => s.onSequenceRequest t q

/-! ## The transfer thread -/

/-- A null pointer is followed. -/
def crash : Bus := { s.ntAssert false with thread := .waiting }

/-- `OnRequestPollMode` up to its first transfer. -/
def onRequestPollMode (settings : Nat → TargetSettings) : Bus :=
  match s.pCurrentTarget with
  | none => s.crash
  | some t =>
    match s.pCurrentRequest t with
    | none => s.crash
    | some r =>
      let s :=
        if r.pbc.currentTransferSequencePosition = .single ∨
            r.pbc.currentTransferSequencePosition = .first then
          s.controllerConfigForTargetAndActivate (settings t)
        else s
      { s with thread := .polling r }

/-- The next transfer: set up, delayed, polled, and flushed unless it ended at `goto exit`.
`none` when the rounds given do not suffice. -/
def runTransfer (r : Request) (delayed : Bool) (polls : List Poll) : Option Bus :=
  let transfer (r : Request) : Option Bus :=
    (controllerDoOneTransferPollMode r.pbc delayed polls).map fun (status, pbc, _) =>
      let s := if status = .success ∨ status = .cancelled then s.controllerFlushFifos else s
      { s with thread := .polled { r with pbc := pbc } status }
  if r.type = .other then transfer r
  else
    match r.transfers[r.pbc.currentTransferIndex]? with
    | none => some s.crash
    | some d => transfer (r.setNthTransferInfo r.pbc.currentTransferIndex d)

/-- `ControllerCompleteTransfer` and what its caller does next. -/
def controllerCompleteTransfer (r : Request) (transferStatus : NtStatus) : Bus :=
  let r := r.account
  if r.pbc.currentTransferIndex < r.pbc.transferCount ∧ transferStatus ≠ .cancelled then
    { s.ntAssert (r.type ≠ .other) with thread := .polling r }
  else
    let s :=
      if !s.locked && decide (r.pbc.currentTransferSequencePosition = .single ∨
          r.pbc.currentTransferSequencePosition = .last ∨ transferStatus = .cancelled) then
        s.controllerDeactivateTransfer
      else s
    match s.pCurrentTarget with
    | none => s.crash
    | some t =>
      let s := { s with pCurrentRequest := Function.update s.pCurrentRequest t none }
      let s :=
        if !s.locked && decide (r.type = .sequence ∨ r.type = .other ∨
            r.pbc.currentTransferSequencePosition = .single) then
          { s with pCurrentTarget := none }
        else s
      { s.spbRequestComplete with thread := .waiting }

end Bus

/-! ## The machine -/

inductive BusAction
  | lock (t : Nat)
  | unlock
  | request (t : Nat) (q : SpbRequest)
  /-- the thread's wait ends -/
  | wake
  /-- `OnRequestPollMode` begins -/
  | start
  /-- a transfer is run; what it sees is given as for `TransferRun` -/
  | transfer (delayed : Bool) (polls : List Poll)
  | complete

/-- One step of the framework or of the transfer thread. The framework delivers nothing before
the request it has delivered last is completed; a sequence cannot be sent in a lock. -/
def Bus.step (settings : Nat → TargetSettings) (s : Bus) : BusAction → Option Bus
  | .lock t =>
    if s.outstanding = false ∧ s.lockHolder = none then
      some ({ s with lockHolder := some t, completed := 0 }.onControllerLock t)
    else none
  | .unlock =>
    match s.lockHolder with
    | none => none
    | some t =>
      if s.outstanding = false then some ({ s with lockHolder := none }.onControllerUnlock t)
      else none
  | .request t q =>
    if s.outstanding = false ∧
        (s.lockHolder = none ∨ s.lockHolder = some t ∧ q.type ≠ .sequence) then
      some (s.onIo t q)
    else none
  | .wake =>
    match s.thread with
    | .waiting =>
      if s.transferThreadWakeEvt then
        some { s with thread := .woken, transferThreadWakeEvt := false }
      else none
    | _ => none
  | .start =>
    match s.thread with
    | .woken => some (s.onRequestPollMode settings)
    | _ => none
  | .transfer delayed polls =>
    match s.thread with
    | .polling r => s.runTransfer r delayed polls
    | _ => none
  | .complete =>
    match s.thread with
    | .polled r status => some (s.controllerCompleteTransfer r status)
    | _ => none

/-- `ControllerInitialize` -/
def Bus.controllerInitialize (s : Bus) : Bus :=
  { s with
    spiCsCopy := bcmSpiRegCsPollDefault
    cs := bcmSpiRegCsPollDefault
    currentConnectionSpeed := bcmSpiRegClkDefault }.controllerConfigClock bcmSpiRegClkDefault

/-- A device that has been initialized, with the thread in its first wait. -/
def Bus.Initial (s : Bus) : Prop :=
  ∃ s₀ : Bus, s = s₀.controllerInitialize ∧ s₀.locked = false ∧ s₀.pCurrentTarget = none ∧
    (∀ t, s₀.pCurrentRequest t = none) ∧ s₀.transferThreadWakeEvt = false ∧
    s₀.thread = .waiting ∧ s₀.lockHolder = none ∧ s₀.outstanding = false ∧ s₀.asserted = true

/-- The bus under the framework and the transfer thread. -/
def busMachine (settings : Nat → TargetSettings) : Machine Bus BusAction where
  init := Bus.Initial
  step := Bus.step settings

/-! ## The property and the condition -/

/-- A request of the lock has been completed. -/
def Bus.held (s : Bus) : Bool := s.lockHolder.isSome && decide (0 < s.completed)

/-- No assertion has failed (so `TA` was clear whenever it was set, and the current target and
request were as the handlers expect). Chip select is not asserted when there is neither a lock
nor a request, and it is from the first request of a lock that is done to the unlock. -/
structure BusSound (s : Bus) : Prop where
  asserted : s.asserted = true
  released : s.lockHolder = none → s.outstanding = false → transferActive s.cs = false
  held : s.held = true → transferActive s.cs = true

/-- A write and then a read, both without a delay. -/
def FullDuplexOk (transfers : List Descriptor) : Prop :=
  ∃ first second, transfers = [first, second] ∧ first.direction = .toDevice ∧
    first.delayInUs = 0 ∧ second.direction = .fromDevice ∧ second.delayInUs = 0

/-- The first request of a lock is not a full-duplex request that is rejected. -/
def RequestAccepted (s : Bus) : BusAction → Prop
  | .request _ q =>
    q.type = .other → s.lockHolder.isSome = true → s.completed = 0 → FullDuplexOk q.transfers
  | _ => True

/-! ## The transfer-active bit -/

theorem transferActive_eq (v : BitVec 32) : transferActive v = v[7] := by
  have h : bcmSpiRegCsTa = BitVec.twoPow 32 7 := by decide
  rw [transferActive, h, BitVec.and_twoPow, BitVec.getLsbD_eq_getElem (by decide)]
  cases v[7] <;> rfl

@[simp] theorem transferActive_activate (v : BitVec 32) :
    transferActive (v ||| bcmSpiRegCsTa) = true := by
  rw [transferActive_eq]
  simp [show bcmSpiRegCsTa[7] = true by decide]

@[simp] theorem transferActive_deactivate (v : BitVec 32) :
    transferActive (v &&& ~~~bcmSpiRegCsTa) = false := by
  rw [transferActive_eq]
  simp [show bcmSpiRegCsTa[7] = true by decide]

@[simp] theorem transferActive_clearrx (v : BitVec 32) :
    transferActive (v ||| bcmSpiRegCsClearrx) = transferActive v := by
  rw [transferActive_eq, transferActive_eq]
  simp [show bcmSpiRegCsClearrx[7] = false by decide]

/-- Setting `CS` up for a target leaves the bit alone. -/
@[simp] theorem transferActive_configure (p : TargetSettings) (v : BitVec 32) :
    transferActive (p.configure v) = transferActive v := by
  have hlow : ∀ i < 8, bcmSpiRegCsCspol0.getLsbD i = false := by decide
  have hshift : (bcmSpiRegCsCspol0 <<< p.deviceSelection)[7] = false := by
    rw [← BitVec.getLsbD_eq_getElem, BitVec.getLsbD_shiftLeft, hlow _ (by omega), Bool.and_false]
  have hcs : bcmSpiRegCsCs[7] = false := by decide
  have hcpha : bcmSpiRegCsCpha[7] = false := by decide
  have hcpol : bcmSpiRegCsCpol[7] = false := by decide
  have hcspol : bcmSpiRegCsCspol[7] = false := by decide
  simp only [transferActive_eq, TargetSettings.configure]
  cases p.polarity <;> cases p.phase <;> split <;>
    simp [hshift, hcs, hcpha, hcpol, hcspol]

/-! ## The invariant -/

/-- What holds of a request from its delivery to its completion. -/
structure Fits (s : Bus) (t : Nat) (r : Request) : Prop where
  holder : s.lockHolder = none ∨ s.lockHolder = some t
  index : r.pbc.currentTransferIndex < r.pbc.transferCount
  count : r.type ≠ .other → r.pbc.transferCount = r.transfers.length
  single : r.type ≠ .sequence → r.pbc.transferCount = 1
  sequence : r.type = .sequence → s.lockHolder = none
  position : r.type ≠ .sequence → r.pbc.currentTransferSequencePosition = s.position

/-- Only the framework's part of the state matters to it. -/
theorem Fits.congr {s s' : Bus} {t : Nat} {r : Request} (h : Fits s t r)
    (hholder : s'.lockHolder = s.lockHolder) (hposition : s'.position = s.position) :
    Fits s' t r :=
  ⟨hholder ▸ h.holder, h.index, h.count, h.single, fun htype => hholder.trans (h.sequence htype),
    fun htype => (h.position htype).trans hposition.symm⟩

/-- The position of a sequence's request is the one of its current transfer. -/
def AtPosition (r : Request) : Prop :=
  r.type = .sequence → r.pbc.currentTransferSequencePosition =
    sequencePosition r.pbc.transferCount r.pbc.currentTransferIndex

/-- How far the request that was delivered last has come. -/
inductive Stage (s : Bus) : Prop
  | idle (outstanding : s.outstanding = false) (thread : s.thread = .waiting)
      (wake : s.transferThreadWakeEvt = false) (target : s.pCurrentTarget = s.lockHolder)
      (request : ∀ t, s.pCurrentRequest t = none) (active : transferActive s.spiCsCopy = s.held)
  | delivered (t : Nat) (r : Request) (fits : Fits s t r) (outstanding : s.outstanding = true)
      (thread : s.thread = .waiting ∧ s.transferThreadWakeEvt = true ∨
        s.thread = .woken ∧ s.transferThreadWakeEvt = false)
      (target : s.pCurrentTarget = some t)
      (request : s.pCurrentRequest = Function.update (fun _ => none) t (some r))
      (first : r.pbc.currentTransferIndex = 0) (at_position : AtPosition r)
      (active : transferActive s.spiCsCopy = s.held)
  | running (t : Nat) (r : Request) (fits : Fits s t r) (outstanding : s.outstanding = true)
      (thread : s.thread = .polling r ∨ ∃ status, s.thread = .polled r status ∧ AtPosition r)
      (wake : s.transferThreadWakeEvt = false) (target : s.pCurrentTarget = some t)
      (request : ∀ t', t' ≠ t → s.pCurrentRequest t' = none)
      (active : transferActive s.spiCsCopy = true)

/-- The invariant of the bus. -/
structure BusInv (s : Bus) : Prop where
  asserted : s.asserted = true
  copy : transferActive s.cs = transferActive s.spiCsCopy
  locked : s.locked = s.lockHolder.isSome
  stage : Stage s

theorem BusInv.sound {s : Bus} (h : BusInv s) : BusSound s := by
  obtain ⟨hasserted, hcopy, -, hstage⟩ := h
  refine ⟨hasserted, ?_, ?_⟩
  · intro hholder hout
    cases hstage with
    | idle _ _ _ _ _ hactive => rw [hcopy, hactive, Bus.held, hholder]; rfl
    | delivered _ _ _ hout' => exact nomatch hout.symm.trans hout'
    | running _ _ _ hout' => exact nomatch hout.symm.trans hout'
  · intro hheld
    cases hstage with
    | idle _ _ _ _ _ hactive => rw [hcopy, hactive, hheld]
    | delivered _ _ _ _ _ _ _ _ _ hactive => rw [hcopy, hactive, hheld]
    | running _ _ _ _ _ _ _ _ hactive => rw [hcopy, hactive]

theorem busInv_initial {s : Bus} (h : s.Initial) : BusInv s := by
  obtain ⟨s₀, rfl, hlocked, htarget, hrequest, hwake, hthread, hholder, hout, hasserted⟩ := h
  refine ⟨hasserted, rfl, ?_, .idle hout hthread hwake (htarget.trans hholder.symm) hrequest ?_⟩
  · show s₀.locked = s₀.lockHolder.isSome
    rw [hlocked, hholder]
    rfl
  · show transferActive 0 = (s₀.lockHolder.isSome && _)
    rw [hholder]
    rfl

/-! ## Delivering a request -/

/-- Nothing is in progress: the state between two requests, and in a handler of the framework. -/
structure Quiet (s : Bus) : Prop where
  asserted : s.asserted = true
  copy : transferActive s.cs = transferActive s.spiCsCopy
  locked : s.locked = s.lockHolder.isSome
  thread : s.thread = .waiting
  wake : s.transferThreadWakeEvt = false
  target : s.pCurrentTarget = s.lockHolder
  request : ∀ t, s.pCurrentRequest t = none
  active : transferActive s.spiCsCopy = s.held

theorem BusInv.quiet {s : Bus} (h : BusInv s) (hout : s.outstanding = false) : Quiet s := by
  cases h.stage with
  | idle _ hthread hwake htarget hrequest hactive =>
    exact ⟨h.asserted, h.copy, h.locked, hthread, hwake, htarget, hrequest, hactive⟩
  | delivered _ _ _ hout' => exact nomatch hout.symm.trans hout'
  | running _ _ _ hout' => exact nomatch hout.symm.trans hout'

theorem Quiet.inv {s : Bus} (h : Quiet s) (hout : s.outstanding = false) : BusInv s :=
  ⟨h.asserted, h.copy, h.locked,
    .idle hout h.thread h.wake h.target h.request h.active⟩

theorem Quiet.setOutstanding {s : Bus} (h : Quiet s) (b : Bool) :
    Quiet { s with outstanding := b } :=
  ⟨h.asserted, h.copy, h.locked, h.thread, h.wake, h.target, h.request, h.active⟩

/-- An assertion that holds changes nothing. -/
theorem Bus.ntAssert_of (s : Bus) {p : Bool} (hp : p = true) : s.ntAssert p = s := by
  subst hp
  simp [Bus.ntAssert]

/-- `OnRequest`, called while nothing is in progress. -/
theorem Quiet.onRequest {s : Bus} (h : Quiet s) {t : Nat} {r : Request} (hfits : Fits s t r)
    (hout : s.outstanding = true) (hfirst : r.pbc.currentTransferIndex = 0)
    (hposition : AtPosition r) : BusInv (s.onRequest t r) := by
  have hrequest : s.pCurrentRequest = fun _ => none := funext h.request
  have heq : s.onRequest t r = { s with
      pCurrentTarget := some t
      pCurrentRequest := Function.update (fun _ => none) t (some r)
      transferThreadWakeEvt := true } := by
    have hlocked := h.locked
    have htarget := h.target
    obtain hholder | hholder := hfits.holder
    · rw [hholder] at hlocked htarget
      ext1 <;> simp [Bus.onRequest, Bus.ntAssert, hlocked, htarget, hrequest]
    · rw [hholder] at hlocked htarget
      ext1 <;> simp [Bus.onRequest, Bus.ntAssert, hlocked, htarget, hrequest]
  rw [heq]
  exact ⟨h.asserted, h.copy, h.locked,
    .delivered t r (hfits.congr rfl rfl) hout (.inl ⟨h.thread, rfl⟩) rfl rfl hfirst hposition
      h.active⟩

theorem fullDuplexOk_pair (first second : Descriptor) :
    FullDuplexOk [first, second] ↔ first.direction = .toDevice ∧ first.delayInUs = 0 ∧
      second.direction = .fromDevice ∧ second.delayInUs = 0 := by
  constructor
  · rintro ⟨_, _, heq, h⟩
    cases heq
    exact h
  · exact fun h => ⟨first, second, rfl, h⟩

/-- A full-duplex request is rejected unless it is a write and a read without delays. -/
theorem fullDuplex_error {r : Request} {first second : Descriptor} {e : NtStatus}
    (h : r.fullDuplex first second = .error e) : ¬ FullDuplexOk [first, second] := by
  rw [fullDuplexOk_pair]
  rintro ⟨hwrite, hdelay, hread, hdelay'⟩
  simp [Request.fullDuplex, Request.setNthTransferInfo, hwrite, hdelay, hread, hdelay'] at h

/-- A full-duplex request that is accepted keeps its type, its counters and its position. -/
theorem fullDuplex_ok {r r' : Request} {first second : Descriptor}
    (h : r.fullDuplex first second = .ok r') (hother : r.type = .other) :
    r'.type = .other ∧ r'.pbc.currentTransferIndex = r.pbc.currentTransferIndex ∧
      r'.pbc.transferCount = r.pbc.transferCount ∧
      r'.pbc.currentTransferSequencePosition = r.pbc.currentTransferSequencePosition := by
  unfold Request.fullDuplex at h
  dsimp only at h
  split at h
  · exact nomatch h
  · split at h
    · exact nomatch h
    · split at h
      · exact nomatch h
      · split at h
        · exact nomatch h
        · obtain rfl := Except.ok.inj h
          refine ⟨hother, rfl, rfl, ?_⟩
          simp [Request.setNthTransferInfo, hother]

/-- A request that `OnSequenceRequest` rejects is completed with the bus as it was. -/
theorem Quiet.spbRequestComplete {s : Bus} (h : Quiet s)
    (hlock : s.lockHolder.isSome = true → 0 < s.completed) : BusInv s.spbRequestComplete := by
  refine Quiet.inv ⟨h.asserted, h.copy, h.locked, h.thread, h.wake, h.target, h.request, ?_⟩ rfl
  rw [show s.spbRequestComplete.spiCsCopy = s.spiCsCopy from rfl, h.active]
  cases hholder : s.lockHolder with
  | none => simp [Bus.held, Bus.spbRequestComplete, hholder]
  | some t =>
    rw [hholder] at hlock
    simp [Bus.held, Bus.spbRequestComplete, hholder, hlock rfl]

/-- `OnNonSequenceRequest` -/
theorem Quiet.onNonSequenceRequest {s : Bus} (h : Quiet s) {t : Nat} {q : SpbRequest}
    (hholder : s.lockHolder = none ∨ s.lockHolder = some t) (hout : s.outstanding = true)
    (htype : q.type = .read ∨ q.type = .write) : BusInv (s.onNonSequenceRequest t q) := by
  have hsequence : q.type ≠ .sequence := by
    rintro heq
    rw [heq] at htype
    exact htype.elim nofun nofun
  refine h.onRequest ⟨hholder, Nat.one_pos, fun _ => (q.single htype).symm, fun _ => rfl,
    fun heq => absurd heq hsequence, fun _ => rfl⟩ hout rfl fun heq => absurd heq hsequence

/-- `OnSequenceRequest`, for a sequence and for a full-duplex request. -/
theorem Quiet.onSequenceRequest {s : Bus} (h : Quiet s) {t : Nat} {q : SpbRequest}
    (hholder : s.lockHolder = none ∨ s.lockHolder = some t) (hout : s.outstanding = true)
    (htype : q.type = .sequence ∧ s.lockHolder = none ∨ q.type = .other)
    (hok : q.type = .other → s.lockHolder.isSome = true → s.completed = 0 →
      FullDuplexOk q.transfers) : BusInv (s.onSequenceRequest t q) := by
  obtain ⟨htype, hnone⟩ | htype := htype
  · obtain ⟨type, transfers, hsingle, hnonempty⟩ := q
    obtain rfl : type = .sequence := htype
    cases transfers with
    | nil => exact absurd rfl (hnonempty rfl)
    | cons first rest =>
      have hposition : s.position = .single := by rw [Bus.position, hnone]
      show BusInv ((s.ntAssert (s.position = .single && decide True)).onRequest t _)
      rw [s.ntAssert_of (by rw [hposition]; rfl)]
      refine h.onRequest ⟨.inl hnone, Nat.succ_pos _, fun _ => rfl, fun hne => absurd rfl hne,
        fun _ => hnone, fun hne => absurd rfl hne⟩ hout rfl fun _ => rfl
  · -- the first request under a lock is not one that is rejected
    have hreject : ¬ FullDuplexOk q.transfers → BusInv s.spbRequestComplete := by
      refine fun hbad => h.spbRequestComplete fun hlock => Nat.pos_of_ne_zero fun hzero => ?_
      exact hbad (hok htype hlock hzero)
    have hmany : ∀ {transfers : List Descriptor}, transfers.length ≠ 2 →
        ¬ FullDuplexOk transfers := by
      rintro _ hlength ⟨_, _, rfl, -⟩
      exact hlength rfl
    have hposition : decide (if s.locked then s.position = .first ∨ s.position = .continue
        else s.position = .single) = true := by
      rw [h.locked, decide_eq_true_iff]
      unfold Bus.position
      cases s.lockHolder with
      | none => rfl
      | some t =>
        by_cases hzero : s.completed = 0
        · exact .inl (if_pos hzero)
        · exact .inr (if_neg hzero)
    unfold Bus.onSequenceRequest
    rw [htype]
    split
    · next first second heq htransfers =>
      rw [s.ntAssert_of hposition]
      dsimp only
      split
      · next r hr =>
        obtain ⟨hother, hindex, hcount, hpos⟩ := fullDuplex_ok hr htype
        have hne : r.type ≠ .sequence := by rw [hother]; exact nofun
        exact h.onRequest ⟨hholder, by rw [hindex, hcount]; exact Nat.one_pos,
          fun h => absurd hother h, fun _ => hcount, fun heq => absurd heq hne, fun _ => hpos⟩
          hout hindex fun heq => absurd heq hne
      · next e he =>
        rw [htransfers] at hreject
        exact hreject (fullDuplex_error he)
    · next htransfers =>
      exact hreject (hmany fun hlength => by
        obtain ⟨first, second, heq⟩ := List.length_eq_two.1 hlength
        exact htransfers first second heq)
    · next hother => exact (hother rfl).elim
    · next hother => exact (hother rfl).elim

/-- The framework delivers a request. -/
theorem Quiet.onIo {s : Bus} (h : Quiet s) {t : Nat} {q : SpbRequest}
    (hholder : s.lockHolder = none ∨ s.lockHolder = some t ∧ q.type ≠ .sequence)
    (hok : RequestAccepted s (.request t q)) : BusInv (s.onIo t q) := by
  have hbusy := h.setOutstanding true
  have hholder' : s.lockHolder = none ∨ s.lockHolder = some t := hholder.imp_right And.left
  unfold Bus.onIo
  cases htype : q.type with
  | read => exact hbusy.onNonSequenceRequest hholder' rfl (.inl htype)
  | write => exact hbusy.onNonSequenceRequest hholder' rfl (.inr htype)
  | sequence =>
    have hnone : s.lockHolder = none := hholder.resolve_right fun hlock => hlock.2 htype
    exact hbusy.onSequenceRequest hholder' rfl (.inl ⟨htype, hnone⟩) hok
  | other => exact hbusy.onSequenceRequest hholder' rfl (.inr htype) hok

/-! ## Locking and unlocking -/

theorem BusInv.lock {s : Bus} (h : BusInv s) (hout : s.outstanding = false)
    (hholder : s.lockHolder = none) (t : Nat) :
    BusInv ({ s with lockHolder := some t, completed := 0 }.onControllerLock t) := by
  have hq := h.quiet hout
  have hlocked : s.locked = false := by rw [hq.locked, hholder]; rfl
  have htarget : s.pCurrentTarget = none := hq.target.trans hholder
  have hassert : (s.pCurrentTarget.isNone && !s.locked) = true := by rw [hlocked, htarget]; rfl
  have hactive : transferActive s.spiCsCopy = false := by
    rw [hq.active, Bus.held, hholder]
    rfl
  refine Quiet.inv ⟨?_, hq.copy, rfl, hq.thread, hq.wake, rfl, hq.request, hactive⟩ hout
  show (s.asserted && (s.pCurrentTarget.isNone && !s.locked)) = true
  rw [hassert, hq.asserted]
  rfl

theorem BusInv.unlock {s : Bus} (h : BusInv s) (hout : s.outstanding = false) {t : Nat}
    (hholder : s.lockHolder = some t) :
    BusInv ({ s with lockHolder := none }.onControllerUnlock t) := by
  have hq := h.quiet hout
  have hlocked : s.locked = true := by rw [hq.locked, hholder]; rfl
  have htarget : s.pCurrentTarget = some t := hq.target.trans hholder
  unfold Bus.onControllerUnlock Bus.controllerUnlockTransfer
  cases hactive : transferActive s.spiCsCopy with
  | false =>
    refine Quiet.inv ⟨?_, ?_, rfl, hq.thread, hq.wake, rfl, hq.request, ?_⟩ hout
    · simp [Bus.ntAssert, hq.asserted, htarget, hlocked]
    · exact hq.copy
    · exact hactive
  | true =>
    refine Quiet.inv ⟨?_, ?_, rfl, hq.thread, hq.wake, rfl, hq.request, ?_⟩ hout
    · simp [Bus.ntAssert, hactive, hq.asserted, htarget, hlocked, Bus.controllerFlushFifos,
        Bus.controllerDeactivateTransfer, hq.copy]
    · rfl
    · exact transferActive_deactivate _

/-! ## The transfer thread -/

theorem BusInv.wake {s : Bus} (h : BusInv s) (hwake : s.transferThreadWakeEvt = true) :
    BusInv { s with thread := .woken, transferThreadWakeEvt := false } := by
  refine ⟨h.asserted, h.copy, h.locked, ?_⟩
  cases h.stage with
  | idle _ _ hwake' => exact nomatch hwake.symm.trans hwake'
  | delivered t r hfits hout _ htarget hrequest hfirst hposition hactive =>
    exact .delivered t r (hfits.congr rfl rfl) hout (.inr ⟨rfl, rfl⟩) htarget hrequest hfirst
      hposition hactive
  | running _ _ _ _ _ hwake' => exact nomatch hwake.symm.trans hwake'

/-- A request sets up the target exactly when `TA` is clear before it. -/
theorem Fits.configures {s : Bus} {t : Nat} {r : Request} (h : Fits s t r)
    (hfirst : r.pbc.currentTransferIndex = 0) (hposition : AtPosition r) :
    (r.pbc.currentTransferSequencePosition = .single ∨
      r.pbc.currentTransferSequencePosition = .first) ↔ s.held = false := by
  by_cases htype : r.type = .sequence
  · have hholder := h.sequence htype
    rw [hposition htype, hfirst, Bus.held, hholder]
    refine ⟨fun _ => rfl, fun _ => ?_⟩
    unfold sequencePosition
    split
    · exact .inl rfl
    · exact .inr (if_pos rfl)
  · rw [h.position htype, Bus.position, Bus.held]
    obtain hholder | hholder := h.holder
    · simp [hholder]
    · by_cases hzero : s.completed = 0
      · simp [hholder, hzero]
      · simp [hholder, hzero, Nat.pos_of_ne_zero hzero]

/-- `ControllerConfigForTargetAndActivate`, called with `TA` clear. -/
theorem controllerConfigForTargetAndActivate_eq {s : Bus} (p : TargetSettings)
    (hactive : transferActive s.spiCsCopy = false) :
    ∃ clk speed, s.controllerConfigForTargetAndActivate p = { s with
      clk := clk
      currentConnectionSpeed := speed
      spiCsCopy := p.configure s.spiCsCopy ||| bcmSpiRegCsTa
      cs := p.configure s.spiCsCopy ||| bcmSpiRegCsTa } := by
  have hwire : (p.typeSpecificFlags &&& spiWiremodeBit == 0) = true := beq_iff_eq.2 p.supported.2
  have hclear : (!transferActive (p.configure s.spiCsCopy)) = true := by
    rw [transferActive_configure, hactive]
    rfl
  unfold Bus.controllerConfigForTargetAndActivate Bus.controllerActivateTransfer
  dsimp only
  split
  · refine ⟨_, _, Bus.ext rfl rfl rfl rfl rfl rfl rfl rfl rfl rfl rfl rfl ?_⟩
    show (s.asserted && _ && _) = s.asserted
    rw [hwire, Bool.and_true, Bool.and_eq_left_iff_imp]
    exact fun _ => hclear
  · refine ⟨_, _, Bus.ext rfl rfl rfl rfl rfl rfl rfl rfl rfl rfl rfl rfl ?_⟩
    show (s.asserted && _ && _) = s.asserted
    rw [hwire, Bool.and_true, Bool.and_eq_left_iff_imp]
    exact fun _ => hclear

theorem BusInv.start {s : Bus} (h : BusInv s) (settings : Nat → TargetSettings)
    (hthread : s.thread = .woken) : BusInv (s.onRequestPollMode settings) := by
  cases h.stage with
  | idle _ hthread' => exact nomatch hthread.symm.trans hthread'
  | running _ _ _ _ hthread' =>
    obtain hthread' | ⟨_, hthread', -⟩ := hthread' <;> exact nomatch hthread.symm.trans hthread'
  | delivered t r hfits hout hthread' htarget hrequest hfirst hposition hactive =>
    have hwake : s.transferThreadWakeEvt = false :=
      hthread'.elim (fun hw => nomatch hthread.symm.trans hw.1) And.right
    have hcurrent : s.pCurrentRequest t = some r := by
      rw [hrequest, Function.update_self]
    have hothers : ∀ t', t' ≠ t → s.pCurrentRequest t' = none := by
      intro t' hne
      rw [hrequest, Function.update_of_ne hne]
    unfold Bus.onRequestPollMode
    simp only [htarget, hcurrent]
    split
    · next hconfigure =>
      have hclear : transferActive s.spiCsCopy = false :=
        hactive.trans ((hfits.configures hfirst hposition).1 hconfigure)
      obtain ⟨clk, speed, heq⟩ := controllerConfigForTargetAndActivate_eq (settings t) hclear
      rw [heq]
      exact ⟨h.asserted, rfl, h.locked, .running t r (hfits.congr rfl rfl) hout (.inl rfl) hwake
        htarget hothers (transferActive_activate _)⟩
    · next hconfigure =>
      have hheld : s.held = true := by
        rw [hfits.configures hfirst hposition] at hconfigure
        exact Bool.eq_true_of_not_eq_false hconfigure
      exact ⟨h.asserted, h.copy, h.locked, .running t r (hfits.congr rfl rfl) hout (.inl rfl) hwake
        htarget hothers (hactive.trans hheld)⟩

/-- What a step of the thread may use of the request it works on. -/
structure Running (s : Bus) (t : Nat) (r : Request) : Prop where
  fits : Fits s t r
  outstanding : s.outstanding = true
  wake : s.transferThreadWakeEvt = false
  target : s.pCurrentTarget = some t
  request : ∀ t', t' ≠ t → s.pCurrentRequest t' = none
  active : transferActive s.spiCsCopy = true

theorem BusInv.polling {s : Bus} (h : BusInv s) {r : Request} (hthread : s.thread = .polling r) :
    ∃ t, Running s t r := by
  cases h.stage with
  | idle _ hthread' => exact nomatch hthread.symm.trans hthread'
  | delivered _ _ _ _ hthread' =>
    obtain hthread' | hthread' := hthread' <;> exact nomatch hthread.symm.trans hthread'.1
  | running t r' hfits hout hthread' hwake htarget hrequest hactive =>
    obtain hthread' | ⟨_, hthread', -⟩ := hthread'
    · obtain rfl : r = r' := Thread.polling.inj (hthread.symm.trans hthread')
      exact ⟨t, hfits, hout, hwake, htarget, hrequest, hactive⟩
    · exact nomatch hthread.symm.trans hthread'

theorem BusInv.polled {s : Bus} (h : BusInv s) {r : Request} {status : NtStatus}
    (hthread : s.thread = .polled r status) : ∃ t, Running s t r ∧ AtPosition r := by
  cases h.stage with
  | idle _ hthread' => exact nomatch hthread.symm.trans hthread'
  | delivered _ _ _ _ hthread' =>
    obtain hthread' | hthread' := hthread' <;> exact nomatch hthread.symm.trans hthread'.1
  | running t r' hfits hout hthread' hwake htarget hrequest hactive =>
    obtain hthread' | ⟨_, hthread', hposition⟩ := hthread'
    · exact nomatch hthread.symm.trans hthread'
    · obtain ⟨rfl, -⟩ := Thread.polled.inj (hthread.symm.trans hthread')
      exact ⟨t, ⟨hfits, hout, hwake, htarget, hrequest, hactive⟩, hposition⟩

/-- A transfer of the request it has been set up for. -/
theorem BusInv.transfer {s : Bus} (h : BusInv s) {t : Nat} {r : Request} (hr : Running s t r)
    (hposition : AtPosition r) {delayed : Bool} {polls : List Poll} {status : NtStatus}
    {pbc : PbcRequest} {written : List UInt8}
    (hpoll : controllerDoOneTransferPollMode r.pbc delayed polls = some (status, pbc, written)) :
    BusInv { if status = .success ∨ status = .cancelled then s.controllerFlushFifos else s with
      thread := .polled { r with pbc := pbc } status } := by
  obtain ⟨hcount, hindex, -, hpos⟩ := controllerDoOneTransferPollMode_frame hpoll
  have hfits : Fits s t { r with pbc := pbc } :=
    ⟨hr.fits.holder, by rw [hindex, hcount]; exact hr.fits.index,
      fun htype => hcount.trans (hr.fits.count htype),
      fun htype => hcount.trans (hr.fits.single htype), hr.fits.sequence,
      fun htype => hpos.trans (hr.fits.position htype)⟩
  have hposition' : AtPosition { r with pbc := pbc } := by
    intro htype
    show pbc.currentTransferSequencePosition = _
    rw [hpos, hposition htype, hindex, hcount]
  split
  · refine ⟨?_, transferActive_clearrx _, h.locked, .running t _ (hfits.congr rfl rfl)
      hr.outstanding (.inr ⟨status, rfl, hposition'⟩) hr.wake hr.target hr.request hr.active⟩
    show (s.asserted && transferActive s.cs) = true
    rw [h.asserted, h.copy, hr.active]
    rfl
  · exact ⟨h.asserted, h.copy, h.locked, .running t _ (hfits.congr rfl rfl) hr.outstanding
      (.inr ⟨status, rfl, hposition'⟩) hr.wake hr.target hr.request hr.active⟩

theorem BusInv.runTransfer {s s' : Bus} (h : BusInv s) {r : Request}
    (hthread : s.thread = .polling r) {delayed : Bool} {polls : List Poll}
    (hrun : s.runTransfer r delayed polls = some s') : BusInv s' := by
  obtain ⟨t, hr⟩ := h.polling hthread
  unfold Bus.runTransfer at hrun
  dsimp only at hrun
  split at hrun
  · next hother =>
    have hposition : AtPosition r := fun htype => nomatch hother.symm.trans htype
    obtain ⟨⟨status, pbc, written⟩, hpoll, rfl⟩ := Option.map_eq_some_iff.1 hrun
    exact h.transfer hr hposition hpoll
  · next hother =>
    have hindex : r.pbc.currentTransferIndex < r.transfers.length := by
      rw [← hr.fits.count hother]
      exact hr.fits.index
    rw [List.getElem?_eq_getElem hindex] at hrun
    obtain ⟨⟨status, pbc, written⟩, hpoll, rfl⟩ := Option.map_eq_some_iff.1 hrun
    generalize r.transfers[r.pbc.currentTransferIndex] = d at hpoll
    refine h.transfer (r := r.setNthTransferInfo r.pbc.currentTransferIndex d) (t := t) ?_ ?_ hpoll
    · refine ⟨⟨hr.fits.holder, hr.fits.index, hr.fits.count, hr.fits.single, hr.fits.sequence, ?_⟩,
        hr.outstanding, hr.wake, hr.target, hr.request, hr.active⟩
      exact fun htype => (if_neg htype).trans (hr.fits.position htype)
    · exact fun htype => if_pos htype

/-- A sequence is completed at its last transfer or at a cancellation, any other request at once;
outside a lock this deactivates the transfer. -/
theorem Running.ends {s : Bus} {t : Nat} {r : Request} (hr : Running s t r)
    (hposition : AtPosition r) (hholder : s.lockHolder = none) {status : NtStatus}
    (hdone : ¬ (r.account.pbc.currentTransferIndex < r.account.pbc.transferCount ∧
      status ≠ .cancelled)) :
    (r.account.pbc.currentTransferSequencePosition = .single ∨
      r.account.pbc.currentTransferSequencePosition = .last ∨ status = .cancelled) ∧
    (r.account.type = .sequence ∨ r.account.type = .other ∨
      r.account.pbc.currentTransferSequencePosition = .single) := by
  have hkeep : r.account.pbc.currentTransferSequencePosition =
      r.pbc.currentTransferSequencePosition := rfl
  rw [hkeep]
  by_cases htype : r.type = .sequence
  · refine ⟨?_, .inl htype⟩
    by_cases hcancelled : status = .cancelled
    · exact .inr (.inr hcancelled)
    · have hindex := hr.fits.index
      have hlast : r.pbc.currentTransferIndex = r.pbc.transferCount - 1 := by
        have hnot : ¬ r.pbc.currentTransferIndex + 1 < r.pbc.transferCount :=
          fun hlt => hdone ⟨hlt, hcancelled⟩
        omega
      rw [hposition htype, sequencePosition]
      by_cases hone : r.pbc.transferCount = 1
      · exact .inl (if_pos hone)
      · have hpos : r.pbc.currentTransferIndex ≠ 0 := by omega
        rw [if_neg hone, if_neg hpos, if_pos hlast]
        exact .inr (.inl rfl)
  · have hsingle : r.pbc.currentTransferSequencePosition = .single := by
      rw [hr.fits.position htype, Bus.position, hholder]
    exact ⟨.inl hsingle, .inr (.inr hsingle)⟩

theorem BusInv.complete {s : Bus} (h : BusInv s) {r : Request} {status : NtStatus}
    (hthread : s.thread = .polled r status) :
    BusInv (s.controllerCompleteTransfer r status) := by
  obtain ⟨t, hr, hposition⟩ := h.polled hthread
  unfold Bus.controllerCompleteTransfer
  dsimp only
  split
  · next hmore =>
    -- only a sequence has more than one transfer
    have htype : r.type = .sequence := by
      by_contra hne
      have hcount : r.pbc.transferCount = 1 := hr.fits.single hne
      have hlt : r.pbc.currentTransferIndex + 1 < r.pbc.transferCount := hmore.1
      omega
    have hassert : decide (r.account.type ≠ .other) = true :=
      decide_eq_true fun hother => nomatch htype.symm.trans hother
    rw [s.ntAssert_of hassert]
    exact ⟨h.asserted, h.copy, h.locked, .running t r.account ⟨hr.fits.holder, hmore.1,
      hr.fits.count, hr.fits.single, hr.fits.sequence, fun hne => absurd htype hne⟩
      hr.outstanding (.inl rfl) hr.wake hr.target hr.request hr.active⟩
  · next hdone =>
    have hrequest : ∀ t', Function.update s.pCurrentRequest t none t' = none := by
      intro t'
      by_cases ht : t' = t
      · rw [ht, Function.update_self]
      · rw [Function.update_of_ne ht, hr.request t' ht]
    obtain hholder | hholder := hr.fits.holder
    · have hlocked : s.locked = false := by rw [h.locked, hholder]; rfl
      obtain ⟨hdeactivate, hrelease⟩ := hr.ends hposition hholder hdone
      simp only [hlocked, hdeactivate, hrelease, decide_true, Bool.not_false, Bool.and_self,
        if_true, Bus.controllerDeactivateTransfer, hr.target]
      refine Quiet.inv ⟨h.asserted, rfl, ?_, rfl, hr.wake, hholder.symm, hrequest, ?_⟩ rfl
      · exact hlocked.symm.trans h.locked
      · refine (transferActive_deactivate _).trans (Eq.symm ?_)
        show (s.lockHolder.isSome && _) = false
        rw [hholder]
        rfl
    · have hlocked : s.locked = true := by rw [h.locked, hholder]; rfl
      simp only [hlocked, Bool.not_true, Bool.false_and, Bool.false_eq_true, if_false, hr.target]
      refine Quiet.inv ⟨h.asserted, h.copy, ?_, rfl, hr.wake, hholder.symm, hrequest, ?_⟩ rfl
      · exact hlocked.symm.trans h.locked
      · refine hr.active.trans (Eq.symm ?_)
        show (s.lockHolder.isSome && decide (0 < if s.lockHolder.isSome then s.completed + 1
          else s.completed)) = true
        rw [hholder]
        exact decide_eq_true (Nat.succ_pos s.completed)

/-! ## The results -/

section Runs

variable {settings : Nat → TargetSettings} {s : Bus}

/-- One step keeps the invariant, if it meets the condition. -/
theorem BusInv.step {s' : Bus} (h : BusInv s) {a : BusAction} (hok : RequestAccepted s a)
    (hs : s.step settings a = some s') : BusInv s' := by
  cases a with
  | lock t =>
    simp only [Bus.step] at hs
    split at hs
    · next hen =>
      obtain rfl := Option.some.inj hs
      exact h.lock hen.1 hen.2 t
    · exact nomatch hs
  | unlock =>
    simp only [Bus.step] at hs
    split at hs
    · exact nomatch hs
    · next t hholder =>
      split at hs
      · next hout =>
        obtain rfl := Option.some.inj hs
        exact h.unlock hout hholder
      · exact nomatch hs
  | request t q =>
    simp only [Bus.step] at hs
    split at hs
    · next hen =>
      obtain rfl := Option.some.inj hs
      exact (h.quiet hen.1).onIo hen.2 hok
    · exact nomatch hs
  | wake =>
    simp only [Bus.step] at hs
    split at hs
    · split at hs
      · next hwake =>
        obtain rfl := Option.some.inj hs
        exact h.wake hwake
      · exact nomatch hs
    · exact nomatch hs
  | start =>
    simp only [Bus.step] at hs
    split at hs
    · next hthread =>
      obtain rfl := Option.some.inj hs
      exact h.start settings hthread
    · exact nomatch hs
  | transfer delayed polls =>
    simp only [Bus.step] at hs
    split at hs
    · next r hthread => exact h.runTransfer hthread hs
    · exact nomatch hs
  | complete =>
    simp only [Bus.step] at hs
    split at hs
    · next r status hthread =>
      obtain rfl := Option.some.inj hs
      exact h.complete hthread
    · exact nomatch hs

theorem busInv_of_reach (h : (busMachine settings).Reach RequestAccepted s) : BusInv s :=
  h.inv (fun _ => busInv_initial) fun _ _ _ hinv hok hs => hinv.step hok hs

/-- **The bus is sound** in every run in which the first request of a lock is not a full-duplex
request that is rejected. -/
theorem busSound_of_accepted (h : (busMachine settings).Reach RequestAccepted s) : BusSound s :=
  (busInv_of_reach h).sound

end Runs

instance FullDuplexOk.decidable : ∀ transfers, Decidable (FullDuplexOk transfers)
  | [first, second] => decidable_of_iff _ (fullDuplexOk_pair first second).symm
  | [] => .isFalse nofun
  | [_] => .isFalse nofun
  | _ :: _ :: _ :: _ => .isFalse nofun

instance RequestAccepted.decidable (s : Bus) : ∀ a, Decidable (RequestAccepted s a)
  | .request _ q => inferInstanceAs (Decidable (q.type = .other → s.lockHolder.isSome = true →
      s.completed = 0 → FullDuplexOk q.transfers))
  | .lock _ | .unlock | .wake | .start | .transfer _ _ | .complete =>
    inferInstanceAs (Decidable True)

/-! ### Runs -/

/-- A target on CS1 at 1 MHz. -/
def target : TargetSettings := ⟨1000000, false, false, 1, 0, by decide⟩

def device : Bus :=
  Bus.controllerInitialize ⟨0, 0, 0, 0, false, none, fun _ => none, false, .waiting, none, 0, false,
    true⟩

theorem device_initial : device.Initial :=
  ⟨_, rfl, rfl, rfl, fun _ => rfl, rfl, rfl, rfl, rfl, rfl⟩

/-- A write of one byte. -/
def writeByte : Descriptor := ⟨.toDevice, 1, 0, [⟨[0x5a], true⟩], by decide⟩

def readByte : Descriptor := ⟨.fromDevice, 1, 0, [⟨[0], true⟩], by decide⟩

def writeRequest : SpbRequest :=
  ⟨.write, [writeByte], fun _ => rfl, fun h => by cases h⟩

/-- A full-duplex request of the given transfers. -/
def fullDuplexRequest (transfers : List Descriptor) : SpbRequest :=
  ⟨.other, transfers, fun h => by cases h <;> contradiction, fun h => by cases h⟩

/-- A full-duplex request and a write in a lock, the write cancelled. -/
theorem busSound_lock : ∃ s, ((busMachine fun _ => target).Reach RequestAccepted s ∧
    s.held = true ∧ s.outstanding = false) ∧ BusSound s := by
  obtain ⟨s, hr, hs⟩ := (busMachine fun _ => target).reach_execOk_any RequestAccepted
    [.lock 0, .request 0 (fullDuplexRequest [writeByte, readByte]), .wake, .start,
      .transfer true [⟨false, true, true, 7⟩], .complete, .request 0 writeRequest, .wake, .start,
      .transfer true [⟨false, true, false, 0⟩, ⟨true, true, false, 0⟩], .complete]
    (p := fun s => s.held && !s.outstanding) device_initial (by decide +kernel)
  simp only [Bool.and_eq_true, Bool.not_eq_true'] at hs
  exact ⟨s, ⟨hr, hs⟩, busSound_of_accepted hr⟩

/-- **Chip select is dropped in a lock**: the first request of the lock is a full-duplex request
with its read first, which is rejected; the write after it is polled with `TA` clear until it is
cancelled, and the assertion of `ControllerFlushFifos` fails. -/
theorem chipSelect_dropped : ∃ s, (busMachine fun _ => target).Reachable s ∧
    (s.held = true ∧ transferActive s.cs = false ∧ s.asserted = false) ∧ ¬ BusSound s := by
  obtain ⟨s, hr, hs⟩ := (busMachine fun _ => target).reach_exec_any
    [.lock 0, .request 0 (fullDuplexRequest [readByte, writeByte]), .request 0 writeRequest, .wake,
      .start, .transfer true [⟨false, true, false, 0⟩, ⟨true, true, false, 0⟩]]
    (p := fun s => s.held && !transferActive s.cs && !s.asserted) device_initial
    (by decide +kernel)
  simp only [Bool.and_eq_true, Bool.not_eq_true'] at hs
  obtain ⟨⟨hheld, hactive⟩, hasserted⟩ := hs
  refine ⟨s, hr, ⟨hheld, hactive, hasserted⟩, fun h => ?_⟩
  exact nomatch (h.held hheld).symm.trans hactive

/-! ## The completion as `Spi0.Sequence` has it -/

/-- What `ControllerCompleteTransfer` updates of the device. -/
def Bus.toPbcDevice (s : Bus) : PbcDevice where
  locked := s.locked
  transferActive := transferActive s.spiCsCopy
  hasCurrentTarget := s.pCurrentTarget.isSome
  hasCurrentRequest := (s.pCurrentTarget.bind s.pCurrentRequest).isSome

/-- For a sequence, the completion is the one the sequence is run with. -/
theorem controllerCompleteTransfer_toPbcDevice {s : Bus} {t : Nat} {r : Request}
    (htype : r.type = .sequence) (htarget : s.pCurrentTarget = some t) (status : NtStatus) :
    (s.controllerCompleteTransfer r status).toPbcDevice =
      (Spi0.controllerCompleteTransfer s.toPbcDevice r.pbc status).1 := by
  unfold Bus.controllerCompleteTransfer Spi0.controllerCompleteTransfer
  dsimp only
  split
  · next hmore =>
    have hmore : r.pbc.currentTransferIndex + 1 < r.pbc.transferCount ∧ status ≠ .cancelled := hmore
    rw [if_pos hmore]
    rfl
  · next hdone =>
    have hdone : ¬ (r.pbc.currentTransferIndex + 1 < r.pbc.transferCount ∧ status ≠ .cancelled) :=
      hdone
    rw [if_neg hdone]
    have hkeep : r.account.pbc.currentTransferSequencePosition =
        r.pbc.currentTransferSequencePosition := rfl
    have hkind : r.account.type = .sequence := htype
    simp only [hkeep, hkind]
    generalize hends : decide (r.pbc.currentTransferSequencePosition = .single ∨
      r.pbc.currentTransferSequencePosition = .last ∨ status = .cancelled) = ends
    cases hlocked : s.locked <;> cases ends <;>
      simp [Bus.toPbcDevice, Bus.controllerDeactivateTransfer, Bus.spbRequestComplete, htarget,
        hlocked]

/-- For a sequence, a transfer is set up as the sequence sets it up. -/
theorem setNthTransferInfo_sequence {r : Request} (htype : r.type = .sequence) (i : Nat)
    (d : Descriptor) :
    (r.setNthTransferInfo i d).pbc = pbcRequestSetNthTransferInfo r.pbc i d := by
  simp [Request.setNthTransferInfo, pbcRequestSetNthTransferInfo, htype, sequencePosition]

end RpiDrivers.Spi0
