import RpiDrivers.AuxSpi.Fifo
import RpiDrivers.AuxSpi.Ownership

/-!
# Sequences and full-duplex transfers of the AUX SPI (`bcmauxspi.cpp`)

A sequence writes a chain of MDLs and then reads one of its own. A full-duplex transfer writes and
reads at the same time. At each interrupt the ISR takes what has come in and queues what comes
next, as much as the FIFO holds. To read, it writes zeros. The controller shifts out entry by entry
at its own pace, and interrupts when it has none left.

- `TransferSound`: no assertion has failed, the counters and the cursors go together and stay in
  their bounds, what went over the wire is what was asked for, and a transfer comes to an end.
- `Aligned`: the condition on the lengths, from `ASSERT_ULONG_ALIGNED`.
- `Flight`: a chunk between the two FIFOs, which the controller takes entry by entry.
- `transferSound_of_aligned`: **runs of such transfers are sound**.
- `four_bytes_unaligned`: four bytes in data mode 0 fail the assertion on a 64-bit machine.
-/

namespace RpiDrivers.AuxSpi

open RpiDrivers.Lib

/-! ## Assertions -/

/-- The machine that the driver was built for. -/
inductive Platform
  | arm
  | arm64
  deriving DecidableEq

/-- `sizeof(UINT_PTR)` -/
def Platform.sizeofUintPtr : Platform → Nat
  | .arm => 4
  | .arm64 => 8

/-- `ASSERT_ULONG_ALIGNED`, for a buffer that is an array of `ULONG`s -/
def assertUlongAligned (platform : Platform) (length : Nat) : Bool :=
  length % platform.sizeofUintPtr = 0

/-- The assertions of `writeFifo` and of the four `Write` functions. -/
def writeFifoAsserts (platform : Platform) (length : Nat) (fifoMode : FifoMode) : Bool :=
  length ≠ 0 &&
    match fifoMode with
    | .fixed4 => assertUlongAligned platform length && length / 4 ≠ 0
    | .fixed3Shifted => length % 3 = 0
    | .variable3 | .variable2Shifted => true

/-- The assertions of `extractFifoBuffer` and of the four `Extract` functions. -/
def extractAsserts (platform : Platform) (length : Nat) (fifoMode : FifoMode) : Bool :=
  match fifoMode with
  | .fixed4 => assertUlongAligned platform length && length / 4 ≠ 0 && length / 4 ≤ fifoDepth * 4
  | .variable3 => length ≠ 0 && length ≤ fifoDepth * 3
  | .fixed3Shifted => length ≠ 0 && length ≤ fifoDepth * 3 && length % 3 = 0
  | .variable2Shifted => length ≠ 0 && length ≤ fifoDepth * 2

/-! ## The device -/

/-- What has been asked for. -/
inductive Asked
  | sequence
  | fullDuplex
  deriving DecidableEq

/-- `_REQUEST` with its `_SEQUENCE_CONTEXT` and the buffers, the controller, and what went over the
wire. A pointer to an MDL and its offset are a cursor. -/
structure Spi where
  transferState : TransferState
  fifoMode : FifoMode
  dataMode : SpiDataMode
  currentWriteMdl : Cursor
  bytesToWrite : Nat
  bytesWritten : Nat
  currentReadMdl : Cursor
  bytesToRead : Nat
  bytesRead : Nat
  writeMdl : List (List Byte)
  readMdl : List (List Byte)
  cntl0 : Cntl0
  doneIrq : Bool
  spbControllerLocked : Bool
  dpcQueued : Bool
  txFifo : List Ulong
  rxFifo : List Ulong
  asked : Asked
  /-- the bits shifted out and in since the start of the transfer -/
  out : List Bool
  ins : List Bool
  /-- `SpbRequestComplete` with this information -/
  completed : Option Nat
  assertFailed : Bool

namespace Spi

/-- `NT_ASSERT` -/
def ntAssert (s : Spi) (b : Bool) : Spi := { s with assertFailed := s.assertFailed || !b }

/-! ## FIFO and MDL helpers -/

/-- `writeFifoMdl` from the write chain -/
def writeMdlToFifo (platform : Platform) (s : Spi) : Spi :=
  let (cursor, entries, n) := writeFifoMdl s.writeMdl s.currentWriteMdl s.fifoMode
  -- `copyBytesFromMdl` asserts that there is an MDL, `writeFifo` is called with what was copied
  let copied := (s.currentWriteMdl.copyFrom s.writeMdl (getFifoCapacity s.fifoMode)).2.length
  let s := s.ntAssert (¬ s.currentWriteMdl.AtEnd s.writeMdl)
  let s := s.ntAssert (writeFifoAsserts platform copied s.fifoMode)
  { s with
    currentWriteMdl := cursor
    bytesWritten := s.bytesWritten + n
    txFifo := s.txFifo ++ entries }

/-- `writeFifoZeros` -/
def writeZeros (platform : Platform) (s : Spi) (maxCount : Nat) (fifoMode : FifoMode) : Spi :=
  let s := s.ntAssert (writeFifoAsserts platform maxCount fifoMode)
  { s with txFifo := s.txFifo ++ (writeFifoZeros maxCount fifoMode).1 }

/-- `IoReg` is read until the local buffer is full; `stale` is what it gives when the FIFO is
empty. -/
def readEntries (s : Spi) (stale : List Ulong) : Spi × List Ulong :=
  ({ s with rxFifo := s.rxFifo.drop fifoDepth }, (s.rxFifo ++ stale).take fifoDepth)

/-- `copyBytesToMdl` to the read chain -/
def copyToReadMdl (s : Spi) (bytes : List Byte) : Spi × Nat :=
  let (cursor, readMdl, n) := s.currentReadMdl.copyTo s.readMdl bytes
  let s := s.ntAssert (¬ s.currentReadMdl.AtEnd s.readMdl)
  ({ s with
      currentReadMdl := cursor
      readMdl := readMdl }, n)

/-! ## The ISR -/

/-- The state `SEQUENCE_WRITE`. -/
def isrSequenceWrite (platform : Platform) (s : Spi) : Spi :=
  let bytesWritten := s.bytesWritten
  let s := s.ntAssert (s.bytesWritten < s.bytesToWrite)
  let s := s.writeMdlToFifo platform
  let s := s.ntAssert (s.bytesWritten > bytesWritten)
  if s.bytesWritten = s.bytesToWrite then { s with transferState := .sequenceReadInit } else s

/-- The state `SEQUENCE_READ_INIT`. -/
def isrSequenceReadInit (platform : Platform) (s : Spi) : Spi :=
  let s := s.ntAssert (s.bytesWritten = s.bytesToWrite)
  let s := s.ntAssert (s.bytesRead = 0)
  let newFifoMode := selectFifoMode s.dataMode s.bytesToRead
  -- the FIFOs are cleared
  let s := { s with
    txFifo := []
    rxFifo := []
    cntl0 := computeControlRegisters newFifoMode }
  let s := s.writeZeros platform s.bytesToRead newFifoMode
  { s with
    fifoMode := newFifoMode
    transferState := .sequenceRead }

/-- The end of the ISR: the interrupt is disabled, and the DPC queued. -/
def isrFinish (s : Spi) : Spi :=
  let s := { s with
    doneIrq := false
    dpcQueued := true }
  -- CS is deasserted by an entry without bits
  if s.spbControllerLocked then s
  else
    { s with
      cntl0 := ⟨false, 0⟩
      txFifo := s.txFifo ++ [0] }

/-- The state `SEQUENCE_READ`, with `readFifoMdl` and `readFifo`. -/
def isrSequenceRead (platform : Platform) (s : Spi) (stale : List Ulong) : Spi :=
  let bytesRead := s.bytesRead
  let s := s.ntAssert (bytesRead < s.bytesToRead)
  let s := s.ntAssert (s.bytesWritten = s.bytesToWrite)
  let length := s.bytesToRead - bytesRead
  let s := s.ntAssert (length ≠ 0)
  let (s, fifoBuffer) := s.readEntries stale
  let bytesToReadChunk := min length (getFifoCapacity s.fifoMode)
  let remainingBytesToWrite := length - bytesToReadChunk
  let s := if remainingBytesToWrite ≠ 0 then
      s.writeZeros platform remainingBytesToWrite s.fifoMode
    else s
  let s := s.ntAssert (extractAsserts platform bytesToReadChunk s.fifoMode)
  let (s, bytesCopied) :=
    s.copyToReadMdl (extractFifoBuffer fifoBuffer bytesToReadChunk s.fifoMode)
  let s := s.ntAssert (bytesRead + bytesCopied > bytesRead)
  let s := { s with bytesRead := bytesRead + bytesCopied }
  if s.bytesRead = s.bytesToRead then s.isrFinish else s

/-- The state `FULL_DUPLEX`. -/
def isrFullDuplex (platform : Platform) (s : Spi) (stale : List Ulong) : Spi :=
  let bytesRead := s.bytesRead
  let bytesWritten := s.bytesWritten
  let s := s.ntAssert (bytesRead < s.bytesToRead)
  let s := s.ntAssert (bytesWritten ≤ s.bytesToWrite)
  let (s, fifoBuffer) := s.readEntries stale
  let s := if bytesWritten ≠ s.bytesToWrite then
      let s := s.writeMdlToFifo platform
      s.ntAssert (s.bytesWritten > bytesWritten)
    else s
  let bytesToReadChunk := min (getFifoCapacity s.fifoMode) (s.bytesToRead - bytesRead)
  let s := s.ntAssert (extractAsserts platform bytesToReadChunk s.fifoMode)
  let (s, bytesCopied) :=
    s.copyToReadMdl (extractFifoBuffer fifoBuffer bytesToReadChunk s.fifoMode)
  let s := s.ntAssert (bytesCopied = bytesToReadChunk)
  let s := s.ntAssert (bytesRead + bytesCopied > bytesRead)
  let s := { s with bytesRead := bytesRead + bytesCopied }
  if s.bytesRead = s.bytesToRead then s.isrFinish else s

/-- `Spi1Irq` or `Spi2Irq` of the interrupt register: the controller is idle. -/
def irq (s : Spi) : Bool := s.doneIrq && s.txFifo.isEmpty

/-- `EvtInterruptIsr` -/
def evtInterruptIsr (platform : Platform) (s : Spi) (stale : List Ulong) : Spi :=
  -- the interrupt is not meant for this device
  if !s.irq then s
  -- the Tx FIFO should always be empty when an interrupt occurs
  else if !s.txFifo.isEmpty then s.ntAssert false
  else
    match s.transferState with
    | .sequenceWrite => s.isrSequenceWrite platform
    | .sequenceReadInit => s.isrSequenceReadInit platform
    | .sequenceRead => s.isrSequenceRead platform stale
    | .fullDuplex => s.isrFullDuplex platform stale
    -- the states of single transfers are not modelled
    | .write | .read => s
    | .invalid => { s.ntAssert false with cntl0 := ⟨false, 0⟩, doneIrq := false }

/-! ## The callbacks -/

/-- `EvtInterruptDpc`, with `processRequestCompletion` -/
def evtInterruptDpc (s : Spi) : Spi :=
  let s := { s.ntAssert (!s.doneIrq) with dpcQueued := false }
  let completion (s : Spi) : Spi :=
    let s := s.ntAssert (s.bytesWritten = s.bytesToWrite)
    let s := s.ntAssert (s.bytesRead = s.bytesToRead)
    { s with completed := some (s.bytesWritten + s.bytesRead) }
  let s := match s.transferState with
    | .fullDuplex => completion (s.ntAssert (s.bytesWritten = s.bytesRead))
    | .sequenceRead => completion s
    | .write | .read => s
    | .invalid | .sequenceWrite | .sequenceReadInit =>
      { s.ntAssert false with completed := some 0 }
  -- the FIFOs are put in reset
  { s with
    transferState := .invalid
    txFifo := []
    rxFifo := [] }

/-- The beginning of a transfer: CS is asserted, and the FIFOs are empty. -/
def prepareRequest (s : Spi) (asked : Asked) (transferState : TransferState)
    (dataMode : SpiDataMode) (writeMdl readMdl : List (List Byte)) : Spi :=
  let fifoMode := selectFifoMode dataMode writeMdl.flatten.length
  { s with
    transferState := transferState
    fifoMode := fifoMode
    dataMode := dataMode
    currentWriteMdl := ⟨0, 0⟩
    bytesToWrite := writeMdl.flatten.length
    bytesWritten := 0
    currentReadMdl := ⟨0, 0⟩
    bytesToRead := readMdl.flatten.length
    bytesRead := 0
    writeMdl := writeMdl
    readMdl := readMdl
    cntl0 := computeControlRegisters fifoMode
    txFifo := []
    rxFifo := []
    asked := asked
    out := []
    ins := []
    completed := none }

/-- `EvtSpbIoSequence`, for a write followed by a read -/
def evtSpbIoSequence (platform : Platform) (s : Spi) (dataMode : SpiDataMode)
    (writeMdl readMdl : List (List Byte)) : Spi :=
  let s := s.prepareRequest .sequence .sequenceWrite dataMode writeMdl readMdl
  let s := s.writeMdlToFifo platform
  let s := if s.bytesWritten = s.bytesToWrite then { s with transferState := .sequenceReadInit }
    else s
  { s with doneIrq := true }

/-- `EvtSpbIoOther` (`IOCTL_SPB_FULL_DUPLEX`) -/
def evtSpbIoOther (platform : Platform) (s : Spi) (dataMode : SpiDataMode)
    (writeMdl readMdl : List (List Byte)) : Spi :=
  let s := s.prepareRequest .fullDuplex .fullDuplex dataMode writeMdl readMdl
  let s := s.writeMdlToFifo platform
  { s with doneIrq := true }

/-- `EvtSpbControllerLock` and `EvtSpbControllerUnlock` -/
def controllerLock (s : Spi) (locked : Bool) : Spi := { s with spbControllerLocked := locked }

/-- The controller has shifted an entry out, and `ins` in. A receive FIFO that is full holds
anything afterwards. -/
def shift (s : Spi) (entry : Ulong) (txFifo : List Ulong) (ins : List Bool) (before : Ulong)
    (overflow : List Ulong) : Spi :=
  { s with
    txFifo := txFifo
    rxFifo := if s.rxFifo.length < fifoDepth then s.rxFifo ++ [received before ins] else overflow
    out := s.out ++ s.cntl0.shiftOut s.dataMode.early entry
    ins := s.ins ++ ins }

end Spi

/-! ## Runs -/

/-- The atomic steps. -/
inductive TransferAction
  | sequence (dataMode : SpiDataMode) (writeMdl readMdl : List (List Byte))
  | fullDuplex (dataMode : SpiDataMode) (writeMdl readMdl : List (List Byte))
  | controllerLock (locked : Bool)
  /-- the controller shifts out the next entry -/
  | shift (ins : List Bool) (before : Ulong) (overflow : List Ulong)
  /-- the ISR is called, for this device or another one -/
  | interrupt (stale : List Ulong)
  | dpc

/-- The steps of the controller, the ISR and the DPC. -/
def TransferAction.OfDevice : TransferAction → Prop
  | .sequence .. | .fullDuplex .. | .controllerLock _ => False
  | .shift .. | .interrupt _ | .dpc => True

/-- The MDLs of a transfer: none is empty, and their bytes can be counted in a `ULONG`. -/
def MdlChain (mdl : List (List Byte)) : Prop :=
  (∀ bytes ∈ mdl, bytes ≠ []) ∧ mdl.flatten.length < 4294967296

instance (mdl : List (List Byte)) : Decidable (MdlChain mdl) :=
  inferInstanceAs (Decidable (_ ∧ _))

/-- A transfer is started, and the controller locked, when the one before has been completed. -/
def transferStep (platform : Platform) (s : Spi) : TransferAction → Option Spi
  | .sequence dataMode writeMdl readMdl =>
    if s.transferState = .invalid ∧ MdlChain writeMdl ∧ MdlChain readMdl then
      some (s.evtSpbIoSequence platform dataMode writeMdl readMdl)
    else none
  | .fullDuplex dataMode writeMdl readMdl =>
    if s.transferState = .invalid ∧ MdlChain writeMdl ∧ MdlChain readMdl ∧
        writeMdl.flatten.length = readMdl.flatten.length then
      some (s.evtSpbIoOther platform dataMode writeMdl readMdl)
    else none
  | .controllerLock locked =>
    if s.transferState = .invalid then some (s.controllerLock locked) else none
  | .shift ins before overflow =>
    match s.txFifo with
    | [] => none
    | entry :: txFifo =>
      if ins.length = (s.cntl0.shiftOut s.dataMode.early entry).length ∧
          overflow.length = fifoDepth then
        some (s.shift entry txFifo ins before overflow)
      else none
  | .interrupt stale =>
    if fifoDepth ≤ stale.length then some (s.evtInterruptIsr platform stale) else none
  | .dpc => if s.dpcQueued = true then some s.evtInterruptDpc else none

/-- Between transfers. -/
def Spi.Initial (s : Spi) : Prop :=
  s.transferState = .invalid ∧ s.doneIrq = false ∧ s.dpcQueued = false ∧ s.txFifo = [] ∧
    s.rxFifo = [] ∧ s.completed = none ∧ s.assertFailed = false ∧ s.bytesWritten = 0 ∧
    s.bytesRead = 0 ∧ s.bytesToWrite = 0 ∧ s.bytesToRead = 0 ∧ s.writeMdl = [] ∧ s.readMdl = [] ∧
    s.currentWriteMdl = ⟨0, 0⟩ ∧ s.currentReadMdl = ⟨0, 0⟩ ∧ s.out = [] ∧ s.ins = []

def transferMachine (platform : Platform) : Machine Spi TransferAction where
  init := Spi.Initial
  step := transferStep platform

/-! ## What is asked for -/

namespace Spi

/-- The bytes to go over the wire: behind those of a sequence, zeros while it reads. -/
def wireBytes (s : Spi) : List Byte :=
  s.writeMdl.flatten ++
    match s.asked with
    | .sequence => List.replicate s.bytesToRead 0
    | .fullDuplex => []

/-- How many bytes come in before those that are asked for. -/
def skip (s : Spi) : Nat :=
  match s.asked with
  | .sequence => s.bytesToWrite
  | .fullDuplex => 0

/-- All bytes went over the wire, and what came in for those to be read is in the read chain. -/
structure Finished (s : Spi) : Prop where
  written : s.bytesWritten = s.bytesToWrite
  read : s.bytesRead = s.bytesToRead
  out : s.out = bitsOf s.wireBytes
  received : bitsOf s.readMdl.flatten = s.ins.drop (8 * s.skip)

/-- The bytes still to be queued, and to be read. -/
def left (s : Spi) : Nat := s.bytesToWrite - s.bytesWritten + (s.bytesToRead - s.bytesRead)

/-- The steps between the states: to start the read, with the entries that this queues, and the
DPC. -/
def ahead : TransferState → Nat
  | .sequenceWrite | .sequenceReadInit => 6
  | .sequenceRead | .fullDuplex => 1
  | .invalid | .write | .read => 0

/-- How many steps are still to come, at most: for each byte those of an interrupt with the entries
that it queues. -/
def todo (s : Spi) : Nat := 6 * s.left + s.txFifo.length + ahead s.transferState

/-- A cursor goes with its counter. -/
structure Counted (mdl : List (List Byte)) (cursor : Cursor) (count total : Nat) : Prop where
  within : cursor.Within mdl
  position : cursor.position mdl = count
  length : mdl.flatten.length = total
  le : count ≤ total

end Spi

/-- No assertion has failed. The counters stay in their bounds, and the cursors in their chains,
where the counters say. On the wire are bytes that are asked for, in order, and in the read chain
those that came in. A transfer that is completed went over the wire as a whole. While one is under
way something can be done, and whatever is done leaves less to do. -/
structure TransferSound (platform : Platform) (s : Spi) : Prop where
  asserts : s.assertFailed = false
  write : Spi.Counted s.writeMdl s.currentWriteMdl s.bytesWritten s.bytesToWrite
  read : Spi.Counted s.readMdl s.currentReadMdl s.bytesRead s.bytesToRead
  out : s.out <+: bitsOf s.wireBytes
  received : bitsOf (s.readMdl.flatten.take s.bytesRead) <+: s.ins.drop (8 * s.skip)
  completed : ∀ n, s.completed = some n → s.Finished ∧ n = s.bytesToWrite + s.bytesToRead
  goesOn : s.transferState ≠ .invalid → ∃ a s', transferStep platform s a = some s' ∧ s' ≠ s
  ends : s.transferState ≠ .invalid → ∀ a s', transferStep platform s a = some s' →
    s' = s ∨ s'.todo < s.todo

/-- The lengths that the assertions let pass. -/
def Aligned (platform : Platform) (dataMode : SpiDataMode) (length : Nat) : Prop :=
  length ≠ 0 ∧
    (selectFifoMode dataMode length = .fixed4 → length % platform.sizeofUintPtr = 0)

instance (platform : Platform) (dataMode : SpiDataMode) (length : Nat) :
    Decidable (Aligned platform dataMode length) :=
  inferInstanceAs (Decidable (_ ∧ _))

/-- Transfers are started with such lengths. -/
def AlignedStart (platform : Platform) (_ : Spi) : TransferAction → Prop
  | .sequence dataMode writeMdl readMdl =>
    Aligned platform dataMode writeMdl.flatten.length ∧
      Aligned platform dataMode readMdl.flatten.length
  | .fullDuplex dataMode writeMdl _ => Aligned platform dataMode writeMdl.flatten.length
  | _ => True

instance (platform : Platform) (s : Spi) (a : TransferAction) :
    Decidable (AlignedStart platform s a) := by
  unfold AlignedStart
  split <;> infer_instance

/-! ## The assertions -/

namespace Spi

theorem ntAssert_true {s : Spi} {b : Bool} (h : b = true) : s.ntAssert b = s := by
  rw [ntAssert, h, Bool.not_true, Bool.or_false]

theorem ntAssert_of {s : Spi} {p : Prop} [Decidable p] (h : p) : s.ntAssert (decide p) = s :=
  ntAssert_true (decide_eq_true h)

end Spi

/-- What is left of a transfer passes the assertions of its mode. -/
structure Fit (platform : Platform) (fifoMode : FifoMode) (length : Nat) : Prop where
  takes : fifoMode.Takes length
  aligned : fifoMode = .fixed4 → length % platform.sizeofUintPtr = 0

section

variable {platform : Platform} {fifoMode : FifoMode} {length : Nat}

theorem Aligned.fit {dataMode : SpiDataMode} (h : Aligned platform dataMode length) :
    Fit platform (selectFifoMode dataMode length) length :=
  ⟨selectFifoMode_takes dataMode length, h.2⟩

/-- A full FIFO passes them. -/
theorem Fit.min (h : Fit platform fifoMode length) :
    Fit platform fifoMode (min length (getFifoCapacity fifoMode)) := by
  refine ⟨h.takes.min_capacity, ?_⟩
  rintro rfl
  have haligned := h.aligned rfl
  show Min.min length 16 % _ = 0
  cases platform with
  | arm =>
    have hmod : length % 4 = 0 := haligned
    show Min.min length 16 % 4 = 0
    omega
  | arm64 =>
    have hmod : length % 8 = 0 := haligned
    show Min.min length 16 % 8 = 0
    omega

theorem Fit.sub (h : Fit platform fifoMode length) :
    Fit platform fifoMode (length - Min.min length (getFifoCapacity fifoMode)) := by
  refine ⟨h.takes.sub_capacity, ?_⟩
  rintro rfl
  have haligned := h.aligned rfl
  show (length - Min.min length 16) % _ = 0
  cases platform with
  | arm =>
    have hmod : length % 4 = 0 := haligned
    show (length - Min.min length 16) % 4 = 0
    omega
  | arm64 =>
    have hmod : length % 8 = 0 := haligned
    show (length - Min.min length 16) % 8 = 0
    omega

theorem Fit.writeFifoAsserts (h : Fit platform fifoMode length) (hne : length ≠ 0) :
    writeFifoAsserts platform length fifoMode = true := by
  have htakes := h.takes
  cases fifoMode with
  | fixed4 =>
    have hmod : length % 4 = 0 := htakes
    have hquot : length / 4 ≠ 0 := by omega
    simp [AuxSpi.writeFifoAsserts, assertUlongAligned, hne, h.aligned rfl, hquot]
  | fixed3Shifted =>
    have hmod : length % 3 = 0 := htakes
    simp [AuxSpi.writeFifoAsserts, hne, hmod]
  | variable3 => simp [AuxSpi.writeFifoAsserts, hne]
  | variable2Shifted => simp [AuxSpi.writeFifoAsserts, hne]

theorem Fit.extractAsserts (h : Fit platform fifoMode length) (hne : length ≠ 0)
    (hle : length ≤ getFifoCapacity fifoMode) :
    extractAsserts platform length fifoMode = true := by
  have htakes := h.takes
  cases fifoMode with
  | fixed4 =>
    have hmod : length % 4 = 0 := htakes
    have hcapacity : length ≤ 16 := hle
    have hquot : length / 4 ≠ 0 := by omega
    have hdepth : length / 4 ≤ fifoDepth * 4 := by
      show length / 4 ≤ 16
      omega
    simp [AuxSpi.extractAsserts, assertUlongAligned, h.aligned rfl, hquot, hdepth]
  | fixed3Shifted =>
    have hmod : length % 3 = 0 := htakes
    have hcapacity : length ≤ fifoDepth * 3 := hle
    simp [AuxSpi.extractAsserts, hne, hmod, hcapacity]
  | variable3 =>
    have hcapacity : length ≤ fifoDepth * 3 := hle
    simp [AuxSpi.extractAsserts, hne, hcapacity]
  | variable2Shifted =>
    have hcapacity : length ≤ fifoDepth * 2 := hle
    simp [AuxSpi.extractAsserts, hne, hcapacity]

end

/-! ## Queuing entries -/

/-- The `Write` functions cut the length off at the capacity. -/
theorem writeFifo_min (buffer : List Byte) (length : Nat) (fifoMode : FifoMode) :
    writeFifo buffer length fifoMode =
      writeFifo buffer (min length (getFifoCapacity fifoMode)) fifoMode := by
  cases fifoMode with
  | fixed4 =>
    have hcount : min (length / 4) fifoDepth = min (min length (fifoDepth * 4) / 4) fifoDepth := by
      show min (length / 4) 4 = min (min length 16 / 4) 4
      omega
    simp only [writeFifo, writeFixed4, getFifoCapacity, hcount]
  | variable3 =>
    have hcount :
        min (fifoDepth * 3) (min length (fifoDepth * 3)) = min (fifoDepth * 3) length := by omega
    simp only [writeFifo, writeVariable3, getFifoCapacity, hcount]
  | fixed3Shifted =>
    have hcount :
        min (min length (fifoDepth * 3)) (fifoDepth * 3) = min length (fifoDepth * 3) := by omega
    simp only [writeFifo, writeFixed3Shifted, getFifoCapacity, hcount]
  | variable2Shifted =>
    have hcount :
        min (fifoDepth * 2) (min length (fifoDepth * 2)) = min (fifoDepth * 2) length := by omega
    simp only [writeFifo, writeVariable2Shifted, getFifoCapacity, hcount]

/-- The FIFO holds the entries of as many bytes as its capacity. -/
theorem length_pieces_le {fifoMode : FifoMode} {n : Nat} (h : n ≤ getFifoCapacity fifoMode) :
    (pieces fifoMode.entryBytes n).length ≤ fifoDepth := by
  have hbound : n / fifoMode.entryBytes + (if n % fifoMode.entryBytes = 0 then 0 else 1) ≤ 4 := by
    cases fifoMode with
    | fixed4 =>
      have hle : n ≤ 16 := h
      show n / 4 + (if n % 4 = 0 then 0 else 1) ≤ 4
      split <;> omega
    | variable3 =>
      have hle : n ≤ 12 := h
      show n / 3 + (if n % 3 = 0 then 0 else 1) ≤ 4
      split <;> omega
    | fixed3Shifted =>
      have hle : n ≤ 12 := h
      show n / 3 + (if n % 3 = 0 then 0 else 1) ≤ 4
      split <;> omega
    | variable2Shifted =>
      have hle : n ≤ 8 := h
      show n / 2 + (if n % 2 = 0 then 0 else 1) ≤ 4
      split <;> omega
  rw [pieces, List.length_append, List.length_replicate]
  split at hbound
  · next h0 => rwa [if_pos h0]
  · next h0 => rwa [if_neg h0]

theorem Carries.length_le {cntl0 : Cntl0} {early : Bool} {fifoMode : FifoMode}
    {entries : List Ulong} {bytes : List Byte}
    (h : Carries cntl0 early fifoMode.entryBytes entries bytes)
    (hle : bytes.length ≤ getFifoCapacity fifoMode) : entries.length ≤ fifoDepth := by
  have hlength := congrArg List.length h.widths
  rw [List.length_map, List.length_map] at hlength
  rw [hlength]
  exact length_pieces_le hle

/-- What a call that queues entries for the bytes leaves behind. -/
def Queued (s : Spi) (fifoMode : FifoMode) (bytes : List Byte) (entries : List Ulong) : Prop :=
  Carries (computeControlRegisters fifoMode) s.dataMode.early fifoMode.entryBytes entries bytes

theorem Spi.writeZeros_spec {platform : Platform} {s : Spi} {fifoMode : FifoMode} {maxCount : Nat}
    (hof : fifoMode.Of s.dataMode) (hfit : Fit platform fifoMode maxCount) (hne : maxCount ≠ 0) :
    ∃ entries, Queued s fifoMode
        (List.replicate (min maxCount (getFifoCapacity fifoMode)) 0) entries ∧
      s.writeZeros platform maxCount fifoMode = { s with txFifo := s.txFifo ++ entries } := by
  have hcapacity : min maxCount (getFifoCapacity fifoMode) ≤ fifoDepth * 4 := by
    have hle : getFifoCapacity fifoMode ≤ fifoDepth * 4 := by cases fifoMode <;> decide
    omega
  refine ⟨(writeFifoZeros maxCount fifoMode).1, ?_, ?_⟩
  · have hbuffer : min maxCount (getFifoCapacity fifoMode) ≤
        (List.replicate (fifoDepth * 4) (0 : Byte)).length := by rwa [List.length_replicate]
    obtain ⟨hcount, hcarries⟩ := writeFifo_spec hof hbuffer hfit.takes.min_capacity
    rw [hcount, min_assoc, min_self, List.take_replicate, min_eq_left hcapacity] at hcarries
    rwa [Queued, writeFifoZeros, writeFifo_min]
  · rw [writeZeros, ntAssert_true (hfit.writeFifoAsserts hne)]

/-- What `writeFifoMdl` takes from the write chain, and queues. -/
theorem Spi.writeMdlToFifo_spec {platform : Platform} {s : Spi} (hof : s.fifoMode.Of s.dataMode)
    (hcounted : Counted s.writeMdl s.currentWriteMdl s.bytesWritten s.bytesToWrite)
    (hfit : Fit platform s.fifoMode (s.bytesToWrite - s.bytesWritten))
    (hlt : s.bytesWritten < s.bytesToWrite) :
    ∃ n cursor entries, n = min (s.bytesToWrite - s.bytesWritten) (getFifoCapacity s.fifoMode) ∧
      Queued s s.fifoMode ((s.writeMdl.flatten.drop s.bytesWritten).take n) entries ∧
      Counted s.writeMdl cursor (s.bytesWritten + n) s.bytesToWrite ∧
      s.writeMdlToFifo platform = { s with
        currentWriteMdl := cursor
        bytesWritten := s.bytesWritten + n
        txFifo := s.txFifo ++ entries } := by
  obtain ⟨hwithin, hposition, hlength, -⟩ := hcounted
  have hleft : s.currentWriteMdl.position s.writeMdl + (s.bytesToWrite - s.bytesWritten) =
      s.writeMdl.flatten.length := by omega
  obtain ⟨hcount, hwithin', hposition', hcarries⟩ := writeFifoMdl_spec hof hwithin hleft hfit.takes
  have hcopied : (s.currentWriteMdl.copyFrom s.writeMdl (getFifoCapacity s.fifoMode)).2.length =
      min (s.bytesToWrite - s.bytesWritten) (getFifoCapacity s.fifoMode) := by
    rw [(Cursor.copyFrom_spec s.writeMdl _ hwithin).1, List.length_take, List.length_drop,
      hposition, hlength, min_comm]
  have hcapacity := getFifoCapacity_pos s.fifoMode
  have hmore : ¬ s.currentWriteMdl.AtEnd s.writeMdl := by
    intro hend
    have hpos := Cursor.position_of_atEnd hwithin hend
    omega
  rw [hposition] at hposition' hcarries
  refine ⟨_, _, _, hcount, hcarries, ⟨hwithin', hposition', hlength, by omega⟩, ?_⟩
  rw [writeMdlToFifo, ntAssert_of hmore, hcopied]
  dsimp only
  rw [ntAssert_true (hfit.min.writeFifoAsserts (by omega))]

/-! ## In flight -/

namespace Spi

/-- The bits of an entry on the wire. -/
def wire (s : Spi) (entry : Ulong) : List Bool := s.cntl0.shiftOut s.dataMode.early entry

/-- The bytes from `sent` on have been queued: some of their entries have gone over the wire, the
others are in the transmit FIFO. While reading, what came in for those that are gone is in the
receive FIFO. -/
structure Flight (s : Spi) (fifoMode : FifoMode) (reading : Prop) (sent : Nat)
    (bytes : List Byte) (gone : List Ulong) : Prop where
  cntl0 : s.cntl0 = computeControlRegisters fifoMode
  queued : Queued s fifoMode bytes (gone ++ s.txFifo)
  fits : bytes.length ≤ getFifoCapacity fifoMode
  out : s.out = bitsOf (s.wireBytes.take sent) ++ gone.flatMap s.wire
  le : sent ≤ s.wireBytes.length
  slice : s.wireBytes.take (sent + bytes.length) = s.wireBytes.take sent ++ bytes
  received : reading → ∃ groups, Received groups s.rxFifo ∧ s.ins.drop (8 * sent) = groups.flatten ∧
    groups.map List.length = gone.map fun entry => (s.wire entry).length

variable {s : Spi} {fifoMode : FifoMode} {reading : Prop} {sent : Nat} {bytes : List Byte}
  {gone : List Ulong}

/-- On the wire are bytes that are asked for. -/
theorem Flight.out_prefix (h : s.Flight fifoMode reading sent bytes gone) :
    s.out <+: bitsOf s.wireBytes := by
  have hbits := h.queued.bits
  rw [← h.cntl0, List.flatMap_append] at hbits
  have hall : bitsOf (s.wireBytes.take (sent + bytes.length)) <+: bitsOf s.wireBytes := by
    conv_rhs => rw [← List.take_append_drop (sent + bytes.length) s.wireBytes, bitsOf_append]
    exact List.prefix_append _ _
  refine List.IsPrefix.trans ?_ hall
  rw [h.out, h.slice, bitsOf_append, ← hbits, List.prefix_append_right_inj]
  exact List.prefix_append _ _

/-- When the transmit FIFO is empty, all of them are gone. -/
theorem Flight.out_of_idle (h : s.Flight fifoMode reading sent bytes gone) (htx : s.txFifo = []) :
    s.out = bitsOf (s.wireBytes.take (sent + bytes.length)) := by
  have hbits := h.queued.bits
  rw [← h.cntl0, htx, List.append_nil] at hbits
  rw [h.out, h.slice, bitsOf_append, ← hbits]
  rfl

theorem Flight.length_out_of_idle (h : s.Flight fifoMode reading sent bytes gone)
    (htx : s.txFifo = []) : s.out.length = 8 * (sent + bytes.length) := by
  rw [h.out_of_idle htx, length_bitsOf, h.slice, List.length_append, List.length_take_of_le h.le]

/-- What came in is as long as what went out. -/
theorem Flight.le_ins (h : s.Flight fifoMode reading sent bytes gone)
    (hins : s.ins.length = s.out.length) : 8 * sent ≤ s.ins.length := by
  rw [hins, h.out, List.length_append, length_bitsOf, List.length_take_of_le h.le]
  exact Nat.le_add_right _ _

theorem Flight.length_rxFifo (h : s.Flight fifoMode reading sent bytes gone) (hreading : reading) :
    s.rxFifo.length ≤ fifoDepth := by
  obtain ⟨groups, hreceived, -, hlengths⟩ := h.received hreading
  have hle := h.queued.length_le h.fits
  have hcount := congrArg List.length hlengths
  rw [List.length_map, List.length_map, hreceived.length_eq] at hcount
  rw [List.length_append] at hle
  omega

/-- What is extracted from the receive FIFO is what came in. -/
theorem Flight.extract (h : s.Flight fifoMode reading sent bytes gone) (hreading : reading)
    (htx : s.txFifo = []) (htakes : fifoMode.Takes bytes.length) (stale : List Ulong) :
    bitsOf (extractFifoBuffer ((s.rxFifo ++ stale).take fifoDepth) bytes.length fifoMode) =
      s.ins.drop (8 * sent) := by
  obtain ⟨groups, hreceived, hins, hlengths⟩ := h.received hreading
  have hqueued := h.queued
  rw [htx, List.append_nil] at hqueued
  have hsizes : groups.map List.length =
      (pieces fifoMode.entryBytes bytes.length).map (8 * ·) := by
    rw [hlengths, ← hqueued.widths, ← h.cntl0]
    rfl
  rw [List.take_append, List.take_of_length_le (h.length_rxFifo hreading),
    extract_received htakes hreceived hsizes, hins]

theorem Flight.length_extract (h : s.Flight fifoMode reading sent bytes gone) (hreading : reading)
    (htx : s.txFifo = []) (hins : s.ins.length = s.out.length)
    (htakes : fifoMode.Takes bytes.length) (stale : List Ulong) :
    (extractFifoBuffer ((s.rxFifo ++ stale).take fifoDepth) bytes.length fifoMode).length =
      bytes.length := by
  have hlength := congrArg List.length (h.extract hreading htx htakes stale)
  rw [length_bitsOf, List.length_drop, hins, h.length_out_of_idle htx] at hlength
  omega

/-- A chunk has been queued. -/
theorem flight_start (hcntl0 : s.cntl0 = computeControlRegisters fifoMode)
    (hqueued : Queued s fifoMode bytes s.txFifo) (hfits : bytes.length ≤ getFifoCapacity fifoMode)
    (hout : s.out = bitsOf (s.wireBytes.take sent)) (hle : sent ≤ s.wireBytes.length)
    (hbytes : (s.wireBytes.drop sent).take bytes.length = bytes)
    (hins : s.ins.length = s.out.length) (hrx : reading → s.rxFifo = []) :
    s.Flight fifoMode reading sent bytes [] where
  cntl0 := hcntl0
  queued := hqueued
  fits := hfits
  out := by rw [hout, List.flatMap_nil, List.append_nil]
  le := hle
  slice := by rw [List.take_add, hbytes]
  received := by
    intro hreading
    have hlength : s.ins.length = 8 * sent := by
      rw [hins, hout, length_bitsOf, List.length_take_of_le hle]
    refine ⟨[], ?_, ?_, rfl⟩
    · rw [hrx hreading]
      exact .nil
    · rw [← hlength, List.drop_length]
      rfl

/-- **The controller shifts out an entry.** -/
theorem Flight.shift (h : s.Flight fifoMode reading sent bytes gone) {entry : Ulong}
    {txFifo : List Ulong} (htx : s.txFifo = entry :: txFifo) {ins : List Bool}
    (hins : s.ins.length = s.out.length) (hlength : ins.length = (s.wire entry).length)
    (before : Ulong) (overflow : List Ulong) :
    (s.shift entry txFifo ins before overflow).Flight fifoMode reading sent bytes
      (gone ++ [entry]) where
  cntl0 := h.cntl0
  queued := by
    have hqueued := h.queued
    rw [htx] at hqueued
    show Queued s fifoMode bytes (gone ++ [entry] ++ txFifo)
    rwa [List.append_assoc]
  fits := h.fits
  out := by
    show s.out ++ s.wire entry = _
    rw [h.out, List.append_assoc, List.flatMap_append, List.flatMap_singleton]
    rfl
  le := h.le
  slice := h.slice
  received := by
    intro hreading
    obtain ⟨groups, hreceived, hdrop, hlengths⟩ := h.received hreading
    have hqueued := h.queued
    rw [htx] at hqueued
    have hroom : s.rxFifo.length < fifoDepth := by
      have hle := hqueued.length_le h.fits
      have hgroups := congrArg List.length hlengths
      rw [List.length_map, List.length_map, hreceived.length_eq] at hgroups
      rw [List.length_append, List.length_cons] at hle
      omega
    refine ⟨groups ++ [ins], ?_, ?_, ?_⟩
    · show Received _ (if s.rxFifo.length < fifoDepth then _ else _)
      rw [if_pos hroom]
      exact List.rel_append hreceived (.cons ⟨before, rfl⟩ .nil)
    · show (s.ins ++ ins).drop (8 * sent) = _
      rw [List.flatten_append, List.flatten_singleton, ← hdrop,
        List.drop_append_of_le_length (h.le_ins hins)]
    · rw [List.map_append, List.map_append, hlengths, List.map_singleton, List.map_singleton,
        hlength]
      rfl

/-! ## Reading -/

/-- What has been extracted goes to the read chain, behind what is there. -/
theorem copyToReadMdl_spec {bytes' : List Byte}
    (hcounted : Counted s.readMdl s.currentReadMdl s.bytesRead s.bytesToRead)
    (hroom : s.bytesRead + bytes'.length ≤ s.bytesToRead) (hlt : s.bytesRead < s.bytesToRead)
    (hreceived : bitsOf (s.readMdl.flatten.take s.bytesRead) <+: s.ins.drop (8 * s.skip))
    (hins : bitsOf bytes' = s.ins.drop (8 * (s.skip + s.bytesRead))) :
    ∃ cursor readMdl, Counted readMdl cursor (s.bytesRead + bytes'.length) s.bytesToRead ∧
      bitsOf (readMdl.flatten.take (s.bytesRead + bytes'.length)) = s.ins.drop (8 * s.skip) ∧
      s.copyToReadMdl bytes' = ({ s with
        currentReadMdl := cursor
        readMdl := readMdl }, bytes'.length) := by
  obtain ⟨hwithin, hposition, hlength, -⟩ := hcounted
  have hmore : ¬ s.currentReadMdl.AtEnd s.readMdl := by
    intro hend
    have hpos := Cursor.position_of_atEnd hwithin hend
    omega
  obtain ⟨hflatten, hshape, hcount, hwithin', hposition'⟩ :=
    Cursor.copyTo_spec bytes' hwithin (by omega)
  obtain ⟨hsame, hpos⟩ := hshape.cursor
    (Cursor.copyTo s.readMdl s.currentReadMdl bytes').1
  have htotal := hshape.length_flatten
  refine ⟨_, _, ⟨hsame.2 hwithin', ?_, by omega, hroom⟩, ?_, ?_⟩
  · rw [hpos, hposition', hposition]
  · have hfront : (s.readMdl.flatten.take s.bytesRead ++ bytes').length =
        s.bytesRead + bytes'.length := by
      rw [List.length_append, List.length_take]
      omega
    obtain ⟨rest, hrest⟩ := hreceived
    have hbefore : (bitsOf (s.readMdl.flatten.take s.bytesRead)).length = 8 * s.bytesRead := by
      rw [length_bitsOf, List.length_take_of_le (by omega)]
    rw [Nat.mul_add, ← List.drop_drop, ← hrest, List.drop_left' hbefore] at hins
    rw [hflatten, hposition, List.take_left' hfront, bitsOf_append, hins, hrest]
  · rw [copyToReadMdl, ntAssert_of hmore]
    exact Prod.ext rfl hcount

end Spi

/-! ## The phases of a transfer -/

/-- A transfer is under way, with the interrupt enabled. -/
structure Busy (s : Spi) : Prop where
  doneIrq : s.doneIrq = true
  dpcQueued : s.dpcQueued = false
  completed : s.completed = none
  mode : s.fifoMode.Of s.dataMode

/-- Where a transfer is. -/
inductive Phase (platform : Platform) (s : Spi) : Prop
  | idle (hstate : s.transferState = .invalid) (htx : s.txFifo = []) (hirq : s.doneIrq = false)
      (hdpc : s.dpcQueued = false) (hout : s.out <+: bitsOf s.wireBytes)
      (hcompleted : ∀ n, s.completed = some n →
        s.Finished ∧ n = s.bytesToWrite + s.bytesToRead)
  | writing {sent : Nat} {bytes : List Byte} {gone : List Ulong} (hbusy : Busy s)
      (hstate : s.transferState =
        if s.bytesWritten = s.bytesToWrite then .sequenceReadInit else .sequenceWrite)
      (hasked : s.asked = .sequence) (hread : s.bytesRead = 0)
      (hflight : s.Flight s.fifoMode False sent bytes gone)
      (hqueued : sent + bytes.length = s.bytesWritten)
      (hfit : Fit platform s.fifoMode (s.bytesToWrite - s.bytesWritten))
      (hnext : Aligned platform s.dataMode s.bytesToRead)
  | reading {bytes : List Byte} {gone : List Ulong} (hbusy : Busy s)
      (hstate : s.transferState = .sequenceRead) (hasked : s.asked = .sequence)
      (hwritten : s.bytesWritten = s.bytesToWrite)
      (hflight : s.Flight s.fifoMode True (s.skip + s.bytesRead) bytes gone)
      (hlength : bytes.length = min (s.bytesToRead - s.bytesRead) (getFifoCapacity s.fifoMode))
      (hfit : Fit platform s.fifoMode (s.bytesToRead - s.bytesRead))
      (hlt : s.bytesRead < s.bytesToRead)
  | fullDuplex {bytes : List Byte} {gone : List Ulong} (hbusy : Busy s)
      (hstate : s.transferState = .fullDuplex) (hasked : s.asked = .fullDuplex)
      (htotal : s.bytesToWrite = s.bytesToRead)
      (hflight : s.Flight s.fifoMode True (s.skip + s.bytesRead) bytes gone)
      (hlength : bytes.length = min (s.bytesToRead - s.bytesRead) (getFifoCapacity s.fifoMode))
      (hqueued : s.bytesRead + bytes.length = s.bytesWritten)
      (hfit : Fit platform s.fifoMode (s.bytesToRead - s.bytesRead))
      (hlt : s.bytesRead < s.bytesToRead)
  /-- CS may still have to be deasserted, and the DPC is to come -/
  | finishing (hstate : s.transferState = .sequenceRead ∨ s.transferState = .fullDuplex)
      (hirq : s.doneIrq = false) (hdpc : s.dpcQueued = true) (hcompleted : s.completed = none)
      (hfinished : s.Finished) (hquiet : ∀ entry ∈ s.txFifo, s.wire entry = [])
      (hduplex : s.transferState = .fullDuplex → s.bytesWritten = s.bytesRead)

/-- The invariant. -/
structure TransferInv (platform : Platform) (s : Spi) : Prop where
  asserts : s.assertFailed = false
  write : Spi.Counted s.writeMdl s.currentWriteMdl s.bytesWritten s.bytesToWrite
  read : Spi.Counted s.readMdl s.currentReadMdl s.bytesRead s.bytesToRead
  ins : s.ins.length = s.out.length
  received : bitsOf (s.readMdl.flatten.take s.bytesRead) <+: s.ins.drop (8 * s.skip)
  phase : Phase platform s

/-! ## The bytes on the wire -/

namespace Spi

variable {platform : Platform} {s : Spi}

theorem le_length_wireBytes (hlength : s.writeMdl.flatten.length = s.bytesToWrite) :
    s.bytesToWrite ≤ s.wireBytes.length := by
  rw [wireBytes, List.length_append]
  omega

/-- First those of the write chain. -/
theorem slice_write (hlength : s.writeMdl.flatten.length = s.bytesToWrite) {i n : Nat}
    (hle : i + n ≤ s.bytesToWrite) :
    (s.wireBytes.drop i).take n = (s.writeMdl.flatten.drop i).take n := by
  rw [wireBytes, List.drop_append_of_le_length (by omega),
    List.take_append_of_le_length (by rw [List.length_drop]; omega)]

theorem length_slice_write (hlength : s.writeMdl.flatten.length = s.bytesToWrite) {i n : Nat}
    (hle : i + n ≤ s.bytesToWrite) : ((s.writeMdl.flatten.drop i).take n).length = n := by
  rw [List.length_take, List.length_drop]
  omega

/-- Then the zeros. -/
theorem slice_zeros (hasked : s.asked = .sequence)
    (hlength : s.writeMdl.flatten.length = s.bytesToWrite) {i n : Nat}
    (hle : i + n ≤ s.bytesToRead) :
    (s.wireBytes.drop (s.bytesToWrite + i)).take n = List.replicate n 0 := by
  rw [wireBytes, hasked, ← List.drop_drop, List.drop_left' hlength, List.drop_replicate,
    List.take_replicate]
  congr 1
  omega

theorem length_wireBytes_sequence (hasked : s.asked = .sequence)
    (hlength : s.writeMdl.flatten.length = s.bytesToWrite) :
    s.wireBytes.length = s.bytesToWrite + s.bytesToRead := by
  rw [wireBytes, hasked, List.length_append, List.length_replicate, hlength]

theorem length_wireBytes_fullDuplex (hasked : s.asked = .fullDuplex)
    (hlength : s.writeMdl.flatten.length = s.bytesToWrite) :
    s.wireBytes.length = s.bytesToWrite := by
  rw [wireBytes, hasked, List.append_nil, hlength]

/-! ## The write of a sequence -/

/-- The state behind a call of `writeFifoMdl` in a sequence. -/
def wrote (s : Spi) (cursor : Cursor) (n : Nat) (entries : List Ulong) : Spi :=
  { s with
    currentWriteMdl := cursor
    bytesWritten := s.bytesWritten + n
    txFifo := entries
    transferState :=
      if s.bytesWritten + n = s.bytesToWrite then .sequenceReadInit else .sequenceWrite }

/-- **A chunk of the write.** -/
theorem inv_wrote {cursor : Cursor} {n : Nat} {entries : List Ulong}
    (hasserts : s.assertFailed = false)
    (hcounted : Counted s.readMdl s.currentReadMdl 0 s.bytesToRead)
    (hins : s.ins.length = s.out.length) (hbusy : Busy s) (hasked : s.asked = .sequence)
    (hread : s.bytesRead = 0) (hcntl0 : s.cntl0 = computeControlRegisters s.fifoMode)
    (hout : s.out = bitsOf (s.wireBytes.take s.bytesWritten))
    (hfit : Fit platform s.fifoMode (s.bytesToWrite - s.bytesWritten))
    (hnext : Aligned platform s.dataMode s.bytesToRead)
    (hn : n = min (s.bytesToWrite - s.bytesWritten) (getFifoCapacity s.fifoMode))
    (hqueued : Queued s s.fifoMode ((s.writeMdl.flatten.drop s.bytesWritten).take n) entries)
    (hwrite : Counted s.writeMdl cursor (s.bytesWritten + n) s.bytesToWrite) :
    TransferInv platform (s.wrote cursor n entries) where
  asserts := hasserts
  write := hwrite
  read := by
    show Counted s.readMdl s.currentReadMdl s.bytesRead s.bytesToRead
    rwa [hread]
  ins := hins
  received := by
    show bitsOf (s.readMdl.flatten.take s.bytesRead) <+: _
    rw [hread]
    exact List.nil_prefix
  phase := by
    have hbytes := length_slice_write hwrite.length hwrite.le
    have hslice := slice_write hwrite.length hwrite.le
    have hflight : (s.wrote cursor n entries).Flight s.fifoMode False s.bytesWritten
        ((s.writeMdl.flatten.drop s.bytesWritten).take n) [] := by
      refine flight_start hcntl0 hqueued (by omega) hout ?_ ?_ hins False.elim
      · exact (Nat.le_of_add_right_le hwrite.le).trans (le_length_wireBytes hwrite.length)
      · rw [hbytes]
        exact hslice
    refine .writing ⟨hbusy.doneIrq, hbusy.dpcQueued, hbusy.completed, hbusy.mode⟩ rfl hasked hread
      hflight (by rw [hbytes]; rfl) ?_ hnext
    have hrest := hfit.sub
    rwa [← hn, Nat.sub_sub] at hrest

/-- An interrupt that handles a byte leaves less to do, whatever it queues. -/
theorem todo_lt {s' : Spi} (hleft : s'.left < s.left) (htx : s'.txFifo.length ≤ 5)
    (hahead : ahead s'.transferState ≤ ahead s.transferState) : s'.todo < s.todo := by
  rw [todo, todo]
  omega

/-- **The ISR in the state `SEQUENCE_WRITE`.** -/
theorem isrSequenceWrite_step (h : TransferInv platform s) {sent : Nat} {bytes : List Byte}
    {gone : List Ulong} (hbusy : Busy s) (hstate : s.transferState = .sequenceWrite)
    (hlt : s.bytesWritten < s.bytesToWrite) (hasked : s.asked = .sequence) (hread : s.bytesRead = 0)
    (hflight : s.Flight s.fifoMode False sent bytes gone)
    (hqueued : sent + bytes.length = s.bytesWritten)
    (hfit : Fit platform s.fifoMode (s.bytesToWrite - s.bytesWritten))
    (hnext : Aligned platform s.dataMode s.bytesToRead) (htx : s.txFifo = []) :
    TransferInv platform (s.isrSequenceWrite platform) ∧
      (s.isrSequenceWrite platform).todo < s.todo := by
  obtain ⟨n, cursor, entries, hn, hentries, hcounted, heq⟩ :=
    writeMdlToFifo_spec hbusy.mode h.write hfit hlt
  have hcapacity := getFifoCapacity_pos s.fifoMode
  have hstep : s.isrSequenceWrite platform = s.wrote cursor n entries := by
    have hmoved : s.bytesWritten + n > s.bytesWritten := by omega
    rw [isrSequenceWrite, ntAssert_of hlt, heq, ntAssert_of hmoved, htx, List.nil_append, wrote]
    by_cases hall : s.bytesWritten + n = s.bytesToWrite
    · rw [if_pos hall, if_pos hall]
    · rw [if_neg hall, if_neg hall, ← hstate]
  have hout := hflight.out_of_idle htx
  rw [hqueued] at hout
  have hcountedRead := h.read
  rw [hread] at hcountedRead
  rw [hstep]
  constructor
  · exact inv_wrote h.asserts hcountedRead h.ins hbusy hasked hread hflight.cntl0 hout hfit hnext hn
      hentries hcounted
  · have hlength := hentries.length_le (by
      rw [length_slice_write hcounted.length hcounted.le]
      omega)
    refine todo_lt ?_ (hlength.trans (by decide)) ?_
    · have hle := hcounted.le
      show s.bytesToWrite - (s.bytesWritten + n) + (s.bytesToRead - s.bytesRead) <
        s.bytesToWrite - s.bytesWritten + (s.bytesToRead - s.bytesRead)
      omega
    · show ahead (if s.bytesWritten + n = s.bytesToWrite then .sequenceReadInit
        else .sequenceWrite) ≤ _
      rw [hstate]
      split <;> exact Nat.le_refl _

/-! ## The read of a sequence -/

/-- A chunk of zeros has been queued to read. -/
theorem inv_reading {entries : List Ulong} (hasserts : s.assertFailed = false)
    (hwrite : Counted s.writeMdl s.currentWriteMdl s.bytesWritten s.bytesToWrite)
    (hread : Counted s.readMdl s.currentReadMdl s.bytesRead s.bytesToRead)
    (hins : s.ins.length = s.out.length)
    (hreceived : bitsOf (s.readMdl.flatten.take s.bytesRead) <+: s.ins.drop (8 * s.skip))
    (hbusy : Busy s) (hstate : s.transferState = .sequenceRead) (hasked : s.asked = .sequence)
    (hwritten : s.bytesWritten = s.bytesToWrite)
    (hcntl0 : s.cntl0 = computeControlRegisters s.fifoMode) (htx : s.txFifo = entries)
    (hrx : s.rxFifo = []) (hout : s.out = bitsOf (s.wireBytes.take (s.bytesToWrite + s.bytesRead)))
    (hfit : Fit platform s.fifoMode (s.bytesToRead - s.bytesRead))
    (hlt : s.bytesRead < s.bytesToRead)
    (hqueued : Queued s s.fifoMode
      (List.replicate (min (s.bytesToRead - s.bytesRead) (getFifoCapacity s.fifoMode)) 0) entries) :
    TransferInv platform s where
  asserts := hasserts
  write := hwrite
  read := hread
  ins := hins
  received := hreceived
  phase := by
    subst htx
    have hskip : s.skip = s.bytesToWrite := by rw [skip, hasked]
    have htotal := length_wireBytes_sequence hasked hwrite.length
    rw [← hskip] at hout
    refine .reading hbusy hstate hasked hwritten (flight_start hcntl0 hqueued ?_ hout ?_ ?_ hins
      fun _ => hrx) List.length_replicate hfit hlt
    · rw [List.length_replicate]
      exact Nat.min_le_right _ _
    · omega
    · rw [List.length_replicate, hskip, slice_zeros hasked hwrite.length (by omega)]

/-- **The ISR in the state `SEQUENCE_READ_INIT`.** -/
theorem isrSequenceReadInit_step (h : TransferInv platform s) {sent : Nat} {bytes : List Byte}
    {gone : List Ulong} (hbusy : Busy s) (hstate : s.transferState = .sequenceReadInit)
    (hwritten : s.bytesWritten = s.bytesToWrite) (hasked : s.asked = .sequence)
    (hread : s.bytesRead = 0) (hflight : s.Flight s.fifoMode False sent bytes gone)
    (hqueued : sent + bytes.length = s.bytesWritten)
    (hnext : Aligned platform s.dataMode s.bytesToRead) (htx : s.txFifo = []) :
    TransferInv platform (s.isrSequenceReadInit platform) ∧
      (s.isrSequenceReadInit platform).todo < s.todo := by
  have hfit : Fit platform (selectFifoMode s.dataMode s.bytesToRead) s.bytesToRead := hnext.fit
  have hof := selectFifoMode_of s.dataMode s.bytesToRead
  generalize hmode : selectFifoMode s.dataMode s.bytesToRead = fifoMode at hfit hof
  -- zeros are queued to clock in the first chunk
  obtain ⟨entries, hentries, heq⟩ := writeZeros_spec (s := { s with
    txFifo := []
    rxFifo := []
    cntl0 := computeControlRegisters fifoMode }) hof hfit hnext.1
  have hcapacity := getFifoCapacity_pos fifoMode
  have hstep : s.isrSequenceReadInit platform = { s with
      txFifo := entries
      rxFifo := []
      cntl0 := computeControlRegisters fifoMode
      fifoMode := fifoMode
      transferState := .sequenceRead } := by
    rw [isrSequenceReadInit, ntAssert_of hwritten, ntAssert_of hread, hmode]
    dsimp only
    rw [heq]
    rfl
  have hout := hflight.out_of_idle htx
  rw [hqueued, hwritten] at hout
  rw [hstep]
  constructor
  · refine inv_reading h.asserts h.write h.read h.ins h.received
      ⟨hbusy.doneIrq, hbusy.dpcQueued, hbusy.completed, hof⟩ rfl hasked hwritten rfl rfl rfl
      ?_ ?_ ?_ ?_
    · show s.out = bitsOf (s.wireBytes.take (s.bytesToWrite + s.bytesRead))
      rw [hout, hread, Nat.add_zero]
    · show Fit platform fifoMode (s.bytesToRead - s.bytesRead)
      rwa [hread, Nat.sub_zero]
    · show s.bytesRead < s.bytesToRead
      rw [hread]
      exact Nat.pos_of_ne_zero hnext.1
    · show Queued s fifoMode (List.replicate
        (min (s.bytesToRead - s.bytesRead) (getFifoCapacity fifoMode)) 0) entries
      rw [hread, Nat.sub_zero]
      exact hentries
  · have hlength := hentries.length_le (by
      rw [List.length_replicate]
      exact Nat.min_le_right _ _)
    rw [todo, todo, hstate]
    show 6 * s.left + entries.length + 1 < 6 * s.left + _ + 6
    have hdepth : fifoDepth = 4 := rfl
    omega

/-! ## The end -/

/-- **All bytes have been read**: the interrupt is disabled, and CS deasserted. -/
theorem inv_isrFinish (hasserts : s.assertFailed = false)
    (hwrite : Counted s.writeMdl s.currentWriteMdl s.bytesWritten s.bytesToWrite)
    (hread : Counted s.readMdl s.currentReadMdl s.bytesRead s.bytesToRead)
    (hins : s.ins.length = s.out.length) (hcompleted : s.completed = none)
    (hstate : s.transferState = .sequenceRead ∨ s.transferState = .fullDuplex)
    (hduplex : s.transferState = .fullDuplex → s.bytesWritten = s.bytesRead)
    (hfinished : s.Finished) (htx : s.txFifo = []) : TransferInv platform s.isrFinish := by
  have hreceived : bitsOf (s.readMdl.flatten.take s.bytesRead) <+: s.ins.drop (8 * s.skip) := by
    rw [hfinished.read, ← hread.length, List.take_length]
    exact ⟨[], (List.append_nil _).trans hfinished.received⟩
  cases hlocked : s.spbControllerLocked with
  | true =>
    rw [isrFinish]
    simp only [hlocked, if_true]
    refine ⟨hasserts, hwrite, hread, hins, hreceived, .finishing hstate rfl rfl hcompleted
      ⟨hfinished.written, hfinished.read, hfinished.out, hfinished.received⟩ ?_ hduplex⟩
    intro entry hentry
    rw [show _ = [] from htx] at hentry
    cases hentry
  | false =>
    rw [isrFinish]
    simp only [hlocked]
    refine ⟨hasserts, hwrite, hread, hins, hreceived, .finishing hstate rfl rfl hcompleted
      ⟨hfinished.written, hfinished.read, hfinished.out, hfinished.received⟩ ?_ hduplex⟩
    intro entry _
    rfl

theorem todo_isrFinish_lt {s' : Spi} (htx : s'.txFifo = []) (hleft : s'.left < s.left)
    (hahead : ahead s'.transferState ≤ ahead s.transferState) : s'.isrFinish.todo < s.todo := by
  rw [isrFinish]
  dsimp only
  split
  · refine todo_lt hleft ?_ hahead
    rw [htx]
    exact Nat.zero_le 5
  · refine todo_lt hleft ?_ hahead
    rw [htx]
    exact Nat.succ_le_succ (Nat.zero_le 4)

/-- The state behind an interrupt that reads a chunk. -/
def readOn (s : Spi) (entries : List Ulong) (cursor : Cursor) (readMdl : List (List Byte))
    (n : Nat) : Spi :=
  { s with
    txFifo := entries
    rxFifo := []
    currentReadMdl := cursor
    readMdl := readMdl
    bytesRead := s.bytesRead + n }

/-- **The ISR in the state `SEQUENCE_READ`.** -/
theorem isrSequenceRead_step (h : TransferInv platform s) (stale : List Ulong)
    {bytes : List Byte} {gone : List Ulong} (hbusy : Busy s)
    (hstate : s.transferState = .sequenceRead) (hasked : s.asked = .sequence)
    (hwritten : s.bytesWritten = s.bytesToWrite)
    (hflight : s.Flight s.fifoMode True (s.skip + s.bytesRead) bytes gone)
    (hlength : bytes.length = min (s.bytesToRead - s.bytesRead) (getFifoCapacity s.fifoMode))
    (hfit : Fit platform s.fifoMode (s.bytesToRead - s.bytesRead))
    (hlt : s.bytesRead < s.bytesToRead) (htx : s.txFifo = []) :
    TransferInv platform (s.isrSequenceRead platform stale) ∧
      (s.isrSequenceRead platform stale).todo < s.todo := by
  have hcapacity := getFifoCapacity_pos s.fifoMode
  have hfitNow := hfit.min
  have hfitNext := hfit.sub
  rw [← hlength] at hfitNow hfitNext
  have hextract := hflight.extract trivial htx hfitNow.takes stale
  have hcount := hflight.length_extract trivial htx h.ins hfitNow.takes stale
  have hrx : s.rxFifo.drop fifoDepth = [] :=
    List.drop_eq_nil_of_le (hflight.length_rxFifo trivial)
  -- the next chunk is queued, if there is one
  obtain ⟨entries, hentries, hnone, hzeros⟩ : ∃ entries,
      (s.bytesToRead - s.bytesRead - bytes.length ≠ 0 → Queued s s.fifoMode (List.replicate
        (min (s.bytesToRead - s.bytesRead - bytes.length) (getFifoCapacity s.fifoMode)) 0)
          entries) ∧
      (s.bytesToRead - s.bytesRead - bytes.length = 0 → entries = []) ∧
      (if s.bytesToRead - s.bytesRead - bytes.length ≠ 0 then
        (s.readEntries stale).1.writeZeros platform (s.bytesToRead - s.bytesRead - bytes.length)
          s.fifoMode else (s.readEntries stale).1) =
        { s with
          txFifo := entries
          rxFifo := [] } := by
    by_cases hmore : s.bytesToRead - s.bytesRead - bytes.length = 0
    · refine ⟨[], fun hne => absurd hmore hne, fun _ => rfl, ?_⟩
      rw [if_neg (not_not_intro hmore), readEntries, hrx, ← htx]
    · obtain ⟨entries, hqueued, heq⟩ :=
        writeZeros_spec (s := (s.readEntries stale).1) hbusy.mode hfitNext hmore
      refine ⟨entries, fun _ => hqueued, fun hzero => absurd hzero hmore, ?_⟩
      rw [if_pos hmore, heq, readEntries, hrx, htx, List.nil_append]
  obtain ⟨cursor, readMdl, hcounted, hreceived, hcopy⟩ := copyToReadMdl_spec (s := { s with
    txFifo := entries
    rxFifo := [] }) h.read (by rw [hcount]; show s.bytesRead + bytes.length ≤ s.bytesToRead; omega)
    hlt h.received hextract
  rw [hcount] at hcounted hreceived hcopy
  have hstep : s.isrSequenceRead platform stale =
      if s.bytesRead + bytes.length = s.bytesToRead then
        (s.readOn entries cursor readMdl bytes.length).isrFinish
      else s.readOn entries cursor readMdl bytes.length := by
    rw [isrSequenceRead, ntAssert_of hlt, ntAssert_of hwritten,
      ntAssert_of (by omega : s.bytesToRead - s.bytesRead ≠ 0)]
    dsimp only
    rw [show (s.readEntries stale).1.fifoMode = s.fifoMode from rfl, ← hlength, hzeros]
    dsimp only
    rw [ntAssert_true (hfitNow.extractAsserts (by omega) hflight.fits)]
    dsimp only
    rw [show (s.readEntries stale).2 = (s.rxFifo ++ stale).take fifoDepth from rfl, hcopy]
    dsimp only
    rw [ntAssert_of (by omega)]
    rfl
  have hout := hflight.out_of_idle htx
  have hskip : s.skip = s.bytesToWrite := by rw [skip, hasked]
  have htotal := length_wireBytes_sequence hasked h.write.length
  rw [hstep]
  by_cases hall : s.bytesRead + bytes.length = s.bytesToRead
  · rw [if_pos hall]
    have hempty : (s.readOn entries cursor readMdl bytes.length).txFifo = [] := hnone (by omega)
    constructor
    · refine inv_isrFinish h.asserts h.write hcounted h.ins hbusy.completed (.inl hstate) ?_
        ⟨hwritten, hall, ?_, ?_⟩ hempty
      · intro hduplex
        have hne : s.transferState = .fullDuplex := hduplex
        rw [hstate] at hne
        cases hne
      · rw [List.take_of_length_le (by omega)] at hout
        exact hout
      · rw [hall, ← hcounted.length, List.take_length] at hreceived
        exact hreceived
    · refine todo_isrFinish_lt hempty ?_ (Nat.le_refl _)
      show s.bytesToWrite - s.bytesWritten + (s.bytesToRead - (s.bytesRead + bytes.length)) <
        s.bytesToWrite - s.bytesWritten + (s.bytesToRead - s.bytesRead)
      omega
  · rw [if_neg hall]
    have hle := hcounted.le
    have hmore : s.bytesToRead - s.bytesRead - bytes.length ≠ 0 := by omega
    have hqueued := hentries hmore
    rw [Nat.sub_sub] at hfitNext hqueued
    constructor
    · refine inv_reading h.asserts h.write hcounted h.ins (hreceived ▸ List.prefix_refl _)
        ⟨hbusy.doneIrq, hbusy.dpcQueued, hbusy.completed, hbusy.mode⟩ hstate hasked hwritten
        hflight.cntl0 rfl rfl ?_ hfitNext ?_ hqueued
      · rw [hskip, Nat.add_assoc] at hout
        exact hout
      · show s.bytesRead + bytes.length < s.bytesToRead
        omega
    · have hfifo := hqueued.length_le (by
        rw [List.length_replicate]
        exact Nat.min_le_right _ _)
      refine todo_lt ?_ (hfifo.trans (by decide)) (Nat.le_refl _)
      show s.bytesToWrite - s.bytesWritten + (s.bytesToRead - (s.bytesRead + bytes.length)) <
        s.bytesToWrite - s.bytesWritten + (s.bytesToRead - s.bytesRead)
      omega

/-! ## Full duplex -/

/-- A chunk has been queued to be written and read. -/
theorem inv_fullDuplex {bytes : List Byte} (hasserts : s.assertFailed = false)
    (hwrite : Counted s.writeMdl s.currentWriteMdl s.bytesWritten s.bytesToWrite)
    (hread : Counted s.readMdl s.currentReadMdl s.bytesRead s.bytesToRead)
    (hins : s.ins.length = s.out.length)
    (hreceived : bitsOf (s.readMdl.flatten.take s.bytesRead) <+: s.ins.drop (8 * s.skip))
    (hbusy : Busy s) (hstate : s.transferState = .fullDuplex) (hasked : s.asked = .fullDuplex)
    (htotal : s.bytesToWrite = s.bytesToRead)
    (hcntl0 : s.cntl0 = computeControlRegisters s.fifoMode)
    (hrx : s.rxFifo = []) (hout : s.out = bitsOf (s.wireBytes.take s.bytesRead))
    (hfit : Fit platform s.fifoMode (s.bytesToRead - s.bytesRead))
    (hlt : s.bytesRead < s.bytesToRead)
    (hbytes : bytes = (s.writeMdl.flatten.drop s.bytesRead).take
      (min (s.bytesToRead - s.bytesRead) (getFifoCapacity s.fifoMode)))
    (hnow : s.bytesWritten = s.bytesRead +
      min (s.bytesToRead - s.bytesRead) (getFifoCapacity s.fifoMode))
    (hqueued : Queued s s.fifoMode bytes s.txFifo) : TransferInv platform s where
  asserts := hasserts
  write := hwrite
  read := hread
  ins := hins
  received := hreceived
  phase := by
    have hskip : s.skip + s.bytesRead = s.bytesRead := by rw [skip, hasked, Nat.zero_add]
    have htotal' := length_wireBytes_fullDuplex hasked hwrite.length
    have hlength :
        bytes.length = min (s.bytesToRead - s.bytesRead) (getFifoCapacity s.fifoMode) := by
      rw [hbytes]
      exact length_slice_write hwrite.length (by omega)
    have hflight : s.Flight s.fifoMode True (s.skip + s.bytesRead) bytes [] := by
      rw [hskip]
      refine flight_start hcntl0 hqueued (by omega) hout (by omega) ?_ hins fun _ => hrx
      rw [slice_write hwrite.length (by omega), hlength, ← hbytes]
    exact .fullDuplex hbusy hstate hasked htotal hflight hlength (by omega) hfit hlt

/-- **The ISR in the state `FULL_DUPLEX`.** -/
theorem isrFullDuplex_step (h : TransferInv platform s) (stale : List Ulong)
    {bytes : List Byte} {gone : List Ulong} (hbusy : Busy s)
    (hstate : s.transferState = .fullDuplex) (hasked : s.asked = .fullDuplex)
    (htotal : s.bytesToWrite = s.bytesToRead)
    (hflight : s.Flight s.fifoMode True (s.skip + s.bytesRead) bytes gone)
    (hlength : bytes.length = min (s.bytesToRead - s.bytesRead) (getFifoCapacity s.fifoMode))
    (hqueued : s.bytesRead + bytes.length = s.bytesWritten)
    (hfit : Fit platform s.fifoMode (s.bytesToRead - s.bytesRead))
    (hlt : s.bytesRead < s.bytesToRead) (htx : s.txFifo = []) :
    TransferInv platform (s.isrFullDuplex platform stale) ∧
      (s.isrFullDuplex platform stale).todo < s.todo := by
  have hcapacity := getFifoCapacity_pos s.fifoMode
  have hfitNow := hfit.min
  have hfitNext := hfit.sub
  rw [← hlength] at hfitNow hfitNext
  rw [Nat.sub_sub, hqueued, ← htotal] at hfitNext
  have hextract := hflight.extract trivial htx hfitNow.takes stale
  have hcount := hflight.length_extract trivial htx h.ins hfitNow.takes stale
  have hrx : s.rxFifo.drop fifoDepth = [] :=
    List.drop_eq_nil_of_le (hflight.length_rxFifo trivial)
  have hwritten := h.write.le
  -- the next chunk is queued, if there is one
  obtain ⟨n, writeCursor, entries, hn, hentries, hnone, hwrite, hqueue⟩ : ∃ n writeCursor entries,
      n = min (s.bytesToWrite - s.bytesWritten) (getFifoCapacity s.fifoMode) ∧
      (s.bytesWritten ≠ s.bytesToWrite →
        Queued s s.fifoMode ((s.writeMdl.flatten.drop s.bytesWritten).take n) entries) ∧
      (s.bytesWritten = s.bytesToWrite → entries = []) ∧
      Counted s.writeMdl writeCursor (s.bytesWritten + n) s.bytesToWrite ∧
      (if s.bytesWritten ≠ s.bytesToWrite then
        ((s.readEntries stale).1.writeMdlToFifo platform).ntAssert
          (((s.readEntries stale).1.writeMdlToFifo platform).bytesWritten > s.bytesWritten)
        else (s.readEntries stale).1) =
        { s with
          currentWriteMdl := writeCursor
          bytesWritten := s.bytesWritten + n
          txFifo := entries
          rxFifo := [] } := by
    by_cases hmore : s.bytesWritten = s.bytesToWrite
    · refine ⟨0, s.currentWriteMdl, [], by omega, fun hne => absurd hmore hne, fun _ => rfl,
        h.write, ?_⟩
      rw [if_neg (not_not_intro hmore), readEntries, hrx, ← htx]
      rfl
    · have hless := Nat.lt_of_le_of_ne hwritten hmore
      obtain ⟨n, cursor, entries, hn, hentries, hcounted, heq⟩ :=
        writeMdlToFifo_spec (s := (s.readEntries stale).1) hbusy.mode h.write hfitNext hless
      have hn' : n = min (s.bytesToWrite - s.bytesWritten) (getFifoCapacity s.fifoMode) := hn
      have hmoved : s.bytesWritten + n > s.bytesWritten := by omega
      refine ⟨n, cursor, entries, hn', fun _ => hentries, fun heq => absurd heq hmore, hcounted, ?_⟩
      rw [if_pos hmore, heq]
      refine (ntAssert_of hmoved).trans ?_
      rw [readEntries, hrx, htx, List.nil_append]
  obtain ⟨cursor, readMdl, hcounted, hreceived, hcopy⟩ := copyToReadMdl_spec (s := { s with
    currentWriteMdl := writeCursor
    bytesWritten := s.bytesWritten + n
    txFifo := entries
    rxFifo := [] }) h.read (by rw [hcount]; show s.bytesRead + bytes.length ≤ s.bytesToRead; omega)
    hlt h.received hextract
  rw [hcount] at hcounted hreceived hcopy
  have hchunk : min (getFifoCapacity s.fifoMode) (s.bytesToRead - s.bytesRead) = bytes.length := by
    rw [hlength, min_comm]
  have hstep : s.isrFullDuplex platform stale =
      if s.bytesRead + bytes.length = s.bytesToRead then
        ({ s with
          currentWriteMdl := writeCursor
          bytesWritten := s.bytesWritten + n }.readOn entries cursor readMdl bytes.length).isrFinish
      else { s with
          currentWriteMdl := writeCursor
          bytesWritten := s.bytesWritten + n }.readOn entries cursor readMdl bytes.length := by
    rw [isrFullDuplex, ntAssert_of hlt, ntAssert_of hwritten]
    dsimp only
    rw [show (s.readEntries stale).1.bytesToWrite = s.bytesToWrite from rfl, hqueue]
    dsimp only
    rw [show (s.readEntries stale).2 = (s.rxFifo ++ stale).take fifoDepth from rfl, hchunk,
      ntAssert_true (hfitNow.extractAsserts (by omega) hflight.fits)]
    dsimp only
    rw [hcopy]
    dsimp only
    rw [ntAssert_of rfl, ntAssert_of (by omega)]
    rfl
  have hout := hflight.out_of_idle htx
  have hskip : s.skip = 0 := by rw [skip, hasked]
  have hwire := length_wireBytes_fullDuplex hasked h.write.length
  have hle := hcounted.le
  have hleft : s.bytesToWrite - (s.bytesWritten + n) +
      (s.bytesToRead - (s.bytesRead + bytes.length)) <
        s.bytesToWrite - s.bytesWritten + (s.bytesToRead - s.bytesRead) := by
    omega
  rw [hskip, Nat.zero_add, hqueued] at hout
  rw [hstep]
  by_cases hall : s.bytesRead + bytes.length = s.bytesToRead
  · rw [if_pos hall]
    have hempty := hnone (by omega)
    constructor
    · refine inv_isrFinish h.asserts hwrite hcounted h.ins hbusy.completed (.inr hstate) ?_
        ⟨?_, hall, ?_, ?_⟩ hempty
      · intro _
        show s.bytesWritten + n = s.bytesRead + bytes.length
        omega
      · show s.bytesWritten + n = s.bytesToWrite
        omega
      · rw [List.take_of_length_le (by omega)] at hout
        exact hout
      · rw [hall, ← hcounted.length, List.take_length] at hreceived
        exact hreceived
    · exact todo_isrFinish_lt hempty hleft (Nat.le_refl _)
  · rw [if_neg hall]
    have hentries' := hentries (by omega)
    constructor
    · refine inv_fullDuplex h.asserts hwrite hcounted h.ins (hreceived ▸ List.prefix_refl _)
        ⟨hbusy.doneIrq, hbusy.dpcQueued, hbusy.completed, hbusy.mode⟩ hstate hasked htotal
        hflight.cntl0 rfl ?_ ?_ ?_ rfl ?_ ?_
      · show s.out = bitsOf (s.wireBytes.take (s.bytesRead + bytes.length))
        rw [hqueued, hout]
      · show Fit platform s.fifoMode (s.bytesToRead - (s.bytesRead + bytes.length))
        rwa [hqueued, ← htotal]
      · show s.bytesRead + bytes.length < s.bytesToRead
        omega
      · show s.bytesWritten + n = s.bytesRead + bytes.length +
          min (s.bytesToRead - (s.bytesRead + bytes.length)) (getFifoCapacity s.fifoMode)
        omega
      · show Queued s s.fifoMode ((s.writeMdl.flatten.drop (s.bytesRead + bytes.length)).take
          (min (s.bytesToRead - (s.bytesRead + bytes.length)) (getFifoCapacity s.fifoMode))) entries
        rwa [hqueued, ← htotal, ← hn]
    · have hfifo := hentries'.length_le (by
        rw [length_slice_write hwrite.length hwrite.le]
        omega)
      exact todo_lt hleft (hfifo.trans (by decide)) (Nat.le_refl _)

/-! ## The steps -/

/-- **An interrupt of this device.** -/
theorem evtInterruptIsr_step (h : TransferInv platform s) (hirq : s.irq = true)
    (stale : List Ulong) :
    TransferInv platform (s.evtInterruptIsr platform stale) ∧
      (s.evtInterruptIsr platform stale).todo < s.todo := by
  have hboth := hirq
  rw [irq, Bool.and_eq_true, List.isEmpty_iff] at hboth
  obtain ⟨hdone, htx⟩ := hboth
  have hisr : s.evtInterruptIsr platform stale =
      match s.transferState with
      | .sequenceWrite => s.isrSequenceWrite platform
      | .sequenceReadInit => s.isrSequenceReadInit platform
      | .sequenceRead => s.isrSequenceRead platform stale
      | .fullDuplex => s.isrFullDuplex platform stale
      | .write | .read => s
      | .invalid => { s.ntAssert false with cntl0 := ⟨false, 0⟩, doneIrq := false } := by
    rw [evtInterruptIsr, hirq, htx]
    rfl
  cases h.phase with
  | idle _ _ hoff =>
    rw [hoff] at hdone
    cases hdone
  | writing hbusy hstate hasked hread hflight hqueued hfit hnext =>
    by_cases hall : s.bytesWritten = s.bytesToWrite
    · rw [if_pos hall] at hstate
      rw [hisr, hstate]
      exact isrSequenceReadInit_step h hbusy hstate hall hasked hread hflight
        hqueued hnext htx
    · rw [if_neg hall] at hstate
      rw [hisr, hstate]
      exact isrSequenceWrite_step h hbusy hstate
        (Nat.lt_of_le_of_ne h.write.le hall) hasked hread hflight hqueued hfit hnext htx
  | reading hbusy hstate hasked hwritten hflight hlength hfit hlt =>
    rw [hisr, hstate]
    exact isrSequenceRead_step h stale hbusy hstate hasked hwritten hflight
      hlength hfit hlt htx
  | fullDuplex hbusy hstate hasked htotal hflight hlength hqueued hfit hlt =>
    rw [hisr, hstate]
    exact isrFullDuplex_step h stale hbusy hstate hasked htotal hflight hlength
      hqueued hfit hlt htx
  | finishing _ hoff =>
    rw [hoff] at hdone
    cases hdone

/-- An interrupt of another device. -/
theorem evtInterruptIsr_of_not_irq (hirq : s.irq = false) (stale : List Ulong) :
    s.evtInterruptIsr platform stale = s := by
  rw [evtInterruptIsr, hirq]
  rfl

/-- **The controller shifts out an entry.** -/
theorem shift_step (h : TransferInv platform s) {entry : Ulong} {txFifo : List Ulong}
    (htx : s.txFifo = entry :: txFifo) {ins : List Bool}
    (hlength : ins.length = (s.wire entry).length) (before : Ulong) (overflow : List Ulong) :
    TransferInv platform (s.shift entry txFifo ins before overflow) ∧
      (s.shift entry txFifo ins before overflow).todo < s.todo := by
  constructor
  · have hins : (s.ins ++ ins).length = (s.out ++ s.wire entry).length := by
      rw [List.length_append, List.length_append, h.ins, hlength]
    have hreceived : bitsOf (s.readMdl.flatten.take s.bytesRead) <+:
        (s.ins ++ ins).drop (8 * s.skip) := by
      rw [List.drop_append]
      exact h.received.trans (List.prefix_append _ _)
    refine ⟨h.asserts, h.write, h.read, hins, hreceived, ?_⟩
    cases h.phase with
    | idle _ hempty =>
      rw [hempty] at htx
      cases htx
    | writing hbusy hstate hasked hread hflight hqueued hfit hnext =>
      exact .writing ⟨hbusy.doneIrq, hbusy.dpcQueued, hbusy.completed, hbusy.mode⟩ hstate hasked
        hread (hflight.shift htx h.ins hlength before overflow) hqueued hfit hnext
    | reading hbusy hstate hasked hwritten hflight hcount hfit hlt =>
      exact .reading ⟨hbusy.doneIrq, hbusy.dpcQueued, hbusy.completed, hbusy.mode⟩ hstate hasked
        hwritten (hflight.shift htx h.ins hlength before overflow) hcount hfit hlt
    | fullDuplex hbusy hstate hasked htotal hflight hcount hqueued hfit hlt =>
      exact .fullDuplex ⟨hbusy.doneIrq, hbusy.dpcQueued, hbusy.completed, hbusy.mode⟩ hstate hasked
        htotal (hflight.shift htx h.ins hlength before overflow) hcount hqueued hfit hlt
    | finishing hstate hirq hdpc hcompleted hfinished hquiet hduplex =>
      have hnothing : s.wire entry = [] := hquiet entry (by rw [htx]; exact List.mem_cons_self)
      have hnone : ins = [] := List.length_eq_zero_iff.1 (by rw [hlength, hnothing]; rfl)
      refine .finishing hstate hirq hdpc hcompleted ⟨hfinished.written, hfinished.read, ?_, ?_⟩ ?_
        hduplex
      · show s.out ++ s.wire entry = bitsOf s.wireBytes
        rw [hnothing, List.append_nil, hfinished.out]
      · show bitsOf s.readMdl.flatten = (s.ins ++ ins).drop (8 * s.skip)
        rw [hnone, List.append_nil, hfinished.received]
      · intro e he
        exact hquiet e (by rw [htx]; exact List.mem_cons_of_mem entry he)
  · rw [todo, todo, htx, List.length_cons]
    show 6 * s.left + txFifo.length + ahead s.transferState < _
    omega

/-- **The DPC** completes the transfer. -/
theorem evtInterruptDpc_step (h : TransferInv platform s) (hdpc : s.dpcQueued = true) :
    TransferInv platform s.evtInterruptDpc ∧ s.evtInterruptDpc.todo < s.todo := by
  cases h.phase with
  | idle _ _ _ hoff =>
    rw [hoff] at hdpc
    cases hdpc
  | writing hbusy =>
    rw [hbusy.dpcQueued] at hdpc
    cases hdpc
  | reading hbusy =>
    rw [hbusy.dpcQueued] at hdpc
    cases hdpc
  | fullDuplex hbusy =>
    rw [hbusy.dpcQueued] at hdpc
    cases hdpc
  | finishing hstate hirq _ hcompleted hfinished hquiet hduplex =>
    -- the DPC is queued only when both directions are finished
    have hoff : (!s.doneIrq) = true := by rw [hirq]; rfl
    have hstep : s.evtInterruptDpc = { s with
        dpcQueued := false
        completed := some (s.bytesWritten + s.bytesRead)
        transferState := .invalid
        txFifo := []
        rxFifo := [] } := by
      rw [evtInterruptDpc, ntAssert_true hoff]
      rcases hstate with hstate | hstate
      · dsimp only
        rw [hstate]
        dsimp only
        rw [ntAssert_of hfinished.written, ntAssert_of hfinished.read]
      · dsimp only
        rw [hstate]
        dsimp only
        rw [ntAssert_of (hduplex hstate), ntAssert_of hfinished.written,
          ntAssert_of hfinished.read]
    have hdone : Finished { s with
        dpcQueued := false
        completed := some (s.bytesWritten + s.bytesRead)
        transferState := .invalid
        txFifo := []
        rxFifo := [] } :=
      ⟨hfinished.written, hfinished.read, hfinished.out, hfinished.received⟩
    rw [hstep]
    constructor
    · refine ⟨h.asserts, h.write, h.read, h.ins, h.received, .idle rfl rfl hirq rfl ?_ ?_⟩
      · exact ⟨[], (List.append_nil _).trans hdone.out⟩
      · rintro n ⟨⟩
        refine ⟨hdone, ?_⟩
        show s.bytesWritten + s.bytesRead = s.bytesToWrite + s.bytesToRead
        rw [hfinished.written, hfinished.read]
    · have hahead : ahead s.transferState = 1 := by
        rcases hstate with hstate | hstate <;> rw [hstate] <;> rfl
      rw [todo, todo, hahead]
      show 6 * s.left + 0 + 0 < _
      omega

theorem counted_start {mdl : List (List Byte)} : Counted mdl ⟨0, 0⟩ 0 mdl.flatten.length :=
  ⟨Cursor.within_start mdl, Cursor.position_start mdl, rfl, Nat.zero_le _⟩

/-- Between transfers the interrupt is disabled, and no DPC is to come. -/
theorem idle_of_invalid (h : TransferInv platform s) (hstate : s.transferState = .invalid) :
    s.txFifo = [] ∧ s.doneIrq = false ∧ s.dpcQueued = false ∧ s.out <+: bitsOf s.wireBytes ∧
      ∀ n, s.completed = some n → s.Finished ∧ n = s.bytesToWrite + s.bytesToRead := by
  cases h.phase with
  | idle _ htx hirq hdpc hout hcompleted => exact ⟨htx, hirq, hdpc, hout, hcompleted⟩
  | writing _ hother =>
    rw [hstate] at hother
    split at hother <;> cases hother
  | reading _ hother => rw [hstate] at hother; cases hother
  | fullDuplex _ hother => rw [hstate] at hother; cases hother
  | finishing hother =>
    rw [hstate] at hother
    rcases hother with hother | hother <;> cases hother

/-- **A sequence is started.** -/
theorem evtSpbIoSequence_inv (h : TransferInv platform s) (hstate : s.transferState = .invalid)
    {dataMode : SpiDataMode} {writeMdl readMdl : List (List Byte)}
    (hwrite : Aligned platform dataMode writeMdl.flatten.length)
    (hread : Aligned platform dataMode readMdl.flatten.length) :
    TransferInv platform (s.evtSpbIoSequence platform dataMode writeMdl readMdl) := by
  obtain ⟨-, -, hquiet, -⟩ := idle_of_invalid h hstate
  have hfit := hwrite.fit
  have hof := selectFifoMode_of dataMode writeMdl.flatten.length
  obtain ⟨n, cursor, entries, hn, hentries, hcounted, heq⟩ := writeMdlToFifo_spec
    (s := s.prepareRequest .sequence .sequenceWrite dataMode writeMdl readMdl) hof counted_start
    hfit (Nat.pos_of_ne_zero hwrite.1)
  have hstep : s.evtSpbIoSequence platform dataMode writeMdl readMdl =
      { s.prepareRequest .sequence .sequenceWrite dataMode writeMdl readMdl with
        doneIrq := true }.wrote cursor n entries := by
    rw [evtSpbIoSequence, heq, wrote]
    dsimp only
    by_cases hall : (s.prepareRequest .sequence .sequenceWrite dataMode writeMdl
        readMdl).bytesWritten + n = (s.prepareRequest .sequence .sequenceWrite dataMode writeMdl
          readMdl).bytesToWrite
    · rw [if_pos hall, if_pos hall]
      rfl
    · rw [if_neg hall, if_neg hall]
      rfl
  rw [hstep]
  exact inv_wrote h.asserts counted_start rfl ⟨rfl, hquiet, rfl, hof⟩ rfl rfl rfl
    rfl hfit hread hn hentries hcounted

/-- **A full-duplex transfer is started.** -/
theorem evtSpbIoOther_inv (h : TransferInv platform s) (hstate : s.transferState = .invalid)
    {dataMode : SpiDataMode} {writeMdl readMdl : List (List Byte)}
    (hwrite : Aligned platform dataMode writeMdl.flatten.length)
    (hlength : writeMdl.flatten.length = readMdl.flatten.length) :
    TransferInv platform (s.evtSpbIoOther platform dataMode writeMdl readMdl) := by
  obtain ⟨-, -, hquiet, -⟩ := idle_of_invalid h hstate
  have hfit := hwrite.fit
  have hof := selectFifoMode_of dataMode writeMdl.flatten.length
  obtain ⟨n, cursor, entries, hn, hentries, hcounted, heq⟩ := writeMdlToFifo_spec
    (s := s.prepareRequest .fullDuplex .fullDuplex dataMode writeMdl readMdl) hof counted_start hfit
    (Nat.pos_of_ne_zero hwrite.1)
  rw [evtSpbIoOther, heq]
  refine inv_fullDuplex h.asserts hcounted counted_start rfl List.nil_prefix
    ⟨rfl, hquiet, rfl, hof⟩ rfl rfl hlength rfl rfl rfl ?_ ?_ rfl ?_ ?_
  · show Fit platform _ readMdl.flatten.length
    rwa [← hlength]
  · show 0 < readMdl.flatten.length
    rw [← hlength]
    exact Nat.pos_of_ne_zero hwrite.1
  · show 0 + n = 0 + min (readMdl.flatten.length - 0) _
    rw [← hlength]
    exact congrArg (0 + ·) hn
  · show Queued _ _ ((writeMdl.flatten.drop 0).take (min (readMdl.flatten.length - 0) _)) entries
    rw [← hlength]
    exact hn ▸ hentries

theorem controllerLock_inv (h : TransferInv platform s) (hstate : s.transferState = .invalid)
    (locked : Bool) : TransferInv platform (s.controllerLock locked) := by
  obtain ⟨htx, hirq, hdpc, hout, hcompleted⟩ := idle_of_invalid h hstate
  refine ⟨h.asserts, h.write, h.read, h.ins, h.received, .idle hstate htx hirq hdpc hout ?_⟩
  intro n hn
  obtain ⟨hfinished, hinformation⟩ := hcompleted n hn
  exact ⟨⟨hfinished.written, hfinished.read, hfinished.out, hfinished.received⟩, hinformation⟩

/-- **A step of the controller, the ISR or the DPC** leaves less to do, or is none. -/
theorem device_step (h : TransferInv platform s) {a : TransferAction} (ha : a.OfDevice) {s' : Spi}
    (hs : transferStep platform s a = some s') :
    TransferInv platform s' ∧ (s' = s ∨ s'.todo < s.todo) := by
  cases a with
  | sequence => exact ha.elim
  | fullDuplex => exact ha.elim
  | controllerLock => exact ha.elim
  | shift ins before overflow =>
    rw [transferStep] at hs
    cases htx : s.txFifo with
    | nil =>
      rw [htx] at hs
      cases hs
    | cons entry txFifo =>
      rw [htx] at hs
      dsimp only at hs
      split at hs
      · next hen =>
        cases hs
        obtain ⟨hinv, hless⟩ := shift_step h htx hen.1 before overflow
        exact ⟨hinv, .inr hless⟩
      · cases hs
  | interrupt stale =>
    rw [transferStep] at hs
    split at hs
    · cases hs
      cases hirq : s.irq with
      | true =>
        obtain ⟨hinv, hless⟩ := evtInterruptIsr_step h hirq stale
        exact ⟨hinv, .inr hless⟩
      | false =>
        rw [evtInterruptIsr_of_not_irq hirq]
        exact ⟨h, .inl rfl⟩
    · cases hs
  | dpc =>
    rw [transferStep] at hs
    split at hs
    · next hdpc =>
      cases hs
      obtain ⟨hinv, hless⟩ := evtInterruptDpc_step h hdpc
      exact ⟨hinv, .inr hless⟩
    · cases hs

/-- During a transfer no other one is started. -/
theorem ofDevice_of_busy (hstate : s.transferState ≠ .invalid) {a : TransferAction} {s' : Spi}
    (hs : transferStep platform s a = some s') : a.OfDevice := by
  cases a with
  | sequence dataMode writeMdl readMdl =>
    rw [transferStep, if_neg fun hen => hstate hen.1] at hs
    cases hs
  | fullDuplex dataMode writeMdl readMdl =>
    rw [transferStep, if_neg fun hen => hstate hen.1] at hs
    cases hs
  | controllerLock locked =>
    rw [transferStep, if_neg hstate] at hs
    cases hs
  | shift | interrupt | dpc => trivial

/-- **A transfer that is under way does not get stuck**: the controller shifts, or interrupts, or
the DPC is to come. -/
theorem exists_step (h : TransferInv platform s) (hstate : s.transferState ≠ .invalid) :
    ∃ a s', transferStep platform s a = some s' ∧ s' ≠ s := by
  have hne {s' : Spi} (hless : s'.todo < s.todo) : s' ≠ s := by
    rintro rfl
    exact Nat.lt_irrefl _ hless
  have hbusy (hirq : s.doneIrq = true) : ∃ a s', transferStep platform s a = some s' ∧ s' ≠ s := by
    cases htx : s.txFifo with
    | nil =>
      have hidle : s.irq = true := by rw [irq, hirq, htx]; rfl
      refine ⟨.interrupt (List.replicate fifoDepth 0),
        s.evtInterruptIsr platform (List.replicate fifoDepth 0), ?_,
        hne (evtInterruptIsr_step h hidle _).2⟩
      rw [transferStep]
      exact if_pos (Nat.le_refl fifoDepth)
    | cons entry txFifo =>
      refine ⟨.shift (s.wire entry) 0 (List.replicate fifoDepth 0),
        s.shift entry txFifo (s.wire entry) 0 (List.replicate fifoDepth 0), ?_,
        hne (shift_step h htx rfl _ _).2⟩
      rw [transferStep, htx]
      exact if_pos ⟨rfl, rfl⟩
  cases h.phase with
  | idle hinvalid => exact absurd hinvalid hstate
  | writing hphase => exact hbusy hphase.doneIrq
  | reading hphase => exact hbusy hphase.doneIrq
  | fullDuplex hphase => exact hbusy hphase.doneIrq
  | finishing _ _ hdpc =>
    exact ⟨.dpc, _, if_pos hdpc, hne (evtInterruptDpc_step h hdpc).2⟩

/-- **A step keeps the invariant.** -/
theorem transferInv_step (h : TransferInv platform s) {a : TransferAction}
    (hok : AlignedStart platform s a) {s' : Spi} (hs : transferStep platform s a = some s') :
    TransferInv platform s' := by
  cases a with
  | sequence dataMode writeMdl readMdl =>
    rw [transferStep] at hs
    split at hs
    · next hen =>
      cases hs
      exact evtSpbIoSequence_inv h hen.1 hok.1 hok.2
    · cases hs
  | fullDuplex dataMode writeMdl readMdl =>
    rw [transferStep] at hs
    split at hs
    · next hen =>
      cases hs
      exact evtSpbIoOther_inv h hen.1 hok hen.2.2.2
    · cases hs
  | controllerLock locked =>
    rw [transferStep] at hs
    split at hs
    · next hstate =>
      cases hs
      exact controllerLock_inv h hstate locked
    · cases hs
  | shift ins before overflow =>
    exact (device_step (a := .shift ins before overflow) h trivial hs).1
  | interrupt stale => exact (device_step (a := .interrupt stale) h trivial hs).1
  | dpc => exact (device_step (a := .dpc) h trivial hs).1

theorem transferInv_init (h : s.Initial) : TransferInv platform s := by
  obtain ⟨hstate, hirq, hdpc, htx, -, hcompleted, hasserts, hwritten, hread, htoWrite, htoRead,
    hwriteMdl, hreadMdl, hwriteCursor, hreadCursor, hout, hins⟩ := h
  refine ⟨hasserts, ?_, ?_, ?_, ?_, .idle hstate htx hirq hdpc ?_ ?_⟩
  · rw [hwriteMdl, hwriteCursor, hwritten, htoWrite]
    exact counted_start
  · rw [hreadMdl, hreadCursor, hread, htoRead]
    exact counted_start
  · rw [hins, hout]
  · rw [hreadMdl, List.flatten_nil, List.take_nil]
    exact List.nil_prefix
  · rw [hout]
    exact List.nil_prefix
  · rw [hcompleted]
    rintro n ⟨⟩

end Spi

theorem TransferInv.sound {platform : Platform} {s : Spi} (h : TransferInv platform s) :
    TransferSound platform s where
  asserts := h.asserts
  write := h.write
  read := h.read
  out := by
    cases h.phase with
    | idle _ _ _ _ hout => exact hout
    | writing _ _ _ _ hflight => exact hflight.out_prefix
    | reading _ _ _ _ hflight => exact hflight.out_prefix
    | fullDuplex _ _ _ _ hflight => exact hflight.out_prefix
    | finishing _ _ _ _ hfinished =>
      exact ⟨[], (List.append_nil _).trans hfinished.out⟩
  received := h.received
  completed := by
    intro n hn
    cases h.phase with
    | idle _ _ _ _ _ hcompleted => exact hcompleted n hn
    | writing hbusy => rw [hbusy.completed] at hn; cases hn
    | reading hbusy => rw [hbusy.completed] at hn; cases hn
    | fullDuplex hbusy => rw [hbusy.completed] at hn; cases hn
    | finishing _ _ _ hcompleted => rw [hcompleted] at hn; cases hn
  goesOn := Spi.exists_step h
  ends hstate _ _ hs := (Spi.device_step h (Spi.ofDevice_of_busy hstate hs) hs).2

/-- **Transfers of aligned lengths are sound** in every state that runs of them reach. -/
theorem transferSound_of_aligned (platform : Platform) {s : Spi}
    (h : (transferMachine platform).Reach (AlignedStart platform) s) : TransferSound platform s :=
  (h.inv (fun _ => Spi.transferInv_init)
    fun _ _ _ hinv hok hs => Spi.transferInv_step hinv hok hs).sound

/-- Nothing has been transferred. -/
def freshSpi : Spi where
  transferState := .invalid
  fifoMode := .fixed4
  dataMode := .mode0
  currentWriteMdl := ⟨0, 0⟩
  bytesToWrite := 0
  bytesWritten := 0
  currentReadMdl := ⟨0, 0⟩
  bytesToRead := 0
  bytesRead := 0
  writeMdl := []
  readMdl := []
  cntl0 := ⟨false, 0⟩
  doneIrq := false
  spbControllerLocked := false
  dpcQueued := false
  txFifo := []
  rxFifo := []
  asked := .sequence
  out := []
  ins := []
  completed := none
  assertFailed := false

theorem freshSpi_initial : freshSpi.Initial := by simp [Spi.Initial, freshSpi]

/-- In data mode 1, two MDLs of five bytes are written, then three bytes are read. -/
def writeFiveReadThree : List TransferAction :=
  let stale : List Ulong := [0, 0, 0, 0]
  [.sequence .mode1 [[0x12, 0x34, 0x56], [0x78, 0xab]] [[0, 0, 0]],
    .shift (List.replicate 16 false) 0 stale, .interrupt stale,
    .shift (List.replicate 16 true) 0 stale, .shift (List.replicate 8 true) 0 stale,
    .interrupt stale, .shift (byteBits 0xc1 ++ byteBits 0xc2 ++ byteBits 0xc3) 0 stale,
    .interrupt stale, .shift [] 0 stale, .dpc]

theorem transferSound_of_aligned_sequence : ∃ s : Spi,
    (transferMachine .arm64).Reach (AlignedStart .arm64) s ∧ TransferSound .arm64 s ∧
      s.completed = some 8 ∧ s.readMdl = [[0xc1, 0xc2, 0xc3]] := by
  obtain ⟨s, hs, hp⟩ := Machine.reach_execOk_any (transferMachine .arm64) (AlignedStart .arm64)
    writeFiveReadThree
    (p := fun s => decide (s.completed = some 8 ∧ s.readMdl = [[0xc1, 0xc2, 0xc3]]))
    freshSpi_initial (by decide +kernel)
  obtain ⟨hcompleted, hread⟩ := of_decide_eq_true hp
  exact ⟨s, hs, transferSound_of_aligned .arm64 hs, hcompleted, hread⟩

/-- Four bytes in data mode 0 are a `ULONG`, and not a `UINT_PTR`. -/
theorem four_bytes_unaligned :
    ¬ ∀ (platform : Platform) (s : Spi), (transferMachine platform).Reachable s →
      TransferSound platform s := by
  intro hsound
  obtain ⟨s, hs, hp⟩ := Machine.reach_exec_any (transferMachine .arm64)
    [.sequence .mode0 [[0x12, 0x34, 0x56, 0x78]] [[0, 0, 0, 0]]]
    (p := fun s => s.assertFailed) freshSpi_initial (by decide +kernel)
  have hasserts := (hsound .arm64 s hs).asserts
  rw [hp] at hasserts
  cases hasserts

end RpiDrivers.AuxSpi
