import Mathlib.Algebra.Ring.Nat
import Mathlib.Data.List.Basic

/-!
# The write half of an I2C sequence (`device.cpp` of the BCM2836 driver)

The controller can restart a transfer only while its last byte has not been sent, so a
write-read sequence pushes all but the last byte of the write chain into the FIFO, programs
the read (`DLEN` and `C`), and then pushes the last byte. `OnSequence` pushes the first byte,
the interrupt handler the rest, resuming at a cursor (an MDL and an offset) each time.

The log of an `InterruptContext` records the register writes, with `none` for a byte fetched
past the end of its MDL. What the status register shows is a stream per interrupt.

- `WriteSound`: what is pushed is the chain in order, the read is programmed exactly once and
  right before the last byte, and no fetch is out of bounds.
- `WriteSpace`: the cursor invariant.
- `writeSound_iff`: **every schedule is sound exactly when the request is refused, has one byte,
  or its last MDL has at least two bytes**.
- `fetch_past_end`: two MDLs of two and one bytes.
-/

namespace RpiDrivers.I2c

/-! ## Registers -/

/-- The bits of the `Status` register that the driver tests. -/
structure Status where
  clkt : Bool
  err : Bool
  rxd : Bool
  txd : Bool
  rxr : Bool
  txw : Bool
  done : Bool
  ta : Bool

/-- The bits of the `Control` register. -/
structure Control where
  i2cen : Bool := false
  intr : Bool := false
  intt : Bool := false
  intd : Bool := false
  st : Bool := false
  clear : Bool := false
  read : Bool := false
  deriving DecidableEq

/-- The word that starts the read. -/
def Control.startRead : Control :=
  { i2cen := true, st := true, intr := true, intd := true, read := true }

/-- The register writes that matter to the transfer. A byte pushed into the FIFO is `none` when
it was fetched past the end of its MDL. -/
inductive RegisterWrite
  | control (value : Control)
  | dataLength (value : Nat)
  | dataFifo (byte : Option UInt8)
  deriving DecidableEq

/-- A write of `Control` that starts a read. -/
def RegisterWrite.isRestart : RegisterWrite → Bool
  | .control value => value.st && value.read
  | _ => false

/-- The bytes pushed into the FIFO. -/
def pushed (log : List RegisterWrite) : List (Option UInt8) :=
  log.filterMap fun
    | .dataFifo byte => some byte
    | _ => none

/-! ## The driver's state -/

/-- An `MDL`; the byte count of an MDL is never zero. -/
structure Mdl where
  bytes : List UInt8
  nonempty : bytes ≠ []

/-- The bytes of a chain of MDLs. -/
def chainBytes (chain : List Mdl) : List UInt8 :=
  chain.flatMap Mdl.bytes

/-- `SEQUENCE_CONTEXT`. A pointer to an MDL is the list of that MDL and its successors; of the
read chain only the byte counts matter. -/
structure SequenceContext where
  currentWriteMdl : List Mdl
  currentWriteMdlOffset : Nat
  bytesToWrite : Nat
  bytesWritten : Nat
  currentReadMdl : List Nat
  currentReadMdlOffset : Nat
  bytesToRead : Nat
  bytesRead : Nat

/-- The `TRANSFER_STATE`s of a sequence. -/
inductive TransferState
  | invalid
  | sendingSequence
  | receivingSequence
  | receivingSequenceWaitForDone
  deriving DecidableEq

/-- `BCM_I2C_INTERRUPT_CONTEXT`, with the register writes so far. -/
structure InterruptContext where
  state : TransferState
  /-- `ERROR_FLAG` of the state -/
  errorFlag : Bool
  /-- `SpbRequest != WDF_NO_HANDLE` -/
  hasRequest : Bool
  sequenceContext : SequenceContext
  dpcQueued : Bool
  /-- a null MDL pointer was dereferenced -/
  fault : Bool
  log : List RegisterWrite

def InterruptContext.write (c : InterruptContext) (ws : List RegisterWrite) : InterruptContext :=
  { c with log := c.log ++ ws }

/-- `BCM_I2C_MAX_TRANSFER_LENGTH` -/
def bcmI2cMaxTransferLength : Nat := 0xFFFF

/-- `2 ^ 32`, the range of a `ULONG` -/
def ulongRange : Nat := 4294967296

/-! ## The interrupt handler -/

/-- `WriteFifo` on a buffer of an MDL: the bytes pushed, and what the status register shows from
then on. -/
def writeFifo (bytes : List UInt8) :
    Nat → Nat → (Nat → Status) → List (Option UInt8) × (Nat → Status)
  | 0, _, reads => ([], reads)
  | bufferSize + 1, offset, reads =>
    if (reads 0).txd then
      let (written, reads') := writeFifo bytes bufferSize (offset + 1) fun i => reads (i + 1)
      (bytes[offset]? :: written, reads')
    else ([], fun i => reads (i + 1))

/-- How the loop over the write chain ends. -/
inductive SendExit
  | moreInMdl
  | lastByte
  | nullMdl
  deriving DecidableEq

/-- The locals after the loop over the write chain. -/
structure SendResult where
  exit : SendExit
  currentWriteMdl : List Mdl
  currentWriteMdlOffset : Nat
  bytesWritten : Nat
  pushed : List (Option UInt8)
  reads : Nat → Status

/-- The `for (;;)` loop of the state `SENDING_SEQUENCE`, at the MDL at the head of the list. -/
def sendMdls (bytesToWrite : Nat) : List Mdl → Nat → Nat → (Nat → Status) → SendResult
  | [], offset, bytesWritten, reads => ⟨.nullMdl, [], offset, bytesWritten, [], reads⟩
  | mdl :: next, offset, bytesWritten, reads =>
    let currentMdlBytesRemaining := mdl.bytes.length - offset
    -- all but the last byte of the last MDL; a `ULONG` wraps around
    let currentMdlBytesToWrite :=
      if next.isEmpty then (currentMdlBytesRemaining + (ulongRange - 1)) % ulongRange
      else currentMdlBytesRemaining
    let (pushed, reads) := writeFifo mdl.bytes currentMdlBytesToWrite offset reads
    let bytesWritten := bytesWritten + pushed.length
    let offset := offset + pushed.length
    if pushed.length ≠ currentMdlBytesToWrite then
      ⟨.moreInMdl, mdl :: next, offset, bytesWritten, pushed, reads⟩
    else if bytesWritten + 1 = bytesToWrite then
      ⟨.lastByte, mdl :: next, offset, bytesWritten, pushed, reads⟩
    else
      let result := sendMdls bytesToWrite next 0 bytesWritten reads
      { result with pushed := pushed ++ result.pushed }

/-- The byte at the cursor. -/
def fetch (chain : List Mdl) (offset : Nat) : Option UInt8 :=
  chain.head?.bind fun mdl => mdl.bytes[offset]?

/-- Program the read, push the last byte of the write. -/
def programRead (c : InterruptContext) : InterruptContext :=
  let s := c.sequenceContext
  let c := c.write [.dataLength s.bytesToRead, .control .startRead,
    .dataFifo (fetch s.currentWriteMdl s.currentWriteMdlOffset)]
  { c with
    state := .receivingSequence
    sequenceContext := { s with
      currentWriteMdl := []
      currentWriteMdlOffset := s.currentWriteMdlOffset + 1
      bytesWritten := s.bytesWritten + 1 } }

/-- The pushes of the loop over the write chain, and the cursor it leaves. -/
def storeCursor (c : InterruptContext) (result : SendResult) : InterruptContext :=
  { c.write (result.pushed.map .dataFifo) with
    sequenceContext := { c.sequenceContext with
      currentWriteMdl := result.currentWriteMdl
      currentWriteMdlOffset := result.currentWriteMdlOffset
      bytesWritten := result.bytesWritten } }

/-- What follows the loop over the write chain: with one byte left and `TXW` set, the read is
programmed. -/
def finishSend (c : InterruptContext) (result : SendResult) : InterruptContext :=
  match result.exit with
  | .moreInMdl => storeCursor c result
  | .nullMdl => { storeCursor c result with fault := true }
  | .lastByte =>
    if (result.reads 0).txw then programRead (storeCursor c result) else storeCursor c result

/-- `HandleInterrupt` in the state `SENDING_SEQUENCE`. -/
def sendSequence (c : InterruptContext) (reads : Nat → Status) : InterruptContext :=
  finishSend c (sendMdls c.sequenceContext.bytesToWrite c.sequenceContext.currentWriteMdl
    c.sequenceContext.currentWriteMdlOffset c.sequenceContext.bytesWritten reads)

/-- `ReadFifo`: the number of bytes read. -/
def readFifo : Nat → (Nat → Status) → Nat × (Nat → Status)
  | 0, reads => (0, reads)
  | bufferSize + 1, reads =>
    if (reads 0).rxd then
      let (bytesRead, reads') := readFifo bufferSize fun i => reads (i + 1)
      (bytesRead + 1, reads')
    else (0, fun i => reads (i + 1))

/-- The `do`/`while` loop of the state `RECEIVING_SEQUENCE`: the MDL it stops in (none when all
bytes were read), the offset, and the bytes read. -/
def receiveMdls : List Nat → Nat → Nat → (Nat → Status) → List Nat × Nat × Nat
  | [], offset, bytesRead, _ => ([], offset, bytesRead)
  | byteCount :: next, offset, bytesRead, reads =>
    let (n, reads) := readFifo (byteCount - offset) reads
    if offset + n ≠ byteCount then (byteCount :: next, offset + n, bytesRead + n)
    else receiveMdls next 0 (bytesRead + n) reads

/-- `HandleInterrupt` in the state `RECEIVING_SEQUENCE`. -/
def receiveSequence (c : InterruptContext) (reads : Nat → Status) : InterruptContext :=
  let s := c.sequenceContext
  let (mdl, offset, bytesRead) :=
    receiveMdls s.currentReadMdl s.currentReadMdlOffset s.bytesRead reads
  { c with
    state := if mdl = [] then .receivingSequenceWaitForDone else c.state
    sequenceContext := { s with
      currentReadMdl := mdl
      currentReadMdlOffset := offset
      bytesRead := bytesRead } }

/-- Disable the interrupts and queue the DPC. -/
def queueDpc (c : InterruptContext) (value : Control) : InterruptContext :=
  { c.write [.control value] with dpcQueued := true }

/-- `HandleInterrupt`, whose first read of the status register gives `statusReg`. -/
def handleInterrupt (c : InterruptContext) (statusReg : Status) (reads : Nat → Status) :
    InterruptContext :=
  if !(statusReg.rxr || statusReg.txw || statusReg.done) then c
  else if c.state = .invalid then c
  else if c.errorFlag then queueDpc c { i2cen := true }
  else if statusReg.clkt || statusReg.err then
    let c := { c with errorFlag := true }
    if statusReg.done && (reads 0).ta then c
    else queueDpc c { i2cen := true }
  else
    match c.state with
    | .invalid => c
    | .sendingSequence => sendSequence c reads
    | .receivingSequence => receiveSequence c reads
    | .receivingSequenceWaitForDone => queueDpc c { i2cen := true, read := true }

/-! ## The other entry points -/

/-- `ResetHardwareAndRequestContext` -/
def resetHardwareAndRequestContext (c : InterruptContext) : InterruptContext :=
  { c.write [.control { i2cen := true, clear := true }, .dataLength 0] with
    state := .invalid
    errorFlag := false
    hasRequest := false }

/-- `OnRequestCancel` -/
def onRequestCancel (c : InterruptContext) : InterruptContext :=
  if c.hasRequest then resetHardwareAndRequestContext c else c

/-- What `WdfRequestUnmarkCancelable` returns. -/
inductive Unmark
  | success
  | cancelled
  | failed
  deriving DecidableEq

/-- `OnInterruptDpc` -/
def onInterruptDpc (c : InterruptContext) (unmark : Unmark) : InterruptContext :=
  if c.dpcQueued then
    let c := { c with dpcQueued := false }
    if c.hasRequest then
      match unmark with
      | .success => resetHardwareAndRequestContext c
      | .cancelled => c
      | .failed => { c with hasRequest := false }
    else c
  else c

/-- `WaitForTransferActive`, with the spins left. -/
def waitForTransferActive : Nat → (Nat → Status) → Bool
  | 0, _ => false
  | count + 1, reads =>
    if (reads 0).ta then true
    else if (reads 0).clkt || (reads 0).err then false
    else waitForTransferActive count fun i => reads (i + 1)

/-- What the calls made while a sequence is started return. -/
structure SequenceStart where
  /-- `MmGetSystemAddressForMdlSafe` maps all the MDLs -/
  mapped : Bool
  reads : Nat → Status
  /-- `WdfRequestMarkCancelableEx` succeeds -/
  markCancelable : Bool

/-- The push of the first byte. -/
def pushFirstByte (c : InterruptContext) : InterruptContext :=
  { c.write [.dataFifo (fetch c.sequenceContext.currentWriteMdl 0)] with
    sequenceContext := { c.sequenceContext with
      bytesWritten := c.sequenceContext.bytesWritten + 1
      currentWriteMdlOffset := c.sequenceContext.currentWriteMdlOffset + 1 } }

/-- `StartSequenceWrite`, and the reset its caller makes when it fails. -/
def startSequenceWrite (c : InterruptContext) (start : SequenceStart) : InterruptContext :=
  if c.sequenceContext.bytesToWrite = 1 then
    if waitForTransferActive 10000 start.reads then
      if start.markCancelable then programRead c
      else resetHardwareAndRequestContext (programRead c)
    else resetHardwareAndRequestContext c
  else if start.markCancelable then
    (pushFirstByte c).write [.control { i2cen := true, intt := true, intd := true }]
  else resetHardwareAndRequestContext (pushFirstByte c)

/-- The context between two requests. -/
def InterruptContext.idle : InterruptContext where
  state := .invalid
  errorFlag := false
  hasRequest := false
  sequenceContext := ⟨[], 0, 0, 0, [], 0, 0, 0⟩
  dpcQueued := false
  fault := false
  log := []

/-- `OnSequence` for a write chain and a read chain without delays. -/
def onSequence (writeMdl : List Mdl) (readMdl : List Nat) (start : SequenceStart) :
    InterruptContext :=
  let bytesToWrite := (chainBytes writeMdl).length
  let bytesToRead := readMdl.sum
  if bcmI2cMaxTransferLength < bytesToWrite then .idle
  else if bcmI2cMaxTransferLength < bytesToRead then .idle
  else if !start.mapped then .idle
  else
    let c := { InterruptContext.idle with
      state := .sendingSequence
      hasRequest := true
      sequenceContext := ⟨writeMdl, 0, bytesToWrite, 0, readMdl, 0, bytesToRead, 0⟩ }
    -- `InitializeTransfer`, then the start of the transfer
    let c := c.write [.control { clear := true }, .dataLength bytesToWrite]
    let c := c.write [.control { i2cen := true, st := true, clear := true }]
    startSequenceWrite c start

/-- What can happen to a sequence once it is started. -/
inductive Action
  | interrupt (statusReg : Status) (reads : Nat → Status)
  | dpc (unmark : Unmark)
  | cancel

/-- One action. -/
def step (c : InterruptContext) : Action → InterruptContext
  | .interrupt statusReg reads => if c.fault then c else handleInterrupt c statusReg reads
  | .dpc unmark => if c.fault then c else onInterruptDpc c unmark
  | .cancel => if c.fault then c else onRequestCancel c

/-- A whole run: the start and the actions that follow. -/
def run (writeMdl : List Mdl) (readMdl : List Nat) (start : SequenceStart) (actions : List Action) :
    InterruptContext :=
  actions.foldl step (onSequence writeMdl readMdl start)

/-! ## The property -/

/-- The number of times the read is started. -/
def restarts (log : List RegisterWrite) : Nat :=
  log.countP RegisterWrite.isRestart

/-- The write half is carried out as it should be, at any point of a run: no byte is fetched past
the end of an MDL, the bytes pushed are the first ones of the chain in order, all of them once
the driver has moved on to the read; the read is programmed once if the last byte has been
pushed, right before it, and not at all otherwise. -/
structure WriteSound (writeMdl : List Mdl) (readMdl : List Nat) (c : InterruptContext) : Prop where
  noFault : c.fault = false
  inBounds : .dataFifo none ∉ c.log
  inOrder : pushed c.log <+: (chainBytes writeMdl).map some
  whole : c.state = .receivingSequence ∨ c.state = .receivingSequenceWaitForDone →
    pushed c.log = (chainBytes writeMdl).map some
  once : restarts c.log = if pushed c.log = (chainBytes writeMdl).map some then 1 else 0
  beforeLast : pushed c.log = (chainBytes writeMdl).map some →
    ∃ front byte back, c.log = front ++
      [.dataLength readMdl.sum, .control .startRead, .dataFifo byte] ++ back ∧ pushed back = []

/-- The last MDL of a chain. -/
def lastMdl (first : Mdl) (rest : List Mdl) : Mdl :=
  (first :: rest).getLast (List.cons_ne_nil first rest)

/-! ## Logs -/

@[simp] theorem pushed_append (log log' : List RegisterWrite) :
    pushed (log ++ log') = pushed log ++ pushed log' :=
  List.filterMap_append ..

@[simp] theorem restarts_append (log log' : List RegisterWrite) :
    restarts (log ++ log') = restarts log + restarts log' :=
  List.countP_append ..

@[simp] theorem pushed_map_dataFifo (bytes : List (Option UInt8)) :
    pushed (bytes.map .dataFifo) = bytes := by
  simp [pushed, List.filterMap_map]

@[simp] theorem restarts_map_dataFifo (bytes : List (Option UInt8)) :
    restarts (bytes.map .dataFifo) = 0 := by
  simp [restarts, RegisterWrite.isRestart]

theorem none_notMem_map_some (bytes : List UInt8) : none ∉ bytes.map some := by
  simp

/-- A fetch past the end shows among the bytes pushed. -/
theorem mem_pushed {log : List RegisterWrite} {byte : Option UInt8} :
    byte ∈ pushed log ↔ .dataFifo byte ∈ log := by
  simp only [pushed, List.mem_filterMap]
  constructor
  · rintro ⟨w, hw, heq⟩
    cases w <;> simp_all
  · exact fun h => ⟨_, h, rfl⟩

/-! ## The cursor -/

/-- The cursor (an MDL with its successors and an offset) stands where `bytesWritten` bytes of
`bytes` have been pushed, at least one is left, and the last MDL has two bytes or more. -/
structure WriteSpace (bytes : List UInt8) (chain : List Mdl) (offset bytesWritten : Nat) :
    Prop where
  left : bytesWritten < bytes.length
  cursor : ∃ mdl next, chain = mdl :: next ∧ offset ≤ mdl.bytes.length ∧
    mdl.bytes.drop offset ++ chainBytes next = bytes.drop bytesWritten
  lastLong : ∃ last, chain.getLast? = some last ∧ 2 ≤ last.bytes.length

/-- `WriteFifo` pushes the bytes at the offset, as many as the FIFO takes. -/
theorem writeFifo_spec (bytes : List UInt8) :
    ∀ (n offset : Nat) (reads : Nat → Status), offset + n ≤ bytes.length →
      ∃ k ≤ n, (writeFifo bytes n offset reads).1 = ((bytes.drop offset).take k).map some ∧
        (writeFifo bytes n offset reads).1.length = k := by
  intro n
  induction n with
  | zero => exact fun _ _ _ => ⟨0, Nat.le_refl 0, rfl, rfl⟩
  | succ n ih =>
    intro offset reads hle
    by_cases htxd : (reads 0).txd
    · obtain ⟨k, hk, heq, hlen⟩ := ih (offset + 1) (fun i => reads (i + 1)) (by omega)
      have hlt : offset < bytes.length := by omega
      refine ⟨k + 1, by omega, ?_, ?_⟩
      · simp only [writeFifo, htxd, if_true, heq, List.drop_eq_getElem_cons hlt,
          List.take_succ_cons, List.map_cons, List.getElem?_eq_getElem hlt]
      · simp only [writeFifo, htxd, if_true, List.length_cons, hlen]
    · exact ⟨0, Nat.zero_le _, by simp [writeFifo, htxd], by simp [writeFifo, htxd]⟩

/-- The bytes of the current MDL that are written before its last byte is considered. -/
def mdlBytesToWrite (mdl : Mdl) (next : List Mdl) (offset : Nat) : Nat :=
  if next.isEmpty then mdl.bytes.length - offset - 1 else mdl.bytes.length - offset

/-- The loop's own count, when at least one byte is left. -/
theorem mdlBytesToWrite_eq (mdl : Mdl) (next : List Mdl) (offset : Nat)
    (hleft : 0 < mdl.bytes.length - offset + (chainBytes next).length)
    (hulong : mdl.bytes.length - offset < ulongRange) :
    (if next.isEmpty then (mdl.bytes.length - offset + (ulongRange - 1)) % ulongRange
      else mdl.bytes.length - offset) = mdlBytesToWrite mdl next offset := by
  cases next with
  | nil =>
    have hnil : (chainBytes []).length = 0 := rfl
    simp only [mdlBytesToWrite, List.isEmpty_nil, if_true]
    unfold ulongRange at hulong ⊢
    omega
  | cons => simp only [mdlBytesToWrite, List.isEmpty_cons, Bool.false_eq_true, if_false]

theorem mdlBytesToWrite_le (mdl : Mdl) (next : List Mdl) (offset : Nat) :
    mdlBytesToWrite mdl next offset ≤ mdl.bytes.length - offset := by
  unfold mdlBytesToWrite
  split <;> omega

theorem WriteSpace.length {bytes : List UInt8} {mdl : Mdl} {next : List Mdl}
    {offset bytesWritten : Nat} (h : WriteSpace bytes (mdl :: next) offset bytesWritten) :
    offset ≤ mdl.bytes.length ∧
      mdl.bytes.drop offset ++ chainBytes next = bytes.drop bytesWritten ∧
      mdl.bytes.length - offset + (chainBytes next).length + bytesWritten = bytes.length := by
  obtain ⟨mdl', next', hcons, hoffset, hdrop⟩ := h.cursor
  obtain ⟨rfl, rfl⟩ := List.cons.inj hcons
  have hlength := congrArg List.length hdrop
  have hleft := h.left
  simp only [List.length_append, List.length_drop] at hlength
  exact ⟨hoffset, hdrop, by omega⟩

/-- Writing on in the current MDL. -/
theorem WriteSpace.advance {bytes : List UInt8} {mdl : Mdl} {next : List Mdl}
    {offset bytesWritten k : Nat} (h : WriteSpace bytes (mdl :: next) offset bytesWritten)
    (hk : k ≤ mdl.bytes.length - offset) (hleft : bytesWritten + k < bytes.length) :
    WriteSpace bytes (mdl :: next) (offset + k) (bytesWritten + k) ∧
      (bytes.take bytesWritten).map some ++ ((mdl.bytes.drop offset).take k).map some =
        (bytes.take (bytesWritten + k)).map some := by
  obtain ⟨hoffset, hdrop, -⟩ := h.length
  have hk' : k ≤ (mdl.bytes.drop offset).length := by simpa using hk
  refine ⟨⟨hleft, ⟨mdl, next, rfl, by omega, ?_⟩, h.lastLong⟩, ?_⟩
  · rw [← List.drop_drop, ← List.drop_drop, ← hdrop, List.drop_append_of_le_length hk']
  · rw [← List.map_append, List.take_add, ← hdrop, List.take_append_of_le_length hk']

/-- The bytes of a chain whose last MDL is long. -/
theorem two_le_chainBytes {chain : List Mdl} {last : Mdl} (hlast : chain.getLast? = some last)
    (hlong : 2 ≤ last.bytes.length) : 2 ≤ (chainBytes chain).length := by
  have hmem : last ∈ chain := List.mem_of_getLast? hlast
  have hsub := (List.sublist_flatten_of_mem (List.mem_map_of_mem (f := Mdl.bytes) hmem)).length_le
  rw [← List.flatMap_def] at hsub
  exact Nat.le_trans hlong hsub

/-- Moving on to the next MDL. -/
theorem WriteSpace.nextMdl {bytes : List UInt8} {mdl mdl' : Mdl} {next : List Mdl}
    {bytesWritten : Nat}
    (h : WriteSpace bytes (mdl :: mdl' :: next) mdl.bytes.length bytesWritten) :
    WriteSpace bytes (mdl' :: next) 0 bytesWritten := by
  obtain ⟨-, hdrop, -⟩ := h.length
  obtain ⟨last, hlast, hlong⟩ := h.lastLong
  refine ⟨h.left, ⟨mdl', next, rfl, Nat.zero_le _, ?_⟩, last, ?_, hlong⟩
  · rw [← hdrop, List.drop_length, List.nil_append, List.drop_zero]
    rfl
  · rwa [List.getLast?_cons_cons] at hlast

/-- **The loop keeps the cursor**: what it pushes are the next bytes of the chain, and it stops
for the last byte only when one byte is left. -/
theorem sendMdls_spec {bytes : List UInt8} (hulong : bytes.length < ulongRange) :
    ∀ {chain : List Mdl} {offset bytesWritten : Nat} (reads : Nat → Status),
      WriteSpace bytes chain offset bytesWritten →
      let result := sendMdls bytes.length chain offset bytesWritten reads
      WriteSpace bytes result.currentWriteMdl result.currentWriteMdlOffset result.bytesWritten ∧
      (bytes.take bytesWritten).map some ++ result.pushed =
        (bytes.take result.bytesWritten).map some ∧
      result.exit ≠ .nullMdl ∧
      (result.exit = .lastByte → result.bytesWritten + 1 = bytes.length)
  | [], _, _, _, h => by
    obtain ⟨_, _, hnil, -⟩ := h.cursor
    cases hnil
  | mdl :: next, offset, bytesWritten, reads, h => by
    obtain ⟨hoffset, hdrop, hlength⟩ := h.length
    have hleft := h.left
    obtain ⟨k, hk, hpushed, hklen⟩ := writeFifo_spec mdl.bytes (mdlBytesToWrite mdl next offset)
      offset reads (by have := mdlBytesToWrite_le mdl next offset; omega)
    have hkle : k ≤ mdl.bytes.length - offset := Nat.le_trans hk (mdlBytesToWrite_le mdl next offset)
    -- writing in the last MDL stops one byte early, and after another one two bytes follow
    have hleft' : bytesWritten + k < bytes.length := by
      obtain ⟨last, hlast, hlong⟩ := h.lastLong
      cases next with
      | nil =>
        have hnil : (chainBytes []).length = 0 := rfl
        simp only [mdlBytesToWrite, List.isEmpty_nil, if_true] at hk
        omega
      | cons mdl' next =>
        rw [List.getLast?_cons_cons] at hlast
        have := two_le_chainBytes hlast hlong
        omega
    obtain ⟨hspace, htake⟩ := h.advance hkle hleft'
    have htoWrite := mdlBytesToWrite_eq mdl next offset (by omega) (by omega)
    simp only [sendMdls, htoWrite, hklen]
    by_cases hmore : k = mdlBytesToWrite mdl next offset
    · by_cases hlast : bytesWritten + k + 1 = bytes.length
      · rw [if_neg (by simpa using hmore), if_pos hlast]
        exact ⟨hspace, hpushed ▸ htake, by simp, fun _ => hlast⟩
      · rw [if_neg (by simpa using hmore), if_neg hlast]
        cases next with
        | nil =>
          -- one byte of the last MDL is left, contrary to the test
          have hnil : (chainBytes []).length = 0 := rfl
          simp only [mdlBytesToWrite, List.isEmpty_nil, if_true] at hmore
          omega
        | cons mdl' next =>
          have hend : offset + k = mdl.bytes.length := by
            simp only [mdlBytesToWrite, List.isEmpty_cons, Bool.false_eq_true, if_false] at hmore
            omega
          rw [hend] at hspace
          obtain ⟨hspace', htake', hexit, hone⟩ := sendMdls_spec hulong
            (writeFifo mdl.bytes (mdlBytesToWrite mdl (mdl' :: next) offset) offset reads).2
            hspace.nextMdl
          refine ⟨hspace', ?_, hexit, hone⟩
          rw [← List.append_assoc, hpushed, htake, htake']
    · rw [if_pos (by simpa using hmore)]
      exact ⟨hspace, hpushed ▸ htake, by simp, by simp⟩

/-! ## The invariant -/

/-- Before the last byte: a proper prefix of the chain has been pushed and no read started. While
the driver is sending, its cursor stands where the prefix ends. -/
structure Unsent (bytes : List UInt8) (bytesToRead : Nat) (c : InterruptContext) : Prop where
  noFault : c.fault = false
  state : c.state = .sendingSequence ∨ c.state = .invalid
  proper : ∃ k < bytes.length, pushed c.log = (bytes.take k).map some
  noRestart : restarts c.log = 0
  space : c.state = .sendingSequence →
    bytes.length < ulongRange ∧ c.sequenceContext.bytesToWrite = bytes.length ∧
    c.sequenceContext.bytesToRead = bytesToRead ∧
    pushed c.log = (bytes.take c.sequenceContext.bytesWritten).map some ∧
    WriteSpace bytes c.sequenceContext.currentWriteMdl c.sequenceContext.currentWriteMdlOffset
      c.sequenceContext.bytesWritten

/-- After the last byte: the log is all bytes but the last, the start of the read, the last
byte, and nothing of the kind after it. -/
structure Sent (bytes : List UInt8) (bytesToRead : Nat) (c : InterruptContext) : Prop where
  noFault : c.fault = false
  state : c.state ≠ .sendingSequence
  log : ∃ front last back, c.log = front ++
    [.dataLength bytesToRead, .control .startRead, .dataFifo (some last)] ++ back ∧
    pushed front ++ [some last] = bytes.map some ∧ restarts front = 0 ∧
    pushed back = [] ∧ restarts back = 0

theorem Unsent.sound {writeMdl : List Mdl} {readMdl : List Nat} {c : InterruptContext}
    (h : Unsent (chainBytes writeMdl) readMdl.sum c) : WriteSound writeMdl readMdl c := by
  obtain ⟨k, hk, hpushed⟩ := h.proper
  have hne : pushed c.log ≠ (chainBytes writeMdl).map some := by
    intro heq
    have := congrArg List.length (hpushed ▸ heq)
    simp only [List.length_map, List.length_take] at this
    omega
  refine ⟨h.noFault, ?_, ?_, ?_, ?_, fun heq => absurd heq hne⟩
  · rw [← mem_pushed, hpushed]
    exact none_notMem_map_some _
  · rw [hpushed]
    exact (List.take_prefix ..).map _
  · rintro (hs | hs) <;> rcases h.state with hs' | hs' <;> simp [hs] at hs'
  · rw [h.noRestart, if_neg hne]

theorem Sent.sound {writeMdl : List Mdl} {readMdl : List Nat} {c : InterruptContext}
    (h : Sent (chainBytes writeMdl) readMdl.sum c) : WriteSound writeMdl readMdl c := by
  obtain ⟨front, last, back, hlog, hbytes, hfront, hback, hback'⟩ := h.log
  have hpushed : pushed c.log = (chainBytes writeMdl).map some := by
    rw [hlog, pushed_append, pushed_append, hback, List.append_nil, ← hbytes]
    rfl
  refine ⟨h.noFault, ?_, hpushed ▸ List.prefix_rfl, fun _ => hpushed, ?_,
    fun _ => ⟨front, some last, back, hlog, hback⟩⟩
  · rw [← mem_pushed, hpushed]
    exact none_notMem_map_some _
  · rw [if_pos hpushed, hlog, restarts_append, restarts_append, hfront, hback']
    rfl

/-- The last byte of a chain, where the cursor stands when one byte is left. -/
theorem WriteSpace.fetch_last {bytes : List UInt8} {chain : List Mdl} {offset bytesWritten : Nat}
    (h : WriteSpace bytes chain offset bytesWritten) (hone : bytesWritten + 1 = bytes.length) :
    ∃ last, fetch chain offset = some last ∧ bytes.take bytesWritten ++ [last] = bytes := by
  obtain ⟨mdl, next, rfl, hoffset, hdrop⟩ := h.cursor
  obtain ⟨-, -, hlength⟩ := h.length
  obtain ⟨last, hlast, hlong⟩ := h.lastLong
  have hnext : next = [] := by
    cases next with
    | nil => rfl
    | cons mdl' next =>
      rw [List.getLast?_cons_cons] at hlast
      have := two_le_chainBytes hlast hlong
      omega
  subst hnext
  have hnil : (chainBytes []).length = 0 := rfl
  have hlt : offset < mdl.bytes.length := by omega
  refine ⟨mdl.bytes[offset], by simp [fetch, List.getElem?_eq_getElem hlt], ?_⟩
  have hdrop' : bytes.drop bytesWritten = [mdl.bytes[offset]] := by
    rw [← hdrop, List.drop_eq_getElem_cons hlt, List.drop_eq_nil_of_le (by omega)]
    rfl
  rw [← hdrop', List.take_append_drop]

/-- Programming the read when one byte is left. -/
theorem programRead_sent {bytes : List UInt8} {c : InterruptContext} {last : UInt8}
    (hfault : c.fault = false) (hrestarts : restarts c.log = 0)
    (hfetch : fetch c.sequenceContext.currentWriteMdl c.sequenceContext.currentWriteMdlOffset =
      some last)
    (hpushed : pushed c.log ++ [some last] = bytes.map some) :
    Sent bytes c.sequenceContext.bytesToRead (programRead c) where
  noFault := hfault
  state := by simp [programRead]
  log := ⟨c.log, last, [], by simp [programRead, InterruptContext.write, hfetch], hpushed,
    hrestarts, rfl, rfl⟩

/-! ## Steps -/

/-- A pass of the interrupt handler through the write chain. -/
theorem sendSequence_step {bytes : List UInt8} {bytesToRead : Nat} {c : InterruptContext}
    (reads : Nat → Status) (h : Unsent bytes bytesToRead c) (hstate : c.state = .sendingSequence) :
    Unsent bytes bytesToRead (sendSequence c reads) ∨
      Sent bytes bytesToRead (sendSequence c reads) := by
  obtain ⟨hulong, htotal, hread, hpushed, hspace⟩ := h.space hstate
  obtain ⟨hspace', htake, hexit, hone⟩ := sendMdls_spec hulong reads hspace
  rw [← htotal] at hspace' htake hexit hone
  rw [← hpushed] at htake
  unfold sendSequence
  generalize sendMdls c.sequenceContext.bytesToWrite c.sequenceContext.currentWriteMdl
    c.sequenceContext.currentWriteMdlOffset c.sequenceContext.bytesWritten reads = result at *
  have hpushed' : pushed (storeCursor c result).log =
      (bytes.take result.bytesWritten).map some := by
    rw [← htake]
    simp [storeCursor, InterruptContext.write]
  have hrestarts' : restarts (storeCursor c result).log = 0 := by
    simp [storeCursor, InterruptContext.write, h.noRestart]
  have hunsent : Unsent bytes bytesToRead (storeCursor c result) :=
    ⟨h.noFault, h.state, ⟨_, hspace'.left, hpushed'⟩, hrestarts',
      fun _ => ⟨hulong, htotal, hread, hpushed', hspace'⟩⟩
  unfold finishSend
  cases hcase : result.exit with
  | moreInMdl => exact .inl hunsent
  | nullMdl => exact absurd hcase hexit
  | lastByte =>
    by_cases htxw : (result.reads 0).txw
    · rw [htotal] at hone
      obtain ⟨last, hfetch, hlast⟩ := hspace'.fetch_last (hone hcase)
      have hall : pushed (storeCursor c result).log ++ [some last] = bytes.map some := by
        conv_rhs => rw [← hlast, List.map_append]
        rw [hpushed']
        rfl
      simp only [htxw, if_true]
      exact .inr (hread ▸ programRead_sent (c := storeCursor c result) h.noFault hrestarts' hfetch
        hall)
    · simp only [htxw]
      exact .inl hunsent

/-- Register writes that belong to neither half of the write. -/
def Neutral (ws : List RegisterWrite) : Prop :=
  pushed ws = [] ∧ restarts ws = 0

/-- A step that leaves the write alone: its register writes are neutral, and it neither moves the
cursor nor goes on to another state of a sequence before the write is over. -/
structure Frame (c c' : InterruptContext) : Prop where
  log : ∃ ws, Neutral ws ∧ c'.log = c.log ++ ws
  fault : c'.fault = c.fault
  same : c.state ≠ .receivingSequence →
    (c'.state = c.state ∨ c'.state = .invalid) ∧ c'.sequenceContext = c.sequenceContext
  notSending : c.state ≠ .sendingSequence → c'.state ≠ .sendingSequence

/-- A step that only writes neutral registers, stays in its state or gives the request up. -/
theorem Frame.of_log {c c' : InterruptContext} {ws : List RegisterWrite} (hws : Neutral ws)
    (hlog : c'.log = c.log ++ ws) (hfault : c'.fault = c.fault)
    (hsequence : c'.sequenceContext = c.sequenceContext)
    (hstate : c'.state = c.state ∨ c'.state = .invalid) : Frame c c' := by
  refine ⟨⟨ws, hws, hlog⟩, hfault, fun _ => ⟨hstate, hsequence⟩, fun hne => ?_⟩
  rcases hstate with hs | hs
  · rwa [hs]
  · simp [hs]

/-- A step that touches neither the registers nor the cursor. -/
theorem Frame.quiet {c c' : InterruptContext} (hlog : c'.log = c.log) (hfault : c'.fault = c.fault)
    (hsequence : c'.sequenceContext = c.sequenceContext) (hstate : c'.state = c.state) :
    Frame c c' :=
  .of_log ⟨rfl, rfl⟩ (hlog.trans (List.append_nil _).symm) hfault hsequence (.inl hstate)

theorem Frame.refl (c : InterruptContext) : Frame c c :=
  .quiet rfl rfl rfl rfl

theorem frame_queueDpc {c c' : InterruptContext} {value : Control}
    (hvalue : (value.st && value.read) = false) (hlog : c'.log = c.log)
    (hfault : c'.fault = c.fault) (hsequence : c'.sequenceContext = c.sequenceContext)
    (hstate : c'.state = c.state) : Frame c (queueDpc c' value) :=
  .of_log ⟨rfl, by simp [restarts, RegisterWrite.isRestart, hvalue]⟩ (congrArg (· ++ _) hlog)
    hfault hsequence (.inl hstate)

theorem frame_reset {c c' : InterruptContext} (hlog : c'.log = c.log) (hfault : c'.fault = c.fault)
    (hsequence : c'.sequenceContext = c.sequenceContext) :
    Frame c (resetHardwareAndRequestContext c') :=
  .of_log ⟨rfl, rfl⟩ (congrArg (· ++ _) hlog) hfault hsequence (.inr rfl)

theorem frame_receiveSequence {c : InterruptContext} (reads : Nat → Status)
    (h : c.state = .receivingSequence) : Frame c (receiveSequence c reads) := by
  refine ⟨⟨[], ⟨rfl, rfl⟩, (List.append_nil _).symm⟩, rfl, fun hne => absurd h hne, fun _ => ?_⟩
  simp only [receiveSequence, h]
  split <;> simp

/-- **What an action does**: it is a pass through the write chain, or it leaves the write alone. -/
theorem step_cases (c : InterruptContext) (a : Action) :
    (c.state = .sendingSequence ∧ ∃ reads, step c a = sendSequence c reads) ∨
      Frame c (step c a) := by
  unfold step
  cases a with
  | interrupt statusReg reads =>
    simp only [handleInterrupt]
    by_cases hfault : c.fault
    · rw [if_pos hfault]
      exact .inr (.refl c)
    rw [if_neg hfault]
    by_cases hclaim : !(statusReg.rxr || statusReg.txw || statusReg.done)
    · rw [if_pos hclaim]
      exact .inr (.refl c)
    rw [if_neg hclaim]
    by_cases hinvalid : c.state = .invalid
    · rw [if_pos hinvalid]
      exact .inr (.refl c)
    rw [if_neg hinvalid]
    by_cases herror : c.errorFlag
    · rw [if_pos herror]
      exact .inr (frame_queueDpc rfl rfl rfl rfl rfl)
    rw [if_neg herror]
    by_cases hhw : statusReg.clkt || statusReg.err
    · rw [if_pos hhw]
      split
      · exact .inr (.quiet rfl rfl rfl rfl)
      · exact .inr (frame_queueDpc rfl rfl rfl rfl rfl)
    rw [if_neg hhw]
    -- only a sequence that is being sent writes to the FIFO
    cases hstate : c.state with
    | invalid => exact .inr (.refl c)
    | sendingSequence => exact .inl ⟨rfl, reads, rfl⟩
    | receivingSequence => exact .inr (frame_receiveSequence reads hstate)
    | receivingSequenceWaitForDone => exact .inr (frame_queueDpc rfl rfl rfl rfl rfl)
  | dpc unmark =>
    refine .inr ?_
    simp only [onInterruptDpc]
    by_cases hfault : c.fault
    · rw [if_pos hfault]
      exact .refl c
    rw [if_neg hfault]
    split
    · split
      · cases unmark with
        | success => exact frame_reset rfl rfl rfl
        | cancelled => exact .quiet rfl rfl rfl rfl
        | failed => exact .quiet rfl rfl rfl rfl
      · exact .quiet rfl rfl rfl rfl
    · exact .refl c
  | cancel =>
    refine .inr ?_
    simp only [onRequestCancel]
    split
    · exact .refl c
    · split
      · exact frame_reset rfl rfl rfl
      · exact .refl c

theorem Unsent.frame {bytes : List UInt8} {bytesToRead : Nat} {c c' : InterruptContext}
    (h : Unsent bytes bytesToRead c) (hframe : Frame c c') : Unsent bytes bytesToRead c' := by
  obtain ⟨ws, hws, hlog⟩ := hframe.log
  obtain ⟨hstate, hsequence⟩ := hframe.same fun hs => by rcases h.state with h | h <;> simp [h] at hs
  have hpushed : pushed c'.log = pushed c.log := by
    rw [hlog, pushed_append, hws.1, List.append_nil]
  refine ⟨hframe.fault.trans h.noFault, ?_, ?_, ?_, ?_⟩
  · rcases hstate with hs | hs
    · rw [hs]
      exact h.state
    · exact .inr hs
  · rw [hpushed]
    exact h.proper
  · rw [hlog, restarts_append, h.noRestart, hws.2]
  · intro hs
    rw [hpushed, hsequence]
    rcases hstate with hs' | hs'
    · exact h.space (hs'.symm.trans hs)
    · rw [hs] at hs'
      cases hs'

theorem Sent.frame {bytes : List UInt8} {bytesToRead : Nat} {c c' : InterruptContext}
    (h : Sent bytes bytesToRead c) (hframe : Frame c c') : Sent bytes bytesToRead c' := by
  obtain ⟨ws, hws, hlog⟩ := hframe.log
  obtain ⟨front, last, back, hlog', hbytes, hfront, hback, hback'⟩ := h.log
  refine ⟨hframe.fault.trans h.noFault, hframe.notSending h.state, front, last, back ++ ws, ?_,
    hbytes, hfront, ?_, ?_⟩
  · rw [hlog, hlog', List.append_assoc]
  · rw [pushed_append, hback, hws.1]
    rfl
  · rw [restarts_append, hback', hws.2]

/-- **The invariant of a run**: the write is under way and sound so far, or done. -/
theorem step_inv {bytes : List UInt8} {bytesToRead : Nat} {c : InterruptContext} (a : Action)
    (h : Unsent bytes bytesToRead c ∨ Sent bytes bytesToRead c) :
    Unsent bytes bytesToRead (step c a) ∨ Sent bytes bytesToRead (step c a) := by
  rcases step_cases c a with ⟨hstate, reads, heq⟩ | hframe
  · rw [heq]
    rcases h with h | h
    · exact sendSequence_step reads h hstate
    · exact absurd hstate h.state
  · exact h.imp (·.frame hframe) (·.frame hframe)

theorem run_inv {bytes : List UInt8} {bytesToRead : Nat} :
    ∀ (actions : List Action) (c : InterruptContext),
      Unsent bytes bytesToRead c ∨ Sent bytes bytesToRead c →
      Unsent bytes bytesToRead (actions.foldl step c) ∨ Sent bytes bytesToRead (actions.foldl step c)
  | [], _, h => h
  | a :: actions, _, h => run_inv actions _ (step_inv a h)

/-! ## The start -/

/-- A refused request touches nothing. -/
theorem unsent_idle {bytes : List UInt8} (h : bytes ≠ []) (bytesToRead : Nat) :
    Unsent bytes bytesToRead .idle :=
  ⟨rfl, .inr rfl, ⟨0, List.length_pos_of_ne_nil h, by simp [InterruptContext.idle, pushed]⟩, rfl,
    nofun⟩

/-- The context when `StartSequenceWrite` is called. -/
def startContext (writeMdl : List Mdl) (readMdl : List Nat) : InterruptContext :=
  { InterruptContext.idle with
    state := .sendingSequence
    hasRequest := true
    sequenceContext := ⟨writeMdl, 0, (chainBytes writeMdl).length, 0, readMdl, 0, readMdl.sum, 0⟩
    log := [.control { clear := true }, .dataLength (chainBytes writeMdl).length,
      .control { i2cen := true, st := true, clear := true }] }

@[simp] theorem startContext_bytesToWrite (writeMdl : List Mdl) (readMdl : List Nat) :
    (startContext writeMdl readMdl).sequenceContext.bytesToWrite = (chainBytes writeMdl).length :=
  rfl

theorem onSequence_eq {writeMdl : List Mdl} {readMdl : List Nat} {start : SequenceStart}
    (hwrite : (chainBytes writeMdl).length ≤ bcmI2cMaxTransferLength)
    (hread : readMdl.sum ≤ bcmI2cMaxTransferLength) (hmapped : start.mapped = true) :
    onSequence writeMdl readMdl start = startSequenceWrite (startContext writeMdl readMdl) start := by
  simp only [onSequence, if_neg (Nat.not_lt.2 hwrite), if_neg (Nat.not_lt.2 hread), hmapped]
  rfl

theorem Mdl.bytes_eq_cons (mdl : Mdl) : ∃ byte tail, mdl.bytes = byte :: tail :=
  List.exists_cons_of_ne_nil mdl.nonempty

/-- The start of a one-byte write: the read is programmed before the byte. -/
theorem startSequenceWrite_one {first : Mdl} {rest : List Mdl} {readMdl : List Nat}
    {start : SequenceStart} (hone : (chainBytes (first :: rest)).length = 1) :
    Unsent (chainBytes (first :: rest)) readMdl.sum
        (startSequenceWrite (startContext (first :: rest) readMdl) start) ∨
      Sent (chainBytes (first :: rest)) readMdl.sum
        (startSequenceWrite (startContext (first :: rest) readMdl) start) := by
  obtain ⟨byte, tail, hbytes⟩ := first.bytes_eq_cons
  have hcons : chainBytes (first :: rest) = byte :: (tail ++ chainBytes rest) := by
    simp [chainBytes, hbytes]
  have hsingle : chainBytes (first :: rest) = [byte] := by
    rw [hcons, List.length_cons] at hone
    rw [hcons, List.eq_nil_of_length_eq_zero (Nat.succ.inj hone)]
  have hfetch : fetch (first :: rest) 0 = some byte := by
    simp [fetch, hbytes]
  unfold startSequenceWrite
  rw [startContext_bytesToWrite, if_pos hone]
  by_cases hactive : waitForTransferActive 10000 start.reads
  · have hsent : Sent (chainBytes (first :: rest)) readMdl.sum
        (programRead (startContext (first :: rest) readMdl)) :=
      programRead_sent (c := startContext (first :: rest) readMdl) rfl rfl hfetch (by
        rw [hsingle]
        rfl)
    rw [if_pos hactive]
    split
    · exact .inr hsent
    · exact .inr (hsent.frame (frame_reset rfl rfl rfl))
  · rw [if_neg hactive]
    exact .inl ⟨rfl, .inr rfl, ⟨0, by omega, rfl⟩, rfl, nofun⟩

/-- The start of a longer write: the first byte is pushed. -/
theorem startSequenceWrite_more {first : Mdl} {rest : List Mdl} {readMdl : List Nat}
    {start : SequenceStart} (hmax : (chainBytes (first :: rest)).length ≤ bcmI2cMaxTransferLength)
    (hlong : 2 ≤ (lastMdl first rest).bytes.length) :
    Unsent (chainBytes (first :: rest)) readMdl.sum
      (startSequenceWrite (startContext (first :: rest) readMdl) start) := by
  obtain ⟨byte, tail, hbytes⟩ := first.bytes_eq_cons
  have hcons : chainBytes (first :: rest) = byte :: (tail ++ chainBytes rest) := by
    simp [chainBytes, hbytes]
  have hlast : (first :: rest).getLast? = some (lastMdl first rest) :=
    List.getLast?_eq_some_getLast (List.cons_ne_nil first rest)
  have htwo := two_le_chainBytes hlast hlong
  have hfetch : fetch (first :: rest) 0 = some byte := by
    simp [fetch, hbytes]
  have hspace : WriteSpace (chainBytes (first :: rest)) (first :: rest) 1 1 := by
    refine ⟨by omega, ⟨first, rest, rfl, by simp [hbytes], ?_⟩, _, hlast, hlong⟩
    rw [hcons, hbytes]
    rfl
  have hulong : (chainBytes (first :: rest)).length < ulongRange := by
    unfold bcmI2cMaxTransferLength at hmax
    unfold ulongRange
    omega
  let c := startContext (first :: rest) readMdl
  have hpushed : pushed (pushFirstByte c).log = ((chainBytes (first :: rest)).take 1).map some := by
    show [fetch (first :: rest) 0] = _
    rw [hfetch, hcons]
    rfl
  have hunsent : Unsent (chainBytes (first :: rest)) readMdl.sum (pushFirstByte c) :=
    ⟨rfl, .inl rfl, ⟨1, by omega, hpushed⟩, rfl, fun _ => ⟨hulong, rfl, rfl, hpushed, hspace⟩⟩
  unfold startSequenceWrite
  rw [startContext_bytesToWrite, if_neg (by omega)]
  split
  · exact hunsent.frame (.of_log ⟨rfl, rfl⟩ rfl rfl rfl (.inl rfl))
  · exact hunsent.frame (frame_reset rfl rfl rfl)

/-- The start of a request that is refused, of one byte, or whose last MDL is long. -/
theorem onSequence_inv {first : Mdl} {rest : List Mdl} {readMdl : List Nat} (start : SequenceStart)
    (h : bcmI2cMaxTransferLength < (chainBytes (first :: rest)).length ∨
      bcmI2cMaxTransferLength < readMdl.sum ∨ (chainBytes (first :: rest)).length = 1 ∨
      2 ≤ (lastMdl first rest).bytes.length) :
    Unsent (chainBytes (first :: rest)) readMdl.sum (onSequence (first :: rest) readMdl start) ∨
      Sent (chainBytes (first :: rest)) readMdl.sum (onSequence (first :: rest) readMdl start) := by
  have hne : chainBytes (first :: rest) ≠ [] := by
    simp [chainBytes, first.nonempty]
  by_cases hwrite : bcmI2cMaxTransferLength < (chainBytes (first :: rest)).length
  · rw [onSequence, if_pos hwrite]
    exact .inl (unsent_idle hne _)
  by_cases hread : bcmI2cMaxTransferLength < readMdl.sum
  · rw [onSequence, if_neg hwrite, if_pos hread]
    exact .inl (unsent_idle hne _)
  by_cases hmapped : start.mapped
  · rw [onSequence_eq (by omega) (by omega) hmapped]
    rcases h with h | h | hone | hlong
    · exact absurd h hwrite
    · exact absurd h hread
    · exact startSequenceWrite_one hone
    · exact .inl (startSequenceWrite_more (by omega) hlong)
  · rw [onSequence, if_neg hwrite, if_neg hread, if_pos (by simpa using hmapped)]
    exact .inl (unsent_idle hne _)

/-! ## A last MDL of one byte -/

/-- A status register with room in the FIFO. -/
def Status.ready : Status :=
  ⟨false, false, false, true, false, true, false, true⟩

/-- A FIFO with room takes all bytes. -/
theorem writeFifo_ready (bytes : List UInt8) :
    ∀ n offset, (writeFifo bytes n offset fun _ => .ready).1.length = n ∧
      (writeFifo bytes n offset fun _ => .ready).2 = fun _ => .ready := by
  intro n
  induction n with
  | zero => exact fun _ => ⟨rfl, rfl⟩
  | succ n ih =>
    intro offset
    obtain ⟨hlen, hreads⟩ := ih (offset + 1)
    exact ⟨congrArg (· + 1) hlen, hreads⟩

/-- With room in the FIFO the loop stops at the end of the MDL before a last one of one byte. -/
theorem sendMdls_short {last : Mdl} (hlast : last.bytes.length = 1) (total : Nat) :
    ∀ (mdl : Mdl) (next : List Mdl) (offset bytesWritten : Nat),
      next.getLast? = some last → offset ≤ mdl.bytes.length →
      bytesWritten + (mdl.bytes.length - offset) + (chainBytes next).length = total →
      let result := sendMdls total (mdl :: next) offset bytesWritten fun _ => .ready
      result.exit = .lastByte ∧ (result.reads 0).txw = true ∧
        fetch result.currentWriteMdl result.currentWriteMdlOffset = none
  | _, [], _, _, hnil, _, _ => by simp at hnil
  | mdl, mdl' :: next, offset, bytesWritten, hnext, hoffset, htotal => by
    obtain ⟨hlen, hreads⟩ := writeFifo_ready mdl.bytes (mdl.bytes.length - offset) offset
    have hcons : (chainBytes (mdl' :: next)).length =
        mdl'.bytes.length + (chainBytes next).length := by
      simp [chainBytes]
    simp only [sendMdls, List.isEmpty_cons, Bool.false_eq_true, if_false, hlen, ne_eq,
      not_true_eq_false]
    cases next with
    | nil =>
      -- the MDL after this one is the last
      obtain rfl : mdl' = last := by simpa using hnext
      have hnil : (chainBytes []).length = 0 := rfl
      rw [if_pos (by omega)]
      refine ⟨rfl, by rw [hreads]; rfl, ?_⟩
      have hend : offset + (mdl.bytes.length - offset) = mdl.bytes.length := by omega
      simp [fetch, hend]
    | cons mdl'' next =>
      rw [List.getLast?_cons_cons] at hnext
      have hpos : 0 < mdl'.bytes.length := List.length_pos_of_ne_nil mdl'.nonempty
      have hpos' : 0 < (chainBytes (mdl'' :: next)).length :=
        List.length_pos_of_ne_nil (by simp [chainBytes, mdl''.nonempty])
      rw [if_neg (by omega), hreads]
      exact sendMdls_short hlast total mdl' (mdl'' :: next) 0
        (bytesWritten + (mdl.bytes.length - offset)) hnext (Nat.zero_le _) (by omega)

/-- **A last MDL of one byte is missed**: the byte is fetched past the end of the MDL before it. -/
theorem fetch_none_of_short {first : Mdl} {rest : List Mdl} {readMdl : List Nat}
    (hwrite : (chainBytes (first :: rest)).length ≤ bcmI2cMaxTransferLength)
    (hread : readMdl.sum ≤ bcmI2cMaxTransferLength)
    (hmany : (chainBytes (first :: rest)).length ≠ 1)
    (hshort : (lastMdl first rest).bytes.length < 2) :
    .dataFifo none ∈ (run (first :: rest) readMdl ⟨true, fun _ => .ready, true⟩
      [.interrupt .ready fun _ => .ready]).log := by
  have hone : (lastMdl first rest).bytes.length = 1 := by
    have := List.length_pos_of_ne_nil (lastMdl first rest).nonempty
    omega
  have hcons : (chainBytes (first :: rest)).length =
      first.bytes.length + (chainBytes rest).length := by
    simp [chainBytes]
  have hrest : rest.getLast? = some (lastMdl first rest) := by
    cases rest with
    | nil =>
      have hnil : (chainBytes []).length = 0 := rfl
      have : (lastMdl first []) = first := rfl
      rw [this] at hone
      omega
    | cons mdl rest =>
      have hlast := List.getLast?_eq_some_getLast (List.cons_ne_nil first (mdl :: rest))
      rwa [List.getLast?_cons_cons] at hlast
  have hpos : 1 ≤ first.bytes.length := List.length_pos_of_ne_nil first.nonempty
  obtain ⟨hexit, htxw, hfetch⟩ := sendMdls_short hone (chainBytes (first :: rest)).length first
    rest 1 1 hrest hpos (by omega)
  let c := (pushFirstByte (startContext (first :: rest) readMdl)).write
    [.control { i2cen := true, intt := true, intd := true }]
  have hstart : onSequence (first :: rest) readMdl ⟨true, fun _ => .ready, true⟩ = c := by
    rw [onSequence_eq hwrite hread rfl, startSequenceWrite, startContext_bytesToWrite, if_neg hmany]
    rfl
  have hstep : step c (.interrupt .ready fun _ => .ready) =
      finishSend c (sendMdls (chainBytes (first :: rest)).length (first :: rest) 1 1
        fun _ => .ready) := rfl
  rw [run, hstart, List.foldl_cons, List.foldl_nil, hstep, finishSend, hexit]
  simp only [htxw, if_true]
  exact List.mem_append_right _ (by simp [storeCursor, hfetch])

/-- **The write half is sound on every schedule exactly when** the request is refused for its
length, or one byte is written, or the last MDL of the write chain has two bytes or more. -/
theorem writeSound_iff (first : Mdl) (rest : List Mdl) (readMdl : List Nat) :
    (∀ start actions, WriteSound (first :: rest) readMdl
      (run (first :: rest) readMdl start actions)) ↔
    bcmI2cMaxTransferLength < (chainBytes (first :: rest)).length ∨
      bcmI2cMaxTransferLength < readMdl.sum ∨ (chainBytes (first :: rest)).length = 1 ∨
      2 ≤ (lastMdl first rest).bytes.length := by
  constructor
  · intro hsound
    by_contra hcond
    rw [not_or, not_or, not_or] at hcond
    obtain ⟨hwrite, hread, hmany, hshort⟩ := hcond
    exact (hsound _ _).inBounds
      (fetch_none_of_short (by omega) (by omega) hmany (by omega))
  · intro h start actions
    rcases run_inv actions _ (onSequence_inv start h) with h | h
    · exact h.sound
    · exact h.sound

/-- **Two MDLs of two and one bytes**: the third byte pushed lies past the end of the first MDL,
and the second MDL is never read. -/
theorem fetch_past_end :
    ∃ start actions, ¬ WriteSound [⟨[1, 2], nofun⟩, ⟨[3], nofun⟩] [1]
        (run [⟨[1, 2], nofun⟩, ⟨[3], nofun⟩] [1] start actions) ∧
      pushed (run [⟨[1, 2], nofun⟩, ⟨[3], nofun⟩] [1] start actions).log =
        [some 1, some 2, none] := by
  refine ⟨⟨true, fun _ => .ready, true⟩, [.interrupt .ready fun _ => .ready], fun h => ?_, ?_⟩
  · exact h.inBounds (by decide)
  · decide

end RpiDrivers.I2c
