import Mathlib.Order.Basic
import Mathlib.Tactic.SplitIfs
import RpiDrivers.I2c.SequenceWrite

/-!
# The completion of an I2C request (`device.cpp` of the BCM2836 driver)

The interrupt handler captures the status register and the data length, which counts the bytes to
go. When the transfer has ended, `ProcessRequestCompletion` computes from them, and from how far
the buffers have come, the status of the request and the number of its bytes.

- `processRequestCompletion`: the computation, for every state.
- `BusOutcome`: what has happened on the bus, and what a write shows of it.
- `completionSound`: **the count is in range; it is the full length only when everything was
  transferred without an error; it is exact when a write is not acknowledged; it is zero after a
  timeout, and when a read or a sequence whose read is programmed is not acknowledged**.
- `timeout_count`: a timeout after two bytes, of which none is reported.
- `buffered_run`: **in every run, a transfer that ends without an error has filled or emptied its
  buffers**, as the driver asserts; `complete_run`: a read is then reported in full.
-/

namespace RpiDrivers.I2c.Completion

/-- The `NTSTATUS` values that occur. -/
inductive NtStatus
  | success
  | ioTimeout
  | noSuchDevice
  | internalError
  deriving DecidableEq

/-! ## Numbers and flags -/

def bcmI2cRegStatusClkt : BitVec 32 := 0x200#32
def bcmI2cRegStatusErr : BitVec 32 := 0x100#32
def bcmI2cRegStatusRxr : BitVec 32 := 0x8#32
def bcmI2cRegStatusTxw : BitVec 32 := 0x4#32
def bcmI2cRegStatusDone : BitVec 32 := 0x2#32

/-- A mask has bits in common with a register. -/
def isSet (reg mask : BitVec 32) : Bool := reg &&& mask != 0#32

/-- A sum of two `ULONG`s. -/
def ulongAdd (a b : Nat) : Nat := (a + b) % ulongRange

/-- A difference of two `ULONG`s, or one of two pointers that is cast to `ULONG`. -/
def ulongSub (a b : Nat) : Nat := (a + (ulongRange - b % ulongRange)) % ulongRange

/-- Without underflow it is the difference. -/
theorem ulongSub_eq {a b : Nat} (h : b ≤ a) (hlt : a - b < ulongRange) : ulongSub a b = a - b := by
  unfold ulongSub ulongRange at *
  omega

/-! ## The transfers -/

/-- `WRITE_CONTEXT` and `READ_CONTEXT`: the buffer and the cursor in it. -/
structure BufferContext where
  bufferPtr : Nat
  currentBufferPtr : Nat
  endPtr : Nat
  started : bufferPtr ≤ currentBufferPtr
  inside : currentBufferPtr ≤ endPtr
  nonempty : bufferPtr < endPtr
  fits : endPtr - bufferPtr ≤ bcmI2cMaxTransferLength

/-- The counters of `SEQUENCE_CONTEXT`. -/
structure SequenceContext where
  bytesToWrite : Nat
  bytesWritten : Nat
  bytesToRead : Nat
  bytesRead : Nat
  written : bytesWritten ≤ bytesToWrite
  read : bytesRead ≤ bytesToRead
  writeLength : 0 < bytesToWrite ∧ bytesToWrite ≤ bcmI2cMaxTransferLength
  readLength : 0 < bytesToRead ∧ bytesToRead ≤ bcmI2cMaxTransferLength

/-- The `TRANSFER_STATE`, with the context of the union that belongs to it. -/
inductive Transfer
  | invalid
  | sending (waitForDone : Bool) (writeContext : BufferContext)
  | receiving (waitForDone : Bool) (readContext : BufferContext)
  | sendingSequence (sequenceContext : SequenceContext)
  | receivingSequence (waitForDone : Bool) (sequenceContext : SequenceContext)

def Transfer.isInvalid : Transfer → Bool
  | .invalid => true
  | _ => false

/-- `BCM_I2C_INTERRUPT_CONTEXT` -/
structure InterruptContext where
  transfer : Transfer
  /-- `ERROR_FLAG` of the state -/
  errorFlag : Bool
  capturedStatus : BitVec 32
  capturedDataLength : Nat
  dpcQueued : Bool

def BufferContext.length (c : BufferContext) : Nat := c.endPtr - c.bufferPtr

/-- How many bytes the request asks for. -/
def Transfer.requested : Transfer → Nat
  | .invalid => 0
  | .sending _ c | .receiving _ c => c.length
  | .sendingSequence c | .receivingSequence _ c => c.bytesToWrite + c.bytesToRead

/-! ## `ProcessRequestCompletion` -/

/-- The states `SENDING`, `SENDING_WAIT_FOR_DONE` and `SENDING_SEQUENCE`. -/
def completeWrite (bytesToWrite : Nat) (capturedStatus : BitVec 32) (capturedDataLength : Nat) :
    NtStatus × Nat :=
  if bytesToWrite < capturedDataLength then (.internalError, 0)
  else
    let bytesSent := ulongSub bytesToWrite capturedDataLength
    -- `CLKT` is checked before `ERR`, because `ERR` is also set when it is
    if isSet capturedStatus bcmI2cRegStatusClkt then (.ioTimeout, 0)
    else if isSet capturedStatus bcmI2cRegStatusErr then
      if bytesSent = 0 then (.noSuchDevice, 0) else (.success, ulongSub bytesSent 1)
    else if isSet capturedStatus bcmI2cRegStatusDone then
      if bytesSent = bytesToWrite then (.success, bytesSent) else (.internalError, 0)
    else (.internalError, 0)

/-- The states `RECEIVING` and `RECEIVING_WAIT_FOR_DONE`. -/
def completeRead (c : BufferContext) (capturedStatus : BitVec 32) : NtStatus × Nat :=
  if isSet capturedStatus bcmI2cRegStatusClkt then (.ioTimeout, 0)
  else if isSet capturedStatus bcmI2cRegStatusErr then (.noSuchDevice, 0)
  else (.success, ulongSub c.currentBufferPtr c.bufferPtr)

/-- The states `RECEIVING_SEQUENCE` and `RECEIVING_SEQUENCE_WAIT_FOR_DONE`. -/
def completeSequence (c : SequenceContext) (capturedStatus : BitVec 32)
    (capturedDataLength : Nat) : NtStatus × Nat :=
  if isSet capturedStatus bcmI2cRegStatusClkt then (.ioTimeout, 0)
  else if isSet capturedStatus bcmI2cRegStatusErr then
    -- how many bytes were written can not be told, the data length is that of the read
    if !isSet capturedStatus bcmI2cRegStatusDone || capturedDataLength == 0 then (.success, 0)
    else (.noSuchDevice, 0)
  else (.success, ulongAdd c.bytesWritten c.bytesRead)

/-- `ProcessRequestCompletion`: the status, and the information of the request. -/
def processRequestCompletion (c : InterruptContext) : NtStatus × Nat :=
  match c.transfer with
  | .sending _ context =>
    completeWrite (ulongSub context.endPtr context.bufferPtr) c.capturedStatus c.capturedDataLength
  | .sendingSequence context =>
    completeWrite context.bytesToWrite c.capturedStatus c.capturedDataLength
  | .receiving _ context => completeRead context c.capturedStatus
  | .receivingSequence _ context =>
    completeSequence context c.capturedStatus c.capturedDataLength
  | .invalid => (.internalError, 0)

/-! ## What happens on the bus -/

/-- The end of a write of `n` bytes, or of the write of a sequence. -/
inductive BusOutcome
  | complete
  /-- nobody has acknowledged the address -/
  | addressNack
  /-- so many bytes were acknowledged, and the next one was not -/
  | dataNack (acknowledged : Nat)
  /-- the clock was stretched too long, after so many bytes -/
  | stretchTimeout (acknowledged : Nat)
  deriving DecidableEq

/-- How many bytes were acknowledged. -/
def BusOutcome.acknowledged (n : Nat) : BusOutcome → Nat
  | complete => n
  | addressNack => 0
  | dataNack k | stretchTimeout k => k

/-- What the registers show after a write of `n` bytes. The data length counts the bytes that were
not sent; one that was sent and not acknowledged does not count. -/
def BusOutcome.Shows (n : Nat) (status : BitVec 32) (dataLength : Nat) : BusOutcome → Prop
  | complete => dataLength = 0 ∧ isSet status bcmI2cRegStatusDone ∧
      ¬ isSet status bcmI2cRegStatusErr ∧ ¬ isSet status bcmI2cRegStatusClkt
  | addressNack => dataLength = n ∧
      isSet status bcmI2cRegStatusErr ∧ ¬ isSet status bcmI2cRegStatusClkt
  | dataNack k => dataLength + k + 1 = n ∧
      isSet status bcmI2cRegStatusErr ∧ ¬ isSet status bcmI2cRegStatusClkt
  | stretchTimeout k => dataLength + k = n ∧ isSet status bcmI2cRegStatusClkt

namespace InterruptContext

variable (c : InterruptContext)

/-- The length of a write, as long as no read is programmed. -/
def bytesToWrite : Option Nat :=
  match c.transfer with
  | .sending _ context => some context.length
  | .sendingSequence context => some context.bytesToWrite
  | _ => none

/-- Every byte of the request was transferred. A write is counted by the controller. -/
def AllTransferred : Prop :=
  match c.transfer with
  | .invalid | .sendingSequence _ => False
  | .sending .. => c.capturedDataLength = 0
  | .receiving _ context => context.currentBufferPtr = context.endPtr
  | .receivingSequence _ context =>
    context.bytesWritten = context.bytesToWrite ∧ context.bytesRead = context.bytesToRead

def NoErrorFlag : Prop :=
  ¬ isSet c.capturedStatus bcmI2cRegStatusErr ∧ ¬ isSet c.capturedStatus bcmI2cRegStatusClkt

/-- An error that is not a timeout: something was not acknowledged. -/
def Nack : Prop :=
  isSet c.capturedStatus bcmI2cRegStatusErr ∧ ¬ isSet c.capturedStatus bcmI2cRegStatusClkt

end InterruptContext

/-- After an error the count is that of the bytes that were acknowledged. -/
def CountsAcknowledged (c : InterruptContext) : Prop :=
  ∀ (n : Nat) (o : BusOutcome), c.bytesToWrite = some n →
    o.Shows n c.capturedStatus c.capturedDataLength → o ≠ .complete →
    (processRequestCompletion c).2 = o.acknowledged n

/-- **The property.** -/
structure CompletionSound (c : InterruptContext) : Prop where
  inRange : (processRequestCompletion c).2 ≤ c.transfer.requested
  full : processRequestCompletion c = (.success, c.transfer.requested) →
    c.AllTransferred ∧ c.NoErrorFlag
  addressNack : ∀ n, c.bytesToWrite = some n →
    BusOutcome.addressNack.Shows n c.capturedStatus c.capturedDataLength →
    processRequestCompletion c = (.noSuchDevice, 0)
  dataNack : ∀ n k, c.bytesToWrite = some n →
    (BusOutcome.dataNack k).Shows n c.capturedStatus c.capturedDataLength →
    processRequestCompletion c = (.success, k)
  readNack : c.bytesToWrite = none → c.Nack → (processRequestCompletion c).2 = 0
  timeout : isSet c.capturedStatus bcmI2cRegStatusClkt →
    (processRequestCompletion c).1 ≠ .success ∧ (processRequestCompletion c).2 = 0

/-! ## Writes -/

section Write

variable {n dataLength : Nat} {status : BitVec 32}

/-- The completion of a write, without the wrap-around of its subtractions. -/
theorem completeWrite_eq (hn : n < ulongRange) (h : dataLength ≤ n) :
    completeWrite n status dataLength =
      if isSet status bcmI2cRegStatusClkt then (.ioTimeout, 0)
      else if isSet status bcmI2cRegStatusErr then
        if dataLength = n then (.noSuchDevice, 0) else (.success, n - dataLength - 1)
      else if isSet status bcmI2cRegStatusDone && dataLength == 0 then (.success, n)
      else (.internalError, 0) := by
  have hsent : ulongSub n dataLength = n - dataLength := ulongSub_eq h (by omega)
  rw [completeWrite, if_neg (Nat.not_lt.2 h), hsent]
  split
  · rfl
  split
  · by_cases heq : dataLength = n
    · rw [if_pos heq, if_pos (by omega)]
    · rw [if_neg heq, if_neg (by omega), ulongSub_eq (by omega) (by omega)]
  split
  next hdone =>
    by_cases hzero : dataLength = 0
    · simp [hdone, hzero]
    · rw [if_neg (by omega), if_neg (by simp [hzero])]
  next hdone => rw [if_neg (by simp [hdone])]

theorem completeWrite_le (hn : n < ulongRange) : (completeWrite n status dataLength).2 ≤ n := by
  by_cases h : dataLength ≤ n
  · rw [completeWrite_eq hn h]
    split_ifs <;> dsimp only <;> omega
  · rw [completeWrite, if_pos (Nat.lt_of_not_le h)]
    exact Nat.zero_le n

/-- The full length is reported when the data length has come to zero without an error. -/
theorem completeWrite_full (hn : n < ulongRange)
    (h : completeWrite n status dataLength = (.success, n)) :
    dataLength = 0 ∧ ¬ isSet status bcmI2cRegStatusErr ∧ ¬ isSet status bcmI2cRegStatusClkt := by
  by_cases hle : dataLength ≤ n
  · rw [completeWrite_eq hn hle] at h
    split_ifs at h with hclkt herr heq hdone
    · cases h
    · cases h
    · have hcount : n - dataLength - 1 = n := congrArg Prod.snd h
      omega
    · rw [Bool.and_eq_true, beq_iff_eq] at hdone
      exact ⟨hdone.2, herr, hclkt⟩
    · cases h
  · rw [completeWrite, if_pos (Nat.lt_of_not_le hle)] at h
    cases h

theorem completeWrite_addressNack (hn : n < ulongRange)
    (h : BusOutcome.addressNack.Shows n status dataLength) :
    completeWrite n status dataLength = (.noSuchDevice, 0) := by
  obtain ⟨rfl, herr, hclkt⟩ := h
  rw [completeWrite_eq hn le_rfl, if_neg hclkt, if_pos herr, if_pos rfl]

theorem completeWrite_dataNack {k : Nat} (hn : n < ulongRange)
    (h : (BusOutcome.dataNack k).Shows n status dataLength) :
    completeWrite n status dataLength = (.success, k) := by
  obtain ⟨hlength, herr, hclkt⟩ := h
  rw [completeWrite_eq hn (by omega), if_neg hclkt, if_pos herr, if_neg (by omega)]
  congr 1
  omega

theorem completeWrite_timeout (h : isSet status bcmI2cRegStatusClkt) :
    (completeWrite n status dataLength).1 ≠ .success ∧
      (completeWrite n status dataLength).2 = 0 := by
  rw [completeWrite]
  split
  · exact ⟨NtStatus.noConfusion, rfl⟩
  · exact ⟨NtStatus.noConfusion, rfl⟩

end Write

/-! ## All transfers -/

theorem maxTransferLength_lt : bcmI2cMaxTransferLength < ulongRange := by decide

namespace BufferContext

variable (context : BufferContext)

theorem length_lt : context.length < ulongRange :=
  context.fits.trans_lt maxTransferLength_lt

theorem ulongSub_end : ulongSub context.endPtr context.bufferPtr = context.length :=
  ulongSub_eq context.nonempty.le context.length_lt

theorem ulongSub_current :
    ulongSub context.currentBufferPtr context.bufferPtr =
      context.currentBufferPtr - context.bufferPtr := by
  have hinside := context.inside
  have hlength := context.length_lt
  unfold length at hlength
  exact ulongSub_eq context.started (by omega)

end BufferContext

theorem SequenceContext.ulongAdd_eq (context : SequenceContext) :
    ulongAdd context.bytesWritten context.bytesRead =
      context.bytesWritten + context.bytesRead := by
  have hwritten := context.written.trans context.writeLength.2
  have hread := context.read.trans context.readLength.2
  refine Nat.mod_eq_of_lt ?_
  unfold bcmI2cMaxTransferLength ulongRange at *
  omega

/-- Reads, and sequences whose read is programmed. -/
theorem completionSound_read {c : InterruptContext} {n : Nat} (hwrite : c.bytesToWrite = none)
    (hn : n ≤ c.transfer.requested) (hfull : n = c.transfer.requested → c.AllTransferred)
    (hpositive : 0 < c.transfer.requested)
    (h : (isSet c.capturedStatus bcmI2cRegStatusClkt ∧
        processRequestCompletion c = (.ioTimeout, 0)) ∨
      (c.Nack ∧ (processRequestCompletion c).2 = 0) ∨
      (c.NoErrorFlag ∧ processRequestCompletion c = (.success, n))) : CompletionSound c where
  inRange := by
    rcases h with ⟨-, heq⟩ | ⟨-, heq⟩ | ⟨-, heq⟩ <;> rw [heq]
    · exact Nat.zero_le _
    · exact Nat.zero_le _
    · exact hn
  full heq := by
    rcases h with ⟨-, hzero⟩ | ⟨-, hzero⟩ | ⟨hflags, hcount⟩
    · cases hzero.symm.trans heq
    · rw [heq] at hzero
      exact absurd hzero hpositive.ne'
    · exact ⟨hfull (congrArg Prod.snd (hcount.symm.trans heq)), hflags⟩
  addressNack n hsome := by cases hwrite.symm.trans hsome
  dataNack n k hsome := by cases hwrite.symm.trans hsome
  readNack _ hnack := by
    rcases h with ⟨hclkt, -⟩ | ⟨-, hzero⟩ | ⟨hflags, -⟩
    · exact absurd hclkt hnack.2
    · exact hzero
    · exact absurd hnack.1 hflags.1
  timeout hclkt := by
    rcases h with ⟨-, heq⟩ | ⟨hnack, -⟩ | ⟨hflags, -⟩
    · rw [heq]
      exact ⟨NtStatus.noConfusion, rfl⟩
    · exact absurd hclkt hnack.2
    · exact absurd hclkt hflags.2

/-- Writes, and sequences whose read is not programmed. -/
theorem completionSound_write {c : InterruptContext} {n : Nat} (hn : n < ulongRange)
    (hwrite : c.bytesToWrite = some n)
    (heq : processRequestCompletion c = completeWrite n c.capturedStatus c.capturedDataLength)
    (hle : n ≤ c.transfer.requested)
    (hfull : n = c.transfer.requested → c.capturedDataLength = 0 → c.AllTransferred) :
    CompletionSound c where
  inRange := by
    rw [heq]
    exact (completeWrite_le hn).trans hle
  full hrequested := by
    rw [heq] at hrequested
    have hcount : (completeWrite n c.capturedStatus c.capturedDataLength).2 ≤ n :=
      completeWrite_le hn
    rw [hrequested] at hcount
    have hn' : n = c.transfer.requested := le_antisymm hle hcount
    rw [← hn'] at hrequested
    obtain ⟨hzero, hflags⟩ := completeWrite_full hn hrequested
    exact ⟨hfull hn' hzero, hflags⟩
  addressNack n' hsome hshows := by
    obtain rfl := Option.some.inj (hwrite.symm.trans hsome)
    rw [heq]
    exact completeWrite_addressNack hn hshows
  dataNack n' k hsome hshows := by
    obtain rfl := Option.some.inj (hwrite.symm.trans hsome)
    rw [heq]
    exact completeWrite_dataNack hn hshows
  readNack hnone := by cases hwrite.symm.trans hnone
  timeout hclkt := by
    rw [heq]
    exact completeWrite_timeout hclkt

/-- **Every completion is sound**, whatever was captured. -/
theorem completionSound (c : InterruptContext) : CompletionSound c := by
  obtain ⟨transfer, errorFlag, status, dataLength, dpcQueued⟩ := c
  cases transfer with
  | invalid =>
    constructor
    case inRange => exact le_rfl
    case full => exact fun heq => NtStatus.noConfusion (congrArg Prod.fst heq)
    case addressNack => exact fun n hsome => absurd hsome.symm (Option.some_ne_none n)
    case dataNack => exact fun n k hsome => absurd hsome.symm (Option.some_ne_none n)
    case readNack => exact fun _ _ => rfl
    case timeout => exact fun _ => ⟨NtStatus.noConfusion, rfl⟩
  | sending waitForDone context =>
    refine completionSound_write context.length_lt rfl ?_ le_rfl fun _ hzero => hzero
    show completeWrite (ulongSub _ _) _ _ = _
    rw [context.ulongSub_end]
  | sendingSequence context =>
    have hread := context.readLength.1
    refine completionSound_write (context.writeLength.2.trans_lt maxTransferLength_lt) rfl rfl
      (Nat.le_add_right ..) fun heq _ => ?_
    have hsum : context.bytesToWrite = context.bytesToWrite + context.bytesToRead := heq
    omega
  | receiving waitForDone context =>
    -- the pointer is inside the buffer, so no more is reported than it holds
    have hinside := context.inside
    have hstarted := context.started
    have hpositive := context.nonempty
    refine completionSound_read (n := context.currentBufferPtr - context.bufferPtr) rfl ?_ ?_ ?_ ?_
    · show _ ≤ context.endPtr - context.bufferPtr
      omega
    · intro heq
      have hlength : _ = context.endPtr - context.bufferPtr := heq
      show context.currentBufferPtr = context.endPtr
      omega
    · show 0 < context.endPtr - context.bufferPtr
      omega
    · rw [processRequestCompletion]
      dsimp only
      rw [completeRead, context.ulongSub_current]
      by_cases hclkt : isSet status bcmI2cRegStatusClkt
      · exact .inl ⟨hclkt, if_pos hclkt⟩
      rw [if_neg hclkt]
      by_cases herr : isSet status bcmI2cRegStatusErr
      · exact .inr (.inl ⟨⟨herr, hclkt⟩, by rw [if_pos herr]⟩)
      · exact .inr (.inr ⟨⟨herr, hclkt⟩, if_neg herr⟩)
  | receivingSequence waitForDone context =>
    have hwritten := context.written
    have hread := context.read
    have hpositive := context.writeLength.1
    refine completionSound_read (n := context.bytesWritten + context.bytesRead) rfl ?_ ?_ ?_ ?_
    · show _ ≤ context.bytesToWrite + context.bytesToRead
      omega
    · intro heq
      have hsum : _ = context.bytesToWrite + context.bytesToRead := heq
      show context.bytesWritten = context.bytesToWrite ∧ context.bytesRead = context.bytesToRead
      omega
    · show 0 < context.bytesToWrite + context.bytesToRead
      omega
    · rw [processRequestCompletion]
      dsimp only
      rw [completeSequence, context.ulongAdd_eq]
      by_cases hclkt : isSet status bcmI2cRegStatusClkt
      · exact .inl ⟨hclkt, if_pos hclkt⟩
      rw [if_neg hclkt]
      by_cases herr : isSet status bcmI2cRegStatusErr
      · refine .inr (.inl ⟨⟨herr, hclkt⟩, ?_⟩)
        rw [if_pos herr]
        split <;> rfl
      · exact .inr (.inr ⟨⟨herr, hclkt⟩, if_neg herr⟩)

/-- A write of four bytes, whose clock is stretched too long after two of them. -/
theorem timeout_count :
    ¬ CountsAcknowledged
      { transfer := .sending true ⟨0, 4, 4, by decide, by decide, by decide, by decide⟩
        errorFlag := true
        capturedStatus := 0x300#32
        capturedDataLength := 2
        dpcQueued := true } := by
  intro h
  have hcount := h 4 (.stretchTimeout 2) rfl ⟨rfl, by decide⟩ (by decide)
  revert hcount
  decide

/-! ## The runs of a request -/

/-- A length that the dispatch routines accept. -/
structure TransferLength where
  value : Nat
  positive : 0 < value
  fits : value ≤ bcmI2cMaxTransferLength

namespace BufferContext

/-- The cursor is at the start. -/
def start (bufferPtr : Nat) (length : TransferLength) : BufferContext where
  bufferPtr := bufferPtr
  currentBufferPtr := bufferPtr
  endPtr := bufferPtr + length.value
  started := le_rfl
  inside := Nat.le_add_right ..
  nonempty := Nat.lt_add_of_pos_right length.positive
  fits := by
    rw [Nat.add_sub_cancel_left]
    exact length.fits

/-- The loops over the FIFO, which takes or has `n` bytes. -/
def advance (c : BufferContext) (n : Nat) : BufferContext :=
  { c with
    currentBufferPtr := c.currentBufferPtr + min n (c.endPtr - c.currentBufferPtr)
    started := c.started.trans (Nat.le_add_right ..)
    inside := by
      have hinside := c.inside
      omega }

def atEnd (c : BufferContext) : Bool := c.currentBufferPtr == c.endPtr

end BufferContext

namespace SequenceContext

/-- The first byte is written. -/
def start (writeLength readLength : TransferLength) : SequenceContext where
  bytesToWrite := writeLength.value
  bytesWritten := 1
  bytesToRead := readLength.value
  bytesRead := 0
  written := writeLength.positive
  read := Nat.zero_le _
  writeLength := ⟨writeLength.positive, writeLength.fits⟩
  readLength := ⟨readLength.positive, readLength.fits⟩

/-- The loop over the write chain, which leaves the last byte. -/
def write (c : SequenceContext) (n : Nat) : SequenceContext :=
  { c with
    bytesWritten := c.bytesWritten + min n (c.bytesToWrite - 1 - c.bytesWritten)
    written := by
      have hwritten := c.written
      omega }

/-- The last byte, behind which the read follows. -/
def programRead (c : SequenceContext) (h : c.bytesWritten + 1 = c.bytesToWrite) :
    SequenceContext :=
  { c with
    bytesWritten := c.bytesWritten + 1
    written := h.le }

/-- The loop over the read chain. -/
def receive (c : SequenceContext) (n : Nat) : SequenceContext :=
  { c with
    bytesRead := c.bytesRead + min n (c.bytesToRead - c.bytesRead)
    read := by
      have hread := c.read
      omega }

def allRead (c : SequenceContext) : Bool := c.bytesRead == c.bytesToRead

end SequenceContext

/-- The context of a new request. -/
def InterruptContext.new (transfer : Transfer) : InterruptContext where
  transfer := transfer
  errorFlag := false
  capturedStatus := 0#32
  capturedDataLength := 0
  dpcQueued := false

/-- `OnWrite`, where the FIFO takes `n` bytes at once -/
def onWrite (bufferPtr : Nat) (length : TransferLength) (n : Nat) : InterruptContext :=
  let context := (BufferContext.start bufferPtr length).advance n
  .new (.sending context.atEnd context)

/-- `OnRead` -/
def onRead (bufferPtr : Nat) (length : TransferLength) : InterruptContext :=
  .new (.receiving false (.start bufferPtr length))

/-- `OnSequence`. With one byte to write, the read is programmed at once. -/
def onSequence (writeLength readLength : TransferLength) : InterruptContext :=
  let context := SequenceContext.start writeLength readLength
  .new (if context.bytesToWrite = 1 then .receivingSequence false context
    else .sendingSequence context)

/-- What an interrupt meets: the status register and the data length, whether `TA` is still set
after `DONE` was cleared, how many bytes the FIFO takes or has, and whether it wants more. -/
structure Interrupt where
  statusReg : BitVec 32
  dataLength : Nat
  ta : Bool
  bytes : Nat
  txw : Bool

/-- The state `SENDING_SEQUENCE`. -/
def sendSequence (c : SequenceContext) (i : Interrupt) : Transfer :=
  let c := c.write i.bytes
  if h : c.bytesWritten + 1 = c.bytesToWrite then
    if i.txw then .receivingSequence false (c.programRead h) else .sendingSequence c
  else .sendingSequence c

namespace InterruptContext

variable (c : InterruptContext)

def capture (i : Interrupt) : InterruptContext :=
  { c with capturedStatus := i.statusReg, capturedDataLength := i.dataLength }

/-- `HandleInterrupt`, when no error flag is set -/
def handleTransfer (i : Interrupt) : InterruptContext :=
  match c.transfer with
  | .invalid => c
  | .sending false context =>
    let context := context.advance i.bytes
    { c with transfer := .sending context.atEnd context }
  | .receiving false context =>
    let context := context.advance i.bytes
    { c with transfer := .receiving context.atEnd context }
  | .sendingSequence context => { c with transfer := sendSequence context i }
  | .receivingSequence false context =>
    let context := context.receive i.bytes
    { c with transfer := .receivingSequence context.allRead context }
  | .sending true _ | .receiving true _ | .receivingSequence true _ =>
    { c.capture i with dpcQueued := true }

/-- `HandleInterrupt` -/
def handleInterrupt (i : Interrupt) : InterruptContext :=
  if !(isSet i.statusReg bcmI2cRegStatusRxr || isSet i.statusReg bcmI2cRegStatusTxw ||
    isSet i.statusReg bcmI2cRegStatusDone) then c
  else if c.transfer.isInvalid then c
  else if c.errorFlag then { c with dpcQueued := true }
  else if isSet i.statusReg bcmI2cRegStatusClkt || isSet i.statusReg bcmI2cRegStatusErr then
    -- with `DONE` and `TA` set, the next interrupt is waited for
    { c.capture i with
      errorFlag := true
      dpcQueued := c.dpcQueued || !(isSet i.statusReg bcmI2cRegStatusDone && i.ta) }
  else c.handleTransfer i

/-- An interrupt comes, or the request is completed or cancelled. -/
def step (c : InterruptContext) : Option Interrupt → InterruptContext
  | some i => c.handleInterrupt i
  | none => .new .invalid

/-- The transfer has filled or emptied its buffers. -/
def Buffered : Prop :=
  match c.transfer with
  | .invalid => True
  | .sendingSequence _ => False
  | .sending _ context | .receiving _ context => context.currentBufferPtr = context.endPtr
  | .receivingSequence _ context =>
    context.bytesWritten = context.bytesToWrite ∧ context.bytesRead = context.bytesToRead

/-- What the states tell about the buffers. -/
def Staged : Prop :=
  match c.transfer with
  | .invalid => True
  | .sendingSequence context => context.bytesRead = 0
  | .sending waitForDone context | .receiving waitForDone context =>
    waitForDone = true ↔ context.currentBufferPtr = context.endPtr
  | .receivingSequence waitForDone context =>
    context.bytesWritten = context.bytesToWrite ∧
      (waitForDone = true ↔ context.bytesRead = context.bytesToRead)

/-- A DPC is queued after an error, or when the buffers are done. -/
structure Inv : Prop where
  staged : c.Staged
  buffered : c.dpcQueued = true → c.NoErrorFlag → c.Buffered
  flagged : c.errorFlag = true → ¬ c.NoErrorFlag

variable {c}

theorem inv_new {transfer : Transfer} (h : (new transfer).Staged) : (new transfer).Inv where
  staged := h
  buffered hqueued := Bool.noConfusion hqueued
  flagged hflag := Bool.noConfusion hflag

namespace Inv

/-- A handler that goes on with the transfer has not been left for a DPC. -/
theorem goOn (h : c.Inv) (hnot : ¬ c.Buffered) {transfer : Transfer}
    (hstaged : ({ c with transfer := transfer } : InterruptContext).Staged) :
    ({ c with transfer := transfer } : InterruptContext).Inv where
  staged := hstaged
  buffered hqueued hflags := absurd (h.buffered hqueued hflags) hnot
  flagged := h.flagged

/-- A handler that finds the buffers done queues the DPC. -/
theorem done (h : c.Inv) (hbuffered : c.Buffered) (herror : c.errorFlag = false) (i : Interrupt) :
    Inv { c.capture i with dpcQueued := true } where
  staged := h.staged
  buffered _ _ := hbuffered
  flagged hflag := absurd (herror.symm.trans hflag) Bool.false_ne_true

theorem handleTransfer (h : c.Inv) (herror : c.errorFlag = false) (i : Interrupt) :
    (c.handleTransfer i).Inv := by
  obtain ⟨transfer, errorFlag, status, dataLength, dpcQueued⟩ := c
  have hstaged := h.staged
  cases transfer with
  | invalid => exact h
  | sending waitForDone context =>
    cases waitForDone with
    | false => exact h.goOn (fun hend => Bool.false_ne_true (hstaged.2 hend)) beq_iff_eq
    | true => exact h.done (hstaged.1 rfl) herror i
  | receiving waitForDone context =>
    cases waitForDone with
    | false => exact h.goOn (fun hend => Bool.false_ne_true (hstaged.2 hend)) beq_iff_eq
    | true => exact h.done (hstaged.1 rfl) herror i
  | sendingSequence context =>
    refine h.goOn id ?_
    rw [sendSequence]
    dsimp only
    split
    next hlast =>
      split
      · -- all is written, and nothing is read
        refine ⟨hlast, iff_of_false Bool.false_ne_true fun heq => ?_⟩
        have hzero : context.bytesRead = 0 := hstaged
        have hread := context.readLength.1
        exact hread.ne (hzero.symm.trans heq)
      · exact hstaged
    · exact hstaged
  | receivingSequence waitForDone context =>
    cases waitForDone with
    | false =>
      exact h.goOn (fun hend => Bool.false_ne_true (hstaged.2.2 hend.2)) ⟨hstaged.1, beq_iff_eq⟩
    | true => exact h.done ⟨hstaged.1, hstaged.2.1 rfl⟩ herror i

theorem handleInterrupt (h : c.Inv) (i : Interrupt) : (c.handleInterrupt i).Inv := by
  rw [InterruptContext.handleInterrupt]
  split
  · exact h
  split
  · exact h
  split
  next herror => exact { h with buffered := fun _ hflags => absurd hflags (h.flagged herror) }
  next herror =>
    split
    next hflag =>
      have hnot : ¬ NoErrorFlag (c.capture i) := by
        rintro ⟨herr, hclkt⟩
        rcases Bool.or_eq_true_iff.1 hflag with hset | hset
        · exact hclkt hset
        · exact herr hset
      exact ⟨h.staged, fun _ hflags => absurd hflags hnot, fun _ => hnot⟩
    · exact h.handleTransfer (Bool.eq_false_iff.2 herror) i

theorem step (h : c.Inv) (i : Option Interrupt) : (c.step i).Inv := by
  cases i with
  | none => exact inv_new trivial
  | some i => exact h.handleInterrupt i

/-- What holds of a new request holds after every run. -/
theorem run (h : c.Inv) (actions : List (Option Interrupt)) :
    (actions.foldl InterruptContext.step c).Inv := by
  induction actions generalizing c with
  | nil => exact h
  | cons i actions ih => exact ih (h.step i)

end Inv

end InterruptContext

/-- A request, as the dispatch routines start it. -/
inductive Request
  | write (bufferPtr : Nat) (length : TransferLength) (n : Nat)
  | read (bufferPtr : Nat) (length : TransferLength)
  | sequence (writeLength readLength : TransferLength)

def Request.start : Request → InterruptContext
  | .write bufferPtr length n => onWrite bufferPtr length n
  | .read bufferPtr length => onRead bufferPtr length
  | .sequence writeLength readLength => onSequence writeLength readLength

/-- A request and the actions that follow. -/
def run (request : Request) (actions : List (Option Interrupt)) : InterruptContext :=
  actions.foldl InterruptContext.step request.start

theorem Request.inv_start (request : Request) : request.start.Inv := by
  cases request with
  | write bufferPtr length n => exact InterruptContext.inv_new beq_iff_eq
  | read bufferPtr length =>
    refine InterruptContext.inv_new (iff_of_false Bool.false_ne_true ?_)
    exact (BufferContext.start bufferPtr length).nonempty.ne
  | sequence writeLength readLength =>
    refine InterruptContext.inv_new ?_
    split
    next hone => exact ⟨hone.symm, iff_of_false Bool.false_ne_true readLength.positive.ne⟩
    · exact rfl

/-- **A transfer that ends without an error has filled or emptied its buffers.** -/
theorem buffered_run (request : Request) (actions : List (Option Interrupt))
    (h : (run request actions).dpcQueued = true) (hflags : (run request actions).NoErrorFlag) :
    (run request actions).Buffered :=
  (request.inv_start.run actions).buffered h hflags

/-- A read, or a sequence, that ends without an error is reported in full. -/
theorem complete_run (request : Request) (actions : List (Option Interrupt))
    (h : (run request actions).dpcQueued = true) (hflags : (run request actions).NoErrorFlag)
    (hread : (run request actions).bytesToWrite = none)
    (hvalid : (run request actions).transfer.isInvalid = false) :
    processRequestCompletion (run request actions) =
      (.success, (run request actions).transfer.requested) := by
  have hbuffered := buffered_run request actions h hflags
  obtain ⟨herr, hclkt⟩ := hflags
  generalize run request actions = c at *
  obtain ⟨transfer, errorFlag, status, dataLength, dpcQueued⟩ := c
  rw [processRequestCompletion]
  cases transfer with
  | invalid => cases hvalid
  | sending waitForDone context => cases hread
  | sendingSequence context => cases hread
  | receiving waitForDone context =>
    have hend : context.currentBufferPtr = context.endPtr := hbuffered
    dsimp only
    rw [completeRead, if_neg hclkt, if_neg herr, hend, context.ulongSub_end]
    rfl
  | receivingSequence waitForDone context =>
    have hall : context.bytesWritten = context.bytesToWrite ∧
        context.bytesRead = context.bytesToRead := hbuffered
    dsimp only
    rw [completeSequence, if_neg hclkt, if_neg herr, context.ulongAdd_eq, hall.1, hall.2]
    rfl

/-- A read of three bytes, which come with one interrupt, before the one of the end. -/
theorem complete_run_read :
    processRequestCompletion (run (.read 0 ⟨3, by decide, by decide⟩)
      [some ⟨bcmI2cRegStatusRxr, 0, true, 3, false⟩, some ⟨bcmI2cRegStatusDone, 0, false, 0, false⟩])
      = (.success, 3) :=
  complete_run (.read 0 ⟨3, by decide, by decide⟩)
    [some ⟨bcmI2cRegStatusRxr, 0, true, 3, false⟩, some ⟨bcmI2cRegStatusDone, 0, false, 0, false⟩]
    (by decide) ⟨by decide, by decide⟩ rfl rfl

end RpiDrivers.I2c.Completion
