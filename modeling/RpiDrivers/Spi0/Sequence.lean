import RpiDrivers.Lib.Pool

/-!
# SPI0 sequences in poll mode (`controller.cpp`, `device.cpp`)

`OnRequestPollMode` runs the transfers of a sequence one after another: set up the
next transfer, poll it, hand its status to `ControllerCompleteTransfer`. That routine
completes the request after the last transfer or a cancellation, with the status of the
transfer that was run last; any other failure makes it go on with the next transfer.

The polling loop reads the `CS` register and the cancellation state of the request once a
round, so a run is determined by the list of what the rounds see (`Poll`). A
`TransferRun` is a transfer together with such a list, long enough for its loop to end.

- `SequenceSound`: success means that all transfers succeeded, nothing is clocked after
  a failure, and the information is the bytes of the transfers that succeeded.
- `SequenceOk`: the condition on the pattern of the transfers' outcomes.
- `sequenceSound_iff`: **the request is handled soundly exactly when its pattern meets the
  condition**, for every number of transfers and every pattern.
- `failure_hidden`: a failed transfer before a successful one is reported as success.
-/

namespace RpiDrivers.Spi0

open RpiDrivers.Lib

/-- The `NTSTATUS` values that occur. -/
inductive NtStatus
  | success
  | cancelled
  | invalidParameter
  | infoLengthMismatch
  /-- `KeDelayExecutionThread` failed -/
  | delayFailed
  deriving DecidableEq

/-! ## Buffers -/

/-- An `MDL` and whether it can be mapped. -/
structure Mdl where
  bytes : List UInt8
  mapped : Bool

/-- The walk of `MdlGetByte` over the chain. -/
def mdlFindByte : List Mdl → Nat → Except NtStatus UInt8
  | [], _ => .error .infoLengthMismatch
  | m :: rest, currentOffset =>
    match m.bytes[currentOffset]? with
    | some byte => if m.mapped then .ok byte else .error .infoLengthMismatch
    | none => mdlFindByte rest (currentOffset - m.bytes.length)

/-- `MdlGetByte` -/
def mdlGetByte (mdl : List Mdl) (index length : Nat) : Except NtStatus UInt8 :=
  if index < length then mdlFindByte mdl index else .error .infoLengthMismatch

/-- The walk of `MdlSetByte` over the chain. -/
def mdlStoreByte (byte : UInt8) : List Mdl → Nat → Except NtStatus (List Mdl)
  | [], _ => .error .infoLengthMismatch
  | m :: rest, currentOffset =>
    if currentOffset < m.bytes.length then
      if m.mapped then .ok ({ m with bytes := m.bytes.set currentOffset byte } :: rest)
      else .error .infoLengthMismatch
    else (mdlStoreByte byte rest (currentOffset - m.bytes.length)).map (m :: ·)

/-- `MdlSetByte` -/
def mdlSetByte (mdl : List Mdl) (index length : Nat) (byte : UInt8) :
    Except NtStatus (List Mdl) :=
  if index < length then mdlStoreByte byte mdl index else .error .infoLengthMismatch

/-! ## One transfer -/

/-- `SPB_TRANSFER_DIRECTION`; a full-duplex request has direction `none`. -/
inductive Direction
  | none
  | fromDevice
  | toDevice
  deriving DecidableEq

/-- `SPB_REQUEST_SEQUENCE_POSITION` -/
inductive SequencePosition
  | single
  | first
  | continue
  | last
  deriving DecidableEq

/-- `SPB_TRANSFER_DESCRIPTOR` with its MDL chain. The framework only passes transfers to or
from the device. -/
structure Descriptor where
  direction : Direction
  transferLength : Nat
  delayInUs : Nat
  mdl : List Mdl
  directed : direction ≠ .none

/-- What one round of the polling loop sees: is the request cancelled, the `TXD` and `RXD`
bits of `CS`, and the byte a read of the FIFO would give. -/
structure Poll where
  canceled : Bool
  txd : Bool
  rxd : Bool
  fifo : UInt8

/-- The part of `PBC_REQUEST` that describes the current transfer and the sequence. -/
structure PbcRequest where
  transferCount : Nat
  currentTransferIndex : Nat
  currentTransferSequencePosition : SequencePosition
  currentTransferDirection : Direction
  currentTransferDelayInUs : Nat
  currentTransferReadLength : Nat
  currentTransferWriteLength : Nat
  pCurrentTransferReadMdlChain : List Mdl
  pCurrentTransferWriteMdlChain : List Mdl
  currentTransferInformation : Nat
  totalInformation : Nat

/-- The locals of the polling loop, the read buffer it fills and the bytes written to the FIFO. -/
structure PollState where
  bytesToWrite : Nat
  zeroBytesToWrite : Nat
  bytesToRead : Nat
  readBytesToDiscard : Nat
  readByteIndex : Nat
  writeByteIndex : Nat
  readMdl : List Mdl
  written : List UInt8

/-- The loop condition is false. -/
def PollState.done (st : PollState) : Bool :=
  st.bytesToWrite == 0 && st.zeroBytesToWrite == 0 && st.bytesToRead == 0 &&
    st.readBytesToDiscard == 0

/-- The `TXD` half of a round: write the next byte of the buffer, or a zero. On an error the
state is the one at `goto exit`. -/
def pollWrite (r : PbcRequest) (st : PollState) : Except PollState PollState :=
  if 0 < st.bytesToWrite then
    match mdlGetByte r.pCurrentTransferWriteMdlChain st.writeByteIndex
        r.currentTransferWriteLength with
    | .ok nextByte => .ok { st with
        written := st.written ++ [nextByte]
        bytesToWrite := st.bytesToWrite - 1
        writeByteIndex := st.writeByteIndex + 1 }
    | .error _ => .error st
  else if 0 < st.zeroBytesToWrite then
    .ok { st with written := st.written ++ [0], zeroBytesToWrite := st.zeroBytesToWrite - 1 }
  else .ok st

/-- The `RXD` half of a round: store the byte read, or discard it. -/
def pollRead (r : PbcRequest) (fifo : UInt8) (st : PollState) : Except PollState PollState :=
  if 0 < st.bytesToRead then
    match mdlSetByte st.readMdl st.readByteIndex r.currentTransferReadLength fifo with
    | .ok readMdl => .ok { st with
        readMdl := readMdl
        bytesToRead := st.bytesToRead - 1
        readByteIndex := st.readByteIndex + 1 }
    | .error _ => .error st
  else if 0 < st.readBytesToDiscard then
    .ok { st with readBytesToDiscard := st.readBytesToDiscard - 1 }
  else .ok st

/-- One round of the polling loop. -/
def pollOnce (r : PbcRequest) (p : Poll) (st : PollState) : Except PollState PollState :=
  match if p.txd then pollWrite r st else .ok st with
  | .ok st => if p.rxd then pollRead r p.fifo st else .ok st
  | .error st => .error st

/-- How the polling loop ends. -/
inductive PollResult
  | finished (st : PollState)
  | canceled (st : PollState)
  | failed (st : PollState)

/-- The polling loop; `none` when the rounds given do not suffice. -/
def pollLoop (r : PbcRequest) : List Poll → PollState → Option PollResult
  | [], st => if st.done then some (.finished st) else none
  | p :: ps, st =>
    if st.done then some (.finished st)
    else if p.canceled then some (.canceled st)
    else
      match pollOnce r p st with
      | .ok st => pollLoop r ps st
      | .error st => some (.failed st)

/-- The initial locals of the polling loop. -/
def pollInit (r : PbcRequest) : PollState :=
  let bytesToWrite :=
    if r.currentTransferDirection = .fromDevice then 0 else r.currentTransferWriteLength
  let bytesToRead :=
    if r.currentTransferDirection = .toDevice then 0 else r.currentTransferReadLength
  let transferByteLength := max bytesToWrite bytesToRead
  { bytesToWrite := bytesToWrite
    zeroBytesToWrite := transferByteLength - bytesToWrite
    bytesToRead := bytesToRead
    readBytesToDiscard := transferByteLength - bytesToRead
    readByteIndex := 0
    writeByteIndex := 0
    readMdl := r.pCurrentTransferReadMdlChain
    written := [] }

/-- The request after the loop: its read buffer, and its information unless the loop was left
through `goto exit`. -/
def pollFinish (r : PbcRequest) (st : PollState) : PbcRequest :=
  { r with
    pCurrentTransferReadMdlChain := st.readMdl
    currentTransferInformation :=
      (r.currentTransferReadLength - st.bytesToRead) +
        (r.currentTransferWriteLength - st.bytesToWrite) }

/-- `ControllerDelayTransfer`: only delays over 1 ms can fail. -/
def controllerDelayTransfer (r : PbcRequest) (delayed : Bool) : NtStatus :=
  if r.currentTransferDelayInUs ≤ 1000 then .success
  else if delayed then .success
  else .delayFailed

/-- What `ControllerDoOneTransferPollMode` returns after the loop. -/
def pollReturn (r : PbcRequest) : PollResult → NtStatus × PbcRequest × List UInt8
  | .finished st => (.success, pollFinish r st, st.written)
  | .canceled st => (.cancelled, pollFinish r st, st.written)
  | .failed st =>
    (.invalidParameter, { r with pCurrentTransferReadMdlChain := st.readMdl }, st.written)

/-- `ControllerDoOneTransferPollMode`: the status, the request and the bytes written to the FIFO. -/
def controllerDoOneTransferPollMode (r : PbcRequest) (delayed : Bool) (polls : List Poll) :
    Option (NtStatus × PbcRequest × List UInt8) :=
  let status := controllerDelayTransfer r delayed
  if status ≠ .success then some (status, r, [])
  else
    (pollLoop r polls (pollInit r)).map (pollReturn r)

/-- `PbcRequestSetNthTransferInfo` for a sequence; it always succeeds. -/
def pbcRequestSetNthTransferInfo (r : PbcRequest) (transferIndex : Nat) (d : Descriptor) :
    PbcRequest :=
  { r with
    currentTransferInformation := 0
    currentTransferDirection := d.direction
    currentTransferDelayInUs := d.delayInUs
    currentTransferReadLength := if d.direction = .fromDevice then d.transferLength else 0
    currentTransferWriteLength := if d.direction = .toDevice then d.transferLength else 0
    pCurrentTransferReadMdlChain :=
      if d.direction = .fromDevice then d.mdl else r.pCurrentTransferReadMdlChain
    pCurrentTransferWriteMdlChain :=
      if d.direction = .toDevice then d.mdl else r.pCurrentTransferWriteMdlChain
    currentTransferSequencePosition :=
      if r.transferCount = 1 then .single
      else if transferIndex = 0 then .first
      else if transferIndex = r.transferCount - 1 then .last
      else .continue }

/-! ## Outcomes -/

/-- What a transfer comes to: its status, the information it adds, the bytes clocked out. -/
structure Outcome where
  status : NtStatus
  information : Nat
  written : List UInt8

/-- The outcome as the caller of `ControllerDoOneTransferPollMode` sees it. -/
def toOutcome (result : NtStatus × PbcRequest × List UInt8) : Outcome :=
  ⟨result.1, result.2.1.currentTransferInformation, result.2.2⟩

/-- A request before its first transfer, as `OnSequenceRequest` prepares it. -/
def PbcRequest.prepare (transferCount : Nat) : PbcRequest where
  transferCount := transferCount
  currentTransferIndex := 0
  currentTransferSequencePosition := .single
  currentTransferDirection := .none
  currentTransferDelayInUs := 0
  currentTransferReadLength := 0
  currentTransferWriteLength := 0
  pCurrentTransferReadMdlChain := []
  pCurrentTransferWriteMdlChain := []
  currentTransferInformation := 0
  totalInformation := 0

/-- The outcome of a transfer that sees the given rounds. -/
def outcomeOf (d : Descriptor) (delayed : Bool) (polls : List Poll) : Option Outcome :=
  (controllerDoOneTransferPollMode
    (pbcRequestSetNthTransferInfo (PbcRequest.prepare 1) 0 d) delayed polls).map toOutcome

/-- A transfer and what its run sees: whether its delay succeeds, and the rounds of its polling
loop, in which the loop ends. -/
structure TransferRun where
  descriptor : Descriptor
  delayed : Bool
  polls : List Poll
  ends : (outcomeOf descriptor delayed polls).isSome

/-- The outcome of the transfer in this run. -/
def TransferRun.outcome (t : TransferRun) : Outcome :=
  (outcomeOf t.descriptor t.delayed t.polls).get t.ends

/-! ## The sequence -/

/-- The part of `PBC_DEVICE` that the completion of a transfer updates. -/
structure PbcDevice where
  locked : Bool
  /-- `CS` is asserted -/
  transferActive : Bool
  /-- `pCurrentTarget != NULL` -/
  hasCurrentTarget : Bool
  /-- `pCurrentTarget->pCurrentRequest != NULL` -/
  hasCurrentRequest : Bool

/-- `ControllerCompleteTransfer` for a request of type sequence: the status and information
the request is completed with, `none` when there is more to transfer. -/
def controllerCompleteTransfer (device : PbcDevice) (r : PbcRequest) (transferStatus : NtStatus) :
    PbcDevice × PbcRequest × Option (NtStatus × Nat) :=
  let r := { r with
    totalInformation := r.totalInformation + r.currentTransferInformation
    currentTransferInformation := 0
    currentTransferIndex := r.currentTransferIndex + 1 }
  if r.currentTransferIndex < r.transferCount ∧ transferStatus ≠ .cancelled then
    (device, r, none)
  else
    let ends := r.currentTransferSequencePosition = .single ∨
      r.currentTransferSequencePosition = .last ∨ transferStatus = .cancelled
    let device := { device with
      transferActive := device.transferActive && (device.locked || !decide ends)
      hasCurrentTarget := device.hasCurrentTarget && device.locked
      hasCurrentRequest := false }
    (device, r, some (transferStatus, r.totalInformation))

/-- A sequence that is being run. `log` records the outcomes of the transfers run so far,
`completion` how the request was completed. -/
structure SequenceRun where
  device : PbcDevice
  request : PbcRequest
  log : List Outcome
  completion : Option (NtStatus × Nat)

/-- One round of the loop of `OnRequestPollMode`. -/
def runTransfer (s : SequenceRun) (t : TransferRun) : Option SequenceRun :=
  let r := pbcRequestSetNthTransferInfo s.request s.request.currentTransferIndex t.descriptor
  (controllerDoOneTransferPollMode r t.delayed t.polls).map fun (status, r, written) =>
    let (device, r', completion) := controllerCompleteTransfer s.device r status
    { device := device
      request := r'
      log := s.log ++ [toOutcome (status, r, written)]
      completion := completion }

/-- The loop of `OnRequestPollMode`, at most `fuel` rounds. -/
def runTransfers (transfers : List TransferRun) : Nat → SequenceRun → Option SequenceRun
  | 0, _ => none
  | fuel + 1, s =>
    match transfers[s.request.currentTransferIndex]? with
    | none => none
    | some t =>
      (runTransfer s t).bind fun s =>
        if s.completion.isSome then some s else runTransfers transfers fuel s

/-- `OnSequenceRequest` and `OnRequestPollMode`: set the request up for its first transfer,
assert `CS`, run the loop. -/
def onRequestPollMode (device : PbcDevice) (first : TransferRun) (rest : List TransferRun) :
    Option SequenceRun :=
  let transfers := first :: rest
  let r := pbcRequestSetNthTransferInfo (PbcRequest.prepare transfers.length) 0 first.descriptor
  runTransfers transfers transfers.length
    { device := { device with
        transferActive := true
        hasCurrentTarget := true
        hasCurrentRequest := true }
      request := r
      log := []
      completion := none }

/-! ## The property and the condition -/

/-- The bytes of a transfer that completed. -/
def Outcome.completed (o : Outcome) : Nat := if o.status = .success then o.information else 0

/-- The request is completed with a success status only if all its transfers were run and
succeeded, nothing is clocked after a failure, and the information counts the bytes of
the transfers that succeeded. -/
structure SequenceSound (transferCount : Nat) (log : List Outcome) (status : NtStatus)
    (information : Nat) : Prop where
  success : status = .success → log.length = transferCount ∧ ∀ o ∈ log, o.status = .success
  abort : log.Pairwise fun earlier later => earlier.status ≠ .success → later.written = []
  information : information = total Outcome.completed log

/-- What may follow a failed transfer: up to a cancellation or the end nothing is clocked, a
cancelled transfer has counted nothing, and the last transfer run does not succeed. -/
def FailsQuietly : List Outcome → Prop
  | [] => True
  | o :: rest =>
    o.written = [] ∧
      if o.status = .cancelled then o.information = 0
      else (rest = [] → o.status ≠ .success) ∧ FailsQuietly rest

/-- The condition on the outcomes of the transfers: all succeed, or the first that does not is
cancelled with nothing counted, or it fails and what follows fails quietly. -/
def SequenceOk : List Outcome → Prop
  | [] => True
  | o :: rest =>
    if o.status = .success then SequenceOk rest
    else if o.status = .cancelled then o.information = 0
    else FailsQuietly rest

/-! ## The outcome of a transfer does not depend on the transfers before it -/

/-- Replace the read buffer. -/
def PollState.withRead (m : List Mdl) (st : PollState) : PollState := { st with readMdl := m }

def PollResult.withRead (m : List Mdl) : PollResult → PollResult
  | .finished st => .finished (st.withRead m)
  | .canceled st => .canceled (st.withRead m)
  | .failed st => .failed (st.withRead m)

/-- Apply a function to the state of a round, however the round ends. -/
def mapRound (f : PollState → PollState) : Except PollState PollState → Except PollState PollState
  | .ok st => .ok (f st)
  | .error st => .error (f st)

/-- A loop that writes nothing does not look at the write buffer. -/
theorem pollLoop_write_stale {r r' : PbcRequest}
    (hread : r.currentTransferReadLength = r'.currentTransferReadLength) :
    ∀ (ps : List Poll) (st : PollState), st.bytesToWrite = 0 →
      pollLoop r ps st = pollLoop r' ps st
  | [], _, _ => rfl
  | p :: ps, st, h0 => by
    have honce : pollOnce r p st = pollOnce r' p st := by
      simp only [pollOnce, pollWrite, h0, Nat.lt_irrefl, if_false, pollRead, hread]
    have hkeep : ∀ st', pollOnce r' p st = .ok st' → st'.bytesToWrite = 0 := by
      intro st' hst'
      simp only [pollOnce, pollWrite, pollRead, h0, Nat.lt_irrefl, if_false] at hst'
      grind
    simp only [pollLoop, honce]
    split
    · rfl
    · split
      · rfl
      · cases hst' : pollOnce r' p st with
        | ok st' => exact pollLoop_write_stale hread ps st' (hkeep st' hst')
        | error st' => rfl

/-- The loop looks at the write buffer and the two lengths of the request only. -/
theorem pollLoop_congr {r r' : PbcRequest}
    (hmdl : r.pCurrentTransferWriteMdlChain = r'.pCurrentTransferWriteMdlChain)
    (hwrite : r.currentTransferWriteLength = r'.currentTransferWriteLength)
    (hread : r.currentTransferReadLength = r'.currentTransferReadLength) (ps : List Poll) :
    ∀ st, pollLoop r ps st = pollLoop r' ps st := by
  induction ps with
  | nil => exact fun _ => rfl
  | cons p ps ih =>
    intro st
    simp only [pollLoop, pollOnce, pollWrite, pollRead, hmdl, hwrite, hread, ih]

theorem pollWrite_withRead (r : PbcRequest) (m : List Mdl) (st : PollState) :
    pollWrite r (st.withRead m) = mapRound (PollState.withRead m) (pollWrite r st) := by
  unfold pollWrite
  by_cases hw : 0 < st.bytesToWrite
  · simp only [PollState.withRead, hw, if_true]
    cases mdlGetByte r.pCurrentTransferWriteMdlChain st.writeByteIndex
      r.currentTransferWriteLength <;> rfl
  · simp only [PollState.withRead, hw, if_false]
    by_cases hz : 0 < st.zeroBytesToWrite
    · simp only [hz, if_true]
      rfl
    · simp only [hz, if_false]
      rfl

theorem pollWrite_bytesToRead {r : PbcRequest} {st st' : PollState} (h : pollWrite r st = .ok st') :
    st'.bytesToRead = st.bytesToRead := by
  unfold pollWrite at h
  grind

theorem pollRead_withRead (r : PbcRequest) (fifo : UInt8) (m : List Mdl) {st : PollState}
    (h0 : st.bytesToRead = 0) :
    pollRead r fifo (st.withRead m) = mapRound (PollState.withRead m) (pollRead r fifo st) := by
  have h0' : (st.withRead m).bytesToRead = 0 := h0
  have hd' : (st.withRead m).readBytesToDiscard = st.readBytesToDiscard := rfl
  simp only [pollRead, h0, h0', hd', Nat.lt_irrefl, if_false]
  split <;> rfl

theorem pollRead_bytesToRead {r : PbcRequest} {fifo : UInt8} {st st' : PollState}
    (h0 : st.bytesToRead = 0) (h : pollRead r fifo st = .ok st') : st'.bytesToRead = 0 := by
  unfold pollRead at h
  grind

/-- A round that reads nothing into the buffer only carries it along. -/
theorem pollOnce_withRead (r : PbcRequest) (p : Poll) (m : List Mdl) {st : PollState}
    (h0 : st.bytesToRead = 0) :
    pollOnce r p (st.withRead m) = mapRound (PollState.withRead m) (pollOnce r p st) := by
  have hread : ∀ {st' : PollState}, st'.bytesToRead = 0 →
      (if p.rxd then pollRead r p.fifo (st'.withRead m) else .ok (st'.withRead m)) =
        mapRound (PollState.withRead m) (if p.rxd then pollRead r p.fifo st' else .ok st') := by
    intro st' h0'
    cases p.rxd with
    | true => exact pollRead_withRead r p.fifo m h0'
    | false => rfl
  unfold pollOnce
  cases p.txd with
  | false => exact hread h0
  | true =>
    simp only [if_true, pollWrite_withRead]
    cases hw : pollWrite r st with
    | error st' => rfl
    | ok st' => exact hread ((pollWrite_bytesToRead hw).trans h0)

theorem pollOnce_bytesToRead {r : PbcRequest} {p : Poll} {st st' : PollState}
    (h0 : st.bytesToRead = 0) (h : pollOnce r p st = .ok st') : st'.bytesToRead = 0 := by
  have hread : ∀ {st'' : PollState}, st''.bytesToRead = 0 →
      (if p.rxd then pollRead r p.fifo st'' else .ok st'') = .ok st' → st'.bytesToRead = 0 := by
    intro st'' h0'' h''
    split at h''
    · exact pollRead_bytesToRead h0'' h''
    · obtain rfl := Except.ok.inj h''
      exact h0''
  unfold pollOnce at h
  cases htxd : p.txd with
  | false =>
    simp only [htxd] at h
    exact hread h0 h
  | true =>
    simp only [htxd, if_true] at h
    cases hw : pollWrite r st with
    | error st'' => simp [hw] at h
    | ok st'' =>
      rw [hw] at h
      exact hread ((pollWrite_bytesToRead hw).trans h0) h

/-- A loop that reads nothing into the buffer only carries it along. -/
theorem pollLoop_withRead (r : PbcRequest) (m : List Mdl) :
    ∀ (ps : List Poll) (st : PollState), st.bytesToRead = 0 →
      pollLoop r ps (st.withRead m) = (pollLoop r ps st).map (PollResult.withRead m)
  | [], st, _ => by
    have hdone : (st.withRead m).done = st.done := rfl
    simp only [pollLoop, hdone]
    cases st.done <;> rfl
  | p :: ps, st, h0 => by
    have hdone : (st.withRead m).done = st.done := rfl
    simp only [pollLoop, hdone, pollOnce_withRead r p m h0]
    cases st.done with
    | true => rfl
    | false =>
      cases p.canceled with
      | true => rfl
      | false =>
        cases hst' : pollOnce r p st with
        | ok st' => exact pollLoop_withRead r m ps st' (pollOnce_bytesToRead h0 hst')
        | error st' => rfl

/-- What the caller sees of a loop's result, whichever request it ran for. -/
theorem toOutcome_pollReturn {r r' : PbcRequest}
    (hwrite : r.currentTransferWriteLength = r'.currentTransferWriteLength)
    (hread : r.currentTransferReadLength = r'.currentTransferReadLength)
    (hinfo : r.currentTransferInformation = r'.currentTransferInformation) (result : PollResult) :
    toOutcome (pollReturn r result) = toOutcome (pollReturn r' result) := by
  cases result <;> simp only [pollReturn, toOutcome, pollFinish, hwrite, hread, hinfo]

theorem toOutcome_withRead (r : PbcRequest) (m : List Mdl) (result : PollResult) :
    toOutcome (pollReturn r (result.withRead m)) = toOutcome (pollReturn r result) := by
  cases result <;> rfl

/-- **The outcome of a transfer is its own**: it does not depend on the request the sequence
has built up before it. -/
theorem outcome_setNthTransferInfo (r : PbcRequest) (i : Nat) (d : Descriptor) (delayed : Bool)
    (polls : List Poll) :
    (controllerDoOneTransferPollMode (pbcRequestSetNthTransferInfo r i d) delayed polls).map
      toOutcome = outcomeOf d delayed polls := by
  unfold outcomeOf
  generalize hA : pbcRequestSetNthTransferInfo r i d = A
  generalize hB : pbcRequestSetNthTransferInfo (PbcRequest.prepare 1) 0 d = B
  have hdelay : controllerDelayTransfer A delayed = controllerDelayTransfer B delayed := by
    rw [← hA, ← hB]
    rfl
  have hwrite : A.currentTransferWriteLength = B.currentTransferWriteLength := by
    rw [← hA, ← hB]
    rfl
  have hread : A.currentTransferReadLength = B.currentTransferReadLength := by
    rw [← hA, ← hB]
    rfl
  have hinfo : A.currentTransferInformation = B.currentTransferInformation := by
    rw [← hA, ← hB]
    rfl
  have hreturn := toOutcome_pollReturn hwrite hread hinfo
  have hloop : (pollLoop A polls (pollInit A)).map (fun x => toOutcome (pollReturn A x)) =
      (pollLoop B polls (pollInit B)).map (fun x => toOutcome (pollReturn B x)) := by
    cases hd : d.direction with
    | none => exact absurd hd d.directed
    | fromDevice =>
      -- nothing is written, so the stale write buffer of `A` is never looked at
      have hinit : pollInit A = pollInit B := by
        simp [← hA, ← hB, pollInit, pbcRequestSetNthTransferInfo, hd]
      have h0 : (pollInit B).bytesToWrite = 0 := by
        simp [← hB, pollInit, pbcRequestSetNthTransferInfo, hd]
      rw [hinit, pollLoop_write_stale hread polls _ h0, funext hreturn]
    | toDevice =>
      -- nothing is read, so the stale read buffer of `A` is only carried along
      have hinit : pollInit A = (pollInit B).withRead A.pCurrentTransferReadMdlChain := by
        simp [← hA, ← hB, pollInit, pbcRequestSetNthTransferInfo, PollState.withRead, hd]
      have h0 : (pollInit B).bytesToRead = 0 := by
        simp [← hB, pollInit, pbcRequestSetNthTransferInfo, hd]
      have hmdl : A.pCurrentTransferWriteMdlChain = B.pCurrentTransferWriteMdlChain := by
        simp [← hA, ← hB, pbcRequestSetNthTransferInfo, hd]
      rw [hinit, pollLoop_congr hmdl hwrite hread, pollLoop_withRead _ _ _ _ h0, Option.map_map,
        funext hreturn]
      congr 1
      funext result
      exact toOutcome_withRead _ _ _
  unfold controllerDoOneTransferPollMode
  simp only [hdelay]
  cases controllerDelayTransfer B delayed with
  | success =>
    show Option.map toOutcome (Option.map _ _) = Option.map toOutcome (Option.map _ _)
    rw [Option.map_map, Option.map_map]
    exact hloop
  | _ => exact congrArg (fun n => some (Outcome.mk _ n [])) hinfo

/-- A transfer fails its delay and leaves the request alone, or it returns from the loop. -/
theorem controllerDoOneTransferPollMode_cases {r : PbcRequest} {delayed : Bool} {polls : List Poll}
    {result : NtStatus × PbcRequest × List UInt8}
    (h : controllerDoOneTransferPollMode r delayed polls = some result) :
    result = (controllerDelayTransfer r delayed, r, []) ∨ ∃ x, result = pollReturn r x := by
  unfold controllerDoOneTransferPollMode at h
  by_cases hd : controllerDelayTransfer r delayed = .success
  · simp only [hd, ne_eq, not_true_eq_false, if_false] at h
    obtain ⟨x, -, rfl⟩ := Option.map_eq_some_iff.1 h
    exact .inr ⟨x, rfl⟩
  · simp only [ne_eq, hd, not_false_eq_true, if_true] at h
    exact .inl (Option.some.inj h).symm

/-- A transfer leaves the bookkeeping of its sequence alone, and the position of its request. -/
theorem controllerDoOneTransferPollMode_frame {r r' : PbcRequest} {delayed : Bool}
    {polls : List Poll} {status : NtStatus} {written : List UInt8}
    (h : controllerDoOneTransferPollMode r delayed polls = some (status, r', written)) :
    r'.transferCount = r.transferCount ∧ r'.currentTransferIndex = r.currentTransferIndex ∧
      r'.totalInformation = r.totalInformation ∧
        r'.currentTransferSequencePosition = r.currentTransferSequencePosition := by
  obtain heq | ⟨x, heq⟩ := controllerDoOneTransferPollMode_cases h
  · obtain ⟨-, rfl, -⟩ := by simpa using heq
    exact ⟨rfl, rfl, rfl, rfl⟩
  · cases x with
    | finished st | canceled st | failed st =>
      obtain ⟨rfl, rfl, rfl⟩ := by simpa [pollReturn] using heq
      exact ⟨rfl, rfl, rfl, rfl⟩

/-! ## What is run -/

/-- The outcomes of the transfers that are run: up to the first cancellation. -/
def executed : List Outcome → List Outcome
  | [] => []
  | o :: rest => if o.status = .cancelled then [o] else o :: executed rest

/-- The status of the transfer run last. -/
def finalStatus (os : List Outcome) : Option NtStatus :=
  (executed os).getLast?.map Outcome.status

theorem executed_eq_nil {os : List Outcome} : executed os = [] ↔ os = [] := by
  cases os with
  | nil => simp [executed]
  | cons o rest =>
    simp only [executed]
    split <;> simp

theorem executed_cons_of_ne {o : Outcome} (h : o.status ≠ .cancelled) (rest : List Outcome) :
    executed (o :: rest) = o :: executed rest :=
  if_neg h

theorem finalStatus_cons_cons {o : Outcome} (h : o.status ≠ .cancelled) {rest : List Outcome}
    (hrest : rest ≠ []) : finalStatus (o :: rest) = finalStatus rest := by
  obtain ⟨last, hlast⟩ := Option.ne_none_iff_exists'.1
    (mt List.getLast?_eq_none_iff.1 (mt executed_eq_nil.1 hrest))
  simp [finalStatus, executed_cons_of_ne h, List.getLast?_cons, hlast]

theorem finalStatus_singleton (o : Outcome) : finalStatus [o] = some o.status := by
  simp only [finalStatus, executed]
  split <;> rfl

/-- The completion of one transfer: only the last transfer or a cancelled one completes the
request, and then with its own status. -/
theorem controllerCompleteTransfer_eq (device : PbcDevice) (r : PbcRequest) (status : NtStatus) :
    (controllerCompleteTransfer device r status).2.1.transferCount = r.transferCount ∧
    (controllerCompleteTransfer device r status).2.1.currentTransferIndex =
      r.currentTransferIndex + 1 ∧
    (controllerCompleteTransfer device r status).2.1.totalInformation =
      r.totalInformation + r.currentTransferInformation ∧
    (controllerCompleteTransfer device r status).2.2 =
      if r.currentTransferIndex + 1 < r.transferCount ∧ status ≠ .cancelled then none
      else some (status, r.totalInformation + r.currentTransferInformation) := by
  unfold controllerCompleteTransfer
  by_cases hmore : r.currentTransferIndex + 1 < r.transferCount ∧ status ≠ .cancelled
  · simp only [if_pos hmore, and_self]
  · simp only [if_neg hmore, and_self]

/-- One round of the loop: the transfer's outcome is logged, and the request is completed unless
the transfer was not cancelled and there are more. -/
theorem runTransfer_eq (s : SequenceRun) (t : TransferRun) :
    ∃ s', runTransfer s t = some s' ∧ s'.log = s.log ++ [t.outcome] ∧
      s'.request.transferCount = s.request.transferCount ∧
      s'.request.currentTransferIndex = s.request.currentTransferIndex + 1 ∧
      s'.request.totalInformation = s.request.totalInformation + t.outcome.information ∧
      s'.completion =
        if s.request.currentTransferIndex + 1 < s.request.transferCount ∧
          t.outcome.status ≠ .cancelled then none
        else some (t.outcome.status, s.request.totalInformation + t.outcome.information) := by
  have hout : outcomeOf t.descriptor t.delayed t.polls = some t.outcome :=
    (Option.some_get t.ends).symm
  rw [← outcome_setNthTransferInfo s.request s.request.currentTransferIndex] at hout
  obtain ⟨⟨status, r, written⟩, hdo, houtcome⟩ := Option.map_eq_some_iff.1 hout
  obtain ⟨hcount, hindex, htotal, -⟩ := controllerDoOneTransferPollMode_frame hdo
  obtain ⟨hcount', hindex', htotal', hcompletion⟩ :=
    controllerCompleteTransfer_eq s.device r status
  rw [← houtcome]
  refine ⟨_, by simp only [runTransfer, hdo, Option.map_some]; rfl, rfl, hcount'.trans hcount,
    hindex'.trans (congrArg (· + 1) hindex), htotal'.trans (congrArg (· + _) htotal), ?_⟩
  rw [hindex, hcount, htotal] at hcompletion
  exact hcompletion

/-- **The loop runs the transfers up to the first cancellation** and completes the request with
the status of the last one run and the information of all of them. -/
theorem runTransfers_eq (transfers : List TransferRun) :
    ∀ (fuel : Nat) (s : SequenceRun), s.request.transferCount = transfers.length →
      s.request.currentTransferIndex < transfers.length →
      transfers.length ≤ s.request.currentTransferIndex + fuel →
      s.request.totalInformation = total Outcome.information s.log →
      ∃ run status, runTransfers transfers fuel s = some run ∧
        run.log = s.log ++ executed
          ((transfers.drop s.request.currentTransferIndex).map TransferRun.outcome) ∧
        run.completion = some (status, total Outcome.information run.log) ∧
        finalStatus ((transfers.drop s.request.currentTransferIndex).map TransferRun.outcome) =
          some status := by
  intro fuel
  induction fuel with
  | zero =>
    intro s _ hlt hfuel _
    omega
  | succ fuel ih =>
    intro s hcount hlt hfuel htotal
    let t := transfers[s.request.currentTransferIndex]
    have hget : transfers[s.request.currentTransferIndex]? = some t := List.getElem?_eq_getElem hlt
    have hdrop : transfers.drop s.request.currentTransferIndex =
        t :: transfers.drop (s.request.currentTransferIndex + 1) := List.drop_eq_getElem_cons hlt
    obtain ⟨s', hrun, hlog, hcount', hindex', htotal', hcompletion⟩ := runTransfer_eq s t
    have htotal'' : s'.request.totalInformation = total Outcome.information s'.log := by
      rw [htotal', hlog, htotal, total_append, total_cons, total_nil, Nat.add_zero]
    simp only [runTransfers, hget, hrun, Option.bind_some, hdrop, List.map_cons]
    by_cases hcancel : t.outcome.status = .cancelled
    · -- a cancellation completes the request
      rw [if_neg fun h => h.2 hcancel] at hcompletion
      refine ⟨s', t.outcome.status, by rw [hcompletion]; rfl, ?_, ?_, ?_⟩
      · rw [hlog, executed, if_pos hcancel]
      · rw [hcompletion, ← htotal', htotal'']
      · rw [finalStatus, executed, if_pos hcancel]
        rfl
    · by_cases hmore : s.request.currentTransferIndex + 1 < s.request.transferCount
      · -- there is more to transfer
        rw [if_pos ⟨hmore, hcancel⟩] at hcompletion
        obtain ⟨run, status, hrun', hlog', hcompletion', hstatus⟩ :=
          ih s' (hcount'.trans hcount) (by omega) (by omega) htotal''
        rw [hindex'] at hlog' hstatus
        refine ⟨run, status, by rw [hcompletion]; exact hrun', ?_, hcompletion', ?_⟩
        · rw [hlog', hlog, executed_cons_of_ne hcancel, List.append_assoc]
          rfl
        · rw [finalStatus_cons_cons hcancel, hstatus]
          simp only [ne_eq, List.map_eq_nil_iff, List.drop_eq_nil_iff]
          omega
      · -- this was the last transfer
        rw [if_neg fun h => hmore h.1] at hcompletion
        have hnil : transfers.drop (s.request.currentTransferIndex + 1) = [] :=
          List.drop_eq_nil_of_le (by omega)
        rw [hnil]
        refine ⟨s', t.outcome.status, by rw [hcompletion]; rfl, ?_, ?_, finalStatus_singleton _⟩
        · rw [hlog, List.map_nil, executed_cons_of_ne hcancel]
          rfl
        · rw [hcompletion, ← htotal', htotal'']

/-- What a request comes to: the outcomes logged, the completion status and the information. -/
theorem onRequestPollMode_eq (device : PbcDevice) (first : TransferRun) (rest : List TransferRun) :
    ∃ run status, onRequestPollMode device first rest = some run ∧
      run.log = executed ((first :: rest).map TransferRun.outcome) ∧
      run.completion = some (status, total Outcome.information run.log) ∧
      finalStatus ((first :: rest).map TransferRun.outcome) = some status :=
  runTransfers_eq (first :: rest) _ _ rfl (Nat.zero_lt_succ _) (Nat.le_add_left _ _) rfl

/-! ## Soundness -/

/-- The counts of the outcomes a transfer can have: one that fails counts nothing. -/
theorem outcome_failed (t : TransferRun) (hs : t.outcome.status ≠ .success)
    (hc : t.outcome.status ≠ .cancelled) : t.outcome.information = 0 := by
  have hout : outcomeOf t.descriptor t.delayed t.polls = some t.outcome :=
    (Option.some_get t.ends).symm
  obtain ⟨result, hdo, houtcome⟩ := Option.map_eq_some_iff.1 hout
  rw [← houtcome] at hs hc ⊢
  obtain rfl | ⟨x, rfl⟩ := controllerDoOneTransferPollMode_cases hdo
  · rfl
  · cases x with
    | finished st => exact absurd rfl hs
    | canceled st => exact absurd rfl hc
    | failed st => rfl

/-- What fails quietly: no success is reported, nothing is clocked and no byte is counted that
does not belong to a transfer that completed. -/
theorem failsQuietly_iff :
    ∀ {os : List Outcome}, (∀ o ∈ os, o.status ≠ .success → o.status ≠ .cancelled →
        o.information = 0) →
      (FailsQuietly os ↔ finalStatus os ≠ some .success ∧ (∀ o ∈ executed os, o.written = []) ∧
        total Outcome.information (executed os) = total Outcome.completed (executed os))
  | [], _ => by simp [FailsQuietly, finalStatus, executed]
  | o :: rest, hfailed => by
    have ih := @failsQuietly_iff rest fun o ho => hfailed o (List.mem_cons_of_mem _ ho)
    by_cases hc : o.status = .cancelled
    · simp [FailsQuietly, finalStatus, executed, hc, Outcome.completed]
    · have hcount : o.information = o.completed := by
        by_cases hs : o.status = .success
        · rw [Outcome.completed, if_pos hs]
        · rw [Outcome.completed, if_neg hs, hfailed o (List.mem_cons_self ..) hs hc]
      have hstatus : finalStatus (o :: rest) ≠ some .success ↔
          (rest = [] → o.status ≠ .success) ∧ finalStatus rest ≠ some .success := by
        by_cases hrest : rest = []
        · subst hrest
          simp [finalStatus, executed]
        · simp [finalStatus_cons_cons hc hrest, hrest]
      rw [FailsQuietly, if_neg hc, ih, hstatus, executed_cons_of_ne hc]
      simp only [total_cons, hcount, Nat.add_left_cancel_iff, List.forall_mem_cons]
      tauto

/-- **Soundness of what a sequence comes to**, by the pattern of its outcomes. -/
theorem sound_executed_iff :
    ∀ {os : List Outcome} {status : NtStatus}, finalStatus os = some status →
      (∀ o ∈ os, o.status ≠ .success → o.status ≠ .cancelled → o.information = 0) →
      (SequenceSound os.length (executed os) status (total Outcome.information (executed os)) ↔
        SequenceOk os)
  | [], _, hfinal, _ => by simp [finalStatus, executed] at hfinal
  | o :: rest, status, hfinal, hfailed => by
    have hfailed' : ∀ o ∈ rest, o.status ≠ .success → o.status ≠ .cancelled →
        o.information = 0 := fun o ho => hfailed o (List.mem_cons_of_mem _ ho)
    by_cases hs : o.status = .success
    · have hc : o.status ≠ .cancelled := by simp [hs]
      have hcount : o.information = o.completed := by rw [Outcome.completed, if_pos hs]
      rw [SequenceOk, if_pos hs, executed_cons_of_ne hc]
      by_cases hrest : rest = []
      · subst hrest
        refine iff_of_true ⟨fun _ => ⟨rfl, ?_⟩, List.pairwise_singleton .., ?_⟩ trivial
        · simpa [executed] using hs
        · simp [executed, hcount]
      · rw [finalStatus_cons_cons hc hrest] at hfinal
        rw [← sound_executed_iff hfinal hfailed']
        constructor
        · rintro ⟨hsuccess, habort, hinfo⟩
          refine ⟨fun h => ?_, (List.pairwise_cons.1 habort).2, ?_⟩
          · obtain ⟨hlen, hall⟩ := hsuccess h
            exact ⟨Nat.succ.inj hlen, fun o ho => hall o (List.mem_cons_of_mem _ ho)⟩
          · simpa [hcount] using hinfo
        · rintro ⟨hsuccess, habort, hinfo⟩
          refine ⟨fun h => ?_, List.pairwise_cons.2 ⟨fun _ _ hne => absurd hs hne, habort⟩, ?_⟩
          · obtain ⟨hlen, hall⟩ := hsuccess h
            exact ⟨congrArg (· + 1) hlen, List.forall_mem_cons.2 ⟨hs, hall⟩⟩
          · simpa [hcount] using hinfo
    · rw [SequenceOk, if_neg hs]
      by_cases hc : o.status = .cancelled
      · rw [if_pos hc, executed, if_pos hc]
        obtain rfl : NtStatus.cancelled = status := by
          simpa [finalStatus, executed, hc] using hfinal
        constructor
        · intro h
          simpa [Outcome.completed, hs] using h.information
        · intro h
          exact ⟨nofun, List.pairwise_singleton .., by simp [Outcome.completed, hs, h]⟩
      · have hzero : o.information = 0 := hfailed o (List.mem_cons_self ..) hs hc
        rw [if_neg hc, failsQuietly_iff hfailed', executed_cons_of_ne hc]
        -- the code goes on after a failure, and a later success would hide it
        have hstatus : status ≠ .success ↔ finalStatus rest ≠ some .success := by
          by_cases hrest : rest = []
          · subst hrest
            rw [finalStatus_singleton] at hfinal
            obtain rfl := Option.some.inj hfinal
            simpa [finalStatus, executed] using hs
          · rw [finalStatus_cons_cons hc hrest] at hfinal
            simp [hfinal]
        have hinfo : total Outcome.information (o :: executed rest) =
            total Outcome.completed (o :: executed rest) ↔
            total Outcome.information (executed rest) = total Outcome.completed (executed rest) := by
          simp [hzero, Outcome.completed, hs]
        rw [← hstatus, ← hinfo]
        constructor
        · rintro ⟨hsuccess, habort, hinfo⟩
          refine ⟨fun h => hs ((hsuccess h).2 o (List.mem_cons_self ..)), ?_, hinfo⟩
          exact fun later hlater => (List.pairwise_cons.1 habort).1 later hlater hs
        · rintro ⟨hne, hquiet, hinfo⟩
          refine ⟨fun h => absurd h hne, List.pairwise_cons.2 ⟨?_, ?_⟩, hinfo⟩
          · exact fun later hlater _ => hquiet later hlater
          · exact List.pairwise_of_forall_mem_list fun _ _ later hlater _ => hquiet later hlater

/-- **A sequence request is handled soundly exactly when its outcomes meet the condition**: for
every number of transfers and every run of each of them. -/
theorem sequenceSound_iff (device : PbcDevice) (first : TransferRun) (rest : List TransferRun) :
    ∃ run status information, onRequestPollMode device first rest = some run ∧
      run.completion = some (status, information) ∧
      (SequenceSound (rest.length + 1) run.log status information ↔
        SequenceOk ((first :: rest).map TransferRun.outcome)) := by
  obtain ⟨run, status, hrun, hlog, hcompletion, hfinal⟩ := onRequestPollMode_eq device first rest
  refine ⟨run, status, _, hrun, hcompletion, ?_⟩
  have hsound := sound_executed_iff hfinal <| List.forall_mem_map.2 fun t _ => outcome_failed t
  rw [List.length_map, List.length_cons] at hsound
  rwa [hlog]

/-- A write of one byte whose buffer cannot be mapped. -/
def unmappedWrite : TransferRun where
  descriptor := ⟨.toDevice, 1, 0, [⟨[0xAA], false⟩], nofun⟩
  delayed := true
  polls := [⟨false, true, false, 0⟩]
  ends := by decide

/-- A write of one byte that goes through. -/
def goodWrite : TransferRun where
  descriptor := ⟨.toDevice, 1, 0, [⟨[0xBB], true⟩], nofun⟩
  delayed := true
  polls := [⟨false, true, false, 0⟩, ⟨false, true, true, 0⟩]
  ends := by decide

/-- **A failed transfer is hidden by the next**: a sequence of a write whose buffer cannot be
mapped and a write that goes through is completed with success, after clocking the second. -/
theorem failure_hidden :
    ∃ run, onRequestPollMode ⟨false, false, false, false⟩ unmappedWrite [goodWrite] = some run ∧
      run.log.map Outcome.status = [.invalidParameter, .success] ∧
      run.log.map Outcome.written = [[], [0xBB]] ∧ run.completion = some (.success, 1) ∧
      ¬ SequenceSound 2 run.log .success 1 := by
  refine ⟨_, rfl, rfl, rfl, rfl, fun h => ?_⟩
  exact absurd (h.success rfl).2 (by decide)

end RpiDrivers.Spi0
