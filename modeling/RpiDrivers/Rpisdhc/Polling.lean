import Mathlib.Data.List.Basic
import Mathlib.Tactic.ByContra
import Mathlib.Tactic.SplitIfs
import RpiDrivers.Lib.ByteMemory
import RpiDrivers.Lib.Polling
import RpiDrivers.Rpisdhc.Requests

/-!
# Polling and data transfers of the SDHC (`rpisdhc.cpp`)

The driver polls the status register, the state machine and the command register, and moves the
words of a block through the data register. Nothing is assumed of the values that the registers
return: each register is a stream of them, and the driver keeps the positions.

- `Pio`: the driver with the positions, the memory, the accesses of the FIFO and the assertions.
- `dataFlagSound_iff`, `fsmStateSound_iff`: when the two waits succeed for what they wait for.
- `sendCommandInternal_assertions_iff`: when the assertion about the last command holds.
- `Moved`: **what a transfer has to move**. `fifoLoop_moved`: what its loop moves.
- `polling_iff`: **exactly when the waits, the assertions and the transfers are right**.
- `polling_wrong`: a flag on the last retry is a time-out, a failed command that is still new fails
  the assertion, and a block of two bytes is not moved.
-/

namespace RpiDrivers.Rpisdhc.Polling

open RpiDrivers.Lib

/-! ## Registers -/

/-- `_CMD`, as it is read back -/
structure CmdStatus where
  newFlag : Bool
  failFlag : Bool

/-- The values that the registers return, one after the other. -/
structure Registers where
  hsts : Nat → Hsts
  /-- `_EDM::StateMachine` -/
  edm : Nat → BitVec 4
  cmd : Nat → CmdStatus
  data : Nat → UInt32

/-- What happens at the FIFO. -/
inductive Access
  /-- a wait for the data flag has succeeded -/
  | ready
  | read (word : UInt32)
  | write (word : UInt32)

/-- The driver: how many values it has read from each register, the memory, the accesses of the
FIFO, and how many assertions have failed. -/
structure Pio where
  hstsAt : Nat
  edmAt : Nat
  cmdAt : Nat
  dataAt : Nat
  memory : ByteMemory
  fifo : List Access
  failedAssertions : Nat

namespace Pio

/-- `SDHC_ASSERT` -/
def sdhcAssert (p : Pio) (condition : Bool) : Pio :=
  { p with failedAssertions := p.failedAssertions + if condition then 0 else 1 }

/-- `updateAllRegistersDump` -/
def updateAllRegistersDump (p : Pio) : Pio :=
  { p with hstsAt := p.hstsAt + 1, edmAt := p.edmAt + 1, cmdAt := p.cmdAt + 1 }

end Pio

/-- `_POLL_RETRY_COUNT` -/
def pollRetryCount : Nat := 100000

/-- `_EDM::UINT32_FSM_DATAMODE` -/
def fsmDatamode : BitVec 4 := 0x1

/-- `_EDM::UINT32_FSM_WRITESTART1` -/
def fsmWritestart1 : BitVec 4 := 0xa

/-! ## Waits -/

/-- A wait for the status register ends when `awaited` holds or there is an error. -/
def waitDone {α : Type} (awaited : α → Bool) (hsts : α → Hsts) (v : α) : Bool :=
  awaited v || (hsts v).errors ≠ {}

/-- The loop of `waitForDataFlag` ends. -/
def dataDone : Hsts → Bool := waitDone Hsts.dataFlag id

def waitForDataFlag (r : Registers) (p : Pio) : Status × Pio :=
  let x := poll dataDone r.hsts p.hstsAt pollRetryCount
  let p := { p with hstsAt := x.next }
  if x.value.errors ≠ {} then (getErrorStatus x.value, p)
  else if x.retry = 0 then (.ioTimeout, p)
  else (.success, { p.sdhcAssert x.value.dataFlag with fifo := p.fifo ++ [.ready] })

/-- Both registers are read in each round. -/
def hstsEdm (r : Registers) (p : Pio) (k : Nat) : Hsts × BitVec 4 :=
  (r.hsts (p.hstsAt + k), r.edm (p.edmAt + k))

/-- The loop of `waitForFsmState` ends. -/
def fsmDone (state : BitVec 4) : Hsts × BitVec 4 → Bool := waitDone (fun v => v.2 = state) Prod.fst

def waitForFsmState (r : Registers) (state : BitVec 4) (p : Pio) : Status × Pio :=
  let x := poll (fsmDone state) (hstsEdm r p) 0 pollRetryCount
  let p := { p with hstsAt := p.hstsAt + x.next, edmAt := p.edmAt + x.next }
  if x.value.1.errors ≠ {} then (getErrorStatus x.value.1, p)
  else if x.retry = 0 then (.ioTimeout, p)
  else (.success, p.sdhcAssert (x.value.2 = state))

/-- The loop of `waitForLastCommandCompletion` ends. -/
def cmdDone (cmd : CmdStatus) : Bool := !(cmd.newFlag && !cmd.failFlag)

def waitForLastCommandCompletion (r : Registers) (p : Pio) : Status × Pio :=
  let x := poll cmdDone r.cmd p.cmdAt pollRetryCount
  let p := { p with cmdAt := x.next }
  if !x.value.newFlag || x.value.failFlag then (.success, p)
  else (.ioTimeout, p.sdhcAssert (x.retry = 0))

/-- The loop of `drainReadFifo` ends. -/
def drained (hsts : Hsts) : Bool := !hsts.dataFlag

def drainReadFifo (r : Registers) (p : Pio) : Status × Pio :=
  let x := poll drained r.hsts p.hstsAt pollRetryCount
  -- a word is thrown away in each round
  let p := { p with hstsAt := x.next, dataAt := p.dataAt + (pollRetryCount - x.retry) }
  if x.retry = 0 then (.ioTimeout, p)
  else (.success, p.sdhcAssert (!x.value.dataFlag))

/-! ## Commands -/

/-- `_CMD`, as it is written -/
structure Cmd where
  command : Nat
  readCmd : Bool

/-- `SDCMD_STOP_TRANSMISSION`, as `buildCommand` builds it -/
def stopTransmissionCmd : Cmd := ⟨12, false⟩

def getLastCommandCompletionStatus (r : Registers) (p : Pio) : Status × Pio :=
  let cmd := r.cmd p.cmdAt
  -- "Command still executing"
  let p := { p with cmdAt := p.cmdAt + 1 }.sdhcAssert (!cmd.newFlag)
  if cmd.failFlag then
    (getErrorStatus (r.hsts p.hstsAt), { p with hstsAt := p.hstsAt + 1 })
  else (.success, p)

/-- The part of `sendCommandInternal` that waits for the command it has sent. -/
def completeCommand (r : Registers) (cmd : Cmd) (p : Pio) : Status × Pio :=
  match waitForLastCommandCompletion r p with
  | (.success, p) =>
    match getLastCommandCompletionStatus r p with
    | (.success, p) => (.success, p)
    | (status, p) =>
      let hsts := r.hsts p.hstsAt
      let p := { p with hstsAt := p.hstsAt + 1 }
      -- "Ignore CRC7 error for CMD1"
      if cmd.command = 1 ∧ hsts.crc7Error then (.success, p)
      else (status, p.updateAllRegistersDump)
  | (status, p) => (status, p.updateAllRegistersDump)

/-- The part of `sendCommandInternal` before the command is written. -/
def startCommand (r : Registers) (cmd : Cmd) (p : Pio) : Status × Pio :=
  match waitForLastCommandCompletion r p with
  | (.success, p) =>
    if cmd.readCmd then
      match drainReadFifo r p with
      | (.success, p) => (.success, p)
      | (status, p) =>
        let p := p.updateAllRegistersDump
        (status, { p with hstsAt := p.hstsAt + 1 })
    else (.success, p)
  | (status, p) => (status, p.updateAllRegistersDump)

def sendCommandInternal (r : Registers) (cmd : Cmd) (waitCompletion : Bool) (p : Pio) :
    Status × Pio :=
  match startCommand r cmd p with
  | (.success, p) => if waitCompletion then completeCommand r cmd p else (.success, p)
  | (status, p) => (status, p)

/-! ## Transfers -/

inductive TransferDirection
  | read
  | write
  | undefined
  deriving DecidableEq

/-- `SDPORT_REQUEST` of a transfer -/
structure Transfer where
  type : RequestType
  transferDirection : TransferDirection
  transferType : TransferType
  blockSize : Nat
  blockCount : Nat
  dataBuffer : Nat

/-- The bytes of a word in memory -/
def wordBytes (word : UInt32) : List UInt8 := encode32 word.toNat

/-- Read a word from the data register. -/
def readWord (r : Registers) (wordPtr : Nat) (p : Pio) : Pio :=
  { p with
    dataAt := p.dataAt + 1
    memory := store p.memory wordPtr (wordBytes (r.data p.dataAt))
    fifo := p.fifo ++ [.read (r.data p.dataAt)] }

/-- Write a word to the data register. -/
def writeWord (wordPtr : Nat) (p : Pio) : Pio :=
  { p with fifo := p.fifo ++ [.write (.ofNat (load32 p.memory wordPtr))] }

/-- The loop of `readFromFifo` and `writeToFifo` -/
def fifoLoop (r : Registers) (move : Nat → Pio → Pio) (wordPtr : Nat) : Nat → Pio → Status × Pio
  | 0, p => (.success, p)
  | count + 1, p =>
    match waitForDataFlag r p with
    | (.success, p) => fifoLoop r move (wordPtr + 4) count (move wordPtr p)
    | (waitStatus, p) => (waitStatus, p.updateAllRegistersDump)

def readFromFifo (r : Registers) (buffer size : Nat) (p : Pio) : Status × Pio :=
  fifoLoop r (readWord r) buffer (size / 4) (p.sdhcAssert (size % 4 = 0))

def writeToFifo (r : Registers) (buffer size : Nat) (p : Pio) : Status × Pio :=
  fifoLoop r writeWord buffer (size / 4) (p.sdhcAssert (size % 4 = 0))

/-- `transferSingleBlockPio`; there is no status for `STATUS_NOT_SUPPORTED`. -/
def transferSingleBlockPio (r : Registers) (q : Transfer) (p : Pio) : Option Status × Pio :=
  match q.transferDirection with
  | .read =>
    let x := readFromFifo r q.dataBuffer q.blockSize p
    (some x.1, x.2)
  | .write =>
    match writeToFifo r q.dataBuffer q.blockSize p with
    | (.success, p) =>
      let x := waitForFsmState r
        (if q.transferType = .singleBlock then fsmDatamode else fsmWritestart1) p
      (some x.1, x.2)
    | (status, p) => (some status, p)
  | .undefined => (none, p)

/-- The loop of `transferMultiBlockPio` -/
def transferBlocks (r : Registers) (q : Transfer) : Nat → Nat → Pio → Option Status × Pio
  | 0, _, p => (some .success, p)
  | blockCount + 1, dataBuffer, p =>
    match transferSingleBlockPio r { q with dataBuffer } p with
    | (some .success, p) => transferBlocks r q blockCount (dataBuffer + q.blockSize) p
    | (status, p) => (status, p)

/-- `stopTransmission(false)`, with the dump that follows when it fails after a transfer -/
def stopTransmission (r : Registers) (status : Option Status) (p : Pio) : Pio :=
  match sendCommandInternal r stopTransmissionCmd false p with
  | (.success, p) => p
  | (_, p) => if status = some .success then p.updateAllRegistersDump else p

def transferMultiBlockPio (r : Registers) (q : Transfer) (p : Pio) : Option Status × Pio :=
  let p := p.sdhcAssert (q.type = .startTransfer && q.transferDirection ≠ .undefined &&
    q.transferType ≠ .singleBlock)
  let x := transferBlocks r q q.blockCount q.dataBuffer p
  (x.1, stopTransmission r x.1 x.2)

/-! ## The property -/

section Waits

variable {α : Type}

/-- A value shows the condition, and no error bit. -/
def Shows (awaited : α → Bool) (hsts : α → Hsts) (v : α) : Prop :=
  awaited v = true ∧ (hsts v).errors = {}

/-- The condition first comes with the value that is read on the very last retry. -/
def OnLastRetry (awaited : α → Bool) (hsts : α → Hsts) (values : Nat → α) (pos : Nat) : Prop :=
  NeverIn (waitDone awaited hsts) values pos pollRetryCount ∧
    Shows awaited hsts (values (pos + pollRetryCount))

end Waits

/-- `waitForDataFlag` succeeds exactly when the last value that it has read shows the flag. -/
def DataFlagSound (r : Registers) (p : Pio) : Prop :=
  (waitForDataFlag r p).1 = .success ↔
    Shows Hsts.dataFlag id (r.hsts ((waitForDataFlag r p).2.hstsAt - 1))

/-- `waitForFsmState` succeeds exactly when the last values that it has read show the state. -/
def FsmStateSound (r : Registers) (state : BitVec 4) (p : Pio) : Prop :=
  (waitForFsmState r state p).1 = .success ↔
    Shows (fun v : Hsts × BitVec 4 => v.2 = state) Prod.fst
      (r.hsts ((waitForFsmState r state p).2.hstsAt - 1),
        r.edm ((waitForFsmState r state p).2.edmAt - 1))

/-- What happens at the FIFO for a word. -/
def wordAccesses : TransferDirection → UInt32 → List Access
  | .read, w => [.ready, .read w]
  | .write, w => [.ready, .write w]
  | .undefined, _ => []

/-- The words of a transfer are those of the data register, or those of the buffer. -/
def Contents (r : Registers) (p p' : Pio) (buffer bytes : Nat) (words : List UInt32) :
    TransferDirection → Prop
  | .read =>
    words = (List.range words.length).map (fun i => r.data (p.dataAt + i)) ∧
      p'.memory = store p.memory buffer (words.flatMap wordBytes) ∧
      p'.dataAt = p.dataAt + words.length
  | .write =>
    words.flatMap wordBytes = load p.memory buffer bytes ∧ p'.memory = p.memory ∧
      p'.dataAt = p.dataAt
  | .undefined => words = [] ∧ p'.memory = p.memory ∧ p'.dataAt = p.dataAt

/-- **Exactly `bytes` bytes are moved** between the buffer and the FIFO, in order, one word for each
wait. -/
def Moved (r : Registers) (d : TransferDirection) (buffer bytes : Nat) (p p' : Pio) : Prop :=
  ∃ words : List UInt32, (words.flatMap wordBytes).length = bytes ∧
    p'.fifo = p.fifo ++ words.flatMap (wordAccesses d) ∧ Contents r p p' buffer bytes words d

/-- A transfer of a block moves it whenever it succeeds. -/
def SingleBlockSound (q : Transfer) : Prop :=
  ∀ r p, (transferSingleBlockPio r q p).1 = some .success →
    Moved r q.transferDirection q.dataBuffer q.blockSize p (transferSingleBlockPio r q p).2

/-- So does a transfer of several blocks. -/
def MultiBlockSound (q : Transfer) : Prop :=
  ∀ r p, (transferMultiBlockPio r q p).1 = some .success →
    Moved r q.transferDirection q.dataBuffer (q.blockCount * q.blockSize) p
      (transferMultiBlockPio r q p).2

/-- The command is started when the last one has come to an end and the FIFO is drained. -/
def Starts (r : Registers) (p : Pio) (cmd : Cmd) (k : Nat) : Prop :=
  k ≤ pollRetryCount ∧ StopsAt cmdDone r.cmd p.cmdAt k ∧
    (cmd.readCmd = true → ∃ j < pollRetryCount, StopsAt drained r.hsts p.hstsAt j)

/-- The command has come to an end, and the next value of the command register shows it as new. -/
def StillExecuting (r : Registers) (cmd : Cmd) (waitCompletion : Bool) (p : Pio) : Prop :=
  waitCompletion = true ∧ ∃ k, Starts r p cmd k ∧
    ∃ l ≤ pollRetryCount, StopsAt cmdDone r.cmd (p.cmdAt + k + 1) l ∧
      (r.cmd (p.cmdAt + k + 1 + l + 1)).newFlag = true

/-! ## When a wait succeeds -/

section Waits

variable {α : Type} {awaited : α → Bool} {hsts : α → Hsts} {values : Nat → α} {pos : Nat}

/-- A wait fails for an error, or because no retry is left. -/
theorem wait_cases (h : Hsts) (retry : Nat) (p p' : Pio) :
    let y : Status × Pio := if h.errors ≠ {} then (getErrorStatus h, p)
      else if retry = 0 then (.ioTimeout, p) else (.success, p')
    (h.errors = {} ∧ retry ≠ 0) ∧ y = (.success, p') ∨
      ¬ (h.errors = {} ∧ retry ≠ 0) ∧ ∃ status ≠ .success, y = (status, p) := by
  split_ifs with herrors hretry
  · exact .inr ⟨fun hok => herrors hok.1, getErrorStatus h, getErrorStatus_ne_success h, rfl⟩
  · exact .inr ⟨fun hok => hok.2 hretry, .ioTimeout, Status.noConfusion, rfl⟩
  · exact .inl ⟨⟨not_not.1 herrors, hretry⟩, rfl⟩

/-- **A wait succeeds for what it waits for**, but not on the last retry. -/
theorem poll_shows_iff {x : Polled α}
    (hx : x = poll (waitDone awaited hsts) values pos pollRetryCount) :
    (((hsts x.value).errors = {} ∧ x.retry ≠ 0) ↔ Shows awaited hsts x.value) ↔
      ¬ OnLastRetry awaited hsts values pos := by
  subst hx
  rcases neverIn_or_stopsAt (waitDone awaited hsts) values pos pollRetryCount with
    hnever | ⟨k, hk, hstop⟩
  · simp [poll_of_never hnever, OnLastRetry, hnever]
  · rw [poll_of_stopsAt hstop (Nat.le_of_lt hk)]
    have hlate : ¬ OnLastRetry awaited hsts values pos := by
      intro h
      have := h.1 k hk
      rw [hstop.2] at this
      cases this
    have hretry : pollRetryCount - k ≠ 0 := by omega
    have hdone : awaited (values (pos + k)) = true ∨ (hsts (values (pos + k))).errors ≠ {} := by
      simpa [waitDone] using hstop.2
    simp only [hlate, not_false_iff, iff_true, Shows]
    constructor
    · rintro ⟨herrors, -⟩
      exact ⟨hdone.resolve_right fun h => h herrors, herrors⟩
    · rintro ⟨-, herrors⟩
      exact ⟨herrors, hretry⟩

/-- What a wait that succeeds asserts. -/
theorem poll_awaited {x : Polled α}
    (hx : x = poll (waitDone awaited hsts) values pos pollRetryCount)
    (herrors : (hsts x.value).errors = {}) (hretry : x.retry ≠ 0) : awaited x.value = true := by
  have hdone : waitDone awaited hsts x.value = true := by
    subst hx
    exact poll_done pollRetryCount hretry
  simpa [waitDone, herrors] using hdone

end Waits

section

variable (r : Registers) (p : Pio)

/-- What `waitForDataFlag` does, by the last value it has read. -/
theorem waitForDataFlag_eq {x : Polled Hsts}
    (hx : poll dataDone r.hsts p.hstsAt pollRetryCount = x) :
    ∃ status, (x.value.errors = {} ∧ x.retry ≠ 0 ↔ status = .success) ∧
      waitForDataFlag r p = (status, { p with
        hstsAt := x.next
        fifo := if status = .success then p.fifo ++ [.ready] else p.fifo }) := by
  rcases wait_cases x.value x.retry { p with hstsAt := x.next }
    { { p with hstsAt := x.next }.sdhcAssert x.value.dataFlag with fifo := p.fifo ++ [.ready] } with
    ⟨hok, heq⟩ | ⟨hfail, status, hne, heq⟩
  · have hflag : x.value.dataFlag = true := poll_awaited hx.symm hok.1 hok.2
    refine ⟨.success, iff_of_true hok rfl, ?_⟩
    rw [waitForDataFlag, hx]
    exact heq.trans (by simp [Pio.sdhcAssert, hflag])
  · refine ⟨status, iff_of_false hfail hne, ?_⟩
    rw [waitForDataFlag, hx, if_neg hne]
    exact heq

/-- What `waitForFsmState` does, by the last values it has read. -/
theorem waitForFsmState_eq (state : BitVec 4) {x : Polled (Hsts × BitVec 4)}
    (hx : poll (fsmDone state) (hstsEdm r p) 0 pollRetryCount = x) :
    ∃ status, (x.value.1.errors = {} ∧ x.retry ≠ 0 ↔ status = .success) ∧
      waitForFsmState r state p =
        (status, { p with hstsAt := p.hstsAt + x.next, edmAt := p.edmAt + x.next }) := by
  rcases wait_cases x.value.1 x.retry
    { p with hstsAt := p.hstsAt + x.next, edmAt := p.edmAt + x.next }
    ({ p with hstsAt := p.hstsAt + x.next, edmAt := p.edmAt + x.next }.sdhcAssert
      (x.value.2 = state)) with ⟨hok, heq⟩ | ⟨hfail, status, hne, heq⟩
  · have hstate : decide (x.value.2 = state) = true := poll_awaited hx.symm hok.1 hok.2
    refine ⟨.success, iff_of_true hok rfl, ?_⟩
    rw [waitForFsmState, hx]
    exact heq.trans (by simp [Pio.sdhcAssert, of_decide_eq_true hstate])
  · refine ⟨status, iff_of_false hfail hne, ?_⟩
    rw [waitForFsmState, hx]
    exact heq

/-- **`waitForDataFlag` succeeds exactly for the data flag**, but for the last retry. -/
theorem dataFlagSound_iff :
    DataFlagSound r p ↔ ¬ OnLastRetry Hsts.dataFlag id r.hsts p.hstsAt := by
  have hvalue := poll_value dataDone r.hsts p.hstsAt pollRetryCount
  obtain ⟨status, hstatus, heq⟩ := waitForDataFlag_eq r p rfl
  rw [← poll_shows_iff rfl, DataFlagSound, heq]
  simp only [← hvalue]
  exact iff_congr hstatus.symm Iff.rfl

/-- **`waitForFsmState` succeeds exactly for the state**, but for the last retry. -/
theorem fsmStateSound_iff (state : BitVec 4) :
    FsmStateSound r state p ↔
      ¬ OnLastRetry (fun v : Hsts × BitVec 4 => v.2 = state) Prod.fst (hstsEdm r p) 0 := by
  have hvalue := poll_value (fsmDone state) (hstsEdm r p) 0 pollRetryCount
  have hpos := poll_next_pos (fsmDone state) (hstsEdm r p) 0 pollRetryCount
  obtain ⟨status, hstatus, heq⟩ := waitForFsmState_eq r p state rfl
  rw [← poll_shows_iff rfl, FsmStateSound, heq]
  simp only [Nat.add_sub_assoc hpos]
  exact iff_congr hstatus.symm (by rw [← fsmDone, hvalue]; rfl)

end

/-! ## Assertions -/

section

variable (r : Registers) (p : Pio)

theorem waitForDataFlag_assertions :
    (waitForDataFlag r p).2.failedAssertions = p.failedAssertions := by
  obtain ⟨status, -, heq⟩ := waitForDataFlag_eq r p rfl
  rw [heq]

theorem waitForFsmState_assertions (state : BitVec 4) :
    (waitForFsmState r state p).2.failedAssertions = p.failedAssertions := by
  obtain ⟨status, -, heq⟩ := waitForFsmState_eq r p state rfl
  rw [heq]

/-- `waitForLastCommandCompletion` ends at the first command that is not new, or has failed. -/
theorem waitForLastCommandCompletion_of_stopsAt {k : Nat} (h : StopsAt cmdDone r.cmd p.cmdAt k)
    (hk : k ≤ pollRetryCount) :
    waitForLastCommandCompletion r p = (.success, { p with cmdAt := p.cmdAt + k + 1 }) := by
  have hdone : (!(r.cmd (p.cmdAt + k)).newFlag || (r.cmd (p.cmdAt + k)).failFlag) = true := by
    simpa [cmdDone] using h.2
  rw [waitForLastCommandCompletion, poll_of_stopsAt h hk]
  exact if_pos hdone

/-- Otherwise it times out, with its assertion. -/
theorem waitForLastCommandCompletion_of_never
    (h : NeverIn cmdDone r.cmd p.cmdAt (pollRetryCount + 1)) :
    waitForLastCommandCompletion r p =
      (.ioTimeout, { p with cmdAt := p.cmdAt + pollRetryCount + 1 }) := by
  have hlast : cmdDone (r.cmd (p.cmdAt + pollRetryCount)) = false := h _ (Nat.lt_succ_self _)
  have hnot : ¬ (!(r.cmd (p.cmdAt + pollRetryCount)).newFlag ||
      (r.cmd (p.cmdAt + pollRetryCount)).failFlag) = true := by
    simpa [cmdDone] using hlast
  rw [waitForLastCommandCompletion, poll_of_never fun j hj => h j (by omega)]
  simp only [if_neg hnot]
  rfl

theorem waitForLastCommandCompletion_assertions :
    (waitForLastCommandCompletion r p).2.failedAssertions = p.failedAssertions := by
  rcases neverIn_or_stopsAt cmdDone r.cmd p.cmdAt (pollRetryCount + 1) with h | ⟨k, hk, h⟩
  · rw [waitForLastCommandCompletion_of_never r p h]
  · rw [waitForLastCommandCompletion_of_stopsAt r p h (by omega)]

theorem drainReadFifo_of_stopsAt {k : Nat} (h : StopsAt drained r.hsts p.hstsAt k)
    (hk : k < pollRetryCount) :
    drainReadFifo r p =
      (.success, { p with hstsAt := p.hstsAt + k + 1, dataAt := p.dataAt + k }) := by
  have hdone : (!(r.hsts (p.hstsAt + k)).dataFlag) = true := h.2
  rw [drainReadFifo, poll_of_stopsAt h (Nat.le_of_lt hk)]
  simp only [if_neg (Nat.sub_ne_zero_of_lt hk), Pio.sdhcAssert, hdone, if_true]
  rw [Nat.sub_sub_self (Nat.le_of_lt hk)]
  rfl

theorem drainReadFifo_of_never (h : NeverIn drained r.hsts p.hstsAt pollRetryCount) :
    drainReadFifo r p = (.ioTimeout, { p with
      hstsAt := p.hstsAt + pollRetryCount + 1
      dataAt := p.dataAt + pollRetryCount }) := by
  rw [drainReadFifo, poll_of_never h]
  rfl

theorem drainReadFifo_assertions :
    (drainReadFifo r p).2.failedAssertions = p.failedAssertions := by
  rcases neverIn_or_stopsAt drained r.hsts p.hstsAt pollRetryCount with h | ⟨k, hk, h⟩
  · rw [drainReadFifo_of_never r p h]
  · rw [drainReadFifo_of_stopsAt r p h hk]

/-- A command that is still new fails the assertion. -/
theorem getLastCommandCompletionStatus_assertions :
    (getLastCommandCompletionStatus r p).2.failedAssertions =
      p.failedAssertions + if (r.cmd p.cmdAt).newFlag then 1 else 0 := by
  unfold getLastCommandCompletionStatus
  cases hnew : (r.cmd p.cmdAt).newFlag <;> cases hfail : (r.cmd p.cmdAt).failFlag <;>
    simp [Pio.sdhcAssert, hnew, hfail]

/-- What follows the wait asserts nothing else. -/
theorem completeCommand_of_stopsAt (cmd : Cmd) {k : Nat} (h : StopsAt cmdDone r.cmd p.cmdAt k)
    (hk : k ≤ pollRetryCount) :
    (completeCommand r cmd p).2.failedAssertions =
      p.failedAssertions + if (r.cmd (p.cmdAt + k + 1)).newFlag then 1 else 0 := by
  have hlast := getLastCommandCompletionStatus_assertions r { p with cmdAt := p.cmdAt + k + 1 }
  rw [completeCommand, waitForLastCommandCompletion_of_stopsAt r p h hk]
  simp only
  split
  · next heq => rwa [heq] at hlast
  · next heq =>
    rw [heq] at hlast
    split <;> exact hlast

/-- **The command that was waited for may still be new**: this is when it is. -/
theorem completeCommand_assertions_iff (cmd : Cmd) :
    (completeCommand r cmd p).2.failedAssertions = p.failedAssertions ↔
      ¬ ∃ k ≤ pollRetryCount, StopsAt cmdDone r.cmd p.cmdAt k ∧
        (r.cmd (p.cmdAt + k + 1)).newFlag = true := by
  rcases neverIn_or_stopsAt cmdDone r.cmd p.cmdAt (pollRetryCount + 1) with hnever | ⟨k, hk, hstop⟩
  · refine iff_of_true ?_ ?_
    · rw [completeCommand, waitForLastCommandCompletion_of_never r p hnever]
      rfl
    · rintro ⟨k, hk, hstop, -⟩
      have := hnever k (by omega)
      rw [hstop.2] at this
      cases this
  · rw [completeCommand_of_stopsAt r p cmd hstop (by omega)]
    constructor
    · rintro hsame ⟨l, -, hl, hnew⟩
      rw [hl.unique hstop] at hnew
      simp [hnew] at hsame
    · intro h
      have hnot : ¬ (r.cmd (p.cmdAt + k + 1)).newFlag = true :=
        fun hnew => h ⟨k, by omega, hstop, hnew⟩
      rw [if_neg hnot]
      rfl

theorem startCommand_of_starts {cmd : Cmd} {k : Nat} (h : Starts r p cmd k) :
    ∃ p', startCommand r cmd p = (.success, p') ∧ p'.cmdAt = p.cmdAt + k + 1 ∧
      p'.failedAssertions = p.failedAssertions := by
  obtain ⟨hk, hstop, hdrain⟩ := h
  rw [startCommand, waitForLastCommandCompletion_of_stopsAt r p hstop hk]
  simp only
  split
  · next hread =>
    obtain ⟨j, hj, hstop⟩ := hdrain hread
    rw [drainReadFifo_of_stopsAt r { p with cmdAt := p.cmdAt + k + 1 } hstop hj]
    exact ⟨_, rfl, rfl, rfl⟩
  · exact ⟨_, rfl, rfl, rfl⟩

theorem startCommand_of_not_starts {cmd : Cmd} (h : ∀ k, ¬ Starts r p cmd k) :
    ∃ status p', status ≠ .success ∧ startCommand r cmd p = (status, p') ∧
      p'.failedAssertions = p.failedAssertions := by
  rcases neverIn_or_stopsAt cmdDone r.cmd p.cmdAt (pollRetryCount + 1) with hnever | ⟨k, hk, hstop⟩
  · rw [startCommand, waitForLastCommandCompletion_of_never r p hnever]
    exact ⟨.ioTimeout, _, Status.noConfusion, rfl, rfl⟩
  · rcases neverIn_or_stopsAt drained r.hsts p.hstsAt pollRetryCount with hnever | ⟨j, hj, hdrain⟩
    · have hread : cmd.readCmd = true := by
        by_contra hread
        exact h k ⟨by omega, hstop, fun h => absurd h hread⟩
      rw [startCommand, waitForLastCommandCompletion_of_stopsAt r p hstop (by omega)]
      simp only [hread, if_true]
      rw [drainReadFifo_of_never r { p with cmdAt := p.cmdAt + k + 1 } hnever]
      exact ⟨.ioTimeout, _, Status.noConfusion, rfl, rfl⟩
    · exact absurd ⟨by omega, hstop, fun _ => ⟨j, hj, hdrain⟩⟩ (h k)

/-- **When the assertions of `sendCommandInternal` hold.** -/
theorem sendCommandInternal_assertions_iff (cmd : Cmd) (waitCompletion : Bool) :
    (sendCommandInternal r cmd waitCompletion p).2.failedAssertions = p.failedAssertions ↔
      ¬ StillExecuting r cmd waitCompletion p := by
  by_cases h : ∃ k, Starts r p cmd k
  · obtain ⟨k, hk⟩ := h
    obtain ⟨p', heq, hcmdAt, hsame⟩ := startCommand_of_starts r p hk
    rw [sendCommandInternal, heq]
    cases waitCompletion with
    | false => simp [hsame, StillExecuting]
    | true =>
      simp only [if_true]
      rw [← hsame, completeCommand_assertions_iff, hcmdAt]
      refine not_congr ⟨?_, ?_⟩
      · rintro ⟨l, hl, hstop', hnew⟩
        exact ⟨rfl, k, hk, l, hl, hstop', hnew⟩
      · rintro ⟨-, k', ⟨-, hstop', -⟩, l, hl, hl', hnew⟩
        obtain rfl := hstop'.unique hk.2.1
        exact ⟨l, hl, hl', hnew⟩
  · obtain ⟨status, p', hne, heq, hsame⟩ :=
      startCommand_of_not_starts r p fun k hk => h ⟨k, hk⟩
    refine iff_of_true ?_ ?_
    · rw [sendCommandInternal, heq]
      split
      · next h => exact absurd (congrArg Prod.fst h) hne
      · next h => exact (congrArg (fun x => x.2.failedAssertions) h).symm.trans hsame
    · rintro ⟨-, k, hk, -⟩
      exact h ⟨k, hk⟩

end

/-! ## What a transfer moves -/

theorem length_flatMap_wordBytes (words : List UInt32) :
    (words.flatMap wordBytes).length = 4 * words.length := by
  induction words with
  | nil => rfl
  | cons w words ih => simp [ih, wordBytes]; omega

/-- The word at an address has the bytes at that address. -/
theorem wordBytes_load32 (m : ByteMemory) (a : Nat) :
    wordBytes (.ofNat (load32 m a)) = load m a 4 := by
  have hlt : load32 m a < 2 ^ 32 := decode32_lt (length_load ..)
  rw [wordBytes, UInt32.toNat_ofNat_of_lt' hlt]
  exact encode32_decode32 (length_load ..)

/-- The FIFO, the data register and the memory are left alone. -/
def SameData (p p' : Pio) : Prop :=
  p'.fifo = p.fifo ∧ p'.dataAt = p.dataAt ∧ p'.memory = p.memory

namespace Moved

variable {r : Registers} {d : TransferDirection} {buffer : Nat} {p p' p'' : Pio}

theorem nil (r : Registers) (d : TransferDirection) (buffer : Nat) (p : Pio) :
    Moved r d buffer 0 p p := by
  refine ⟨[], rfl, by simp, ?_⟩
  cases d with
  | read => simp [Contents, store_nil]
  | write => simp [Contents, load]
  | undefined => simp [Contents]

theorem congr {bytes : Nat} {p₁ p₁' : Pio} (h : Moved r d buffer bytes p p')
    (hstart : SameData p p₁) (hend : SameData p' p₁') : Moved r d buffer bytes p₁ p₁' := by
  obtain ⟨words, hlength, hfifo, hcontents⟩ := h
  obtain ⟨hf, hd, hm⟩ := hstart
  obtain ⟨hf', hd', hm'⟩ := hend
  refine ⟨words, hlength, by rw [hf', hfifo, hf], ?_⟩
  cases d <;> simpa only [Contents, hd, hm, hd', hm'] using hcontents

/-- One transfer after the other. -/
theorem trans {m n : Nat} (h : Moved r d buffer m p p') (h' : Moved r d (buffer + m) n p' p'') :
    Moved r d buffer (m + n) p p'' := by
  obtain ⟨words, hlength, hfifo, hcontents⟩ := h
  obtain ⟨words', hlength', hfifo', hcontents'⟩ := h'
  refine ⟨words ++ words', ?_, ?_, ?_⟩
  · rw [List.flatMap_append, List.length_append, hlength, hlength']
  · rw [List.flatMap_append, hfifo', hfifo, List.append_assoc]
  · cases d with
    | read =>
      obtain ⟨hwords, hmemory, hdata⟩ := hcontents
      obtain ⟨hwords', hmemory', hdata'⟩ := hcontents'
      refine ⟨?_, ?_, ?_⟩
      · rw [hdata] at hwords'
        rw [List.length_append, List.range_add, List.map_append, List.map_map, ← hwords]
        simpa only [Function.comp_def, Nat.add_assoc] using congrArg (words ++ ·) hwords'
      · rw [hmemory', hmemory, List.flatMap_append, ← hlength, store_append]
      · rw [hdata', hdata, List.length_append, Nat.add_assoc]
    | write =>
      obtain ⟨hwords, hmemory, hdata⟩ := hcontents
      obtain ⟨hwords', hmemory', hdata'⟩ := hcontents'
      refine ⟨?_, hmemory'.trans hmemory, hdata'.trans hdata⟩
      rw [List.flatMap_append, load_append, hwords, hwords', hmemory]
    | undefined =>
      obtain ⟨hwords, hmemory, hdata⟩ := hcontents
      obtain ⟨hwords', hmemory', hdata'⟩ := hcontents'
      exact ⟨by rw [hwords, hwords']; rfl, hmemory'.trans hmemory, hdata'.trans hdata⟩

/-- A transfer shows at the FIFO: a wait and a word for every four bytes. -/
theorem length_fifo {bytes : Nat} (h : Moved r d buffer bytes p p') (hd : d ≠ .undefined) :
    2 * (p'.fifo.length - p.fifo.length) = bytes ∧ p.fifo.length ≤ p'.fifo.length := by
  obtain ⟨words, hlength, hfifo, -⟩ := h
  have hwords : (words.flatMap (wordAccesses d)).length = 2 * words.length := by
    clear hlength hfifo
    induction words with
    | nil => rfl
    | cons w words ih =>
      cases d with
      | read => simp [wordAccesses] at ih ⊢; omega
      | write => simp [wordAccesses] at ih ⊢; omega
      | undefined => exact absurd rfl hd
  rw [length_flatMap_wordBytes] at hlength
  rw [hfifo, List.length_append, hwords]
  omega

end Moved

section

variable (r : Registers)

theorem readWord_moved (wordPtr : Nat) (p : Pio) :
    Moved r .read wordPtr 4 p (readWord r wordPtr { p with fifo := p.fifo ++ [.ready] }) :=
  ⟨[r.data p.dataAt], rfl, by simp [readWord, wordAccesses], rfl, by simp [readWord], rfl⟩

theorem writeWord_moved (wordPtr : Nat) (p : Pio) :
    Moved r .write wordPtr 4 p (writeWord wordPtr { p with fifo := p.fifo ++ [.ready] }) := by
  refine ⟨[.ofNat (load32 p.memory wordPtr)], rfl, by simp [writeWord, wordAccesses], ?_, rfl, rfl⟩
  simpa using wordBytes_load32 p.memory wordPtr

/-- **The loop moves a word for each wait**, whatever the registers return. -/
theorem fifoLoop_moved {d : TransferDirection} {move : Nat → Pio → Pio}
    (hmove : ∀ a p, Moved r d a 4 p (move a { p with fifo := p.fifo ++ [.ready] })) (count : Nat) :
    ∀ (wordPtr : Nat) (p : Pio), (fifoLoop r move wordPtr count p).1 = .success →
      Moved r d wordPtr (4 * count) p (fifoLoop r move wordPtr count p).2 := by
  induction count with
  | zero => exact fun wordPtr p _ => Moved.nil r d wordPtr p
  | succ count ih =>
    intro wordPtr p h
    obtain ⟨status, -, heq⟩ := waitForDataFlag_eq r p rfl
    rw [fifoLoop, heq] at h ⊢
    cases status with
    | success =>
      simp only [if_true] at h ⊢
      rw [show 4 * (count + 1) = 4 + 4 * count by omega]
      refine Moved.trans ?_ (ih (wordPtr + 4) _ h)
      exact (hmove wordPtr
        { p with hstsAt := (poll dataDone r.hsts p.hstsAt pollRetryCount).next }).congr
          ⟨rfl, rfl, rfl⟩ ⟨rfl, rfl, rfl⟩
    | _ => exact Status.noConfusion h

theorem sameData_sdhcAssert (p : Pio) (condition : Bool) : SameData (p.sdhcAssert condition) p :=
  ⟨rfl, rfl, rfl⟩

theorem SameData.refl (p : Pio) : SameData p p := ⟨rfl, rfl, rfl⟩

theorem SameData.trans {p p' p'' : Pio} (h : SameData p p') (h' : SameData p' p'') :
    SameData p p'' :=
  ⟨h'.1.trans h.1, h'.2.1.trans h.2.1, h'.2.2.trans h.2.2⟩

/-- **A block that is transferred** is moved, but for the bytes behind its last word. -/
theorem transferSingleBlockPio_moved (q : Transfer) (p : Pio)
    (h : (transferSingleBlockPio r q p).1 = some .success) :
    q.transferDirection ≠ .undefined ∧ Moved r q.transferDirection q.dataBuffer
      (4 * (q.blockSize / 4)) p (transferSingleBlockPio r q p).2 := by
  unfold transferSingleBlockPio at h ⊢
  cases hd : q.transferDirection with
  | read =>
    simp only [hd] at h ⊢
    refine ⟨TransferDirection.noConfusion, ?_⟩
    exact (fifoLoop_moved r (readWord_moved r) _ _ _ (Option.some.inj h)).congr
      (sameData_sdhcAssert p _) (SameData.refl _)
  | write =>
    rcases hwrite : writeToFifo r q.dataBuffer q.blockSize p with ⟨status, p'⟩
    simp only [hd, hwrite] at h ⊢
    refine ⟨TransferDirection.noConfusion, ?_⟩
    cases status with
    | success =>
      have hmoved := fifoLoop_moved r (writeWord_moved r) (q.blockSize / 4) q.dataBuffer
        (p.sdhcAssert (q.blockSize % 4 = 0)) (congrArg Prod.fst hwrite)
      obtain ⟨status, -, hwait⟩ := waitForFsmState_eq r p'
        (if q.transferType = .singleBlock then fsmDatamode else fsmWritestart1) rfl
      simp only [hwait]
      refine hmoved.congr (sameData_sdhcAssert p _) ?_
      rw [show fifoLoop r writeWord q.dataBuffer (q.blockSize / 4)
        (p.sdhcAssert (q.blockSize % 4 = 0)) = (.success, p') from hwrite]
      exact ⟨rfl, rfl, rfl⟩
    | _ => cases h
  | undefined =>
    simp only [hd] at h
    cases h

/-- **Blocks of whole words are moved** one after the other. -/
theorem transferBlocks_moved {q : Transfer} (hsize : q.blockSize % 4 = 0) (blockCount : Nat) :
    ∀ (dataBuffer : Nat) (p : Pio),
      (transferBlocks r q blockCount dataBuffer p).1 = some .success →
      Moved r q.transferDirection dataBuffer (blockCount * q.blockSize) p
        (transferBlocks r q blockCount dataBuffer p).2 := by
  induction blockCount with
  | zero =>
    intro dataBuffer p _
    rw [Nat.zero_mul]
    exact Moved.nil r q.transferDirection dataBuffer p
  | succ blockCount ih =>
    intro dataBuffer p h
    have hblock := transferSingleBlockPio_moved r { q with dataBuffer } p
    rcases hsingle : transferSingleBlockPio r { q with dataBuffer } p with ⟨status, p'⟩
    rw [hsingle] at hblock
    rw [transferBlocks, hsingle] at h ⊢
    match status, h with
    | some .success, h =>
      have hmoved := (hblock rfl).2
      simp only [show 4 * (q.blockSize / 4) = q.blockSize by omega] at hmoved
      rw [Nat.succ_mul, Nat.add_comm]
      exact hmoved.trans (ih (dataBuffer + q.blockSize) p' h)

/-- However long the blocks are, this is what is seen at the FIFO. -/
theorem transferBlocks_fifo {q : Transfer} (blockCount : Nat) :
    ∀ (dataBuffer : Nat) (p : Pio),
      (transferBlocks r q blockCount dataBuffer p).1 = some .success →
      (transferBlocks r q blockCount dataBuffer p).2.fifo.length =
        p.fifo.length + blockCount * (2 * (q.blockSize / 4)) := by
  induction blockCount with
  | zero =>
    intro dataBuffer p _
    rw [Nat.zero_mul]
    rfl
  | succ blockCount ih =>
    intro dataBuffer p h
    have hblock := transferSingleBlockPio_moved r { q with dataBuffer } p
    rcases hsingle : transferSingleBlockPio r { q with dataBuffer } p with ⟨status, p'⟩
    rw [hsingle] at hblock
    rw [transferBlocks, hsingle] at h ⊢
    match status, h with
    | some .success, h =>
      obtain ⟨hd, hmoved⟩ := hblock rfl
      obtain ⟨hlength, hle⟩ := hmoved.length_fifo hd
      have hrest := ih (dataBuffer + q.blockSize) p' h
      simp only at hlength hle hrest ⊢
      rw [hrest, Nat.succ_mul blockCount]
      omega

theorem startCommand_sameData (cmd : Cmd) (h : cmd.readCmd = false) (p : Pio) :
    SameData p (startCommand r cmd p).2 := by
  rcases neverIn_or_stopsAt cmdDone r.cmd p.cmdAt (pollRetryCount + 1) with hnever | ⟨k, hk, hstop⟩
  · rw [startCommand, waitForLastCommandCompletion_of_never r p hnever]
    exact SameData.refl _
  · rw [startCommand, waitForLastCommandCompletion_of_stopsAt r p hstop (by omega)]
    simp only [h, Bool.false_eq_true, if_false]
    exact SameData.refl _

/-- Stopping the transmission does not touch what has been moved. -/
theorem stopTransmission_sameData (status : Option Status) (p : Pio) :
    SameData p (stopTransmission r status p) := by
  have hstart := startCommand_sameData r stopTransmissionCmd rfl p
  have hsend : SameData p (sendCommandInternal r stopTransmissionCmd false p).2 := by
    rw [sendCommandInternal]
    split
    · next heq =>
      rw [heq] at hstart
      exact hstart
    · next heq =>
      rw [heq] at hstart
      exact hstart
  rw [stopTransmission]
  split
  · next heq =>
    rw [heq] at hsend
    exact hsend
  · next heq =>
    rw [heq] at hsend
    split
    · exact hsend.trans ⟨rfl, rfl, rfl⟩
    · exact hsend

end

/-! ## Registers that let every transfer succeed -/

/-- The FIFO is always ready, and the state machine is in `state`. -/
def readyRegisters (state : BitVec 4) : Registers where
  hsts _ := { dataFlag := true }
  edm _ := state
  cmd _ := ⟨false, false⟩
  data _ := 0

/-- The state that `transferSingleBlockPio` waits for -/
def awaitedState (transferType : TransferType) : BitVec 4 :=
  if transferType = .singleBlock then fsmDatamode else fsmWritestart1

section

variable (state : BitVec 4)

theorem waitForDataFlag_ready (p : Pio) :
    (waitForDataFlag (readyRegisters state) p).1 = .success := by
  have hstop : StopsAt dataDone (readyRegisters state).hsts p.hstsAt 0 :=
    ⟨fun j hj => absurd hj j.not_lt_zero, rfl⟩
  obtain ⟨status, hstatus, heq⟩ := waitForDataFlag_eq (readyRegisters state) p
    (poll_of_stopsAt hstop (Nat.zero_le pollRetryCount))
  rw [heq]
  exact hstatus.1 ⟨rfl, show pollRetryCount ≠ 0 by decide⟩

theorem waitForFsmState_ready (p : Pio) :
    (waitForFsmState (readyRegisters state) state p).1 = .success := by
  have hstop : StopsAt (fsmDone state) (hstsEdm (readyRegisters state) p) 0 0 :=
    ⟨fun j hj => absurd hj j.not_lt_zero, by simp [fsmDone, waitDone, hstsEdm, readyRegisters]⟩
  obtain ⟨status, hstatus, heq⟩ := waitForFsmState_eq (readyRegisters state) p state
    (poll_of_stopsAt hstop (Nat.zero_le pollRetryCount))
  rw [heq]
  exact hstatus.1 ⟨rfl, show pollRetryCount ≠ 0 by decide⟩

theorem fifoLoop_ready (move : Nat → Pio → Pio) (count : Nat) : ∀ (wordPtr : Nat) (p : Pio),
    (fifoLoop (readyRegisters state) move wordPtr count p).1 = .success := by
  induction count with
  | zero => exact fun wordPtr p => rfl
  | succ count ih =>
    intro wordPtr p
    have hwait := waitForDataFlag_ready state p
    rcases h : waitForDataFlag (readyRegisters state) p with ⟨status, p'⟩
    rw [h] at hwait
    obtain rfl : status = .success := hwait
    rw [fifoLoop, h]
    exact ih (wordPtr + 4) (move wordPtr p')

end

theorem transferSingleBlockPio_ready {q : Transfer} (hd : q.transferDirection ≠ .undefined)
    (p : Pio) : (transferSingleBlockPio (readyRegisters (awaitedState q.transferType)) q p).1 =
      some .success := by
  unfold transferSingleBlockPio
  cases h : q.transferDirection with
  | read => exact congrArg some (fifoLoop_ready _ _ _ _ _)
  | write =>
    have hloop := fifoLoop_ready (awaitedState q.transferType) writeWord (q.blockSize / 4)
      q.dataBuffer (p.sdhcAssert (q.blockSize % 4 = 0))
    rcases hwrite : writeToFifo (readyRegisters (awaitedState q.transferType)) q.dataBuffer
      q.blockSize p with ⟨status, p'⟩
    obtain rfl : status = .success := (congrArg Prod.fst hwrite).symm.trans hloop
    exact congrArg some (waitForFsmState_ready (awaitedState q.transferType) p')
  | undefined => exact absurd h hd

theorem transferBlocks_ready {q : Transfer} (hd : q.transferDirection ≠ .undefined)
    (blockCount : Nat) : ∀ (dataBuffer : Nat) (p : Pio),
      (transferBlocks (readyRegisters (awaitedState q.transferType)) q blockCount dataBuffer p).1 =
        some .success := by
  induction blockCount with
  | zero => exact fun dataBuffer p => rfl
  | succ blockCount ih =>
    intro dataBuffer p
    have hsingle := transferSingleBlockPio_ready (q := { q with dataBuffer }) hd p
    rcases h : transferSingleBlockPio (readyRegisters (awaitedState q.transferType))
      { q with dataBuffer } p with ⟨status, p'⟩
    obtain rfl : status = some .success := (congrArg Prod.fst h).symm.trans hsingle
    rw [transferBlocks, h]
    exact ih (dataBuffer + q.blockSize) p'

/-! ## The main result -/

/-- Some driver -/
def idle : Pio := ⟨0, 0, 0, 0, fun _ => 0, [], 0⟩

/-- **A block is moved** when it consists of whole words. -/
theorem singleBlockSound_iff (q : Transfer) :
    SingleBlockSound q ↔ q.transferDirection = .undefined ∨ q.blockSize % 4 = 0 := by
  constructor
  · intro h
    by_cases hd : q.transferDirection = .undefined
    · exact .inl hd
    refine .inr ?_
    have hsuccess := transferSingleBlockPio_ready hd idle
    obtain ⟨hall, -⟩ := (h _ idle hsuccess).length_fifo hd
    obtain ⟨hwords, -⟩ := (transferSingleBlockPio_moved _ q idle hsuccess).2.length_fifo hd
    omega
  · intro h r p hsuccess
    obtain ⟨hd, hmoved⟩ := transferSingleBlockPio_moved r q p hsuccess
    have hsize := h.resolve_left hd
    rwa [show 4 * (q.blockSize / 4) = q.blockSize by omega] at hmoved

/-- **Blocks are moved** when they consist of whole words, or there are none. -/
theorem multiBlockSound_iff (q : Transfer) :
    MultiBlockSound q ↔
      q.blockCount = 0 ∨ q.transferDirection = .undefined ∨ q.blockSize % 4 = 0 := by
  have hframe : ∀ r p, ∃ p₀, SameData p₀ p ∧
      (transferMultiBlockPio r q p).1 = (transferBlocks r q q.blockCount q.dataBuffer p₀).1 ∧
      SameData (transferBlocks r q q.blockCount q.dataBuffer p₀).2
        (transferMultiBlockPio r q p).2 := fun r p =>
    ⟨_, sameData_sdhcAssert p _, rfl, stopTransmission_sameData r _ _⟩
  constructor
  · intro h
    by_cases hd : q.transferDirection = .undefined
    · exact .inr (.inl hd)
    obtain ⟨p₀, hstart, hstatus, hend⟩ :=
      hframe (readyRegisters (awaitedState q.transferType)) idle
    have hsuccess := transferBlocks_ready hd q.blockCount q.dataBuffer p₀
    obtain ⟨hall, hle⟩ := (h _ idle (hstatus.trans hsuccess)).length_fifo hd
    have hwords := transferBlocks_fifo _ q.blockCount q.dataBuffer p₀ hsuccess
    rw [← hend.1, ← hstart.1] at hwords
    by_cases hcount : q.blockCount = 0
    · exact .inl hcount
    · refine .inr (.inr ?_)
      have hcancel : q.blockCount * (4 * (q.blockSize / 4)) = q.blockCount * q.blockSize := by
        rw [← hall, hwords, Nat.add_sub_cancel_left, Nat.mul_left_comm 2, ← Nat.mul_assoc 2 2]
      have := Nat.eq_of_mul_eq_mul_left (Nat.pos_of_ne_zero hcount) hcancel
      omega
  · intro h r p hsuccess
    obtain ⟨p₀, hstart, hstatus, hend⟩ := hframe r p
    rw [hstatus] at hsuccess
    refine Moved.congr ?_ hstart hend
    by_cases hsize : q.blockSize % 4 = 0
    · exact transferBlocks_moved r hsize q.blockCount q.dataBuffer p₀ hsuccess
    have hcount : q.blockCount = 0 := by
      rcases h with hcount | hd | h
      · exact hcount
      · cases hcount : q.blockCount with
        | zero => rfl
        | succ n =>
          rw [hcount, transferBlocks, transferSingleBlockPio] at hsuccess
          simp only [hd] at hsuccess
          cases hsuccess
      · exact absurd h hsize
    rw [hcount, Nat.zero_mul]
    exact Moved.nil r _ _ p₀

/-- **Exactly when polling and transfers are right.** The waits succeed for the condition unless it
comes with the very last retry; the waits themselves assert nothing wrong; a command that is waited
for has ended unless the next value of the command register shows it as new; a transfer moves
everything unless a block has bytes behind its last word. -/
theorem polling_iff (r : Registers) (state : BitVec 4) (cmd : Cmd) (waitCompletion : Bool)
    (p : Pio) (q : Transfer) :
    (DataFlagSound r p ↔ ¬ OnLastRetry Hsts.dataFlag id r.hsts p.hstsAt) ∧
    (FsmStateSound r state p ↔
      ¬ OnLastRetry (fun v : Hsts × BitVec 4 => v.2 = state) Prod.fst (hstsEdm r p) 0) ∧
    ((waitForDataFlag r p).2.failedAssertions = p.failedAssertions ∧
      (waitForFsmState r state p).2.failedAssertions = p.failedAssertions ∧
      (waitForLastCommandCompletion r p).2.failedAssertions = p.failedAssertions ∧
      (drainReadFifo r p).2.failedAssertions = p.failedAssertions) ∧
    ((sendCommandInternal r cmd waitCompletion p).2.failedAssertions = p.failedAssertions ↔
      ¬ StillExecuting r cmd waitCompletion p) ∧
    (SingleBlockSound q ↔ q.transferDirection = .undefined ∨ q.blockSize % 4 = 0) ∧
    (MultiBlockSound q ↔
      q.blockCount = 0 ∨ q.transferDirection = .undefined ∨ q.blockSize % 4 = 0) :=
  ⟨dataFlagSound_iff r p, fsmStateSound_iff r p state,
    ⟨waitForDataFlag_assertions r p, waitForFsmState_assertions r p state,
      waitForLastCommandCompletion_assertions r p, drainReadFifo_assertions r p⟩,
    sendCommandInternal_assertions_iff r p cmd waitCompletion,
    singleBlockSound_iff q, multiBlockSound_iff q⟩

/-! ## Three failures -/

/-- The data flag comes with the value that is read on the last retry. -/
def lateFlag : Registers where
  hsts k := { dataFlag := k = pollRetryCount }
  edm _ := 0
  cmd _ := ⟨false, false⟩
  data _ := 0

/-- A command fails and stays new. -/
def failedAndNew : Registers where
  hsts _ := { cmdTimeOut := true }
  edm _ := 0
  cmd _ := ⟨true, true⟩
  data _ := 0

/-- A block of two bytes is read. -/
def twoBytes : Transfer := ⟨.startTransfer, .read, .singleBlock, 2, 1, 0⟩

/-- **A flag on the last retry is a time-out**, a failed command that is still new fails the
assertion, and a read of two bytes succeeds without moving them. -/
theorem polling_wrong :
    ((waitForDataFlag lateFlag idle).1 = .ioTimeout ∧
      Shows Hsts.dataFlag id (lateFlag.hsts ((waitForDataFlag lateFlag idle).2.hstsAt - 1)) ∧
      ¬ DataFlagSound lateFlag idle) ∧
    (sendCommandInternal failedAndNew ⟨17, true⟩ true idle).2.failedAssertions = 1 ∧
    ¬ SingleBlockSound twoBytes := by
  have hnever : NeverIn dataDone lateFlag.hsts idle.hstsAt pollRetryCount := by
    intro j hj
    have hne : j ≠ pollRetryCount := Nat.ne_of_lt hj
    simp [dataDone, waitDone, lateFlag, idle, Hsts.errors, hne]
  have hlast : Shows Hsts.dataFlag id (lateFlag.hsts (idle.hstsAt + pollRetryCount)) := by
    simp [Shows, lateFlag, idle, Hsts.errors]
  have heq : waitForDataFlag lateFlag idle =
      (.ioTimeout, { idle with hstsAt := idle.hstsAt + pollRetryCount + 1 }) := by
    rw [waitForDataFlag, poll_of_never hnever]
    simp only [ne_eq, show (lateFlag.hsts (idle.hstsAt + pollRetryCount)).errors = {} from hlast.2,
      not_true_eq_false, if_false, if_true]
  refine ⟨⟨?_, ?_, ?_⟩, rfl, ?_⟩
  · rw [heq]
  · rw [heq]
    exact hlast
  · rw [dataFlagSound_iff, not_not]
    exact ⟨hnever, hlast⟩
  · rw [singleBlockSound_iff]
    decide

end RpiDrivers.Rpisdhc.Polling
