import Mathlib.Logic.Function.Basic
import RpiDrivers.Lib.ByteMemory
import RpiDrivers.Lib.Machine
import RpiDrivers.Vchiq.Slots

/-!
# Writing and reading the slots (`slots.c`)

The writer takes space for a message in its current slot, or pads the slot and takes the
next one from the slot queue; it publishes its position after each message. The reader walks
the slots by the same slot queue, up to the published position. A slot it has left is
recycled through the slot queue when no message of it is referenced any more, in any order,
and the recycle thread then makes it available to the writer.

Slot memory is one flat byte memory that starts at slot zero.

- `vchiqAcquireTxSpace`, `vchiqQueueMessageAsync`: the writer.
- `vchiqProcessRxMessage`, `vchiqProcessRxSlot`: one round and the loop of the reader.
- `streamMachine`: all interleavings of the two with recycling.
-/

namespace RpiDrivers.Vchiq

open RpiDrivers.Lib

/-! ## The shared memory -/

/-- What the two sides share: the slots, and the channel state of the sending side. -/
structure SharedState where
  memory : ByteMemory
  slotQueue : Nat → Nat
  slotQueueRecycle : Nat
  txPos : Nat

/-- `VCHIQ_GET_HEADER_BY_GLOBAL_INDEX`: the address of a slot. -/
def vchiqGetHeaderByGlobalIndex (index : Nat) : Nat := index * vchiqSlotSize

/-- Write the `MsgId` and the `Size` of a header. -/
def writeHeader (m : ByteMemory) (header msgId size : Nat) : ByteMemory :=
  store (store m header (encode32 msgId)) (header + 4) (encode32 size)

/-- A message to send. Its id is not that of padding. -/
structure Message where
  msgId : Nat
  payload : List UInt8
  msgId_lt : msgId < ulongSize
  notPadding : vchiqMsgType msgId ≠ vchiqMsgPadding
  size_le : payload.length ≤ vchiqMaxMsgSize

/-- What the reader sees of a message. -/
structure Packet where
  msgId : Nat
  size : Nat
  payload : List UInt8

def Message.packet (m : Message) : Packet := ⟨m.msgId, m.payload.length, m.payload⟩

/-! ## The writer -/

/-- The sending side of `DEVICE_CONTEXT`. -/
structure TxState where
  currentTxPos : Nat
  /-- `SlaveCurrentSlot`, an address -/
  slaveCurrentSlot : Nat
  /-- the count of the semaphore `AvailableTxSlot` -/
  availableTxSlot : Nat
  recycleTxSlotIndex : Nat

/-- The failures of `VchiqAcquireTxSpace`. -/
inductive AcquireError
  /-- `STATUS_INSUFFICIENT_RESOURCES`: no slot became available in time -/
  | insufficientResources
  /-- `STATUS_UNSUCCESSFUL`: the file is being closed -/
  | unsuccessful
  deriving DecidableEq

/-- `VCHIQ_GET_CURRENT_TX_HEADER` -/
def vchiqGetCurrentTxHeader (tx : TxState) : Nat := tx.slaveCurrentSlot + slotOffset tx.currentTxPos

/-- `VCHIQ_GET_NEXT_TX_SLOT_INDEX` -/
def vchiqGetNextTxSlotIndex (sh : SharedState) (tx : TxState) : Nat :=
  sh.slotQueue (slotQueueIndex tx.currentTxPos)

/-- Fill up the current slot with padding when the message does not fit. -/
def padTxSlot (sh : SharedState) (tx : TxState) (actualBufferSize : Nat) : SharedState × TxState :=
  let availSlotSpace := vchiqSlotSize - slotOffset tx.currentTxPos
  if availSlotSpace < actualBufferSize then
    ({ sh with
      memory := writeHeader sh.memory (vchiqGetCurrentTxHeader tx) vchiqMsgIdPadding
        (availSlotSpace - vchiqHeaderSize) },
     { tx with currentTxPos := addPos tx.currentTxPos availSlotSpace })
  else (sh, tx)

/-- Take the next slot when the previous one is filled up. The wait for the semaphore fails when
no slot is available, `stopped` when the file's stop event ends it. -/
def nextTxSlot (sh : SharedState) (tx : TxState) (stopped : Bool) : Except AcquireError TxState :=
  if slotOffset tx.currentTxPos = 0 then
    if tx.availableTxSlot = 0 then
      .error (if stopped then .unsuccessful else .insufficientResources)
    else .ok { tx with
      availableTxSlot := tx.availableTxSlot - 1
      slaveCurrentSlot := vchiqGetHeaderByGlobalIndex (vchiqGetNextTxSlotIndex sh tx) }
  else .ok tx

/-- `VchiqAcquireTxSpace`: the address of the header. -/
def vchiqAcquireTxSpace (sh : SharedState) (tx : TxState) (requestSize : Nat) (stopped : Bool) :
    SharedState × TxState × Except AcquireError Nat :=
  let actualBufferSize := vchiqGetSlotAlignSize requestSize
  let (sh, tx) := padTxSlot sh tx actualBufferSize
  match nextTxSlot sh tx stopped with
  | .error e => (sh, tx, .error e)
  | .ok tx =>
    (sh, { tx with currentTxPos := addPos tx.currentTxPos actualBufferSize },
      .ok (vchiqGetCurrentTxHeader tx))

/-- `VchiqQueueMessageAsync`, with its publication of the position. -/
def vchiqQueueMessageAsync (sh : SharedState) (tx : TxState) (m : Message) (stopped : Bool) :
    SharedState × TxState × Except AcquireError Unit :=
  match vchiqAcquireTxSpace sh tx (vchiqHeaderSize + m.payload.length) stopped with
  | (sh, tx, .error e) => (sh, tx, .error e)
  | (sh, tx, .ok header) =>
    ({ sh with
      memory := store (writeHeader sh.memory header m.msgId m.payload.length)
        (header + vchiqHeaderSize) m.payload
      txPos := tx.currentTxPos }, tx, .ok ())

/-- One round of the loop of `VchiqProcessRecycleTxSlot`: a recycled slot becomes available. -/
def vchiqRecycleTxSlot (tx : TxState) : TxState :=
  { tx with
    availableTxSlot := tx.availableTxSlot + 1
    recycleTxSlotIndex := addPos tx.recycleTxSlotIndex 1 }

/-! ## The reader -/

/-- The receiving side, with the messages it has processed and the slots it has left but not yet
recycled. -/
structure RxState where
  currentRxPos : Nat
  /-- `MasterCurrentSlotIndex`, when `MasterCurrentSlot` is not `NULL` -/
  masterCurrentSlot : Option Nat
  received : List Packet
  held : List Nat

/-- One round of the loop of `VchiqProcessRxSlot`: process the message at the current position;
padding is skipped. -/
def vchiqProcessRxMessage (sh : SharedState) (rx : RxState) : RxState :=
  let slot := rx.masterCurrentSlot.getD (sh.slotQueue (slotQueueIndex rx.currentRxPos))
  let header := vchiqGetHeaderByGlobalIndex slot + slotOffset rx.currentRxPos
  let msgId := load32 sh.memory header
  let size := load32 sh.memory (header + 4)
  let received :=
    if vchiqMsgType msgId = vchiqMsgPadding then rx.received
    else rx.received ++ [⟨msgId, size, load sh.memory (header + vchiqHeaderSize) size⟩]
  let pos := addPos rx.currentRxPos (vchiqGetSlotAlignSize ((size + vchiqHeaderSize) % ulongSize))
  -- the slot is given up once its last message is processed
  if slotOffset pos = 0 then
    { currentRxPos := pos
      masterCurrentSlot := none
      received := received
      held := rx.held ++ [slot] }
  else
    { rx with
      currentRxPos := pos
      masterCurrentSlot := some slot
      received := received }

/-- The loop condition of `VchiqProcessRxSlot`. -/
def rxPending (sh : SharedState) (rx : RxState) : Bool := rx.currentRxPos < sh.txPos

/-- `VchiqProcessRxSlot`, at most `fuel` rounds; `none` when they do not suffice. -/
def vchiqProcessRxSlot (sh : SharedState) : Nat → RxState → Option RxState
  | 0, rx => if rxPending sh rx then none else some rx
  | fuel + 1, rx =>
    if rxPending sh rx then vchiqProcessRxSlot sh fuel (vchiqProcessRxMessage sh rx) else some rx

/-- The end of `VchiqRecycleSlot`: a slot that is not in use any more goes to the slot queue. -/
def requeueSlot (sh : SharedState) (slot : Nat) : SharedState :=
  { sh with
    slotQueue := Function.update sh.slotQueue (sh.slotQueueRecycle &&& vchiqSlotQueueMask) slot
    slotQueueRecycle := addPos sh.slotQueueRecycle 1 }

/-! ## The stream -/

/-- A stream in progress; `toWrite` are the messages yet to be written. -/
structure StreamState where
  shared : SharedState
  tx : TxState
  rx : RxState
  toWrite : List Message

/-- What happens: the next message is written (a write that fails is tried again), the reader
does a round of its loop, a slot it has left is recycled, the recycle thread does a round. -/
inductive StreamAction
  | write (stopped : Bool)
  | read
  | recycle (slot : Nat)
  | replenish

/-- Where a stream starts: a position, and the slots in the slot queue from there on. -/
structure StreamStart where
  pos : Nat
  pos_lt : pos < ulongSize
  aligned : 8 ∣ pos
  memory : ByteMemory
  slotQueue : Nat → Nat
  /-- the number of slots of the sending side -/
  slotCount : Nat
  slotCount_pos : 0 < slotCount
  slotCount_le : slotCount ≤ vchiqMaxSlotsPerSide
  distinct : ((List.range' (pos / vchiqSlotSize) slotCount).map fun i =>
    slotQueue (i % vchiqMaxSlotsPerSide)).Nodup

/-- The slots of the sending side. -/
def StreamStart.slots (start : StreamStart) : List Nat :=
  (List.range' (start.pos / vchiqSlotSize) start.slotCount).map fun i =>
    start.slotQueue (i % vchiqMaxSlotsPerSide)

/-- Both sides at the starting position; a slot that is begun there is taken already. -/
def StreamStart.state (start : StreamStart) (messages : List Message) : StreamState :=
  let slot := start.slotQueue (slotQueueIndex start.pos)
  let begun := slotOffset start.pos ≠ 0
  let recycle := addPos (start.pos / vchiqSlotSize) start.slotCount
  { shared := ⟨start.memory, start.slotQueue, recycle, start.pos⟩
    tx := {
      currentTxPos := start.pos
      slaveCurrentSlot := vchiqGetHeaderByGlobalIndex slot
      availableTxSlot := if begun then start.slotCount - 1 else start.slotCount
      recycleTxSlotIndex := recycle }
    rx := {
      currentRxPos := start.pos
      masterCurrentSlot := if begun then some slot else none
      received := []
      held := [] }
    toWrite := messages }

/-- One action. -/
def streamStep (s : StreamState) : StreamAction → Option StreamState
  | .write stopped =>
    match s.toWrite with
    | [] => none
    | m :: rest =>
      match vchiqQueueMessageAsync s.shared s.tx m stopped with
      | (sh, tx, .ok ()) => some { s with shared := sh, tx := tx, toWrite := rest }
      | (sh, tx, .error _) => some { s with shared := sh, tx := tx }
  | .read =>
    if rxPending s.shared s.rx then some { s with rx := vchiqProcessRxMessage s.shared s.rx }
    else none
  | .recycle slot =>
    if slot ∈ s.rx.held then
      some { s with
        shared := requeueSlot s.shared slot
        rx := { s.rx with held := s.rx.held.erase slot } }
    else none
  | .replenish =>
    if s.tx.recycleTxSlotIndex ≠ s.shared.slotQueueRecycle then
      some { s with tx := vchiqRecycleTxSlot s.tx }
    else none

/-- All interleavings. -/
def streamMachine (start : StreamStart) (messages : List Message) :
    Machine StreamState StreamAction where
  init s := s = start.state messages
  step := streamStep

/-! ## Where the stream ends -/

/-- Where a message of the given size ends that is written at a position, not reduced modulo
`2 ^ 32`: in the same slot if it fits, else in the next one. -/
def messageEnd (pos size : Nat) : Nat :=
  let length := (size + vchiqHeaderSize + 7) / 8 * 8
  if pos % vchiqSlotSize + length ≤ vchiqSlotSize then pos + length
  else (pos / vchiqSlotSize + 1) * vchiqSlotSize + length

/-- Where a sequence of messages ends. -/
def streamEnd (pos : Nat) (messages : List Message) : Nat :=
  messages.foldl (fun pos m => messageEnd pos m.payload.length) pos

end RpiDrivers.Vchiq
