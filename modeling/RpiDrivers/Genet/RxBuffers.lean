import RpiDrivers.Genet.TxRing
import RpiDrivers.Lib.ArrayStack

/-!
# The receive buffers of GENET (`bcmgenet/driver.c`)

The receive buffers that nobody has are on a stack, `freeBuffers`. `GenetRxQueueStart` pops one for
each descriptor. `GenetRxQueueAdvance` hands the buffer of a filled descriptor to the OS and pops
another one for the descriptor; after a cancel it hands over buffers from the stack.
`GenetRxQueueStop` pushes the buffers of the descriptors, and the OS, from its own threads, calls
`GenetReturnRxBuffer` to push those that it is done with. No lock is held at the stack. Each access
to `curFreeBuffer` and to an entry of the stack is one step.

- `rxMachine`: the calls of the queue, those of the OS, and the controller, interleaved.
- `RxBuffersSound`: each buffer is on the stack, with a descriptor or with the OS.
- `rxBuffersSound_of_undisturbed`: **a run is sound in which no access reads the top of the stack
  while another one is between its read and its entry**.
- `buffer_in_two_places`: the OS returns a buffer while a descriptor gets one.
-/

namespace RpiDrivers.Genet

open RpiDrivers.Lib

/-- `numBuffers` of the queue -/
def numBuffers (r : Rings) : Nat := numDescs * 2 + r.fragments

/-- `GENET_RX_BUFFER_SIZE` -/
def genetRxBufferSize : Nat := 2048

structure GenetRxBuffer where
  virtualAddress : Nat
  logicalAddress : Nat

/-- A pointer to one of the `buffers` of the queue, by its index; `none` is `NULL`. -/
abbrev GenetRxBufferPtr := Option Nat

/-- A fragment of the receive ring, with its extensions. The length is that before it is cut to the
width of its field. -/
structure RxFragment where
  capacity : Nat
  validLength : Int
  offset : Nat
  virtualAddress : Nat
  /-- `Handle` of the return context -/
  returnContext : GenetRxBufferPtr

/-- What is wanted of the stack. -/
inductive AccessKind
  /-- `GenetGetRxBuffer` -/
  | get
  /-- `GenetReturnRxBuffer`, called by the OS -/
  | ret (buffer : Nat)
  /-- `GenetReturnRxBuffer`, called by `GenetRxQueueStop` -/
  | stopRet (buffer : Nat)
  deriving DecidableEq

/-- Where an access to the stack stands. -/
inductive AccessStep
  /-- at its assertion -/
  | check
  /-- `curFreeBuffer` is to be read -/
  | load
  /-- `curFreeBuffer` is to be stored; the entry is that at `i` -/
  | storeIndex (i : Nat)
  /-- the entry at `i` is to be read or stored -/
  | entry (i : Nat)
  deriving DecidableEq

structure Access where
  kind : AccessKind
  step : AccessStep
  deriving DecidableEq

/-- The variables of `GenetRxQueueAdvance`. -/
structure RxAdvance where
  fragmentIndex : Nat
  packetIndex : Nat
  descsRemaining : Bool
  postedDescs : Bool
  fragmentDesc : Nat
  deriving DecidableEq

/-- Where the calls of the queue stand. -/
inductive RxCall
  | idle
  /-- at the head of the loop of `GenetRxQueueStart` -/
  | start (curDesc : Nat)
  /-- it gets a buffer for a descriptor -/
  | startGet (curDesc : Nat)
  /-- at the head of the loop of `GenetRxQueueAdvance` -/
  | advance (l : RxAdvance)
  /-- it gets a buffer -/
  | advanceGet (l : RxAdvance)
  /-- the begin indices are stored, the index of the controller is to be written -/
  | publish (postedDescs : Bool)
  /-- at the head of the loop of `GenetRxQueueStop` -/
  | stop (curDesc : Nat)
  /-- it returns the buffer of a descriptor -/
  | stopReturn (curDesc : Nat)
  /-- the descriptor is to be cleared -/
  | clear (curDesc : Nat)
  deriving DecidableEq

/-- `GenetRxQueue`, the rings, the controller and the OS. -/
structure RxQueue where
  packetRing : NetRing
  packets : Nat → NetPacket
  fragmentRing : NetRing
  fragments : Nat → RxFragment
  freeBuffers : Nat → GenetRxBufferPtr
  curFreeBuffer : Nat
  descBuffers : Nat → GenetRxBufferPtr
  prodIndex : Nat
  consIndex : Nat
  canceled : Bool
  bds : Nat → DmaDesc
  /-- `TDMA_Prod_Index`: the driver's index -/
  prodReg : Nat
  /-- `TDMA_Cons_Index`: the controller's index -/
  consReg : Nat
  /-- the receiver and its DMA are enabled -/
  enabled : Bool
  call : RxCall
  accesses : List Access
  /-- the queue is started -/
  started : Bool
  /-- no assertion has failed -/
  asserted : Bool
  /-- the handles of the fragments that `GenetRxQueueAdvance` has gone over -/
  handed : List GenetRxBufferPtr
  /-- how many of them are before the begin index -/
  published : Nat
  /-- how many of them the OS has taken -/
  taken : Nat
  /-- the handles that the OS has taken and not returned -/
  held : List GenetRxBufferPtr
  /-- how many fragments the OS has added -/
  fragmentsAdded : Nat
  /-- how many packets the OS has added -/
  packetsAdded : Nat
  /-- how many descriptors the controller has filled -/
  received : Nat
  /-- how many of them the driver knows of -/
  seen : Nat
  /-- how many of them it has gone over -/
  consumed : Nat
  /-- how many of them the controller has been told to fill again -/
  refilled : Nat

namespace RxQueue

variable (r : Rings) (buffers : Nat → GenetRxBuffer) (s : RxQueue)

/-- An access goes on. -/
def goOn (a : Access) (step : AccessStep) : RxQueue :=
  { s with accesses := Lib.advance s.accesses a [⟨a.kind, step⟩] }

/-- `GenetFillRxDesc` -/
def genetFillRxDesc (desc : Nat) (rxBuffer : GenetRxBufferPtr) : RxQueue :=
  let address := rxBuffer.elim 0 fun b => (buffers b).logicalAddress
  { s with
    asserted := s.asserted && decide (desc < numDescs)
    bds := Function.update s.bds desc { s.bds desc with
      addressLo := address % 0x100000000
      addressHi := address / 0x100000000 }
    descBuffers := Function.update s.descBuffers desc rxBuffer }

/-- The handle and the address of a fragment are written. -/
def setFragment (fragmentIndex : Nat) (rxBuffer : GenetRxBufferPtr) : RxQueue :=
  { s with
    fragments := Function.update s.fragments fragmentIndex { s.fragments fragmentIndex with
      returnContext := rxBuffer
      virtualAddress := rxBuffer.elim 0 fun b => (buffers b).virtualAddress } }

/-- The loop of `GenetRxQueueAdvance` goes on to the next fragment and the next packet. -/
def nextFragment (l : RxAdvance) : RxQueue :=
  { s with
    call := .advance { l with
      fragmentIndex := netRingIncrementIndex r.fragments l.fragmentIndex
      packetIndex := netRingIncrementIndex r.packets l.packetIndex }
    handed := s.handed ++ [(s.fragments l.fragmentIndex).returnContext] }

/-- `GenetGetRxBuffer` has returned. -/
def gotRxBuffer (rxBuffer : GenetRxBufferPtr) : RxQueue :=
  match s.call with
  | .startGet curDesc =>
    { s.genetFillRxDesc buffers curDesc rxBuffer with call := .start (curDesc + 1) }
  | .advanceGet l =>
    if s.canceled then (s.setFragment buffers l.fragmentIndex rxBuffer).nextFragment r l
    else (s.genetFillRxDesc buffers l.fragmentDesc rxBuffer).nextFragment r l
  | _ => s

/-- `GenetReturnRxBuffer` has returned to `GenetRxQueueStop`. -/
def returnedRxBuffer : RxQueue :=
  match s.call with
  | .stopReturn curDesc => { s with call := .clear curDesc }
  | _ => s

/-- The next step of `GenetGetRxBuffer`. -/
def genetGetRxBuffer (a : Access) : RxQueue :=
  match a.step with
  | .check => { s.goOn a .load with asserted := s.asserted && decide (0 < s.curFreeBuffer) }
  | .load => s.goOn a (.storeIndex ((s.curFreeBuffer + 0xffffffff) % 0x100000000))
  | .storeIndex i => { s.goOn a (.entry i) with curFreeBuffer := i }
  | .entry i =>
    { s with accesses := Lib.advance s.accesses a [] }.gotRxBuffer r buffers (s.freeBuffers i)

/-- The next step of `GenetReturnRxBuffer`. -/
def genetReturnRxBuffer (a : Access) (rxBuffer : Nat) : RxQueue :=
  match a.step with
  | .check =>
    { s.goOn a .load with asserted := s.asserted && decide (s.curFreeBuffer < numBuffers r) }
  | .load => s.goOn a (.storeIndex s.curFreeBuffer)
  | .storeIndex i => { s.goOn a (.entry i) with curFreeBuffer := (i + 1) % 0x100000000 }
  | .entry i =>
    let s := { s with
      accesses := Lib.advance s.accesses a []
      freeBuffers := Function.update s.freeBuffers i (some rxBuffer) }
    if a.kind = .ret rxBuffer then s else s.returnedRxBuffer

/-- An access takes its next step. -/
def runAccess (a : Access) : RxQueue :=
  match a.kind with
  | .get => s.genetGetRxBuffer r buffers a
  | .ret buffer | .stopRet buffer => s.genetReturnRxBuffer r a buffer

/-- A call of `GenetGetRxBuffer` begins. -/
def beginGet (call : RxCall) : RxQueue :=
  { s with call := call, accesses := ⟨.get, .check⟩ :: s.accesses }

/-- `GenetRxQueueStart`, up to its loop. -/
def genetRxQueueStart : RxQueue :=
  { s with
    prodIndex := 0
    consIndex := 0
    canceled := false
    prodReg := 0
    consReg := 0
    asserted := s.asserted && decide (numDescs ≤ s.curFreeBuffer)
    call := .start 0
    received := 0
    seen := 0
    consumed := 0
    refilled := 0 }

/-- One turn of the loop of `GenetRxQueueStart`, and what comes after the loop. -/
def startDesc (curDesc : Nat) : RxQueue :=
  if curDesc < numDescs then s.beginGet (.startGet curDesc)
  else { s with enabled := true, started := true, call := .idle }

/-- `GenetRxQueueAdvance` is called. -/
def genetRxQueueAdvance : RxQueue :=
  let l := fun descsRemaining : Bool =>
    RxAdvance.mk s.fragmentRing.beginIndex s.packetRing.beginIndex descsRemaining false 0
  if s.canceled then { s with call := .advance (l true) }
  else
    { s with
      prodIndex := s.consReg
      seen := s.received
      call := .advance (l (s.consIndex != s.consReg)) }

/-- `BG_DMA_BG_STATUS_EOP`, `BG_DMA_BG_STATUS_SOP` and no one of `BG_DMA_BG_STATUS_RX_ERRORS` -/
def wholePacket (lengthStatus : Nat) : Bool :=
  lengthStatus.testBit 14 && lengthStatus.testBit 13 && lengthStatus % 32 == 0

/-- The first writes of a turn of the loop of `GenetRxQueueAdvance`. -/
def preparePacket (l : RxAdvance) : RxQueue :=
  { s with
    fragments := Function.update s.fragments l.fragmentIndex
      { s.fragments l.fragmentIndex with capacity := genetRxBufferSize }
    packets := Function.update s.packets l.packetIndex
      { s.packets l.packetIndex with fragmentIndex := l.fragmentIndex, fragmentCount := 1 } }

def setLength (l : RxAdvance) (validLength : Int) (offset : Nat) : RxQueue :=
  { s with
    fragments := Function.update s.fragments l.fragmentIndex
      { s.fragments l.fragmentIndex with validLength := validLength, offset := offset } }

/-- The loop goes over a descriptor that the controller has filled. -/
def consumeDesc (l : RxAdvance) : RxQueue :=
  let fragmentDesc := s.consIndex % numDescs
  let consIndex := (s.consIndex + 1) % 0x10000
  let l := { l with
    postedDescs := true
    fragmentDesc := fragmentDesc
    descsRemaining := consIndex != s.prodIndex }
  let lengthStatus := (s.bds fragmentDesc).lengthStatus
  let s := { s with consIndex := consIndex, consumed := s.consumed + 1 }
  if wholePacket lengthStatus then
    ((s.setLength l (lengthStatus / 0x10000 - 2) 2).setFragment buffers l.fragmentIndex
      (s.descBuffers fragmentDesc)).beginGet (.advanceGet l)
  else { s with call := .advance l }

/-- One turn of the loop of `GenetRxQueueAdvance`, and what comes after the loop. -/
def advanceFragment (l : RxAdvance) : RxQueue :=
  if l.descsRemaining = true ∧ l.fragmentIndex ≠ s.fragmentRing.endIndex ∧
      l.packetIndex ≠ s.packetRing.endIndex ∧ s.curFreeBuffer ≠ 0 then
    if s.canceled then ((s.preparePacket l).setLength l 0 0).beginGet (.advanceGet l)
    else (s.preparePacket l).consumeDesc buffers l
  else
    { s with
      fragmentRing := { s.fragmentRing with beginIndex := l.fragmentIndex }
      packetRing := { s.packetRing with beginIndex := l.packetIndex }
      published := s.handed.length
      call := .publish l.postedDescs }

def publish (postedDescs : Bool) : RxQueue :=
  if postedDescs then
    { s with prodReg := s.consIndex, refilled := s.consumed, call := .idle }
  else { s with call := .idle }

/-- `GenetRxQueueCancel` -/
def genetRxQueueCancel : RxQueue := { s with enabled := false, canceled := true }

/-- One turn of the loop of `GenetRxQueueStop`, and what comes after the loop. -/
def stopDesc (curDesc : Nat) : RxQueue :=
  if curDesc < numDescs then
    match s.descBuffers curDesc with
    | none => { s with call := .stop (curDesc + 1) }
    | some b =>
      { s with
        call := .stopReturn curDesc
        accesses := ⟨.stopRet b, .check⟩ :: s.accesses }
  else { s with call := .idle }

def clearDesc (curDesc : Nat) : RxQueue :=
  { s with
    descBuffers := Function.update s.descBuffers curDesc none
    call := .stop (curDesc + 1) }

/-- The call of the queue goes on. -/
def turn : RxQueue :=
  match s.call with
  | .start curDesc => s.startDesc curDesc
  | .advance l => s.advanceFragment buffers l
  | .publish postedDescs => s.publish postedDescs
  | .stop curDesc => s.stopDesc curDesc
  | .clear curDesc => s.clearDesc curDesc
  | .idle | .startGet _ | .advanceGet _ | .stopReturn _ => s

/-- The controller fills its next descriptor, and writes its status. -/
def receive (lengthStatus : Nat) : RxQueue :=
  let desc := s.consReg % numDescs
  { s with
    bds := Function.update s.bds desc { s.bds desc with lengthStatus := lengthStatus }
    consReg := (s.consReg + 1) % 0x10000
    received := s.received + 1 }

/-- The OS adds a fragment to the ring. -/
def addFragment : RxQueue :=
  { s with
    fragmentRing := { s.fragmentRing with
      endIndex := netRingIncrementIndex r.fragments s.fragmentRing.endIndex }
    fragmentsAdded := s.fragmentsAdded + 1 }

/-- The OS adds a packet to the ring. -/
def addPacket : RxQueue :=
  { s with
    packetRing := { s.packetRing with
      endIndex := netRingIncrementIndex r.packets s.packetRing.endIndex }
    packetsAdded := s.packetsAdded + 1 }

/-- The OS takes the next packet that is before the begin index. -/
def takePacket : RxQueue :=
  let packet := s.packets (s.taken % r.packets)
  { s with
    held := (s.fragments packet.fragmentIndex).returnContext :: s.held
    taken := s.taken + 1 }

/-- The OS calls `GenetReturnRxBuffer`, which returns at once for a `NULL`. -/
def returnRxBuffer (handle : GenetRxBufferPtr) : RxQueue :=
  match handle with
  | none => s
  | some b =>
    { s with
      held := s.held.erase (some b)
      accesses := ⟨.ret b, .check⟩ :: s.accesses }

/-- `GenetCreateRxQueue`, with new rings. What it does not write is arbitrary. -/
def genetCreateRxQueue (packets : Nat → NetPacket) (fragments : Nat → RxFragment)
    (descBuffers : Nat → GenetRxBufferPtr) (bds : Nat → DmaDesc) : RxQueue where
  packetRing := ⟨0, 0, 0⟩
  packets := packets
  fragmentRing := ⟨0, 0, 0⟩
  fragments := fragments
  freeBuffers := some
  curFreeBuffer := numBuffers r
  descBuffers := descBuffers
  prodIndex := 0
  consIndex := 0
  canceled := false
  bds := bds
  prodReg := 0
  consReg := 0
  enabled := false
  call := .idle
  accesses := []
  started := false
  asserted := true
  handed := []
  published := 0
  taken := 0
  held := []
  fragmentsAdded := 0
  packetsAdded := 0
  received := 0
  seen := 0
  consumed := 0
  refilled := 0

end RxQueue

inductive RxAction
  | start
  | advance
  | cancel
  | stop
  /-- the call of the queue goes on -/
  | turn
  | access (a : Access)
  | returnRxBuffer (handle : GenetRxBufferPtr)
  | takePacket
  | addFragment
  | addPacket
  | receive (lengthStatus : Nat)

namespace RxQueue

/-- When a step can happen. A queue that is not started is started, one that is started is stopped,
and in between it is advanced; these calls do not overlap. The OS returns what it has, or `NULL`,
and keeps one place of each ring free. The controller fills what it has been given. -/
def Enabled (r : Rings) (s : RxQueue) : RxAction → Prop
  | .start => s.call = .idle ∧ s.started = false
  | .advance | .stop => s.call = .idle ∧ s.started = true
  | .cancel => s.call = .idle
  | .turn => s.call ≠ .idle
  | .access a => a ∈ s.accesses
  | .returnRxBuffer handle => handle = none ∨ handle ∈ s.held
  | .takePacket => s.packetRing.beginIndex ≠ s.taken % r.packets
  | .addFragment =>
    netRingIncrementIndex r.fragments s.fragmentRing.endIndex ≠ s.taken % r.fragments
  | .addPacket => netRingIncrementIndex r.packets s.packetRing.endIndex ≠ s.taken % r.packets
  | .receive _ => s.enabled = true ∧ (s.consReg + 0x10000 - s.prodReg) % 0x10000 < numDescs

instance (r : Rings) : ∀ (s : RxQueue) (a : RxAction), Decidable (s.Enabled r a)
  | _, .start | _, .advance | _, .stop | _, .receive _ => inferInstanceAs (Decidable (_ ∧ _))
  | _, .cancel => inferInstanceAs (Decidable (_ = _))
  | _, .turn | _, .takePacket | _, .addFragment | _, .addPacket =>
    inferInstanceAs (Decidable (_ ≠ _))
  | _, .access _ => inferInstanceAs (Decidable (_ ∈ _))
  | _, .returnRxBuffer _ => inferInstanceAs (Decidable (_ ∨ _))

def effect (r : Rings) (buffers : Nat → GenetRxBuffer) (s : RxQueue) : RxAction → RxQueue
  | .start => s.genetRxQueueStart
  | .advance => s.genetRxQueueAdvance
  | .cancel => s.genetRxQueueCancel
  | .stop => { s with started := false, call := .stop 0 }
  | .turn => s.turn buffers
  | .access a => s.runAccess r buffers a
  | .returnRxBuffer handle => s.returnRxBuffer handle
  | .takePacket => s.takePacket r
  | .addFragment => s.addFragment r
  | .addPacket => s.addPacket r
  | .receive lengthStatus => s.receive lengthStatus

end RxQueue

/-- All runs on rings of the sizes `r`, with the given memory of the buffers. -/
def rxMachine (r : Rings) (buffers : Nat → GenetRxBuffer) : Machine RxQueue RxAction :=
  Machine.guarded
    (fun s => ∃ packets fragments descBuffers bds,
      s = RxQueue.genetCreateRxQueue r packets fragments descBuffers bds)
    (RxQueue.Enabled r) (RxQueue.effect r buffers)

/-! ## The property -/

/-- The window of an access at the stack. -/
def Access.window (a : Access) : Option Window :=
  match a.kind, a.step with
  | .get, .storeIndex i => some (.popping i)
  | .get, .entry i => some (.popped i)
  | .ret _, .storeIndex i | .stopRet _, .storeIndex i => some (.pushing i)
  | .ret _, .entry i | .stopRet _, .entry i => some (.pushed i)
  | _, .check | _, .load => none

/-- The buffer that the OS is returning. -/
def Access.returning (a : Access) : Option GenetRxBufferPtr :=
  match a.kind with
  | .ret buffer => some (some buffer)
  | .get | .stopRet _ => none

/-- The descriptors that have a buffer, while a call of the queue is where it is: those from the
first number to before the second one. -/
def attachedRange (started : Bool) : RxCall → Nat × Nat
  | .idle => (0, if started then numDescs else 0)
  | .start curDesc | .startGet curDesc => (0, curDesc)
  | .advance _ | .advanceGet _ | .publish _ => (0, numDescs)
  | .stop curDesc | .stopReturn curDesc => (curDesc, numDescs)
  | .clear curDesc => (curDesc + 1, numDescs)

/-- The buffers of the descriptors in a range. -/
def attachedOf (descBuffers : Nat → GenetRxBufferPtr) (range : Nat × Nat) :
    List GenetRxBufferPtr :=
  (List.range' range.1 (range.2 - range.1)).map descBuffers

/-- The two words of a descriptor are the address of a buffer. -/
def HasAddress (buffers : Nat → GenetRxBuffer) (bd : DmaDesc) (rxBuffer : GenetRxBufferPtr) :
    Prop :=
  let address := rxBuffer.elim 0 fun b => (buffers b).logicalAddress
  bd.addressLo = address % 0x100000000 ∧ bd.addressHi = address / 0x100000000

namespace RxQueue

/-- The accesses between their read of `curFreeBuffer` and their entry. -/
def windows (s : RxQueue) : List Window := s.accesses.filterMap Access.window

/-- The free list: the entries of the stack. -/
def freeList (s : RxQueue) : List GenetRxBufferPtr :=
  stackEntries s.freeBuffers (entryCount s.curFreeBuffer s.windows)

/-- The buffers that are attached to descriptors. -/
def attached (s : RxQueue) : List GenetRxBufferPtr :=
  attachedOf s.descBuffers (attachedRange s.started s.call)

/-- The buffers that the OS has: those in the ring, those that it has taken, and those that it is
returning. -/
def withOs (s : RxQueue) : List GenetRxBufferPtr :=
  s.handed.drop s.taken ++ s.held ++ s.accesses.filterMap Access.returning

/-- The controller may fill a descriptor. -/
def MayFill (s : RxQueue) (desc : Nat) : Prop :=
  s.enabled = true ∧ ∃ k, (s.consReg + 0x10000 - s.prodReg) % 0x10000 + k < numDescs ∧
    (s.consReg + k) % numDescs = desc

end RxQueue

/-- All buffers of the queue. -/
def allBuffers (r : Rings) : List GenetRxBufferPtr := (List.range (numBuffers r)).map some

/-- Each buffer is in one of three places, and there once. While the queue is started, each
descriptor has one buffer, whose address it holds, and no other descriptor has it; a descriptor that
gets another buffer is not one that the controller may fill. No assertion fails. -/
structure RxBuffersSound (r : Rings) (buffers : Nat → GenetRxBuffer) (s : RxQueue) : Prop where
  onePlace : (s.freeList ++ s.attached ++ s.withOs).Perm (allBuffers r)
  filled : s.started = true → ∀ desc < numDescs, ∃ b < numBuffers r,
    s.descBuffers desc = some b ∧ HasAddress buffers (s.bds desc) (some b) ∧
      ∀ desc' < numDescs, s.descBuffers desc' = some b → desc' = desc
  notFilling : ∀ l, s.call = .advanceGet l → s.canceled = false → ¬ s.MayFill l.fragmentDesc
  asserted : s.asserted = true

/-- No access reads the top of the stack while another one is between its read and its entry. -/
def Undisturbed (s : RxQueue) : RxAction → Prop
  | .access a => a.step = .load → s.windows = []
  | _ => True

instance : ∀ (s : RxQueue) (a : RxAction), Decidable (Undisturbed s a)
  | _, .access _ => inferInstanceAs (Decidable (_ → _))
  | _, .start | _, .advance | _, .cancel | _, .stop | _, .turn | _, .returnRxBuffer _
  | _, .takePacket | _, .addFragment | _, .addPacket | _, .receive _ =>
    inferInstanceAs (Decidable True)

/-! ## Where a buffer is -/

theorem numBuffers_lt (r : Rings) : numBuffers r + 1 < 0x100000000 := by
  have hle := r.fragments_le
  rw [numBuffers, numDescs]
  omega

@[simp] theorem length_allBuffers (r : Rings) : (allBuffers r).length = numBuffers r := by
  simp [allBuffers]

theorem nodup_allBuffers (r : Rings) : (allBuffers r).Nodup :=
  List.nodup_range.map fun _ _ h => Option.some.inj h

theorem mem_allBuffers {r : Rings} {p : GenetRxBufferPtr} :
    p ∈ allBuffers r ↔ ∃ b < numBuffers r, p = some b := by
  rw [allBuffers, List.mem_map]
  exact exists_congr fun b => and_congr List.mem_range eq_comm

@[simp] theorem length_attachedOf (descBuffers : Nat → GenetRxBufferPtr) (range : Nat × Nat) :
    (attachedOf descBuffers range).length = range.2 - range.1 := by
  simp [attachedOf]

theorem mem_attachedOf {descBuffers : Nat → GenetRxBufferPtr} {lo hi desc : Nat} (hlo : lo ≤ desc)
    (hhi : desc < hi) : descBuffers desc ∈ attachedOf descBuffers (lo, hi) :=
  List.mem_map_of_mem (List.mem_range'_1.2 ⟨hlo, by omega⟩)

/-- A descriptor outside the range is written. -/
theorem attachedOf_update {descBuffers : Nat → GenetRxBufferPtr} {lo hi desc : Nat}
    (hout : desc < lo ∨ hi ≤ desc) (p : GenetRxBufferPtr) :
    attachedOf (Function.update descBuffers desc p) (lo, hi) = attachedOf descBuffers (lo, hi) := by
  refine List.map_congr_left fun i hi => Function.update_of_ne ?_ _ _
  obtain ⟨h1, h2⟩ := List.mem_range'_1.1 hi
  omega

/-- The next descriptor is filled. -/
theorem attachedOf_fill (descBuffers : Nat → GenetRxBufferPtr) (desc : Nat)
    (p : GenetRxBufferPtr) : attachedOf (Function.update descBuffers desc p) (0, desc + 1) =
      attachedOf descBuffers (0, desc) ++ [p] := by
  have hold : attachedOf (Function.update descBuffers desc p) (0, desc) =
      attachedOf descBuffers (0, desc) := attachedOf_update (.inr (Nat.le_refl desc)) p
  rw [← hold]
  simp [attachedOf, List.range'_concat]

/-- The first descriptor of the range is emptied. -/
theorem attachedOf_clear (descBuffers : Nat → GenetRxBufferPtr) {desc hi : Nat} (h : desc < hi) :
    attachedOf descBuffers (desc, hi) =
      descBuffers desc :: attachedOf descBuffers (desc + 1, hi) := by
  obtain ⟨n, rfl⟩ : ∃ n, hi = desc + 1 + n := ⟨hi - (desc + 1), by omega⟩
  have hlen : desc + 1 + n - desc = n + 1 := by omega
  simp [attachedOf, hlen, List.range'_succ]

/-- A descriptor of the range gets another buffer. -/
theorem attachedOf_exchange (descBuffers : Nat → GenetRxBufferPtr) {lo hi desc : Nat}
    (hlo : lo ≤ desc) (hhi : desc < hi) (p : GenetRxBufferPtr) :
    (descBuffers desc :: attachedOf (Function.update descBuffers desc p) (lo, hi)).Perm
      (p :: attachedOf descBuffers (lo, hi)) :=
  perm_map_update descBuffers List.nodup_range' (List.mem_range'_1.2 ⟨hlo, by omega⟩) p

/-- Each buffer is in one of three lists, and there once. -/
structure Places (r : Rings) (free attached withOs : List GenetRxBufferPtr) : Prop where
  perm : (free ++ attached ++ withOs).Perm (allBuffers r)
  /-- The descriptors can be filled from what the OS leaves. -/
  withOs_le : withOs.length ≤ numDescs + r.fragments

namespace Places

variable {r : Rings} {free free' attached attached' withOs withOs' : List GenetRxBufferPtr}
  {p : GenetRxBufferPtr}

theorem length (h : Places r free attached withOs) :
    free.length + attached.length + withOs.length = numBuffers r := by
  have hlen := h.perm.length_eq
  rwa [List.length_append, List.length_append, length_allBuffers] at hlen

theorem mem (h : Places r free attached withOs) (hp : p ∈ attached ∨ p ∈ withOs) :
    ∃ b < numBuffers r, p = some b := by
  refine mem_allBuffers.1 (h.perm.mem_iff.1 ?_)
  rcases hp with hp | hp
  · exact List.mem_append_left _ (List.mem_append_right _ hp)
  · exact List.mem_append_right _ hp

theorem of_count (h : Places r free attached withOs)
    (hcount : ∀ p, free'.count p + attached'.count p + withOs'.count p =
      free.count p + attached.count p + withOs.count p)
    (hle : withOs'.length ≤ numDescs + r.fragments) : Places r free' attached' withOs' where
  perm := by
    refine List.Perm.trans (List.perm_iff_count.2 fun p => ?_) h.perm
    simp only [List.count_append]
    exact hcount p
  withOs_le := hle

/-- The three lists in another order. -/
theorem of_perm (h : Places r free attached withOs) (hwithOs : withOs'.Perm withOs) :
    Places r free attached withOs' :=
  h.of_count (fun p => by rw [hwithOs.count_eq]) (hwithOs.length_eq ▸ h.withOs_le)

/-- A buffer is popped for the next descriptor. -/
theorem popFill (h : Places r (free ++ [p]) attached withOs) :
    Places r free (attached ++ [p]) withOs :=
  h.of_count (fun q => by simp only [List.count_append]; omega) h.withOs_le

/-- A buffer is popped for the OS, while all descriptors have one. -/
theorem popHandOver (h : Places r (free ++ [p]) attached withOs)
    (hattached : attached.length = numDescs) (hwithOs : withOs'.Perm (p :: withOs)) :
    Places r free attached withOs' := by
  have hlen := h.length
  rw [List.length_append, List.length_singleton, hattached, numBuffers] at hlen
  refine h.of_count (fun q => ?_) ?_
  · rw [hwithOs.count_eq]
    simp only [List.count_append, List.count_cons, List.count_nil]
    omega
  · rw [hwithOs.length_eq, List.length_cons]
    omega

/-- A buffer is popped for a descriptor, whose own goes to the OS. -/
theorem popExchange (h : Places r (free ++ [p]) attached withOs)
    (hattached : attached.length = numDescs) {old : GenetRxBufferPtr}
    (hexchange : (old :: attached').Perm (p :: attached))
    (hwithOs : withOs'.Perm (old :: withOs)) : Places r free attached' withOs' := by
  have hlen := h.length
  rw [List.length_append, List.length_singleton, hattached, numBuffers] at hlen
  refine h.of_count (fun q => ?_) ?_
  · have hcount := hexchange.count_eq q
    rw [hwithOs.count_eq]
    simp only [List.count_append, List.count_cons, List.count_nil] at hcount ⊢
    omega
  · rw [hwithOs.length_eq, List.length_cons]
    omega

/-- The OS gives a buffer back. -/
theorem pushReturned (h : Places r free attached withOs) (hwithOs : withOs.Perm (p :: withOs')) :
    Places r (free ++ [p]) attached withOs' := by
  have hle := h.withOs_le
  rw [hwithOs.length_eq, List.length_cons] at hle
  refine h.of_count (fun q => ?_) (by omega)
  rw [hwithOs.count_eq]
  simp only [List.count_append, List.count_cons, List.count_nil]
  omega

/-- A descriptor gives its buffer back. -/
theorem pushCleared (h : Places r free (p :: attached) withOs) :
    Places r (free ++ [p]) attached withOs :=
  h.of_count (fun q => by simp only [List.count_append, List.count_cons, List.count_nil]; omega)
    h.withOs_le

end Places

/-! ## What holds in every step -/

/-- An access that a call of the queue waits for. -/
def Access.ofQueue (a : Access) : Nat :=
  match a.kind with
  | .get | .stopRet _ => 1
  | .ret _ => 0

def Access.isReturn (a : Access) : Nat :=
  match a.kind with
  | .get => 0
  | .ret _ | .stopRet _ => 1

def Access.isStopRet (a : Access) : Nat :=
  match a.kind with
  | .stopRet _ => 1
  | .get | .ret _ => 0

theorem Access.isStopRet_le (a : Access) : a.isStopRet ≤ a.ofQueue := by
  obtain ⟨kind, step⟩ := a
  cases kind <;> exact Nat.le_of_ble_eq_true rfl

theorem total_isReturn (accesses : List Access) : total Access.isReturn accesses =
    (accesses.filterMap Access.returning).length + total Access.isStopRet accesses := by
  induction accesses with
  | nil => rfl
  | cons a accesses ih =>
    obtain ⟨kind, step⟩ := a
    rw [total_cons, total_cons, ih]
    cases kind with
    | get =>
      rw [List.filterMap_cons_none rfl]
      show 0 + _ = _ + (0 + _)
      omega
    | ret b =>
      have hcons : (Access.mk (.ret b) step :: accesses).filterMap Access.returning =
        some b :: accesses.filterMap Access.returning := rfl
      rw [hcons, List.length_cons]
      show 1 + _ = _ + 1 + (0 + _)
      omega
    | stopRet b =>
      rw [List.filterMap_cons_none rfl]
      show 1 + _ = _ + (1 + _)
      omega

/-- Only a push stores its entry after the top. -/
theorem Access.of_window_pushed {a : Access} {i : Nat} (h : a.window = some (.pushed i)) :
    a.isReturn = 1 ∧ a.step = .entry i := by
  obtain ⟨kind, step⟩ := a
  cases kind <;> cases step <;> cases h
  all_goals exact ⟨rfl, rfl⟩

theorem Access.of_window_popped {a : Access} {i : Nat} (h : a.window = some (.popped i)) :
    a.kind = .get ∧ a.step = .entry i := by
  obtain ⟨kind, step⟩ := a
  cases kind <;> cases step <;> cases h
  exact ⟨rfl, rfl⟩

/-- The call waits for an access. -/
def RxCall.waits : RxCall → Nat
  | .startGet _ | .advanceGet _ | .stopReturn _ => 1
  | _ => 0

/-- How many buffers a call counts on. -/
def RxCall.reserve : RxCall → Nat
  | .start curDesc | .startGet curDesc => numDescs - curDesc
  | .advanceGet _ => 1
  | _ => 0

/-- What an access belongs to. -/
def AccessOk (call : RxCall) (descBuffers : Nat → GenetRxBufferPtr) : AccessKind → Prop
  | .get => (∃ curDesc, call = .startGet curDesc) ∨ ∃ l, call = .advanceGet l
  | .ret _ => True
  | .stopRet b => ∃ curDesc, call = .stopReturn curDesc ∧ descBuffers curDesc = some b

/-- The indices of the driver and those of the controller are the low halves of counts. -/
structure Counters (consIndex prodIndex prodReg consReg consumed seen received refilled : Nat) :
    Prop where
  consIndex : consIndex = consumed % 0x10000
  prodIndex : prodIndex = seen % 0x10000
  prodReg : prodReg = refilled % 0x10000
  consReg : consReg = received % 0x10000
  refilled_le : refilled ≤ consumed
  consumed_le : consumed ≤ seen
  seen_le : seen ≤ received
  received_le : received ≤ refilled + numDescs

/-- The two rings hold what was handed over and not taken. -/
structure RingsHold (r : Rings) (packetRing fragmentRing : NetRing) (packets : Nat → NetPacket)
    (fragments : Nat → RxFragment) (handed : List GenetRxBufferPtr)
    (published taken packetsAdded fragmentsAdded : Nat) : Prop where
  packetBegin : packetRing.beginIndex = published % r.packets
  packetEnd : packetRing.endIndex = packetsAdded % r.packets
  fragmentBegin : fragmentRing.beginIndex = published % r.fragments
  fragmentEnd : fragmentRing.endIndex = fragmentsAdded % r.fragments
  taken_le : taken ≤ published
  published_le : published ≤ handed.length
  packets_le : handed.length ≤ packetsAdded
  packets_lt : packetsAdded < taken + r.packets
  fragments_le : handed.length ≤ fragmentsAdded
  fragments_lt : fragmentsAdded < taken + r.fragments
  slots : ∀ n p, taken ≤ n → handed[n]? = some p →
    (packets (n % r.packets)).fragmentIndex = n % r.fragments ∧
      (fragments (n % r.fragments)).returnContext = p

namespace RingsHold

variable {r : Rings} {packetRing fragmentRing : NetRing} {packets : Nat → NetPacket}
  {fragments : Nat → RxFragment} {handed : List GenetRxBufferPtr}
  {published taken packetsAdded fragmentsAdded : Nat}

/-- The next packet of the driver is written. -/
theorem setPacket (h : RingsHold r packetRing fragmentRing packets fragments handed published taken
    packetsAdded fragmentsAdded) (hlt : handed.length < packetsAdded) (packet : NetPacket) :
    RingsHold r packetRing fragmentRing
      (Function.update packets (handed.length % r.packets) packet) fragments handed published taken
      packetsAdded fragmentsAdded := by
  refine { h with slots := fun n p hn hp => ?_ }
  have hlen := (List.getElem?_eq_some_iff.1 hp).1
  have hpackets := h.packets_lt
  rw [Function.update_of_ne (mod_ne_of_ne (Nat.ne_of_lt hlen) hn (by omega) (by omega) (by omega))]
  exact h.slots n p hn hp

/-- The next fragment of the driver is written. -/
theorem setFragment (h : RingsHold r packetRing fragmentRing packets fragments handed published
    taken packetsAdded fragmentsAdded) (hlt : handed.length < fragmentsAdded)
    (fragment : RxFragment) : RingsHold r packetRing fragmentRing packets
      (Function.update fragments (handed.length % r.fragments) fragment) handed published taken
      packetsAdded fragmentsAdded := by
  refine { h with slots := fun n p hn hp => ?_ }
  have hlen := (List.getElem?_eq_some_iff.1 hp).1
  have hfragments := h.fragments_lt
  rw [Function.update_of_ne (mod_ne_of_ne (Nat.ne_of_lt hlen) hn (by omega) (by omega) (by omega))]
  exact h.slots n p hn hp

/-- The driver goes on to the next fragment and the next packet. -/
theorem handOver (h : RingsHold r packetRing fragmentRing packets fragments handed published taken
    packetsAdded fragmentsAdded) (hpackets : handed.length < packetsAdded)
    (hfragments : handed.length < fragmentsAdded)
    (hindex : (packets (handed.length % r.packets)).fragmentIndex = handed.length % r.fragments) :
    RingsHold r packetRing fragmentRing packets fragments
      (handed ++ [(fragments (handed.length % r.fragments)).returnContext]) published taken
      packetsAdded fragmentsAdded := by
  have hlen : (handed ++ [(fragments (handed.length % r.fragments)).returnContext]).length =
      handed.length + 1 := List.length_append
  refine { h with
    published_le := ?_
    packets_le := ?_
    fragments_le := ?_
    slots := fun n p hn hp => ?_ }
  · rw [hlen]
    exact Nat.le_succ_of_le h.published_le
  · rw [hlen]
    exact hpackets
  · rw [hlen]
    exact hfragments
  · rcases Nat.lt_or_ge n handed.length with hlt | hge
    · exact h.slots n p hn (by rwa [List.getElem?_append_left hlt] at hp)
    · obtain rfl : n = handed.length := by
        have hlt := (List.getElem?_eq_some_iff.1 hp).1
        omega
      rw [List.getElem?_concat_length] at hp
      exact ⟨hindex, Option.some.inj hp⟩

end RingsHold

namespace RxQueue

variable {r : Rings} {buffers : Nat → GenetRxBuffer} {s : RxQueue}

/-- `GenetRxQueueAdvance` is at the next fragment and the next packet. -/
def AtNext (r : Rings) (s : RxQueue) (l : RxAdvance) : Prop :=
  l.fragmentIndex = s.handed.length % r.fragments ∧ l.packetIndex = s.handed.length % r.packets ∧
    (s.canceled = false → l.descsRemaining = true → s.consumed ≠ s.seen)

/-- The descriptor that the loop goes over, and its buffer. -/
def AtDesc (s : RxQueue) (l : RxAdvance) : Prop :=
  (s.fragments l.fragmentIndex).returnContext = s.descBuffers l.fragmentDesc ∧
    ∃ n, s.consumed = n + 1 ∧ l.fragmentDesc = n % numDescs ∧ s.refilled ≤ n

/-- What holds where a call of the queue is. -/
def CallOk (r : Rings) (s : RxQueue) : RxCall → Prop
  | .idle => s.published = s.handed.length
  | .start curDesc =>
    s.started = false ∧ curDesc ≤ numDescs ∧ s.published = s.handed.length
  | .startGet curDesc =>
    s.started = false ∧ curDesc < numDescs ∧ s.published = s.handed.length
  | .advance l => s.started = true ∧ s.AtNext r l
  | .advanceGet l =>
    s.started = true ∧ s.AtNext r l ∧ s.handed.length < s.packetsAdded ∧
      s.handed.length < s.fragmentsAdded ∧
      (s.packets l.packetIndex).fragmentIndex = l.fragmentIndex ∧
      (s.canceled = false → s.AtDesc l)
  | .publish _ => s.started = true ∧ s.published = s.handed.length
  | .stop curDesc => s.started = false ∧ curDesc ≤ numDescs ∧ s.published = s.handed.length
  | .stopReturn curDesc | .clear curDesc =>
    s.started = false ∧ curDesc < numDescs ∧ s.published = s.handed.length

structure Inv (r : Rings) (buffers : Nat → GenetRxBuffer) (s : RxQueue) : Prop where
  serial : Serial s.curFreeBuffer s.windows
  places : Places r s.freeList s.attached s.withOs
  reserve : s.call.reserve ≤ available s.curFreeBuffer s.windows
  waits : total Access.ofQueue s.accesses = s.call.waits
  kinds : ∀ a ∈ s.accesses, AccessOk s.call s.descBuffers a.kind
  addresses : ∀ desc, (attachedRange s.started s.call).1 ≤ desc →
    desc < (attachedRange s.started s.call).2 →
      HasAddress buffers (s.bds desc) (s.descBuffers desc)
  counters : Counters s.consIndex s.prodIndex s.prodReg s.consReg s.consumed s.seen s.received
    s.refilled
  rings : RingsHold r s.packetRing s.fragmentRing s.packets s.fragments s.handed s.published
    s.taken s.packetsAdded s.fragmentsAdded
  call : CallOk r s s.call
  asserted : s.asserted = true

namespace Inv

theorem of_create (packets : Nat → NetPacket) (fragments : Nat → RxFragment)
    (descBuffers : Nat → GenetRxBufferPtr) (bds : Nat → DmaDesc) :
    Inv r buffers (genetCreateRxQueue r packets fragments descBuffers bds) where
  serial := .idle
  places :=
    { perm := by
        show (stackEntries some (numBuffers r) ++ [] ++ []).Perm (allBuffers r)
        rw [List.append_nil, List.append_nil]
        exact .refl _
      withOs_le := Nat.zero_le _ }
  reserve := Nat.zero_le _
  waits := rfl
  kinds a ha := by cases ha
  addresses desc _ hlt := absurd hlt (Nat.not_lt_zero _)
  counters := ⟨rfl, rfl, rfl, rfl, Nat.le_refl 0, Nat.le_refl 0, Nat.le_refl 0, Nat.zero_le _⟩
  rings := ⟨(Nat.zero_mod _).symm, (Nat.zero_mod _).symm, (Nat.zero_mod _).symm,
    (Nat.zero_mod _).symm, Nat.le_refl 0, Nat.le_refl 0, Nat.le_refl 0,
    Nat.lt_of_lt_of_le r.packets_pos (Nat.le_add_left _ _), Nat.le_refl 0,
    Nat.lt_of_lt_of_le r.fragments_pos (Nat.le_add_left _ _), fun n p _ hp => by cases hp⟩
  call := rfl
  asserted := rfl

/-! ## The accesses to the stack -/

/-- How many entries the stack has. -/
theorem length_freeList : s.freeList.length = entryCount s.curFreeBuffer s.windows :=
  length_stackEntries _ _

theorem entryCount_le (h : Inv r buffers s) :
    entryCount s.curFreeBuffer s.windows ≤ numBuffers r := by
  have hlen := h.places.length
  rw [length_freeList] at hlen
  omega

/-- The kind of an access stays, and so does all that is told by it. -/
theorem returning_goOn {a : Access} (ha : a ∈ s.accesses) (step : AccessStep) :
    ((Lib.advance s.accesses a [⟨a.kind, step⟩]).filterMap Access.returning).Perm
      (s.accesses.filterMap Access.returning) := by
  have hperm := filterMap_advance Access.returning ha [⟨a.kind, step⟩]
  have hkind : [Access.mk a.kind step].filterMap Access.returning = a.returning.toList := by
    rw [show a.returning = (Access.mk a.kind step).returning from rfl]
    cases h : (Access.mk a.kind step).returning with
    | none => rw [List.filterMap_cons_none h]; rfl
    | some p => rw [List.filterMap_cons_some h]; rfl
  rw [hkind] at hperm
  exact (List.perm_append_left_iff _).1 hperm

theorem goOn (h : Inv r buffers s) {a : Access} (ha : a ∈ s.accesses) {step : AccessStep}
    {top : Nat} {asserted : Bool} {ws : List Window}
    (hws : (Lib.advance s.accesses a [⟨a.kind, step⟩]).filterMap Access.window = ws)
    (hserial : Serial top ws) (hcount : entryCount top ws = entryCount s.curFreeBuffer s.windows)
    (hreserve : s.call.reserve ≤ available top ws) (hasserted : asserted = true) :
    Inv r buffers { s.goOn a step with curFreeBuffer := top, asserted := asserted } := by
  subst hws
  have hplaces : Places r s.freeList s.attached
      (s.handed.drop s.taken ++ s.held ++
        (Lib.advance s.accesses a [⟨a.kind, step⟩]).filterMap Access.returning) :=
    h.places.of_perm ((returning_goOn ha step).append_left _)
  refine { h with
    serial := hserial
    places := ?_
    reserve := hreserve
    waits := ?_
    kinds := fun b hb => ?_
    call := h.call
    asserted := hasserted }
  · rw [freeList, ← hcount] at hplaces
    exact hplaces
  · have hsum := sum_advance Access.ofQueue ha [⟨a.kind, step⟩]
    rw [total_cons, total_nil, show (Access.mk a.kind step).ofQueue = a.ofQueue from rfl] at hsum
    have hwaits := h.waits
    show total Access.ofQueue (Lib.advance _ _ _) = s.call.waits
    omega
  · rcases mem_advance hb with hb | hb
    · rw [List.mem_singleton.1 hb]
      exact h.kinds a ha
    · exact h.kinds b hb

/-- The access that is at its assertion, and another one whose entry is to be stored. -/
theorem two_le_outstanding {a a' : Access} (ha : a ∈ s.accesses) (ha' : a' ∈ s.accesses)
    (hne : a' ≠ a) {f : Access → Nat} (hf : f a = 1) (hf' : f a' = 1) :
    2 ≤ total f s.accesses := by
  have hsum := sum_advance f ha []
  have hmem : a' ∈ Lib.advance s.accesses a [] := mem_advance_of_ne ha' hne
  have hle := Lib.le_total f hmem
  rw [total_nil] at hsum
  omega

theorem waits_le (h : Inv r buffers s) : total Access.ofQueue s.accesses ≤ 1 := by
  rw [h.waits]
  cases s.call <;> exact Nat.le_of_ble_eq_true rfl

theorem total_isStopRet_le (h : Inv r buffers s) :
    total Access.isStopRet s.accesses ≤ s.attached.length := by
  rcases Nat.eq_zero_or_pos (total Access.isStopRet s.accesses) with hzero | hpos
  · omega
  · -- there is one, for a descriptor that still has its buffer
    obtain ⟨⟨kind, step⟩, ha, hpos⟩ := exists_of_total_pos hpos
    cases kind with
    | get => cases hpos
    | ret b => cases hpos
    | stopRet b =>
      obtain ⟨curDesc, hcall, -⟩ := h.kinds _ ha
      have hok := h.call
      have hone := Nat.le_trans (total_le_total Access.isStopRet_le s.accesses) h.waits_le
      rw [hcall] at hok
      have hlt := hok.2.1
      rw [attached, hcall, length_attachedOf]
      show _ ≤ numDescs - curDesc
      omega

/-- The assertion of `GenetReturnRxBuffer`: the buffer at hand is not on the stack. -/
theorem curFreeBuffer_lt (h : Inv r buffers s) {a : Access} (ha : a ∈ s.accesses)
    (hret : a.isReturn = 1) (hcheck : a.step = .check) : s.curFreeBuffer < numBuffers r := by
  have hlen := h.places.length
  have hreturns := total_isReturn s.accesses
  have hstop := h.total_isStopRet_le
  have hone := Lib.le_total Access.isReturn ha
  have hserial := h.serial
  rw [length_freeList, withOs, List.length_append] at hlen
  cases hws : s.windows with
  | nil =>
    rw [hws] at hlen
    simp only [entryCount] at hlen
    omega
  | cons w ws =>
    have hagrees := (hserial.eq_of_mem (hws ▸ List.mem_cons_self)).2
    rw [hws] at hlen
    cases w with
    | pushing i | popping i =>
      simp only [entryCount, Window.entryCount] at hlen
      omega
    | popped i =>
      simp only [entryCount, Window.entryCount] at hlen
      omega
    | pushed i =>
      -- another buffer is counted by the top, and is not on the stack either
      obtain ⟨a', ha', hw'⟩ := List.mem_filterMap.1 (hws ▸ List.mem_cons_self : _ ∈ s.windows)
      obtain ⟨hret', hstep'⟩ := Access.of_window_pushed hw'
      have hne : a' ≠ a := fun heq => by rw [heq, hcheck] at hstep'; cases hstep'
      have htwo := two_le_outstanding ha ha' hne hret hret'
      have htop : s.curFreeBuffer = i + 1 := hagrees
      simp only [entryCount, Window.entryCount] at hlen
      omega

/-- The assertion of `GenetGetRxBuffer`: its call counts on a buffer. -/
theorem curFreeBuffer_pos (h : Inv r buffers s) {a : Access} (ha : a ∈ s.accesses)
    (hget : a.kind = .get) (hstep : ∀ i, a.step ≠ .entry i) :
    s.call.reserve ≤ s.curFreeBuffer ∧ 0 < s.curFreeBuffer := by
  have hqueue : ∀ {a : Access}, a.kind = .get → a.ofQueue = 1 := fun hget => by
    rw [Access.ofQueue, hget]
  have hpos : 0 < s.call.reserve := by
    have hok := h.call
    have hkind := h.kinds a ha
    rw [hget] at hkind
    rcases hkind with ⟨curDesc, hcall⟩ | ⟨l, hcall⟩
    · rw [hcall] at hok ⊢
      have hlt := hok.2.1
      show 0 < numDescs - curDesc
      omega
    · rw [hcall]
      exact Nat.one_pos
  have hreserve : s.call.reserve ≤ s.curFreeBuffer := by
    have hreserve := h.reserve
    cases hws : s.windows with
    | nil => rwa [hws] at hreserve
    | cons w ws =>
      rw [hws] at hreserve
      cases w with
      | pushing i | pushed i | popping i => exact hreserve
      | popped i =>
        -- the queue has one access only
        obtain ⟨a', ha', hw'⟩ := List.mem_filterMap.1 (hws ▸ List.mem_cons_self : _ ∈ s.windows)
        obtain ⟨hget', hstep'⟩ := Access.of_window_popped hw'
        have hne : a' ≠ a := fun heq => hstep i (heq ▸ hstep')
        have htwo := two_le_outstanding ha ha' hne (hqueue hget) (hqueue hget')
        have hle := h.waits_le
        omega
  exact ⟨hreserve, Nat.lt_of_lt_of_le hpos hreserve⟩

/-- No window is open. -/
theorem closed (hws : s.windows = [])
    (hplaces : Places r (stackEntries s.freeBuffers s.curFreeBuffer) s.attached s.withOs)
    (hreserve : s.call.reserve ≤ s.curFreeBuffer) :
    Serial s.curFreeBuffer s.windows ∧ Places r s.freeList s.attached s.withOs ∧
      s.call.reserve ≤ available s.curFreeBuffer s.windows := by
  rw [freeList, hws]
  exact ⟨.idle, hplaces, hreserve⟩

theorem kinds_of_zero {accesses : List Access} (hzero : total Access.ofQueue accesses = 0)
    (call : RxCall) (descBuffers : Nat → GenetRxBufferPtr) :
    ∀ a ∈ accesses, AccessOk call descBuffers a.kind := by
  rintro ⟨kind, step⟩ ha
  have hle := Lib.le_total Access.ofQueue ha
  cases kind with
  | ret b => trivial
  | get | stopRet b =>
    rw [hzero] at hle
    exact absurd hle (Nat.not_succ_le_zero 0)

/-- The access that the queue waits for is done. -/
theorem ofQueue_done (h : Inv r buffers s) {a : Access} (ha : a ∈ s.accesses)
    (hqueue : a.ofQueue = 1) : total Access.ofQueue (Lib.advance s.accesses a []) = 0 := by
  have hsum := sum_advance Access.ofQueue ha []
  have hle := h.waits_le
  rw [total_nil] at hsum
  omega

theorem check (h : Inv r buffers s) {a : Access} (ha : a ∈ s.accesses) (hstep : a.step = .check)
    {asserted : Bool} (hasserted : asserted = true) :
    Inv r buffers { s.goOn a .load with asserted := asserted } := by
  obtain ⟨kind, step⟩ := a
  obtain rfl : step = .check := hstep
  have hnone : ∀ step, step = .check ∨ step = .load → (Access.mk kind step).window = none := by
    rintro _ (rfl | rfl) <;> cases kind <;> rfl
  refine h.goOn ha (h.serial.outside ha (hnone _ (.inl rfl)) ?_) h.serial rfl h.reserve hasserted
  rw [List.filterMap_cons_none (hnone _ (.inr rfl))]
  rfl

/-- The access opens its window at the top, when no other one is open. -/
theorem load (h : Inv r buffers s) {a : Access} (ha : a ∈ s.accesses) (hstep : a.step = .load)
    (hundisturbed : s.windows = []) {i : Nat} {w : Window}
    (hw : (Access.mk a.kind (.storeIndex i)).window = some w) (hagrees : w.Agrees s.curFreeBuffer)
    (hcount : entryCount s.curFreeBuffer [w] = s.curFreeBuffer)
    (havailable : available s.curFreeBuffer [w] = s.curFreeBuffer) :
    Inv r buffers (s.goOn a (.storeIndex i)) := by
  have hnone : a.window = none := by
    obtain ⟨kind, step⟩ := a
    obtain rfl : step = .load := hstep
    cases kind <;> rfl
  have hreserve := h.reserve
  have hcons : [Access.mk a.kind (.storeIndex i)].filterMap Access.window = [w] := by
    rw [List.filterMap_cons_some hw]
    rfl
  refine h.goOn ha (Serial.opens hundisturbed ha hnone hcons) (.one w hagrees) ?_ ?_ h.asserted
  · rw [hundisturbed, hcount]
    rfl
  · rw [hundisturbed] at hreserve
    rw [havailable]
    exact hreserve

/-- The access whose window is open stores the top. -/
theorem storeIndex (h : Inv r buffers s) {a : Access} (ha : a ∈ s.accesses) {w v : Window}
    (hw : a.window = some w) {i top : Nat} (hv : (Access.mk a.kind (.entry i)).window = some v)
    (hstore : w.Agrees s.curFreeBuffer → entryCount s.curFreeBuffer [w] ≤ numBuffers r →
      v.Agrees top ∧ entryCount top [v] = entryCount s.curFreeBuffer [w] ∧
        available s.curFreeBuffer [w] ≤ available top [v]) :
    Inv r buffers { s.goOn a (.entry i) with curFreeBuffer := top } := by
  have hcons : [Access.mk a.kind (.entry i)].filterMap Access.window = [v] := by
    rw [List.filterMap_cons_some hv]
    rfl
  obtain ⟨hone, hold, hnew⟩ := h.serial.inside ha hw [⟨a.kind, .entry i⟩]
    (by rw [hcons]; exact Nat.le_refl 1)
  have hone : s.windows = [w] := hone
  have hle := h.entryCount_le
  have hreserve := h.reserve
  rw [hone] at hle hreserve
  obtain ⟨hagrees, hentries, havailable⟩ := hstore hold hle
  refine h.goOn ha (hnew.trans hcons) (.one v hagrees) ?_ (Nat.le_trans hreserve havailable)
    h.asserted
  rw [hone, hentries]

/-- Where the entry of a pop is read. -/
structure PopsEntry (s : RxQueue) (accesses : List Access) (i : Nat) : Prop where
  windows : accesses.filterMap Access.window = []
  top : s.curFreeBuffer = i
  freeList : s.freeList = stackEntries s.freeBuffers i ++ [s.freeBuffers i]
  returning : (accesses.filterMap Access.returning).Perm (s.accesses.filterMap Access.returning)
  ofQueue : total Access.ofQueue accesses = 0
  reserve : s.call.reserve ≤ i + 1

theorem popsEntry (h : Inv r buffers s) {i : Nat} (ha : ⟨.get, .entry i⟩ ∈ s.accesses) :
    PopsEntry s (Lib.advance s.accesses ⟨.get, .entry i⟩ []) i := by
  obtain ⟨hone, htop, hnew⟩ := h.serial.inside ha (w := .popped i) rfl [] (Nat.zero_le 1)
  have hone : s.windows = [.popped i] := hone
  have htop : s.curFreeBuffer = i := htop
  have hreserve := h.reserve
  rw [hone] at hreserve
  refine ⟨hnew, htop, ?_, filterMap_advance Access.returning ha [], h.ofQueue_done ha rfl,
    htop ▸ hreserve⟩
  rw [freeList, hone, htop]
  exact stackEntries_succ _ _

/-- A descriptor gets its first buffer. -/
theorem startFill (h : Inv r buffers s) {i curDesc : Nat} (ha : ⟨.get, .entry i⟩ ∈ s.accesses)
    (hcall : s.call = .startGet curDesc) :
    Inv r buffers { ({ s with accesses := Lib.advance s.accesses ⟨.get, .entry i⟩ [] } :
      RxQueue).genetFillRxDesc buffers curDesc (s.freeBuffers i) with
        call := .start (curDesc + 1) } := by
  have hpop := h.popsEntry ha
  have hok := h.call
  have hreserve := hpop.reserve
  have hplaces := h.places
  have haddresses := h.addresses
  rw [hcall] at hok hreserve haddresses
  rw [hpop.freeList, attached, hcall] at hplaces
  obtain ⟨hstarted, hlt, hpublished⟩ := hok
  have hreserve : numDescs - curDesc ≤ i + 1 := hreserve
  refine
    have hclosed := closed (r := r) (s := { ({ s with
      accesses := Lib.advance s.accesses ⟨.get, .entry i⟩ [] } : RxQueue).genetFillRxDesc buffers
        curDesc (s.freeBuffers i) with call := .start (curDesc + 1) }) hpop.windows ?_ ?_
    { h with
      serial := hclosed.1
      places := hclosed.2.1
      reserve := hclosed.2.2
      waits := hpop.ofQueue
      kinds := kinds_of_zero hpop.ofQueue _ _
      addresses := fun desc _ hdesc => ?_
      call := ⟨hstarted, hlt, hpublished⟩
      asserted := ?_ }
  · show Places r (stackEntries s.freeBuffers s.curFreeBuffer)
      (attachedOf (Function.update s.descBuffers curDesc _) (0, curDesc + 1)) _
    rw [hpop.top, attachedOf_fill]
    exact (hplaces.of_perm (hpop.returning.append_left _)).popFill
  · show numDescs - (curDesc + 1) ≤ s.curFreeBuffer
    rw [hpop.top]
    omega
  · show HasAddress buffers (Function.update s.bds curDesc _ desc)
      (Function.update s.descBuffers curDesc _ desc)
    rcases Nat.lt_succ_iff_lt_or_eq.1 hdesc with hold | rfl
    · rw [Function.update_of_ne (Nat.ne_of_lt hold), Function.update_of_ne (Nat.ne_of_lt hold)]
      exact haddresses desc (Nat.zero_le _) hold
    · rw [Function.update_self, Function.update_self]
      exact ⟨rfl, rfl⟩
  · show (s.asserted && decide (curDesc < numDescs)) = true
    rw [h.asserted, decide_eq_true hlt]
    rfl

/-- The OS gets one more buffer. -/
theorem withOs_handOver {handed : List GenetRxBufferPtr} {taken : Nat} (hle : taken ≤ handed.length)
    {p p' : GenetRxBufferPtr} (hp : p = p') (held : List GenetRxBufferPtr)
    {returning returning' : List GenetRxBufferPtr} (hreturning : returning'.Perm returning) :
    ((handed ++ [p]).drop taken ++ held ++ returning').Perm
      (p' :: (handed.drop taken ++ held ++ returning)) := by
  rw [List.drop_append_of_le_length hle, hp]
  refine List.perm_iff_count.2 fun q => ?_
  have hcount := hreturning.count_eq q
  simp only [List.count_append, List.count_cons, List.count_nil]
  omega

theorem length_attached_advanceGet {l : RxAdvance} (hcall : s.call = .advanceGet l) :
    s.attached.length = numDescs := by
  rw [attached, hcall, length_attachedOf]
  rfl

/-- The loop goes on to the next fragment. -/
theorem atNext_next {l : RxAdvance} (hnext : s.AtNext r l) (p : GenetRxBufferPtr) :
    netRingIncrementIndex r.fragments l.fragmentIndex =
        (s.handed ++ [p]).length % r.fragments ∧
      netRingIncrementIndex r.packets l.packetIndex = (s.handed ++ [p]).length % r.packets := by
  rw [hnext.1, hnext.2.1, netRingIncrementIndex_mod r.fragments_pos r.fragments_le,
    netRingIncrementIndex_mod r.packets_pos r.packets_le, List.length_append]
  exact ⟨rfl, rfl⟩

/-- After a cancel, a buffer of the stack is handed to the OS. -/
theorem handOver (h : Inv r buffers s) {i : Nat} {l : RxAdvance}
    (ha : ⟨.get, .entry i⟩ ∈ s.accesses) (hcall : s.call = .advanceGet l) :
    Inv r buffers ((({ s with accesses := Lib.advance s.accesses ⟨.get, .entry i⟩ [] } :
      RxQueue).setFragment buffers l.fragmentIndex (s.freeBuffers i)).nextFragment r l) := by
  have hpop := h.popsEntry ha
  have hok := h.call
  have hplaces := h.places
  have haddresses := h.addresses
  have hlen := length_attached_advanceGet hcall
  rw [hcall] at hok haddresses
  rw [hpop.freeList] at hplaces
  obtain ⟨hstarted, hnext, hpackets, hfragments, hindex, -⟩ := hok
  have htaken := Nat.le_trans h.rings.taken_le h.rings.published_le
  have hattached : s.attached = attachedOf s.descBuffers (0, numDescs) := by rw [attached, hcall]; rfl
  have hself : (Function.update s.fragments l.fragmentIndex { s.fragments l.fragmentIndex with
      returnContext := s.freeBuffers i
      virtualAddress := (s.freeBuffers i).elim 0 fun b => (buffers b).virtualAddress }
        l.fragmentIndex).returnContext = s.freeBuffers i := by
    rw [Function.update_self]
  have hrings := (h.rings.setFragment hfragments { s.fragments l.fragmentIndex with
    returnContext := s.freeBuffers i
    virtualAddress := (s.freeBuffers i).elim 0 fun b => (buffers b).virtualAddress }).handOver
      hpackets hfragments (by rw [← hnext.2.1, ← hnext.1]; exact hindex)
  rw [← hnext.1] at hrings
  refine
    have hclosed := closed (r := r) (s := (({ s with
      accesses := Lib.advance s.accesses ⟨.get, .entry i⟩ [] } : RxQueue).setFragment buffers
        l.fragmentIndex (s.freeBuffers i)).nextFragment r l) hpop.windows ?_ (Nat.zero_le _)
    { h with
      serial := hclosed.1
      places := hclosed.2.1
      reserve := hclosed.2.2
      waits := hpop.ofQueue
      kinds := kinds_of_zero hpop.ofQueue _ _
      addresses := haddresses
      rings := hrings
      call := ⟨hstarted, (atNext_next hnext _).1, (atNext_next hnext _).2, hnext.2.2⟩ }
  show Places r (stackEntries s.freeBuffers s.curFreeBuffer) (attachedOf s.descBuffers (0, numDescs))
    ((s.handed ++ [_]).drop s.taken ++ s.held ++ _)
  rw [← hattached, hpop.top]
  -- the top of the stack goes to the OS
  exact hplaces.popHandOver hlen (withOs_handOver htaken hself _ hpop.returning)

/-- The buffer of a filled descriptor is handed to the OS, and the descriptor gets another one. -/
theorem refill (h : Inv r buffers s) {i : Nat} {l : RxAdvance}
    (ha : ⟨.get, .entry i⟩ ∈ s.accesses) (hcall : s.call = .advanceGet l)
    (hcanceled : s.canceled = false) :
    Inv r buffers ((({ s with accesses := Lib.advance s.accesses ⟨.get, .entry i⟩ [] } :
      RxQueue).genetFillRxDesc buffers l.fragmentDesc (s.freeBuffers i)).nextFragment r l) := by
  have hpop := h.popsEntry ha
  have hok := h.call
  have hplaces := h.places
  have haddresses := h.addresses
  have hlen := length_attached_advanceGet hcall
  rw [hcall] at hok haddresses
  rw [hpop.freeList] at hplaces
  obtain ⟨hstarted, hnext, hpackets, hfragments, hindex, hdesc⟩ := hok
  obtain ⟨hhandle, n, -, hdesc, -⟩ := hdesc hcanceled
  have hlt : l.fragmentDesc < numDescs := by
    rw [hdesc]
    exact Nat.mod_lt _ (by decide)
  have htaken := Nat.le_trans h.rings.taken_le h.rings.published_le
  have hattached : s.attached = attachedOf s.descBuffers (0, numDescs) := by rw [attached, hcall]; rfl
  have hrings := h.rings.handOver hpackets hfragments
    (by rw [← hnext.2.1, ← hnext.1]; exact hindex)
  rw [← hnext.1] at hrings
  refine
    have hclosed := closed (r := r) (s := (({ s with
      accesses := Lib.advance s.accesses ⟨.get, .entry i⟩ [] } : RxQueue).genetFillRxDesc buffers
        l.fragmentDesc (s.freeBuffers i)).nextFragment r l) hpop.windows ?_ (Nat.zero_le _)
    { h with
      serial := hclosed.1
      places := hclosed.2.1
      reserve := hclosed.2.2
      waits := hpop.ofQueue
      kinds := kinds_of_zero hpop.ofQueue _ _
      addresses := fun desc hlo hhi => ?_
      rings := hrings
      call := ⟨hstarted, (atNext_next hnext _).1, (atNext_next hnext _).2, hnext.2.2⟩
      asserted := ?_ }
  · show Places r (stackEntries s.freeBuffers s.curFreeBuffer)
      (attachedOf (Function.update s.descBuffers l.fragmentDesc _) (0, numDescs))
      ((s.handed ++ [_]).drop s.taken ++ s.held ++ _)
    rw [hpop.top]
    -- the descriptor's buffer goes to the OS, and the top of the stack takes its place
    refine hplaces.popExchange hlen ?_ (withOs_handOver htaken rfl _ hpop.returning)
    rw [hattached]
    show ((s.fragments l.fragmentIndex).returnContext :: _).Perm _
    rw [hhandle]
    exact attachedOf_exchange s.descBuffers (Nat.zero_le _) hlt _
  · show HasAddress buffers (Function.update s.bds l.fragmentDesc _ desc)
      (Function.update s.descBuffers l.fragmentDesc _ desc)
    by_cases hne : desc = l.fragmentDesc
    · rw [hne, Function.update_self, Function.update_self]
      exact ⟨rfl, rfl⟩
    · rw [Function.update_of_ne hne, Function.update_of_ne hne]
      exact haddresses desc hlo hhi
  · show (s.asserted && decide (l.fragmentDesc < numDescs)) = true
    rw [h.asserted, decide_eq_true hlt]
    rfl

/-- The queue goes on with the buffer. -/
theorem gotRxBuffer (h : Inv r buffers s) {i : Nat} (ha : ⟨.get, .entry i⟩ ∈ s.accesses) :
    Inv r buffers (({ s with accesses := Lib.advance s.accesses ⟨.get, .entry i⟩ [] } :
      RxQueue).gotRxBuffer r buffers (s.freeBuffers i)) := by
  rcases h.kinds _ ha with ⟨curDesc, hcall⟩ | ⟨l, hcall⟩
  · have hstart := h.startFill ha hcall
    rw [RxQueue.gotRxBuffer]
    simp only [hcall]
    exact hstart
  · rw [RxQueue.gotRxBuffer]
    simp only [hcall]
    split
    · exact h.handOver ha hcall
    · next hcanceled => exact h.refill ha hcall (Bool.eq_false_iff.2 hcanceled)

theorem genetGetRxBuffer (h : Inv r buffers s) {a : Access} (ha : a ∈ s.accesses)
    (hget : a.kind = .get) (hundisturbed : a.step = .load → s.windows = []) :
    Inv r buffers (s.genetGetRxBuffer r buffers a) := by
  have hle := h.entryCount_le
  have hbound := numBuffers_lt r
  obtain ⟨kind, step⟩ := a
  obtain rfl : kind = .get := hget
  cases step with
  | check =>
    have hpos := (h.curFreeBuffer_pos ha rfl (fun i hi => by cases hi)).2
    refine h.check ha rfl ?_
    show (s.asserted && decide (0 < s.curFreeBuffer)) = true
    rw [h.asserted, decide_eq_true hpos]
    rfl
  | load =>
    have hpos := (h.curFreeBuffer_pos ha rfl (fun i hi => by cases hi)).2
    rw [hundisturbed rfl] at hle
    have hle : s.curFreeBuffer ≤ numBuffers r := hle
    refine h.load ha rfl (hundisturbed rfl) rfl ?_ rfl rfl
    show s.curFreeBuffer = (s.curFreeBuffer + 0xffffffff) % 0x100000000 + 1
    omega
  | storeIndex i =>
    refine h.storeIndex ha (w := .popping i) (v := .popped i) rfl rfl fun htop _ => ?_
    have htop : s.curFreeBuffer = i + 1 := htop
    exact ⟨rfl, htop.symm, Nat.le_of_eq htop⟩
  | entry i => exact h.gotRxBuffer ha

/-! ## Returning a buffer -/

/-- Where the entry of a push is stored. -/
structure PushesEntry (s : RxQueue) (accesses : List Access) (i b : Nat) : Prop where
  windows : accesses.filterMap Access.window = []
  top : s.curFreeBuffer = i + 1
  freeList : stackEntries (Function.update s.freeBuffers i (some b)) (i + 1) =
    s.freeList ++ [some b]
  reserve : s.call.reserve ≤ s.curFreeBuffer

theorem pushesEntry (h : Inv r buffers s) {a : Access} (ha : a ∈ s.accesses) {i : Nat}
    (hw : a.window = some (.pushed i)) (b : Nat) :
    PushesEntry s (Lib.advance s.accesses a []) i b := by
  obtain ⟨hone, htop, hnew⟩ := h.serial.inside ha hw [] (Nat.zero_le 1)
  have hone : s.windows = [.pushed i] := hone
  have htop : s.curFreeBuffer = i + 1 := htop
  have hreserve := h.reserve
  rw [hone] at hreserve
  refine ⟨hnew, htop, ?_, hreserve⟩
  rw [freeList, hone, htop, stackEntries_push]
  rfl

/-- A buffer of the OS is on the stack again. -/
theorem retEntry (h : Inv r buffers s) {i b : Nat} (ha : ⟨.ret b, .entry i⟩ ∈ s.accesses) :
    Inv r buffers { s with
      accesses := Lib.advance s.accesses ⟨.ret b, .entry i⟩ []
      freeBuffers := Function.update s.freeBuffers i (some b) } := by
  have hpush := h.pushesEntry ha rfl b
  have hreturning := filterMap_advance Access.returning ha []
  have hsum := sum_advance Access.ofQueue ha []
  refine
    have hclosed := closed (r := r) (s := { s with
      accesses := Lib.advance s.accesses ⟨.ret b, .entry i⟩ []
      freeBuffers := Function.update s.freeBuffers i (some b) }) hpush.windows ?_ hpush.reserve
    { h with
      serial := hclosed.1
      places := hclosed.2.1
      reserve := hclosed.2.2
      waits := ?_
      kinds := fun a hmem => ?_
      call := h.call }
  · show Places r (stackEntries _ s.curFreeBuffer) s.attached (_ ++ s.held ++ _)
    rw [hpush.top, hpush.freeList]
    refine h.places.pushReturned ((hreturning.symm.append_left _).trans ?_)
    exact List.perm_middle
  · rw [← h.waits]
    exact hsum
  · rcases mem_advance hmem with hmem | hmem
    · cases hmem
    · exact h.kinds a hmem

/-- The buffer of a descriptor is on the stack again. -/
theorem stopRetEntry (h : Inv r buffers s) {i b : Nat}
    (ha : ⟨.stopRet b, .entry i⟩ ∈ s.accesses) :
    Inv r buffers (({ s with
      accesses := Lib.advance s.accesses ⟨.stopRet b, .entry i⟩ []
      freeBuffers := Function.update s.freeBuffers i (some b) } : RxQueue).returnedRxBuffer) := by
  have hpush := h.pushesEntry ha rfl b
  have hreturning := filterMap_advance Access.returning ha []
  have hqueue := h.ofQueue_done ha rfl
  obtain ⟨curDesc, hcall, hdesc⟩ := h.kinds _ ha
  have hok := h.call
  have hplaces := h.places
  have haddresses := h.addresses
  rw [hcall] at hok haddresses
  obtain ⟨hstarted, hlt, hpublished⟩ := hok
  rw [attached, hcall] at hplaces
  have hplaces : Places r s.freeList (attachedOf s.descBuffers (curDesc, numDescs)) s.withOs :=
    hplaces
  rw [attachedOf_clear _ hlt, hdesc] at hplaces
  rw [RxQueue.returnedRxBuffer]
  simp only [hcall]
  refine
    have hclosed := closed (r := r) (s := { s with
      accesses := Lib.advance s.accesses ⟨.stopRet b, .entry i⟩ []
      freeBuffers := Function.update s.freeBuffers i (some b)
      call := .clear curDesc }) hpush.windows ?_ (Nat.zero_le _)
    { h with
      serial := hclosed.1
      places := hclosed.2.1
      reserve := hclosed.2.2
      waits := hqueue
      kinds := kinds_of_zero hqueue _ _
      addresses := fun desc hlo hhi => haddresses desc (Nat.le_of_succ_le hlo) hhi
      call := ⟨hstarted, hlt, hpublished⟩ }
  show Places r (stackEntries _ s.curFreeBuffer)
    (attachedOf s.descBuffers (curDesc + 1, numDescs)) (_ ++ s.held ++ _)
  rw [hpush.top, hpush.freeList]
  exact (hplaces.of_perm (hreturning.append_left _)).pushCleared

theorem genetReturnRxBuffer (h : Inv r buffers s) {a : Access} (ha : a ∈ s.accesses) {b : Nat}
    (hret : a.kind = .ret b ∨ a.kind = .stopRet b)
    (hundisturbed : a.step = .load → s.windows = []) :
    Inv r buffers (s.genetReturnRxBuffer r a b) := by
  have hbound := numBuffers_lt r
  obtain ⟨kind, step⟩ := a
  cases step with
  | check =>
    have hone : (Access.mk kind .check).isReturn = 1 := by
      rcases hret with hret | hret <;> cases hret <;> rfl
    refine h.check ha rfl ?_
    show (s.asserted && decide (s.curFreeBuffer < numBuffers r)) = true
    rw [h.asserted, decide_eq_true (h.curFreeBuffer_lt ha hone rfl)]
    rfl
  | load =>
    refine h.load ha rfl (hundisturbed rfl) (w := .pushing s.curFreeBuffer) ?_ rfl rfl rfl
    rcases hret with hret | hret <;> cases hret <;> rfl
  | storeIndex i =>
    refine h.storeIndex ha (w := .pushing i) (v := .pushed i) ?_ ?_ fun htop hle => ?_
    · rcases hret with hret | hret <;> cases hret <;> rfl
    · rcases hret with hret | hret <;> cases hret <;> rfl
    · have hle : i ≤ numBuffers r := Nat.le_trans (Nat.le_of_eq htop.symm) hle
      have htop : s.curFreeBuffer = i := htop
      have hstore : (i + 1) % 0x100000000 = i + 1 := Nat.mod_eq_of_lt (by omega)
      refine ⟨hstore, ?_, ?_⟩
      · show (i + 1) % 0x100000000 - 1 = s.curFreeBuffer
        omega
      · show s.curFreeBuffer ≤ (i + 1) % 0x100000000
        omega
  | entry i =>
    rcases hret with hret | hret
    · obtain rfl : kind = .ret b := hret
      rw [RxQueue.genetReturnRxBuffer]
      simp only [if_true]
      exact h.retEntry ha
    · obtain rfl : kind = .stopRet b := hret
      exact h.stopRetEntry ha

theorem runAccess (h : Inv r buffers s) {a : Access} (ha : a ∈ s.accesses)
    (hundisturbed : a.step = .load → s.windows = []) : Inv r buffers (s.runAccess r buffers a) := by
  rw [RxQueue.runAccess]
  split
  · next hget => exact h.genetGetRxBuffer ha hget hundisturbed
  · next b hret => exact h.genetReturnRxBuffer ha (.inl hret) hundisturbed
  · next b hret => exact h.genetReturnRxBuffer ha (.inr hret) hundisturbed

/-! ## The calls of the queue -/

theorem accesses_closed (h : Inv r buffers s) (hwaits : s.call.waits = 0) (call : RxCall)
    (descBuffers : Nat → GenetRxBufferPtr) : total Access.ofQueue s.accesses = 0 ∧
      ∀ a ∈ s.accesses, AccessOk call descBuffers a.kind := by
  have hzero := h.waits.trans hwaits
  exact ⟨hzero, kinds_of_zero hzero call descBuffers⟩

/-- While the queue waits for no access, the top is not below the entries. -/
theorem entryCount_le_top (h : Inv r buffers s) (hwaits : s.call.waits = 0) :
    entryCount s.curFreeBuffer s.windows ≤ s.curFreeBuffer := by
  cases hws : s.windows with
  | nil => exact Nat.le_refl _
  | cons w ws =>
    cases w with
    | pushing i | popping i => exact Nat.le_refl _
    | pushed i => exact Nat.sub_le _ _
    | popped i =>
      obtain ⟨a, ha, hw⟩ := List.mem_filterMap.1 (hws ▸ List.mem_cons_self : _ ∈ s.windows)
      have hget := (Access.of_window_popped hw).1
      have hle := Lib.le_total Access.ofQueue ha
      rw [h.waits, hwaits, Access.ofQueue, hget] at hle
      exact absurd hle (Nat.not_succ_le_zero 0)

/-- A stopped queue has enough buffers for all descriptors. -/
theorem genetRxQueueStart (h : Inv r buffers s) (hidle : s.call = .idle)
    (hstarted : s.started = false) : Inv r buffers s.genetRxQueueStart := by
  have hwaits : s.call.waits = 0 := by rw [hidle]; rfl
  have hplaces := h.places
  have hok := h.call
  rw [attached, hidle, hstarted] at hplaces
  rw [hidle] at hok
  have htop : numDescs ≤ s.curFreeBuffer := by
    have hlen := hplaces.length
    have hwithOs := hplaces.withOs_le
    have hle := h.entryCount_le_top hwaits
    rw [length_freeList, length_attachedOf, numBuffers] at hlen
    simp only [attachedRange, Bool.false_eq_true, if_false] at hlen
    omega
  refine { h with
    places := hplaces
    reserve := ?_
    waits := (h.accesses_closed hwaits (.start 0) s.descBuffers).1
    kinds := (h.accesses_closed hwaits (.start 0) s.descBuffers).2
    addresses := fun desc _ hlt => absurd hlt (Nat.not_lt_zero _)
    counters := ⟨rfl, rfl, rfl, rfl, Nat.le_refl 0, Nat.le_refl 0, Nat.le_refl 0, Nat.zero_le _⟩
    call := ⟨hstarted, Nat.zero_le _, hok⟩
    asserted := ?_ }
  · show numDescs ≤ available s.curFreeBuffer s.windows
    exact Nat.le_trans htop (le_available _ _)
  · show (s.asserted && decide (numDescs ≤ s.curFreeBuffer)) = true
    rw [h.asserted, decide_eq_true htop]
    rfl

/-- The queue begins to get a buffer, which it counts on. -/
theorem beginGet (h : Inv r buffers s) (hwaits : s.call.waits = 0) {call : RxCall}
    (hcall : (∃ curDesc, call = .startGet curDesc) ∨ ∃ l, call = .advanceGet l)
    (hrange : attachedRange s.started call = attachedRange s.started s.call)
    (hreserve : call.reserve ≤ available s.curFreeBuffer s.windows) (hok : CallOk r s call) :
    Inv r buffers (s.beginGet call) := by
  have hplaces := h.places
  have haddresses := h.addresses
  rw [attached, ← hrange] at hplaces
  rw [← hrange] at haddresses
  refine { h with
    places := hplaces
    reserve := hreserve
    waits := ?_
    kinds := fun a ha => ?_
    addresses := haddresses
    call := ?_ }
  · show 1 + total Access.ofQueue s.accesses = call.waits
    rw [h.waits, hwaits]
    rcases hcall with ⟨curDesc, rfl⟩ | ⟨l, rfl⟩ <;> rfl
  · rcases List.mem_cons.1 ha with rfl | ha
    · exact hcall
    · exact (h.accesses_closed hwaits call s.descBuffers).2 a ha
  · show CallOk r _ call
    rcases hcall with ⟨curDesc, rfl⟩ | ⟨l, rfl⟩ <;> exact hok

theorem startDesc (h : Inv r buffers s) {curDesc : Nat} (hcall : s.call = .start curDesc) :
    Inv r buffers (s.startDesc curDesc) := by
  have hwaits : s.call.waits = 0 := by rw [hcall]; rfl
  have hok := h.call
  have hreserve := h.reserve
  rw [hcall] at hok hreserve
  obtain ⟨hstarted, hle, hpublished⟩ := hok
  rw [RxQueue.startDesc]
  split
  · next hlt =>
    exact h.beginGet hwaits (.inl ⟨curDesc, rfl⟩) (by rw [hcall]; rfl) hreserve
      ⟨hstarted, hlt, hpublished⟩
  · next hge =>
    obtain rfl : curDesc = numDescs := Nat.le_antisymm hle (Nat.le_of_not_lt hge)
    have hplaces := h.places
    have haddresses := h.addresses
    rw [attached, hcall] at hplaces
    rw [hcall] at haddresses
    have hclosed := h.accesses_closed hwaits .idle s.descBuffers
    exact { h with
      places := hplaces
      reserve := Nat.zero_le _
      waits := hclosed.1
      kinds := hclosed.2
      addresses := haddresses
      call := hpublished }

theorem genetRxQueueAdvance (h : Inv r buffers s) (hidle : s.call = .idle)
    (hstarted : s.started = true) : Inv r buffers s.genetRxQueueAdvance := by
  have hwaits : s.call.waits = 0 := by rw [hidle]; rfl
  have hplaces := h.places
  have haddresses := h.addresses
  have hpublished := h.call
  have hcounters := h.counters
  have hrings := h.rings
  rw [attached, hidle, hstarted] at hplaces
  rw [hidle, hstarted] at haddresses
  rw [hidle] at hpublished
  have hpublished : s.published = s.handed.length := hpublished
  have hbegin : s.fragmentRing.beginIndex = s.handed.length % r.fragments ∧
      s.packetRing.beginIndex = s.handed.length % r.packets := by
    rw [← hpublished]
    exact ⟨hrings.fragmentBegin, hrings.packetBegin⟩
  rw [RxQueue.genetRxQueueAdvance]
  split
  · next hcanceled =>
    exact { h with
      places := hplaces
      reserve := Nat.zero_le _
      waits := (h.accesses_closed hwaits .idle s.descBuffers).1
      kinds := (h.accesses_closed hwaits _ s.descBuffers).2
      addresses := haddresses
      call := ⟨hstarted, hbegin.1, hbegin.2, fun hnot => by
        cases hcanceled.symm.trans hnot⟩ }
  · next hcanceled =>
    refine { h with
      places := hplaces
      reserve := Nat.zero_le _
      waits := (h.accesses_closed hwaits .idle s.descBuffers).1
      kinds := (h.accesses_closed hwaits _ s.descBuffers).2
      addresses := haddresses
      counters := { hcounters with
        prodIndex := hcounters.consReg
        consumed_le := Nat.le_trans hcounters.consumed_le hcounters.seen_le
        seen_le := Nat.le_refl _ }
      call := ⟨hstarted, hbegin.1, hbegin.2, fun _ hremaining heq => ?_⟩ }
    -- the 16-bit indices differ, and so do the counts
    have hne : s.consIndex ≠ s.consReg := bne_iff_ne.1 hremaining
    have heq : s.consumed = s.received := heq
    exact hne (by rw [hcounters.consIndex, hcounters.consReg, heq])

/-- The next fragment of the driver is written. -/
theorem writeFragment (h : Inv r buffers s) {l : RxAdvance} (hcall : s.call = .advance l)
    (hlt : s.handed.length < s.fragmentsAdded) (fragment : RxFragment) :
    Inv r buffers
      { s with fragments := Function.update s.fragments l.fragmentIndex fragment } := by
  have hok := h.call
  have hrings := h.rings.setFragment hlt fragment
  rw [hcall] at hok
  rw [← hok.2.1] at hrings
  refine { h with
    rings := hrings
    call := ?_ }
  show CallOk r _ s.call
  rw [hcall]
  exact hok

theorem preparePacket (h : Inv r buffers s) {l : RxAdvance} (hcall : s.call = .advance l)
    (hpackets : s.handed.length < s.packetsAdded)
    (hfragments : s.handed.length < s.fragmentsAdded) : Inv r buffers (s.preparePacket l) := by
  have hwrite := h.writeFragment hcall hfragments
    { s.fragments l.fragmentIndex with capacity := genetRxBufferSize }
  have hok := h.call
  rw [hcall] at hok
  have hrings := hwrite.rings.setPacket hpackets
    { s.packets l.packetIndex with fragmentIndex := l.fragmentIndex, fragmentCount := 1 }
  rw [show s.handed.length % r.packets = l.packetIndex from hok.2.2.1.symm] at hrings
  refine { hwrite with
    rings := hrings
    call := ?_ }
  show CallOk r _ s.call
  rw [hcall]
  exact hok

/-- The loop goes over a descriptor. -/
theorem nextDesc (h : Inv r buffers s) {l : RxAdvance} (hcall : s.call = .advance l)
    (hcanceled : s.canceled = false) (hremaining : l.descsRemaining = true) :
    Inv r buffers { s with
      consIndex := (s.consIndex + 1) % 0x10000
      consumed := s.consumed + 1
      call := .advance { l with
        postedDescs := true
        fragmentDesc := s.consIndex % numDescs
        descsRemaining := (s.consIndex + 1) % 0x10000 != s.prodIndex } } := by
  have hwaits : s.call.waits = 0 := by rw [hcall]; rfl
  have hok := h.call
  have hplaces := h.places
  have haddresses := h.addresses
  have hcounters := h.counters
  rw [hcall] at hok haddresses
  rw [attached, hcall] at hplaces
  obtain ⟨hstarted, hfragment, hpacket, hseen⟩ := hok
  have hlt : s.consumed < s.seen :=
    Nat.lt_of_le_of_ne hcounters.consumed_le (hseen hcanceled hremaining)
  have hindex : (s.consIndex + 1) % 0x10000 = (s.consumed + 1) % 0x10000 := by
    rw [hcounters.consIndex, Nat.mod_add_mod]
  refine { h with
    places := hplaces
    reserve := Nat.zero_le _
    waits := (h.accesses_closed hwaits .idle s.descBuffers).1
    kinds := (h.accesses_closed hwaits _ s.descBuffers).2
    addresses := haddresses
    counters := { hcounters with
      consIndex := hindex
      refilled_le := Nat.le_succ_of_le hcounters.refilled_le
      consumed_le := hlt }
    call := ⟨hstarted, hfragment, hpacket, fun _ hremaining heq => ?_⟩ }
  have hne : (s.consIndex + 1) % 0x10000 ≠ s.prodIndex := bne_iff_ne.1 hremaining
  have heq : s.consumed + 1 = s.seen := heq
  exact hne (by rw [hindex, hcounters.prodIndex, heq])

theorem consumeDesc (h : Inv r buffers s) {l : RxAdvance} (hcall : s.call = .advance l)
    (hcanceled : s.canceled = false) (hremaining : l.descsRemaining = true)
    (hpackets : s.handed.length < s.packetsAdded)
    (hfragments : s.handed.length < s.fragmentsAdded) (htop : s.curFreeBuffer ≠ 0)
    (hindex : (s.packets l.packetIndex).fragmentIndex = l.fragmentIndex) :
    Inv r buffers (s.consumeDesc buffers l) := by
  have hnext := h.nextDesc hcall hcanceled hremaining
  rw [RxQueue.consumeDesc]
  split
  · have hwrite := (hnext.writeFragment rfl hfragments { s.fragments l.fragmentIndex with
        validLength := (s.bds (s.consIndex % numDescs)).lengthStatus / 0x10000 - 2
        offset := 2 }).writeFragment rfl hfragments
      { Function.update s.fragments l.fragmentIndex { s.fragments l.fragmentIndex with
          validLength := (s.bds (s.consIndex % numDescs)).lengthStatus / 0x10000 - 2
          offset := 2 } l.fragmentIndex with
        returnContext := s.descBuffers (s.consIndex % numDescs)
        virtualAddress := (s.descBuffers (s.consIndex % numDescs)).elim 0 fun b =>
          (buffers b).virtualAddress }
    have hok := hnext.call
    refine hwrite.beginGet rfl (.inr ⟨_, rfl⟩) rfl
      (Nat.le_trans (Nat.pos_of_ne_zero htop) (le_available _ _))
      ⟨hok.1, hok.2, hpackets, hfragments, hindex, fun _ => ⟨?_, s.consumed, rfl, ?_,
        h.counters.refilled_le⟩⟩
    · simp only [Function.update_self]
    · show s.consIndex % numDescs = s.consumed % numDescs
      rw [h.counters.consIndex, Nat.mod_mod_of_dvd _ (by decide)]
  · exact hnext

theorem advanceFragment (h : Inv r buffers s) {l : RxAdvance} (hcall : s.call = .advance l) :
    Inv r buffers (s.advanceFragment buffers l) := by
  have hwaits : s.call.waits = 0 := by rw [hcall]; rfl
  have hok := h.call
  have hrings := h.rings
  rw [hcall] at hok
  obtain ⟨hstarted, hnext⟩ := hok
  rw [RxQueue.advanceFragment]
  split
  · next hgo =>
    obtain ⟨hremaining, hfragment, hpacket, htop⟩ := hgo
    -- an index that is not at the end of its ring has a place for the OS
    have hfragments : s.handed.length < s.fragmentsAdded :=
      Nat.lt_of_le_of_ne hrings.fragments_le fun heq => hfragment (by
        rw [hnext.1, hrings.fragmentEnd, heq])
    have hpackets : s.handed.length < s.packetsAdded :=
      Nat.lt_of_le_of_ne hrings.packets_le fun heq => hpacket (by
        rw [hnext.2.1, hrings.packetEnd, heq])
    have hprepare := h.preparePacket hcall hpackets hfragments
    have hindex : ((s.preparePacket l).packets l.packetIndex).fragmentIndex = l.fragmentIndex := by
      simp only [RxQueue.preparePacket, Function.update_self]
    split
    · next hcanceled =>
      have hwrite := hprepare.writeFragment hcall hfragments
        { (s.preparePacket l).fragments l.fragmentIndex with validLength := 0, offset := 0 }
      exact hwrite.beginGet hwaits (.inr ⟨_, rfl⟩)
        (by show _ = attachedRange s.started s.call; rw [hcall]; rfl)
        (Nat.le_trans (Nat.pos_of_ne_zero htop) (le_available _ _))
        ⟨hstarted, hnext, hpackets, hfragments, hindex, fun hnot => by
          cases hcanceled.symm.trans hnot⟩
    · next hcanceled =>
      exact hprepare.consumeDesc hcall (Bool.eq_false_iff.2 hcanceled) hremaining hpackets
        hfragments htop hindex
  · have hplaces := h.places
    have haddresses := h.addresses
    rw [attached, hcall] at hplaces
    rw [hcall] at haddresses
    exact { h with
      places := hplaces
      reserve := Nat.zero_le _
      waits := (h.accesses_closed hwaits .idle s.descBuffers).1
      kinds := (h.accesses_closed hwaits _ s.descBuffers).2
      addresses := haddresses
      rings := { hrings with
        packetBegin := hnext.2.1
        fragmentBegin := hnext.1
        taken_le := Nat.le_trans hrings.taken_le hrings.published_le
        published_le := Nat.le_refl _ }
      call := ⟨hstarted, rfl⟩ }

theorem publish (h : Inv r buffers s) {postedDescs : Bool} (hcall : s.call = .publish postedDescs) :
    Inv r buffers (s.publish postedDescs) := by
  have hwaits : s.call.waits = 0 := by rw [hcall]; rfl
  have hok := h.call
  have hplaces := h.places
  have haddresses := h.addresses
  have hcounters := h.counters
  rw [hcall] at hok haddresses
  obtain ⟨hstarted, hpublished⟩ := hok
  rw [attached, hcall] at hplaces
  have hrange : attachedRange s.started .idle = (0, numDescs) := by
    rw [hstarted]
    rfl
  have hidle : Inv r buffers { s with call := .idle } :=
    { h with
      places := by
        rw [← show attachedRange s.started .idle = attachedRange s.started (.publish postedDescs)
          from hrange] at hplaces
        exact hplaces
      reserve := Nat.zero_le _
      waits := (h.accesses_closed hwaits .idle s.descBuffers).1
      kinds := (h.accesses_closed hwaits _ s.descBuffers).2
      addresses := by
        rw [← show attachedRange s.started .idle = attachedRange s.started (.publish postedDescs)
          from hrange] at haddresses
        exact haddresses
      call := hpublished }
  rw [RxQueue.publish]
  split
  · exact { hidle with
      counters := { hcounters with
        prodReg := hcounters.consIndex
        refilled_le := Nat.le_refl _
        received_le := Nat.le_trans hcounters.received_le
          (Nat.add_le_add_right hcounters.refilled_le _) } }
  · exact hidle

/-- `GenetRxQueueStop` begins. -/
theorem stop (h : Inv r buffers s) (hidle : s.call = .idle) (hstarted : s.started = true) :
    Inv r buffers { s with started := false, call := .stop 0 } := by
  have hwaits : s.call.waits = 0 := by rw [hidle]; rfl
  have hok := h.call
  have hplaces := h.places
  have haddresses := h.addresses
  rw [attached, hidle, hstarted] at hplaces
  rw [hidle, hstarted] at haddresses
  rw [hidle] at hok
  exact { h with
    places := hplaces
    reserve := Nat.zero_le _
    waits := (h.accesses_closed hwaits .idle s.descBuffers).1
    kinds := (h.accesses_closed hwaits _ s.descBuffers).2
    addresses := haddresses
    call := ⟨rfl, Nat.zero_le _, hok⟩ }

theorem stopDesc (h : Inv r buffers s) {curDesc : Nat} (hcall : s.call = .stop curDesc) :
    Inv r buffers (s.stopDesc curDesc) := by
  have hwaits : s.call.waits = 0 := by rw [hcall]; rfl
  have hok := h.call
  have hplaces := h.places
  have haddresses := h.addresses
  rw [hcall] at hok haddresses
  rw [attached, hcall] at hplaces
  have hplaces : Places r s.freeList (attachedOf s.descBuffers (curDesc, numDescs)) s.withOs :=
    hplaces
  obtain ⟨hstarted, hle, hpublished⟩ := hok
  rw [RxQueue.stopDesc]
  split
  · next hlt =>
    obtain ⟨b, -, hb⟩ := hplaces.mem (.inl (mem_attachedOf (Nat.le_refl _) hlt))
    rw [hb]
    refine { h with
      places := hplaces
      reserve := Nat.zero_le _
      waits := ?_
      kinds := fun a ha => ?_
      addresses := haddresses
      call := ⟨hstarted, hlt, hpublished⟩ }
    · show 1 + total Access.ofQueue s.accesses = 1
      rw [h.waits, hwaits]
    · rcases List.mem_cons.1 ha with rfl | ha
      · exact ⟨curDesc, rfl, hb⟩
      · exact (h.accesses_closed hwaits _ s.descBuffers).2 a ha
  · next hge =>
    obtain rfl : curDesc = numDescs := Nat.le_antisymm hle (Nat.le_of_not_lt hge)
    refine { h with
      places := ?_
      reserve := Nat.zero_le _
      waits := (h.accesses_closed hwaits .idle s.descBuffers).1
      kinds := (h.accesses_closed hwaits _ s.descBuffers).2
      addresses := fun desc _ hlt => ?_
      call := hpublished }
    · show Places r s.freeList (attachedOf s.descBuffers (attachedRange s.started .idle)) s.withOs
      rw [hstarted]
      exact hplaces
    · have hlt : desc < (attachedRange s.started .idle).2 := hlt
      rw [hstarted] at hlt
      exact absurd hlt (Nat.not_lt_zero _)

theorem clearDesc (h : Inv r buffers s) {curDesc : Nat} (hcall : s.call = .clear curDesc) :
    Inv r buffers (s.clearDesc curDesc) := by
  have hwaits : s.call.waits = 0 := by rw [hcall]; rfl
  have hok := h.call
  have hplaces := h.places
  have haddresses := h.addresses
  rw [hcall] at hok haddresses
  rw [attached, hcall] at hplaces
  obtain ⟨hstarted, hlt, hpublished⟩ := hok
  refine { h with
    places := ?_
    reserve := Nat.zero_le _
    waits := (h.accesses_closed hwaits .idle s.descBuffers).1
    kinds := (h.accesses_closed hwaits _ _).2
    addresses := fun desc hlo hhi => ?_
    call := ⟨hstarted, hlt, hpublished⟩ }
  · show Places r s.freeList
      (attachedOf (Function.update s.descBuffers curDesc none) (curDesc + 1, numDescs)) s.withOs
    rw [attachedOf_update (.inl (Nat.lt_succ_self _))]
    exact hplaces
  · show HasAddress buffers (s.bds desc) (Function.update s.descBuffers curDesc none desc)
    rw [Function.update_of_ne (Nat.ne_of_gt hlo)]
    exact haddresses desc hlo hhi

theorem turn (h : Inv r buffers s) : Inv r buffers (s.turn buffers) := by
  rw [RxQueue.turn]
  split
  · next hcall => exact h.startDesc hcall
  · next hcall => exact h.advanceFragment hcall
  · next hcall => exact h.publish hcall
  · next hcall => exact h.stopDesc hcall
  · next hcall => exact h.clearDesc hcall
  all_goals exact h

/-! ## The controller and the OS -/

theorem receive (h : Inv r buffers s) (lengthStatus : Nat)
    (hroom : (s.consReg + 0x10000 - s.prodReg) % 0x10000 < numDescs) :
    Inv r buffers (s.receive lengthStatus) := by
  have hcounters := h.counters
  have hrefilled := hcounters.refilled_le
  have hconsumed := hcounters.consumed_le
  have hseen := hcounters.seen_le
  have hreceived := hcounters.received_le
  refine { h with
    addresses := fun desc hlo hhi => ?_
    counters := { hcounters with
      consReg := ?_
      seen_le := Nat.le_succ_of_le hseen
      received_le := ?_ }
    call := h.call }
  · show HasAddress buffers (Function.update s.bds (s.consReg % numDescs) _ desc) _
    have hold := h.addresses desc hlo hhi
    by_cases hne : desc = s.consReg % numDescs
    · rw [← hne, Function.update_self]
      exact hold
    · rw [Function.update_of_ne hne]
      exact hold
  · show (s.consReg + 1) % 0x10000 = (s.received + 1) % 0x10000
    rw [hcounters.consReg, Nat.mod_add_mod]
  · show s.received + 1 ≤ s.refilled + numDescs
    rw [hcounters.consReg, hcounters.prodReg] at hroom
    rw [numDescs] at hroom hreceived ⊢
    omega

/-- More packets and fragments do not matter to a call. -/
theorem callOk_added (h : CallOk r s s.call) {packetRing fragmentRing : NetRing}
    {packetsAdded fragmentsAdded : Nat} (hpackets : s.packetsAdded ≤ packetsAdded)
    (hfragments : s.fragmentsAdded ≤ fragmentsAdded) :
    CallOk r { s with
      packetRing := packetRing
      fragmentRing := fragmentRing
      packetsAdded := packetsAdded
      fragmentsAdded := fragmentsAdded } s.call := by
  cases hcall : s.call with
  | advanceGet l =>
    rw [hcall] at h
    obtain ⟨hstarted, hnext, hp, hf, hrest⟩ := h
    exact ⟨hstarted, hnext, Nat.lt_of_lt_of_le hp hpackets, Nat.lt_of_lt_of_le hf hfragments,
      hrest⟩
  | _ => rw [hcall] at h; exact h

/-- The ring does not become full. -/
theorem added_succ_lt {n added taken : Nat} (hlt : added < taken + n)
    (hne : (added + 1) % n ≠ taken % n) : added + 1 < taken + n := by
  refine Nat.lt_of_le_of_ne hlt fun heq => hne ?_
  rw [heq, Nat.add_mod_right]

theorem addFragment (h : Inv r buffers s)
    (hroom : netRingIncrementIndex r.fragments s.fragmentRing.endIndex ≠ s.taken % r.fragments) :
    Inv r buffers (s.addFragment r) := by
  have hend : netRingIncrementIndex r.fragments s.fragmentRing.endIndex =
      (s.fragmentsAdded + 1) % r.fragments := by
    rw [h.rings.fragmentEnd, netRingIncrementIndex_mod r.fragments_pos r.fragments_le]
  rw [hend] at hroom
  exact { h with
    rings := { h.rings with
      fragmentEnd := hend
      fragments_le := Nat.le_succ_of_le h.rings.fragments_le
      fragments_lt := added_succ_lt h.rings.fragments_lt hroom }
    call := callOk_added h.call (Nat.le_refl _) (Nat.le_succ _) }

theorem addPacket (h : Inv r buffers s)
    (hroom : netRingIncrementIndex r.packets s.packetRing.endIndex ≠ s.taken % r.packets) :
    Inv r buffers (s.addPacket r) := by
  have hend : netRingIncrementIndex r.packets s.packetRing.endIndex =
      (s.packetsAdded + 1) % r.packets := by
    rw [h.rings.packetEnd, netRingIncrementIndex_mod r.packets_pos r.packets_le]
  rw [hend] at hroom
  exact { h with
    rings := { h.rings with
      packetEnd := hend
      packets_le := Nat.le_succ_of_le h.rings.packets_le
      packets_lt := added_succ_lt h.rings.packets_lt hroom }
    call := callOk_added h.call (Nat.le_succ _) (Nat.le_refl _) }

/-- The OS finds the next buffer that was handed to it. -/
theorem takePacket (h : Inv r buffers s) (hne : s.packetRing.beginIndex ≠ s.taken % r.packets) :
    Inv r buffers (s.takePacket r) := by
  have hrings := h.rings
  have hlt : s.taken < s.published := Nat.lt_of_le_of_ne hrings.taken_le fun heq => hne (by
    rw [hrings.packetBegin, heq])
  have hlen := Nat.lt_of_lt_of_le hlt hrings.published_le
  obtain ⟨hindex, hhandle⟩ := hrings.slots s.taken _ (Nat.le_refl _) (List.getElem?_eq_getElem hlen)
  have hpackets := hrings.packets_lt
  have hfragments := hrings.fragments_lt
  refine { h with
    places := h.places.of_perm ?_
    rings := { hrings with
      taken_le := hlt
      packets_lt := by show s.packetsAdded < s.taken + 1 + _; omega
      fragments_lt := by show s.fragmentsAdded < s.taken + 1 + _; omega
      slots := fun n p hn hp => hrings.slots n p (Nat.le_of_succ_le hn) hp }
    call := h.call }
  show (s.handed.drop (s.taken + 1) ++ ((s.fragments (s.packets (s.taken % r.packets)).fragmentIndex
    ).returnContext :: s.held) ++ _).Perm (s.handed.drop s.taken ++ s.held ++ _)
  rw [hindex, hhandle, List.drop_eq_getElem_cons hlen]
  exact List.perm_middle.append_right _

theorem returnRxBuffer (h : Inv r buffers s) {handle : GenetRxBufferPtr}
    (hheld : handle = none ∨ handle ∈ s.held) : Inv r buffers (s.returnRxBuffer handle) := by
  cases handle with
  | none => exact h
  | some b =>
    have hmem : some b ∈ s.held := hheld.resolve_left (Option.some_ne_none b)
    refine { h with
      places := h.places.of_perm ?_
      waits := ?_
      kinds := fun a ha => ?_
      call := h.call }
    · show (_ ++ s.held.erase (some b) ++ (some b :: _)).Perm (_ ++ s.held ++ _)
      refine List.perm_middle.trans ?_
      rw [← List.cons_append]
      refine List.Perm.append_right _ (List.perm_middle.symm.trans ?_)
      exact (List.perm_cons_erase hmem).symm.append_left _
    · show 0 + total Access.ofQueue s.accesses = s.call.waits
      rw [Nat.zero_add, h.waits]
    · rcases List.mem_cons.1 ha with rfl | ha
      · trivial
      · exact h.kinds a ha

theorem effect (h : Inv r buffers s) {a : RxAction} (hok : Undisturbed s a)
    (henabled : s.Enabled r a) : Inv r buffers (s.effect r buffers a) := by
  cases a with
  | start => exact h.genetRxQueueStart henabled.1 henabled.2
  | advance => exact h.genetRxQueueAdvance henabled.1 henabled.2
  | cancel =>
    have hidle : s.call = .idle := henabled
    have hcall := h.call
    refine { h with call := ?_ }
    show CallOk r _ s.call
    rw [hidle] at hcall ⊢
    exact hcall
  | stop => exact h.stop henabled.1 henabled.2
  | turn => exact h.turn
  | access a => exact h.runAccess henabled hok
  | returnRxBuffer handle => exact h.returnRxBuffer henabled
  | takePacket => exact h.takePacket henabled
  | addFragment => exact h.addFragment henabled
  | addPacket => exact h.addPacket henabled
  | receive lengthStatus => exact h.receive lengthStatus henabled.2

/-! ## Every run -/

/-- Two descriptors do not have the same buffer. -/
theorem descBuffers_inj (h : Inv r buffers s)
    (hrange : attachedRange s.started s.call = (0, numDescs)) {desc desc' : Nat}
    (hdesc : desc < numDescs) (hdesc' : desc' < numDescs)
    (heq : s.descBuffers desc' = s.descBuffers desc) : desc' = desc := by
  have hnodup := h.places.perm.nodup_iff.2 (nodup_allBuffers r)
  have hattached := (List.nodup_append.1 (List.nodup_append.1 hnodup).1).2.1
  rw [attached, hrange] at hattached
  exact List.inj_on_of_nodup_map hattached (List.mem_range'_1.2 ⟨Nat.zero_le _, by omega⟩)
    (List.mem_range'_1.2 ⟨Nat.zero_le _, by omega⟩) heq

/-- A started queue has a buffer for each descriptor. -/
theorem attachedRange_started (h : Inv r buffers s) (hstarted : s.started = true) :
    attachedRange s.started s.call = (0, numDescs) := by
  have hok := h.call
  cases hcall : s.call with
  | idle => rw [hstarted]; rfl
  | advance l | advanceGet l | publish p => rfl
  | start d | startGet d | stop d | stopReturn d | clear d =>
    rw [hcall] at hok
    cases hok.1.symm.trans hstarted

/-- The controller is past the descriptor that the driver goes over. -/
theorem not_mayFill (h : Inv r buffers s) {l : RxAdvance} (hcall : s.call = .advanceGet l)
    (hcanceled : s.canceled = false) : ¬ s.MayFill l.fragmentDesc := by
  rintro ⟨-, k, hroom, hdesc⟩
  have hok := h.call
  have hcounters := h.counters
  rw [hcall] at hok
  obtain ⟨-, n, hconsumed, hn, hrefilled⟩ := hok.2.2.2.2.2 hcanceled
  have hconsumed_le := hcounters.consumed_le
  have hseen := hcounters.seen_le
  have hreceived := hcounters.received_le
  rw [hcounters.consReg, hcounters.prodReg] at hroom
  rw [hcounters.consReg, hn] at hdesc
  rw [numDescs] at hroom hdesc hreceived
  omega

theorem sound (h : Inv r buffers s) : RxBuffersSound r buffers s where
  onePlace := h.places.perm
  filled hstarted desc hdesc := by
    have hrange := h.attachedRange_started hstarted
    have hplaces := h.places
    have haddress := h.addresses desc
    rw [hrange] at haddress
    rw [attached, hrange] at hplaces
    obtain ⟨b, hb, hbuffer⟩ := hplaces.mem (.inl (mem_attachedOf (Nat.zero_le _) hdesc))
    refine ⟨b, hb, hbuffer, hbuffer ▸ haddress (Nat.zero_le _) hdesc, fun desc' hdesc' heq => ?_⟩
    exact h.descBuffers_inj hrange hdesc hdesc' (heq.trans hbuffer.symm)
  notFilling l hcall hcanceled := h.not_mayFill hcall hcanceled
  asserted := h.asserted

end Inv

end RxQueue

theorem RxQueue.inv_of_undisturbed {r : Rings} {buffers : Nat → GenetRxBuffer} {s : RxQueue}
    (h : (rxMachine r buffers).Reach Undisturbed s) : RxQueue.Inv r buffers s := by
  refine Machine.Reach.inv_guarded ?_ (fun s a hinv hok hen => ?_) h
  · rintro _ ⟨packets, fragments, descBuffers, bds, rfl⟩
    exact RxQueue.Inv.of_create packets fragments descBuffers bds
  · exact hinv.effect hok hen

/-- **A run is sound in which no access reads the top of the stack while another one is between its
read and its entry.** -/
theorem rxBuffersSound_of_undisturbed {r : Rings} {buffers : Nat → GenetRxBuffer} {s : RxQueue}
    (h : (rxMachine r buffers).Reach Undisturbed s) : RxBuffersSound r buffers s :=
  (RxQueue.inv_of_undisturbed h).sound

/-! ## A run that the condition allows, and one that it does not -/

/-- `GenetRxQueueStart` gets a buffer for each descriptor. -/
def startRun : List RxAction :=
  .start :: ((List.range numDescs).flatMap fun desc =>
    let i := numBuffers smallRings - 1 - desc
    [.turn, .access ⟨.get, .check⟩, .access ⟨.get, .load⟩, .access ⟨.get, .storeIndex i⟩,
      .access ⟨.get, .entry i⟩]) ++ [RxAction.turn]

/-- A packet arrives, is handed over and taken, and the OS begins to return its buffer. -/
def returnRun : List RxAction :=
  startRun ++
    [RxAction.addFragment, .addFragment, .addPacket, .addPacket, .receive 0x406000, .advance,
      .turn, .access ⟨.get, .check⟩, .access ⟨.get, .load⟩, .access ⟨.get, .storeIndex 263⟩,
      .access ⟨.get, .entry 263⟩, .turn, .turn, .takePacket, .returnRxBuffer (some 519),
      .access ⟨.ret 519, .check⟩, .access ⟨.ret 519, .load⟩]

/-- The buffer is returned; the queue is canceled, hands over one more buffer and is stopped. -/
def canceledRun : List RxAction :=
  returnRun ++
    [RxAction.access ⟨.ret 519, .storeIndex 263⟩, .access ⟨.ret 519, .entry 263⟩, .cancel,
      .advance, .turn, .access ⟨.get, .check⟩, .access ⟨.get, .load⟩, .access ⟨.get, .storeIndex 263⟩,
      .access ⟨.get, .entry 263⟩, .turn, .turn, .stop, .turn, .access ⟨.stopRet 263, .check⟩]

/-- Before the buffer is stored, the next packet arrives and its descriptor gets another one. -/
def raceRun : List RxAction :=
  returnRun ++
    [RxAction.receive 0x406000, .advance, .turn, .access ⟨.get, .check⟩, .access ⟨.get, .load⟩,
      .access ⟨.get, .storeIndex 262⟩, .access ⟨.get, .entry 262⟩,
      .access ⟨.ret 519, .storeIndex 263⟩, .access ⟨.ret 519, .entry 263⟩, .turn, .turn]

def smallBuffers : Nat → GenetRxBuffer := fun b => ⟨0x80000000 + 0x1000 * b, 0x1000 * b⟩

def createdRxQueue : RxQueue :=
  .genetCreateRxQueue smallRings (fun _ => ⟨false, 0, 0⟩) (fun _ => ⟨0, 0, 0, 0, none⟩)
    (fun _ => none) (fun _ => ⟨0, 0, 0⟩)

theorem createdRxQueue_init : (rxMachine smallRings smallBuffers).init createdRxQueue :=
  ⟨_, _, _, _, rfl⟩

theorem rxBuffersSound_of_undisturbed_canceled :
    ∃ s, (rxMachine smallRings smallBuffers).Reach Undisturbed s ∧
      RxBuffersSound smallRings smallBuffers s ∧ s.canceled = true ∧ s.curFreeBuffer = 263 := by
  obtain ⟨s, hs, hp⟩ := Machine.reach_execOk_any (rxMachine smallRings smallBuffers) Undisturbed
    canceledRun (p := fun s => s.canceled && s.curFreeBuffer == 263) createdRxQueue_init
    (by decide +kernel)
  simp only [Bool.and_eq_true, beq_iff_eq] at hp
  exact ⟨s, hs, rxBuffersSound_of_undisturbed hs, hp⟩

/-- The OS stores the buffer above an entry that the queue has popped since: that one is both free
and attached to a descriptor. -/
theorem buffer_in_two_places :
    ∃ s, (rxMachine smallRings smallBuffers).Reachable s ∧
      ¬ RxBuffersSound smallRings smallBuffers s ∧ s.windows = [] ∧ s.curFreeBuffer = 264 ∧
      s.freeBuffers 262 = some 262 ∧ s.descBuffers 1 = some 262 := by
  obtain ⟨s, hs, hp⟩ := Machine.reach_exec_any (rxMachine smallRings smallBuffers) raceRun
    (p := fun s => s.windows == [] && s.curFreeBuffer == 264 && s.freeBuffers 262 == some 262 &&
      s.descBuffers 1 == some 262 && s.withOs.length == 1 && s.call == .idle && s.started)
    createdRxQueue_init (by decide +kernel)
  simp only [Bool.and_eq_true, beq_iff_eq] at hp
  obtain ⟨⟨⟨⟨⟨⟨hws, htop⟩, hfree⟩, hdesc⟩, hos⟩, hcall⟩, hstarted⟩ := hp
  refine ⟨s, hs, fun h => ?_, hws, htop, hfree, hdesc⟩
  -- there are more buffers in the three places than the queue has
  have hlen := h.onePlace.length_eq
  simp only [List.length_append, RxQueue.freeList, length_stackEntries, RxQueue.attached,
    length_attachedOf, length_allBuffers, hws, htop, hos, hcall, hstarted] at hlen
  exact absurd hlen (by decide)

end RpiDrivers.Genet
