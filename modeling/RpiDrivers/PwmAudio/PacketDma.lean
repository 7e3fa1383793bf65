import RpiDrivers.Lib.Machine
import Mathlib.Algebra.Ring.Nat

/-!
# Audio packets and their DMA (`dma.cpp`, `dmaInterrupt.cpp`, `minwavertstream.cpp`)

Each audio packet has two control blocks, and the second raises an interrupt. The audio driver links
a packet by writing the address of its first control block into the second one of the packet before.
The interrupt finds out from `CONBLK_AD` which packet has been completed, counts the packets since
the one before, and unlinks them; after an underflow `SOURCE_AD` tells.

- `pwmMachine`: the audio driver, the DMA engine, the interrupt and its DPCs, interleaved.
- `AccountingSound`: what is added to `dmaPacketsProcessed` are the packets that have completed.
- `Marks`: the registers say which packet it is. `Accounted`: the condition.
-/

namespace RpiDrivers.PwmAudio

open RpiDrivers.Lib

/-! ## Control blocks -/

/-- A bus address, and the control block that is there. -/
structure BusPointer where
  address : Nat
  cb : Nat

def BusPointer.null : BusPointer := ⟨0, 0⟩

/-- `DMA_CB` -/
structure DmaCb where
  sourceAd : Nat
  txfrLen : Nat
  nextConbk : BusPointer
  /-- `DMA_TI_INTEN` -/
  inten : Bool

/-- `DMA_BUFFER_SIZE` -/
def dmaBufferSize : Nat := 65536

/-- `AUDIO_PACKET_LAST_CHUNK_SIZE` -/
def audioPacketLastChunkSize : Nat := 32

/-- `sizeof(DMA_CB)` -/
def dmaCbSize : Nat := 32

/-- `NO_LAST_COMPLETED_PACKET` -/
def noLastCompletedPacket : Nat := 0xFFFFFFFF

/-- What `InitializeAudio` sets up, and what it has checked. -/
structure Config where
  dmaCbPa : Nat
  dmaBufferPa : Nat
  memUncachedOffset : Nat
  packetSize : Nat
  /-- `sizeof(BCM_PWM_PACKET_LINK_INFO)` -/
  linkInfoSize : Nat
  dmaCbPa_le : dmaCbPa + 4096 ≤ 0x100000000
  dmaBufferPa_le : dmaBufferPa + dmaBufferSize ≤ 0x100000000
  memUncachedOffset_lt : memUncachedOffset < 0x100000000
  lt_packetSize : audioPacketLastChunkSize < packetSize
  packetSize_le : packetSize ≤ dmaBufferSize
  numPackets_le : dmaBufferSize / packetSize ≤ 4096 / (2 * dmaCbSize + linkInfoSize)

namespace Config

variable (cfg : Config)

def dmaNumPackets : Nat := dmaBufferSize / cfg.packetSize

def packetFirstChunkSize : Nat := cfg.packetSize - audioPacketLastChunkSize

/-- The packet that is shorter by a sample, to correct the drift. -/
def correctionDropPacketIndex : Nat :=
  let correctionDropPacketCount := 5320 / (cfg.packetSize / 8)
  if cfg.dmaNumPackets < correctionDropPacketCount then cfg.dmaNumPackets - 1
  else (correctionDropPacketCount + 0xFFFFFFFF) % 0x100000000

/-- The first control block of a packet. -/
def firstCb (i : Nat) : DmaCb where
  sourceAd := (cfg.dmaBufferPa + i * cfg.packetSize + cfg.memUncachedOffset) % 0x100000000
  txfrLen :=
    if i = cfg.correctionDropPacketIndex then cfg.packetFirstChunkSize - 8
    else cfg.packetFirstChunkSize
  nextConbk :=
    ⟨(cfg.dmaCbPa + (2 * i + 1) * dmaCbSize + cfg.memUncachedOffset) % 0x100000000, 2 * i + 1⟩
  inten := false

/-- The second control block of a packet, which is linked to none. -/
def secondCb (i : Nat) : DmaCb where
  sourceAd :=
    (cfg.dmaBufferPa + i * cfg.packetSize + cfg.packetFirstChunkSize + cfg.memUncachedOffset) %
      0x100000000
  txfrLen := audioPacketLastChunkSize
  nextConbk := .null
  inten := true

/-- The control blocks of `InitializeAudio`. -/
def controlBlocks (j : Nat) : DmaCb :=
  if j % 2 = 0 then cfg.firstCb (j / 2) else cfg.secondCb (j / 2)

/-- `LinkPtr`: the control block whose `NEXTCONBK` links the packet. -/
def linkPtr (i : Nat) : Nat :=
  if i = 0 then 2 * (cfg.dmaNumPackets - 1) + 1 else 2 * (i - 1) + 1

/-- `LinkValue`: the physical address of the first control block. -/
def linkValue (i : Nat) : BusPointer := ⟨cfg.dmaCbPa + i * 2 * dmaCbSize, 2 * i⟩

/-- `FIRST_CB_ADDRESS_OF_PACKET` -/
def firstCbAddress (i : Nat) : Nat := cfg.dmaCbPa + 2 * i * dmaCbSize

/-- What `StartDma` writes to `CONBLK_AD`. -/
def startPointer : BusPointer := ⟨(cfg.dmaCbPa + cfg.memUncachedOffset) % 0x100000000, 0⟩

end Config

/-! ## The count of packets -/

/-- `PREVIOUS_PACKET_INDEX` -/
def previousPacketIndex (currentPacket numPackets : Nat) : Nat :=
  if currentPacket ≠ 0 then currentPacket - 1 else numPackets - 1

/-- The loop over the packets from `i` on, which ends at an address that is not below `value`. -/
def scanPackets (address : Nat → Nat) (value i : Nat) : Nat → Nat
  | 0 => i
  | left + 1 => if address i < value then scanPackets address value (i + 1) left else i

/-- `GetNumberOfProcessedPackets` -/
def getNumberOfProcessedPackets (completedPacket lastKnownCompletedPacket numPackets : Nat) : Nat :=
  if lastKnownCompletedPacket = noLastCompletedPacket then completedPacket + 1
  else if lastKnownCompletedPacket < completedPacket then completedPacket - lastKnownCompletedPacket
  else completedPacket + numPackets - lastKnownCompletedPacket

/-- The packets that the loop of the interrupt unlinks. -/
def packetsToUnlink (numPackets packetToUnlink : Nat) : Nat → List Nat
  | 0 => []
  | left + 1 =>
    packetToUnlink ::
      packetsToUnlink numPackets (previousPacketIndex packetToUnlink numPackets) left

/-! ## The parties -/

/-- Where the interrupt is: what it has read from `CONBLK_AD` and `CS`, and how many packets had
completed when it read `CONBLK_AD`. -/
inductive Isr
  | idle
  | conblk (conblkAd upTo : Nat)
  | cs (conblkAd upTo : Nat) (int active : Bool)
  | acknowledged (conblkAd upTo : Nat) (active : Bool)
  deriving DecidableEq

/-- Where the audio driver is. -/
inductive Audio
  | idle
  /-- there is room for a packet -/
  | checked
  /-- the packet is linked, but not counted -/
  | linked
  /-- about to call `IOCTL_BCM_PWM_START_AUDIO` -/
  | starting
  deriving DecidableEq

/-- A count of packets: what is added to `dmaPacketsProcessed`, the packets that have completed
since the previous count, those that are unlinked, and how far the engine is. -/
structure Count where
  added : Nat
  completed : Nat
  unlinked : List Nat
  engine : Nat

/-- The two drivers and the DMA engine. Packets are numbered from the last restart on. -/
structure Pwm where
  /-- 0 when the engine has stopped -/
  conblkAd : BusPointer
  sourceAd : Nat
  active : Bool
  int : Bool
  dmaCb : Nat → DmaCb
  dmaPacketsInUse : Nat
  dmaPacketsProcessed : Nat
  dmaLastKnownCompletedPacket : Nat
  dmaRestartRequired : Bool
  isr : Isr
  dpcQueued : Bool
  /-- the DPCs that are about to call `HandleUnderflow` -/
  dpcs : Nat
  audio : Audio
  /-- `m_PwmState == KSSTATE_RUN` -/
  running : Bool
  restartInProgress : Bool
  /-- the packets that are linked; the number of the next one -/
  linked : Nat
  /-- the packets that have been added to `dmaPacketsInUse` -/
  added : Nat
  /-- the packets that the engine has completed -/
  completed : Nat
  /-- the packets that have been counted -/
  counted : Nat
  /-- the packets before the last restart -/
  before : Nat
  /-- the packet that is linked at an index -/
  owner : Nat → Option Nat
  counts : List Count
  /-- no assertion has failed -/
  asserted : Bool

namespace Pwm

variable (cfg : Config) (s : Pwm)

/-! ### The DMA engine -/

/-- The engine has come to the offset `x` of the control block. -/
def progress (x : Nat) : Pwm :=
  { s with sourceAd := ((s.dmaCb s.conblkAd.cb).sourceAd + x) % 0x100000000 }

/-- The engine follows `NEXTCONBK` of the control block that it has completed, or stops. -/
def load (cb : DmaCb) : Pwm :=
  if cb.nextConbk.address = 0 then
    { s with
      conblkAd := .null
      sourceAd := (cb.sourceAd + cb.txfrLen) % 0x100000000
      active := false }
  else
    { s with
      conblkAd := cb.nextConbk
      sourceAd := (s.dmaCb cb.nextConbk.cb).sourceAd }

/-- The engine completes its control block, and loads the next one. -/
def finish : Pwm :=
  let cb := s.dmaCb s.conblkAd.cb
  if cb.inten then { s with int := true, completed := s.completed + 1 }.load cb else s.load cb

/-! ### Linking packets -/

/-- `*LinkPtr = value` -/
def setLink (dmaCb : Nat → DmaCb) (i : Nat) (value : BusPointer) : Nat → DmaCb := fun j =>
  if j = cfg.linkPtr i then { dmaCb j with nextConbk := value } else dmaCb j

/-- `*LinkPtr = 0`, for the packets of a loop. -/
def unlink (dmaCb : Nat → DmaCb) : List Nat → Nat → DmaCb
  | [] => dmaCb
  | i :: is => unlink (setLink cfg dmaCb i .null) is

/-- `AddPacketToDma`, until the packet is linked. -/
def link : Pwm :=
  let packetIndex := s.linked % cfg.dmaNumPackets
  { s with
    dmaCb := setLink cfg s.dmaCb packetIndex (cfg.linkValue packetIndex)
    owner := fun i => if i = packetIndex then some s.linked else s.owner i
    linked := s.linked + 1
    audio := .linked }

/-- The increment at the end of `AddPacketToDma`. -/
def increment : Pwm :=
  { s with
    dmaPacketsInUse := (s.dmaPacketsInUse + 1) % 0x100000000
    added := s.added + 1
    audio := .idle }

/-- `SetWritePacket` processes a restart request. -/
def restart : Pwm :=
  { s with
    dmaCb := unlink cfg s.dmaCb (List.range cfg.dmaNumPackets)
    dmaPacketsInUse := 0
    running := false
    restartInProgress := true
    linked := 0
    added := 0
    completed := 0
    counted := 0
    before := s.before + s.completed
    owner := fun _ => none }

/-- `SetWritePacket` handles the restart flags. -/
def clearRestart : Pwm :=
  { s with
    dmaRestartRequired := s.dmaRestartRequired && !s.restartInProgress
    restartInProgress := false
    audio := .starting }

/-- `StartAudio` -/
def startAudio : Pwm :=
  { s with
    dmaLastKnownCompletedPacket := noLastCompletedPacket
    dmaRestartRequired := false
    conblkAd := if cfg.startPointer.address = 0 then .null else cfg.startPointer
    sourceAd := (s.dmaCb 0).sourceAd
    active := decide (cfg.startPointer.address ≠ 0)
    int := false
    running := true
    audio := .idle }

/-! ### `HandleUnderflow`, `DmaIsr` and `DmaDpc` -/

/-- The assertions after a packet has been found. -/
def packetAsserted (completedPacket processedPackets : Nat) : Bool :=
  decide (completedPacket < cfg.dmaNumPackets) && decide (processedPackets ≠ 0) &&
    decide (processedPackets ≤ cfg.dmaNumPackets)

/-- The counters after an underflow. -/
def underflow (completedPacket processedPackets : Nat) : Pwm :=
  { s with
    dmaPacketsInUse := 0
    dmaPacketsProcessed := (s.dmaPacketsProcessed + processedPackets) % 0x100000000
    dmaRestartRequired := true
    counted := s.completed
    counts := s.counts ++ [⟨processedPackets, s.completed - s.counted, [], s.completed⟩]
    asserted :=
      s.asserted && decide (s.sourceAd ≠ 0) && packetAsserted cfg completedPacket processedPackets }

/-- `HandleUnderflow`. When `CONBLK_AD` is not 0, it is a pause. -/
def handleUnderflow : Pwm :=
  if s.conblkAd.address ≠ 0 then s
  else
    let currentPacket :=
      scanPackets (fun i => (s.dmaCb (2 * i)).sourceAd) s.sourceAd 0 cfg.dmaNumPackets
    let completedPacket := previousPacketIndex currentPacket cfg.dmaNumPackets
    s.underflow cfg completedPacket
      (getNumberOfProcessedPackets completedPacket s.dmaLastKnownCompletedPacket cfg.dmaNumPackets)

/-- The packets are unlinked, and the counters adjusted. -/
def unlinkPackets (conblkAd upTo completedPacket processedPackets : Nat) : Pwm :=
  let unlinked := packetsToUnlink cfg.dmaNumPackets completedPacket processedPackets
  { s with
    dmaLastKnownCompletedPacket := completedPacket
    dmaCb := unlink cfg s.dmaCb unlinked
    owner := fun i => if i ∈ unlinked then none else s.owner i
    dmaPacketsInUse := (s.dmaPacketsInUse + (0x100000000 - processedPackets)) % 0x100000000
    dmaPacketsProcessed := (s.dmaPacketsProcessed + processedPackets) % 0x100000000
    counted := upTo - s.before
    counts :=
      s.counts ++
        [⟨processedPackets, upTo - (s.before + s.counted), unlinked.filterMap s.owner, s.completed⟩]
    asserted :=
      s.asserted && decide (conblkAd ≠ 0) && packetAsserted cfg completedPacket processedPackets }

/-- The interrupt counts and unlinks packets. -/
def countPackets (conblkAd upTo : Nat) : Pwm :=
  let currentPacket := scanPackets cfg.firstCbAddress conblkAd 0 cfg.dmaNumPackets
  let completedPacket := previousPacketIndex currentPacket cfg.dmaNumPackets
  s.unlinkPackets cfg conblkAd upTo completedPacket
    (getNumberOfProcessedPackets completedPacket s.dmaLastKnownCompletedPacket cfg.dmaNumPackets)

/-- All write-1-to-clear flags that have been read are cleared, and `ACTIVE` is written back. -/
def acknowledge (conblkAd upTo : Nat) (int active : Bool) : Pwm :=
  { s with
    int := s.int && !int
    active := active && decide (s.conblkAd.address ≠ 0)
    isr := if int then .acknowledged conblkAd upTo active else .idle }

/-- `DmaIsr`, after it has read and written the registers. -/
def processInterrupt (conblkAd upTo : Nat) (active : Bool) : Pwm :=
  if active then { s.countPackets cfg conblkAd upTo with isr := .idle, dpcQueued := true }
  else
    let s := { s with asserted := s.asserted && decide (conblkAd = 0) }
    { s.handleUnderflow cfg with isr := .idle, dpcQueued := true }

/-- `DmaDpc` looks whether the DMA has stopped. -/
def readDpc : Pwm :=
  { s with
    dpcQueued := false
    dpcs := if s.active = false ∧ s.dmaRestartRequired = false then s.dpcs + 1 else s.dpcs }

/-- Before the first packet. -/
def start : Pwm where
  conblkAd := .null
  sourceAd := 0
  active := false
  int := false
  dmaCb := cfg.controlBlocks
  dmaPacketsInUse := 0
  dmaPacketsProcessed := 0
  dmaLastKnownCompletedPacket := noLastCompletedPacket
  dmaRestartRequired := false
  isr := .idle
  dpcQueued := false
  dpcs := 0
  audio := .idle
  running := false
  restartInProgress := false
  linked := 0
  added := 0
  completed := 0
  counted := 0
  before := 0
  owner := fun _ => none
  counts := []
  asserted := true

end Pwm

/-! ## The machine -/

inductive PwmAction
  | progress (x : Nat)
  | finish
  | check
  | link
  | increment
  | restart
  | clearRestart
  | startAudio
  | readConblk
  | readCs (conblkAd upTo : Nat)
  | acknowledge (conblkAd upTo : Nat) (int active : Bool)
  | processInterrupt (conblkAd upTo : Nat) (active : Bool)
  | readDpc
  | handleUnderflow

namespace Pwm

/-- When a step can happen. -/
def enabled (cfg : Config) (s : Pwm) : PwmAction → Prop
  | .progress x => s.active = true ∧ x ≤ (s.dmaCb s.conblkAd.cb).txfrLen
  | .finish => s.active = true
  | .check =>
    s.audio = .idle ∧ (s.restartInProgress = true ∨ s.dmaRestartRequired = false) ∧
      if s.running then s.dmaPacketsInUse ≠ cfg.dmaNumPackets else s.linked < cfg.dmaNumPackets
  | .link => s.audio = .checked
  | .increment => s.audio = .linked
  | .restart => s.audio = .idle ∧ s.restartInProgress = false ∧ s.dmaRestartRequired = true
  | .clearRestart => s.audio = .idle ∧ s.running = false ∧ 0 < s.linked
  | .startAudio => s.audio = .starting
  | .readConblk => s.isr = .idle
  | .readCs conblkAd upTo => s.isr = .conblk conblkAd upTo
  | .acknowledge conblkAd upTo int active => s.isr = .cs conblkAd upTo int active
  | .processInterrupt conblkAd upTo active => s.isr = .acknowledged conblkAd upTo active
  | .readDpc => s.dpcQueued = true
  | .handleUnderflow => 0 < s.dpcs

instance (cfg : Config) : ∀ (s : Pwm) (a : PwmAction), Decidable (s.enabled cfg a)
  | _, .progress _ => inferInstanceAs (Decidable (_ ∧ _))
  | s, .check =>
    inferInstanceAs (Decidable (_ ∧ _ ∧ if s.running then _ else _))
  | _, .restart | _, .clearRestart => inferInstanceAs (Decidable (_ ∧ _ ∧ _))
  | _, .handleUnderflow => inferInstanceAs (Decidable (_ < _))
  | _, .finish | _, .link | _, .increment | _, .startAudio | _, .readConblk | _, .readCs ..
  | _, .acknowledge .. | _, .processInterrupt .. | _, .readDpc =>
    inferInstanceAs (Decidable (_ = _))

def effect (cfg : Config) (s : Pwm) : PwmAction → Pwm
  | .progress x => s.progress x
  | .finish => s.finish
  | .check => { s with audio := .checked }
  | .link => s.link cfg
  | .increment => s.increment
  | .restart => s.restart cfg
  | .clearRestart => s.clearRestart
  | .startAudio => s.startAudio cfg
  | .readConblk => { s with isr := .conblk s.conblkAd.address (s.before + s.completed) }
  | .readCs conblkAd upTo => { s with isr := .cs conblkAd upTo s.int s.active }
  | .acknowledge conblkAd upTo int active => s.acknowledge conblkAd upTo int active
  | .processInterrupt conblkAd upTo active => s.processInterrupt cfg conblkAd upTo active
  | .readDpc => s.readDpc
  | .handleUnderflow => { s.handleUnderflow cfg with dpcs := s.dpcs - 1 }

end Pwm

/-- All interleavings. -/
def pwmMachine (cfg : Config) : Machine Pwm PwmAction :=
  Machine.guarded (· = Pwm.start cfg) (Pwm.enabled cfg) (Pwm.effect cfg)

/-! ## The property and the condition -/

/-- Each count adds the packets that have completed since the previous one and unlinks no others,
`dmaPacketsInUse` is the packets that have been added and not counted, and no assertion fails. -/
structure AccountingSound (s : Pwm) : Prop where
  counts : ∀ c ∈ s.counts, c.added = c.completed
  unlinked : ∀ c ∈ s.counts, ∀ p ∈ c.unlinked, p < c.engine
  processed : s.dmaPacketsProcessed = (s.before + s.counted) % 0x100000000
  inUse : s.dmaPacketsInUse + s.counted = s.added
  asserted : s.asserted = true

/-- The register is greater than the addresses of the packets before `k`, and not than that of `k`.
For packet 0, it may also be greater than all of them. -/
def Marks (address : Nat → Nat) (numPackets value k : Nat) : Prop :=
  (∀ i < k, address i < value) ∧ value ≤ address k ∨ k = 0 ∧ ∀ i < numPackets, address i < value

instance (address : Nat → Nat) (numPackets value k : Nat) :
    Decidable (Marks address numPackets value k) :=
  inferInstanceAs (Decidable (_ ∧ _ ∨ _ ∧ _))

/-- The underflow has not been counted, all packets that have been added have completed, and
`SOURCE_AD` marks the packet after them. -/
def UnderflowAccounted (cfg : Config) (s : Pwm) : Prop :=
  s.counted < s.completed ∧ s.added = s.completed ∧ s.sourceAd ≠ 0 ∧
    Marks (fun i => (s.dmaCb (2 * i)).sourceAd) cfg.dmaNumPackets s.sourceAd
      (s.completed % cfg.dmaNumPackets)

instance (cfg : Config) (s : Pwm) : Decidable (UnderflowAccounted cfg s) :=
  inferInstanceAs (Decidable (_ ∧ _ ∧ _ ∧ _))

/-- When the interrupt counts packets, one has completed before it has read `CONBLK_AD`, and that
marks the packet in progress then; an underflow is counted once; and the engine does not come
around to packets that it has already completed. -/
def Accounted (cfg : Config) (s : Pwm) : PwmAction → Prop
  | .finish =>
    (s.dmaCb s.conblkAd.cb).inten = true → s.completed + 1 = s.linked →
      s.linked < s.counted + cfg.dmaNumPackets
  | .processInterrupt conblkAd upTo true =>
    conblkAd ≠ 0 ∧ s.before + s.counted < upTo ∧
      Marks cfg.firstCbAddress cfg.dmaNumPackets conblkAd ((upTo - s.before) % cfg.dmaNumPackets)
  | .processInterrupt conblkAd _ false =>
    conblkAd = 0 ∧ (s.conblkAd.address = 0 → UnderflowAccounted cfg s)
  | .handleUnderflow => s.conblkAd.address = 0 → UnderflowAccounted cfg s
  | _ => True

instance (cfg : Config) : ∀ (s : Pwm) (a : PwmAction), Decidable (Accounted cfg s a)
  | _, .finish => inferInstanceAs (Decidable (_ → _ → _))
  | _, .processInterrupt _ _ true => inferInstanceAs (Decidable (_ ∧ _ ∧ _))
  | _, .processInterrupt _ _ false => inferInstanceAs (Decidable (_ ∧ (_ → _)))
  | _, .handleUnderflow => inferInstanceAs (Decidable (_ → _))
  | _, .progress _ | _, .check | _, .link | _, .increment | _, .restart | _, .clearRestart
  | _, .startAudio | _, .readConblk | _, .readCs .. | _, .acknowledge .. | _, .readDpc =>
    inferInstanceAs (Decidable True)

end RpiDrivers.PwmAudio
