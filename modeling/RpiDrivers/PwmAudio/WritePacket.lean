import RpiDrivers.Lib.Slots
import RpiDrivers.PwmAudio.PacketRing

/-!
# Writing audio packets (`minwavertstream.cpp`)

`SetWritePacket` converts a packet of the audio buffer to PWM samples in a slot of the DMA buffer,
and links the control blocks of the slot. When the DMA stands, silence comes before the first
packet, and the DMA is started at slot 0. When it has run dry, the first call unlinks all slots, and
the packets are numbered from there on. Meanwhile the DMA engine plays the packets, and the PWM
driver counts them.

- `WriteSound`: calls stay in the buffers and keep what has not been played; the packets are in
  their slots, linked to a chain; a rejected call changes nothing.
- `Fitting`: the condition on the calls and on what happens around them.
-/

namespace RpiDrivers.PwmAudio

open RpiDrivers.Lib

/-! ## Samples -/

/-- `INT16` -/
abbrev PcmSample := BitVec 16

/-- `UINT32` -/
abbrev PwmSample := BitVec 32

/-- `PWMRANGE` -/
def pwmRange : Nat := 2268

/-- `PCMRANGE` -/
def pcmRange : Nat := 0x10000

/-- `PCMTOPWMDIV` -/
def pcmToPwmDiv : Nat := pcmRange / pwmRange + 1

/-- `PWMSILENCE` -/
def pwmSilence : Nat := pwmRange / 2

/-- `PCMBYTESPERSAMPLE` -/
def pcmBytesPerSample : Nat := 2

/-- A sample, as `ConvertPCMToPWM` converts it. The division is that of C. -/
def pcmToPwm (sample : PcmSample) : PwmSample :=
  BitVec.ofInt 32 (sample.toInt.tdiv pcmToPwmDiv + pwmSilence)

def silence : PwmSample := BitVec.ofNat 32 pwmSilence

/-- The loop of `ConvertPCMToPWM`, with the two pointers as indices. -/
def convertPCMToPWM (inBuffer : Nat → PcmSample) (outBuffer : Nat → PwmSample)
    (inIndex outIndex : Nat) : Nat → Nat → PwmSample
  | 0 => outBuffer
  | sampleCount + 1 =>
    convertPCMToPWM inBuffer (Function.update outBuffer outIndex (pcmToPwm (inBuffer inIndex)))
      (inIndex + 1) (outIndex + 1) sampleCount

/-- The loop of `SilenceToPWM`. -/
def silenceToPWM (outBuffer : Nat → PwmSample) (outIndex : Nat) : Nat → Nat → PwmSample
  | 0 => outBuffer
  | sampleCount + 1 =>
    silenceToPWM (Function.update outBuffer outIndex silence) (outIndex + 1) sampleCount

/-- **The samples that `ConvertPCMToPWM` writes.** -/
theorem convertPCMToPWM_eq (inBuffer : Nat → PcmSample) : ∀ (sampleCount : Nat)
    (outBuffer : Nat → PwmSample) (inIndex outIndex : Nat),
    convertPCMToPWM inBuffer outBuffer inIndex outIndex sampleCount =
      put outBuffer outIndex ((slice inBuffer inIndex sampleCount).map pcmToPwm)
  | 0, _, _, _ => rfl
  | sampleCount + 1, outBuffer, inIndex, outIndex => by
    have hslice : slice inBuffer inIndex (sampleCount + 1) =
        inBuffer inIndex :: slice inBuffer (inIndex + 1) sampleCount := by
      rw [Nat.add_comm, slice_add]
      rfl
    rw [convertPCMToPWM, convertPCMToPWM_eq inBuffer sampleCount, hslice, List.map_cons, put]

theorem silenceToPWM_eq : ∀ (sampleCount : Nat) (outBuffer : Nat → PwmSample) (outIndex : Nat),
    silenceToPWM outBuffer outIndex sampleCount =
      put outBuffer outIndex (List.replicate sampleCount silence)
  | 0, _, _ => rfl
  | sampleCount + 1, outBuffer, outIndex => by
    rw [silenceToPWM, silenceToPWM_eq sampleCount, List.replicate_succ, put]

/-! ## The buffers -/

/-- The buffers, as `AllocateBufferWithNotification` and `InitializeAudio` have set them up. -/
structure Layout where
  cfg : Config
  /-- `m_ulDmaBufferSize`, the size of the audio buffer -/
  bufferSize : Nat
  notificationsPerBuffer : Nat
  notificationsPerBuffer_pos : 0 < notificationsPerBuffer
  /-- `RequestedBufferSize` is twice the size of the audio buffer -/
  packetSize_eq : cfg.packetSize = bufferSize * 2 / notificationsPerBuffer

namespace Layout

variable (layout : Layout)

/-- `m_ulBytesPerPacket` -/
def bytesPerPacket : Nat := layout.bufferSize / layout.notificationsPerBuffer

/-- `m_ulSamplesPerPacket` -/
def samplesPerPacket : Nat := layout.bytesPerPacket / pcmBytesPerSample

/-- `DmaNumPackets` -/
def numPackets : Nat := layout.cfg.dmaNumPackets

/-- The samples of the audio buffer. -/
def audioSamples : Nat := layout.bufferSize / pcmBytesPerSample

/-- The samples of the DMA buffer. -/
def dmaSamples : Nat := dmaBufferSize / 4

/-- **The packets are in the audio buffer.** -/
theorem packets_le_audioSamples :
    layout.notificationsPerBuffer * layout.samplesPerPacket ≤ layout.audioSamples := by
  have hpacket : layout.notificationsPerBuffer * layout.bytesPerPacket ≤ layout.bufferSize :=
    Nat.mul_div_le _ _
  have hsamples : layout.samplesPerPacket * 2 ≤ layout.bytesPerPacket := Nat.div_mul_le_self _ _
  have hall := Nat.mul_le_mul_left layout.notificationsPerBuffer hsamples
  rw [← Nat.mul_assoc] at hall
  rw [audioSamples, pcmBytesPerSample, Nat.le_div_iff_mul_le (by decide)]
  omega

/-- **The slots are in the DMA buffer.** -/
theorem slots_le_dmaSamples : layout.numPackets * layout.samplesPerPacket ≤ dmaSamples := by
  have hbytes : layout.bytesPerPacket * 2 ≤ layout.cfg.packetSize := by
    rw [layout.packetSize_eq, Nat.le_div_iff_mul_le layout.notificationsPerBuffer_pos,
      Nat.mul_right_comm]
    exact Nat.mul_le_mul_right 2 (Nat.div_mul_le_self _ _)
  have hsamples : layout.samplesPerPacket * 2 ≤ layout.bytesPerPacket := Nat.div_mul_le_self _ _
  have hslots : layout.numPackets * layout.cfg.packetSize ≤ dmaBufferSize :=
    Nat.div_mul_le_self _ _
  have hall : layout.numPackets * (layout.samplesPerPacket * 4) ≤ dmaBufferSize :=
    (Nat.mul_le_mul_left _ (by omega)).trans hslots
  rw [← Nat.mul_assoc] at hall
  rw [dmaSamples, Nat.le_div_iff_mul_le (by decide)]
  exact hall

end Layout

/-! ## Calls and packets -/

/-- A call of `SetWritePacket`, and what is in the audio buffer then. -/
structure WriteCall where
  packetNumber : Nat
  /-- `KSSTREAM_HEADER_OPTIONSF_ENDOFSTREAM` -/
  endOfStream : Bool
  eosPacketLength : Nat
  dataBuffer : Nat → PcmSample

namespace WriteCall

variable (layout : Layout) (call : WriteCall)

/-- `sampleCount` -/
def sampleCount : Nat :=
  if call.endOfStream then call.eosPacketLength / pcmBytesPerSample else layout.samplesPerPacket

/-- `packetBaseIndex` -/
def packetBaseIndex : Nat :=
  call.packetNumber % layout.notificationsPerBuffer * layout.samplesPerPacket

/-- The packet: its converted samples, and silence behind them. -/
def samples : List PwmSample :=
  (slice call.dataBuffer (call.packetBaseIndex layout) (call.sampleCount layout)).map pcmToPwm ++
    List.replicate (layout.samplesPerPacket - call.sampleCount layout) silence

end WriteCall

/-- A packet that has been linked: its slot, and the call that it is from. Silence is from none. -/
structure Packet where
  slot : Nat
  call : Option WriteCall

/-- What is to be in the slot. -/
def Packet.samples (layout : Layout) (packet : Packet) : List PwmSample :=
  match packet.call with
  | some call => call.samples layout
  | none => List.replicate layout.samplesPerPacket silence

/-- What a call comes to. -/
inductive Outcome
  /-- `STATUS_SUCCESS`: the packet has been linked -/
  | queued
  /-- `STATUS_SUCCESS`: a restart has been begun -/
  | restarted
  /-- `STATUS_DATA_OVERRUN` -/
  | dataOverrun
  /-- the error of `IOCTL_BCM_PWM_START_AUDIO` -/
  | startFailed
  deriving DecidableEq

/-- `!NT_SUCCESS` -/
def Outcome.rejected : Outcome → Bool
  | .queued | .restarted => false
  | .dataOverrun | .startFailed => true

/-- Where `SetWritePacket` is, with the packet number less `m_RestartPacketNumber` and
`packetIndex`. -/
inductive WritePc
  | idle
  | entered
  | checkRoom (packetNumber : Nat)
  | prime (packetNumber packetIndex : Nat)
  | primed (packetNumber packetIndex : Nat)
  | primeLinked (packetNumber packetIndex : Nat)
  | copy (packetNumber : Nat)
  | copied (packetNumber : Nat)
  | linked (packetNumber : Nat)
  | start
  deriving DecidableEq

/-- The stream, what it shares with the PWM driver, and the DMA engine. -/
structure WriteStream where
  dmaBuffer : Nat → PwmSample
  dmaCb : Nat → DmaCb
  dmaPacketsInUse : Nat
  dmaRestartRequired : Bool
  /-- the engine, and the slot that it plays -/
  active : Bool
  playing : Nat
  /-- `m_PwmState == KSSTATE_RUN` -/
  running : Bool
  restartPacketNumber : Nat
  restartInProgress : Bool
  pc : WritePc
  call : WriteCall
  /-- the call before, and what it has come to -/
  result : Option (Nat × Outcome)
  /-- the packets since the last restart, how many have been played, and how many counted -/
  packets : List Packet
  completed : Nat
  counted : Nat
  /-- the call has written to the DMA buffer or to a link -/
  touched : Bool
  /-- a read outside the audio buffer, or a write outside the DMA buffer -/
  outside : Bool
  /-- a write to a slot that is linked and has not been played -/
  clash : Bool

namespace WriteStream

variable (layout : Layout) (s : WriteStream)

/-- The packets that are linked and have not been played. -/
def pending : List Packet := s.packets.drop s.completed

/-- Samples are written to the DMA buffer, `n` of them from `index` on. -/
def write (index n : Nat) (dmaBuffer : Nat → PwmSample) : WriteStream :=
  { s with
    dmaBuffer := dmaBuffer
    touched := true
    outside := s.outside || decide (Layout.dmaSamples < index + n)
    clash := s.clash || s.pending.any fun packet =>
      !decide ((slot layout.samplesPerPacket packet.slot).Disjoint ⟨index, n⟩) && decide (n ≠ 0) }

/-- `AddPacketToDma`, until the packet is linked. -/
def link (packetNumber : Nat) (call : Option WriteCall) : WriteStream :=
  let packetIndex := packetNumber % layout.numPackets
  { s with
    dmaCb := Pwm.setLink layout.cfg s.dmaCb packetIndex (layout.cfg.linkValue packetIndex)
    packets := s.packets ++ [⟨packetIndex, call⟩]
    touched := true }

/-- The increment at the end of `AddPacketToDma`. -/
def increment : WriteStream :=
  { s with dmaPacketsInUse := (s.dmaPacketsInUse + 1) % 0x100000000 }

/-- The restart request is processed. -/
def restart : WriteStream :=
  { s with
    running := false
    restartPacketNumber := s.call.packetNumber
    restartInProgress := true
    dmaCb := Pwm.unlink layout.cfg s.dmaCb (List.range layout.numPackets)
    dmaPacketsInUse := 0
    packets := []
    completed := 0
    counted := 0
    touched := true }

/-- The samples of the packet are copied into its slot. -/
def copyPacket (packetNumber : Nat) : WriteStream :=
  let sampleCount := s.call.sampleCount layout
  let packetBaseIndex := s.call.packetBaseIndex layout
  let dmaPacketBaseIndex := packetNumber % layout.numPackets * layout.samplesPerPacket
  let s := { s with
    outside := s.outside || decide (layout.audioSamples < packetBaseIndex + sampleCount) }
  let s := s.write layout dmaPacketBaseIndex sampleCount
    (convertPCMToPWM s.call.dataBuffer s.dmaBuffer packetBaseIndex dmaPacketBaseIndex sampleCount)
  if s.call.endOfStream && sampleCount < layout.samplesPerPacket then
    s.write layout (dmaPacketBaseIndex + sampleCount) (layout.samplesPerPacket - sampleCount)
      (silenceToPWM s.dmaBuffer (dmaPacketBaseIndex + sampleCount)
        (layout.samplesPerPacket - sampleCount))
  else s

/-- `IOCTL_BCM_PWM_START_AUDIO`: the engine starts at slot 0. -/
def startAudio : WriteStream :=
  { s with
    dmaRestartRequired := false
    active := true
    playing := 0 }

/-- The call returns. -/
def ret (outcome : Outcome) : WriteStream :=
  { s with
    pc := .idle
    result := some (s.call.packetNumber, outcome) }

/-- The next step of `SetWritePacket`, in `KSSTATE_RUN`. -/
def advance (startSucceeds : Bool) : WriteStream :=
  match s.pc with
  | .idle => s
  | .entered =>
    if s.restartInProgress = false ∧ s.dmaRestartRequired = true then
      (s.restart layout).ret .restarted
    else
      { s with pc :=
        .checkRoom ((s.call.packetNumber + (0x100000000 - s.restartPacketNumber)) % 0x100000000) }
  | .checkRoom packetNumber =>
    if s.dmaPacketsInUse = layout.numPackets then s.ret .dataOverrun
    else { s with pc := if s.running then .copy packetNumber else .prime packetNumber 0 }
  | .prime packetNumber packetIndex =>
    if packetIndex < packetNumber ∧ packetIndex < layout.numPackets - 1 then
      let dmaPacketBaseIndex := packetIndex % layout.numPackets * layout.samplesPerPacket
      { s.write layout dmaPacketBaseIndex layout.samplesPerPacket
          (silenceToPWM s.dmaBuffer dmaPacketBaseIndex layout.samplesPerPacket) with
        pc := .primed packetNumber packetIndex }
    else { s with pc := .copy packetNumber }
  | .primed packetNumber packetIndex =>
    { s.link layout packetIndex none with pc := .primeLinked packetNumber packetIndex }
  | .primeLinked packetNumber packetIndex =>
    { s.increment with pc := .prime packetNumber (packetIndex + 1) }
  | .copy packetNumber =>
    { s.copyPacket layout packetNumber with pc := .copied packetNumber }
  | .copied packetNumber =>
    { s.link layout packetNumber (some s.call) with pc := .linked packetNumber }
  | .linked _ =>
    if s.running then s.increment.ret .queued else { s.increment with pc := .start }
  | .start =>
    -- the restart flags are handled, then the DMA is started; the state is KSSTATE_RUN either way
    let s := { s with
      restartInProgress := false
      dmaRestartRequired := s.dmaRestartRequired && !s.restartInProgress
      running := true }
    if startSucceeds then s.startAudio.ret .queued else s.ret .startFailed

/-! ### The DMA engine and the PWM driver -/

/-- The engine has played a packet, and follows its link, or stops. -/
def complete : WriteStream :=
  let nextConbk := (s.dmaCb (2 * s.playing + 1)).nextConbk
  if nextConbk.address = 0 then
    { s with
      completed := s.completed + 1
      active := false }
  else
    { s with
      completed := s.completed + 1
      playing := nextConbk.cb / 2 }

/-- `DmaIsr` counts and unlinks packets. -/
def countPackets (processedPackets : Nat) : WriteStream :=
  let completedPacket := (s.counted + processedPackets - 1) % layout.numPackets
  { s with
    dmaCb := Pwm.unlink layout.cfg s.dmaCb
      (packetsToUnlink layout.numPackets completedPacket processedPackets)
    dmaPacketsInUse := (s.dmaPacketsInUse + (0x100000000 - processedPackets)) % 0x100000000
    counted := s.counted + processedPackets }

/-- `HandleUnderflow` -/
def handleUnderflow : WriteStream :=
  { s with
    dmaPacketsInUse := 0
    dmaRestartRequired := true
    counted := s.completed }

end WriteStream

/-! ## The machine -/

/-- The atomic steps. -/
inductive WriteAction
  /-- `SetWritePacket` is called -/
  | call (call : WriteCall)
  /-- its next step -/
  | advance (startSucceeds : Bool)
  /-- the engine has played a packet -/
  | complete
  /-- the interrupt counts packets -/
  | count (processedPackets : Nat)
  /-- the interrupt or a DPC, which may be late, handles an underflow -/
  | underflow

namespace WriteStream

/-- The packet numbers of the calls are consecutive. A packet that was rejected may be offered
again. -/
def Follows (s : WriteStream) (call : WriteCall) : Prop :=
  call.packetNumber < 0x100000000 ∧ ∀ r ∈ s.result,
    call.packetNumber = (r.1 + 1) % 0x100000000 ∨ r.2.rejected = true ∧ call.packetNumber = r.1

instance (s : WriteStream) (call : WriteCall) : Decidable (s.Follows call) :=
  inferInstanceAs (Decidable (_ ∧ ∀ r ∈ s.result, _))

/-- The engine has to be active for the interrupt to count all packets that it has played: the last
one before it stops is counted as an underflow. -/
def enabled (s : WriteStream) : WriteAction → Prop
  | .call call => s.pc = .idle ∧ s.Follows call
  | .advance _ => s.pc ≠ .idle
  | .complete => s.active = true
  | .count processedPackets =>
    0 < processedPackets ∧
      s.counted + processedPackets + (if s.active then 0 else 1) ≤ s.completed
  | .underflow => s.active = false

instance : ∀ (s : WriteStream) (a : WriteAction), Decidable (s.enabled a)
  | _, .call _ => inferInstanceAs (Decidable (_ ∧ _))
  | s, .advance _ => inferInstanceAs (Decidable (s.pc ≠ .idle))
  | _, .complete => inferInstanceAs (Decidable (_ = true))
  | _, .count _ => inferInstanceAs (Decidable (_ ∧ _))
  | _, .underflow => inferInstanceAs (Decidable (_ = false))

def effect (layout : Layout) (s : WriteStream) : WriteAction → WriteStream
  | .call call =>
    { s with
      pc := .entered
      call := call
      touched := false }
  | .advance startSucceeds => s.advance layout startSucceeds
  | .complete => s.complete
  | .count processedPackets => s.countPackets layout processedPackets
  | .underflow => s.handleUnderflow

/-- `InitializeAudio` has succeeded, and nothing has been written. -/
structure Initial (layout : Layout) (s : WriteStream) : Prop where
  dmaCb : s.dmaCb = layout.cfg.controlBlocks
  dmaPacketsInUse : s.dmaPacketsInUse = 0
  active : s.active = false
  running : s.running = false
  restartPacketNumber : s.restartPacketNumber = 0
  restartInProgress : s.restartInProgress = false
  pc : s.pc = .idle
  result : s.result = none
  packets : s.packets = []
  completed : s.completed = 0
  counted : s.counted = 0
  outside : s.outside = false
  clash : s.clash = false

end WriteStream

/-- All interleavings. -/
def writeMachine (layout : Layout) : Machine WriteStream WriteAction :=
  Machine.guarded (WriteStream.Initial layout) WriteStream.enabled (WriteStream.effect layout)

/-! ## The property and the condition -/

/-- `PacketNumber - m_RestartPacketNumber` -/
def WriteStream.relative (s : WriteStream) (call : WriteCall) : Nat :=
  (call.packetNumber + (0x100000000 - s.restartPacketNumber)) % 0x100000000

/-- Reads and writes stay in the buffers, and no slot is written that is linked and has not been
played. The packets are in consecutive slots, that of a call in the slot of its number; those that
have not been played are there with their samples, and linked. No more than the ring are in use. A
call that succeeds has linked its packet, and one that is rejected has written nothing. -/
structure WriteSound (layout : Layout) (s : WriteStream) : Prop where
  outside : s.outside = false
  clash : s.clash = false
  slots : ∀ p packet, s.packets[p]? = some packet → packet.slot = p % layout.numPackets
  numbers : ∀ packet ∈ s.packets, ∀ call, packet.call = some call →
    packet.slot = s.relative call % layout.numPackets
  samples : ∀ packet ∈ s.pending,
    slice s.dmaBuffer (packet.slot * layout.samplesPerPacket) layout.samplesPerPacket =
      packet.samples layout
  chain : ∀ packet ∈ s.pending,
    (s.dmaCb (layout.cfg.linkPtr packet.slot)).nextConbk = layout.cfg.linkValue packet.slot
  inUse : s.dmaPacketsInUse ≤ layout.numPackets
  queued : s.pc = .idle → ∀ r ∈ s.result, r.2 = .queued →
    ∃ packet, s.packets.getLast? = some packet ∧ packet.call = some s.call
  rejected : s.pc = .idle → ∀ r ∈ s.result, r.2.rejected = true → s.touched = false

/-- A call brings at most a packet. When there is room for it, its slot is the one behind the newest
packet; where the DMA stands, the silence before it ends there. `IOCTL_BCM_PWM_START_AUDIO`
succeeds. No underflow is handled between the first link and that. The engine does not play the last
packet that is linked when the ring is full of packets that have not been counted. -/
def Fitting (layout : Layout) (s : WriteStream) : WriteAction → Prop
  | .call call => call.sampleCount layout ≤ layout.samplesPerPacket
  | .advance startSucceeds =>
    match s.pc with
    | .checkRoom packetNumber =>
      s.dmaPacketsInUse ≠ layout.numPackets →
        if s.running then
          packetNumber % layout.numPackets = s.packets.length % layout.numPackets
        else
          packetNumber < layout.numPackets ∨
            packetNumber % layout.numPackets = layout.numPackets - 1
    | .start => startSucceeds = true
    | _ => True
  | .complete =>
    s.completed + 1 = s.packets.length → s.packets.length < s.counted + layout.numPackets
  | .count _ => True
  | .underflow => s.running = false → s.packets.length = 0

instance (layout : Layout) (s : WriteStream) : ∀ a : WriteAction, Decidable (Fitting layout s a)
  | .call _ => inferInstanceAs (Decidable (_ ≤ _))
  | .advance startSucceeds => by
    unfold Fitting
    dsimp only
    split <;> infer_instance
  | .complete => inferInstanceAs (Decidable (_ → _))
  | .count _ => inferInstanceAs (Decidable True)
  | .underflow => inferInstanceAs (Decidable (_ → _))

end RpiDrivers.PwmAudio
