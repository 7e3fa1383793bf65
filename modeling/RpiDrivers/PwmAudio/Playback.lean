import RpiDrivers.PwmAudio.PacketCount
import RpiDrivers.PwmAudio.StreamState

/-!
# Playing a stream (`minwavertstream.cpp`)

While a stream is in RUN, its client calls `SetWritePacket` with one packet after the other, and the
first thing that a call does is to multiply `dmaPacketsProcessed` by the bytes of a packet: that is
the position which the stream reports until the next call. The call then adds the packet to the DMA,
with silence before the first one; after an underflow it drops the packet instead, and the next
packet starts the DMA again. A pause takes away `ACTIVE` from the DMA, and a resume gives it back.

- `playMachine`: one playback. `SetWritePacket`, `PauseAudio` and `ResumeAudio`, step by step,
  interleaved with the DMA engine, its interrupt and its DPCs (`pwmMachine`).
- `PositionSound`: each position is that of the packets completed, none is below the one before, and
  none is above what the client has written.
- `Regular`: the condition.
-/

namespace RpiDrivers.PwmAudio

open RpiDrivers.Lib

/-- The steps of the audio driver. -/
def PwmAction.isAudio : PwmAction → Bool
  | .check | .link | .increment | .restart | .clearRestart | .startAudio => true
  | _ => false

namespace Play

/-! ## The stream -/

/-- What the client of the stream is doing: the steps of `SetWritePacket`, of `PauseAudio` and of
`ResumeAudio`. -/
inductive Client
  | idle
  /-- the position has been updated, for a packet of a length -/
  | updated (packetNumber length : Nat)
  /-- no restart is required -/
  | tested (packetNumber length : Nat)
  /-- there is room; the numbers of the packets that are to be linked -/
  | adding (length : Nat) (packetNumbers : List Nat)
  /-- `PauseAudio` has read `CS` -/
  | pausing (active : Bool)
  /-- `ResumeAudio` has read `CS` -/
  | resuming (active : Bool)
  deriving DecidableEq

/-- An update of the position, with the packets that the DMA had completed by then, and the bytes
that the client had written. -/
structure Update where
  position : Nat
  completed : Nat
  written : Nat
  deriving DecidableEq

/-- The stream, and the PWM driver with its DMA. -/
structure State where
  pwm : Pwm
  /-- `m_KsState` -/
  ksState : KsState
  /-- `m_PwmState` -/
  pwmState : KsState
  /-- `m_RestartPacketNumber` -/
  restartPacketNumber : Nat
  /-- `m_ullPlayPosition` -/
  ullPlayPosition : Nat
  client : Client
  /-- the packets of the calls that have returned, without those that had no room -/
  accepted : Nat
  /-- their bytes -/
  written : Nat
  /-- one of them was shorter than a packet -/
  ended : Bool
  /-- the last one comes first -/
  updates : List Update

/-- The packets that a call links: when the DMA stands, there is silence before the first one. -/
def packetsToAdd (numPackets : Nat) (pwmState : KsState) (packetNumber : Nat) : List Nat :=
  if pwmState = .stop then List.range (min packetNumber (numPackets - 1)) ++ [packetNumber]
  else [packetNumber]

namespace State

variable (cfg : Config) (bytesPerPacket : Nat) (s : State)

/-- When the stream enters RUN. -/
def start : State where
  pwm := Pwm.start cfg
  ksState := .run
  pwmState := .stop
  restartPacketNumber := 0
  ullPlayPosition := 0
  client := .idle
  accepted := 0
  written := 0
  ended := false
  updates := []

/-! ### `SetWritePacket` -/

/-- `UpdatePosition`, when so many bytes have been written. Both factors have 32 bits. -/
def updatePosition (written : Nat) : State :=
  if s.pwmState = .run then
    let position := s.pwm.dmaPacketsProcessed * bytesPerPacket % 0x100000000
    { s with
      ullPlayPosition := position
      updates := ⟨position, s.pwm.before + s.pwm.completed, written⟩ :: s.updates }
  else s

/-- A call begins; the client has written the packet. -/
def call (packetNumber length : Nat) : State :=
  { s.updatePosition bytesPerPacket (s.written + length) with
    client := .updated packetNumber length }

/-- A call returns. -/
def accept (length : Nat) : State :=
  { s with
    client := .idle
    accepted := s.accepted + 1
    written := s.written + length
    ended := s.ended || decide (length < bytesPerPacket) }

/-- The restart request is processed, and the packet is dropped. -/
def restart (packetNumber length : Nat) : State :=
  { s.accept bytesPerPacket length with
    pwm := s.pwm.restart cfg
    pwmState := .stop
    restartPacketNumber := packetNumber }

/-- The packet is numbered from the last restart on. -/
def packetNumber (packetNumber : Nat) : Nat :=
  (packetNumber + 0x100000000 - s.restartPacketNumber) % 0x100000000

/-- There is enough space in the packet buffer. -/
def add (packetNumber length : Nat) : State :=
  { s with
    pwm := { s.pwm with audio := .checked }
    client :=
      .adding length (packetsToAdd cfg.dmaNumPackets s.pwmState (s.packetNumber packetNumber)) }

/-- `AddPacketToDma`, until the packet is linked. -/
def link (length packetNumber : Nat) (rest : List Nat) : State :=
  let packetIndex := packetNumber % cfg.dmaNumPackets
  { s with
    pwm :=
      { s.pwm with
        dmaCb := Pwm.setLink cfg s.pwm.dmaCb packetIndex (cfg.linkValue packetIndex)
        owner := fun i => if i = packetIndex then some s.pwm.linked else s.pwm.owner i
        linked := s.pwm.linked + 1
        audio := .linked }
    client := .adding length rest }

/-- The increment at the end of `AddPacketToDma`, before the next packet. -/
def increment (rest : List Nat) : State :=
  { s with pwm := { s.pwm.increment with audio := if rest = [] then .idle else .checked } }

/-- `START_AUDIO`; the state of the PWM is RUN even when that fails. -/
def startAudio (length : Nat) (fails : Bool) : State :=
  { s.accept bytesPerPacket length with
    pwm := if fails then { s.pwm with audio := .idle } else s.pwm.startAudio cfg
    pwmState := .run }

/-- `GetOutputStreamPresentationPosition`, in blocks of the format. -/
def positionInBlocks (samplesPerSec avgBytesPerSec : UInt32) : Nat :=
  s.ullPlayPosition * samplesPerSec.toNat % 0x10000000000000000 / avgBytesPerSec.toNat

/-! ### `SetState` -/

/-- A write to `CS` that clears `INT`; the engine is active only with a control block. -/
def writeCs (active : Bool) : Pwm :=
  { s.pwm with active := active && decide (s.pwm.conblkAd.address ≠ 0), int := false }

/-- `SetState(KSSTATE_PAUSE)`, until `PauseAudio` has read `CS`. A request that fails changes
nothing. -/
def pause : State :=
  if s.pwmState = .run then { s with client := .pausing s.pwm.active }
  else { s with ksState := .pause }

/-- `PauseDma`, when the DMA runs. -/
def pauseDma (active : Bool) : State :=
  { s with
    pwm := if active then s.writeCs false else s.pwm
    ksState := .pause
    pwmState := .pause
    client := .idle }

/-- `SetState(KSSTATE_RUN)` out of a pause, until `ResumeAudio` has read `CS`. -/
def resume : State :=
  if s.pwmState = .pause then { s with client := .resuming s.pwm.active }
  else { s with ksState := .run }

/-- `ResumeDma`, when the DMA does not run. -/
def resumeDma (active : Bool) : State :=
  { s with
    pwm := if active then s.pwm else s.writeCs true
    ksState := .run
    pwmState := .run
    client := .idle }

end State

/-! ## The machine -/

inductive Action
  /-- the DMA, its interrupt or a DPC -/
  | dma (a : PwmAction)
  | call (packetNumber length : Nat)
  | restart (packetNumber length : Nat)
  | test (packetNumber length : Nat)
  /-- `STATUS_DATA_OVERRUN` -/
  | overrun (packetNumber length : Nat)
  | add (packetNumber length : Nat)
  | link (length packetNumber : Nat) (rest : List Nat)
  | increment (length : Nat) (rest : List Nat)
  | clearRestart (length : Nat)
  | startAudio (length : Nat) (fails : Bool)
  /-- the DMA has already been started -/
  | accept (length : Nat)
  | pause
  | pauseDma (active : Bool)
  | resume
  | resumeDma (active : Bool)

namespace State

/-- When a step can happen. -/
def enabled (cfg : Config) (s : State) : Action → Prop
  | .dma a => a.isAudio = false ∧ s.pwm.enabled cfg a
  | .call _ _ => s.client = .idle ∧ s.ksState = .run
  | .restart packetNumber length =>
    s.client = .updated packetNumber length ∧ s.pwm.enabled cfg .restart
  | .test packetNumber length =>
    s.client = .updated packetNumber length ∧
      (s.pwm.restartInProgress = true ∨ s.pwm.dmaRestartRequired = false)
  | .overrun packetNumber length =>
    s.client = .tested packetNumber length ∧ s.pwm.dmaPacketsInUse = cfg.dmaNumPackets
  | .add packetNumber length =>
    s.client = .tested packetNumber length ∧ s.pwm.dmaPacketsInUse ≠ cfg.dmaNumPackets
  | .link length packetNumber rest =>
    s.client = .adding length (packetNumber :: rest) ∧ s.pwm.audio = .checked
  | .increment length rest => s.client = .adding length rest ∧ s.pwm.audio = .linked
  | .clearRestart length =>
    s.client = .adding length [] ∧ s.pwmState ≠ .run ∧ s.pwm.enabled cfg .clearRestart
  | .startAudio length _ => s.client = .adding length [] ∧ s.pwm.audio = .starting
  | .accept length =>
    s.client = .adding length [] ∧ s.pwm.audio = .idle ∧ s.pwmState = .run
  | .pause => s.client = .idle ∧ s.ksState = .run
  | .pauseDma active => s.client = .pausing active
  | .resume => s.client = .idle ∧ s.ksState = .pause
  | .resumeDma active => s.client = .resuming active

instance (cfg : Config) : ∀ (s : State) (a : Action), Decidable (s.enabled cfg a)
  | _, .test .. => inferInstanceAs (Decidable (_ ∧ (_ ∨ _)))
  | _, .clearRestart .. | _, .accept .. => inferInstanceAs (Decidable (_ ∧ _ ∧ _))
  | _, .pauseDma .. | _, .resumeDma .. => inferInstanceAs (Decidable (_ = _))
  | _, .dma .. | _, .call .. | _, .restart .. | _, .overrun .. | _, .add .. | _, .link ..
  | _, .increment .. | _, .startAudio .. | _, .pause | _, .resume =>
    inferInstanceAs (Decidable (_ ∧ _))

def effect (cfg : Config) (bytesPerPacket : Nat) (s : State) : Action → State
  | .dma a => { s with pwm := s.pwm.effect cfg a }
  | .call packetNumber length => s.call bytesPerPacket packetNumber length
  | .restart packetNumber length => s.restart cfg bytesPerPacket packetNumber length
  | .test packetNumber length => { s with client := .tested packetNumber length }
  | .overrun _ _ => { s with client := .idle }
  | .add packetNumber length => s.add cfg packetNumber length
  | .link length packetNumber rest => s.link cfg length packetNumber rest
  | .increment _ rest => s.increment rest
  | .clearRestart _ => { s with pwm := s.pwm.clearRestart }
  | .startAudio length fails => s.startAudio cfg bytesPerPacket length fails
  | .accept length => s.accept bytesPerPacket length
  | .pause => s.pause
  | .pauseDma active => s.pauseDma active
  | .resume => s.resume
  | .resumeDma active => s.resumeDma active

end State

/-- All interleavings of a playback. The client makes one call after the other. -/
def playMachine (cfg : Config) (bytesPerPacket : Nat) : Machine State Action :=
  Machine.guarded (· = State.start cfg) (State.enabled cfg) (State.effect cfg bytesPerPacket)

/-! ## The property and the condition -/

/-- Each position that has been taken is the packets completed by then times the bytes of a packet,
computed without a wrap; it is at most what had been written, and none is below an earlier one. The
position that is reported is the last one. -/
structure PositionSound (bytesPerPacket : Nat) (s : State) : Prop where
  completed : ∀ u ∈ s.updates, u.position = u.completed * bytesPerPacket
  written : ∀ u ∈ s.updates, u.position ≤ u.written
  monotone : s.updates.Pairwise fun later u => u.position ≤ later.position
  reported : s.ullPlayPosition = (s.updates.head?.elim 0 fun u => u.position)

/-- The registers say which packets have completed (`Accounted`). When a position is taken, all that
have completed have been counted, and they have fewer than `2 ^ 32` bytes; only the last packet that
is written is shorter than the others, and silence that the client has not written is then not all
that is left. A packet has the number after the last one that was linked; it is packet 0 or 1 when
the DMA stands. -/
def Regular (cfg : Config) (bytesPerPacket : Nat) (s : State) : Action → Prop
  | .dma a => Accounted cfg s.pwm a
  | .call _ length =>
    s.pwmState = .run →
      s.pwm.counted = s.pwm.completed ∧
      (s.pwm.before + s.pwm.completed) * bytesPerPacket < 0x100000000 ∧
      s.ended = false ∧
      (length < bytesPerPacket →
        s.pwm.completed < s.pwm.linked ∨ s.pwm.before + s.pwm.linked ≤ s.accepted)
  | .add packetNumber _ =>
    if s.pwmState = .stop then s.packetNumber packetNumber ≤ 1
    else s.packetNumber packetNumber % cfg.dmaNumPackets = s.pwm.linked % cfg.dmaNumPackets
  | _ => True

instance (cfg : Config) (bytesPerPacket : Nat) :
    ∀ (s : State) (a : Action), Decidable (Regular cfg bytesPerPacket s a)
  | s, .dma a => inferInstanceAs (Decidable (Accounted cfg s.pwm a))
  | _, .call .. => inferInstanceAs (Decidable (_ → _ ∧ _ ∧ _ ∧ (_ → _ ∨ _)))
  | s, .add .. => inferInstanceAs (Decidable (if s.pwmState = .stop then _ else _))
  | _, .restart .. | _, .test .. | _, .overrun .. | _, .link .. | _, .increment ..
  | _, .clearRestart .. | _, .startAudio .. | _, .accept .. | _, .pause | _, .pauseDma ..
  | _, .resume | _, .resumeDma .. => inferInstanceAs (Decidable True)

end Play

end RpiDrivers.PwmAudio
