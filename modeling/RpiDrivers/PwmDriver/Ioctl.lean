import RpiDrivers.PwmAudio.PacketDma

/-!
# The IOCTLs of the PWM driver (`pwm.cpp`, `dma.cpp`, `device.cpp`)

A client configures the clock and the two channels and starts them (*register mode*), or it acquires
the PWM for audio, where DMA feeds both channels (*audio mode*). The driver keeps the mode and the
configurations in the device context and writes them to the registers of the clock manager, of the
PWM block and of its DMA channel.

- `Context`: the device context and the registers.
- `Context.setClockConfig`, `startChannel`, `stopDma`, …: what the IOCTLs do to the registers.
- `Context.ioctl`: the IOCTLs that change something, with their checks and their status.

A channel is running (`STA`) while its `PWEN` bit is set. The write of `PWMDIV` takes effect only
with the password in its upper byte.
-/

namespace RpiDrivers.PwmDriver

open RpiDrivers.PwmAudio (dmaBufferSize)

/-- The `NTSTATUS` values that occur. -/
inductive Status
  | success
  | invalidParameter
  | operationInProgress
  | deviceConfigurationError
  | unsuccessful
  /-- the output buffer is too small -/
  | bufferTooSmall
  deriving DecidableEq

/-- `PWM_MODE` -/
inductive PwmMode
  | register
  | audio
  deriving DecidableEq

/-! ## Configurations -/

/-- `BCM_PWM_CLOCK_CONFIG`, as the client sends it -/
structure ClockConfig where
  clockSource : UInt32
  divisor : UInt32
  deriving DecidableEq

/-- `BCM_PWM_CHANNEL_CONFIG` without its channel -/
structure ChannelConfig where
  range : UInt32
  dutyMode : UInt32
  mode : UInt32
  polarity : UInt32
  repeat_ : UInt32
  silence : UInt32
  deriving DecidableEq

/-- `BCM_PWM_AUDIO_CONFIG`, the input of `InitializeAudio` -/
structure AudioConfig where
  requestedBufferSize : UInt32
  notificationsPerBuffer : UInt32
  pwmRange : UInt32
  deriving DecidableEq

/-- `BCM_PWM_CLOCKSOURCE_PLLC` -/
def clockSourcePllc : UInt32 := 0

/-- `BCM_PWM_CLOCKSOURCE_PLLD` -/
def clockSourcePlld : UInt32 := 1

/-- `BCM_PWM_CHANNEL_CHANNEL1` -/
def channel1 : UInt32 := 0

/-- `BCM_PWM_CHANNEL_CHANNEL2` -/
def channel2 : UInt32 := 1

/-- `BCM_PWM_CHANNEL_ALLCHANNELS` -/
def allChannels : UInt32 := 2

/-- `IS_INVALID_CHANNEL` -/
def isInvalidChannel (channel : UInt32) : Bool :=
  channel ≠ channel1 && channel ≠ channel2 && channel ≠ allChannels

/-- `IS_CHANNEL_1_OR_ALL` -/
def isChannel1OrAll (channel : UInt32) : Bool := channel = channel1 || channel = allChannels

/-- `IS_CHANNEL_2_OR_ALL` -/
def isChannel2OrAll (channel : UInt32) : Bool := channel = channel2 || channel = allChannels

/-- `ValidateClockConfig` -/
def validateClockConfig (c : ClockConfig) : Bool :=
  (c.clockSource = clockSourcePllc || c.clockSource = clockSourcePlld) &&
    !(c.divisor < 2 || (c.divisor &&& ~~~0xFFF) ≠ 0)

/-- `ValidateChannelConfig`: the enumerations have two values each. -/
def validateChannelConfig (channel : UInt32) (c : ChannelConfig) : Bool :=
  !isInvalidChannel channel && c.dutyMode ≤ 1 && c.mode ≤ 1 && c.polarity ≤ 1 && c.repeat_ ≤ 1 &&
    c.silence ≤ 1

/-! ## The device context and the registers -/

/-- The bits of `CTL` for a channel. -/
structure ChannelCtl where
  pwen : Bool
  mode : Bool
  rptl : Bool
  sbit : Bool
  pola : Bool
  usef : Bool
  msen : Bool
  deriving DecidableEq

/-- `CM_PWM_REGS`: the source in `PWMCTL`, and `PWMDIV` without the password -/
structure ClockRegs where
  source : Nat
  pwmdiv : Nat
  deriving DecidableEq

/-- `PWM_REGS` -/
structure PwmRegs where
  ctl1 : ChannelCtl
  ctl2 : ChannelCtl
  rng1 : UInt32
  rng2 : UInt32
  dat1 : UInt32
  dat2 : UInt32

/-- `DMA_CHANNEL_REGS`: the `ACTIVE` bit, and the control block that `CONBLK_AD` points to -/
structure DmaRegs where
  active : Bool
  conblkAd : Option Nat

/-- `DEVICE_CONTEXT`, with the registers that it points to. -/
structure Context where
  pwmMode : PwmMode
  pwmClockConfig : ClockConfig
  pwmChannel1Config : ChannelConfig
  pwmChannel2Config : ChannelConfig
  pwmSavedClockConfig : ClockConfig
  pwmSavedChannel1Config : ChannelConfig
  pwmSavedChannel2Config : ChannelConfig
  pwmDuty1 : UInt32
  pwmDuty2 : UInt32
  dmaMaxPackets : Nat
  dmaNumPackets : Nat
  /-- the packet size of the control blocks, once they have been written -/
  dmaCb : Option Nat
  dmaRestartRequired : Bool
  cmPwmRegs : ClockRegs
  pwmRegs : PwmRegs
  dmaChannelRegs : DmaRegs

/-- What is written to `PWMDIV`, a `ULONG` with the password `0x5A` in its upper byte. -/
def pwmdivValue (divisor : Nat) : Nat :=
  divisor <<< 12 % 4294967296 ||| 0x5A <<< 24

/-- `CM_PWMCTL_SRC_PLLC` or `CM_PWMCTL_SRC_PLLD` -/
def cmPwmCtlSrc (clockSource : UInt32) : Nat :=
  if clockSource = clockSourcePllc then 5 else 6

/-- The bits that `StartChannel` sets. -/
def channelCtl (pwmMode : PwmMode) (c : ChannelConfig) : ChannelCtl where
  pwen := true
  mode := c.mode = 1
  rptl := c.repeat_ = 1 && pwmMode = .audio
  sbit := c.silence = 1
  pola := c.polarity = 1
  usef := pwmMode = .audio
  msen := c.dutyMode = 0

namespace Context

/-- `PWM_CHANNEL1_IS_RUNNING` -/
def channel1IsRunning (s : Context) : Bool := s.pwmRegs.ctl1.pwen

/-- `PWM_CHANNEL2_IS_RUNNING` -/
def channel2IsRunning (s : Context) : Bool := s.pwmRegs.ctl2.pwen

/-- One of the channels runs. -/
def isRunning (s : Context) : Bool := s.channel1IsRunning || s.channel2IsRunning

/-! ## Writing the registers -/

/-- `SetClockConfig` -/
def setClockConfig (s : Context) : Context :=
  let value := pwmdivValue s.pwmClockConfig.divisor.toNat
  { s with
    cmPwmRegs :=
      { source := cmPwmCtlSrc s.pwmClockConfig.clockSource
        pwmdiv := if value >>> 24 = 0x5A then value % 16777216 else s.cmPwmRegs.pwmdiv } }

/-- `SetChannelConfig` -/
def setChannelConfig (s : Context) : Context :=
  { s with
    pwmRegs :=
      { s.pwmRegs with rng1 := s.pwmChannel1Config.range, rng2 := s.pwmChannel2Config.range } }

/-- `SetDutyRegister` -/
def setDutyRegister (s : Context) : Context :=
  { s with pwmRegs := { s.pwmRegs with dat1 := s.pwmDuty1, dat2 := s.pwmDuty2 } }

/-- `StartChannel` -/
def startChannel (s : Context) (channel : UInt32) : Context :=
  { s with
    pwmRegs :=
      { s.pwmRegs with
        ctl1 := if isChannel1OrAll channel then channelCtl s.pwmMode s.pwmChannel1Config
          else s.pwmRegs.ctl1
        ctl2 := if isChannel2OrAll channel then channelCtl s.pwmMode s.pwmChannel2Config
          else s.pwmRegs.ctl2 } }

/-- `StopChannel` -/
def stopChannel (s : Context) (channel : UInt32) : Context :=
  { s with
    pwmRegs :=
      { s.pwmRegs with
        ctl1 := if isChannel1OrAll channel then { s.pwmRegs.ctl1 with pwen := false }
          else s.pwmRegs.ctl1
        ctl2 := if isChannel2OrAll channel then { s.pwmRegs.ctl2 with pwen := false }
          else s.pwmRegs.ctl2 } }

/-- `StartDma`, with the first control block -/
def startDma (s : Context) : Context :=
  { s with dmaChannelRegs := { active := true, conblkAd := some 0 } }

/-- `PauseDma` -/
def pauseDma (s : Context) : Context :=
  { s with dmaChannelRegs := { s.dmaChannelRegs with active := false } }

/-- `ResumeDma` -/
def resumeDma (s : Context) : Context :=
  { s with dmaChannelRegs := { s.dmaChannelRegs with active := true } }

/-- `StopDma` -/
def stopDma (s : Context) : Context :=
  { s with dmaChannelRegs := { active := false, conblkAd := none } }

/-! ## The IOCTLs -/

/-- The locked section of `ValidateAndSetClockConfig`. -/
def takeClockConfig (s : Context) (c : ClockConfig) : Context :=
  setClockConfig { s with pwmClockConfig := c }

/-- `ValidateAndSetClockConfig`, which makes its tests outside the lock -/
def validateAndSetClockConfig (s : Context) (c : ClockConfig) : Context × Status :=
  if !validateClockConfig c then (s, .invalidParameter)
  else if s.pwmMode ≠ .register then (s, .operationInProgress)
  else if s.channel1IsRunning || s.channel2IsRunning then (s, .operationInProgress)
  else (s.takeClockConfig c, .success)

/-- `ValidateAndSetChannelConfig` -/
def validateAndSetChannelConfig (s : Context) (channel : UInt32) (c : ChannelConfig) :
    Context × Status :=
  if !validateChannelConfig channel c then (s, .invalidParameter)
  else if s.pwmMode ≠ .register then (s, .operationInProgress)
  else if isChannel1OrAll channel && s.channel1IsRunning then (s, .operationInProgress)
  else if isChannel2OrAll channel && s.channel2IsRunning then (s, .operationInProgress)
  else
    (setChannelConfig
      { s with
        pwmChannel1Config := if isChannel1OrAll channel then c else s.pwmChannel1Config
        pwmDuty1 := if isChannel1OrAll channel then c.range else s.pwmDuty1
        pwmChannel2Config := if isChannel2OrAll channel then c else s.pwmChannel2Config
        pwmDuty2 := if isChannel2OrAll channel then c.range else s.pwmDuty2 }, .success)

/-- `ValidateAndSetDutyRegister` -/
def validateAndSetDutyRegister (s : Context) (channel duty : UInt32) : Context × Status :=
  if isInvalidChannel channel || (isChannel1OrAll channel && s.pwmChannel1Config.range < duty) ||
      (isChannel2OrAll channel && s.pwmChannel2Config.range < duty) then (s, .invalidParameter)
  else if s.pwmMode ≠ .register then (s, .operationInProgress)
  else
    (setDutyRegister
      { s with
        pwmDuty1 := if isChannel1OrAll channel then duty else s.pwmDuty1
        pwmDuty2 := if isChannel2OrAll channel then duty else s.pwmDuty2 }, .success)

/-- `ValidateAndStartChannel` -/
def validateAndStartChannel (s : Context) (channel : UInt32) : Context × Status :=
  if s.pwmMode ≠ .register then (s, .deviceConfigurationError)
  else if isChannel1OrAll channel && s.channel1IsRunning then (s, .deviceConfigurationError)
  else if isChannel2OrAll channel && s.channel2IsRunning then (s, .deviceConfigurationError)
  else (s.startChannel channel, .success)

/-- The locked section of `ValidateAndStopChannel`. -/
def stopChannelAndDma (s : Context) (channel : UInt32) : Context :=
  (s.stopChannel channel).stopDma

/-- `ValidateAndStopChannel`, which tests the mode outside the lock -/
def validateAndStopChannel (s : Context) (channel : UInt32) : Context × Status :=
  if s.pwmMode ≠ .register then (s, .operationInProgress)
  else (s.stopChannelAndDma channel, .success)

/-- `AquireAudio` -/
def aquireAudio (s : Context) : Context × Status :=
  if s.pwmMode = .register ∧ (s.channel1IsRunning || s.channel2IsRunning) then
    (s, .operationInProgress)
  else
    ({ s with
      pwmMode := .audio
      pwmSavedClockConfig := s.pwmClockConfig
      pwmSavedChannel1Config := s.pwmChannel1Config
      pwmSavedChannel2Config := s.pwmChannel2Config }, .success)

/-- `ReleaseAudio` -/
def releaseAudio (s : Context) : Context × Status :=
  if s.pwmMode ≠ .audio then (s, .success)
  else
    (setChannelConfig (setClockConfig
      { s with
        pwmMode := .register
        pwmClockConfig := s.pwmSavedClockConfig
        pwmChannel1Config := s.pwmSavedChannel1Config
        pwmChannel2Config := s.pwmSavedChannel2Config }), .success)

/-- The channel configuration for audio. -/
def audioChannelConfig (pwmRange : UInt32) : ChannelConfig where
  range := pwmRange
  dutyMode := 0
  mode := 0
  polarity := 0
  repeat_ := 0
  silence := 0

/-- The locked section of `InitializeAudio`, when no channel runs. -/
def takeAudioConfig (s : Context) (pwmRange : UInt32) : Context :=
  setChannelConfig
    { setClockConfig { s with pwmClockConfig := ⟨clockSourcePllc, 10⟩ } with
      pwmChannel1Config := audioChannelConfig pwmRange
      pwmChannel2Config := audioChannelConfig pwmRange }

/-- `InitializeAudio`; `output` tells whether the request has an output buffer. The number of
packets is stored before it is checked, and the control blocks are written last. -/
def initializeAudio (s : Context) (c : AudioConfig) (output : Bool) : Context × Status :=
  if dmaBufferSize < c.requestedBufferSize.toNat then (s, .unsuccessful)
  else
    let packetSize := c.requestedBufferSize.toNat / c.notificationsPerBuffer.toNat
    let s := { s with dmaNumPackets := dmaBufferSize / packetSize }
    if s.dmaMaxPackets < s.dmaNumPackets then (s, .unsuccessful)
    else if !output then (s, .bufferTooSmall)
    else if s.channel1IsRunning || s.channel2IsRunning then (s, .operationInProgress)
    else ({ s.takeAudioConfig c.pwmRange with dmaCb := some packetSize }, .success)

/-- `StartAudio` -/
def startAudio (s : Context) : Context × Status :=
  if s.pwmMode ≠ .audio then (s, .deviceConfigurationError)
  else (startChannel (startDma { s with dmaRestartRequired := false }) allChannels, .success)

/-- `StopAudio` -/
def stopAudio (s : Context) : Context × Status :=
  if s.pwmMode ≠ .audio then (s, .success)
  else ({ stopDma (s.stopChannel allChannels) with dmaRestartRequired := false }, .success)

/-- `PauseAudio` -/
def pauseAudio (s : Context) : Context × Status :=
  if s.pwmMode ≠ .audio then (s, .deviceConfigurationError)
  else (if s.dmaChannelRegs.active then s.pauseDma else s, .success)

/-- `ResumeAudio` -/
def resumeAudio (s : Context) : Context × Status :=
  if s.pwmMode ≠ .audio then (s, .deviceConfigurationError)
  else (if s.dmaChannelRegs.active then s else s.resumeDma, .success)

end Context

/-- The IOCTLs that change something, with their input. -/
inductive Ioctl
  | setClockConfig (c : ClockConfig)
  | setChannelConfig (channel : UInt32) (c : ChannelConfig)
  | setDutyRegister (channel duty : UInt32)
  | start (channel : UInt32)
  | stop (channel : UInt32)
  | aquireAudio
  | releaseAudio
  | initializeAudio (c : AudioConfig) (output : Bool)
  | startAudio
  | pauseAudio
  | resumeAudio
  | stopAudio
  deriving DecidableEq

/-- The IOCTLs of register mode. -/
def Ioctl.isRegister : Ioctl → Bool
  | .setClockConfig _ | .setChannelConfig _ _ | .setDutyRegister _ _ | .start _ | .stop _ => true
  | _ => false

/-- `InitializeAudio` divides by the number of notifications and by the packet size; a client that
makes them zero stops the system. -/
def Ioctl.divides : Ioctl → Prop
  | .initializeAudio c _ =>
    dmaBufferSize < c.requestedBufferSize.toNat ∨
      0 < c.requestedBufferSize.toNat / c.notificationsPerBuffer.toNat
  | _ => True

instance (i : Ioctl) : Decidable i.divides := by
  cases i <;> unfold Ioctl.divides <;> infer_instance

/-- `OnIoDeviceControl`, one IOCTL after the other. -/
def Context.ioctl (s : Context) : Ioctl → Context × Status
  | .setClockConfig c => s.validateAndSetClockConfig c
  | .setChannelConfig channel c => s.validateAndSetChannelConfig channel c
  | .setDutyRegister channel duty => s.validateAndSetDutyRegister channel duty
  | .start channel => s.validateAndStartChannel channel
  | .stop channel => s.validateAndStopChannel channel
  | .aquireAudio => s.aquireAudio
  | .releaseAudio => s.releaseAudio
  | .initializeAudio c output => s.initializeAudio c output
  | .startAudio => s.startAudio
  | .pauseAudio => s.pauseAudio
  | .resumeAudio => s.resumeAudio
  | .stopAudio => s.stopAudio

/-- The default configuration of a channel. -/
def defaultChannelConfig : ChannelConfig where
  range := 0x20
  dutyMode := 1
  mode := 0
  polarity := 0
  repeat_ := 0
  silence := 0

/-- A channel that is switched off. -/
def ChannelCtl.off (c : ChannelCtl) : Prop := c.pwen = false

/-- The context after `PrepareHardware`, which writes no register: whatever the clock and range
registers hold, with the channels off and the DMA channel inactive. The default divisor is
`CM_PWMCTL_DIVI_PLLC_1MHZ`, which is shifted already. -/
def Context.prepared (dmaMaxPackets : Nat) (cm : ClockRegs) (regs : PwmRegs) : Context where
  pwmMode := .register
  pwmClockConfig := ⟨clockSourcePllc, (1000 : UInt32) <<< 12⟩
  pwmChannel1Config := defaultChannelConfig
  pwmChannel2Config := defaultChannelConfig
  pwmSavedClockConfig := ⟨0, 0⟩
  pwmSavedChannel1Config := ⟨0, 0, 0, 0, 0, 0⟩
  pwmSavedChannel2Config := ⟨0, 0, 0, 0, 0, 0⟩
  pwmDuty1 := 0
  pwmDuty2 := 0
  dmaMaxPackets := dmaMaxPackets
  dmaNumPackets := 0
  dmaCb := none
  dmaRestartRequired := false
  cmPwmRegs := cm
  pwmRegs := regs
  dmaChannelRegs := { active := false, conblkAd := none }

end RpiDrivers.PwmDriver
