import RpiDrivers.PwmDriver.Ioctl

/-!
# Audio mode (`pwm.cpp`, `dma.cpp`)

`AquireAudio` saves the configuration and `ReleaseAudio` puts it back; in between
`InitializeAudio` sets the one for audio and writes the control blocks, and the DMA channel runs on
them. Clients send the IOCTLs in any order, and the DMA channel moves on by itself.

- `ConfigRestored`: what was in force before audio mode is in force after it, and the IOCTLs of
  register mode do not change it meanwhile.
- `configRestored_of_savedOnce`: **runs that save the configuration once for each audio mode, and
  with the registers set from it, restore it**. `config_lost`: a second acquire saves the
  configuration for audio.
- `DmaSafe`: the DMA channel runs in audio mode only, on control blocks that have been written and
  that nobody writes meanwhile, and in register mode the channels run by `START` only.
- `dmaSafe_of_stopped`: **runs that initialise before they start, and stop before they release, are
  safe**. `dma_unsafe`: a client that does neither.
-/

namespace RpiDrivers.PwmDriver

open RpiDrivers.Lib

/-! ## Runs of IOCTLs -/

/-- The configuration in force: that of the context, and what the registers hold of it. The bits of
`CTL` matter while the channel is on; they are written when it is started. -/
structure InForce where
  clock : ClockConfig
  channel1 : ChannelConfig
  channel2 : ChannelConfig
  cmPwmRegs : ClockRegs
  rng1 : UInt32
  rng2 : UInt32
  ctl1 : Option ChannelCtl
  ctl2 : Option ChannelCtl
  deriving DecidableEq

def ChannelCtl.inForce (c : ChannelCtl) : Option ChannelCtl := if c.pwen then some c else none

def Context.inForce (s : Context) : InForce where
  clock := s.pwmClockConfig
  channel1 := s.pwmChannel1Config
  channel2 := s.pwmChannel2Config
  cmPwmRegs := s.cmPwmRegs
  rng1 := s.pwmRegs.rng1
  rng2 := s.pwmRegs.rng2
  ctl1 := s.pwmRegs.ctl1.inForce
  ctl2 := s.pwmRegs.ctl2.inForce

/-- The device with what happened to it. `entered` is the configuration that was in force when audio
mode was entered last, `released` lists it for each release that ended audio mode, next to what was
in force then, and `started1` and `started2` are the modes in which the channels were started. -/
structure Device where
  ctx : Context
  entered : InForce
  released : List (InForce × InForce)
  started1 : PwmMode
  started2 : PwmMode

/-- The mode in which the IOCTL has started a channel, if it is one that starts it. -/
def startedBy (started : PwmMode) (starts : UInt32 → Bool) (i : Ioctl) (status : Status) : PwmMode :=
  match i with
  | .start channel => if status = .success && starts channel then .register else started
  | .startAudio => if status = .success then .audio else started
  | _ => started

/-- What can happen next. -/
inductive Action
  | ioctl (i : Ioctl)
  /-- the DMA channel goes on to another control block, or ends -/
  | dma (next : Option Nat)

namespace Device

def enabled (s : Device) : Action → Prop
  | .ioctl i => i.divides
  | .dma _ => s.ctx.dmaChannelRegs.active = true ∧ s.ctx.dmaChannelRegs.conblkAd.isSome = true

instance (s : Device) (a : Action) : Decidable (s.enabled a) := by
  cases a <;> unfold enabled <;> infer_instance

def effect (s : Device) : Action → Device
  | .ioctl i =>
    let r := s.ctx.ioctl i
    { ctx := r.1
      entered := if s.ctx.pwmMode = .register ∧ r.1.pwmMode = .audio then s.ctx.inForce
        else s.entered
      released := if s.ctx.pwmMode = .audio ∧ r.1.pwmMode = .register then
          s.released ++ [(s.entered, r.1.inForce)]
        else s.released
      started1 := startedBy s.started1 isChannel1OrAll i r.2
      started2 := startedBy s.started2 isChannel2OrAll i r.2 }
  | .dma next =>
    { s with
      ctx := { s.ctx with dmaChannelRegs := { active := next.isSome, conblkAd := next } } }

end Device

/-- Every sequence of IOCTLs, from a device that has just been prepared. -/
def deviceMachine : Machine Device Action :=
  .guarded (fun s => ∃ dmaMaxPackets cm regs, regs.ctl1.off ∧ regs.ctl2.off ∧
      s.ctx = .prepared dmaMaxPackets cm regs ∧ s.released = [])
    Device.enabled Device.effect

/-! ## What the IOCTLs leave alone -/

namespace Context

/-- The configuration that `AquireAudio` has saved. -/
def saved (s : Context) : ClockConfig × ChannelConfig × ChannelConfig :=
  (s.pwmSavedClockConfig, s.pwmSavedChannel1Config, s.pwmSavedChannel2Config)

/-- The configuration of the context. -/
def live (s : Context) : ClockConfig × ChannelConfig × ChannelConfig :=
  (s.pwmClockConfig, s.pwmChannel1Config, s.pwmChannel2Config)

/-- In audio mode the IOCTLs of register mode do nothing. -/
theorem ioctl_of_audio {s : Context} (h : s.pwmMode = .audio) {i : Ioctl}
    (hi : i.isRegister = true) : (s.ioctl i).1 = s ∧ (s.ioctl i).2 ≠ .success := by
  have hmode : s.pwmMode ≠ .register := by
    rw [h]
    exact fun hr => by cases hr
  cases i with
  | setClockConfig c =>
    simp only [ioctl, validateAndSetClockConfig, if_pos hmode]
    split <;> exact ⟨rfl, fun h => by cases h⟩
  | setChannelConfig channel c =>
    simp only [ioctl, validateAndSetChannelConfig, if_pos hmode]
    split <;> exact ⟨rfl, fun h => by cases h⟩
  | setDutyRegister channel duty =>
    simp only [ioctl, validateAndSetDutyRegister, if_pos hmode]
    split <;> exact ⟨rfl, fun h => by cases h⟩
  | start channel =>
    rw [ioctl, validateAndStartChannel, if_pos hmode]
    exact ⟨rfl, fun h => by cases h⟩
  | stop channel =>
    rw [ioctl, validateAndStopChannel, if_pos hmode]
    exact ⟨rfl, fun h => by cases h⟩
  | aquireAudio | releaseAudio | initializeAudio | startAudio | pauseAudio | resumeAudio
  | stopAudio => cases hi

/-- Only `AquireAudio` and `ReleaseAudio` change the mode, and only the first one what is saved. -/
theorem ioctl_mode_saved (s : Context) {i : Ioctl} (ha : i ≠ .aquireAudio) (hr : i ≠ .releaseAudio) :
    (s.ioctl i).1.pwmMode = s.pwmMode ∧ (s.ioctl i).1.saved = s.saved := by
  cases i with
  | aquireAudio => exact absurd rfl ha
  | releaseAudio => exact absurd rfl hr
  | setClockConfig c =>
    simp only [ioctl, validateAndSetClockConfig]
    split_ifs <;> exact ⟨rfl, rfl⟩
  | setChannelConfig channel c =>
    simp only [ioctl, validateAndSetChannelConfig]
    split_ifs <;> exact ⟨rfl, rfl⟩
  | setDutyRegister channel duty =>
    simp only [ioctl, validateAndSetDutyRegister]
    split_ifs <;> exact ⟨rfl, rfl⟩
  | start channel =>
    simp only [ioctl, validateAndStartChannel]
    split_ifs <;> exact ⟨rfl, rfl⟩
  | stop channel =>
    simp only [ioctl, validateAndStopChannel]
    split_ifs <;> exact ⟨rfl, rfl⟩
  | initializeAudio c output =>
    simp only [ioctl, initializeAudio]
    split_ifs <;> exact ⟨rfl, rfl⟩
  | startAudio =>
    simp only [ioctl, startAudio]
    split_ifs <;> exact ⟨rfl, rfl⟩
  | pauseAudio =>
    simp only [ioctl, pauseAudio]
    split_ifs <;> exact ⟨rfl, rfl⟩
  | resumeAudio =>
    simp only [ioctl, resumeAudio]
    split_ifs <;> exact ⟨rfl, rfl⟩
  | stopAudio =>
    simp only [ioctl, stopAudio]
    split_ifs <;> exact ⟨rfl, rfl⟩

/-- `AquireAudio` enters audio mode, or stays in the mode with everything as it is. -/
theorem aquireAudio_cases (s : Context) :
    (s.pwmMode = .register ∧ s.isRunning = true ∧ s.aquireAudio.1 = s) ∨
      ((s.pwmMode = .register → s.isRunning = false) ∧ s.aquireAudio.1.pwmMode = .audio ∧
        s.aquireAudio.1.saved = s.live) := by
  by_cases h : s.pwmMode = .register ∧ (s.channel1IsRunning || s.channel2IsRunning) = true
  · refine .inl ⟨h.1, h.2, ?_⟩
    rw [aquireAudio, if_pos h]
  · refine .inr ⟨fun hmode => ?_, ?_, ?_⟩
    · exact Bool.eq_false_iff.2 fun hrun => h ⟨hmode, hrun⟩
    · rw [aquireAudio, if_neg h]
    · rw [aquireAudio, if_neg h]
      rfl

/-! ## Saving and restoring -/

/-- The registers hold the configuration of the context. -/
structure Programmed (s : Context) : Prop where
  divisor : s.pwmClockConfig.divisor.toNat < 4096
  clock : s.cmPwmRegs = ⟨cmPwmCtlSrc s.pwmClockConfig.clockSource,
    s.pwmClockConfig.divisor.toNat <<< 12⟩
  rng1 : s.pwmRegs.rng1 = s.pwmChannel1Config.range
  rng2 : s.pwmRegs.rng2 = s.pwmChannel2Config.range

theorem programmed_iff (s : Context) : s.Programmed ↔ s.pwmClockConfig.divisor.toNat < 4096 ∧
    s.cmPwmRegs = ⟨cmPwmCtlSrc s.pwmClockConfig.clockSource,
      s.pwmClockConfig.divisor.toNat <<< 12⟩ ∧
    s.pwmRegs.rng1 = s.pwmChannel1Config.range ∧ s.pwmRegs.rng2 = s.pwmChannel2Config.range :=
  ⟨fun h => ⟨h.divisor, h.clock, h.rng1, h.rng2⟩, fun h => ⟨h.1, h.2.1, h.2.2.1, h.2.2.2⟩⟩

instance (s : Context) : Decidable s.Programmed :=
  decidable_of_iff' _ s.programmed_iff

end Context

/-- What is in force when the registers hold a configuration and no channel is on. -/
def InForce.ofConfig (c : ClockConfig × ChannelConfig × ChannelConfig) : InForce where
  clock := c.1
  channel1 := c.2.1
  channel2 := c.2.2
  cmPwmRegs := ⟨cmPwmCtlSrc c.1.clockSource, c.1.divisor.toNat <<< 12⟩
  rng1 := c.2.1.range
  rng2 := c.2.2.range
  ctl1 := none
  ctl2 := none

theorem ChannelCtl.inForce_off {c : ChannelCtl} (h : c.pwen = false) : c.inForce = none := by
  rw [ChannelCtl.inForce, h]
  rfl

/-- Neither channel is on. -/
theorem Context.off_of_not_running {s : Context} (h : s.isRunning = false) :
    s.pwmRegs.ctl1.pwen = false ∧ s.pwmRegs.ctl2.pwen = false :=
  Bool.or_eq_false_iff.1 h

theorem Context.Programmed.inForce_eq {s : Context} (h : s.Programmed) (hoff : s.isRunning = false) :
    s.inForce = .ofConfig s.live := by
  obtain ⟨h1, h2⟩ := Context.off_of_not_running hoff
  rw [Context.inForce, h.clock, h.rng1, h.rng2, ChannelCtl.inForce_off h1, ChannelCtl.inForce_off h2]
  rfl

/-- A divisor of 12 bits reaches `PWMDIV`. -/
theorem pwmdivValue_eq {divisor : Nat} (h : divisor < 4096) :
    pwmdivValue divisor = 0x5A * 16777216 + divisor <<< 12 := by
  have hlt : divisor <<< 12 < 2 ^ 24 := by
    rw [Nat.shiftLeft_eq]
    omega
  rw [pwmdivValue, Nat.mod_eq_of_lt (by omega), Nat.or_comm,
    ← Nat.shiftLeft_add_eq_or_of_lt hlt, Nat.shiftLeft_eq]

/-- The password is right, and the fields are the divisor. -/
theorem pwmdivValue_fields {divisor : Nat} (h : divisor < 4096) :
    pwmdivValue divisor >>> 24 = 0x5A ∧ pwmdivValue divisor % 16777216 = divisor <<< 12 := by
  have hlt : divisor <<< 12 < 16777216 := by
    rw [Nat.shiftLeft_eq]
    omega
  rw [pwmdivValue_eq h, Nat.shiftRight_eq_div_pow]
  exact ⟨by omega, by omega⟩

theorem Context.setClockConfig_regs {s : Context} (h : s.pwmClockConfig.divisor.toNat < 4096) :
    s.setClockConfig.cmPwmRegs = ⟨cmPwmCtlSrc s.pwmClockConfig.clockSource,
      s.pwmClockConfig.divisor.toNat <<< 12⟩ := by
  obtain ⟨hpasswd, hfields⟩ := pwmdivValue_fields h
  show ClockRegs.mk _ (if pwmdivValue _ >>> 24 = 0x5A then pwmdivValue _ % 16777216 else _) = _
  rw [if_pos hpasswd, hfields]

/-- **`ReleaseAudio` puts back what was saved**, when the channels are off. -/
theorem Context.releaseAudio_inForce {s : Context} (h : s.pwmMode = .audio)
    (hoff : s.isRunning = false) (hdivisor : s.pwmSavedClockConfig.divisor.toNat < 4096) :
    s.releaseAudio.1.inForce = .ofConfig s.saved := by
  have hprogrammed : s.releaseAudio.1.Programmed := by
    rw [releaseAudio, if_neg (by rw [h]; decide)]
    exact ⟨hdivisor, setClockConfig_regs hdivisor, rfl, rfl⟩
  have hrun : s.releaseAudio.1.isRunning = false := by
    rw [releaseAudio, if_neg (by rw [h]; decide)]
    exact hoff
  have hlive : s.releaseAudio.1.live = s.saved := by
    rw [releaseAudio, if_neg (by rw [h]; decide)]
    rfl
  rw [hprogrammed.inForce_eq hrun, hlive]

/-- Leaving audio mode restores what was in force before it, and meanwhile the IOCTLs of register
mode change nothing. -/
structure ConfigRestored (s : Device) : Prop where
  restored : ∀ r ∈ s.released, r.2 = r.1
  untouched : s.ctx.pwmMode = .audio → ∀ i : Ioctl, i.isRegister = true →
    (s.ctx.ioctl i).1.inForce = s.ctx.inForce

/-- The condition: an acquire that enters audio mode finds the registers set from the context, one
in audio mode finds nothing changed since the last one, and a release finds the channels off. -/
def SavedOnce (s : Device) : Action → Prop
  | .ioctl .aquireAudio =>
    match s.ctx.pwmMode with
    | .register => s.ctx.isRunning = false → s.ctx.Programmed
    | .audio => s.ctx.live = s.ctx.saved
  | .ioctl .releaseAudio => s.ctx.pwmMode = .audio → s.ctx.isRunning = false
  | _ => True

instance (s : Device) (a : Action) : Decidable (SavedOnce s a) := by
  unfold SavedOnce
  split
  · split <;> infer_instance
  all_goals infer_instance

/-- What every state of such a run satisfies. -/
structure SavedInv (s : Device) : Prop where
  restored : ∀ r ∈ s.released, r.2 = r.1
  /-- what is saved is what was in force when audio mode was entered -/
  entered : s.ctx.pwmMode = .audio → s.entered = .ofConfig s.ctx.saved
  divisor : s.ctx.pwmMode = .audio → s.ctx.pwmSavedClockConfig.divisor.toNat < 4096

namespace SavedInv

variable {s : Device}

/-- A step that changes neither the mode nor what is saved. -/
theorem congr {s' : Device} (h : SavedInv s) (hmode : s'.ctx.pwmMode = s.ctx.pwmMode)
    (hsaved : s'.ctx.saved = s.ctx.saved) (hentered : s'.entered = s.entered)
    (hreleased : s'.released = s.released) : SavedInv s' where
  restored r hr := h.restored r (hreleased ▸ hr)
  entered ha := by
    rw [hentered, hsaved]
    exact h.entered (hmode ▸ ha)
  divisor ha := by
    have hclock : s'.ctx.pwmSavedClockConfig = s.ctx.pwmSavedClockConfig := congrArg (·.1) hsaved
    rw [hclock]
    exact h.divisor (hmode ▸ ha)

/-- An IOCTL that leaves the mode enters and ends nothing. -/
theorem sameMode (h : SavedInv s) {i : Ioctl} (hmode : (s.ctx.ioctl i).1.pwmMode = s.ctx.pwmMode)
    (hsaved : (s.ctx.ioctl i).1.saved = s.ctx.saved) : SavedInv (s.effect (.ioctl i)) := by
  refine h.congr hmode hsaved ?_ ?_
  · refine if_neg fun ⟨hreg, haudio⟩ => ?_
    rw [hmode, hreg] at haudio
    cases haudio
  · refine if_neg fun ⟨haudio, hreg⟩ => ?_
    rw [hmode, haudio] at hreg
    cases hreg

theorem aquireAudio (h : SavedInv s) (hok : SavedOnce s (.ioctl .aquireAudio)) :
    SavedInv (s.effect (.ioctl .aquireAudio)) := by
  rcases s.ctx.aquireAudio_cases with ⟨hmode, hrun, hsame⟩ | ⟨hoff, hmode, hsaved⟩
  · have hctx : (s.ctx.ioctl .aquireAudio).1 = s.ctx := hsame
    exact h.sameMode (by rw [hctx]) (by rw [hctx])
  · cases hwas : s.ctx.pwmMode with
    | register =>
      -- audio mode is entered: what is saved is in force
      have hprogrammed : s.ctx.Programmed := by
        have hcond := hok
        simp only [SavedOnce, hwas] at hcond
        exact hcond (hoff hwas)
      have hentered : (s.effect (.ioctl .aquireAudio)).entered = s.ctx.inForce :=
        if_pos ⟨hwas, hmode⟩
      have hreleased : (s.effect (.ioctl .aquireAudio)).released = s.released :=
        if_neg fun hc => by
          rw [hwas] at hc
          cases hc.1
      constructor
      · rw [hreleased]
        exact h.restored
      · intro _
        rw [hentered, hprogrammed.inForce_eq (hoff hwas)]
        exact congrArg InForce.ofConfig hsaved.symm
      · intro _
        have hclock : s.ctx.aquireAudio.1.pwmSavedClockConfig = s.ctx.pwmClockConfig :=
          congrArg (·.1) hsaved
        show s.ctx.aquireAudio.1.pwmSavedClockConfig.divisor.toNat < 4096
        rw [hclock]
        exact hprogrammed.divisor
    | audio =>
      have hcond := hok
      simp only [SavedOnce, hwas] at hcond
      exact h.sameMode (hmode.trans hwas.symm) (hsaved.trans hcond)

theorem releaseAudio (h : SavedInv s) (hok : SavedOnce s (.ioctl .releaseAudio)) :
    SavedInv (s.effect (.ioctl .releaseAudio)) := by
  cases hwas : s.ctx.pwmMode with
  | register =>
    have hctx : (s.ctx.ioctl .releaseAudio).1 = s.ctx := by
      show s.ctx.releaseAudio.1 = s.ctx
      rw [Context.releaseAudio, if_pos (by rw [hwas]; decide)]
    exact h.sameMode (by rw [hctx]) (by rw [hctx])
  | audio =>
    have hmode : (s.ctx.ioctl .releaseAudio).1.pwmMode = .register := by
      show s.ctx.releaseAudio.1.pwmMode = .register
      rw [Context.releaseAudio, if_neg (by rw [hwas]; decide)]
      rfl
    have hforce := Context.releaseAudio_inForce hwas (hok hwas) (h.divisor hwas)
    constructor
    · intro r hr
      have hreleased : (s.effect (.ioctl .releaseAudio)).released =
          s.released ++ [(s.entered, s.ctx.releaseAudio.1.inForce)] := if_pos ⟨hwas, hmode⟩
      rw [hreleased] at hr
      rcases List.mem_append.1 hr with hold | hnew
      · exact h.restored r hold
      · obtain rfl := List.mem_singleton.1 hnew
        exact hforce.trans (h.entered hwas).symm
    · intro haudio
      exact absurd (hmode.symm.trans haudio) fun hc => by cases hc
    · intro haudio
      exact absurd (hmode.symm.trans haudio) fun hc => by cases hc

/-- Every step keeps the invariant. -/
theorem step (h : SavedInv s) {a : Action} (hok : SavedOnce s a) : SavedInv (s.effect a) := by
  cases a with
  | dma next => exact h.congr rfl rfl rfl rfl
  | ioctl i =>
    by_cases ha : i = .aquireAudio
    · subst ha
      exact h.aquireAudio hok
    · by_cases hr : i = .releaseAudio
      · subst hr
        exact h.releaseAudio hok
      · obtain ⟨hmode, hsaved⟩ := s.ctx.ioctl_mode_saved ha hr
        exact h.sameMode hmode hsaved

end SavedInv

/-- **Runs that save the configuration once restore it.** -/
theorem configRestored_of_savedOnce {s : Device} (h : deviceMachine.Reach SavedOnce s) :
    ConfigRestored s := by
  have hinv : SavedInv s := by
    refine h.inv_guarded (fun s hs => ?_) fun s a hinv hok _ => hinv.step hok
    obtain ⟨_, _, _, -, -, hctx, hreleased⟩ := hs
    constructor
    · rw [hreleased]
      exact fun r hr => by cases hr
    · rw [hctx]
      exact fun ha => by cases ha
    · rw [hctx]
      exact fun ha => by cases ha
  exact ⟨hinv.restored, fun haudio i hi => by rw [(Context.ioctl_of_audio haudio hi).1]⟩

/-! ### Runs -/

/-- Registers that hold nothing. -/
def PwmRegs.zero : PwmRegs where
  ctl1 := ⟨false, false, false, false, false, false, false⟩
  ctl2 := ⟨false, false, false, false, false, false, false⟩
  rng1 := 0
  rng2 := 0
  dat1 := 0
  dat2 := 0

/-- A device with room for 51 packets, just prepared. -/
def Device.start : Device where
  ctx := .prepared 51 ⟨0, 0⟩ .zero
  entered := Context.inForce (.prepared 51 ⟨0, 0⟩ .zero)
  released := []
  started1 := .register
  started2 := .register

theorem Device.start_init : deviceMachine.init Device.start :=
  ⟨51, ⟨0, 0⟩, .zero, rfl, rfl, rfl, rfl⟩

/-- The audio driver's configuration: packets of 4096 bytes. -/
def audioConfig : AudioConfig := ⟨65536, 16, 2268⟩

/-- A client configures the PWM, and the audio driver plays something. -/
def playRun : List Action :=
  [.ioctl (.setClockConfig ⟨clockSourcePlld, 500⟩),
    .ioctl (.setChannelConfig allChannels ⟨1000, 0, 0, 1, 0, 0⟩), .ioctl .aquireAudio,
    .ioctl (.initializeAudio audioConfig true), .ioctl .startAudio, .dma (some 1),
    .ioctl .pauseAudio, .ioctl .resumeAudio, .ioctl .stopAudio, .ioctl .releaseAudio]

theorem configRestored_of_savedOnce_play :
    ∃ s, deviceMachine.Reach SavedOnce s ∧ s.released.length = 1 ∧
      s.ctx.pwmClockConfig.divisor = 500 ∧ ConfigRestored s := by
  obtain ⟨s, hs, hp⟩ := deviceMachine.reach_execOk_any SavedOnce playRun
    (p := fun s => s.released.length = 1 && s.ctx.pwmClockConfig.divisor = 500)
    Device.start_init (by decide +kernel)
  obtain ⟨hlength, hdivisor⟩ := Bool.and_eq_true_iff.1 hp
  exact ⟨s, hs, of_decide_eq_true hlength, of_decide_eq_true hdivisor,
    configRestored_of_savedOnce hs⟩

/-- The audio driver acquires the PWM again when it has initialised it. -/
def aquireAgainRun : List Action :=
  [.ioctl (.setClockConfig ⟨clockSourcePlld, 500⟩),
    .ioctl (.setChannelConfig allChannels ⟨1000, 0, 0, 1, 0, 0⟩), .ioctl .aquireAudio,
    .ioctl (.initializeAudio audioConfig true), .ioctl .aquireAudio, .ioctl .releaseAudio]

/-- **The second acquire saves the configuration for audio**, and the client's is lost. -/
theorem config_lost : ¬ ∀ s, deviceMachine.Reachable s → ConfigRestored s := by
  intro h
  obtain ⟨s, hs, hp⟩ := deviceMachine.reach_exec_any aquireAgainRun
    (p := fun s => s.released.any fun r => r.2 ≠ r.1) Device.start_init (by decide +kernel)
  obtain ⟨r, hr, hne⟩ := List.any_eq_true.1 hp
  exact of_decide_eq_true hne ((h s hs).restored r hr)

/-! ## The DMA channel -/

/-- The DMA channel and the channels of the PWM run as their mode allows. -/
structure DmaSafe (s : Device) : Prop where
  audioOnly : s.ctx.dmaChannelRegs.active = true → s.ctx.pwmMode = .audio
  /-- it runs on control blocks that `InitializeAudio` has written -/
  written : s.ctx.dmaChannelRegs.active = true → s.ctx.dmaCb.isSome = true
  /-- which writes none meanwhile -/
  notRewritten : s.ctx.dmaChannelRegs.active = true → ∀ c output,
    (s.ctx.initializeAudio c output).2 ≠ .success ∧
      (s.ctx.initializeAudio c output).1.dmaCb = s.ctx.dmaCb
  /-- in register mode a channel has been started by `START` -/
  registerStart : s.ctx.pwmMode = .register →
    (s.ctx.channel1IsRunning = true → s.started1 = .register) ∧
      (s.ctx.channel2IsRunning = true → s.started2 = .register)

/-- The condition: DMA is started when the control blocks have been written, resumed when moreover a
channel is on, and audio mode is left when it is inactive and the channels are off. -/
def StoppedFirst (s : Device) : Action → Prop
  | .ioctl .startAudio => s.ctx.pwmMode = .audio → s.ctx.dmaCb.isSome = true
  | .ioctl .resumeAudio =>
    s.ctx.pwmMode = .audio → s.ctx.dmaCb.isSome = true ∧ s.ctx.isRunning = true
  | .ioctl .releaseAudio =>
    s.ctx.pwmMode = .audio → s.ctx.dmaChannelRegs.active = false ∧ s.ctx.isRunning = false
  | _ => True

instance (s : Device) (a : Action) : Decidable (StoppedFirst s a) := by
  unfold StoppedFirst
  split <;> infer_instance

/-- What every state of such a run satisfies. -/
structure DmaInv (s : Device) : Prop where
  active : s.ctx.dmaChannelRegs.active = true →
    s.ctx.pwmMode = .audio ∧ s.ctx.dmaCb.isSome = true ∧ s.ctx.isRunning = true
  started1 : s.ctx.pwmMode = .register → s.ctx.channel1IsRunning = true → s.started1 = .register
  started2 : s.ctx.pwmMode = .register → s.ctx.channel2IsRunning = true → s.started2 = .register

/-- While a channel runs, `InitializeAudio` writes no control blocks. -/
theorem Context.initializeAudio_of_running {s : Context} (h : s.isRunning = true) (c : AudioConfig)
    (output : Bool) : (s.initializeAudio c output).2 ≠ .success ∧
      (s.initializeAudio c output).1.dmaCb = s.dmaCb := by
  simp only [initializeAudio]
  split_ifs with h1 h2 h3 h4
  · exact ⟨(by decide : Status.unsuccessful ≠ .success), rfl⟩
  · exact ⟨(by decide : Status.unsuccessful ≠ .success), rfl⟩
  · exact ⟨(by decide : Status.bufferTooSmall ≠ .success), rfl⟩
  · exact ⟨(by decide : Status.operationInProgress ≠ .success), rfl⟩
  · exact absurd h h4

theorem DmaInv.safe {s : Device} (h : DmaInv s) : DmaSafe s where
  audioOnly ha := (h.active ha).1
  written ha := (h.active ha).2.1
  notRewritten ha c output := Context.initializeAudio_of_running (h.active ha).2.2 c output
  registerStart hr := ⟨h.started1 hr, h.started2 hr⟩

namespace DmaInv

variable {s : Device}

/-- A step that changes neither the mode nor what runs. -/
theorem congr {s' : Device} (h : DmaInv s) (hmode : s'.ctx.pwmMode = s.ctx.pwmMode)
    (hactive : s'.ctx.dmaChannelRegs.active = true → s.ctx.dmaChannelRegs.active = true)
    (hcb : s.ctx.dmaCb.isSome = true → s'.ctx.dmaCb.isSome = true)
    (hctl1 : s'.ctx.pwmRegs.ctl1.pwen = s.ctx.pwmRegs.ctl1.pwen)
    (hctl2 : s'.ctx.pwmRegs.ctl2.pwen = s.ctx.pwmRegs.ctl2.pwen)
    (hstarted1 : s'.started1 = s.started1) (hstarted2 : s'.started2 = s.started2) :
    DmaInv s' := by
  have h1 : s'.ctx.channel1IsRunning = s.ctx.channel1IsRunning := hctl1
  have h2 : s'.ctx.channel2IsRunning = s.ctx.channel2IsRunning := hctl2
  constructor
  · intro ha
    obtain ⟨haudio, hwritten, hrun⟩ := h.active (hactive ha)
    refine ⟨hmode.trans haudio, hcb hwritten, ?_⟩
    rw [Context.isRunning, h1, h2]
    exact hrun
  · rw [hmode, h1, hstarted1]
    exact h.started1
  · rw [hmode, h2, hstarted2]
    exact h.started2

/-- What has been in force does not matter here. -/
theorem ofIoctl {i : Ioctl}
    (h : ∀ entered released, DmaInv ⟨(s.ctx.ioctl i).1, entered, released,
      startedBy s.started1 isChannel1OrAll i (s.ctx.ioctl i).2,
      startedBy s.started2 isChannel2OrAll i (s.ctx.ioctl i).2⟩) :
    DmaInv (s.effect (.ioctl i)) :=
  h _ _

/-- The IOCTLs of register mode, which do nothing in audio mode. -/
theorem register (h : DmaInv s) {i : Ioctl} (hi : i.isRegister = true) :
    DmaInv (s.effect (.ioctl i)) := by
  cases hmode : s.ctx.pwmMode with
  | audio =>
    obtain ⟨hctx, hfail⟩ := Context.ioctl_of_audio hmode hi
    have hstarted : ∀ started starts, startedBy started starts i (s.ctx.ioctl i).2 = started := by
      intro started starts
      cases i with
      | start channel => exact if_neg fun hc => hfail (of_decide_eq_true (Bool.and_eq_true_iff.1 hc).1)
      | startAudio => cases hi
      | _ => rfl
    exact h.congr (by rw [Device.effect, hctx]) (by rw [Device.effect, hctx]; exact id)
      (by rw [Device.effect, hctx]; exact id) (by rw [Device.effect, hctx])
      (by rw [Device.effect, hctx]) (hstarted ..) (hstarted ..)
  | register =>
    have hidle : s.ctx.dmaChannelRegs.active ≠ true := fun ha => by
      have := (h.active ha).1
      rw [hmode] at this
      cases this
    cases i with
    | setClockConfig c =>
      refine ofIoctl fun entered released => ?_
      simp only [Context.ioctl, Context.validateAndSetClockConfig]
      split_ifs <;> exact h.congr rfl id id rfl rfl rfl rfl
    | setChannelConfig channel c =>
      refine ofIoctl fun entered released => ?_
      simp only [Context.ioctl, Context.validateAndSetChannelConfig]
      split_ifs <;> exact h.congr rfl id id rfl rfl rfl rfl
    | setDutyRegister channel duty =>
      refine ofIoctl fun entered released => ?_
      simp only [Context.ioctl, Context.validateAndSetDutyRegister]
      split_ifs <;> exact h.congr rfl id id rfl rfl rfl rfl
    | start channel =>
      refine ofIoctl fun entered released => ?_
      simp only [Context.ioctl, Context.validateAndStartChannel]
      split_ifs
      · exact h.congr rfl id id rfl rfl rfl rfl
      · exact h.congr rfl id id rfl rfl rfl rfl
      · exact h.congr rfl id id rfl rfl rfl rfl
      · -- the channels that are started now are started in register mode
        refine ⟨fun ha => absurd ha hidle, fun _ hrun => ?_, fun _ hrun => ?_⟩
        · by_cases hstarts : isChannel1OrAll channel = true
          · exact if_pos hstarts
          · rw [Context.channel1IsRunning, Context.startChannel, if_neg hstarts] at hrun
            exact (if_neg hstarts).trans (h.started1 hmode hrun)
        · by_cases hstarts : isChannel2OrAll channel = true
          · exact if_pos hstarts
          · rw [Context.channel2IsRunning, Context.startChannel, if_neg hstarts] at hrun
            exact (if_neg hstarts).trans (h.started2 hmode hrun)
    | stop channel =>
      refine ofIoctl fun entered released => ?_
      simp only [Context.ioctl, Context.validateAndStopChannel]
      split_ifs
      · exact h.congr rfl id id rfl rfl rfl rfl
      · refine ⟨(fun ha => by cases ha), fun _ hrun => ?_, fun _ hrun => ?_⟩
        · refine h.started1 hmode ?_
          simp only [Context.channel1IsRunning, Context.stopChannelAndDma, Context.stopDma,
            Context.stopChannel] at hrun
          split_ifs at hrun
          exact hrun
        · refine h.started2 hmode ?_
          simp only [Context.channel2IsRunning, Context.stopChannelAndDma, Context.stopDma,
            Context.stopChannel] at hrun
          split_ifs at hrun
          exact hrun
    | _ => cases hi

theorem aquireAudio (h : DmaInv s) : DmaInv (s.effect (.ioctl .aquireAudio)) := by
  refine ofIoctl fun entered released => ?_
  simp only [Context.ioctl, Context.aquireAudio]
  split_ifs with hrun
  · exact h.congr rfl id id rfl rfl rfl rfl
  · exact ⟨fun ha => ⟨rfl, (h.active ha).2⟩, (fun hr => by cases hr), (fun hr => by cases hr)⟩

theorem releaseAudio (h : DmaInv s) (hok : StoppedFirst s (.ioctl .releaseAudio)) :
    DmaInv (s.effect (.ioctl .releaseAudio)) := by
  refine ofIoctl fun entered released => ?_
  simp only [Context.ioctl, Context.releaseAudio]
  split_ifs with hmode
  · exact h.congr rfl id id rfl rfl rfl rfl
  · obtain ⟨hactive, hrun⟩ := hok (not_not.1 hmode)
    obtain ⟨h1, h2⟩ := Context.off_of_not_running hrun
    refine ⟨fun ha => absurd ha ?_, fun _ hon => absurd hon ?_, fun _ hon => absurd hon ?_⟩
    · exact Bool.eq_false_iff.1 hactive
    · exact Bool.eq_false_iff.1 h1
    · exact Bool.eq_false_iff.1 h2

theorem initializeAudio (h : DmaInv s) (c : AudioConfig) (output : Bool) :
    DmaInv (s.effect (.ioctl (.initializeAudio c output))) := by
  refine ofIoctl fun entered released => ?_
  simp only [Context.ioctl, Context.initializeAudio]
  split_ifs
  · exact h.congr rfl id id rfl rfl rfl rfl
  · exact h.congr rfl id id rfl rfl rfl rfl
  · exact h.congr rfl id id rfl rfl rfl rfl
  · exact h.congr rfl id id rfl rfl rfl rfl
  · exact h.congr rfl id (fun _ => rfl) rfl rfl rfl rfl

theorem startAudio (h : DmaInv s) (hok : StoppedFirst s (.ioctl .startAudio)) :
    DmaInv (s.effect (.ioctl .startAudio)) := by
  refine ofIoctl fun entered released => ?_
  simp only [Context.ioctl, Context.startAudio]
  split_ifs with hmode
  · exact h.congr rfl id id rfl rfl rfl rfl
  · have haudio := not_not.1 hmode
    refine ⟨fun _ => ⟨haudio, hok haudio, rfl⟩, fun hr => ?_, fun hr => ?_⟩
    · exact absurd (hr.symm.trans haudio) fun hc => by cases hc
    · exact absurd (hr.symm.trans haudio) fun hc => by cases hc

theorem stopAudio (h : DmaInv s) : DmaInv (s.effect (.ioctl .stopAudio)) := by
  refine ofIoctl fun entered released => ?_
  simp only [Context.ioctl, Context.stopAudio]
  split_ifs with hmode
  · exact h.congr rfl id id rfl rfl rfl rfl
  · have haudio := not_not.1 hmode
    refine ⟨(fun ha => by cases ha), fun hr => ?_, fun hr => ?_⟩
    · exact absurd (hr.symm.trans haudio) fun hc => by cases hc
    · exact absurd (hr.symm.trans haudio) fun hc => by cases hc

theorem pauseAudio (h : DmaInv s) : DmaInv (s.effect (.ioctl .pauseAudio)) := by
  refine ofIoctl fun entered released => ?_
  simp only [Context.ioctl, Context.pauseAudio]
  split_ifs
  · exact h.congr rfl id id rfl rfl rfl rfl
  · exact h.congr rfl (fun ha => by cases ha) id rfl rfl rfl rfl
  · exact h.congr rfl id id rfl rfl rfl rfl

theorem resumeAudio (h : DmaInv s) (hok : StoppedFirst s (.ioctl .resumeAudio)) :
    DmaInv (s.effect (.ioctl .resumeAudio)) := by
  refine ofIoctl fun entered released => ?_
  simp only [Context.ioctl, Context.resumeAudio]
  split_ifs with hmode hactive
  · exact h.congr rfl id id rfl rfl rfl rfl
  · exact h.congr rfl id id rfl rfl rfl rfl
  · have haudio := not_not.1 hmode
    refine ⟨fun _ => ⟨haudio, hok haudio⟩, fun hr => ?_, fun hr => ?_⟩
    · exact absurd (hr.symm.trans haudio) fun hc => by cases hc
    · exact absurd (hr.symm.trans haudio) fun hc => by cases hc

/-- Every step keeps the invariant. -/
theorem step (h : DmaInv s) {a : Action} (hok : StoppedFirst s a) (hen : s.enabled a) :
    DmaInv (s.effect a) := by
  cases a with
  | dma next => exact h.congr rfl (fun _ => hen.1) id rfl rfl rfl rfl
  | ioctl i =>
    cases i with
    | setClockConfig | setChannelConfig | setDutyRegister | start | stop => exact h.register rfl
    | aquireAudio => exact h.aquireAudio
    | releaseAudio => exact h.releaseAudio hok
    | initializeAudio c output => exact h.initializeAudio c output
    | startAudio => exact h.startAudio hok
    | pauseAudio => exact h.pauseAudio
    | resumeAudio => exact h.resumeAudio hok
    | stopAudio => exact h.stopAudio

end DmaInv

/-- **Runs that initialise before they start, and stop before they release, are safe.** -/
theorem dmaSafe_of_stopped {s : Device} (h : deviceMachine.Reach StoppedFirst s) : DmaSafe s := by
  refine DmaInv.safe ?_
  refine h.inv_guarded (fun s hs => ?_) fun s a hinv hok hen => hinv.step hok hen
  obtain ⟨_, _, _, hoff1, hoff2, hctx, -⟩ := hs
  constructor
  · rw [hctx]
    exact fun ha => by cases ha
  · rw [hctx]
    exact fun _ hrun => absurd (hrun.symm.trans hoff1) fun hc => by cases hc
  · rw [hctx]
    exact fun _ hrun => absurd (hrun.symm.trans hoff2) fun hc => by cases hc

theorem dmaSafe_of_stopped_play :
    ∃ s, deviceMachine.Reach StoppedFirst s ∧ s.ctx.dmaChannelRegs.active = true ∧ DmaSafe s := by
  obtain ⟨s, hs, hp⟩ := deviceMachine.reach_execOk_any StoppedFirst (playRun.take 8)
    (p := fun s => s.ctx.dmaChannelRegs.active) Device.start_init (by decide +kernel)
  exact ⟨s, hs, hp, dmaSafe_of_stopped hs⟩

/-- **A client acquires the PWM and starts it**: the DMA channel takes whatever the page of the
control blocks holds. **It releases the PWM without a stop**: the DMA channel goes on. -/
theorem dma_unsafe :
    (∃ s, deviceMachine.Reachable s ∧ s.ctx.dmaChannelRegs.active = true ∧ s.ctx.dmaCb = none) ∧
      (∃ s, deviceMachine.Reachable s ∧ s.ctx.dmaChannelRegs.active = true ∧
        s.ctx.pwmMode = .register) ∧ ¬ ∀ s, deviceMachine.Reachable s → DmaSafe s := by
  obtain ⟨s, hs, hp⟩ := deviceMachine.reach_exec_any [.ioctl .aquireAudio, .ioctl .startAudio]
    (p := fun s => s.ctx.dmaChannelRegs.active && s.ctx.dmaCb.isNone) Device.start_init
    (by decide +kernel)
  obtain ⟨hactive, hnone⟩ := Bool.and_eq_true_iff.1 hp
  obtain ⟨t, ht, hq⟩ := deviceMachine.reach_exec_any
    [.ioctl .aquireAudio, .ioctl (.initializeAudio audioConfig true), .ioctl .startAudio,
      .ioctl .releaseAudio]
    (p := fun s => s.ctx.dmaChannelRegs.active && s.ctx.pwmMode = .register) Device.start_init
    (by decide +kernel)
  obtain ⟨hactive', hmode⟩ := Bool.and_eq_true_iff.1 hq
  refine ⟨⟨s, hs, hactive, Option.isNone_iff_eq_none.1 hnone⟩,
    ⟨t, ht, hactive', of_decide_eq_true hmode⟩, fun h => ?_⟩
  have hwritten := (h s hs).written hactive
  rw [Option.isNone_iff_eq_none.1 hnone] at hwritten
  cases hwritten

end RpiDrivers.PwmDriver
