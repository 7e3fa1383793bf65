import RpiDrivers.PwmDriver.Ioctl

/-!
# The audio stream and the mode of the PWM (`minwavertstream.cpp`)

`SetState` of the wave stream sends the IOCTLs of the PWM driver when the stream goes from one KS
state to a neighbouring one: it acquires the PWM from STOP to ACQUIRE, initialises, pauses and
resumes between PAUSE and RUN, and stops and releases it from PAUSE to ACQUIRE. `SetWritePacket`
starts the DMA with the first packet. Each call into the PWM driver may fail.

- `streamMachine`: every sequence of state changes, packets and failures, with the DMA moving on.
- `ModesAgree`: the PWM is in audio mode while the stream is in PAUSE or RUN, it is released and
  stopped in STOP, acquires and releases match, and a resume finds a paused DMA.
- `modesAgree_of_straight`: **runs that go through ACQUIRE in one direction, that stop and release
  together, and that pause while the DMA is active, keep the two in agreement**.
- `modes_disagree`: a stream that turns back in ACQUIRE, and one that pauses after an underflow.
-/

namespace RpiDrivers.PwmAudio

open RpiDrivers.Lib RpiDrivers.PwmDriver

/-! ## The stream -/

/-- `KSSTATE` -/
inductive KsState
  | stop
  | acquire
  | pause
  | run
  deriving DecidableEq

/-- The states a stream goes on to. -/
def KsState.neighbour : KsState → KsState → Bool
  | .stop, .acquire | .acquire, .stop | .acquire, .pause | .pause, .acquire | .pause, .run
  | .run, .pause => true
  | _, _ => false

/-- The DMA of the PWM at a `RESUME_AUDIO`. -/
structure Resumed where
  dma : DmaRegs
  startedFor : Nat
  initializes : Nat

/-- `CMiniportWaveRTStream`, with the PWM device that it calls. `acquiredFrom` is the state that the
stream came to ACQUIRE from; `acquires`, `releases` and `initializes` count the calls that
succeeded, `startedFor` is the number of the initialise that the last start came after, and
`resumed` lists what each resume found. -/
structure Stream where
  ksState : KsState
  pwmState : KsState
  pwmInitialized : Bool
  restartInProgress : Bool
  restartPacketNumber : Nat
  packetsTransferred : Nat
  audioConfig : AudioConfig
  pwm : Context
  acquiredFrom : KsState
  acquires : Nat
  releases : Nat
  initializes : Nat
  startedFor : Nat
  resumed : List Resumed

namespace Stream

/-- What a call that succeeds is counted as. -/
def counted (s : Stream) : Ioctl → Stream
  | .aquireAudio => { s with acquires := s.acquires + 1 }
  | .releaseAudio => { s with releases := s.releases + 1 }
  | .initializeAudio _ _ => { s with initializes := s.initializes + 1 }
  | .startAudio => { s with startedFor := s.initializes }
  | _ => s

/-- `PwmIoctlCall`, which may fail before the PWM driver sees the request. -/
def pwmIoctlCall (s : Stream) (i : Ioctl) (fails : Bool) : Stream × Bool :=
  if fails then (s, false)
  else if (s.pwm.ioctl i).2 = .success then ({ s.counted i with pwm := (s.pwm.ioctl i).1 }, true)
  else ({ s with pwm := (s.pwm.ioctl i).1 }, false)

/-- `SetState(KSSTATE_STOP)` -/
def setStop (s : Stream) : Stream :=
  { s with
    ksState := .stop
    pwmState := .stop
    restartPacketNumber := 0
    restartInProgress := false
    pwmInitialized := false
    packetsTransferred := 0 }

/-- `SetState(KSSTATE_ACQUIRE)`; the second call is the release. -/
def setAcquire (s : Stream) (fails fails' : Bool) : Stream :=
  match s.ksState with
  | .stop =>
    match s.pwmIoctlCall .aquireAudio fails with
    | (s, true) => { s with ksState := .acquire, acquiredFrom := .stop }
    | (s, false) => s
  | .pause =>
    match s.pwmIoctlCall .stopAudio fails with
    | (s, true) =>
      match s.pwmIoctlCall .releaseAudio fails' with
      | (s, true) => { s with ksState := .acquire, acquiredFrom := .pause }
      | (s, false) => s
    | (s, false) => s
  -- unexpected previous state
  | _ => { s with ksState := .acquire }

/-- `SetState(KSSTATE_PAUSE)` -/
def setPause (s : Stream) (fails : Bool) : Stream :=
  if s.ksState = .run ∧ s.pwmState = .run then
    match s.pwmIoctlCall .pauseAudio fails with
    | (s, true) => { s with ksState := .pause, pwmState := .pause }
    | (s, false) => s
  else { s with ksState := .pause }

/-- A resume is about to be sent. -/
def resuming (s : Stream) : Stream :=
  { s with
    resumed := s.resumed ++ [⟨s.pwm.dmaChannelRegs, s.startedFor, s.initializes⟩] }

/-- `SetState(KSSTATE_RUN)` -/
def setRun (s : Stream) (fails : Bool) : Stream :=
  if s.ksState = .run then s
  else if s.pwmInitialized then
    if s.pwmState = .pause then
      match s.resuming.pwmIoctlCall .resumeAudio fails with
      | (s, true) => { s with ksState := .run, pwmState := .run }
      | (s, false) => s
    else { s with ksState := .run }
  else
    match s.pwmIoctlCall (.initializeAudio s.audioConfig true) fails with
    | (s, true) => { s with ksState := .run, pwmInitialized := true }
    | (s, false) => s

/-- `SetState`; the state stays as it is when a call fails. -/
def setState (s : Stream) (state : KsState) (fails fails' : Bool) : Stream :=
  match state with
  | .stop => s.setStop
  | .acquire => s.setAcquire fails fails'
  | .pause => s.setPause fails
  | .run => s.setRun fails

/-- `SetWritePacket`, as far as the state of the stream goes; `full` tells whether all packets are
in use. It takes no notice when the start fails. -/
def setWritePacket (s : Stream) (packetNumber : Nat) (full fails : Bool) : Stream :=
  if s.ksState ≠ .run then s
  else if !s.restartInProgress && s.pwm.dmaRestartRequired then
    { s with pwmState := .stop, restartPacketNumber := packetNumber, restartInProgress := true }
  else if full then s
  else if s.pwmState = .run then { s with packetsTransferred := s.packetsTransferred + 1 }
  else
    let pwm := if s.restartInProgress then { s.pwm with dmaRestartRequired := false } else s.pwm
    { (Stream.pwmIoctlCall
        { s with
          packetsTransferred := s.packetsTransferred + 1
          restartInProgress := false
          pwm := pwm } .startAudio fails).1 with
      pwmState := .run }

end Stream

/-- What can happen next. -/
inductive StreamAction
  | setState (state : KsState) (fails fails' : Bool)
  | setWritePacket (packetNumber : Nat) (full fails : Bool)
  /-- the DMA channel goes on to another control block, or ends -/
  | dma (next : Option Nat)
  /-- the PWM driver has seen that the packets run out -/
  | restartRequired

namespace Stream

/-- The stream changes to neighbouring states, with a configuration that the PWM driver can divide
by. -/
def enabled (s : Stream) : StreamAction → Prop
  | .setState state _ _ =>
    s.ksState.neighbour state = true ∧ (Ioctl.initializeAudio s.audioConfig true).divides
  | .setWritePacket _ _ _ => True
  | .dma _ => s.pwm.dmaChannelRegs.active = true ∧ s.pwm.dmaChannelRegs.conblkAd.isSome = true
  | .restartRequired => True

instance (s : Stream) (a : StreamAction) : Decidable (s.enabled a) := by
  cases a <;> unfold enabled <;> infer_instance

def effect (s : Stream) : StreamAction → Stream
  | .setState state fails fails' => s.setState state fails fails'
  | .setWritePacket packetNumber full fails => s.setWritePacket packetNumber full fails
  | .dma next =>
    { s with pwm := { s.pwm with dmaChannelRegs := { active := next.isSome, conblkAd := next } } }
  | .restartRequired => { s with pwm := { s.pwm with dmaRestartRequired := true } }

/-- A stream that has just been created, on a PWM device that has just been prepared. -/
def created (audioConfig : AudioConfig) (pwm : Context) : Stream where
  ksState := .stop
  pwmState := .stop
  pwmInitialized := false
  restartInProgress := false
  restartPacketNumber := 0
  packetsTransferred := 0
  audioConfig := audioConfig
  pwm := pwm
  acquiredFrom := .stop
  acquires := 0
  releases := 0
  initializes := 0
  startedFor := 0
  resumed := []

end Stream

/-- Every sequence of state changes and packets. -/
def streamMachine : Machine Stream StreamAction :=
  .guarded (fun s => ∃ audioConfig dmaMaxPackets cm regs,
      s = .created audioConfig (.prepared dmaMaxPackets cm regs))
    Stream.enabled Stream.effect

/-! ## Agreement of the two drivers -/

/-- The resume has found a paused DMA that the latest initialise has set up. -/
def Resumed.Paused (r : Resumed) : Prop :=
  r.dma.active = false ∧ r.dma.conblkAd.isSome = true ∧ r.startedFor = r.initializes ∧
    0 < r.initializes

/-- The stream and the PWM driver agree on the mode. -/
structure ModesAgree (s : Stream) : Prop where
  audio : s.ksState = .pause ∨ s.ksState = .run → s.pwm.pwmMode = .audio
  stopped : s.ksState = .stop →
    s.pwm.pwmMode = .register ∧ s.pwm.dmaChannelRegs.active = false
  /-- every acquire is released once, and before the next one -/
  matched : s.acquires = s.releases + (if s.pwm.pwmMode = .audio then 1 else 0)
  resumed : ∀ r ∈ s.resumed, r.Paused

/-- The condition: the stream leaves ACQUIRE in the direction in which it came, the release does not
fail when the stop of a paused DMA has succeeded, and a pause of a stream that has been started
finds the DMA active. -/
def Straight (s : Stream) : StreamAction → Prop
  | .setState .stop _ _ => s.acquiredFrom = .pause
  | .setState .acquire fails fails' =>
    s.ksState = .pause → s.pwmState = .pause → fails = false → fails' = false
  | .setState .pause fails _ =>
    (s.ksState = .acquire → s.acquiredFrom = .stop) ∧
      (s.ksState = .run → s.pwmState = .run → fails = false →
        s.pwm.dmaChannelRegs.active = true)
  | _ => True

instance (s : Stream) (a : StreamAction) : Decidable (Straight s a) := by
  unfold Straight
  split <;> infer_instance

/-! ## What the calls do -/

namespace Stream

variable {s : Stream}

/-- The IOCTLs for audio succeed in audio mode, and are sent or not. -/
theorem pwmIoctlCall_audio (h : s.pwm.pwmMode = .audio) {i : Ioctl}
    (hi : i = .stopAudio ∨ i = .releaseAudio ∨ i = .pauseAudio ∨ i = .resumeAudio ∨
      i = .startAudio) (fails : Bool) :
    s.pwmIoctlCall i fails =
      if fails then (s, false) else ({ s.counted i with pwm := (s.pwm.ioctl i).1 }, true) := by
  have hsuccess : (s.pwm.ioctl i).2 = .success := by
    rcases hi with rfl | rfl | rfl | rfl | rfl
    · simp [Context.ioctl, Context.stopAudio, h]
    · simp [Context.ioctl, Context.releaseAudio, h]
    · simp [Context.ioctl, Context.pauseAudio, h]
    · simp [Context.ioctl, Context.resumeAudio, h]
    · simp [Context.ioctl, Context.startAudio, h]
  rw [pwmIoctlCall, if_pos hsuccess]

end Stream

section Context

variable {s : Context}

theorem stopAudio_shape (h : s.pwmMode = .audio) :
    (s.ioctl .stopAudio).1.pwmMode = .audio ∧
      (s.ioctl .stopAudio).1.dmaChannelRegs = ⟨false, none⟩ := by
  simp [Context.ioctl, Context.stopAudio, Context.stopDma, Context.stopChannel, h]

theorem releaseAudio_shape (h : s.pwmMode = .audio) :
    (s.ioctl .releaseAudio).1.pwmMode = .register ∧
      (s.ioctl .releaseAudio).1.dmaChannelRegs = s.dmaChannelRegs := by
  simp [Context.ioctl, Context.releaseAudio, Context.setChannelConfig, Context.setClockConfig, h]

theorem pauseAudio_shape (h : s.pwmMode = .audio) :
    (s.ioctl .pauseAudio).1.pwmMode = .audio ∧
      (s.ioctl .pauseAudio).1.dmaChannelRegs = ⟨false, s.dmaChannelRegs.conblkAd⟩ := by
  cases hactive : s.dmaChannelRegs.active with
  | true => simp [Context.ioctl, Context.pauseAudio, Context.pauseDma, h, hactive]
  | false =>
    have heta : s.dmaChannelRegs = ⟨false, s.dmaChannelRegs.conblkAd⟩ := by rw [← hactive]
    simpa [Context.ioctl, Context.pauseAudio, h, hactive] using heta

theorem resumeAudio_shape (h : s.pwmMode = .audio) :
    (s.ioctl .resumeAudio).1.pwmMode = .audio ∧
      (s.ioctl .resumeAudio).1.dmaChannelRegs = ⟨true, s.dmaChannelRegs.conblkAd⟩ := by
  cases hactive : s.dmaChannelRegs.active with
  | true =>
    have heta : s.dmaChannelRegs = ⟨true, s.dmaChannelRegs.conblkAd⟩ := by rw [← hactive]
    simpa [Context.ioctl, Context.resumeAudio, h, hactive] using heta
  | false => simp [Context.ioctl, Context.resumeAudio, Context.resumeDma, h, hactive]

theorem startAudio_shape (h : s.pwmMode = .audio) :
    (s.ioctl .startAudio).1.pwmMode = .audio ∧
      (s.ioctl .startAudio).1.dmaChannelRegs = ⟨true, some 0⟩ := by
  simp [Context.ioctl, Context.startAudio, Context.startDma, Context.startChannel, h]

theorem aquireAudio_shape :
    ((s.ioctl .aquireAudio).2 = .success → (s.ioctl .aquireAudio).1.pwmMode = .audio) ∧
      ((s.ioctl .aquireAudio).2 ≠ .success → (s.ioctl .aquireAudio).1 = s) ∧
      (s.ioctl .aquireAudio).1.dmaChannelRegs = s.dmaChannelRegs := by
  rw [Context.ioctl, Context.aquireAudio]
  split
  · exact ⟨(fun h => by cases h), fun _ => rfl, rfl⟩
  · exact ⟨fun _ => rfl, fun h => absurd rfl h, rfl⟩

theorem initializeAudio_shape (c : AudioConfig) (output : Bool) :
    (s.ioctl (.initializeAudio c output)).1.pwmMode = s.pwmMode ∧
      (s.ioctl (.initializeAudio c output)).1.dmaChannelRegs = s.dmaChannelRegs := by
  simp only [Context.ioctl, Context.initializeAudio]
  split_ifs <;> exact ⟨rfl, rfl⟩

end Context

/-! ## The invariant -/

/-- What holds in each state of the stream. -/
def Stream.Stage (s : Stream) : Prop :=
  match s.ksState with
  | .stop => s.pwm.pwmMode = .register ∧ s.acquires = s.releases ∧ s.pwmInitialized = false ∧
      s.pwmState = .stop
  | .acquire => s.pwm.dmaChannelRegs.conblkAd = none ∧
      ((s.acquiredFrom = .stop ∧ s.pwm.pwmMode = .audio ∧ s.acquires = s.releases + 1 ∧
          s.pwmState = .stop) ∨
        (s.acquiredFrom = .pause ∧ s.pwm.pwmMode = .register ∧ s.acquires = s.releases))
  | .pause => s.pwm.pwmMode = .audio ∧ s.acquires = s.releases + 1 ∧ s.pwmState ≠ .run ∧
      (s.pwmState = .pause →
        s.pwm.dmaChannelRegs.active = false ∧ s.pwm.dmaChannelRegs.conblkAd.isSome = true)
  | .run => s.pwm.pwmMode = .audio ∧ s.acquires = s.releases + 1 ∧ s.pwmState ≠ .pause ∧
      s.pwmInitialized = true

/-- What every state of such a run satisfies. -/
structure StreamInv (s : Stream) : Prop where
  active : s.pwm.dmaChannelRegs.active = true → s.pwm.dmaChannelRegs.conblkAd.isSome = true
  /-- a DMA that is under way has been started after the latest initialise -/
  setUp : s.pwm.dmaChannelRegs.conblkAd.isSome = true →
    s.startedFor = s.initializes ∧ 0 < s.initializes
  fresh : s.pwmInitialized = false → s.pwm.dmaChannelRegs.conblkAd = none
  initialized : s.pwmInitialized = true → 0 < s.initializes
  resumed : ∀ r ∈ s.resumed, r.Paused
  stage : s.Stage

namespace StreamInv

variable {s : Stream}

theorem setStop (h : StreamInv s) (hks : s.ksState = .acquire) (hfrom : s.acquiredFrom = .pause) :
    StreamInv s.setStop := by
  have hstage := h.stage
  rw [Stream.Stage, hks] at hstage
  obtain ⟨hnone, ⟨hstop, -⟩ | ⟨-, hmode, hmatched⟩⟩ := hstage
  · rw [hfrom] at hstop
    cases hstop
  · exact ⟨h.active, h.setUp, fun _ => hnone, (fun hi => by cases hi), h.resumed,
      ⟨hmode, hmatched, rfl, rfl⟩⟩

theorem setAcquire_of_stop (h : StreamInv s) (hks : s.ksState = .stop) (fails fails' : Bool) :
    StreamInv (s.setAcquire fails fails') := by
  have hstage := h.stage
  rw [Stream.Stage, hks] at hstage
  obtain ⟨hmode, hmatched, hfresh, hpwm⟩ := hstage
  obtain ⟨haudio, hsame, hdma⟩ := aquireAudio_shape (s := s.pwm)
  rw [Stream.setAcquire, hks]
  dsimp only
  rw [Stream.pwmIoctlCall]
  split_ifs with hfails hsuccess
  · exact h
  · refine ⟨?_, ?_, ?_, h.initialized, h.resumed, ?_⟩
    · show (s.pwm.ioctl .aquireAudio).1.dmaChannelRegs.active = true → _
      rw [hdma]
      exact h.active
    · show (s.pwm.ioctl .aquireAudio).1.dmaChannelRegs.conblkAd.isSome = true → _
      rw [hdma]
      exact h.setUp
    · show _ → (s.pwm.ioctl .aquireAudio).1.dmaChannelRegs.conblkAd = none
      rw [hdma]
      exact h.fresh
    · refine ⟨?_, .inl ⟨rfl, haudio hsuccess, congrArg (· + 1) hmatched, hpwm⟩⟩
      show (s.pwm.ioctl .aquireAudio).1.dmaChannelRegs.conblkAd = none
      rw [hdma]
      exact h.fresh hfresh
  · have hpwm : { s with pwm := (s.pwm.ioctl .aquireAudio).1 } = s := by rw [hsame hsuccess]
    rw [hpwm]
    exact h

theorem setAcquire_of_pause (h : StreamInv s) (hks : s.ksState = .pause) {fails fails' : Bool}
    (hok : s.pwmState = .pause → fails = false → fails' = false) :
    StreamInv (s.setAcquire fails fails') := by
  have hstage := h.stage
  rw [Stream.Stage, hks] at hstage
  obtain ⟨hmode, hmatched, hnotRun, hpaused⟩ := hstage
  obtain ⟨hmode1, hdma1⟩ := stopAudio_shape hmode
  obtain ⟨hmode2, hdma2⟩ := releaseAudio_shape hmode1
  rw [Stream.setAcquire, hks]
  dsimp only
  rw [Stream.pwmIoctlCall_audio hmode (.inl rfl)]
  cases fails with
  | true => exact h
  | false =>
    rw [if_neg Bool.false_ne_true]
    dsimp only [Stream.counted]
    rw [Stream.pwmIoctlCall_audio (s := { s with pwm := (s.pwm.ioctl .stopAudio).1 }) hmode1
      (.inr (.inl rfl))]
    cases fails' with
    | true =>
      -- the stream stays in PAUSE with the DMA stopped, and it will not resume
      rw [if_pos rfl]
      dsimp only
      have hidle : s.pwmState ≠ .pause := fun hp => by cases hok hp rfl
      refine ⟨?_, ?_, ?_, h.initialized, h.resumed, ?_⟩
      · show (s.pwm.ioctl .stopAudio).1.dmaChannelRegs.active = true → _
        rw [hdma1]
        exact fun hc => by cases hc
      · show (s.pwm.ioctl .stopAudio).1.dmaChannelRegs.conblkAd.isSome = true → _
        rw [hdma1]
        exact fun hc => by cases hc
      · show _ → (s.pwm.ioctl .stopAudio).1.dmaChannelRegs.conblkAd = none
        rw [hdma1]
        exact fun _ => rfl
      · rw [Stream.Stage, hks]
        exact ⟨hmode1, hmatched, hnotRun, fun hp => absurd hp hidle⟩
    | false =>
      rw [if_neg Bool.false_ne_true]
      dsimp only
      have hdma : ((s.pwm.ioctl .stopAudio).1.ioctl .releaseAudio).1.dmaChannelRegs =
          ⟨false, none⟩ := hdma2.trans hdma1
      refine ⟨?_, ?_, ?_, h.initialized, h.resumed, ?_, .inr ⟨rfl, hmode2, hmatched⟩⟩
      · show ((s.pwm.ioctl .stopAudio).1.ioctl .releaseAudio).1.dmaChannelRegs.active = true → _
        rw [hdma]
        exact fun hc => by cases hc
      · show ((s.pwm.ioctl .stopAudio).1.ioctl
          .releaseAudio).1.dmaChannelRegs.conblkAd.isSome = true → _
        rw [hdma]
        exact fun hc => by cases hc
      · show _ → ((s.pwm.ioctl .stopAudio).1.ioctl .releaseAudio).1.dmaChannelRegs.conblkAd = none
        rw [hdma]
        exact fun _ => rfl
      · show ((s.pwm.ioctl .stopAudio).1.ioctl .releaseAudio).1.dmaChannelRegs.conblkAd = none
        rw [hdma]

theorem setPause_of_acquire (h : StreamInv s) (hks : s.ksState = .acquire)
    (hfrom : s.acquiredFrom = .stop) (fails : Bool) : StreamInv (s.setPause fails) := by
  have hstage := h.stage
  rw [Stream.Stage, hks] at hstage
  obtain ⟨hnone, ⟨-, hmode, hmatched, hpwm⟩ | ⟨hpause, -⟩⟩ := hstage
  · rw [Stream.setPause, if_neg fun hc => by rw [hks] at hc; cases hc.1]
    refine ⟨h.active, h.setUp, h.fresh, h.initialized, h.resumed, hmode, hmatched, ?_, ?_⟩
    · show s.pwmState ≠ .run
      rw [hpwm]
      exact fun hc => by cases hc
    · show s.pwmState = .pause → _
      rw [hpwm]
      exact fun hc => by cases hc
  · rw [hfrom] at hpause
    cases hpause

theorem setPause_of_run (h : StreamInv s) (hks : s.ksState = .run) {fails : Bool}
    (hok : s.pwmState = .run → fails = false → s.pwm.dmaChannelRegs.active = true) :
    StreamInv (s.setPause fails) := by
  have hstage := h.stage
  rw [Stream.Stage, hks] at hstage
  obtain ⟨hmode, hmatched, hnotPause, hinit⟩ := hstage
  rw [Stream.setPause]
  split_ifs with hrun
  · rw [Stream.pwmIoctlCall_audio hmode (.inr (.inr (.inl rfl)))]
    cases fails with
    | true => exact h
    | false =>
      rw [if_neg Bool.false_ne_true]
      obtain ⟨hmode1, hdma1⟩ := pauseAudio_shape hmode
      have hsome := h.active (hok hrun.2 rfl)
      refine ⟨?_, ?_, ?_, h.initialized, h.resumed, hmode1, hmatched, (fun hc => by cases hc),
        fun _ => ?_⟩
      · show (s.pwm.ioctl .pauseAudio).1.dmaChannelRegs.active = true → _
        rw [hdma1]
        exact fun hc => by cases hc
      · exact fun _ => h.setUp hsome
      · intro hc
        rw [show s.pwmInitialized = false from hc] at hinit
        cases hinit
      · show (s.pwm.ioctl .pauseAudio).1.dmaChannelRegs.active = false ∧
          (s.pwm.ioctl .pauseAudio).1.dmaChannelRegs.conblkAd.isSome = true
        rw [hdma1]
        exact ⟨rfl, hsome⟩
  · exact ⟨h.active, h.setUp, h.fresh, h.initialized, h.resumed, hmode, hmatched,
      fun hc => hrun ⟨hks, hc⟩, fun hc => absurd hc hnotPause⟩

theorem setRun (h : StreamInv s) (hks : s.ksState = .pause) (fails : Bool) :
    StreamInv (s.setRun fails) := by
  have hstage := h.stage
  rw [Stream.Stage, hks] at hstage
  obtain ⟨hmode, hmatched, hnotRun, hpaused⟩ := hstage
  rw [Stream.setRun, if_neg (by rw [hks]; exact fun hc => by cases hc)]
  split_ifs with hinit hpause
  · -- the resume finds the DMA paused
    obtain ⟨hidle, hsome⟩ := hpaused hpause
    have hresumed : ∀ r ∈ s.resuming.resumed, r.Paused := by
      intro r hr
      rcases List.mem_append.1 hr with hr | hr
      · exact h.resumed r hr
      · obtain rfl := List.mem_singleton.1 hr
        exact ⟨hidle, hsome, h.setUp hsome⟩
    rw [Stream.pwmIoctlCall_audio (s := s.resuming) hmode (.inr (.inr (.inr (.inl rfl))))]
    cases fails with
    | true => exact ⟨h.active, h.setUp, h.fresh, h.initialized, hresumed, h.stage⟩
    | false =>
      rw [if_neg Bool.false_ne_true]
      obtain ⟨hmode1, hdma1⟩ := resumeAudio_shape hmode
      refine ⟨fun _ => ?_, fun _ => h.setUp hsome, ?_, h.initialized, hresumed, hmode1, hmatched,
        (fun hc => by cases hc), hinit⟩
      · show (s.pwm.ioctl .resumeAudio).1.dmaChannelRegs.conblkAd.isSome = true
        rw [hdma1]
        exact hsome
      · intro hc
        rw [show s.pwmInitialized = false from hc] at hinit
        cases hinit
  · exact ⟨h.active, h.setUp, h.fresh, h.initialized, h.resumed, hmode, hmatched, hpause, hinit⟩
  · have hfresh : s.pwm.dmaChannelRegs.conblkAd = none := h.fresh (Bool.eq_false_iff.2 hinit)
    have hnotPause : s.pwmState ≠ .pause := fun hp => by
      have hsome := (hpaused hp).2
      rw [hfresh] at hsome
      cases hsome
    obtain ⟨hmode1, hdma1⟩ := initializeAudio_shape (s := s.pwm) s.audioConfig true
    rw [Stream.pwmIoctlCall]
    split_ifs with hfails hsuccess
    · exact h
    · refine ⟨?_, ?_, (fun hc => by cases hc), fun _ => Nat.succ_pos _, h.resumed,
        hmode1.trans hmode, hmatched, hnotPause, rfl⟩
      · show (s.pwm.ioctl (.initializeAudio s.audioConfig true)).1.dmaChannelRegs.active = true → _
        rw [hdma1]
        exact h.active
      · show (s.pwm.ioctl (.initializeAudio s.audioConfig
          true)).1.dmaChannelRegs.conblkAd.isSome = true → _
        rw [hdma1, hfresh]
        exact fun hc => by cases hc
    · refine ⟨?_, ?_, ?_, h.initialized, h.resumed, ?_⟩
      · show (s.pwm.ioctl (.initializeAudio s.audioConfig true)).1.dmaChannelRegs.active = true → _
        rw [hdma1]
        exact h.active
      · show (s.pwm.ioctl (.initializeAudio s.audioConfig
          true)).1.dmaChannelRegs.conblkAd.isSome = true → _
        rw [hdma1]
        exact h.setUp
      · show _ → (s.pwm.ioctl (.initializeAudio s.audioConfig
          true)).1.dmaChannelRegs.conblkAd = none
        rw [hdma1]
        exact h.fresh
      · rw [Stream.Stage, hks]
        exact ⟨hmode1.trans hmode, hmatched, hnotRun, fun hp => absurd hp hnotPause⟩

theorem startAudio (h : StreamInv s) (hks : s.ksState = .run) (fails : Bool) :
    StreamInv { (s.pwmIoctlCall .startAudio fails).1 with pwmState := .run } := by
  have hstage := h.stage
  rw [Stream.Stage, hks] at hstage
  obtain ⟨hmode, hmatched, -, hinit⟩ := hstage
  rw [Stream.pwmIoctlCall_audio hmode (.inr (.inr (.inr (.inr rfl))))]
  split_ifs
  · refine ⟨h.active, h.setUp, h.fresh, h.initialized, h.resumed, ?_⟩
    rw [Stream.Stage, hks]
    exact ⟨hmode, hmatched, (fun hc => by cases hc), hinit⟩
  · obtain ⟨hmode1, hdma1⟩ := startAudio_shape hmode
    refine ⟨fun _ => ?_, fun _ => ⟨rfl, h.initialized hinit⟩, ?_, h.initialized, h.resumed, ?_⟩
    · show (s.pwm.ioctl .startAudio).1.dmaChannelRegs.conblkAd.isSome = true
      rw [hdma1]
      rfl
    · intro hc
      rw [show s.pwmInitialized = false from hc] at hinit
      cases hinit
    · rw [Stream.Stage]
      dsimp only [Stream.counted]
      rw [hks]
      exact ⟨hmode1, hmatched, (fun hc => by cases hc), hinit⟩

theorem setWritePacket (h : StreamInv s) (packetNumber : Nat) (full fails : Bool) :
    StreamInv (s.setWritePacket packetNumber full fails) := by
  rw [Stream.setWritePacket]
  split_ifs with hks hrestart hfull hrun
  · exact h
  · have hstage := h.stage
    refine ⟨h.active, h.setUp, h.fresh, h.initialized, h.resumed, ?_⟩
    rw [Stream.Stage, not_not.1 hks] at hstage ⊢
    obtain ⟨hmode, hmatched, -, hinit⟩ := hstage
    exact ⟨hmode, hmatched, (fun hc => by cases hc), hinit⟩
  · exact h
  · exact ⟨h.active, h.setUp, h.fresh, h.initialized, h.resumed, h.stage⟩
  -- the first packet, whether `DmaRestartRequired` is to be cleared or not
  · refine startAudio (s := { s with
      packetsTransferred := s.packetsTransferred + 1
      restartInProgress := false
      pwm := { s.pwm with dmaRestartRequired := false } }) ?_ (not_not.1 hks) fails
    exact ⟨h.active, h.setUp, h.fresh, h.initialized, h.resumed, h.stage⟩
  · refine startAudio (s := { s with
      packetsTransferred := s.packetsTransferred + 1
      restartInProgress := false }) ?_ (not_not.1 hks) fails
    exact ⟨h.active, h.setUp, h.fresh, h.initialized, h.resumed, h.stage⟩

theorem dma (h : StreamInv s) {next : Option Nat} (hen : s.enabled (.dma next)) :
    StreamInv (s.effect (.dma next)) := by
  obtain ⟨hactive, hsome⟩ := hen
  have hset := h.setUp hsome
  have hinit : s.pwmInitialized ≠ false := fun hc => by
    rw [h.fresh hc] at hsome
    cases hsome
  refine ⟨id, fun _ => hset, fun hc => absurd hc hinit, h.initialized, h.resumed, ?_⟩
  have hstage := h.stage
  rw [Stream.Stage] at hstage ⊢
  dsimp only [Stream.effect]
  cases hks : s.ksState with
  | stop =>
    rw [hks] at hstage
    exact absurd hstage.2.2.1 hinit
  | acquire =>
    rw [hks] at hstage
    rw [hstage.1] at hsome
    cases hsome
  | pause =>
    rw [hks] at hstage
    obtain ⟨hmode, hmatched, hnotRun, hpaused⟩ := hstage
    refine ⟨hmode, hmatched, hnotRun, fun hp => ?_⟩
    rw [(hpaused hp).1] at hactive
    cases hactive
  | run =>
    rw [hks] at hstage
    exact hstage

/-- Every step keeps the invariant. -/
theorem step (h : StreamInv s) {a : StreamAction} (hok : Straight s a) (hen : s.enabled a) :
    StreamInv (s.effect a) := by
  cases a with
  | setState state fails fails' =>
    have hneighbour := hen.1
    cases state with
    | stop =>
      cases hks : s.ksState with
      | acquire => exact h.setStop hks hok
      | _ => rw [hks] at hneighbour; cases hneighbour
    | acquire =>
      cases hks : s.ksState with
      | stop => exact h.setAcquire_of_stop hks fails fails'
      | pause => exact h.setAcquire_of_pause hks (hok hks)
      | _ => rw [hks] at hneighbour; cases hneighbour
    | pause =>
      cases hks : s.ksState with
      | acquire => exact h.setPause_of_acquire hks (hok.1 hks) fails
      | run => exact h.setPause_of_run hks (hok.2 hks)
      | _ => rw [hks] at hneighbour; cases hneighbour
    | run =>
      cases hks : s.ksState with
      | pause => exact h.setRun hks fails
      | _ => rw [hks] at hneighbour; cases hneighbour
  | setWritePacket packetNumber full fails => exact h.setWritePacket packetNumber full fails
  | dma next => exact h.dma hen
  | restartRequired => exact ⟨h.active, h.setUp, h.fresh, h.initialized, h.resumed, h.stage⟩

/-- The invariant is agreement. -/
theorem agree (h : StreamInv s) : ModesAgree s := by
  have hstage := h.stage
  rw [Stream.Stage] at hstage
  cases hks : s.ksState with
  | stop =>
    rw [hks] at hstage
    obtain ⟨hmode, hmatched, hinit, -⟩ := hstage
    refine ⟨?_, fun _ => ⟨hmode, Bool.eq_false_iff.2 fun hactive => ?_⟩, ?_, h.resumed⟩
    · rw [hks]
      exact fun hc => hc.elim (fun hc => by cases hc) fun hc => by cases hc
    · have hsome := h.active hactive
      rw [h.fresh hinit] at hsome
      cases hsome
    · rw [hmode]
      exact hmatched
  | acquire =>
    rw [hks] at hstage
    refine ⟨?_, ?_, ?_, h.resumed⟩
    · rw [hks]
      exact fun hc => hc.elim (fun hc => by cases hc) fun hc => by cases hc
    · rw [hks]
      exact fun hc => by cases hc
    · obtain ⟨-, ⟨-, hmode, hmatched, -⟩ | ⟨-, hmode, hmatched⟩⟩ := hstage
      · rw [hmode]
        exact hmatched
      · rw [hmode]
        exact hmatched
  | pause =>
    rw [hks] at hstage
    obtain ⟨hmode, hmatched, -⟩ := hstage
    refine ⟨fun _ => hmode, fun hc => ?_, ?_, h.resumed⟩
    · rw [hks] at hc
      cases hc
    · rw [hmode]
      exact hmatched
  | run =>
    rw [hks] at hstage
    obtain ⟨hmode, hmatched, -⟩ := hstage
    refine ⟨fun _ => hmode, fun hc => ?_, ?_, h.resumed⟩
    · rw [hks] at hc
      cases hc
    · rw [hmode]
      exact hmatched

end StreamInv

/-! ## Every run -/

/-- **Runs that go through ACQUIRE in one direction, that stop and release together, and that pause
while the DMA is active, keep the two drivers in agreement.** -/
theorem modesAgree_of_straight {s : Stream} (h : streamMachine.Reach Straight s) :
    ModesAgree s := by
  refine (h.inv_guarded (P := StreamInv) (fun s hs => ?_) fun s a hinv hok hen =>
    hinv.step hok hen).agree
  obtain ⟨_, _, _, _, rfl⟩ := hs
  exact ⟨(fun hc => by cases hc), (fun hc => by cases hc), fun _ => rfl, (fun hc => by cases hc),
    (fun r hr => by cases hr), rfl, rfl, rfl, rfl⟩

/-- A stream of 100 ms, on a device with its registers as they are after a reset. -/
def Stream.start : Stream :=
  .created ⟨35280, 2, 2268⟩ (.prepared 100 ⟨6, 0⟩
    { ctl1 := ⟨false, false, false, false, false, false, false⟩
      ctl2 := ⟨false, false, false, false, false, false, false⟩
      rng1 := 0x20
      rng2 := 0x20
      dat1 := 0
      dat2 := 0 })

theorem Stream.start_init : streamMachine.init .start :=
  ⟨_, _, _, _, rfl⟩

/-- The stream is started and paused. -/
def pauseRun : List StreamAction :=
  [.setState .acquire false false, .setState .pause false false, .setState .run false false,
    .setWritePacket 1 false false, .dma (some 1), .setState .pause false false]

/-- The stream is paused, resumed and stopped. -/
theorem modesAgree_of_straight_resume : ∃ s, streamMachine.Reach Straight s ∧
    s.resumed.length = 1 ∧ s.releases = 1 ∧ s.ksState = .stop ∧ ModesAgree s := by
  obtain ⟨s, hs, hp⟩ := streamMachine.reach_execOk_any Straight
    (pauseRun ++ [.setState .run false false, .setState .pause false false,
      .setState .acquire false false, .setState .stop false false])
    (p := fun s => s.resumed.length = 1 && s.releases = 1 && s.ksState = .stop)
    Stream.start_init (by decide +kernel)
  simp only [Bool.and_eq_true, decide_eq_true_eq] at hp
  exact ⟨s, hs, hp.1.1, hp.1.2, hp.2, modesAgree_of_straight hs⟩

/-- **A stream that turns back in ACQUIRE** keeps the PWM in STOP, or comes to PAUSE without it.
**One that is paused after an underflow** resumes a DMA that has ended. -/
theorem modes_disagree :
    (∃ s, streamMachine.Reachable s ∧ s.ksState = .stop ∧ s.pwm.pwmMode = .audio) ∧
    (∃ s, streamMachine.Reachable s ∧ s.ksState = .pause ∧ s.pwm.pwmMode = .register) ∧
    (∃ s, streamMachine.Reachable s ∧ ∃ r ∈ s.resumed, r.dma.conblkAd = none) ∧
    ¬ ∀ s, streamMachine.Reachable s → ModesAgree s := by
  obtain ⟨s, hs, hp⟩ := streamMachine.reach_exec_any
    [.setState .acquire false false, .setState .stop false false]
    (p := fun s => s.ksState = .stop && s.pwm.pwmMode = .audio) Stream.start_init
    (by decide +kernel)
  obtain ⟨t, ht, hq⟩ := streamMachine.reach_exec_any
    (pauseRun ++ [.setState .acquire false false, .setState .pause false false])
    (p := fun s => s.ksState = .pause && s.pwm.pwmMode = .register) Stream.start_init
    (by decide +kernel)
  obtain ⟨u, hu, hr⟩ := streamMachine.reach_exec_any
    (pauseRun.take 5 ++ [.dma none, .setState .pause false false, .setState .run false false])
    (p := fun s => s.resumed.any fun r => r.dma.conblkAd = none) Stream.start_init
    (by decide +kernel)
  simp only [Bool.and_eq_true, decide_eq_true_eq] at hp hq
  obtain ⟨r, hmem, hnone⟩ := List.any_eq_true.1 hr
  refine ⟨⟨s, hs, hp⟩, ⟨t, ht, hq⟩, ⟨u, hu, r, hmem, of_decide_eq_true hnone⟩, fun h => ?_⟩
  have hmode := ((h s hs).stopped hp.1).1
  rw [hp.2] at hmode
  cases hmode

end RpiDrivers.PwmAudio
