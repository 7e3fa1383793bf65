import RpiDrivers.Lib.Pool
import RpiDrivers.PwmDriver.AudioMode

/-!
# IOCTLs in parallel (`pwm.cpp`, `device.cpp`)

The queue of the device dispatches IOCTLs in parallel, and `pwmLock` keeps their effects apart.
Most of them test what they depend on when they hold the lock. `ValidateAndSetClockConfig` and
`ValidateAndStopChannel` test it before.

- `parallelMachine`: every interleaving of the tests outside the lock and the locked sections.
- `TakenRight`: what the IOCTLs of register mode do, they do when they may.
- `takenRight_of_undisturbed`: **runs in which no acquire and no start comes between the tests and
  the locked section take effect only as they may**.
- `taken_in_audio`: an acquire in between.
-/

namespace RpiDrivers.PwmDriver

open RpiDrivers.Lib

/-! ## The two IOCTLs that test first -/

/-- Where a `SET_CLOCKCONFIG` or a `STOP` stands. -/
inductive Call
  /-- `pwmMode != PWM_MODE_REGISTER`? -/
  | clockMode (c : ClockConfig)
  /-- `PWM_CHANNEL1_IS_RUNNING`? -/
  | clockChannel1 (c : ClockConfig)
  /-- `PWM_CHANNEL2_IS_RUNNING`? -/
  | clockChannel2 (c : ClockConfig)
  /-- the locked section -/
  | takeClock (c : ClockConfig)
  /-- `pwmMode != PWM_MODE_REGISTER`? -/
  | stopMode (channel : UInt32)
  /-- the locked section -/
  | stop (channel : UInt32)
  deriving DecidableEq

/-- The next step of the call: the context after it, and what is left of the call. -/
def Context.runCall (s : Context) : Call → Context × List Call
  | .clockMode c => (s, if s.pwmMode ≠ .register then [] else [.clockChannel1 c])
  | .clockChannel1 c => (s, if s.channel1IsRunning then [] else [.clockChannel2 c])
  | .clockChannel2 c => (s, if s.channel2IsRunning then [] else [.takeClock c])
  | .takeClock c => (s.takeClockConfig c, [])
  | .stopMode channel => (s, if s.pwmMode ≠ .register then [] else [.stop channel])
  | .stop channel => (s.stopChannelAndDma channel, [])

/-- The first step of an IOCTL that tests outside the lock; the others are one locked section. -/
def Ioctl.call : Ioctl → Option Call
  | .setClockConfig c => some (.clockMode c)
  | .stop channel => some (.stopMode channel)
  | _ => none

/-- The input of the IOCTL passes its check. -/
def Ioctl.valid : Ioctl → Bool
  | .setClockConfig c => validateClockConfig c
  | _ => true

/-! ## Every interleaving -/

/-- An IOCTL of register mode that has taken effect, with what the device was like at the moment. -/
structure Taken where
  ioctl : Ioctl
  pwmMode : PwmMode
  channel1IsRunning : Bool
  channel2IsRunning : Bool

/-- The device and the calls under way; `taken` logs what took effect. -/
structure Parallel where
  ctx : Context
  calls : List Call
  taken : List Taken

/-- What can happen next. -/
inductive Event
  /-- an IOCTL that is one locked section -/
  | locked (i : Ioctl)
  /-- an IOCTL that tests first is dispatched -/
  | dispatch (i : Ioctl)
  | call (p : Call)
  /-- the DMA channel goes on to another control block, or ends -/
  | dma (next : Option Nat)

/-- The IOCTL, when the call is at its locked section. -/
def Call.taking : Call → Option Ioctl
  | .takeClock c => some (.setClockConfig c)
  | .stop channel => some (.stop channel)
  | _ => none

namespace Parallel

/-- The IOCTL takes effect now. -/
def take (s : Parallel) (i : Ioctl) : Taken where
  ioctl := i
  pwmMode := s.ctx.pwmMode
  channel1IsRunning := s.ctx.channel1IsRunning
  channel2IsRunning := s.ctx.channel2IsRunning

def enabled (s : Parallel) : Event → Prop
  | .locked i => i.call = none ∧ i.divides
  | .dispatch i => i.call.isSome = true ∧ i.valid = true
  | .call p => p ∈ s.calls
  | .dma _ => s.ctx.dmaChannelRegs.active = true ∧ s.ctx.dmaChannelRegs.conblkAd.isSome = true

instance (s : Parallel) (e : Event) : Decidable (s.enabled e) := by
  cases e <;> unfold enabled <;> infer_instance

def effect (s : Parallel) : Event → Parallel
  | .locked i =>
    { s with
      ctx := (s.ctx.ioctl i).1
      taken := if (s.ctx.ioctl i).2 = .success then s.taken ++ [s.take i] else s.taken }
  | .dispatch i => { s with calls := i.call.toList ++ s.calls }
  | .call p =>
    { ctx := (s.ctx.runCall p).1
      calls := advance s.calls p (s.ctx.runCall p).2
      taken := s.taken ++ (p.taking.map s.take).toList }
  | .dma next =>
    { s with
      ctx := { s.ctx with dmaChannelRegs := { active := next.isSome, conblkAd := next } } }

end Parallel

/-- Every interleaving, from a device that has just been prepared. -/
def parallelMachine : Machine Parallel Event :=
  .guarded (fun s => ∃ dmaMaxPackets cm regs, s.ctx = .prepared dmaMaxPackets cm regs ∧
      s.calls = [] ∧ s.taken = [])
    Parallel.enabled Parallel.effect

/-! ## When they may -/

/-- A configuration is changed in register mode with the channels concerned stopped, and a stop
takes effect in register mode. -/
def Taken.Right (t : Taken) : Prop :=
  match t.ioctl with
  | .setClockConfig _ =>
    t.pwmMode = .register ∧ t.channel1IsRunning = false ∧ t.channel2IsRunning = false
  | .setChannelConfig channel _ =>
    t.pwmMode = .register ∧ (isChannel1OrAll channel = true → t.channel1IsRunning = false) ∧
      (isChannel2OrAll channel = true → t.channel2IsRunning = false)
  | .stop _ => t.pwmMode = .register
  | _ => True

/-- Whatever took effect did so as it may. -/
def TakenRight (s : Parallel) : Prop := ∀ t ∈ s.taken, t.Right

/-- The call has found register mode. -/
def Call.foundMode : Call → Bool
  | .clockMode _ | .stopMode _ => false
  | _ => true

/-- The call has found channel 1 stopped. -/
def Call.foundChannel1 : Call → Bool
  | .clockChannel2 _ | .takeClock _ => true
  | _ => false

/-- The call has found channel 2 stopped. -/
def Call.foundChannel2 : Call → Bool
  | .takeClock _ => true
  | _ => false

/-- The condition: an acquire that enters audio mode finds no call between its test of the mode and
its locked section, and a start finds none that has found the channel stopped. -/
def Undisturbed (s : Parallel) : Event → Prop
  | .locked .aquireAudio => s.ctx.pwmMode = .register → s.ctx.isRunning = false →
      ∀ p ∈ s.calls, p.foundMode = false
  | .locked (.start channel) => s.ctx.pwmMode = .register →
      (isChannel1OrAll channel && s.ctx.channel1IsRunning) = false →
      (isChannel2OrAll channel && s.ctx.channel2IsRunning) = false → ∀ p ∈ s.calls,
        (isChannel1OrAll channel = true → p.foundChannel1 = false) ∧
          (isChannel2OrAll channel = true → p.foundChannel2 = false)
  | _ => True

instance (s : Parallel) (e : Event) : Decidable (Undisturbed s e) := by
  unfold Undisturbed
  split <;> infer_instance

/-- What a call has found is so. -/
def Call.Found (ctx : Context) (p : Call) : Prop :=
  (p.foundMode = true → ctx.pwmMode = .register) ∧
    (p.foundChannel1 = true → ctx.channel1IsRunning = false) ∧
    (p.foundChannel2 = true → ctx.channel2IsRunning = false)

/-- What every state of such a run satisfies. -/
structure FoundInv (s : Parallel) : Prop where
  found : ∀ p ∈ s.calls, p.Found s.ctx
  right : TakenRight s

namespace FoundInv

variable {s : Parallel}

theorem found_of_foundMode {ctx : Context} {p : Call} (h : p.foundMode = false) : p.Found ctx := by
  refine ⟨fun hf => ?_, fun hf => ?_, fun hf => ?_⟩
  · rw [h] at hf
    cases hf
  · cases p with
    | clockChannel2 | takeClock => cases h
    | _ => cases hf
  · cases p with
    | takeClock => cases h
    | _ => cases hf

/-- What has been found stays so, whatever takes the lock under the condition. -/
theorem found_locked (h : FoundInv s) {i : Ioctl} (hi : i.call = none)
    (hok : Undisturbed s (.locked i)) {p : Call} (hp : p ∈ s.calls) :
    p.Found (s.ctx.ioctl i).1 := by
  have hfound := h.found p hp
  cases hmode : p.foundMode with
  | false => exact found_of_foundMode hmode
  | true =>
    have hregister : s.ctx.pwmMode = .register := hfound.1 hmode
    -- what needs the audio mode fails in the mode that the call has found
    have haudio : ¬ s.ctx.pwmMode ≠ .audio → p.Found (s.ctx.ioctl i).1 := by
      intro hne
      rw [hregister] at hne
      exact absurd (fun hc => by cases hc) hne
    cases i with
    | setClockConfig | stop => cases hi
    | setChannelConfig channel c =>
      simp only [Context.ioctl, Context.validateAndSetChannelConfig]
      split_ifs <;> exact hfound
    | setDutyRegister channel duty =>
      simp only [Context.ioctl, Context.validateAndSetDutyRegister]
      split_ifs <;> exact hfound
    | start channel =>
      simp only [Context.ioctl, Context.validateAndStartChannel]
      split_ifs with hne hrun1 hrun2
      · exact hfound
      · exact hfound
      · exact hfound
      · -- the channels that are started have not been found stopped
        obtain ⟨hfree1, hfree2⟩ := hok hregister (Bool.eq_false_iff.2 hrun1)
          (Bool.eq_false_iff.2 hrun2) p hp
        refine ⟨hfound.1, fun hf => ?_, fun hf => ?_⟩
        · have hstays : ¬ isChannel1OrAll channel = true := fun hc => by
            rw [hfree1 hc] at hf
            cases hf
          rw [Context.channel1IsRunning, Context.startChannel, if_neg hstays]
          exact hfound.2.1 hf
        · have hstays : ¬ isChannel2OrAll channel = true := fun hc => by
            rw [hfree2 hc] at hf
            cases hf
          rw [Context.channel2IsRunning, Context.startChannel, if_neg hstays]
          exact hfound.2.2 hf
    | aquireAudio =>
      simp only [Context.ioctl, Context.aquireAudio]
      split_ifs with hbusy
      · exact hfound
      · have hoff : s.ctx.isRunning = false :=
          Bool.eq_false_iff.2 fun hrun => hbusy ⟨hregister, hrun⟩
        rw [hok hregister hoff p hp] at hmode
        cases hmode
    | releaseAudio =>
      simp only [Context.ioctl, Context.releaseAudio] at haudio ⊢
      split_ifs with hne
      · exact hfound
      · rw [if_neg hne] at haudio
        exact haudio hne
    | initializeAudio c output =>
      simp only [Context.ioctl, Context.initializeAudio]
      split_ifs <;> exact hfound
    | startAudio =>
      simp only [Context.ioctl, Context.startAudio] at haudio ⊢
      split_ifs with hne
      · exact hfound
      · rw [if_neg hne] at haudio
        exact haudio hne
    | pauseAudio =>
      simp only [Context.ioctl, Context.pauseAudio]
      split_ifs <;> exact hfound
    | resumeAudio =>
      simp only [Context.ioctl, Context.resumeAudio]
      split_ifs <;> exact hfound
    | stopAudio =>
      simp only [Context.ioctl, Context.stopAudio] at haudio ⊢
      split_ifs with hne
      · exact hfound
      · rw [if_neg hne] at haudio
        exact haudio hne

/-- A locked section that makes its own tests takes effect as it may. -/
theorem right_locked {i : Ioctl} (hi : i.call = none) (hsuccess : (s.ctx.ioctl i).2 = .success) :
    (s.take i).Right := by
  cases i with
  | setClockConfig | stop => cases hi
  | setChannelConfig channel c =>
    rw [Context.ioctl, Context.validateAndSetChannelConfig] at hsuccess
    split at hsuccess
    · cases hsuccess
    split at hsuccess
    · cases hsuccess
    next hmode =>
    split at hsuccess
    · cases hsuccess
    next hrun1 =>
    split at hsuccess
    · cases hsuccess
    next hrun2 =>
    refine ⟨not_not.1 hmode, fun hc => ?_, fun hc => ?_⟩
    · exact Bool.eq_false_iff.2 fun hrun => hrun1 (Bool.and_eq_true_iff.2 ⟨hc, hrun⟩)
    · exact Bool.eq_false_iff.2 fun hrun => hrun2 (Bool.and_eq_true_iff.2 ⟨hc, hrun⟩)
  | _ => trivial

theorem locked (h : FoundInv s) {i : Ioctl} (hi : i.call = none)
    (hok : Undisturbed s (.locked i)) : FoundInv (s.effect (.locked i)) := by
  refine ⟨fun p hp => h.found_locked hi hok hp, fun t ht => ?_⟩
  have ht : t ∈ if (s.ctx.ioctl i).2 = .success then s.taken ++ [s.take i] else s.taken := ht
  split at ht
  · next hsuccess =>
    rcases List.mem_append.1 ht with ht | ht
    · exact h.right t ht
    · obtain rfl := List.mem_singleton.1 ht
      exact right_locked hi hsuccess
  · exact h.right t ht

/-- A call that comes to its locked section has found what it needs. -/
theorem right_taking (h : FoundInv s) {p : Call} (hp : p ∈ s.calls) {i : Ioctl}
    (hi : p.taking = some i) : (s.take i).Right := by
  obtain ⟨hmode, hoff1, hoff2⟩ := h.found p hp
  cases p with
  | takeClock c =>
    obtain rfl := Option.some.inj hi
    exact ⟨hmode rfl, hoff1 rfl, hoff2 rfl⟩
  | stop channel =>
    obtain rfl := Option.some.inj hi
    exact hmode rfl
  | _ => cases hi

/-- A call changes neither the mode nor does it start a channel. -/
theorem found_runCall {ctx : Context} {p q : Call} (h : q.Found ctx) :
    q.Found (ctx.runCall p).1 := by
  cases p with
  | stop channel =>
    obtain ⟨hmode, hoff1, hoff2⟩ := h
    refine ⟨hmode, fun hf => ?_, fun hf => ?_⟩
    · have hpwen : ctx.pwmRegs.ctl1.pwen = false := hoff1 hf
      show (if _ then _ else _ : ChannelCtl).pwen = false
      split
      · rfl
      · exact hpwen
    · have hpwen : ctx.pwmRegs.ctl2.pwen = false := hoff2 hf
      show (if _ then _ else _ : ChannelCtl).pwen = false
      split
      · rfl
      · exact hpwen
  | _ => exact h

/-- A test of the call adds to what it has found. -/
theorem found_next {ctx : Context} {p q : Call} (h : p.Found ctx) (hq : q ∈ (ctx.runCall p).2) :
    q.Found ctx := by
  obtain ⟨hmode, hoff1, hoff2⟩ := h
  cases p with
  | clockMode c =>
    rw [Context.runCall] at hq
    dsimp only at hq
    split at hq
    · cases hq
    · next hne =>
      obtain rfl := List.mem_singleton.1 hq
      exact ⟨fun _ => not_not.1 hne, (fun hf => by cases hf), (fun hf => by cases hf)⟩
  | clockChannel1 c =>
    rw [Context.runCall] at hq
    dsimp only at hq
    split at hq
    · cases hq
    · next hrun =>
      obtain rfl := List.mem_singleton.1 hq
      exact ⟨fun _ => hmode rfl, fun _ => Bool.eq_false_iff.2 hrun, (fun hf => by cases hf)⟩
  | clockChannel2 c =>
    rw [Context.runCall] at hq
    dsimp only at hq
    split at hq
    · cases hq
    · next hrun =>
      obtain rfl := List.mem_singleton.1 hq
      exact ⟨fun _ => hmode rfl, fun _ => hoff1 rfl, fun _ => Bool.eq_false_iff.2 hrun⟩
  | stopMode channel =>
    rw [Context.runCall] at hq
    dsimp only at hq
    split at hq
    · cases hq
    · next hne =>
      obtain rfl := List.mem_singleton.1 hq
      exact ⟨fun _ => not_not.1 hne, (fun hf => by cases hf), (fun hf => by cases hf)⟩
  | takeClock | stop => cases hq

theorem call (h : FoundInv s) {p : Call} (hp : p ∈ s.calls) : FoundInv (s.effect (.call p)) := by
  constructor
  · intro q hq
    refine found_runCall ?_
    rcases mem_advance hq with hq | hq
    · exact found_next (h.found p hp) hq
    · exact h.found q hq
  · intro t ht
    rcases List.mem_append.1 ht with ht | ht
    · exact h.right t ht
    · rw [Option.mem_toList, Option.map_eq_some_iff] at ht
      obtain ⟨i, hi, rfl⟩ := ht
      exact h.right_taking hp hi

/-- Every step keeps the invariant. -/
theorem step (h : FoundInv s) {e : Event} (hok : Undisturbed s e) (hen : s.enabled e) :
    FoundInv (s.effect e) := by
  cases e with
  | locked i => exact h.locked hen.1 hok
  | dispatch i =>
    refine ⟨fun p hp => ?_, h.right⟩
    rcases List.mem_append.1 hp with hp | hp
    · refine found_of_foundMode ?_
      cases i with
      | setClockConfig | stop =>
        obtain rfl := List.mem_singleton.1 hp
        rfl
      | _ => cases hp
    · exact h.found p hp
  | call p => exact h.call hen
  | dma next => exact ⟨h.found, h.right⟩

end FoundInv

/-- **Runs in which no acquire and no start comes in between take effect only as they may.** -/
theorem takenRight_of_undisturbed {s : Parallel} (h : parallelMachine.Reach Undisturbed s) :
    TakenRight s := by
  refine (h.inv_guarded (P := FoundInv) (fun s hs => ?_) fun s e hinv hok hen =>
    hinv.step hok hen).right
  obtain ⟨_, _, _, -, hcalls, htaken⟩ := hs
  constructor
  · rw [hcalls]
    exact fun p hp => by cases hp
  · rw [TakenRight, htaken]
    exact fun t ht => by cases ht

/-- A device with its registers as they are after a reset. -/
def Parallel.start : Parallel where
  ctx := .prepared 100 ⟨6, 0⟩
    { ctl1 := ⟨false, false, false, false, false, false, false⟩
      ctl2 := ⟨false, false, false, false, false, false, false⟩
      rng1 := 0x20
      rng2 := 0x20
      dat1 := 0
      dat2 := 0 }
  calls := []
  taken := []

theorem Parallel.start_init : parallelMachine.init .start :=
  ⟨_, _, _, rfl, rfl, rfl⟩

/-- A client sets the clock and starts, and stops when another one has begun to. -/
theorem takenRight_of_undisturbed_stop : ∃ s, parallelMachine.Reach Undisturbed s ∧
    s.taken.length = 4 ∧ TakenRight s := by
  obtain ⟨s, hs, hp⟩ := parallelMachine.reach_execOk_any Undisturbed
    [.dispatch (.setClockConfig ⟨clockSourcePlld, 500⟩), .call (.clockMode ⟨clockSourcePlld, 500⟩),
      .call (.clockChannel1 ⟨clockSourcePlld, 500⟩), .call (.clockChannel2 ⟨clockSourcePlld, 500⟩),
      .call (.takeClock ⟨clockSourcePlld, 500⟩), .locked (.start allChannels),
      .dispatch (.stop channel1), .dispatch (.stop channel2), .call (.stopMode channel1),
      .call (.stopMode channel2), .call (.stop channel2), .call (.stop channel1)]
    (p := fun s => s.taken.length = 4) Parallel.start_init (by decide +kernel)
  exact ⟨s, hs, of_decide_eq_true hp, takenRight_of_undisturbed hs⟩

/-- An audio client acquires the PWM and starts it when a client has begun to stop the channels. -/
def stopAcrossRun : List Event :=
  [.dispatch (.stop allChannels), .call (.stopMode allChannels), .locked .aquireAudio,
    .locked (.initializeAudio audioConfig true), .locked .startAudio, .call (.stop allChannels)]

/-- An audio client acquires the PWM when a client has made its tests. -/
def clockAcrossRun : List Event :=
  [.dispatch (.setClockConfig ⟨clockSourcePlld, 500⟩), .call (.clockMode ⟨clockSourcePlld, 500⟩),
    .call (.clockChannel1 ⟨clockSourcePlld, 500⟩), .call (.clockChannel2 ⟨clockSourcePlld, 500⟩),
    .locked .aquireAudio, .call (.takeClock ⟨clockSourcePlld, 500⟩)]

/-- **The stop takes effect in audio mode**: it stops the DMA that has been started meanwhile. **So
does the change of the clock.** -/
theorem taken_in_audio :
    (∃ s, parallelMachine.Reachable s ∧ ∃ t ∈ s.taken, t.ioctl = .stop allChannels ∧
      t.pwmMode = .audio ∧ t.channel1IsRunning = true) ∧
    (∃ s, parallelMachine.Reachable s ∧ ∃ t ∈ s.taken,
      t.ioctl = .setClockConfig ⟨clockSourcePlld, 500⟩ ∧ t.pwmMode = .audio) ∧
    ¬ ∀ s, parallelMachine.Reachable s → TakenRight s := by
  obtain ⟨s, hs, hp⟩ := parallelMachine.reach_exec_any stopAcrossRun
    (p := fun s => s.taken.any fun t => t.ioctl = .stop allChannels && t.pwmMode = .audio &&
      t.channel1IsRunning) Parallel.start_init (by decide +kernel)
  obtain ⟨t, ht, hstop⟩ := List.any_eq_true.1 hp
  simp only [Bool.and_eq_true, decide_eq_true_eq] at hstop
  obtain ⟨s', hs', hp'⟩ := parallelMachine.reach_exec_any clockAcrossRun
    (p := fun s => s.taken.any fun t => t.ioctl = .setClockConfig ⟨clockSourcePlld, 500⟩ &&
      t.pwmMode = .audio) Parallel.start_init (by decide +kernel)
  obtain ⟨t', ht', hclock⟩ := List.any_eq_true.1 hp'
  simp only [Bool.and_eq_true, decide_eq_true_eq] at hclock
  refine ⟨⟨s, hs, t, ht, hstop.1.1, hstop.1.2, hstop.2⟩, ⟨s', hs', t', ht', hclock⟩, fun h => ?_⟩
  have hright : t.Right := h s hs t ht
  rw [Taken.Right, hstop.1.1] at hright
  rw [show t.pwmMode = .register from hright] at hstop
  cases hstop.1.2

end RpiDrivers.PwmDriver
