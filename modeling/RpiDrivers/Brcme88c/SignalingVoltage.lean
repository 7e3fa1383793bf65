import Mathlib.Tactic.ByContra
import Mathlib.Tactic.SplitIfs

/-!
# The switch of the signaling voltage (`SlotExtension.cpp` of brcme88c)

The switch stops the clock of the card, sets the voltage regulator, sets the host's `Signaling1_8`
bit and starts the clock again. It has an exit after each step that may go wrong.

- `setSignalingVoltage`: the switch, for every outcome of its steps.
- `SwitchSound`: **it succeeds only at the requested voltage, and a switch that fails leaves
  regulator, host bit and clock as they were**.
- `SwitchesBack`: the condition. A switch that fails early finds the clock stopped, and one that
  fails late finds the host bit and the clock as it leaves them.
- `switchSound_iff`: the two are the same.
- `resetHost_agrees`: the reset that relies on regulator and host bit agreeing.
- `card_not_ready`: a card that is not ready leaves the host at 1.8 V and the regulator at 3.3 V.
-/

namespace RpiDrivers.Brcme88c.SignalingVoltage

/-! ## The slot -/

/-- `SDPORT_SIGNALING_VOLTAGE` -/
inductive SdportSignalingVoltage
  | undefined
  | signalingVoltage33
  | signalingVoltage18
  deriving DecidableEq

inductive Status
  | success
  | notSupported
  | unsuccessful
  | ioTimeout
  /-- the status of `DriverRpiqProperty` -/
  | propertyFailed
  deriving DecidableEq

/-- What the switch sets. -/
structure Slot where
  /-- the voltage that the regulator is at -/
  regulator1_8 : Bool
  /-- `m_regulatorVoltage1_8` -/
  regulatorVoltage1_8 : Bool
  /-- `Signaling1_8` of `HostControl2` -/
  signaling1_8 : Bool
  /-- `SdClockEnable` of `ClockControl` -/
  sdClockEnable : Bool

/-- What a call of the firmware does. A call that fails may leave the regulator anywhere. -/
inductive RegulatorCall
  | succeeds
  | fails (left1_8 : Bool)
  deriving DecidableEq

/-- `SetRegulatorVoltage1_8` -/
def setRegulatorVoltage1_8 (regulatorVoltage1_8 : Bool) (call : RegulatorCall) (s : Slot) :
    Slot × Status :=
  match call with
  | .succeeds =>
    ({ s with
        regulator1_8 := regulatorVoltage1_8
        regulatorVoltage1_8 := regulatorVoltage1_8 }, .success)
  | .fails left1_8 => ({ s with regulator1_8 := left1_8 }, .propertyFailed)

/-- `SetRegulatorVoltageContext`, and whether its event is set -/
structure SetRegulatorVoltageContext where
  slot : Slot
  regulatorVoltage1_8 : Bool
  status : Status
  event : Bool

/-- `InvokeSetRegulatorVoltageWorker` -/
def invokeSetRegulatorVoltageWorker (call : RegulatorCall) (context : SetRegulatorVoltageContext) :
    SetRegulatorVoltageContext :=
  let (slot, status) := setRegulatorVoltage1_8 context.regulatorVoltage1_8 call context.slot
  { context with
    slot := slot
    status := status
    event := true }

/-- `InvokeSetRegulatorVoltage1_8`, at `PASSIVE_LEVEL` or with the worker -/
def invokeSetRegulatorVoltage1_8 (passive : Bool) (regulatorVoltage1_8 : Bool)
    (call : RegulatorCall) (s : Slot) : Slot × Status :=
  if passive then setRegulatorVoltage1_8 regulatorVoltage1_8 call s
  else
    let context := invokeSetRegulatorVoltageWorker call ⟨s, regulatorVoltage1_8, .success, false⟩
    (context.slot, context.status)

/-- It makes no difference which thread calls the firmware. -/
@[simp] theorem invokeSetRegulatorVoltage1_8_eq (passive regulatorVoltage1_8 : Bool)
    (call : RegulatorCall) (s : Slot) :
    invokeSetRegulatorVoltage1_8 passive regulatorVoltage1_8 call s =
      setRegulatorVoltage1_8 regulatorVoltage1_8 call s := by
  cases passive <;> rfl

/-! ## The switch -/

/-- The outcome of each step. -/
structure Outcomes where
  /-- `SdDatSignalLevel` after the clock has been stopped -/
  datStopped : BitVec 4
  setRegulator : RegulatorCall
  /-- `Signaling1_8` when it is read back -/
  latched : Bool
  /-- `SdDatSignalLevel` after the clock has been started -/
  datStarted : BitVec 4
  restoreRegulator : RegulatorCall

/-- The slot after the switch, what it returns, and whether a call that should restore the
regulator has failed. -/
structure Switched where
  slot : Slot
  status : Status
  restoreFailed : Bool

/-- Where `oldRegulatorVoltage1_8` is restored. -/
def restore (passive oldRegulatorVoltage1_8 : Bool) (o : Outcomes) (s : Slot) : Switched :=
  if oldRegulatorVoltage1_8 ≠ s.regulatorVoltage1_8 then
    let (s, status) :=
      invokeSetRegulatorVoltage1_8 passive oldRegulatorVoltage1_8 o.restoreRegulator s
    ⟨s, .unsuccessful, status ≠ .success⟩
  else ⟨s, .unsuccessful, false⟩

/-- The host bit and the clock, after the regulator has been set -/
def setSignaling (passive signaling1_8 oldRegulatorVoltage1_8 : Bool) (o : Outcomes) (s : Slot) :
    Switched :=
  let s := { s with signaling1_8 := o.latched }
  if s.signaling1_8 ≠ signaling1_8 then restore passive oldRegulatorVoltage1_8 o s
  else
    let s := { s with sdClockEnable := true }
    if o.datStarted ≠ 0xF then restore passive oldRegulatorVoltage1_8 o s
    else ⟨s, .success, false⟩

/-- The voltages that can be switched to. -/
def requested : SdportSignalingVoltage → Option Bool
  | .undefined => none
  | .signalingVoltage33 => some false
  | .signalingVoltage18 => some true

/-- `SetSignalingVoltage` -/
def setSignalingVoltage (passive : Bool) (signalingVoltage : SdportSignalingVoltage)
    (o : Outcomes) (s : Slot) : Switched :=
  match requested signalingVoltage with
  | none => ⟨s, .notSupported, false⟩
  | some signaling1_8 =>
    let s := { s with sdClockEnable := false }
    if o.datStopped ≠ 0 then ⟨s, .unsuccessful, false⟩
    else
      let oldRegulatorVoltage1_8 := s.regulatorVoltage1_8
      if signaling1_8 ≠ s.regulatorVoltage1_8 then
        let (s, status) := invokeSetRegulatorVoltage1_8 passive signaling1_8 o.setRegulator s
        if status ≠ .success then ⟨s, status, false⟩
        else setSignaling passive signaling1_8 oldRegulatorVoltage1_8 o s
      else setSignaling passive signaling1_8 oldRegulatorVoltage1_8 o s

/-! ## What the switch has to leave -/

/-- Everything is at the requested voltage, and the clock is running. -/
structure At (voltage : SdportSignalingVoltage) (s : Slot) : Prop where
  regulator : requested voltage = some s.regulator1_8
  hostBit : requested voltage = some s.signaling1_8
  clock : s.sdClockEnable = true

/-- What is recorded of the regulator, the host bit and the clock are as before. -/
structure Unchanged (s s' : Slot) : Prop where
  regulator : s'.regulatorVoltage1_8 = s.regulatorVoltage1_8
  hostBit : s'.signaling1_8 = s.signaling1_8
  clock : s'.sdClockEnable = s.sdClockEnable

/-- **A switch that succeeds is at the requested voltage, and one that fails has changed nothing**;
where the regulator could not be restored, the host bit agrees with it. -/
def SwitchSound (passive : Bool) (voltage : SdportSignalingVoltage) (o : Outcomes) (s : Slot) :
    Prop :=
  let x := setSignalingVoltage passive voltage o s
  if x.status = .success then At voltage x.slot
  else Unchanged s x.slot ∨
    x.restoreFailed = true ∧ x.slot.regulatorVoltage1_8 = x.slot.signaling1_8

/-- The regulator has to be set, and the call fails. -/
def Outcomes.RegulatorFails (o : Outcomes) (signaling1_8 : Bool) (s : Slot) : Prop :=
  signaling1_8 ≠ s.regulatorVoltage1_8 ∧ o.setRegulator ≠ .succeeds

/-- The regulator has been set, and the call that restores it fails. -/
def Outcomes.RestoreFails (o : Outcomes) (signaling1_8 : Bool) (s : Slot) : Prop :=
  signaling1_8 ≠ s.regulatorVoltage1_8 ∧ o.restoreRegulator ≠ .succeeds

instance (o : Outcomes) (signaling1_8 : Bool) (s : Slot) :
    Decidable (o.RegulatorFails signaling1_8 s) :=
  inferInstanceAs (Decidable (_ ∧ _))

instance (o : Outcomes) (signaling1_8 : Bool) (s : Slot) :
    Decidable (o.RestoreFails signaling1_8 s) :=
  inferInstanceAs (Decidable (_ ∧ _))

/-- The condition, exit by exit. -/
def SwitchesBack (voltage : SdportSignalingVoltage) (o : Outcomes) (s : Slot) : Prop :=
  ∀ signaling1_8, requested voltage = some signaling1_8 →
    if o.datStopped ≠ 0 ∨ o.RegulatorFails signaling1_8 s then s.sdClockEnable = false
    else if o.latched ≠ signaling1_8 then
      s.sdClockEnable = false ∧ s.signaling1_8 = o.latched ∧ ¬ o.RestoreFails signaling1_8 s
    else if o.datStarted ≠ 0xF then
      o.RestoreFails signaling1_8 s ∨ s.signaling1_8 = signaling1_8 ∧ s.sdClockEnable = true
    else signaling1_8 ≠ s.regulatorVoltage1_8 ∨ s.regulator1_8 = signaling1_8

/-! ## The exits -/

section Exits

variable {passive r : Bool} {voltage : SdportSignalingVoltage} {o : Outcomes} {s t : Slot}

/-- A switch that fails early has stopped the clock. -/
theorem setSignalingVoltage_early (passive : Bool) (hr : requested voltage = some r)
    (h : o.datStopped ≠ 0 ∨ o.RegulatorFails r s) :
    ∃ left1_8 status, status ≠ .success ∧ setSignalingVoltage passive voltage o s =
      ⟨{ s with regulator1_8 := left1_8, sdClockEnable := false }, status, false⟩ := by
  rw [setSignalingVoltage, hr]
  dsimp only
  by_cases hdat : o.datStopped ≠ 0
  · exact ⟨s.regulator1_8, .unsuccessful, Status.noConfusion, if_pos hdat⟩
  · obtain ⟨hset, hfails⟩ := h.resolve_left hdat
    rw [if_neg hdat, if_pos hset, invokeSetRegulatorVoltage1_8_eq]
    cases hcall : o.setRegulator with
    | succeeds => exact absurd hcall hfails
    | fails left1_8 => exact ⟨left1_8, .propertyFailed, Status.noConfusion, rfl⟩

/-- The slot when the regulator has been set. -/
def regulated (r : Bool) (s : Slot) : Slot where
  regulator1_8 := if r = s.regulatorVoltage1_8 then s.regulator1_8 else r
  regulatorVoltage1_8 := r
  signaling1_8 := s.signaling1_8
  sdClockEnable := false

theorem setSignalingVoltage_goesOn (hr : requested voltage = some r)
    (h : ¬ (o.datStopped ≠ 0 ∨ o.RegulatorFails r s)) :
    setSignalingVoltage passive voltage o s =
      setSignaling passive r s.regulatorVoltage1_8 o (regulated r s) := by
  obtain ⟨hdat, hregulator⟩ := not_or.1 h
  rw [setSignalingVoltage, hr]
  dsimp only
  rw [if_neg hdat]
  by_cases hset : r = s.regulatorVoltage1_8
  · subst hset
    rw [if_neg (not_not.2 rfl), regulated, if_pos rfl]
  · have hcall : o.setRegulator = .succeeds := by
      by_contra hfails
      exact hregulator ⟨hset, hfails⟩
    rw [if_pos hset, invokeSetRegulatorVoltage1_8_eq, hcall, regulated, if_neg hset]
    rfl

theorem restore_status (old1_8 : Bool) : (restore passive old1_8 o s).status = .unsuccessful := by
  rw [restore]
  split_ifs <;> rfl

/-- What a restore leaves. -/
theorem restore_sound_iff (hs : t.regulatorVoltage1_8 = r) :
    (if (restore passive s.regulatorVoltage1_8 o t).status = .success then
        At voltage (restore passive s.regulatorVoltage1_8 o t).slot
      else Unchanged s (restore passive s.regulatorVoltage1_8 o t).slot ∨
        (restore passive s.regulatorVoltage1_8 o t).restoreFailed = true ∧
          (restore passive s.regulatorVoltage1_8 o t).slot.regulatorVoltage1_8 =
            (restore passive s.regulatorVoltage1_8 o t).slot.signaling1_8) ↔
      if o.RestoreFails r s then r = t.signaling1_8
      else t.signaling1_8 = s.signaling1_8 ∧ t.sdClockEnable = s.sdClockEnable := by
  rw [restore_status, if_neg Status.noConfusion, restore, hs]
  by_cases hset : r = s.regulatorVoltage1_8
  · rw [if_neg (not_not.2 hset.symm), if_neg fun hfails => hfails.1 hset]
    constructor
    · rintro (h | ⟨hfailed, -⟩)
      · exact ⟨h.hostBit, h.clock⟩
      · cases hfailed
    · rintro ⟨hbit, hclock⟩
      exact .inl ⟨hs.trans hset, hbit, hclock⟩
  · rw [if_pos (Ne.symm hset), invokeSetRegulatorVoltage1_8_eq]
    cases hcall : o.restoreRegulator with
    | succeeds =>
      rw [if_neg fun hfails => hfails.2 hcall]
      constructor
      · rintro (h | ⟨hfailed, -⟩)
        · exact ⟨h.hostBit, h.clock⟩
        · cases hfailed
      · rintro ⟨hbit, hclock⟩
        exact .inl ⟨rfl, hbit, hclock⟩
    | fails left1_8 =>
      rw [if_pos ⟨hset, by rw [hcall]; exact RegulatorCall.noConfusion⟩]
      constructor
      · rintro (h | ⟨-, hagree⟩)
        · exact absurd (hs.symm.trans h.regulator) hset
        · exact hs.symm.trans hagree
      · intro hagree
        exact .inr ⟨rfl, hs.trans hagree⟩

/-- **A switch is sound exactly when its exit finds what it leaves.** -/
theorem switchSound_iff (passive : Bool) (voltage : SdportSignalingVoltage) (o : Outcomes)
    (s : Slot) : SwitchSound passive voltage o s ↔ SwitchesBack voltage o s := by
  rw [SwitchSound, SwitchesBack]
  cases hr : requested voltage with
  | none =>
    rw [setSignalingVoltage, hr]
    refine iff_of_true (.inl ⟨rfl, rfl, rfl⟩) ?_
    intro r hsome
    cases hsome
  | some r =>
    simp only [Option.some.injEq, forall_eq']
    by_cases hearly : o.datStopped ≠ 0 ∨ o.RegulatorFails r s
    · obtain ⟨left1_8, status, hfails, heq⟩ := setSignalingVoltage_early passive hr hearly
      rw [heq, if_pos hearly]
      dsimp only
      rw [if_neg hfails]
      constructor
      · rintro (h | ⟨hfailed, -⟩)
        · exact h.clock.symm
        · cases hfailed
      · intro hclock
        exact .inl ⟨rfl, rfl, hclock.symm⟩
    rw [if_neg hearly, setSignalingVoltage_goesOn hr hearly, setSignaling]
    dsimp only
    by_cases hlatched : o.latched ≠ r
    · rw [if_pos hlatched, if_pos hlatched,
        restore_sound_iff (r := r)
          (t := { regulated r s with signaling1_8 := o.latched }) rfl]
      split_ifs with hfails
      · exact iff_of_false hlatched.symm fun h => h.2.2 hfails
      · constructor
        · rintro ⟨hbit, hclock⟩
          exact ⟨hclock.symm, hbit.symm, hfails⟩
        · rintro ⟨hclock, hbit, -⟩
          exact ⟨hbit.symm, hclock.symm⟩
    have hlatched := not_not.1 hlatched
    rw [if_neg (not_not.2 hlatched), if_neg (not_not.2 hlatched)]
    by_cases hdat : o.datStarted ≠ 0xF
    · rw [if_pos hdat, if_pos hdat, restore_sound_iff (r := r)
        (t := { regulated r s with signaling1_8 := o.latched, sdClockEnable := true }) rfl]
      split_ifs with hfails
      · exact iff_of_true hlatched.symm (.inl hfails)
      · rw [or_iff_right hfails]
        constructor
        · rintro ⟨hbit, hclock⟩
          exact ⟨hbit.symm.trans hlatched, hclock.symm⟩
        · rintro ⟨hbit, hclock⟩
          exact ⟨hlatched.trans hbit.symm, hclock.symm⟩
    · -- the switch succeeds
      rw [if_neg hdat, if_neg hdat, if_pos rfl]
      constructor
      · intro h
        have hregulator := Option.some.inj (hr.symm.trans h.regulator)
        by_cases hset : r = s.regulatorVoltage1_8
        · right
          rw [regulated, if_pos hset] at hregulator
          exact hregulator.symm
        · exact .inl hset
      · intro hvoltage
        constructor
        case regulator =>
          rw [hr]
          show some r = some (if r = s.regulatorVoltage1_8 then s.regulator1_8 else r)
          split_ifs with hset
          · rw [hvoltage.resolve_left (not_not.2 hset)]
          · rfl
        case hostBit => rw [hr, ← hlatched]
        case clock => rfl

end Exits

/-- A card whose data lines do not go high again: the regulator is back at 3.3 V, the host bit is
not. A regulator that cannot be set leaves the clock stopped. -/
theorem card_not_ready :
    ¬ SwitchSound true .signalingVoltage18 ⟨0, .succeeds, true, 0x7, .succeeds⟩
        ⟨false, false, false, true⟩ ∧
      ¬ SwitchSound true .signalingVoltage18 ⟨0, .fails false, true, 0xF, .succeeds⟩
        ⟨false, false, false, true⟩ := by
  constructor
  · rintro (h | ⟨hfailed, -⟩)
    · exact absurd h.hostBit (by decide)
    · exact absurd hfailed (by decide)
  · rintro (h | ⟨hfailed, -⟩)
    · exact absurd h.clock (by decide)
    · exact absurd hfailed (by decide)

/-! ## The reset -/

inductive SdportResetType
  | all
  | cmd
  | dat
  | undefined
  deriving DecidableEq

/-- What the controller does when it is reset: a reset for all clears the registers of the host. -/
def softwareReset (resetType : SdportResetType) (s : Slot) : Slot :=
  if resetType = .all then { s with signaling1_8 := false, sdClockEnable := false } else s

/-- `ResetHost`; `completes` when the reset is over before the driver gives up -/
def resetHost (resetType : SdportResetType) (completes : Bool) (s : Slot) : Slot × Status :=
  if resetType = .undefined then (s, .notSupported)
  else
    let s := softwareReset resetType s
    if !completes then (s, .ioTimeout)
    else if s.regulatorVoltage1_8 then ({ s with signaling1_8 := s.regulatorVoltage1_8 }, .success)
    else (s, .success)

/-- **After a reset that succeeds the host bit agrees with the regulator**, when all is reset or
they have agreed before. -/
theorem resetHost_agrees {resetType : SdportResetType} {completes : Bool} {s s' : Slot}
    (h : resetHost resetType completes s = (s', .success))
    (hbefore : resetType = .all ∨ s.signaling1_8 = s.regulatorVoltage1_8) :
    s'.signaling1_8 = s'.regulatorVoltage1_8 := by
  rw [resetHost] at h
  dsimp only at h
  split_ifs at h with hundefined hcompletes hregulator
  · cases h
  · cases h
  · cases h
    rfl
  · cases h
    rw [softwareReset] at hregulator ⊢
    split_ifs at hregulator ⊢ with hall
    · exact (Bool.not_eq_true _ ▸ hregulator : s.regulatorVoltage1_8 = false).symm
    · exact hbefore.resolve_left hall

end RpiDrivers.Brcme88c.SignalingVoltage
