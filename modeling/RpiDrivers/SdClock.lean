import RpiDrivers.Lib.Calc
import RpiDrivers.Lib.ClockDivider

/-!
# The clock of an SD card

Three drivers divide a base clock for the card: `SDHC::setClock` (`rpisdhc.cpp`) with a linear
divider, `SlotExtension::SetClock` (`brcme88c/SlotExtension.cpp`) and `SdhcCalcClockFrequency`
(`bcm2836sdhc.c`) with powers of two or with even divisors, as the version of the host controller
has it.

- `SetClockCall.Sound`: **the driver fails, or the clock is the fastest of those that are not
  faster than what was requested**, and nothing wraps or is cut off on the way.
- `SetClockCall.HoldsWhen`: the condition on the two frequencies.
- `SetClockCall.sound_iff`: the two are the same.
- `clocks_too_fast`: a frequency for each driver that it is not right for.
-/

namespace RpiDrivers.SdClock

open RpiDrivers.Lib Calc

/-! ## The drivers -/

/-- `_RWE_TIMEOUT_CLOCK_DIV` -/
def rweTimeoutClockDiv : Nat := 1

/-- What `SDHC::setClock` writes. -/
structure RpisdhcClock where
  cdiv : Nat
  tout : Nat

/-- `SDHC::setClock`; `none` is `STATUS_INVALID_PARAMETER` -/
def rpisdhcSetClock (baseClockFrequencyKhz frequencyKhz : Nat) : Calc (Option RpisdhcClock) :=
  if frequencyKhz = 0 then pure none
  else do
    let coreClockFreqHz ← mul 32 baseClockFrequencyKhz 1000
    let targetSdFreqHz ← mul 32 frequencyKhz 1000
    let twice ← mul 32 2 targetSdFreqHz
    let difference ← sub 32 coreClockFreqHz twice
    let clockDiv ← div difference targetSdFreqHz
    let cdiv ← field 11 clockDiv
    let divisor ← add 32 clockDiv 2
    let actualSdFreqHz ← div coreClockFreqHz divisor
    let tout ← div actualSdFreqHz rweTimeoutClockDiv
    pure (some ⟨cdiv, tout⟩)

/-- The loop that stops at the first shift which is slow enough, with `left` shifts to try -/
def firstShift (base target : Nat) : Nat → Nat → Option Nat
  | 0, _ => none
  | left + 1, shift =>
    if base >>> shift ≤ target then some shift else firstShift base target left (shift + 1)

/-- `SdRegSpecVersion3` and `SDHC_SPEC_VERSION_3` -/
def specVersion3 : Nat := 2

/-- The choice of `clockDivisor` in `SlotExtension::SetClock`; `none` is `STATUS_NOT_SUPPORTED` -/
def clockDivisor (specVersion base target : Nat) : Calc (Option Nat) :=
  if base ≤ target then pure (some 1)
  else if specVersion < specVersion3 then
    -- powers of 2 from 2 to 256
    pure ((firstShift base target 8 1).map (2 ^ ·))
  else do
    let quotient ← div base target
    let even := quotient - quotient % 2
    let product ← mul 32 target even
    let divisor ← if product < base then add 32 even 2 else pure even
    pure (if 2046 < divisor then none else some divisor)

/-- `SdRegClockControl` -/
structure ClockControl where
  internalClockEnable : Bool
  sdClockEnable : Bool
  frequencySelect : Nat
  frequencySelectUpper : Nat

inductive Status
  | success
  | notSupported
  | ioTimeout
  deriving DecidableEq

/-- `RetryMaxCount` -/
def retryMaxCount : Nat := 100

/-- The clock becomes stable before the driver gives up; `stable i` is what it reads at the
`i`-th time. -/
def ClockStable (stable : Nat → Bool) : Prop := ∃ i < retryMaxCount + 1, stable i = true

instance (stable : Nat → Bool) : Decidable (ClockStable stable) :=
  inferInstanceAs (Decidable (∃ i < _, _))

/-- `SlotExtension::SetClock` -/
def brcme88cSetClock (specVersion base frequencyKhz : Nat) (stable : Nat → Bool)
    (clockControl : ClockControl) : Calc (Status × ClockControl) :=
  if frequencyKhz = 0 then pure (.success, { clockControl with sdClockEnable := false })
  else do
    match ← clockDivisor specVersion base frequencyKhz with
    | none => pure (.notSupported, clockControl)
    | some divisor => do
      -- the low 8 bits, and the 2 bits above them
      let upper ← field 2 (divisor / 2 ^ 9)
      let started : ClockControl := ⟨true, false, divisor / 2 % 2 ^ 8, upper⟩
      pure (if ClockStable stable then (.success, { started with sdClockEnable := true })
        else (.ioTimeout, started))

/-- The loop of `SdhcCalcClockFrequency`, which doubles the divisor at most `left` times -/
def doubleDivisor (base target : Nat) : Nat → Nat → Nat
  | 0, divisor => divisor
  | left + 1, divisor =>
    if target < base / divisor ∧ divisor < 256 then doubleDivisor base target left (divisor * 2)
    else divisor

/-- `SDHC_MAX_CLOCK_DIVISOR_SPEC_3` -/
def maxClockDivisorSpec3 : Nat := 2046

/-- `SdhcCalcClockFrequency`: the clock control value, and the frequency it is said to give -/
def sdhcCalcClockFrequency (specVersion baseFrequency targetFrequency : Nat) :
    Calc (Nat × Nat) := do
  let quotient ← div baseFrequency targetFrequency
  if specVersion3 < specVersion then do
    let divisor := doubleDivisor baseFrequency targetFrequency 8 1
    let clockControl ← field 16 (divisor / 2 * 2 ^ 8)
    pure (clockControl, baseFrequency / divisor)
  else do
    let half := quotient / 2
    let rounded ←
      if targetFrequency < baseFrequency then do
        let double ← mul 32 targetFrequency 2
        let product ← mul 32 double half
        if product ≠ baseFrequency then add 32 half 1 else pure half
      else pure half
    let divisor := min rounded (maxClockDivisorSpec3 / 2)
    let actualFrequency := if divisor = 0 then baseFrequency else baseFrequency / divisor / 2
    let upper ← field 2 (divisor / 2 ^ 8)
    pure (divisor % 2 ^ 8 * 2 ^ 8 + upper * 2 ^ 6, actualFrequency)

/-! ## The controllers -/

/-- The clock is the core clock divided by `CDIV + 2`. -/
def cdivDivider : ClockDivider where
  width := 11
  Legal _ := True
  divisor cdiv := cdiv + 2

/-- The base clock, or the base clock divided by twice the field. Before version 3 the field has 8
bits, and only one of them may be set. -/
def sdHostDivider (specVersion : Nat) : ClockDivider where
  width := if specVersion < specVersion3 then 8 else 10
  Legal select := specVersion < specVersion3 → select = 0 ∨ ∃ s < 8, select = 2 ^ s
  divisor select := if select = 0 then 1 else 2 * select

/-! ## What the clock has to be -/

inductive Driver
  | rpisdhc
  | brcme88c
  | bcm2836sdhc
  deriving DecidableEq

/-- A call of one of the three. The version is that of the host controller, and `stable` what the
driver reads while it waits for the clock. -/
structure SetClockCall where
  driver : Driver
  specVersion : UInt8
  baseClockFrequencyKhz : UInt32
  frequencyKhz : UInt32
  stable : Nat → Bool
  clockControl : ClockControl

/-- What has become of a call. -/
inductive Outcome
  | failed
  | stopped
  | programmed (field : Nat)
  deriving DecidableEq

namespace SetClockCall

variable (c : SetClockCall)

def base : Nat := c.baseClockFrequencyKhz.toNat

def target : Nat := c.frequencyKhz.toNat

def outcome : Calc Outcome :=
  match c.driver with
  | .rpisdhc => do
    match ← rpisdhcSetClock c.base c.target with
    | none => pure .failed
    | some clock => pure (.programmed clock.cdiv)
  | .brcme88c => do
    let (status, control) ← brcme88cSetClock c.specVersion.toNat c.base c.target c.stable
      c.clockControl
    pure (if status ≠ .success then .failed
      else if control.sdClockEnable then
        .programmed (control.frequencySelectUpper * 2 ^ 8 + control.frequencySelect)
      else .stopped)
  | .bcm2836sdhc => do
    let (clockControl, _) ← sdhcCalcClockFrequency c.specVersion.toNat c.base c.target
    pure (.programmed (clockControl / 2 ^ 6 % 2 ^ 2 * 2 ^ 8 + clockControl / 2 ^ 8 % 2 ^ 8))

def divider : ClockDivider :=
  match c.driver with
  | .rpisdhc => cdivDivider
  | .brcme88c | .bcm2836sdhc => sdHostDivider c.specVersion.toNat

/-- A clock that is stopped is right for a frequency of 0 only. -/
def Right : Outcome → Prop
  | .failed => True
  | .stopped => c.target = 0
  | .programmed field => c.divider.Fastest c.base c.target field

/-- **The driver fails, or programs the right clock**, and every operation is exact. -/
def Sound : Prop := ∃ o, c.outcome.Exactly o ∧ c.Right o

end SetClockCall

/-- No power of two gives a clock that is less than 1 kHz too fast. -/
def NoneBetween (base target : Nat) : Prop :=
  ∀ s, 1 ≤ s → s ≤ 8 → base ≤ target * 2 ^ s ∨ (target + 1) * 2 ^ s ≤ base

/-- The least even divisor that is slow enough is a power of two, or nothing is divided. -/
def PowerOfTwo (base target : Nat) : Prop :=
  base ≤ target ∨
    ∃ s, 1 ≤ s ∧ s ≤ 8 ∧ target * (2 ^ s - 2) < base ∧ base ≤ target * 2 ^ s

/-- The condition on the two frequencies. -/
def SetClockCall.HoldsWhen (c : SetClockCall) : Prop :=
  match c.driver with
  | .rpisdhc =>
    c.target = 0 ∨ c.target * 1000 < 2 ^ 32 ∧ c.base * 1000 < 2 ^ 32 ∧ c.target ∣ c.base ∧
      2 ≤ c.base / c.target ∧ c.base / c.target < 2 ^ 11 + 2
  | .brcme88c =>
    if c.specVersion.toNat < specVersion3 then
      c.target = 0 ∨ ¬ ClockStable c.stable ∨ NoneBetween c.base c.target
    else ¬ (c.target = 1 ∧ c.base = 2 ^ 32 - 1)
  | .bcm2836sdhc =>
    c.target ≠ 0 ∧
      if specVersion3 < c.specVersion.toNat then
        PowerOfTwo c.base c.target ∧ NoneBetween c.base c.target
      else
        (c.base ≤ c.target ∨ c.target < 2 ^ 31) ∧
          if c.specVersion.toNat < specVersion3 then PowerOfTwo c.base c.target
          else c.base ≤ maxClockDivisorSpec3 * c.target

/-! ## Powers of two -/

section Shifts

variable {base target left shift s : Nat}

theorem firstShift_eq_some (h : firstShift base target left shift = some s) :
    shift ≤ s ∧ s < shift + left ∧ base < (target + 1) * 2 ^ s ∧
      ∀ j, shift ≤ j → j < s → (target + 1) * 2 ^ j ≤ base := by
  induction left generalizing shift with
  | zero => cases h
  | succ left ih =>
    rw [firstShift, Nat.shiftRight_eq_div_pow] at h
    split_ifs at h with hslow
    · cases h
      have hlt := (Nat.div_lt_iff_lt_mul (Nat.two_pow_pos s)).1 (Nat.lt_succ_of_le hslow)
      exact ⟨le_rfl, by omega, hlt, fun j hle hlt => absurd hlt (Nat.not_lt.2 hle)⟩
    · obtain ⟨hle, hlt, hfound, hbefore⟩ := ih h
      refine ⟨by omega, by omega, hfound, ?_⟩
      intro j hj hjs
      rcases Nat.eq_or_lt_of_le hj with rfl | hj
      · exact (Nat.le_div_iff_mul_le (Nat.two_pow_pos _)).1 (Nat.lt_of_not_le hslow)
      · exact hbefore j hj hjs

theorem firstShift_eq_none (h : firstShift base target left shift = none) :
    ∀ j, shift ≤ j → j < shift + left → (target + 1) * 2 ^ j ≤ base := by
  induction left generalizing shift with
  | zero =>
    intro j hle hlt
    omega
  | succ left ih =>
    rw [firstShift, Nat.shiftRight_eq_div_pow] at h
    split_ifs at h with hslow
    intro j hle hlt
    rcases Nat.eq_or_lt_of_le hle with rfl | hle
    · exact (Nat.le_div_iff_mul_le (Nat.two_pow_pos _)).1 (Nat.lt_of_not_le hslow)
    · exact ih h j hle (by omega)

/-- The other driver's loop finds the same shift, and stops at the last one. -/
theorem doubleDivisor_eq (h : shift + left = 8) :
    doubleDivisor base target left (2 ^ shift) =
      2 ^ (firstShift base target left shift).getD 8 := by
  induction left generalizing shift with
  | zero =>
    obtain rfl : shift = 8 := by omega
    rfl
  | succ left ih =>
    have hsmall : 2 ^ shift < 256 :=
      Nat.pow_lt_pow_right (by decide) (show shift < 8 by omega)
    rw [doubleDivisor, firstShift, Nat.shiftRight_eq_div_pow]
    by_cases hslow : base / 2 ^ shift ≤ target
    · rw [if_neg (fun hfast => absurd hslow (Nat.not_le.2 hfast.1)), if_pos hslow]
      rfl
    · rw [if_pos ⟨Nat.lt_of_not_le hslow, hsmall⟩, if_neg hslow, ← Nat.pow_succ, ih (by omega)]

end Shifts

/-! ## The dividers -/

section Dividers

variable {base target v k s : Nat}

theorem divisor_sdHostDivider_pos (f : Nat) : 0 < (sdHostDivider v).divisor f := by
  show 0 < if f = 0 then 1 else 2 * f
  split_ifs <;> omega

/-- The undivided base clock. -/
theorem fastest_zero_iff : (sdHostDivider v).Fastest base target 0 ↔ base ≤ target := by
  refine (ClockDivider.fastest_smallest_iff (Nat.two_pow_pos _) (fun _ => .inl rfl)
    (divisor_sdHostDivider_pos 0) fun f _ => divisor_sdHostDivider_pos f).trans ?_
  show base ≤ target * 1 ↔ _
  rw [Nat.mul_one]

/-- The even divisors of version 3. -/
theorem fastest_even_iff (hv : ¬ v < specVersion3) (hk : 0 < k) (hfits : k < 2 ^ 10)
    (hlt : target < base) :
    (sdHostDivider v).Fastest base target k ↔
      base ≤ target * (2 * k) ∧ target * (2 * (k - 1)) < base := by
  have hwidth : (sdHostDivider v).width = 10 := if_neg hv
  have hdivisor : ∀ f, (sdHostDivider v).divisor f = if f = 0 then 1 else 2 * f := fun _ => rfl
  have hless : (sdHostDivider v).divisor (k - 1) < (sdHostDivider v).divisor k := by
    rw [hdivisor, hdivisor]
    split_ifs <;> omega
  have hnext : ∀ f, (sdHostDivider v).Legal f →
      (sdHostDivider v).divisor f < (sdHostDivider v).divisor k →
      (sdHostDivider v).divisor f ≤ (sdHostDivider v).divisor (k - 1) := by
    intro f _
    rw [hdivisor, hdivisor, hdivisor]
    split_ifs <;> omega
  rw [ClockDivider.fastest_iff (by rwa [hwidth]) (fun hlow => absurd hlow hv)
    (by rw [hwidth]; omega) (fun hlow => absurd hlow hv) (fun f _ => divisor_sdHostDivider_pos f)
    hless hnext (by omega), hdivisor, hdivisor, if_neg hk.ne']
  refine and_congr_right fun _ => ?_
  split_ifs with hone
  · rw [hone, Nat.mul_one, Nat.mul_zero]
    exact iff_of_true hlt (by omega)
  · rfl

/-- The powers of two before version 3. -/
theorem fastest_pow_iff (hv : v < specVersion3) (hs : s < 8) (hlt : target < base) :
    (sdHostDivider v).Fastest base target (2 ^ s) ↔
      base ≤ target * 2 ^ (s + 1) ∧ target * 2 ^ s < base := by
  have hwidth : (sdHostDivider v).width = 8 := if_pos hv
  have hlegal : ∀ s < 8, (sdHostDivider v).Legal (2 ^ s) := fun s hs _ => .inr ⟨s, hs, rfl⟩
  have hdivisor : ∀ s, (sdHostDivider v).divisor (2 ^ s) = 2 ^ (s + 1) := by
    intro s
    rw [Nat.pow_succ, Nat.mul_comm]
    exact if_neg (Nat.two_pow_pos s).ne'
  have hfits : ∀ s < 8, 2 ^ s < 2 ^ (sdHostDivider v).width := by
    intro s hs
    rw [hwidth]
    exact Nat.pow_lt_pow_right (by decide) hs
  -- the next smaller divisor is half of it, and may be the undivided clock
  obtain ⟨prev, hprev, hprevLegal, hprevFits⟩ : ∃ prev, (sdHostDivider v).divisor prev = 2 ^ s ∧
      (sdHostDivider v).Legal prev ∧ prev < 2 ^ (sdHostDivider v).width := by
    cases s with
    | zero => exact ⟨0, rfl, fun _ => .inl rfl, Nat.two_pow_pos _⟩
    | succ s => exact ⟨2 ^ s, hdivisor s, hlegal s (by omega), hfits s (by omega)⟩
  have hless : (sdHostDivider v).divisor prev < (sdHostDivider v).divisor (2 ^ s) := by
    rw [hprev, hdivisor]
    exact Nat.pow_lt_pow_right (by decide) (Nat.lt_succ_self s)
  have hnext : ∀ f, (sdHostDivider v).Legal f →
      (sdHostDivider v).divisor f < (sdHostDivider v).divisor (2 ^ s) →
      (sdHostDivider v).divisor f ≤ (sdHostDivider v).divisor prev := by
    intro f hf hsmall
    rw [hprev]
    rcases hf hv with rfl | ⟨j, -, rfl⟩
    · exact Nat.one_le_two_pow
    · rw [hdivisor, hdivisor] at hsmall
      rw [hdivisor]
      exact Nat.pow_le_pow_right (by decide)
        (Nat.lt_succ_iff.1 ((Nat.pow_lt_pow_iff_right (by decide)).1 hsmall))
  rw [ClockDivider.fastest_iff (hfits s hs) (hlegal s hs) hprevFits hprevLegal
    (fun f _ => divisor_sdHostDivider_pos f) hless hnext (by omega), hdivisor, hprev]

end Dividers

/-! ## `SDHC::setClock` -/

section Rpisdhc

variable {base target : Nat}

/-- What is programmed, when all of it is exact. -/
theorem rpisdhcSetClock_exactly_iff (htarget : target ≠ 0) {o : Option RpisdhcClock} :
    (rpisdhcSetClock base target).Exactly o ↔
      (target * 1000 < 2 ^ 32 ∧ base * 1000 < 2 ^ 32 ∧ 2 ≤ base / target ∧
        base / target < 2 ^ 11 + 2) ∧
      some ⟨base / target - 2, base * 1000 / (base / target)⟩ = o := by
  have hpos := Nat.pos_of_ne_zero htarget
  have hquotient : (base * 1000 - 2 * (target * 1000)) / (target * 1000) = base / target - 2 := by
    rw [Nat.mul_comm 2, Nat.sub_mul_div, Nat.mul_div_mul_right _ _ (by decide)]
  have htwice : 2 * (target * 1000) ≤ base * 1000 ↔ 2 ≤ base / target := by
    rw [Nat.le_div_iff_mul_le hpos]
    omega
  have hrate : rweTimeoutClockDiv = 1 := rfl
  rw [rpisdhcSetClock, if_neg htarget]
  simp only [exactly_bind, exactly_mul, exactly_div, exactly_field, exactly_add, exactly_pure]
  constructor
  · rintro ⟨core, ⟨hcore, rfl⟩, sd, ⟨hsd, rfl⟩, twice, ⟨-, rfl⟩, difference, hsub, clockDiv,
      ⟨-, rfl⟩, cdiv, ⟨hcdiv, rfl⟩, divisor, ⟨-, rfl⟩, actual, ⟨-, rfl⟩, tout, ⟨-, rfl⟩, rfl⟩
    obtain ⟨hle, rfl⟩ := (exactly_sub hcore).1 hsub
    have htwo := htwice.1 hle
    rw [hquotient] at hcdiv ⊢
    refine ⟨⟨hsd, hcore, htwo, by omega⟩, ?_⟩
    rw [Nat.sub_add_cancel htwo, hrate, Nat.div_one]
  · rintro ⟨⟨hsd, hcore, htwo, hfits⟩, rfl⟩
    have hle := htwice.2 htwo
    refine ⟨_, ⟨hcore, rfl⟩, _, ⟨hsd, rfl⟩, _, ⟨by omega, rfl⟩, _,
      (exactly_sub hcore).2 ⟨hle, rfl⟩, _, ⟨by omega, rfl⟩, _, ⟨by omega, rfl⟩, _,
      ⟨by omega, rfl⟩, _, ⟨by omega, rfl⟩, _, ⟨by decide, rfl⟩, ?_⟩
    rw [hquotient, Nat.sub_add_cancel htwo, hrate, Nat.div_one]

/-- The divisor is rounded down, so the clock is right when nothing is rounded off. -/
theorem fastest_cdiv_iff (htwo : 2 ≤ base / target) (hfits : base / target < 2 ^ 11 + 2) :
    cdivDivider.Fastest base target (base / target - 2) ↔ target ∣ base := by
  have hdivisor : cdivDivider.divisor (base / target - 2) = base / target :=
    Nat.sub_add_cancel htwo
  have hpos : 0 < base / target := by omega
  constructor
  · intro h
    have hslow := h.notFaster
    rwa [hdivisor, rate_div_le_iff hpos] at hslow
  · intro h
    refine .of_rate_eq (show base / target - 2 < 2 ^ 11 by omega) trivial ?_
    rw [hdivisor]
    exact ((rate_div_le_iff hpos).2 h).antisymm (requested_le_rate hpos le_rfl)

end Rpisdhc

/-! ## `SlotExtension::SetClock` -/

section Brcme88c

variable {v base target : Nat}

/-- `k` is the least half of an even divisor that is slow enough. -/
def LeastHalf (base target k : Nat) : Prop :=
  0 < k ∧ target * (2 * (k - 1)) < base ∧ base ≤ target * (2 * k)

/-- Rounding up to an even divisor. -/
theorem leastHalf_roundUp (hpos : 0 < target) (hlt : target * (2 * (base / target / 2)) < base) :
    LeastHalf base target (base / target / 2 + 1) := by
  refine ⟨Nat.succ_pos _, hlt, ?_⟩
  have hceil : base < target * (base / target + 1) := by
    rw [Nat.mul_comm, ← Nat.div_lt_iff_lt_mul hpos]
    exact Nat.lt_succ_self _
  have hle : target * (base / target + 1) ≤ target * (2 * (base / target / 2 + 1)) :=
    Nat.mul_le_mul_left _ (by omega)
  omega

theorem leastHalf_exact (hpos : 0 < target) (hlt : target < base)
    (heq : target * (2 * (base / target / 2)) = base) :
    LeastHalf base target (base / target / 2) := by
  have hk : 0 < base / target / 2 := by
    by_contra hzero
    rw [Nat.eq_zero_of_not_pos hzero, Nat.mul_zero] at heq
    omega
  refine ⟨hk, ?_, heq.ge⟩
  calc target * (2 * (base / target / 2 - 1))
      < target * (2 * (base / target / 2)) := Nat.mul_lt_mul_of_pos_left (by omega) hpos
    _ = base := heq

theorem mul_even_le (base target : Nat) : target * (2 * (base / target / 2)) ≤ base :=
  (Nat.mul_le_mul_left _ (Nat.mul_div_le _ 2)).trans (Nat.mul_div_le ..)

/-- The divisor from version 3 on, unless the sum that rounds it up wraps. -/
theorem clockDivisor_even (hv : ¬ v < specVersion3) (hpos : 0 < target) (hlt : target < base)
    (hbase : base < 2 ^ 32) (hwrap : ¬ (target = 1 ∧ base = 2 ^ 32 - 1)) :
    ∃ k, LeastHalf base target k ∧
      (clockDivisor v base target).Exactly (if 2046 < 2 * k then none else some (2 * k)) := by
  have hle := mul_even_le base target
  have heven : base / target - base / target % 2 = 2 * (base / target / 2) := by omega
  rw [clockDivisor, if_neg (Nat.not_le.2 hlt), if_neg hv]
  simp only [exactly_bind, exactly_mul, exactly_div, exactly_ite, exactly_add, exactly_pure]
  rcases Nat.eq_or_lt_of_le hle with hexact | hround
  · refine ⟨_, leastHalf_exact hpos hlt hexact, _, ⟨hpos.ne', rfl⟩, _,
      ⟨by rw [heven, hexact]; exact hbase, rfl⟩, ?_⟩
    rw [heven, if_neg (by omega)]
    exact ⟨_, rfl, rfl⟩
  · refine ⟨_, leastHalf_roundUp hpos hround, _, ⟨hpos.ne', rfl⟩, _,
      ⟨by rw [heven]; omega, rfl⟩, ?_⟩
    rw [heven, if_pos hround]
    refine ⟨_, ⟨?_, rfl⟩, rfl⟩
    -- only the largest base clock and a requested 1 kHz come to 2 ^ 32
    by_contra hover
    refine hwrap ?_
    have hquotient : 2 ^ 32 - 2 ≤ base / target := by omega
    have hmul := (Nat.le_div_iff_mul_le hpos).1 hquotient
    have hone : target = 1 := by
      by_contra hne
      have htwo : (2 ^ 32 - 2) * 2 ≤ (2 ^ 32 - 2) * target := Nat.mul_le_mul_left _ (by omega)
      omega
    subst hone
    omega

theorem clockDivisor_wraps (hv : ¬ v < specVersion3) (o : Option Nat) :
    ¬ (clockDivisor v (2 ^ 32 - 1) 1).Exactly o := by
  intro h
  rw [clockDivisor, if_neg (by decide), if_neg hv] at h
  simp only [exactly_bind, exactly_mul, exactly_div, exactly_ite, exactly_add, exactly_pure] at h
  obtain ⟨quotient, ⟨-, rfl⟩, product, ⟨-, rfl⟩, h⟩ := h
  rw [if_pos (by decide)] at h
  obtain ⟨divisor, ⟨hfits, -⟩, -⟩ := h
  exact absurd hfits (by decide)

theorem clockDivisor_le {d : Nat} (h : (clockDivisor v base target).Exactly (some d)) :
    d ≤ 2046 := by
  rw [clockDivisor, exactly_ite, exactly_ite] at h
  split_ifs at h with hslow hv
  · cases exactly_pure.1 h
    decide
  · have h := exactly_pure.1 h
    obtain ⟨s, hs, rfl⟩ := Option.map_eq_some_iff.1 h
    obtain ⟨-, hlt, -, -⟩ := firstShift_eq_some hs
    calc 2 ^ s ≤ 2 ^ 8 := Nat.pow_le_pow_right (by decide) (by omega)
      _ ≤ 2046 := by decide
  · simp only [exactly_bind, exactly_ite, exactly_pure] at h
    obtain ⟨_, -, _, -, h⟩ := h
    have hlast : ∃ divisor, (if 2046 < divisor then none else some divisor) = some d := by
      split at h
      · obtain ⟨divisor, -, h⟩ := h
        exact ⟨divisor, h⟩
      · obtain ⟨divisor, -, h⟩ := h
        exact ⟨divisor, h⟩
    obtain ⟨divisor, h⟩ := hlast
    split_ifs at h with hlarge
    cases h
    exact Nat.le_of_not_lt hlarge

/-- The registers after a divisor has been found. -/
theorem brcme88cSetClock_some (htarget : target ≠ 0) (stable : Nat → Bool) (control : ClockControl)
    {d : Nat} (h : (clockDivisor v base target).Exactly (some d)) :
    (brcme88cSetClock v base target stable control).Exactly
      (if ClockStable stable then (.success, ⟨true, true, d / 2 % 2 ^ 8, d / 2 ^ 9⟩)
        else (.ioTimeout, ⟨true, false, d / 2 % 2 ^ 8, d / 2 ^ 9⟩)) := by
  have hle := clockDivisor_le h
  rw [brcme88cSetClock, if_neg htarget, exactly_bind]
  refine ⟨some d, h, ?_⟩
  simp only [exactly_bind, exactly_field, exactly_pure]
  exact ⟨d / 2 ^ 9, ⟨by omega, rfl⟩, rfl⟩

variable {c : SetClockCall}

/-- The call is right when its divisor is, or the clock does not become stable. -/
theorem sound_brcme88c_iff (hdriver : c.driver = .brcme88c) (htarget : c.target ≠ 0) :
    c.Sound ↔ ∃ o, (clockDivisor c.specVersion.toNat c.base c.target).Exactly o ∧
      ∀ d, o = some d → ClockStable c.stable →
        (sdHostDivider c.specVersion.toNat).Fastest c.base c.target (d / 2) := by
  have hfield : ∀ d, d / 2 ^ 9 * 2 ^ 8 + d / 2 % 2 ^ 8 = d / 2 := by omega
  have hdivider : c.divider = sdHostDivider c.specVersion.toNat := by
    rw [SetClockCall.divider, hdriver]
  have houtcome : c.outcome = (do
      let (status, control) ← brcme88cSetClock c.specVersion.toNat c.base c.target c.stable
        c.clockControl
      pure (if status ≠ .success then .failed
        else if control.sdClockEnable then
          .programmed (control.frequencySelectUpper * 2 ^ 8 + control.frequencySelect)
        else .stopped)) := by
    rw [SetClockCall.outcome, hdriver]
  rw [SetClockCall.Sound, houtcome]
  simp only [exactly_bind, exactly_pure]
  constructor
  · rintro ⟨o, ⟨result, hresult, rfl⟩, hright⟩
    rw [brcme88cSetClock, if_neg htarget, exactly_bind] at hresult
    obtain ⟨choice, hchoice, hresult⟩ := hresult
    refine ⟨choice, hchoice, ?_⟩
    rintro d rfl hstable
    simp only [exactly_bind, exactly_pure, exactly_field, if_pos hstable] at hresult
    obtain ⟨upper, ⟨-, rfl⟩, rfl⟩ := hresult
    have hright : c.divider.Fastest c.base c.target (d / 2 ^ 9 * 2 ^ 8 + d / 2 % 2 ^ 8) := hright
    rwa [hdivider, hfield] at hright
  · rintro ⟨choice, hchoice, hright⟩
    cases choice with
    | none =>
      refine ⟨.failed, ⟨(.notSupported, c.clockControl), ?_, rfl⟩, trivial⟩
      rw [brcme88cSetClock, if_neg htarget, exactly_bind]
      exact ⟨none, hchoice, exactly_pure.2 rfl⟩
    | some d =>
      have hstarted := brcme88cSetClock_some htarget c.stable c.clockControl hchoice
      by_cases hstable : ClockStable c.stable
      · rw [if_pos hstable] at hstarted
        refine ⟨_, ⟨_, hstarted, rfl⟩, ?_⟩
        show c.divider.Fastest c.base c.target (d / 2 ^ 9 * 2 ^ 8 + d / 2 % 2 ^ 8)
        rw [hdivider, hfield]
        exact hright d rfl hstable
      · rw [if_neg hstable] at hstarted
        exact ⟨_, ⟨_, hstarted, rfl⟩, trivial⟩

end Brcme88c

/-! ## `SdhcCalcClockFrequency` -/

section Bcm2836sdhc

variable {v base target : Nat}

theorem sdhcCalcClockFrequency_target {o : Nat × Nat}
    (h : (sdhcCalcClockFrequency v base target).Exactly o) : target ≠ 0 := by
  rw [sdhcCalcClockFrequency, exactly_bind] at h
  obtain ⟨_, hquotient, -⟩ := h
  exact (exactly_div.1 hquotient).1

/-- Above version 3 the divisor is a power of two. -/
theorem sdhcCalcClockFrequency_doubled (hv : specVersion3 < v) (htarget : target ≠ 0) :
    let divisor := doubleDivisor base target 8 1
    (sdhcCalcClockFrequency v base target).Exactly (divisor / 2 * 2 ^ 8, base / divisor) := by
  intro divisor
  have hle : divisor ≤ 2 ^ 8 := by
    have hpow : doubleDivisor base target 8 (2 ^ 0) = 2 ^ (firstShift base target 8 0).getD 8 :=
      doubleDivisor_eq rfl
    rw [Nat.pow_zero] at hpow
    rw [show divisor = _ from hpow]
    refine Nat.pow_le_pow_right (by decide) ?_
    cases hshift : firstShift base target 8 0 with
    | none => exact le_rfl
    | some s => exact (firstShift_eq_some hshift).2.1.le
  rw [sdhcCalcClockFrequency]
  simp only [exactly_bind, exactly_div, if_pos hv, exactly_field, exactly_pure]
  exact ⟨_, ⟨htarget, rfl⟩, _, ⟨by omega, rfl⟩, rfl⟩

/-- The half of the divisor up to version 3. -/
def IsHalf (base target k : Nat) : Prop :=
  base ≤ target ∧ k = 0 ∨ target < base ∧ LeastHalf base target k

/-- Up to version 3 the divisor is even, unless a product wraps; a divisor that is too large for
the field is made smaller. -/
theorem sdhcCalcClockFrequency_even (hv : ¬ specVersion3 < v) (htarget : target ≠ 0)
    (hbase : base < 2 ^ 32) (hwrap : base ≤ target ∨ target < 2 ^ 31) :
    ∃ k, IsHalf base target k ∧ (sdhcCalcClockFrequency v base target).Exactly
      (min k 1023 % 2 ^ 8 * 2 ^ 8 + min k 1023 / 2 ^ 8 * 2 ^ 6,
        if min k 1023 = 0 then base else base / min k 1023 / 2) := by
  have hpos := Nat.pos_of_ne_zero htarget
  have hmax : maxClockDivisorSpec3 / 2 = 1023 := rfl
  have hdouble : target * 2 * (base / target / 2) = target * (2 * (base / target / 2)) :=
    Nat.mul_assoc ..
  have hupper : ∀ k, (field 2 (min k 1023 / 2 ^ 8)).Exactly (min k 1023 / 2 ^ 8) := fun k =>
    exactly_field.2 ⟨by omega, rfl⟩
  rw [sdhcCalcClockFrequency]
  simp only [exactly_bind, exactly_div, if_neg hv, hmax]
  by_cases hlt : target < base
  · have hsmall : target < 2 ^ 31 := hwrap.resolve_left (Nat.not_le.2 hlt)
    have hle := mul_even_le base target
    simp only [if_pos hlt, exactly_bind, exactly_mul, exactly_ite, exactly_add, exactly_pure]
    rcases Nat.eq_or_lt_of_le hle with hexact | hround
    · refine ⟨_, .inr ⟨hlt, leastHalf_exact hpos hlt hexact⟩, _, ⟨htarget, rfl⟩, _,
        ⟨by omega, rfl⟩, _, ⟨by rw [hdouble]; omega, rfl⟩, ?_⟩
      rw [hdouble, if_neg (not_not.2 hexact)]
      exact ⟨_, rfl, _, hupper _, rfl⟩
    · refine ⟨_, .inr ⟨hlt, leastHalf_roundUp hpos hround⟩, _, ⟨htarget, rfl⟩, _,
        ⟨by omega, rfl⟩, _, ⟨by rw [hdouble]; omega, rfl⟩, ?_⟩
      have hhalf : base / target / 2 ≤ base / 2 := Nat.div_le_div_right (Nat.div_le_self ..)
      rw [hdouble, if_pos hround.ne]
      exact ⟨_, ⟨by omega, rfl⟩, _, hupper _, rfl⟩
  · have hle := Nat.not_lt.1 hlt
    have hzero : base / target / 2 = 0 := by
      have hone : base / target < 2 := (Nat.div_lt_iff_lt_mul hpos).2 (by omega)
      exact Nat.div_eq_of_lt hone
    simp only [if_neg hlt, exactly_bind, exactly_pure]
    exact ⟨0, .inl ⟨hle, rfl⟩, _, ⟨htarget, rfl⟩, _, hzero, _, hupper 0, rfl⟩

theorem sdhcCalcClockFrequency_wraps (hv : ¬ specVersion3 < v) {o : Nat × Nat}
    (h : (sdhcCalcClockFrequency v base target).Exactly o) : base ≤ target ∨ target < 2 ^ 31 := by
  rw [sdhcCalcClockFrequency] at h
  simp only [exactly_bind, if_neg hv] at h
  obtain ⟨_, -, h⟩ := h
  by_cases hlt : target < base
  · rw [if_pos hlt, exactly_bind] at h
    obtain ⟨_, hdouble, -⟩ := h
    have hfits := (exactly_mul.1 hdouble).1
    exact .inr (by omega)
  · exact .inl (Nat.not_lt.1 hlt)

end Bcm2836sdhc

section Bcm2836sdhcSound

variable {c : SetClockCall}

/-- The two parts of the field read back. -/
theorem control_decode {upper select : Nat} (hupper : upper < 2 ^ 2) (hselect : select < 2 ^ 8) :
    (select * 2 ^ 8 + upper * 2 ^ 6) / 2 ^ 6 % 2 ^ 2 * 2 ^ 8 +
      (select * 2 ^ 8 + upper * 2 ^ 6) / 2 ^ 8 % 2 ^ 8 = upper * 2 ^ 8 + select := by
  omega

theorem base_lt (c : SetClockCall) : c.base < 2 ^ 32 := c.baseClockFrequencyKhz.toNat_lt

/-- The call is right when the field in its clock control value is. -/
theorem sound_bcm2836sdhc_iff (hdriver : c.driver = .bcm2836sdhc) {control actual : Nat}
    (h : (sdhcCalcClockFrequency c.specVersion.toNat c.base c.target).Exactly (control, actual)) :
    c.Sound ↔ (sdHostDivider c.specVersion.toNat).Fastest c.base c.target
      (control / 2 ^ 6 % 2 ^ 2 * 2 ^ 8 + control / 2 ^ 8 % 2 ^ 8) := by
  have hdivider : c.divider = sdHostDivider c.specVersion.toNat := by
    rw [SetClockCall.divider, hdriver]
  have houtcome : c.outcome.Exactly
      (.programmed (control / 2 ^ 6 % 2 ^ 2 * 2 ^ 8 + control / 2 ^ 8 % 2 ^ 8)) := by
    rw [SetClockCall.outcome, hdriver]
    exact exactly_bind.2 ⟨(control, actual), h, exactly_pure.2 rfl⟩
  rw [SetClockCall.Sound, ← hdivider]
  constructor
  · rintro ⟨o, ho, hright⟩
    cases ho.unique houtcome
    exact hright
  · exact fun hfastest => ⟨_, houtcome, hfastest⟩

theorem exactly_of_sound_bcm2836sdhc (hdriver : c.driver = .bcm2836sdhc) (h : c.Sound) :
    ∃ o, (sdhcCalcClockFrequency c.specVersion.toNat c.base c.target).Exactly o := by
  obtain ⟨o, ho, -⟩ := h
  rw [SetClockCall.outcome, hdriver] at ho
  obtain ⟨result, hresult, -⟩ := exactly_bind.1 ho
  exact ⟨result, hresult⟩

end Bcm2836sdhcSound

/-! ## The condition -/

section Condition

variable {base target v k : Nat}

/-- The first shift is right unless it leaves a clock less than 1 kHz too fast. -/
theorem noneBetween_iff_of_some {s : Nat} (h : firstShift base target 8 1 = some s) :
    NoneBetween base target ↔ base ≤ target * 2 ^ s := by
  obtain ⟨hone, hlt, hfound, hbefore⟩ := firstShift_eq_some h
  constructor
  · intro hnone
    rcases hnone s hone (by omega) with hle | hge
    · exact hle
    · omega
  · intro hle j hj hj8
    rcases Nat.lt_or_ge j s with hjs | hjs
    · exact .inr (hbefore j hj hjs)
    · exact .inl (hle.trans (Nat.mul_le_mul_left _ (Nat.pow_le_pow_right (by decide) hjs)))

theorem noneBetween_of_none (h : firstShift base target 8 1 = none) : NoneBetween base target :=
  fun j hj hj8 => .inr (firstShift_eq_none h j hj (by omega))

theorem noneBetween_of_le (h : base ≤ target) : NoneBetween base target := by
  intro s _ _
  exact .inl (h.trans (Nat.le_mul_of_pos_right _ (Nat.two_pow_pos s)))

/-- `PowerOfTwo` says that the half of the least even divisor is one. -/
theorem powerOfTwo_iff (hlt : target < base) (hk : LeastHalf base target k) :
    PowerOfTwo base target ↔ ∃ s < 8, k = 2 ^ s := by
  obtain ⟨hpos, hbelow, habove⟩ := hk
  constructor
  · rintro (hle | ⟨s, hs, hs8, hlow, hhigh⟩)
    · omega
    · obtain ⟨s, rfl⟩ : ∃ j, s = j + 1 := ⟨s - 1, by omega⟩
      refine ⟨s, by omega, ?_⟩
      -- both are the least half that is slow enough
      have hpow : 2 ^ (s + 1) = 2 * 2 ^ s := by rw [Nat.pow_succ, Nat.mul_comm]
      rw [hpow] at hlow hhigh
      have hle : 2 * (k - 1) < 2 * 2 ^ s := Nat.lt_of_mul_lt_mul_left (hbelow.trans_le hhigh)
      have hge : 2 * 2 ^ s - 2 < 2 * k := Nat.lt_of_mul_lt_mul_left (hlow.trans_le habove)
      omega
  · rintro ⟨s, hs, rfl⟩
    have hpow : 2 ^ (s + 1) = 2 * 2 ^ s := by rw [Nat.pow_succ, Nat.mul_comm]
    refine .inr ⟨s + 1, by omega, by omega, ?_, by rwa [hpow]⟩
    rwa [hpow, ← Nat.mul_sub_one]

/-- The power of two that the doubling stops at is the least even divisor exactly when there is
one, and no other power of two looks slow enough. -/
theorem leastHalf_pow_iff {s : Nat} (hs : s < 8) (hlt : target < base)
    (hbefore : ∀ j, 1 ≤ j → j < s + 1 → (target + 1) * 2 ^ j ≤ base)
    (hfound : s + 1 < 8 → base < (target + 1) * 2 ^ (s + 1)) :
    LeastHalf base target (2 ^ s) ↔ PowerOfTwo base target ∧ NoneBetween base target := by
  have hpow : ∀ j : Nat, 2 ^ (j + 1) = 2 * 2 ^ j := fun j => by rw [Nat.pow_succ, Nat.mul_comm]
  constructor
  · intro hk
    refine ⟨(powerOfTwo_iff hlt hk).2 ⟨s, hs, rfl⟩, ?_⟩
    intro j hj hj8
    rcases Nat.lt_or_ge j (s + 1) with hjs | hjs
    · exact .inr (hbefore j hj hjs)
    · have hle : base ≤ target * 2 ^ (s + 1) := by
        rw [hpow]
        exact hk.2.2
      exact .inl (hle.trans (Nat.mul_le_mul_left _ (Nat.pow_le_pow_right (by decide) hjs)))
  · rintro ⟨hle | ⟨t, ht, ht8, hlow, hhigh⟩, hnone⟩
    · omega
    · obtain ⟨t, rfl⟩ : ∃ j, t = j + 1 := ⟨t - 1, by omega⟩
      have hst : s ≤ t := by
        by_contra hts
        have hge := hbefore (t + 1) ht (by omega)
        have hsplit : (target + 1) * 2 ^ (t + 1) = target * 2 ^ (t + 1) + 2 ^ (t + 1) :=
          Nat.succ_mul ..
        have hpos := Nat.two_pow_pos (t + 1)
        omega
      have hslow : base ≤ target * 2 ^ (s + 1) := by
        rcases Nat.lt_or_ge (s + 1) 8 with hs8 | hs8
        · rcases hnone (s + 1) (by omega) hs8.le with hle | hge
          · exact hle
          · exact absurd (hfound hs8) (Nat.not_lt.2 hge)
        · obtain rfl : s = t := by omega
          exact hhigh
      -- twice the power of two is no least even divisor
      have hts : t ≤ s := by
        have hpowers : 2 ^ (t + 1) - 2 < 2 ^ (s + 1) :=
          Nat.lt_of_mul_lt_mul_left (hlow.trans_le hslow)
        by_contra hst'
        have hdouble : 2 ^ (s + 1 + 1) ≤ 2 ^ (t + 1) := Nat.pow_le_pow_right (by decide) (by omega)
        have hone := Nat.two_pow_pos s
        rw [hpow, hpow] at hdouble
        rw [hpow s] at hpowers
        omega
      obtain rfl : s = t := by omega
      refine ⟨Nat.two_pow_pos s, ?_, ?_⟩
      · rwa [Nat.mul_sub_one, ← hpow]
      · rwa [← hpow]

end Condition

namespace SetClockCall

variable {c : SetClockCall}

theorem sound_rpisdhc (hdriver : c.driver = .rpisdhc) : c.Sound ↔ c.HoldsWhen := by
  have hdivider : c.divider = cdivDivider := by rw [divider, hdriver]
  rw [Sound, HoldsWhen, hdriver, outcome, hdriver]
  simp only [exactly_bind]
  by_cases htarget : c.target = 0
  · refine iff_of_true ⟨.failed, ⟨none, ?_, rfl⟩, trivial⟩ (.inl htarget)
    rw [rpisdhcSetClock, if_pos htarget]
    rfl
  · rw [or_iff_right htarget]
    simp only [rpisdhcSetClock_exactly_iff htarget]
    constructor
    · rintro ⟨o, ⟨clock, ⟨⟨hsd, hcore, htwo, hfits⟩, rfl⟩, ho⟩, hright⟩
      cases exactly_pure.1 ho
      have hfastest : c.divider.Fastest c.base c.target (c.base / c.target - 2) := hright
      rw [hdivider, fastest_cdiv_iff htwo hfits] at hfastest
      exact ⟨hsd, hcore, hfastest, htwo, hfits⟩
    · rintro ⟨hsd, hcore, hdvd, htwo, hfits⟩
      refine ⟨.programmed (c.base / c.target - 2), ⟨_, ⟨⟨hsd, hcore, htwo, hfits⟩, rfl⟩, rfl⟩, ?_⟩
      show c.divider.Fastest c.base c.target (c.base / c.target - 2)
      rw [hdivider]
      exact (fastest_cdiv_iff htwo hfits).2 hdvd

theorem sound_brcme88c (hdriver : c.driver = .brcme88c) : c.Sound ↔ c.HoldsWhen := by
  have hbase := base_lt c
  rw [HoldsWhen, hdriver]
  simp only
  by_cases htarget : c.target = 0
  · refine iff_of_true ⟨.stopped, ?_, htarget⟩ ?_
    · rw [outcome, hdriver]
      refine exactly_bind.2 ⟨(.success, { c.clockControl with sdClockEnable := false }), ?_, rfl⟩
      rw [brcme88cSetClock, if_pos htarget]
      rfl
    · split_ifs
      · exact .inl htarget
      · omega
  · rw [sound_brcme88c_iff hdriver htarget]
    have hpos := Nat.pos_of_ne_zero htarget
    by_cases hslow : c.base ≤ c.target
    · refine iff_of_true ⟨some 1, ?_, ?_⟩ ?_
      · rw [clockDivisor, if_pos hslow]
        rfl
      · intro d hd _
        cases hd
        exact fastest_zero_iff.2 hslow
      · split_ifs
        · exact .inr (.inr (noneBetween_of_le hslow))
        · omega
    have hlt := Nat.not_le.1 hslow
    by_cases hv : c.specVersion.toNat < specVersion3
    · rw [if_pos hv, or_iff_right htarget, clockDivisor, if_neg hslow, if_pos hv]
      simp only [exactly_pure]
      cases hshift : firstShift c.base c.target 8 1 with
      | none =>
        refine iff_of_true ⟨none, rfl, fun d hd => ?_⟩ (.inr (noneBetween_of_none hshift))
        cases hd
      | some s =>
        -- the loop ends at the first power of two that is slow enough
        obtain ⟨hone, hs, -, hbefore⟩ := firstShift_eq_some hshift
        obtain ⟨s, rfl⟩ : ∃ j, s = j + 1 := ⟨s - 1, by omega⟩
        have hfastest : (sdHostDivider c.specVersion.toNat).Fastest c.base c.target
            (2 ^ (s + 1) / 2) ↔ NoneBetween c.base c.target := by
          have hfast : c.target * 2 ^ s < c.base := by
            cases s with
            | zero => rwa [Nat.pow_zero, Nat.mul_one]
            | succ s =>
              have hge := hbefore (s + 1) (by omega) (by omega)
              have hpow := Nat.two_pow_pos (s + 1)
              rw [Nat.succ_mul] at hge
              omega
          rw [Nat.pow_succ, Nat.mul_div_cancel _ (by decide), fastest_pow_iff hv (by omega) hlt,
            noneBetween_iff_of_some hshift, and_iff_left hfast]
        rw [← hfastest]
        constructor
        · rintro ⟨o, rfl, hright⟩
          by_cases hstable : ClockStable c.stable
          · exact .inr (hright _ rfl hstable)
          · exact .inl hstable
        · intro hor
          refine ⟨_, rfl, fun d hd hstable => ?_⟩
          cases hd
          exact hor.resolve_left (not_not.2 hstable)
    · rw [if_neg hv]
      by_cases hwrap : c.target = 1 ∧ c.base = 2 ^ 32 - 1
      · refine iff_of_false ?_ (not_not.2 hwrap)
        rintro ⟨o, ho, -⟩
        rw [hwrap.1, hwrap.2] at ho
        exact clockDivisor_wraps hv o ho
      · refine iff_of_true ?_ hwrap
        obtain ⟨k, hk, hdivisor⟩ := clockDivisor_even hv hpos hlt hbase hwrap
        refine ⟨_, hdivisor, fun d hd _ => ?_⟩
        split_ifs at hd with hlarge
        cases hd
        rw [Nat.mul_div_cancel_left _ (by decide)]
        exact (fastest_even_iff hv hk.1 (by omega) hlt).2 ⟨hk.2.2, hk.2.1⟩

/-- Above version 3 the divisor is doubled. -/
theorem sound_bcm2836sdhc_doubled (hdriver : c.driver = .bcm2836sdhc) (htarget : c.target ≠ 0)
    (hv : specVersion3 < c.specVersion.toNat) :
    c.Sound ↔ PowerOfTwo c.base c.target ∧ NoneBetween c.base c.target := by
  have hcalc : (sdhcCalcClockFrequency c.specVersion.toNat c.base c.target).Exactly _ :=
    sdhcCalcClockFrequency_doubled hv htarget
  have hdoubled : doubleDivisor c.base c.target 8 1 =
      2 ^ (firstShift c.base c.target 8 0).getD 8 := doubleDivisor_eq (Nat.zero_add 8)
  have hdecode : ∀ x ≤ 2 ^ 7,
      x * 2 ^ 8 / 2 ^ 6 % 2 ^ 2 * 2 ^ 8 + x * 2 ^ 8 / 2 ^ 8 % 2 ^ 8 = x := by
    intro x hx
    omega
  rw [sound_bcm2836sdhc_iff hdriver hcalc, hdoubled]
  by_cases hslow : c.base ≤ c.target
  · have hzero : firstShift c.base c.target 8 0 = some 0 := if_pos hslow
    rw [hzero]
    exact iff_of_true (fastest_zero_iff.2 hslow) ⟨.inl hslow, noneBetween_of_le hslow⟩
  · have hlt := Nat.not_le.1 hslow
    have hnext : firstShift c.base c.target 8 0 = firstShift c.base c.target 7 1 := if_neg hslow
    rw [hnext]
    -- the first shift from 1 on that looks slow enough, or the last one
    obtain ⟨s, hs, heq, hbefore, hfound⟩ : ∃ s < 8,
        (firstShift c.base c.target 7 1).getD 8 = s + 1 ∧
          (∀ j, 1 ≤ j → j < s + 1 → (c.target + 1) * 2 ^ j ≤ c.base) ∧
          (s + 1 < 8 → c.base < (c.target + 1) * 2 ^ (s + 1)) := by
      cases hshift : firstShift c.base c.target 7 1 with
      | none =>
        exact ⟨7, by decide, rfl, firstShift_eq_none hshift, fun h => absurd h (by decide)⟩
      | some s =>
        obtain ⟨hone, hs, hfound, hbefore⟩ := firstShift_eq_some hshift
        obtain ⟨s, rfl⟩ : ∃ j, s = j + 1 := ⟨s - 1, by omega⟩
        exact ⟨s, by omega, rfl, hbefore, fun _ => hfound⟩
    have hle : 2 ^ s ≤ 2 ^ 7 := Nat.pow_le_pow_right (by decide) (by omega)
    rw [heq, Nat.pow_succ, Nat.mul_div_cancel _ (by decide), hdecode _ hle,
      fastest_even_iff (fun h => absurd hv h.not_gt) (Nat.two_pow_pos s) (by omega) hlt,
      ← leastHalf_pow_iff hs hlt hbefore hfound]
    exact ⟨fun h => ⟨Nat.two_pow_pos s, h.2, h.1⟩, fun h => ⟨h.2.2, h.2.1⟩⟩

/-- Up to version 3 the divisor is even, and before version 3 the controller has powers of two
only. -/
theorem sound_bcm2836sdhc_even (hdriver : c.driver = .bcm2836sdhc) (htarget : c.target ≠ 0)
    (hv : ¬ specVersion3 < c.specVersion.toNat) (hwrap : c.base ≤ c.target ∨ c.target < 2 ^ 31) :
    c.Sound ↔ if c.specVersion.toNat < specVersion3 then PowerOfTwo c.base c.target
      else c.base ≤ maxClockDivisorSpec3 * c.target := by
  have hmax : maxClockDivisorSpec3 = 2046 := rfl
  obtain ⟨k, hk, hcalc⟩ := sdhcCalcClockFrequency_even hv htarget (base_lt c) hwrap
  have hdecode : ∀ x ≤ 1023, (x % 2 ^ 8 * 2 ^ 8 + x / 2 ^ 8 * 2 ^ 6) / 2 ^ 6 % 2 ^ 2 * 2 ^ 8 +
      (x % 2 ^ 8 * 2 ^ 8 + x / 2 ^ 8 * 2 ^ 6) / 2 ^ 8 % 2 ^ 8 = x := by
    intro x hx
    rw [control_decode (by omega) (Nat.mod_lt _ (by decide)), Nat.div_add_mod']
  rw [sound_bcm2836sdhc_iff hdriver hcalc, hdecode _ (Nat.min_le_right ..)]
  rcases hk with ⟨hslow, rfl⟩ | ⟨hlt, hk⟩
  · rw [Nat.zero_min]
    refine iff_of_true (fastest_zero_iff.2 hslow) ?_
    split_ifs
    · exact .inl hslow
    · rw [hmax]
      omega
  obtain ⟨hpos, hbelow, habove⟩ := hk
  split_ifs with hlow
  · rw [powerOfTwo_iff hlt ⟨hpos, hbelow, habove⟩]
    constructor
    · intro h
      have hwidth : (sdHostDivider c.specVersion.toNat).width = 8 := if_pos hlow
      have hfits := h.fits
      rw [hwidth] at hfits
      have hmin : min k 1023 = k := by omega
      rcases h.legal hlow with hzero | ⟨s, hs, hpow⟩
      · omega
      · exact ⟨s, hs, hmin.symm.trans hpow⟩
    · rintro ⟨s, hs, rfl⟩
      have hle : 2 ^ s ≤ 2 ^ 7 := Nat.pow_le_pow_right (by decide) (by omega)
      have hmin : min (2 ^ s) 1023 = 2 ^ s := by omega
      rw [hmin, fastest_pow_iff hlow hs hlt, Nat.pow_succ, Nat.mul_comm (2 ^ s)]
      refine ⟨habove, ?_⟩
      rcases Nat.lt_or_ge 1 (2 ^ s) with htwo | hone
      · exact (Nat.mul_le_mul_left _ (by omega)).trans_lt hbelow
      · rw [show 2 ^ s = 1 by omega, Nat.mul_one]
        exact hlt
  · rw [fastest_even_iff hlow (by omega) (by omega) hlt, hmax, Nat.mul_comm 2046]
    by_cases hfits : k ≤ 1023
    · rw [Nat.min_eq_left hfits]
      exact iff_of_true ⟨habove, hbelow⟩ (habove.trans (Nat.mul_le_mul_left _ (by omega)))
    · -- the largest divisor is not enough
      rw [Nat.min_eq_right (by omega)]
      have htoo : c.target * 2046 < c.base :=
        (Nat.mul_le_mul_left _ (by omega)).trans_lt hbelow
      exact iff_of_false (fun h => absurd htoo h.1.not_gt) htoo.not_ge

theorem sound_bcm2836sdhc (hdriver : c.driver = .bcm2836sdhc) : c.Sound ↔ c.HoldsWhen := by
  rw [HoldsWhen, hdriver]
  simp only
  by_cases htarget : c.target = 0
  · refine iff_of_false (fun h => ?_) (fun h => h.1 htarget)
    obtain ⟨o, ho⟩ := exactly_of_sound_bcm2836sdhc hdriver h
    exact sdhcCalcClockFrequency_target ho htarget
  rw [and_iff_right htarget]
  by_cases hv : specVersion3 < c.specVersion.toNat
  · rw [if_pos hv, sound_bcm2836sdhc_doubled hdriver htarget hv]
  · rw [if_neg hv]
    by_cases hwrap : c.base ≤ c.target ∨ c.target < 2 ^ 31
    · rw [and_iff_right hwrap, sound_bcm2836sdhc_even hdriver htarget hv hwrap]
    · refine iff_of_false (fun h => ?_) (fun h => hwrap h.1)
      obtain ⟨o, ho⟩ := exactly_of_sound_bcm2836sdhc hdriver h
      exact hwrap (sdhcCalcClockFrequency_wraps hv ho)

variable (c) in
/-- **Each driver fails or programs the fastest clock that is not too fast** exactly under the
condition on the two frequencies. -/
theorem sound_iff : c.Sound ↔ c.HoldsWhen := by
  cases hdriver : c.driver with
  | rpisdhc => exact sound_rpisdhc hdriver
  | brcme88c => exact sound_brcme88c hdriver
  | bcm2836sdhc => exact sound_bcm2836sdhc hdriver

end SetClockCall

/-- A call on a clock that becomes stable at once. -/
def call (driver : Driver) (specVersion : UInt8) (base frequency : UInt32) : SetClockCall where
  driver := driver
  specVersion := specVersion
  baseClockFrequencyKhz := base
  frequencyKhz := frequency
  stable _ := true
  clockControl := ⟨false, false, 0, 0⟩

/-- 26 MHz of 250 MHz become 27.8 MHz with the linear divider, 25 MHz of 50.001 MHz are more than
that with a power of two, and a frequency of 0 is divided by. -/
theorem clocks_too_fast :
    ¬ (call .rpisdhc 0 250000 26000).Sound ∧ ¬ (call .brcme88c 1 50001 25000).Sound ∧
      ¬ (call .bcm2836sdhc 2 250000 0).Sound := by
  refine ⟨?_, ?_, ?_⟩
  · rintro ⟨o, ho, hright⟩
    have hprogrammed : (call .rpisdhc 0 250000 26000).outcome.Exactly (.programmed 7) := by decide
    cases ho.unique hprogrammed
    have hslow := (rate_le_iff (show 0 < 9 by decide)).1 (ClockDivider.Fastest.notFaster hright)
    exact absurd hslow (by decide)
  · rintro ⟨o, ho, hright⟩
    have hprogrammed : (call .brcme88c 1 50001 25000).outcome.Exactly (.programmed 1) := by
      decide +kernel
    cases ho.unique hprogrammed
    have hslow := (rate_le_iff (show 0 < 2 by decide)).1 (ClockDivider.Fastest.notFaster hright)
    exact absurd hslow (by decide)
  · rintro ⟨o, ho, -⟩
    cases ho

end RpiDrivers.SdClock
