import RpiDrivers.Lib.ClockDivider

/-!
# The baud rate of the PL011 (`PL011hw.cpp`)

`PL011HwSetBaudRate` computes the two divisor registers, and an error in percent, in 32-bit
arithmetic. The hardware divides its clock by `16 * (UARTIBRD + UARTFBRD / 64)`.

- `pl011HwSetBaudRate`: the routine, with wrapping arithmetic.
- `BaudRateSound`: no overflow, fields that fit and a rate within the error, or nothing changed.
- `baudRateSound_iff`: **exactly when it is**. The error is truncated to whole percents, so that
  up to 2 % passes; neither the scaled clock nor the integer divisor is checked for its width.
-/

namespace RpiDrivers.Pl011

open RpiDrivers.Lib

def pl011MinBaudRateBps : BitVec 32 := 110
def pl011MaxBaudRateErrorPercent : BitVec 32 := 1

/-- What `PL011HwSetBaudRate` uses of the device extension, and the registers it writes. -/
structure BaudDevice where
  maxBaudRateBps : BitVec 32
  uartClockHz : BitVec 32
  /-- `UartSerialBusDescriptor.BaudRate` -/
  baudRate : BitVec 32
  uartibrd : BitVec 32
  uartfbrd : BitVec 32
  uartlcrH : BitVec 32
  deriving DecidableEq

inductive BaudOutcome
  | success
  | notSupported
  /-- The routine divides by zero. -/
  | divideByZero
  deriving DecidableEq

section Arithmetic

variable (uartClockHz baudRateBps : BitVec 32)

def baudDivisor : BitVec 32 := uartClockHz * 4 / baudRateBps

def regUartibrd : BitVec 32 := baudDivisor uartClockHz baudRateBps >>> 6

def regUartfbrd : BitVec 32 := baudDivisor uartClockHz baudRateBps &&& 0x3F

/-- `64 * regUARTIBRD + regUARTFBRD` -/
def writtenDivisor : BitVec 32 :=
  64 * regUartibrd uartClockHz baudRateBps + regUartfbrd uartClockHz baudRateBps

def actualBaudRateBps : BitVec 32 := uartClockHz * 4 / writtenDivisor uartClockHz baudRateBps

/-- The distance of the actual rate, as an `int` that is made positive. -/
def baudRateError : BitVec 32 :=
  let error := actualBaudRateBps uartClockHz baudRateBps - baudRateBps
  if error.slt 0 then error * -1 else error

/-- The product is that of two `int`s, the division one of `ULONG`s. -/
def baudRateErrorPercent : BitVec 32 := baudRateError uartClockHz baudRateBps * 100 / baudRateBps

end Arithmetic

/-- `PL011HwSetBaudRate` -/
def pl011HwSetBaudRate (dev : BaudDevice) (baudRateBps : BitVec 32) : BaudOutcome × BaudDevice :=
  if baudRateBps < pl011MinBaudRateBps || dev.maxBaudRateBps < baudRateBps then
    (.notSupported, dev)
  else if dev.uartClockHz / 16 < baudRateBps then (.notSupported, dev)
  else if writtenDivisor dev.uartClockHz baudRateBps = 0 then (.divideByZero, dev)
  else if pl011MaxBaudRateErrorPercent.slt (baudRateErrorPercent dev.uartClockHz baudRateBps) then
    (.notSupported, dev)
  else
    (.success, { dev with
      uartibrd := regUartibrd dev.uartClockHz baudRateBps
      uartfbrd := regUartfbrd dev.uartClockHz baudRateBps
      uartlcrH := dev.uartlcrH
      baudRate := baudRateBps })

/-! ## The property -/

/-- The exact results of the routine's operations are in the ranges of their types. -/
structure NoOverflow (uartClockHz baudRateBps : BitVec 32) : Prop where
  scaledClock : uartClockHz.toNat * 4 < 2 ^ 32
  writtenDivisor : 64 * (regUartibrd uartClockHz baudRateBps).toNat +
    (regUartfbrd uartClockHz baudRateBps).toNat < 2 ^ 32
  error : |((actualBaudRateBps uartClockHz baudRateBps).toNat : Int) - baudRateBps.toNat| < 2 ^ 31
  percent :
    |((actualBaudRateBps uartClockHz baudRateBps).toNat : Int) - baudRateBps.toNat| * 100 < 2 ^ 31

/-- The rate that the hardware derives from its clock and the two registers. -/
def hardwareRate (dev : BaudDevice) : ℚ :=
  rate (4 * dev.uartClockHz.toNat) (64 * dev.uartibrd.toNat + dev.uartfbrd.toNat)

/-- What a request that is accepted has to leave behind. -/
structure Accepted (dev : BaudDevice) (baudRateBps : BitVec 32) : Prop where
  noOverflow : NoOverflow dev.uartClockHz baudRateBps
  integerPos : 1 ≤ dev.uartibrd.toNat
  integerFits : dev.uartibrd.toNat < 2 ^ 16
  fractionFits : dev.uartfbrd.toNat < 2 ^ 6
  near : |hardwareRate dev - baudRateBps.toNat| ≤
    baudRateBps.toNat * pl011MaxBaudRateErrorPercent.toNat / 100

/-- A request is accepted with divisors that are right, or it changes nothing. -/
def BaudRateSound (dev : BaudDevice) (baudRateBps : BitVec 32) : Prop :=
  match pl011HwSetBaudRate dev baudRateBps with
  | (.success, dev') => Accepted dev' baudRateBps
  | (.notSupported, dev') => dev' = dev
  | (.divideByZero, _) => False

/-! ## The condition -/

/-- The request is out of the range of the device. -/
def OutOfRange (max clock baud : Nat) : Prop := baud < 110 ∨ max < baud ∨ clock / 16 < baud

/-- The scaled clock fits, the quotient is below `2 ^ 22`, and its remainder is small. -/
def DivisorNear (clock baud : Nat) : Prop :=
  clock < 2 ^ 30 ∧ clock < 2 ^ 20 * baud ∧ 101 * (4 * clock % baud) ≤ 4 * clock

/-- The scaled clock does not fit, but what is left of it is off by 2 % and more. -/
def OverflowRejected (clock baud : Nat) : Prop :=
  2 ^ 30 ≤ clock ∧ baud ≤ clock * 4 % 2 ^ 32 ∧
    2 * baud ≤ clock * 4 % 2 ^ 32 % baud / (clock * 4 % 2 ^ 32 / baud) * 100 % 2 ^ 32

/-! ## What the operations compute -/

section Values

variable (u b : BitVec 32)

theorem toNat_baudDivisor : (baudDivisor u b).toNat = u.toNat * 4 % 2 ^ 32 / b.toNat := by
  simp [baudDivisor, BitVec.toNat_udiv, BitVec.toNat_mul]

theorem toNat_regUartibrd : (regUartibrd u b).toNat = u.toNat * 4 % 2 ^ 32 / b.toNat / 64 := by
  rw [regUartibrd, BitVec.toNat_ushiftRight, Nat.shiftRight_eq_div_pow, toNat_baudDivisor]

theorem toNat_regUartfbrd : (regUartfbrd u b).toNat = u.toNat * 4 % 2 ^ 32 / b.toNat % 64 := by
  rw [regUartfbrd, BitVec.toNat_and, toNat_baudDivisor]
  exact Nat.and_two_pow_sub_one_eq_mod _ 6

/-- The two fields are the quotient again. -/
theorem toNat_fields :
    64 * (regUartibrd u b).toNat + (regUartfbrd u b).toNat = u.toNat * 4 % 2 ^ 32 / b.toNat := by
  rw [toNat_regUartibrd, toNat_regUartfbrd, Nat.div_add_mod]

theorem toNat_writtenDivisor : (writtenDivisor u b).toNat = u.toNat * 4 % 2 ^ 32 / b.toNat := by
  have h := toNat_fields u b
  have hlt := (baudDivisor u b).isLt
  rw [toNat_baudDivisor] at hlt
  rw [writtenDivisor, BitVec.toNat_add, BitVec.toNat_mul]
  have h64 : (64 : BitVec 32).toNat = 64 := rfl
  rw [h64, Nat.mod_add_mod, h, Nat.mod_eq_of_lt hlt]

theorem toNat_actualBaudRateBps (hd : 0 < u.toNat * 4 % 2 ^ 32 / b.toNat) :
    (actualBaudRateBps u b).toNat = b.toNat +
      u.toNat * 4 % 2 ^ 32 % b.toNat / (u.toNat * 4 % 2 ^ 32 / b.toNat) := by
  rw [actualBaudRateBps, BitVec.toNat_udiv, toNat_writtenDivisor, BitVec.toNat_mul]
  exact div_div_self_eq hd

/-- The error is that of the quotient: it is never negative. -/
theorem toNat_baudRateError (hb : b.toNat < 2 ^ 28) (hd : 0 < u.toNat * 4 % 2 ^ 32 / b.toNat) :
    (baudRateError u b).toNat =
      u.toNat * 4 % 2 ^ 32 % b.toNat / (u.toNat * 4 % 2 ^ 32 / b.toNat) := by
  have hpos : 0 < b.toNat := Nat.pos_of_ne_zero fun h => by simp [h] at hd
  have ha := toNat_actualBaudRateBps u b hd
  have hle := (Nat.div_le_self (u.toNat * 4 % 2 ^ 32 % b.toNat)
    (u.toNat * 4 % 2 ^ 32 / b.toNat)).trans_lt (Nat.mod_lt _ hpos)
  generalize u.toNat * 4 % 2 ^ 32 % b.toNat / (u.toNat * 4 % 2 ^ 32 / b.toNat) = e at ha hle ⊢
  have hsub : (actualBaudRateBps u b - b).toNat = e := by
    rw [BitVec.toNat_sub]
    omega
  have hslt : (actualBaudRateBps u b - b).slt 0 = false := by
    rw [BitVec.slt_eq_decide, BitVec.toInt_eq_toNat_of_lt (by omega)]
    exact decide_eq_false (Int.not_lt.2 (Int.natCast_nonneg _))
  rw [baudRateError, hslt]
  exact hsub

theorem toNat_baudRateErrorPercent (hb : b.toNat < 2 ^ 28)
    (hd : 0 < u.toNat * 4 % 2 ^ 32 / b.toNat) :
    (baudRateErrorPercent u b).toNat =
      u.toNat * 4 % 2 ^ 32 % b.toNat / (u.toNat * 4 % 2 ^ 32 / b.toNat) * 100 % 2 ^ 32 /
        b.toNat := by
  rw [baudRateErrorPercent, BitVec.toNat_udiv, BitVec.toNat_mul, toNat_baudRateError u b hb hd]
  rfl

/-- The error test fails from twice the requested rate on. -/
theorem rejected_iff (hmin : 110 ≤ b.toNat) (hb : b.toNat < 2 ^ 28)
    (hd : 0 < u.toNat * 4 % 2 ^ 32 / b.toNat) :
    pl011MaxBaudRateErrorPercent.slt (baudRateErrorPercent u b) = true ↔
      2 * b.toNat ≤ u.toNat * 4 % 2 ^ 32 % b.toNat / (u.toNat * 4 % 2 ^ 32 / b.toNat) * 100 %
        2 ^ 32 := by
  have hp := toNat_baudRateErrorPercent u b hb hd
  have he := Nat.mod_lt (u.toNat * 4 % 2 ^ 32 % b.toNat / (u.toNat * 4 % 2 ^ 32 / b.toNat) * 100)
    (show 0 < 2 ^ 32 by decide)
  generalize u.toNat * 4 % 2 ^ 32 % b.toNat / (u.toNat * 4 % 2 ^ 32 / b.toNat) * 100 % 2 ^ 32 = e
    at hp he ⊢
  have hlt : 2 * (baudRateErrorPercent u b).toNat < 2 ^ 32 := by
    rw [hp]
    have hle : e / b.toNat ≤ e / 110 := Nat.div_le_div_left hmin (by decide)
    omega
  rw [BitVec.slt_eq_decide, decide_eq_true_iff, BitVec.toInt_eq_toNat_of_lt hlt, hp,
    ← Nat.le_div_iff_mul_le (by omega)]
  exact Int.ofNat_lt

end Values

/-! ## The routine -/

section Routine

variable {dev : BaudDevice} {b : BitVec 32}

/-- What the routine does, in terms of the values of its operations. -/
theorem pl011HwSetBaudRate_inRange
    (h : ¬ OutOfRange dev.maxBaudRateBps.toNat dev.uartClockHz.toNat b.toNat) :
    pl011HwSetBaudRate dev b =
      if writtenDivisor dev.uartClockHz b = 0 then (.divideByZero, dev)
      else if pl011MaxBaudRateErrorPercent.slt (baudRateErrorPercent dev.uartClockHz b) then
        (.notSupported, dev)
      else
        (.success, { dev with
          uartibrd := regUartibrd dev.uartClockHz b
          uartfbrd := regUartfbrd dev.uartClockHz b
          uartlcrH := dev.uartlcrH
          baudRate := b }) := by
  obtain ⟨hmin, hmax, hclock⟩ := not_or.1 h |>.imp_right not_or.1
  rw [pl011HwSetBaudRate, if_neg, if_neg]
  · rw [BitVec.lt_def, BitVec.toNat_udiv]
    exact hclock
  · rw [Bool.or_eq_true, decide_eq_true_iff, decide_eq_true_iff, BitVec.lt_def, BitVec.lt_def]
    exact not_or.2 ⟨hmin, hmax⟩

theorem pl011HwSetBaudRate_outOfRange
    (h : OutOfRange dev.maxBaudRateBps.toNat dev.uartClockHz.toNat b.toNat) :
    pl011HwSetBaudRate dev b = (.notSupported, dev) := by
  rw [pl011HwSetBaudRate]
  split
  · rfl
  next hmin =>
    rw [Bool.or_eq_true, decide_eq_true_iff, decide_eq_true_iff, BitVec.lt_def, BitVec.lt_def]
      at hmin
    rw [if_pos]
    rw [BitVec.lt_def, BitVec.toNat_udiv]
    rcases h with h | h | h
    · exact absurd (.inl h) hmin
    · exact absurd (.inr h) hmin
    · exact h

/-- With a divisor of 64 and more the error is below 2 %. -/
theorem error_small {source baud : Nat} (hbaud : 0 < baud) (hd : 64 ≤ source / baud) :
    source % baud / (source / baud) * 100 < 2 * baud := by
  have hle : source % baud / (source / baud) * 64 ≤ source % baud :=
    (Nat.mul_le_mul_left _ hd).trans (Nat.div_mul_le_self ..)
  have hlt := Nat.mod_lt source hbaud
  omega

/-- A clock that fits when it is scaled passes the error test, whatever the request. -/
theorem accepted_of_clock_lt (hclock : dev.uartClockHz.toNat < 2 ^ 30)
    (h : ¬ OutOfRange dev.maxBaudRateBps.toNat dev.uartClockHz.toNat b.toNat) :
    BaudRateSound dev b ↔ DivisorNear dev.uartClockHz.toNat b.toNat := by
  have hb : 110 ≤ b.toNat ∧ b.toNat ≤ dev.uartClockHz.toNat / 16 := by
    unfold OutOfRange at h
    omega
  have hw : dev.uartClockHz.toNat * 4 % 2 ^ 32 = 4 * dev.uartClockHz.toNat := by omega
  have hd : 64 ≤ 4 * dev.uartClockHz.toNat / b.toNat := by
    rw [Nat.le_div_iff_mul_le (by omega)]
    omega
  have hsmall := error_small (by omega) hd
  have hpos : 0 < dev.uartClockHz.toNat * 4 % 2 ^ 32 / b.toNat := by
    rw [hw]
    omega
  have hiff := rejected_iff dev.uartClockHz b hb.1 (by omega) hpos
  have hfields := toNat_fields dev.uartClockHz b
  have hactual := toNat_actualBaudRateBps dev.uartClockHz b hpos
  have hibrd := toNat_regUartibrd dev.uartClockHz b
  rw [hw] at hiff hfields hactual hibrd
  rw [BaudRateSound, pl011HwSetBaudRate_inRange h, if_neg, if_neg]
  · generalize 4 * dev.uartClockHz.toNat % b.toNat / (4 * dev.uartClockHz.toNat / b.toNat) = e
      at hsmall hiff hactual
    have hquotient : 0 < 4 * dev.uartClockHz.toNat / b.toNat := by omega
    have hnear := abs_rate_div_sub_le_iff hquotient 1
    have hfits : 4 * dev.uartClockHz.toNat / b.toNat / 64 < 2 ^ 16 ↔
        dev.uartClockHz.toNat < 2 ^ 20 * b.toNat := by
      rw [Nat.div_div_eq_div_mul, Nat.div_lt_iff_lt_mul (by omega)]
      omega
    -- the registers hold the whole divisor
    have hrate : hardwareRate { dev with
          uartibrd := regUartibrd dev.uartClockHz b
          uartfbrd := regUartfbrd dev.uartClockHz b
          baudRate := b } =
        rate (4 * dev.uartClockHz.toNat) (4 * dev.uartClockHz.toNat / b.toNat) :=
      congrArg (rate (4 * dev.uartClockHz.toNat)) hfields
    rw [Nat.one_mul] at hnear
    constructor
    · intro haccepted
      refine ⟨hclock, hfits.1 (hibrd ▸ haccepted.integerFits), hnear.1 ?_⟩
      rw [← hrate]
      exact haccepted.near
    · rintro ⟨-, hdivisor, hexact⟩
      refine ⟨⟨?_, ?_, ?_, ?_⟩, ?_, ?_, ?_, ?_⟩
      · show dev.uartClockHz.toNat * 4 < 2 ^ 32
        omega
      · exact hfields.trans_lt (by omega)
      · rw [hactual, Nat.cast_add, add_sub_cancel_left, Nat.abs_cast]
        omega
      · rw [hactual, Nat.cast_add, add_sub_cancel_left, Nat.abs_cast]
        omega
      · exact hibrd.symm ▸ (by omega)
      · exact hibrd.symm ▸ hfits.2 hdivisor
      · exact (toNat_regUartfbrd ..).trans_lt (Nat.mod_lt _ (by decide))
      · rw [hrate]
        exact hnear.2 hexact
  · rw [hiff]
    omega
  · intro hzero
    have := toNat_writtenDivisor dev.uartClockHz b
    rw [hzero, hw] at this
    simp at this
    omega

/-- A clock that does not fit must not be accepted. -/
theorem rejected_of_le_clock (hclock : 2 ^ 30 ≤ dev.uartClockHz.toNat)
    (h : ¬ OutOfRange dev.maxBaudRateBps.toNat dev.uartClockHz.toNat b.toNat) :
    BaudRateSound dev b ↔ OverflowRejected dev.uartClockHz.toNat b.toNat := by
  have hb : 110 ≤ b.toNat ∧ b.toNat < 2 ^ 28 := by
    unfold OutOfRange at h
    have := dev.uartClockHz.isLt
    omega
  rw [BaudRateSound, pl011HwSetBaudRate_inRange h]
  by_cases hzero : dev.uartClockHz.toNat * 4 % 2 ^ 32 / b.toNat = 0
  · rw [if_pos (BitVec.eq_of_toNat_eq ((toNat_writtenDivisor ..).trans hzero))]
    refine iff_of_false id fun hrejected => ?_
    exact absurd hzero (Nat.div_pos hrejected.2.1 (by omega)).ne'
  · have hpos := Nat.pos_of_ne_zero hzero
    rw [if_neg fun hw => hzero ((toNat_writtenDivisor ..).symm.trans (congrArg BitVec.toNat hw))]
    have hiff := rejected_iff dev.uartClockHz b hb.1 hb.2 hpos
    by_cases hfar : pl011MaxBaudRateErrorPercent.slt (baudRateErrorPercent dev.uartClockHz b)
    · rw [if_pos hfar]
      exact iff_of_true rfl ⟨hclock, (Nat.div_pos_iff.1 hpos).2, hiff.1 hfar⟩
    · rw [if_neg hfar]
      refine iff_of_false (fun haccepted => ?_) fun hrejected => hfar (hiff.2 hrejected.2.2)
      have hscaled : dev.uartClockHz.toNat * 4 < 2 ^ 32 := haccepted.noOverflow.scaledClock
      omega

/-- **The routine is right exactly when the request is out of its range, or the scaled clock and
the divisor fit and the rounding is small, or an overflow happens to be rejected.** -/
theorem baudRateSound_iff (dev : BaudDevice) (b : BitVec 32) :
    BaudRateSound dev b ↔
      OutOfRange dev.maxBaudRateBps.toNat dev.uartClockHz.toNat b.toNat ∨
      DivisorNear dev.uartClockHz.toNat b.toNat ∨ OverflowRejected dev.uartClockHz.toNat b.toNat := by
  by_cases h : OutOfRange dev.maxBaudRateBps.toNat dev.uartClockHz.toNat b.toNat
  · refine iff_of_true ?_ (.inl h)
    rw [BaudRateSound, pl011HwSetBaudRate_outOfRange h]
  · rw [or_iff_right h]
    by_cases hclock : dev.uartClockHz.toNat < 2 ^ 30
    · rw [accepted_of_clock_lt hclock h, or_iff_left]
      exact fun hrejected => absurd hrejected.1 (Nat.not_le.2 hclock)
    · rw [rejected_of_le_clock (Nat.not_lt.1 hclock) h, or_iff_right]
      exact fun hexact => hclock hexact.1

/-- A clock of 48 MHz and 2954000 bps: the rate is off by 1.5 %. -/
theorem rate_off : ¬ BaudRateSound ⟨3000000, 48000000, 0, 0, 0, 0⟩ 2954000 := by
  have hset : pl011HwSetBaudRate ⟨3000000, 48000000, 0, 0, 0, 0⟩ 2954000 =
      (.success, ⟨3000000, 48000000, 2954000, 1, 0, 0⟩) := by decide
  rw [BaudRateSound, hset]
  intro haccepted
  have hnear : |rate 192000000 64 - (2954000 : Nat)| ≤ (2954000 : Nat) * (1 : Nat) / 100 :=
    haccepted.near
  norm_num [rate] at hnear

end Routine

end RpiDrivers.Pl011
