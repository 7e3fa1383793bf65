import Mathlib.Tactic.ByContra
import Mathlib.Tactic.SplitIfs
import RpiDrivers.Lib.Calc
import RpiDrivers.Lib.ClockDivider

/-!
# The baud rate of the mini UART (`SerialGetDivisorFromBaud` in `utils.c`)

The divisor is computed as for a 16550, with `ClockRate / (8 * DesiredBaud)`, and rounded up for
some remainders. The hardware divides its clock by `8 * (divisor + 1)`.

- `serialGetDivisorFromBaud`: the routine; a division by zero stops it, and the calculation is
  exact unless the quotient is truncated to a `USHORT`.
- `DivisorSound`: **no division by zero, no truncation, a rate within one percent, and no rate
  refused that can be had**.
- `divisorSound_iff`: **exactly when it is**.
-/

namespace RpiDrivers.MiniUart.BaudDivisor

open RpiDrivers.Lib

/-- The `NTSTATUS` values that occur. -/
inductive Status
  | success
  | invalidParameter
  deriving DecidableEq

/-- The local variables, while the divisor is calculated. -/
structure Quotient where
  calculatedDivisor : Nat
  denominator : Nat
  remainder : Nat

/-- "Allow up to a 1 percent error in baud rate" -/
def maxRemain (clockRate : Nat) : Nat := clockRate / 100

/-- "Round up as needed" -/
def roundUp (clockRate : Nat) (x : Quotient) : Calc Quotient :=
  if maxRemain clockRate < x.remainder ∧ x.remainder < maxRemain clockRate * 3 then do
    let calculatedDivisor := (x.calculatedDivisor + 1) % 65536
    let denominator ← Calc.div clockRate calculatedDivisor
    let remainder ← Calc.rem clockRate denominator
    pure ⟨calculatedDivisor, denominator, remainder⟩
  else pure x

/-- The tests of the remainder and of the denominator; `0xFFFF` is `(USHORT)-1`. -/
def checkDivisor (clockRate desiredBaud : Nat) (x : Quotient) : Nat :=
  let calculatedDivisor :=
    if 9600 ≤ desiredBaud ∧ maxRemain clockRate ≤ x.remainder ∧
        (x.remainder + maxRemain clockRate) % 4294967296 < clockRate then 0xFFFF
    else x.calculatedDivisor
  if clockRate < x.denominator then 0xFFFF else calculatedDivisor

/-- `*AppropriateDivisor`, as a word. The quotient is cast to a `USHORT`. -/
def appropriateDivisor (clockRate desiredBaud : BitVec 32) : Calc Nat :=
  let denominator := desiredBaud * 8
  if desiredBaud.toInt ≤ 0 then pure 0xFFFF
  else if denominator.toInt < desiredBaud.toInt then pure 0xFFFF
  else do
    let quotient ← Calc.div clockRate.toNat denominator.toNat
    let calculatedDivisor ← Calc.field 16 quotient
    let remainder ← Calc.rem clockRate.toNat denominator.toNat
    let x ← roundUp clockRate.toNat ⟨calculatedDivisor, denominator.toNat, remainder⟩
    pure (checkDivisor clockRate.toNat desiredBaud.toNat x)

/-- `SerialGetDivisorFromBaud`: the divisor is a `SHORT`, and a negative one is the failure. The
deviation of the rate is computed for a trace. -/
def serialGetDivisorFromBaud (clockRate desiredBaud : BitVec 32) : Calc (Status × Nat) := do
  let divisor ← appropriateDivisor clockRate desiredBaud
  if 0x8000 ≤ divisor then pure (.invalidParameter, divisor)
  else do
    let ulAtualBaudRate ← Calc.div clockRate.toNat (8 * (divisor + 1))
    let _ ← Calc.div (desiredBaud.toNat * 1000 % 4294967296) ulAtualBaudRate
    pure (.success, divisor)

/-! ## The property -/

/-- The rate that the hardware derives from the divisor latch. -/
def hardwareRate (clockRate : BitVec 32) (divisor : Nat) : ℚ :=
  rate clockRate.toNat (8 * (divisor + 1))

/-- It is off by at most one percent. -/
def Within (clockRate desiredBaud : BitVec 32) (divisor : Nat) : Prop :=
  |hardwareRate clockRate divisor - desiredBaud.toNat| ≤ (desiredBaud.toNat * 1 / 100 : ℚ)

/-- **No division by zero, no truncation, a rate within one percent when it succeeds**, and no
failure for a rate from 9600 on that some divisor gives. -/
def DivisorSound (clockRate desiredBaud : BitVec 32) : Prop :=
  match serialGetDivisorFromBaud clockRate desiredBaud with
  | .divByZero => False
  | .result _ false => False
  | .result (.success, divisor) true => Within clockRate desiredBaud divisor
  | .result (.invalidParameter, _) true =>
    ¬(9600 ≤ desiredBaud.toNat ∧ ∃ divisor < 0x8000, Within clockRate desiredBaud divisor)

/-! ## The condition -/

section Condition

variable (clock baud : Nat)

/-- `8 * DesiredBaud` as it is computed. -/
def octuple : Nat := baud * 8 % 4294967296

/-- A rate is looked at when it is positive as a `LONG` and its octuple is not below it. -/
def Considered : Prop := 0 < baud ∧ baud ≤ octuple baud ∧ octuple baud < 2147483648

/-- The remainder is rounded up, so that the divisor is one more. -/
def RoundedUp : Prop :=
  clock / 100 < clock % octuple baud ∧ clock % octuple baud < clock / 100 * 3

instance : Decidable (RoundedUp clock baud) := inferInstanceAs (Decidable (_ ∧ _))

/-- A rate that is looked at gets a divisor: the quotient is a positive `SHORT`, and from 9600 on
the remainder is below one percent of the clock, or between one and three. -/
def Taken : Prop :=
  0 < clock / octuple baud ∧ clock / octuple baud < 0x8000 ∧
    (baud < 9600 ∨ clock % octuple baud < clock / 100 ∨ RoundedUp clock baud)

/-- One of the divisors next to the exact quotient is near enough. -/
def InReach : Prop :=
  (0 < clock / (8 * baud) ∧ clock / (8 * baud) ≤ 0x8000 ∧ 101 * (clock % (8 * baud)) ≤ clock) ∨
  (0x8000 < clock / (8 * baud) ∧ 100 * clock ≤ 101 * (8 * baud * 0x8000)) ∨
  (clock / (8 * baud) < 0x8000 ∧ 99 * (8 * baud - clock % (8 * baud)) ≤ clock)

/-- The octuple does not wrap, the rate is not one baud, and the quotient is so large that it does
not matter that the hardware divides by one more. -/
def LargeQuotient : Prop :=
  1 < baud ∧ baud < 268435456 ∧
    (RoundedUp clock baud → 99 * (2 * (8 * baud) - clock % (8 * baud)) ≤ clock) ∧
    (¬RoundedUp clock baud → 99 * (8 * baud - clock % (8 * baud)) ≤ clock)

/-- When the divisor is right. -/
def Suits : Prop :=
  (Considered baud → clock / octuple baud < 65536) ∧
  (Considered baud ∧ Taken clock baud → LargeQuotient clock baud) ∧
  (¬(Considered baud ∧ Taken clock baud) → 9600 ≤ baud → ¬InReach clock baud)

end Condition

/-! ## Quotients and remainders -/

section Division

variable {clock baud : Nat}

/-- The quotient and the remainder of a rate that is looked at. -/
structure Divided (clock baud n q r : Nat) : Prop where
  clock_eq : n * q + r = clock
  remainder_lt : r < n
  baud_pos : 0 < baud
  octuple_eq : n = baud * 8 % 4294967296
  baud_le : baud ≤ n
  octuple_lt : n < 2147483648

theorem Considered.divided (h : Considered baud) (clock : Nat) :
    Divided clock baud (octuple baud) (clock / octuple baud) (clock % octuple baud) where
  clock_eq := Nat.div_add_mod ..
  remainder_lt := Nat.mod_lt _ (by have := h.1; have := h.2.1; omega)
  baud_pos := h.1
  octuple_eq := rfl
  baud_le := h.2.1
  octuple_lt := h.2.2

namespace Divided

variable {n q r : Nat}

/-- The octuple is that of a small rate, or it has wrapped and the rate is large. -/
theorem small_or_wrapped (h : Divided clock baud n q r) :
    (baud < 268435456 ∧ n = baud * 8) ∨ 536870912 < baud := by
  obtain ⟨-, -, hpos, hn, hle, hlt⟩ := h
  omega

theorem mul_le (k : Nat) (h : Divided clock baud n q r) (hk : k ≤ q) : n * k ≤ clock := by
  have hmul := Nat.mul_le_mul_left n hk
  have hclock := h.clock_eq
  omega

/-- When the remainder is more than one percent of the clock the quotient is at most 100. -/
theorem quotient_le (h : Divided clock baud n q r) (hr : clock / 100 < r) : q ≤ 100 := by
  by_contra hq
  have hmul := h.mul_le 101 (by omega)
  have hlt := h.remainder_lt
  omega

/-- A remainder that is rounded up is not that of a quotient of zero. -/
theorem quotient_pos (h : Divided clock baud n q r) (hr : r < clock / 100 * 3) : 0 < q := by
  rcases Nat.eq_zero_or_pos q with rfl | hq
  · have hclock := h.clock_eq
    omega
  · exact hq

/-- The denominator is larger than the clock exactly when the quotient is zero. -/
theorem clock_lt_iff (h : Divided clock baud n q r) : clock < n ↔ q = 0 := by
  constructor
  · intro hlt
    by_contra hq
    have hmul := h.mul_le 1 (Nat.one_le_iff_ne_zero.2 hq)
    omega
  · rintro rfl
    have hclock := h.clock_eq
    have hlt := h.remainder_lt
    omega

/-- **What is rounded up comes to the next divisor**, and passes the test of the remainder. -/
theorem roundUp_of_rounded (h : Divided clock baud n q r)
    (hr : clock / 100 < r ∧ r < clock / 100 * 3) :
    ∃ x : Quotient, (roundUp clock ⟨q, n, r⟩).Exactly x ∧ x.calculatedDivisor = q + 1 ∧
      x.denominator ≤ clock ∧ x.remainder ≤ q := by
  have hq := h.quotient_le hr.1
  have hmod : (q + 1) % 65536 = q + 1 := Nat.mod_eq_of_lt (by omega)
  have hclock := h.mul_le q (Nat.le_refl q)
  have hn := Nat.mul_le_mul_right q (show 1 ≤ n by have := h.remainder_lt; omega)
  have hpos : 0 < clock / (q + 1) := Nat.div_pos (by have := h.clock_eq; omega) q.succ_pos
  refine ⟨⟨q + 1, clock / (q + 1), clock % (clock / (q + 1))⟩, ?_, rfl, Nat.div_le_self .., ?_⟩
  · have hround : maxRemain clock < r ∧ r < maxRemain clock * 3 := hr
    simp only [roundUp, if_pos hround, Calc.exactly_bind, Calc.exactly_div,
      Calc.exactly_pure, hmod]
    refine ⟨_, ⟨Nat.succ_ne_zero q, rfl⟩, _, ?_, rfl⟩
    rw [Calc.rem, if_neg hpos.ne']
    rfl
  · -- the clock is a multiple of the new denominator and a remainder below the divisor
    have hsplit := Nat.mod_add_div clock (q + 1)
    have hlt := Nat.mod_lt clock q.succ_pos
    generalize clock / (q + 1) = e at hsplit ⊢
    have hrem : clock % e = clock % (q + 1) % e := by
      calc clock % e = (clock % (q + 1) + e * (q + 1)) % e := by rw [Nat.mul_comm e, hsplit]
        _ = clock % (q + 1) % e := Nat.add_mul_mod_self_left ..
    exact hrem.trans_le ((Nat.mod_le ..).trans (Nat.lt_succ_iff.1 hlt))

theorem roundUp_of_not_rounded (hr : ¬(clock / 100 < r ∧ r < clock / 100 * 3)) :
    (roundUp clock ⟨q, n, r⟩).Exactly ⟨q, n, r⟩ := by
  have hround : ¬(maxRemain clock < r ∧ r < maxRemain clock * 3) := hr
  simp only [roundUp, if_neg hround, Calc.exactly_pure]

/-- The test of the remainder, for the quotient itself. -/
theorem checkDivisor_eq (h : Divided clock baud n q r) (hclock : clock < 4294967296) :
    checkDivisor clock baud ⟨q, n, r⟩ =
      if q = 0 ∨ (9600 ≤ baud ∧ clock / 100 ≤ r) then 0xFFFF else q := by
  by_cases hq : q = 0
  · rw [checkDivisor, if_pos (h.clock_lt_iff.2 hq), if_pos (.inl hq)]
  · have hn := Nat.mul_le_mul_left n (Nat.one_le_iff_ne_zero.2 hq)
    have hdiv := h.clock_eq
    have hrem := h.remainder_lt
    rw [checkDivisor, if_neg fun hlt => hq (h.clock_lt_iff.1 hlt)]
    by_cases htest : 9600 ≤ baud ∧ clock / 100 ≤ r
    · have hsum : r + clock / 100 < clock := by omega
      have hmod : (r + clock / 100) % 4294967296 = r + clock / 100 :=
        Nat.mod_eq_of_lt (by omega)
      have hlt : (r + maxRemain clock) % 4294967296 < clock := hmod.trans_lt hsum
      rw [if_pos ⟨htest.1, htest.2, hlt⟩, if_pos (.inr htest)]
    · rw [if_neg fun hall => htest ⟨hall.1, hall.2.1⟩, if_neg (by tauto)]

end Divided

/-- A rate is looked at exactly when neither of the tests of its sign rejects it. -/
theorem considered_iff (desiredBaud : BitVec 32) :
    Considered desiredBaud.toNat ↔
      ¬desiredBaud.toInt ≤ 0 ∧ ¬(desiredBaud * 8).toInt < desiredBaud.toInt := by
  have hmul : (desiredBaud * 8).toNat = octuple desiredBaud.toNat := BitVec.toNat_mul ..
  have hlt := desiredBaud.isLt
  rw [BitVec.toInt_eq_toNat_cond, BitVec.toInt_eq_toNat_cond, hmul, Considered, octuple]
  constructor
  · rintro ⟨hpos, hle, hoct⟩
    split_ifs <;> omega
  · split_ifs <;> omega

theorem appropriateDivisor_of_not_considered {clockRate desiredBaud : BitVec 32}
    (hc : ¬Considered desiredBaud.toNat) :
    (appropriateDivisor clockRate desiredBaud).Exactly 0xFFFF := by
  rw [considered_iff] at hc
  rw [appropriateDivisor]
  split_ifs with hsign hwrap
  · rfl
  · rfl
  · exact absurd ⟨hsign, hwrap⟩ hc

/-- The calculation for a rate that is looked at. -/
theorem appropriateDivisor_of_considered {clockRate desiredBaud : BitVec 32}
    (hc : Considered desiredBaud.toNat) :
    appropriateDivisor clockRate desiredBaud = (do
      let quotient ← Calc.div clockRate.toNat (octuple desiredBaud.toNat)
      let calculatedDivisor ← Calc.field 16 quotient
      let remainder ← Calc.rem clockRate.toNat (octuple desiredBaud.toNat)
      let x ← roundUp clockRate.toNat ⟨calculatedDivisor, octuple desiredBaud.toNat, remainder⟩
      pure (checkDivisor clockRate.toNat desiredBaud.toNat x)) := by
  have hmul : (desiredBaud * 8).toNat = octuple desiredBaud.toNat := BitVec.toNat_mul ..
  obtain ⟨hsign, hwrap⟩ := (considered_iff desiredBaud).1 hc
  rw [appropriateDivisor, if_neg hsign, if_neg hwrap, hmul]

/-- **The divisor of a rate that is looked at**, when the quotient is not truncated. -/
theorem appropriateDivisor_exactly {clockRate desiredBaud : BitVec 32}
    (hc : Considered desiredBaud.toNat)
    (hq : clockRate.toNat / octuple desiredBaud.toNat < 65536) :
    ∃ divisor, (appropriateDivisor clockRate desiredBaud).Exactly divisor ∧
      (Taken clockRate.toNat desiredBaud.toNat → divisor =
        clockRate.toNat / octuple desiredBaud.toNat +
          if RoundedUp clockRate.toNat desiredBaud.toNat then 1 else 0) ∧
      (¬Taken clockRate.toNat desiredBaud.toNat → 0x8000 ≤ divisor) := by
  have h := hc.divided clockRate.toNat
  have hclock := clockRate.isLt
  have hn : octuple desiredBaud.toNat ≠ 0 := by
    have := h.baud_pos
    have := h.baud_le
    omega
  rw [appropriateDivisor_of_considered hc]
  -- the quotient and the remainder come out, whatever follows
  suffices hx : ∃ x divisor, (roundUp clockRate.toNat ⟨clockRate.toNat / octuple desiredBaud.toNat,
      octuple desiredBaud.toNat, clockRate.toNat % octuple desiredBaud.toNat⟩).Exactly x ∧
      checkDivisor clockRate.toNat desiredBaud.toNat x = divisor ∧
      (Taken clockRate.toNat desiredBaud.toNat → divisor =
        clockRate.toNat / octuple desiredBaud.toNat +
          if RoundedUp clockRate.toNat desiredBaud.toNat then 1 else 0) ∧
      (¬Taken clockRate.toNat desiredBaud.toNat → 0x8000 ≤ divisor) by
    obtain ⟨x, divisor, hround, hcheck, hspec⟩ := hx
    refine ⟨divisor, ?_, hspec⟩
    simp only [Calc.exactly_bind, Calc.exactly_div, Calc.exactly_field, Calc.exactly_pure]
    refine ⟨_, ⟨hn, rfl⟩, _, ⟨hq, rfl⟩, _, ?_, x, hround, hcheck⟩
    rw [Calc.rem, if_neg hn]
    rfl
  by_cases hround : RoundedUp clockRate.toNat desiredBaud.toNat
  · obtain ⟨x, hx, hdivisor, hden, hrem⟩ := h.roundUp_of_rounded hround
    have hle := h.quotient_le hround.1
    have hpos := h.quotient_pos hround.2
    have htaken : Taken clockRate.toNat desiredBaud.toNat := ⟨hpos, by omega, .inr (.inr hround)⟩
    refine ⟨x, _, hx, rfl, fun _ => ?_, fun hnot => absurd htaken hnot⟩
    have hsmall := h.small_or_wrapped
    have hmul := h.mul_le 1 hpos
    have hge := h.baud_le
    rw [checkDivisor, if_neg (Nat.not_lt.2 hden), if_pos hround, ← hdivisor]
    refine if_neg fun htest => ?_
    have hle' : clockRate.toNat / 100 ≤ x.remainder := htest.2.1
    have hbaud := htest.1
    omega
  · refine ⟨_, _, Divided.roundUp_of_not_rounded hround, rfl, fun htaken => ?_, fun hnot => ?_⟩
    · obtain ⟨hpos, hlt, hkind⟩ := htaken
      rw [h.checkDivisor_eq hclock, if_neg hround, if_neg]
      · rfl
      · rintro (hzero | ⟨hbaud, hrem⟩)
        · omega
        · rcases hkind with hkind | hkind | hkind
          · omega
          · omega
          · exact hround hkind
    · rw [h.checkDivisor_eq hclock]
      split_ifs with htest
      · decide
      · by_contra hlt
        refine hnot ⟨Nat.pos_of_ne_zero fun hzero => htest (.inl hzero), by omega, ?_⟩
        by_contra hkind
        exact htest (.inr ⟨by omega, by omega⟩)

/-! ## The rate -/

/-- The rate within one percent, without fractions -/
theorem within_iff (clockRate desiredBaud : BitVec 32) (divisor : Nat) :
    Within clockRate desiredBaud divisor ↔
      99 * (8 * desiredBaud.toNat * (divisor + 1)) ≤ 100 * clockRate.toNat ∧
        100 * clockRate.toNat ≤ 101 * (8 * desiredBaud.toNat * (divisor + 1)) := by
  have h : |rate clockRate.toNat (8 * (divisor + 1)) - desiredBaud.toNat| ≤
      (desiredBaud.toNat * (1 : Nat) / 100 : ℚ) ↔
      99 * (desiredBaud.toNat * (8 * (divisor + 1))) ≤ 100 * clockRate.toNat ∧
        100 * clockRate.toNat ≤ 101 * (desiredBaud.toNat * (8 * (divisor + 1))) :=
    abs_rate_sub_le_iff (by omega) (by decide)
  have hmul : desiredBaud.toNat * (8 * (divisor + 1)) =
      8 * desiredBaud.toNat * (divisor + 1) := by
    rw [← Nat.mul_assoc, Nat.mul_comm desiredBaud.toNat 8]
  rw [hmul] at h
  rw [Within, hardwareRate]
  simpa using h

/-- **Some divisor is near enough exactly when one is that is next to the exact quotient.** -/
theorem exists_within_iff (clockRate desiredBaud : BitVec 32) (hpos : 0 < desiredBaud.toNat) :
    (∃ divisor < 0x8000, Within clockRate desiredBaud divisor) ↔
      InReach clockRate.toNat desiredBaud.toNat := by
  have h := @exists_near_iff clockRate.toNat 99 101 100 (8 * desiredBaud.toNat) 0x8000 (by decide)
    (by decide) (by omega)
  have hexists : (∃ divisor < 0x8000, Within clockRate desiredBaud divisor) ↔
      ∃ k, 0 < k ∧ k ≤ 0x8000 ∧ 99 * (8 * desiredBaud.toNat * k) ≤ 100 * clockRate.toNat ∧
        100 * clockRate.toNat ≤ 101 * (8 * desiredBaud.toNat * k) := by
    constructor
    · rintro ⟨divisor, hlt, hwithin⟩
      exact ⟨divisor + 1, divisor.succ_pos, hlt, (within_iff ..).1 hwithin⟩
    · rintro ⟨k, hk, hle, hnear⟩
      obtain ⟨divisor, rfl⟩ : ∃ divisor, k = divisor + 1 := ⟨k - 1, by omega⟩
      exact ⟨divisor, hle, (within_iff ..).2 hnear⟩
  rw [hexists, h, InReach]
  -- what is left is about the quotient and the remainder
  have hdiv := Nat.div_add_mod clockRate.toNat (8 * desiredBaud.toNat)
  have hrem := Nat.mod_lt clockRate.toNat (show 0 < 8 * desiredBaud.toNat by omega)
  generalize clockRate.toNat / (8 * desiredBaud.toNat) = q at hdiv ⊢
  generalize clockRate.toNat % (8 * desiredBaud.toNat) = r at hdiv hrem ⊢
  rw [Nat.mul_succ]
  rcases Nat.le_total q 0x8000 with hq | hq
  · rw [min_eq_left hq]
    omega
  · rw [min_eq_right hq]
    rcases Nat.lt_or_eq_of_le hq with hlt | rfl
    · omega
    · omega

/-! ## The routine -/

/-- What the routine makes of a divisor. -/
theorem serialGetDivisorFromBaud_of_exactly {clockRate desiredBaud : BitVec 32} {divisor : Nat}
    (h : (appropriateDivisor clockRate desiredBaud).Exactly divisor) :
    serialGetDivisorFromBaud clockRate desiredBaud =
      if 0x8000 ≤ divisor then .result (.invalidParameter, divisor) true
      else if clockRate.toNat < 8 * (divisor + 1) then .divByZero
      else .result (.success, divisor) true := by
  rw [serialGetDivisorFromBaud, h.bind_eq]
  by_cases hneg : 0x8000 ≤ divisor
  · rw [if_pos hneg, if_pos hneg]
    rfl
  · rw [if_neg hneg, if_neg hneg]
    have hactual : (Calc.div clockRate.toNat (8 * (divisor + 1))).Exactly
        (clockRate.toNat / (8 * (divisor + 1))) := Calc.exactly_div.2 ⟨by omega, rfl⟩
    rw [hactual.bind_eq]
    by_cases hlt : clockRate.toNat < 8 * (divisor + 1)
    · rw [if_pos hlt, Nat.div_eq_of_lt hlt]
      rfl
    · have hpos : clockRate.toNat / (8 * (divisor + 1)) ≠ 0 :=
        (Nat.div_pos (Nat.not_lt.1 hlt) (by omega)).ne'
      rw [if_neg hlt, (Calc.exactly_div.2 ⟨hpos, rfl⟩).bind_eq]
      rfl

/-- A quotient that does not fit is truncated, unless the routine divides by zero before. -/
theorem not_sound_of_truncated {clockRate desiredBaud : BitVec 32}
    (hc : Considered desiredBaud.toNat)
    (hq : 65536 ≤ clockRate.toNat / octuple desiredBaud.toNat) :
    ¬DivisorSound clockRate desiredBaud := by
  intro hsound
  obtain ⟨v, hv⟩ : ∃ v, (serialGetDivisorFromBaud clockRate desiredBaud).Exactly v := by
    rw [DivisorSound] at hsound
    split at hsound
    · exact hsound.elim
    · exact hsound.elim
    · next he => exact ⟨_, he⟩
    · next he => exact ⟨_, he⟩
  rw [serialGetDivisorFromBaud, Calc.exactly_bind] at hv
  obtain ⟨divisor, hdivisor, -⟩ := hv
  rw [appropriateDivisor_of_considered hc] at hdivisor
  simp only [Calc.exactly_bind, Calc.exactly_div, Calc.exactly_field] at hdivisor
  obtain ⟨quotient, ⟨-, rfl⟩, _, ⟨hfits, -⟩, -⟩ := hdivisor
  exact absurd hfits (Nat.not_lt.2 hq)

/-- The rate of a divisor that is taken is within one percent when the quotient is large. -/
theorem within_taken_iff {clockRate desiredBaud : BitVec 32}
    (hc : Considered desiredBaud.toNat) (htaken : Taken clockRate.toNat desiredBaud.toNat) :
    (¬clockRate.toNat < 8 * (clockRate.toNat / octuple desiredBaud.toNat +
        (if RoundedUp clockRate.toNat desiredBaud.toNat then 1 else 0) + 1) ∧
      Within clockRate desiredBaud (clockRate.toNat / octuple desiredBaud.toNat +
        if RoundedUp clockRate.toNat desiredBaud.toNat then 1 else 0)) ↔
      LargeQuotient clockRate.toNat desiredBaud.toNat := by
  have h := hc.divided clockRate.toNat
  have hclock := clockRate.isLt
  rw [within_iff]
  rcases h.small_or_wrapped with ⟨hsmall, hn⟩ | hwrapped
  · have hn' : octuple desiredBaud.toNat = 8 * desiredBaud.toNat := by omega
    have hle := fun hr => h.quotient_le hr
    obtain ⟨hpos, -, -⟩ := htaken
    have hdiv := h.clock_eq
    have hrem := h.remainder_lt
    have hbaud := hc.1
    simp only [LargeQuotient, RoundedUp, hn'] at *
    -- the products of the quotient with the octuple and with eight, for rates of one and of more
    have hone : desiredBaud.toNat = 1 → 8 * desiredBaud.toNat *
        (clockRate.toNat / (8 * desiredBaud.toNat)) =
          8 * (clockRate.toNat / (8 * desiredBaud.toNat)) := fun h1 => by rw [h1]
    have hmore : 1 < desiredBaud.toNat → 16 * (clockRate.toNat / (8 * desiredBaud.toNat)) ≤
        8 * desiredBaud.toNat * (clockRate.toNat / (8 * desiredBaud.toNat)) :=
      fun h1 => Nat.mul_le_mul_right _ (by omega)
    generalize clockRate.toNat / (8 * desiredBaud.toNat) = q at *
    generalize clockRate.toNat % (8 * desiredBaud.toNat) = r at *
    split_ifs with hround
    · have hq := hle hround.1
      have hmul : 8 * desiredBaud.toNat * (q + 1 + 1) =
          8 * desiredBaud.toNat * q + 2 * (8 * desiredBaud.toNat) := by
        rw [Nat.mul_succ, Nat.mul_succ]
        omega
      rw [hmul]
      omega
    · have hmul : 8 * desiredBaud.toNat * (q + 0 + 1) =
          8 * desiredBaud.toNat * q + 8 * desiredBaud.toNat := Nat.mul_succ ..
      rw [hmul]
      omega
  · -- the clock is too slow for a rate whose octuple wraps
    generalize clockRate.toNat / octuple desiredBaud.toNat +
      (if RoundedUp clockRate.toNat desiredBaud.toNat then 1 else 0) = divisor
    have hoct := h.octuple_eq
    have hge := h.baud_le
    have hlt := h.octuple_lt
    have hmul : 8 * desiredBaud.toNat * 1 ≤ 8 * desiredBaud.toNat * (divisor + 1) :=
      Nat.mul_le_mul_left _ (by omega)
    have hseven : 4294967296 ≤ 7 * desiredBaud.toNat := by omega
    refine iff_of_false (fun hnear => ?_) fun hlarge => ?_
    · have hlow := hnear.2.1
      clear hoct hge hlt
      omega
    · have hsmall := hlarge.2.1
      omega

/-- A divisor that is taken is the positive number of a `SHORT`. -/
theorem Taken.divisor_lt {clock baud : Nat} (ht : Taken clock baud) (hc : Considered baud) :
    clock / octuple baud + (if RoundedUp clock baud then 1 else 0) < 0x8000 := by
  have hlt := ht.2.1
  split_ifs with hround
  · have hq := (hc.divided clock).quotient_le hround.1
    omega
  · exact hlt

/-- The rate that the hardware makes is below one exactly for a rate of one baud. -/
theorem clock_lt_taken_iff {clock baud : Nat} (hc : Considered baud) (htaken : Taken clock baud) :
    clock < 8 * (clock / octuple baud + (if RoundedUp clock baud then 1 else 0) + 1) ↔
      baud = 1 := by
  have h := hc.divided clock
  have hle := fun hr => h.quotient_le hr
  obtain ⟨hpos, -, -⟩ := htaken
  have hdiv := h.clock_eq
  have hrem := h.remainder_lt
  have hsmall := h.small_or_wrapped
  have hge := h.baud_le
  have hbaud := h.baud_pos
  have hone : baud = 1 → octuple baud * (clock / octuple baud) = 8 * (clock / octuple baud) :=
    fun h1 => by rw [h1]; rfl
  have hmore : 1 < baud → 16 * (clock / octuple baud) ≤ octuple baud * (clock / octuple baud) :=
    fun h1 => Nat.mul_le_mul_right _ (by omega)
  split_ifs with hround
  · have hq := hle hround.1
    have hlow := hround.1
    have hhigh := hround.2
    generalize clock / octuple baud = q at *
    generalize clock % octuple baud = r at *
    omega
  · generalize clock / octuple baud = q at *
    generalize clock % octuple baud = r at *
    omega

/-- **The routine divides by zero exactly for a rate of one baud**, when the quotient is the
positive number of a `SHORT`. -/
theorem value_eq_none_iff (clockRate desiredBaud : BitVec 32) :
    (serialGetDivisorFromBaud clockRate desiredBaud).value = none ↔
      desiredBaud.toNat = 1 ∧ 8 ≤ clockRate.toNat ∧ clockRate.toNat < 262144 := by
  by_cases hc : Considered desiredBaud.toNat
  · by_cases hq : clockRate.toNat / octuple desiredBaud.toNat < 65536
    · obtain ⟨divisor, hdivisor, htaken, hnot⟩ := appropriateDivisor_exactly hc hq
      have hnone : (serialGetDivisorFromBaud clockRate desiredBaud).value = none ↔
          ¬0x8000 ≤ divisor ∧ clockRate.toNat < 8 * (divisor + 1) := by
        rw [serialGetDivisorFromBaud_of_exactly hdivisor]
        split_ifs with hneg hlt
        · exact iff_of_false (fun h => nomatch h) fun h => h.1 hneg
        · exact iff_of_true rfl ⟨hneg, hlt⟩
        · exact iff_of_false (fun h => nomatch h) fun h => hlt h.2
      rw [hnone]
      have hoctuple : desiredBaud.toNat = 1 → octuple desiredBaud.toNat = 8 := fun h1 => by
        rw [h1]
        rfl
      by_cases ht : Taken clockRate.toNat desiredBaud.toNat
      · have hone := clock_lt_taken_iff hc ht
        have hlt := ht.divisor_lt hc
        rw [← htaken ht] at hone hlt
        rw [hone]
        constructor
        · rintro ⟨-, h1⟩
          obtain ⟨hpos, hfits, -⟩ := ht
          rw [hoctuple h1] at hpos hfits
          omega
        · exact fun h => ⟨Nat.not_le.2 hlt, h.1⟩
      · refine iff_of_false (fun h => h.1 (hnot ht)) fun h => ht ?_
        rw [Taken, hoctuple h.1]
        omega
    · -- the quotient is truncated, and nothing is divided by zero
      have h := hc.divided clockRate.toNat
      have hlarge := h.mul_le 65536 (Nat.not_lt.1 hq)
      have hn : octuple desiredBaud.toNat ≠ 0 := Nat.ne_of_gt (h.baud_pos.trans_le h.baud_le)
      refine iff_of_false (fun hnone => ?_) fun h1 => ?_
      · have hround : ¬(maxRemain clockRate.toNat < clockRate.toNat % octuple desiredBaud.toNat ∧
            clockRate.toNat % octuple desiredBaud.toNat < maxRemain clockRate.toNat * 3) :=
          fun hr => hq (by have := h.quotient_le hr.1; omega)
        rw [serialGetDivisorFromBaud, appropriateDivisor_of_considered hc] at hnone
        simp only [Calc.value_bind, Calc.value_div, Calc.value_rem, if_neg hn, Calc.value_field,
          roundUp, if_neg hround, Calc.value_pure, Option.bind_some] at hnone
        generalize checkDivisor clockRate.toNat desiredBaud.toNat _ = divisor at hnone
        by_cases hneg : 0x8000 ≤ divisor
        · rw [if_pos hneg] at hnone
          exact nomatch hnone
        · have hactual : clockRate.toNat / (8 * (divisor + 1)) ≠ 0 :=
            (Nat.div_pos (by have := h.octuple_eq; omega) (by omega)).ne'
          simp [if_neg hneg, hactual] at hnone
      · have hoctuple : octuple desiredBaud.toNat = 8 := by
          rw [h1.1]
          rfl
        omega
  · rw [serialGetDivisorFromBaud_of_exactly (appropriateDivisor_of_not_considered hc)]
    refine iff_of_false (fun h => nomatch h) fun h => hc ?_
    rw [h.1]
    exact ⟨by decide, by decide, by decide⟩

/-- **Exactly when the divisor is right.** -/
theorem divisorSound_iff (clockRate desiredBaud : BitVec 32) :
    DivisorSound clockRate desiredBaud ↔ Suits clockRate.toNat desiredBaud.toNat := by
  -- a failure is right when no divisor is near
  have hfails : ∀ divisor, (appropriateDivisor clockRate desiredBaud).Exactly divisor →
      0x8000 ≤ divisor → (DivisorSound clockRate desiredBaud ↔
        (9600 ≤ desiredBaud.toNat → ¬InReach clockRate.toNat desiredBaud.toNat)) := by
    intro divisor hdivisor hneg
    rw [DivisorSound, serialGetDivisorFromBaud_of_exactly hdivisor, if_pos hneg]
    rcases Nat.eq_zero_or_pos desiredBaud.toNat with hzero | hpos
    · refine iff_of_true (fun hnear => ?_) fun hbaud => ?_
      · have hbaud := hnear.1
        omega
      · omega
    · show ¬(_ ∧ _) ↔ _
      rw [exists_within_iff clockRate desiredBaud hpos]
      tauto
  by_cases hc : Considered desiredBaud.toNat
  · by_cases hq : clockRate.toNat / octuple desiredBaud.toNat < 65536
    · obtain ⟨divisor, hdivisor, htaken, hnot⟩ := appropriateDivisor_exactly hc hq
      by_cases ht : Taken clockRate.toNat desiredBaud.toNat
      · have hsuits : Suits clockRate.toNat desiredBaud.toNat ↔
            LargeQuotient clockRate.toNat desiredBaud.toNat := by
          rw [Suits]
          tauto
        have hsmall : ¬0x8000 ≤ divisor := by
          rw [htaken ht]
          exact Nat.not_le.2 (ht.divisor_lt hc)
        rw [hsuits, ← within_taken_iff hc ht, ← htaken ht, DivisorSound,
          serialGetDivisorFromBaud_of_exactly hdivisor, if_neg hsmall]
        split_ifs with hlt
        · exact iff_of_false id fun hall => hall.1 hlt
        · exact ⟨fun hwithin => ⟨hlt, hwithin⟩, And.right⟩
      · rw [hfails divisor hdivisor (hnot ht), Suits]
        tauto
    · refine iff_of_false (not_sound_of_truncated hc (Nat.not_lt.1 hq)) fun hsuits => ?_
      exact hq (hsuits.1 hc)
  · rw [hfails 0xFFFF (appropriateDivisor_of_not_considered hc) (by decide), Suits]
    tauto

end Division

/-! ## Four failures -/

/-- **With a clock of 250 MHz, 3125000 baud become 2840909** (the hardware divides by one more),
one baud more is refused although the divisor 9 is near, and the quotient for 300 baud is truncated;
one baud divides by zero. -/
theorem divisor_wrong :
    (serialGetDivisorFromBaud 250000000 3125000 = .result (.success, 10) true ∧
      ¬DivisorSound 250000000 3125000) ∧
    (serialGetDivisorFromBaud 250000000 3125001 = .result (.invalidParameter, 0xFFFF) true ∧
      ¬DivisorSound 250000000 3125001) ∧
    (serialGetDivisorFromBaud 250000000 300 = .result (.invalidParameter, 38630) false ∧
      ¬DivisorSound 250000000 300) ∧
    serialGetDivisorFromBaud 100000 1 = .divByZero ∧ ¬DivisorSound 100000 1 := by
  have hfast : serialGetDivisorFromBaud 250000000 3125000 = .result (.success, 10) true := by
    decide
  have hrefused : serialGetDivisorFromBaud 250000000 3125001 =
      .result (.invalidParameter, 0xFFFF) true := by decide
  have htruncated : serialGetDivisorFromBaud 250000000 300 =
      .result (.invalidParameter, 38630) false := by decide
  have hzero : serialGetDivisorFromBaud 100000 1 = .divByZero := by decide
  refine ⟨⟨hfast, ?_⟩, ⟨hrefused, ?_⟩, ⟨htruncated, ?_⟩, hzero, ?_⟩
  · rw [DivisorSound, hfast]
    show ¬Within _ _ _
    rw [within_iff]
    decide
  · rw [DivisorSound, hrefused]
    refine not_not.2 ⟨by decide, 9, by decide, ?_⟩
    rw [within_iff]
    decide
  · rw [DivisorSound, htruncated]
    exact not_false
  · rw [DivisorSound, hzero]
    exact not_false

end RpiDrivers.MiniUart.BaudDivisor
