import RpiDrivers.AuxSpi.Fifo
import RpiDrivers.Lib.ClockDivider
import RpiDrivers.Spi0.BusState

/-!
# The clocks of SPI0, AUX SPI and I2C

`spi/bcm2836`, `spi/bcmauxspi` and `i2c/bcm2836` check the connection of a target, and later
program a divider for its speed. All three divide the source clock by the speed, with integer
division.

- `BusTarget`: a connection of one of the three, with the source clock of AUX SPI.
- `BusTarget.setting`: what is programmed for a connection that is accepted.
- `right_iff_divides`: **the setting is right exactly when twice the speed divides the source
  clock**, but for the speeds that SPI0 clamps and those that are too high for AUX SPI.
- `lowest_speed`: I2C accepts 3814 Hz and runs at 25 MHz.
-/

namespace RpiDrivers.BusClock

open RpiDrivers.Lib RpiDrivers.Spi0 RpiDrivers.AuxSpi

/-- The failures of the connection routines. -/
inductive ConnectStatus
  | invalidParameter
  | notSupported
  deriving DecidableEq

/-- `PNP_SERIAL_BUS_DESCRIPTOR` -/
structure SerialBusDescriptor where
  serialBusType : BitVec 8
  generalFlags : BitVec 8
  typeSpecificFlags : BitVec 16

/-- `PNP_SPI_SERIAL_BUS_DESCRIPTOR` -/
structure SpiDescriptor extends SerialBusDescriptor where
  connectionSpeed : UInt32
  dataBitLength : BitVec 8
  phase : BitVec 8
  polarity : BitVec 8
  deviceSelection : BitVec 16

/-- `PNP_I2C_SERIAL_BUS_DESCRIPTOR` -/
structure I2cDescriptor extends SerialBusDescriptor where
  connectionSpeed : UInt32
  address : BitVec 16

def pnpSerialBusTypeI2c : BitVec 8 := 1
def pnpSerialBusTypeSpi : BitVec 8 := 2

/-- `SPI_SLV_BIT`, `PNP_SERIAL_GENERAL_FLAGS_SLV_BIT`, `I2C_SLV_BIT` -/
def slvBit : BitVec 8 := 1

/-! ## SPI0 -/

/-- `PbcTargetGetSettings` and the checks of `OnTargetConnect`. Properties that are too short for
a descriptor are `none`; the settings are those of the descriptor. -/
def onTargetConnectSpi (connection : Option SpiDescriptor) : Except ConnectStatus SpiDescriptor :=
  match connection with
  | none => .error .invalidParameter
  | some d =>
    if d.serialBusType ≠ pnpSerialBusTypeSpi then .error .invalidParameter
    else if d.dataBitLength != 8 || 3 ≤ d.deviceSelection.toNat || d.generalFlags &&& slvBit != 0 ||
        d.typeSpecificFlags &&& spiWiremodeBit != 0 then .error .invalidParameter
    else .ok d

/-- The `CDIV` field: the divisor has to be even. -/
def spi0Divider : ClockDivider where
  width := 16
  Legal cdiv := cdiv % 2 = 0 ∧ 2 ≤ cdiv
  divisor := id

/-! ## AUX SPI -/

/-- `_CHIP_SELECT_LINE` -/
inductive ChipSelectLine
  | ce0
  | ce1
  | ce2
  deriving DecidableEq

/-- `_TARGET_CONTEXT` -/
structure AuxTarget where
  clockFrequency : UInt32
  dataBitLength : BitVec 8
  dataMode : SpiDataMode
  chipSelectLine : ChipSelectLine

/-- `PNP_SPI_WIREMODE_BIT` -/
def pnpSpiWiremodeBit : BitVec 16 := 1
/-- `PNP_SPI_DEVICEPOLARITY_BIT` -/
def pnpSpiDevicepolarityBit : BitVec 16 := 2

def getMaxClock : UInt32 := 20000000

def getMinClock (systemClockFrequency : UInt32) : UInt32 :=
  1 + systemClockFrequency / (2 * (4096 + 1))

def auxDataMode (d : SpiDescriptor) : SpiDataMode :=
  if d.polarity ≠ 0 then if d.phase ≠ 0 then .mode3 else .mode2
  else if d.phase ≠ 0 then .mode1 else .mode0

/-- `AUXSPI_DEVICE::EvtSpbTargetConnect` -/
def evtSpbTargetConnect (systemClockFrequency : UInt32) (connection : Option SpiDescriptor) :
    Except ConnectStatus AuxTarget :=
  match connection with
  | none => .error .invalidParameter
  | some d =>
    if d.serialBusType ≠ pnpSerialBusTypeSpi then .error .invalidParameter
    else if d.generalFlags &&& slvBit ≠ 0 then .error .notSupported
    else if d.typeSpecificFlags &&& pnpSpiWiremodeBit ≠ 0 then .error .notSupported
    else if d.typeSpecificFlags &&& pnpSpiDevicepolarityBit ≠ 0 then .error .notSupported
    else if getMaxClock < d.connectionSpeed || d.connectionSpeed < getMinClock systemClockFrequency
    then .error .notSupported
    else if d.dataBitLength ≠ 8 then .error .notSupported
    else
      let target := AuxTarget.mk d.connectionSpeed d.dataBitLength (auxDataMode d)
      match d.deviceSelection.toNat with
      | 0 => .ok (target .ce0)
      | 1 => .ok (target .ce1)
      | 2 => .ok (target .ce2)
      | _ => .error .invalidParameter

/-- `speed` of `computeControlRegisters`; 0 - 1 wraps -/
def auxSpeed (systemClockFreq clockFrequency : UInt32) : UInt32 :=
  systemClockFreq / (2 * clockFrequency) - 1

/-- The assertion of `computeControlRegisters` about `speed`, which is an `int`. -/
def auxSpeedAsserted (systemClockFreq clockFrequency : UInt32) : Bool :=
  auxSpeed systemClockFreq clockFrequency < 4096

/-- The `Speed` field of `CNTL0` has 12 bits. -/
def auxSpeedField (systemClockFreq clockFrequency : UInt32) : UInt32 :=
  auxSpeed systemClockFreq clockFrequency &&& 0xfff

/-- `spi_clk_freq = system_clock_freq / (2 * (speed + 1))` -/
def auxDivider : ClockDivider where
  width := 12
  Legal _ := True
  divisor speed := 2 * (speed + 1)

/-! ## I2C -/

/-- `BCM_I2C_TARGET_CONTEXT` -/
structure I2cTarget where
  address : BitVec 16
  connectionSpeed : UInt32

/-- `BCM_I2C_CORE_CLOCK` -/
def bcmI2cCoreClock : UInt32 := 250000000
/-- `BCM_I2C_REG_CDIV_MASK` -/
def bcmI2cRegCdivMask : UInt32 := 0x0000FFFE
/-- `BCM_I2C_MIN_CONNECTION_SPEED` -/
def bcmI2cMinConnectionSpeed : UInt32 := bcmI2cCoreClock / bcmI2cRegCdivMask
/-- `BCM_I2C_MAX_CONNECTION_SPEED` -/
def bcmI2cMaxConnectionSpeed : UInt32 := 400000
/-- `I2C_MAX_ADDRESS` -/
def i2cMaxAddress : BitVec 16 := 0x7f
/-- `I2C_SERIAL_BUS_SPECIFIC_FLAG_10BIT_ADDRESS` -/
def i2c10BitAddress : BitVec 16 := 1

/-- `OnTargetConnect` of I2C -/
def onTargetConnectI2c (connection : Option I2cDescriptor) : Except ConnectStatus I2cTarget :=
  match connection with
  | none => .error .invalidParameter
  | some d =>
    if d.serialBusType ≠ pnpSerialBusTypeI2c then .error .invalidParameter
    else if d.generalFlags &&& slvBit ≠ 0 then .error .notSupported
    else if d.typeSpecificFlags &&& i2c10BitAddress ≠ 0 then .error .notSupported
    else if i2cMaxAddress < d.address then .error .invalidParameter
    else if d.connectionSpeed < bcmI2cMinConnectionSpeed ||
        bcmI2cMaxConnectionSpeed < d.connectionSpeed then .error .notSupported
    else .ok ⟨d.address, d.connectionSpeed⟩

/-- What `InitializeTransfer` writes to the `ClockDivider` register. -/
def i2cClockDivider (connectionSpeed : UInt32) : UInt32 :=
  bcmI2cCoreClock / connectionSpeed &&& bcmI2cRegCdivMask

/-- The `CDIV` field. The rising edge delay is half of it less 50, and may not reach 0. -/
def i2cDivider : ClockDivider where
  width := 16
  Legal cdiv := cdiv % 2 = 0 ∧ 50 < cdiv / 2
  divisor := id

/-! ## The settings -/

/-- What is programmed for a target. -/
structure Setting where
  divider : ClockDivider
  source : UInt32
  requested : UInt32
  field : UInt32

/-- The property: the field fits and is legal, and the bus clock is the fastest that is not faster
than requested, or one that is a step slower. -/
def Setting.Right (s : Setting) : Prop :=
  s.divider.Right s.source.toNat s.requested.toNat s.field.toNat

/-- A connection, and the state in which the divider is programmed. -/
inductive BusTarget
  | spi0 (bus : Bus) (connection : Option SpiDescriptor)
  | auxSpi (systemClockFrequency : UInt32) (connection : Option SpiDescriptor)
  | i2c (connection : Option I2cDescriptor)

namespace BusTarget

/-- What is programmed for a connection that is accepted. -/
def setting : BusTarget → Option Setting
  | spi0 bus connection =>
    (onTargetConnectSpi connection).toOption.map fun p =>
      ⟨spi0Divider, bcmApbClk, p.connectionSpeed, (bus.controllerConfigClock p.connectionSpeed).clk⟩
  | auxSpi systemClockFrequency connection =>
    (evtSpbTargetConnect systemClockFrequency connection).toOption.map fun p =>
      ⟨auxDivider, systemClockFrequency, p.clockFrequency,
        auxSpeedField systemClockFrequency p.clockFrequency⟩
  | i2c connection =>
    (onTargetConnectI2c connection).toOption.map fun p =>
      ⟨i2cDivider, bcmI2cCoreClock, p.connectionSpeed, i2cClockDivider p.connectionSpeed⟩

/-- The requested speed needs no rounding. SPI0 clamps the speeds from half the source clock on,
and those that its largest divisor gives; AUX SPI needs a clock that it can divide. -/
def Divides : BusTarget → Nat → Prop
  | spi0 .., requested => 125000000 ≤ requested ∨ 3814 < requested ∧ 2 * requested ∣ 250000000
  | auxSpi systemClockFrequency _, requested =>
    systemClockFrequency ≠ 0 ∧ 2 * requested ∣ systemClockFrequency.toNat
  | i2c _, requested => 2 * requested ∣ 250000000

end BusTarget

/-! ## What is programmed -/

/-- A mask that leaves out the lowest bit rounds down to an even number. -/
theorem and_evenMask (n k : Nat) : n &&& (2 ^ k - 2) = n % 2 ^ k / 2 * 2 := by
  refine Nat.eq_of_testBit_eq fun i => ?_
  cases i with
  | zero =>
    have hmask : (2 ^ k - 2) % 2 = 0 := by
      cases k with
      | zero => rfl
      | succ k => omega
    simp [Nat.testBit_zero, hmask]
  | succ i =>
    have hmask : (2 ^ k - 2) / 2 = 2 ^ (k - 1) - 1 := by
      cases k with
      | zero => rfl
      | succ k =>
        rw [Nat.add_sub_cancel]
        omega
    rw [Nat.testBit_and, Nat.testBit_succ (2 ^ k - 2), hmask, Nat.testBit_two_pow_sub_one,
      Nat.testBit_succ (_ * 2), Nat.mul_div_cancel _ (by decide), ← Nat.testBit_succ,
      Nat.testBit_mod_two_pow, Bool.and_comm]
    congr 1
    exact decide_eq_decide.2 (by omega)

/-- The even divisor that is next below the quotient. -/
theorem half_quotient (n v : Nat) : n / v / 2 * 2 = 2 * (n / (2 * v)) := by
  rw [Nat.div_div_eq_div_mul, Nat.mul_comm v, Nat.mul_comm]

section Spi0

variable (bus : Bus) {v : UInt32}

theorem clk_low (h : v.toNat ≤ 3814) : (bus.controllerConfigClock v).clk.toNat = 0xfffe := by
  have hv : v ≤ bcmSpiClkMinHz := h
  rw [Bus.controllerConfigClock, if_pos hv]
  rfl

theorem clk_high (h : 125000000 ≤ v.toNat) : (bus.controllerConfigClock v).clk.toNat = 2 := by
  have hlow : ¬ v ≤ bcmSpiClkMinHz := fun hv => by
    have : v.toNat ≤ 3814 := hv
    omega
  have hv : bcmSpiClkMaxHz ≤ v := h
  rw [Bus.controllerConfigClock, if_neg hlow, if_pos hv]
  rfl

theorem clk_between (hmin : 3814 < v.toNat) (hmax : v.toNat < 125000000) :
    (bus.controllerConfigClock v).clk.toNat = 2 * (250000000 / (2 * v.toNat)) := by
  have hlow : ¬ v ≤ bcmSpiClkMinHz := Nat.not_le.2 hmin
  have hhigh : ¬ bcmSpiClkMaxHz ≤ v := Nat.not_le.2 hmax
  have hquot : 250000000 / v.toNat ≤ 250000000 / 3815 := Nat.div_le_div_left hmin (by decide)
  rw [Bus.controllerConfigClock, if_neg hlow, if_neg hhigh]
  show ((250000000 / v.toNat) &&& (2 ^ 32 - 2)) &&& (2 ^ 16 - 1) = _
  rw [Nat.and_two_pow_sub_one_eq_mod, and_evenMask, Nat.mod_eq_of_lt (a := 250000000 / v.toNat)
    (by omega), Nat.mod_eq_of_lt (by omega), half_quotient]

theorem legal_spi0Divider : ∀ f, spi0Divider.Legal f → 0 < spi0Divider.divisor f :=
  fun f h => by
    have : 2 ≤ f := h.2
    show 0 < f
    omega

theorem right_spi0_iff :
    spi0Divider.Right 250000000 v.toNat (bus.controllerConfigClock v).clk.toNat ↔
      125000000 ≤ v.toNat ∨ 3814 < v.toNat ∧ 2 * v.toNat ∣ 250000000 := by
  rcases Nat.lt_or_ge 3814 v.toNat with hmin | hmin
  · rcases Nat.lt_or_ge v.toNat 125000000 with hmax | hmax
    · have hclk := clk_between bus hmin hmax
      have hpos : 0 < 250000000 / (2 * v.toNat) := Nat.div_pos (by omega) (by omega)
      have hle : 250000000 / (2 * v.toNat) ≤ 250000000 / (2 * 3815) :=
        Nat.div_le_div_left (by omega) (by decide)
      generalize (bus.controllerConfigClock v).clk.toNat = cdiv at hclk ⊢
      have hfits : cdiv < 2 ^ 16 := by omega
      have hlegal : cdiv % 2 = 0 ∧ 2 ≤ cdiv := by omega
      rw [ClockDivider.right_iff hfits hlegal legal_spi0Divider hpos hclk,
        or_iff_right (Nat.not_le.2 hmax), and_iff_right hmin]
    · -- the smallest divisor: there is no faster clock
      refine iff_of_true ?_ (.inl hmax)
      rw [clk_high bus hmax]
      refine ⟨by decide, ⟨rfl, le_refl 2⟩, ?_, fun f _ hf hlt => ?_⟩
      · exact (rate_le_iff (by decide)).2 (by show 250000000 ≤ v.toNat * 2; omega)
      · exact absurd hlt (Nat.not_lt.2 hf.2)
  · -- the largest divisor is still too fast
    refine iff_of_false (fun h => ?_) (by omega)
    have hfast := h.notFaster
    rw [clk_low bus hmin] at hfast
    have : 250000000 ≤ v.toNat * 0xfffe := (rate_le_iff (by decide)).1 hfast
    omega

end Spi0

section AuxSpi

variable {systemClockFrequency v : UInt32}

/-- The range of the speeds that are accepted. -/
theorem range_of_evtSpbTargetConnect {connection : Option SpiDescriptor} {p : AuxTarget}
    (h : evtSpbTargetConnect systemClockFrequency connection = .ok p) :
    p.clockFrequency.toNat ≤ 20000000 ∧
      1 + systemClockFrequency.toNat / 8194 ≤ p.clockFrequency.toNat := by
  cases connection with
  | none => cases h
  | some d =>
    rw [evtSpbTargetConnect] at h
    split_ifs at h with htype hslave hwire hpolarity hspeed hlength
    have hrange : ¬ (getMaxClock < d.connectionSpeed ∨
        d.connectionSpeed < getMinClock systemClockFrequency) := by simpa using hspeed
    have hmin : (getMinClock systemClockFrequency).toNat =
        1 + systemClockFrequency.toNat / 8194 := by
      rw [getMinClock, UInt32.toNat_add, UInt32.toNat_div]
      have := systemClockFrequency.toNat_lt
      show (1 + systemClockFrequency.toNat / 8194) % 2 ^ 32 = _
      omega
    have hspeed : d.connectionSpeed.toNat ≤ 20000000 ∧
        1 + systemClockFrequency.toNat / 8194 ≤ d.connectionSpeed.toNat :=
      ⟨Nat.not_lt.1 fun hlt => hrange (.inl hlt),
        Nat.not_lt.1 fun hlt => hrange (.inr (UInt32.lt_iff_toNat_lt.2 (hmin ▸ hlt)))⟩
    dsimp only at h
    split at h <;> cases h <;> exact hspeed

/-- An accepted speed that is not too high gives a field of 12 bits, whose divisor is the even
number next below the quotient. -/
theorem auxSpeedField_fits (hmax : v.toNat ≤ 20000000)
    (hmin : 1 + systemClockFrequency.toNat / 8194 ≤ v.toNat)
    (hclock : 2 * v.toNat ≤ systemClockFrequency.toNat) :
    auxSpeedAsserted systemClockFrequency v = true ∧
      (auxSpeedField systemClockFrequency v).toNat =
        systemClockFrequency.toNat / (2 * v.toNat) - 1 := by
  have hdouble : (2 * v).toNat = 2 * v.toNat := by
    rw [UInt32.toNat_mul]
    show 2 * v.toNat % 2 ^ 32 = _
    omega
  have hpos : 0 < systemClockFrequency.toNat / (2 * v.toNat) := Nat.div_pos hclock (by omega)
  have hlt : systemClockFrequency.toNat / (2 * v.toNat) < 4097 := by
    rw [Nat.div_lt_iff_lt_mul (by omega)]
    omega
  have hspeed : (auxSpeed systemClockFrequency v).toNat =
      systemClockFrequency.toNat / (2 * v.toNat) - 1 := by
    rw [auxSpeed, UInt32.toNat_sub_of_le, UInt32.toNat_div, hdouble]
    · rfl
    · rw [UInt32.le_iff_toNat_le, UInt32.toNat_div, hdouble]
      exact hpos
  refine ⟨decide_eq_true (UInt32.lt_iff_toNat_lt.2 ?_), ?_⟩
  · rw [hspeed]
    show _ < 4096
    omega
  · rw [auxSpeedField, UInt32.toNat_and, hspeed]
    show _ &&& (2 ^ 12 - 1) = _
    rw [Nat.and_two_pow_sub_one_eq_mod]
    omega

theorem right_auxSpi_iff (hmax : v.toNat ≤ 20000000)
    (hmin : 1 + systemClockFrequency.toNat / 8194 ≤ v.toNat) :
    auxDivider.Right systemClockFrequency.toNat v.toNat
        (auxSpeedField systemClockFrequency v).toNat ↔
      systemClockFrequency ≠ 0 ∧ 2 * v.toNat ∣ systemClockFrequency.toNat := by
  by_cases hclock : 2 * v.toNat ≤ systemClockFrequency.toNat
  · have hne : systemClockFrequency ≠ 0 := by
      rintro rfl
      exact absurd hclock (by show ¬ 2 * v.toNat ≤ 0; omega)
    have hfield := (auxSpeedField_fits hmax hmin hclock).2
    have hpos : 0 < systemClockFrequency.toNat / (2 * v.toNat) := Nat.div_pos hclock (by omega)
    have hlt : systemClockFrequency.toNat / (2 * v.toNat) < 4097 := by
      rw [Nat.div_lt_iff_lt_mul (by omega)]
      omega
    generalize (auxSpeedField systemClockFrequency v).toNat = speed at hfield ⊢
    have hfits : speed < 2 ^ 12 := by omega
    have hdivisor : auxDivider.divisor speed =
        2 * (systemClockFrequency.toNat / (2 * v.toNat)) := by
      show 2 * (speed + 1) = _
      omega
    rw [ClockDivider.right_iff hfits trivial (fun f _ => Nat.succ_pos _) hpos hdivisor,
      and_iff_right hne]
  · -- the field has wrapped: the fastest clock is slower than requested, and this one is slower yet
    refine iff_of_false (fun h => ?_) fun ⟨hne, hdvd⟩ => hclock (Nat.le_of_dvd ?_ hdvd)
    · have hdouble : (2 * v).toNat = 2 * v.toNat := by
        rw [UInt32.toNat_mul]
        show 2 * v.toNat % 2 ^ 32 = _
        omega
      have hzero : systemClockFrequency / (2 * v) = 0 := by
        rw [← UInt32.toNat_inj, UInt32.toNat_div, hdouble]
        exact Nat.div_eq_of_lt (Nat.not_le.1 hclock)
      have hfield : auxSpeedField systemClockFrequency v = 4095 := by
        rw [auxSpeedField, auxSpeed, hzero]
        rfl
      have hnear := h.near 0 (by decide) trivial (by rw [hfield]; decide)
      have : v.toNat * 2 ≤ systemClockFrequency.toNat := (le_rate_iff (by decide)).1 hnear
      omega
    · exact Nat.pos_of_ne_zero fun hzero => hne (UInt32.toNat_inj.1 hzero)

end AuxSpi

section I2c

variable {v : UInt32}

/-- The range of the speeds that are accepted. -/
theorem range_of_onTargetConnectI2c {connection : Option I2cDescriptor} {p : I2cTarget}
    (h : onTargetConnectI2c connection = .ok p) :
    3814 ≤ p.connectionSpeed.toNat ∧ p.connectionSpeed.toNat ≤ 400000 := by
  cases connection with
  | none => cases h
  | some d =>
    rw [onTargetConnectI2c] at h
    split_ifs at h with htype hslave hwide haddress hspeed
    have hrange : ¬ (d.connectionSpeed < bcmI2cMinConnectionSpeed ∨
        bcmI2cMaxConnectionSpeed < d.connectionSpeed) := by simpa using hspeed
    cases h
    exact ⟨Nat.not_lt.1 fun hlt => hrange (.inl hlt), Nat.not_lt.1 fun hlt => hrange (.inr hlt)⟩

theorem i2cClockDivider_above (hmin : 3814 < v.toNat) :
    (i2cClockDivider v).toNat = 2 * (250000000 / (2 * v.toNat)) := by
  have hquot : 250000000 / v.toNat ≤ 250000000 / 3815 := Nat.div_le_div_left hmin (by decide)
  show (250000000 / v.toNat) &&& (2 ^ 16 - 2) = _
  rw [and_evenMask, Nat.mod_eq_of_lt (by omega), half_quotient]

theorem right_i2c_iff (hmin : 3814 ≤ v.toNat) (hmax : v.toNat ≤ 400000) :
    i2cDivider.Right 250000000 v.toNat (i2cClockDivider v).toNat ↔
      2 * v.toNat ∣ 250000000 := by
  rcases Nat.lt_or_eq_of_le hmin with hmin | hmin
  · have hclk := i2cClockDivider_above hmin
    have hle : 250000000 / (2 * v.toNat) ≤ 250000000 / (2 * 3815) :=
      Nat.div_le_div_left (by omega) (by decide)
    have hge : 250000000 / (2 * 400000) ≤ 250000000 / (2 * v.toNat) :=
      Nat.div_le_div_left (by omega) (by omega)
    generalize (i2cClockDivider v).toNat = cdiv at hclk ⊢
    have hfits : cdiv < 2 ^ 16 := by omega
    have hlegal : cdiv % 2 = 0 ∧ 50 < cdiv / 2 := by omega
    have hpos : ∀ f, i2cDivider.Legal f → 0 < i2cDivider.divisor f := fun f h => by
      have : 50 < f / 2 := h.2
      show 0 < f
      omega
    exact ClockDivider.right_iff hfits hlegal hpos (by omega) hclk
  · -- the quotient for the lowest speed has 17 bits, and the mask leaves 10
    have hv : v = 3814 := UInt32.toNat_inj.1 hmin.symm
    subst hv
    refine iff_of_false (fun h => ?_) (by decide)
    have : 50 < (i2cClockDivider 3814).toNat / 2 := h.legal.2
    exact absurd this (by decide)

end I2c

/-! ## The main result -/

theorem eq_ok_of_toOption {ε α : Type*} {x : Except ε α} {a : α} (h : x.toOption = some a) :
    x = .ok a := by
  cases x with
  | error e => cases h
  | ok b => exact congrArg Except.ok (Option.some.inj h)

/-- **The setting for a target that is accepted is right exactly when the speed divides.** -/
theorem right_iff_divides (t : BusTarget) (s : Setting) (h : t.setting = some s) :
    s.Right ↔ t.Divides s.requested.toNat := by
  cases t with
  | spi0 bus connection =>
    obtain ⟨p, -, rfl⟩ := Option.map_eq_some_iff.1 h
    exact right_spi0_iff bus
  | auxSpi systemClockFrequency connection =>
    obtain ⟨p, hp, rfl⟩ := Option.map_eq_some_iff.1 h
    have hrange := range_of_evtSpbTargetConnect (eq_ok_of_toOption hp)
    exact right_auxSpi_iff hrange.1 hrange.2
  | i2c connection =>
    obtain ⟨p, hp, rfl⟩ := Option.map_eq_some_iff.1 h
    have hrange := range_of_onTargetConnectI2c (eq_ok_of_toOption hp)
    exact right_i2c_iff hrange.1 hrange.2

/-- 100 kHz on I2C, which divides. -/
theorem right_iff_divides_i2c :
    Setting.Right ⟨i2cDivider, 250000000, 100000, 2500⟩ ↔
      (BusTarget.i2c (some ⟨⟨1, 0, 0⟩, 100000, 0x50⟩)).Divides 100000 :=
  right_iff_divides (.i2c (some ⟨⟨1, 0, 0⟩, 100000, 0x50⟩)) _ rfl

/-- The lowest speed that I2C accepts, 3814 Hz: the quotient 65547 is masked to 10, which gives
25 MHz. -/
theorem lowest_speed :
    ∃ s, (BusTarget.i2c (some ⟨⟨1, 0, 0⟩, 3814, 0x50⟩)).setting = some s ∧ ¬ s.Right := by
  refine ⟨⟨i2cDivider, 250000000, 3814, 10⟩, rfl, fun h => ?_⟩
  have hslow : 250000000 ≤ 3814 * 10 := (rate_le_iff (by decide)).1 h.notFaster
  omega

end RpiDrivers.BusClock
