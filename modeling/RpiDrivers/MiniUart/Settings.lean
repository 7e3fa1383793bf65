import Mathlib.Tactic.ByContra
import Mathlib.Tactic.SplitIfs
import RpiDrivers.MiniUart.BaudDivisor

/-!
# The settings of the mini UART (`SerialEvtIoDeviceControl` in `ioctl.c`)

An application sets the baud rate, the modem control register, the line control, the timeouts and
the special characters with one request each, and reads them back with another. A setting lives in
a register, in the device extension, in the copy for WMI, or in several of these.

- `set`: the requests that set, over the registers behind the divisor latch access bit.
- `get`: the requests that read a setting back.
- `Holds`: the device afterwards, with the setting stored and everything else as it was.
- `RoundTrip`: **a request that sets fails and changes nothing, or it succeeds, the registers hold
  what it encodes, and the setting reads back**.
- `roundTrip_iff`: **exactly when it does**.
-/

namespace RpiDrivers.MiniUart.Settings

open RpiDrivers.Lib
open RpiDrivers.MiniUart (BaudDivisor.serialGetDivisorFromBaud)

/-- The `NTSTATUS` values that occur. -/
inductive Status
  | success
  /-- `STATUS_INVALID_DEVICE_REQUEST` -/
  | invalidDeviceRequest
  /-- `STATUS_CANCELLED` -/
  | cancelled
  /-- `STATUS_INVALID_PARAMETER` -/
  | invalidParameter
  /-- The failure of `WdfRequestRetrieveInputBuffer` or `WdfRequestRetrieveOutputBuffer` -/
  | noBuffer
  deriving DecidableEq

/-! ## Registers -/

/-- The registers of the UART. The divisor latch shares its addresses with two others. -/
structure Registers where
  transmitHolding : BitVec 8
  interruptEnable : BitVec 8
  divisorLsb : BitVec 8
  divisorMsb : BitVec 8
  lineControl : BitVec 8
  modemControl : BitVec 8

/-- The offsets that are accessed. -/
inductive Offset
  /-- `DIVISOR_LATCH_LSB`, 0x40 -/
  | divisorLatchLsb
  /-- `DIVISOR_LATCH_MSB`, 0x44 -/
  | divisorLatchMsb
  /-- `LINE_CONTROL_REGISTER`, 0x4C -/
  | lineControlRegister
  /-- `MODEM_CONTROL_REGISTER`, 0x50 -/
  | modemControlRegister
  deriving DecidableEq

/-- `SERIAL_LCR_DLAB` gives access to the divisor latch. -/
def serialLcrDlab : BitVec 8 := 0x80

/-- `SERIAL_LCR_BREAK` -/
def serialLcrBreak : BitVec 8 := 0x40

namespace Registers

/-- The divisor latch is accessed. -/
def dlab (r : Registers) : Bool := r.lineControl.getLsbD 7

/-- `SerialWriteUChar` -/
def write (r : Registers) (offset : Offset) (value : BitVec 8) : Registers :=
  match offset with
  | .divisorLatchLsb =>
    if r.dlab then { r with divisorLsb := value } else { r with transmitHolding := value }
  | .divisorLatchMsb =>
    if r.dlab then { r with divisorMsb := value } else { r with interruptEnable := value }
  | .lineControlRegister => { r with lineControl := value }
  | .modemControlRegister => { r with modemControl := value }

/-- `SerialReadUChar`, where it reads what was written: the byte that was received is read at the
offset of the divisor latch without the access bit. -/
def read (r : Registers) (received : BitVec 8) (offset : Offset) : BitVec 8 :=
  match offset with
  | .divisorLatchLsb => if r.dlab then r.divisorLsb else received
  | .divisorLatchMsb => if r.dlab then r.divisorMsb else r.interruptEnable
  | .lineControlRegister => r.lineControl
  | .modemControlRegister => r.modemControl

/-- `WRITE_DIVISOR_LATCH` -/
def writeDivisorLatch (r : Registers) (divisor : BitVec 16) : Registers :=
  let lineControl := r.lineControl
  let r := r.write .lineControlRegister (lineControl ||| serialLcrDlab)
  let r := r.write .divisorLatchLsb ((divisor &&& 0xff).setWidth 8)
  let r := r.write .divisorLatchMsb ((divisor &&& 0xff00) >>> 8 |>.setWidth 8)
  r.write .lineControlRegister lineControl

/-- `READ_DIVISOR_LATCH`: the divisor, and the registers afterwards. -/
def readDivisorLatch (r : Registers) (received : BitVec 8) : BitVec 16 × Registers :=
  let lineControl := r.lineControl
  let r := r.write .lineControlRegister (lineControl ||| serialLcrDlab)
  let lsb := r.read received .divisorLatchLsb
  let msb := r.read received .divisorLatchMsb
  (lsb.setWidth 16 ||| msb.setWidth 16 <<< 8, r.write .lineControlRegister lineControl)

end Registers

/-! ## Settings -/

/-- `SERIAL_LINE_CONTROL` -/
structure LineControl where
  stopBits : BitVec 8
  parity : BitVec 8
  wordLength : BitVec 8

/-- `SERIAL_TIMEOUTS` -/
structure Timeouts where
  readIntervalTimeout : BitVec 32
  readTotalTimeoutMultiplier : BitVec 32
  readTotalTimeoutConstant : BitVec 32
  writeTotalTimeoutMultiplier : BitVec 32
  writeTotalTimeoutConstant : BitVec 32

/-- `SERIAL_CHARS` -/
structure Chars where
  eofChar : BitVec 8
  errorChar : BitVec 8
  breakChar : BitVec 8
  eventChar : BitVec 8
  xonChar : BitVec 8
  xoffChar : BitVec 8

/-- The values of `Parity` in the copy for WMI. -/
inductive WmiParity
  | none
  | odd
  | even
  | mark
  | space
  deriving DecidableEq

/-- The values of `StopBits` there. -/
inductive WmiStop
  | stop1
  | stop15
  | stop2
  deriving DecidableEq

/-- `WmiCommData`, as far as the settings go. -/
structure WmiCommData where
  baudRate : BitVec 32
  bitsPerByte : BitVec 32
  parity : WmiParity
  stopBits : WmiStop
  xonCharacter : BitVec 32
  xoffCharacter : BitVec 32

/-- The device extension, with the registers. -/
structure Device where
  registers : Registers
  deviceIsOpened : Bool
  /-- `SERIAL_ERROR_ABORT` in `HandFlow.ControlHandShake` -/
  errorAbort : Bool
  errorWord : BitVec 32
  clockRate : BitVec 32
  currentBaud : BitVec 32
  lineControl : BitVec 8
  validDataMask : BitVec 8
  escapeChar : BitVec 8
  timeouts : Timeouts
  specialChars : Chars
  wmiCommData : WmiCommData

/-- The value of a setting, as the buffer of a request has it. -/
inductive Value
  | baudRate (baudRate : BitVec 32)
  | modemControl (contents : BitVec 32)
  | lineControl (lc : LineControl)
  | timeouts (newTimeouts : Timeouts)
  | chars (newChars : Chars)

/-- The settings. -/
inductive Setting
  | baudRate
  | modemControl
  | lineControl
  | timeouts
  | chars
  deriving DecidableEq

def Value.setting : Value → Setting
  | baudRate _ => .baudRate
  | modemControl _ => .modemControl
  | lineControl _ => .lineControl
  | timeouts _ => .timeouts
  | chars _ => .chars

/-- A request that sets: its input buffer cannot be had, or it is at an address. -/
inductive SetRequest
  | noBuffer (setting : Setting)
  | buffer (address : Nat) (value : Value)

/-! ## The requests that set -/

/-- `SerialSetBaud` -/
def serialSetBaud (s : Device) (appropriate : BitVec 16) : Device :=
  { s with registers := s.registers.writeDivisorLatch appropriate }

/-- `IOCTL_SERIAL_SET_BAUD_RATE`, unless the routine for the divisor divides by zero. -/
def setBaudRate (s : Device) (baudRate : BitVec 32) : Option (Status × Device) :=
  (BaudDivisor.serialGetDivisorFromBaud s.clockRate baudRate).value.map fun
  | (.success, appropriateDivisor) =>
    let s := { s with
      currentBaud := baudRate
      wmiCommData := { s.wmiCommData with baudRate := baudRate } }
    (.success, serialSetBaud s (BitVec.ofNat 16 appropriateDivisor))
  | (.invalidParameter, _) => (.invalidParameter, s)

/-- `SerialSetMCRContents`: what is written is the pointer to the data, not the data. -/
def serialSetMCRContents (s : Device) (result : Nat) : Device :=
  { s with registers := s.registers.write .modemControlRegister (BitVec.ofNat 8 result) }

/-- `lData` and `Mask` -/
def wordLengthBits (wordLength : BitVec 8) : Option (BitVec 8 × BitVec 8) :=
  if wordLength = 7 then some (0x02, 0x7f)
  else if wordLength = 8 then some (0x03, 0xff)
  else none

/-- `lParity`, and the value for WMI. -/
def parityBits (parity : BitVec 8) : Option (BitVec 8 × WmiParity) :=
  if parity = 0 then some (0x00, .none)
  else if parity = 2 then some (0x18, .even)
  else if parity = 1 then some (0x08, .odd)
  else if parity = 4 then some (0x38, .space)
  else if parity = 3 then some (0x28, .mark)
  else none

/-- `lStop`, and the value for WMI. -/
def stopBits (stopBits : BitVec 8) : Option (BitVec 8 × WmiStop) :=
  if stopBits = 0 then some (0x00, .stop1) else none

/-- `SerialSetLineControl` -/
def serialSetLineControl (s : Device) : Device :=
  { s with registers := s.registers.write .lineControlRegister s.lineControl }

/-- `WmiCommData.BitsPerByte` is written as soon as the word length is accepted, -/
def Device.setBitsPerByte (s : Device) (wordLength : BitVec 8) : Device :=
  { s with wmiCommData := { s.wmiCommData with bitsPerByte := wordLength.setWidth 32 } }

/-- `WmiCommData.Parity` as soon as the parity is, -/
def Device.setParity (s : Device) (parity : WmiParity) : Device :=
  { s with wmiCommData := { s.wmiCommData with parity := parity } }

/-- and the rest when the stop bits are; the bit for a break is kept. -/
def Device.storeLineControl (s : Device) (bits mask : BitVec 8) (stop : WmiStop) : Device :=
  { s with
    wmiCommData := { s.wmiCommData with stopBits := stop }
    lineControl := (s.lineControl &&& serialLcrBreak) ||| bits
    validDataMask := mask }

/-- `IOCTL_SERIAL_SET_LINE_CONTROL`: the copy for WMI is written between the checks. -/
def setLineControl (s : Device) (lc : LineControl) : Status × Device :=
  match wordLengthBits lc.wordLength with
  | none => (.invalidParameter, s)
  | some (lData, mask) =>
    let s := s.setBitsPerByte lc.wordLength
    match parityBits lc.parity with
    | none => (.invalidParameter, s)
    | some (lParity, wmiParity) =>
      let s := s.setParity wmiParity
      match stopBits lc.stopBits with
      | none => (.invalidParameter, s)
      | some (lStop, wmiStop) =>
        (.success, serialSetLineControl (s.storeLineControl (lData ||| lParity ||| lStop) mask
          wmiStop))

/-- `MAXULONG` -/
def maxUlong : BitVec 32 := 0xffffffff

/-- `IOCTL_SERIAL_SET_TIMEOUTS` -/
def setTimeouts (s : Device) (newTimeouts : Timeouts) : Status × Device :=
  if newTimeouts.readIntervalTimeout = maxUlong ∧
      newTimeouts.readTotalTimeoutMultiplier = maxUlong ∧
      newTimeouts.readTotalTimeoutConstant = maxUlong then (.invalidParameter, s)
  else (.success, { s with timeouts := newTimeouts })

/-- `IOCTL_SERIAL_SET_CHARS`, with `SerialSetChars` -/
def setChars (s : Device) (newChars : Chars) : Status × Device :=
  if s.escapeChar ≠ 0 ∧
      (s.escapeChar = newChars.xonChar ∨ s.escapeChar = newChars.xoffChar) then
    (.invalidParameter, s)
  else
    (.success, { s with
      wmiCommData := { s.wmiCommData with
        xonCharacter := newChars.xonChar.setWidth 32
        xoffCharacter := newChars.xoffChar.setWidth 32 }
      specialChars := newChars })

/-- `SerialCompleteIfError`, for a request that is not for the status. -/
def serialCompleteIfError (s : Device) : Bool := s.errorAbort && s.errorWord != 0

/-- What lets a request in, or the status that it is completed with. -/
def entryStatus (s : Device) : Status :=
  if !s.deviceIsOpened then .invalidDeviceRequest
  else if serialCompleteIfError s then .cancelled
  else .success

/-- `SerialEvtIoDeviceControl` for a request that sets: the status and the device, unless there is
a division by zero. -/
def set (s : Device) (r : SetRequest) : Option (Status × Device) :=
  if entryStatus s = .success then
    match r with
    | .noBuffer _ => some (.noBuffer, s)
    | .buffer _ (.baudRate baudRate) => setBaudRate s baudRate
    | .buffer address (.modemControl _) => some (.success, serialSetMCRContents s address)
    | .buffer _ (.lineControl lc) => some (setLineControl s lc)
    | .buffer _ (.timeouts newTimeouts) => some (setTimeouts s newTimeouts)
    | .buffer _ (.chars newChars) => some (setChars s newChars)
  else some (entryStatus s, s)

/-! ## The requests that read a setting back -/

/-- `IOCTL_SERIAL_GET_LINE_CONTROL`; the buffer is zeroed first. -/
def getLineControl (s : Device) : LineControl where
  wordLength :=
    if s.lineControl &&& 0x03 = 0x02 then 7 else if s.lineControl &&& 0x03 = 0x03 then 8 else 0
  parity :=
    if s.lineControl &&& 0x38 = 0x00 then 0
    else if s.lineControl &&& 0x38 = 0x08 then 1
    else if s.lineControl &&& 0x38 = 0x18 then 2
    else if s.lineControl &&& 0x38 = 0x28 then 3
    else if s.lineControl &&& 0x38 = 0x38 then 4
    else 0
  stopBits := 0

/-- `SerialEvtIoDeviceControl` for a request that reads a setting into a buffer that is large
enough. -/
def get (s : Device) (setting : Setting) : Status × Option Value :=
  if entryStatus s = .success then
    match setting with
    | .baudRate => (.success, some (.baudRate s.currentBaud))
    | .modemControl => (.success, some (.modemControl (s.registers.modemControl.setWidth 32)))
    | .lineControl => (.success, some (.lineControl (getLineControl s)))
    | .timeouts => (.success, some (.timeouts s.timeouts))
    | .chars => (.success, some (.chars s.specialChars))
  else (entryStatus s, none)

/-! ## The property -/

/-- The device after a request that succeeded: **the registers, the extension and the copy for WMI
hold what the value encodes**, and everything else is as it was. -/
def Holds (s s' : Device) : Value → Prop
  | .baudRate baudRate => ∃ divisor < 0x8000,
      (BaudDivisor.serialGetDivisorFromBaud s.clockRate baudRate).value =
        some (.success, divisor) ∧
      (∀ received, (s'.registers.readDivisorLatch received).1.toNat = divisor) ∧
      s' = { s with
        registers := { s.registers with
          divisorLsb := s'.registers.divisorLsb, divisorMsb := s'.registers.divisorMsb }
        currentBaud := baudRate
        wmiCommData := { s.wmiCommData with baudRate := baudRate } }
  | .modemControl contents =>
      s'.registers.modemControl.toNat = contents.toNat ∧
      s' = { s with
        registers := { s.registers with modemControl := s'.registers.modemControl } }
  | .lineControl lc =>
      getLineControl s' = lc ∧
      s'.lineControl &&& serialLcrBreak = s.lineControl &&& serialLcrBreak ∧
      s'.validDataMask.toNat = 2 ^ lc.wordLength.toNat - 1 ∧
      (parityBits lc.parity).map Prod.snd = some s'.wmiCommData.parity ∧
      s' = { s with
        registers := { s.registers with lineControl := s'.lineControl }
        lineControl := s'.lineControl
        validDataMask := s'.validDataMask
        wmiCommData := { s.wmiCommData with
          bitsPerByte := lc.wordLength.setWidth 32
          parity := s'.wmiCommData.parity
          stopBits := .stop1 } }
  | .timeouts newTimeouts => s' = { s with timeouts := newTimeouts }
  | .chars newChars =>
      s' = { s with
        specialChars := newChars
        wmiCommData := { s.wmiCommData with
          xonCharacter := newChars.xonChar.setWidth 32
          xoffCharacter := newChars.xoffChar.setWidth 32 } }

/-- What a request may come to: the setting is stored and reads back, or nothing changes. -/
def Outcome (s : Device) (r : SetRequest) : Option (Status × Device) → Prop
  | none => False
  | some (.success, s') => ∃ address v, r = .buffer address v ∧ Holds s s' v ∧
      get s' v.setting = (.success, some v)
  | some (_, s') => s' = s

/-- **A request that sets fails and changes nothing, or the setting is stored and reads back.** -/
def RoundTrip (s : Device) (r : SetRequest) : Prop := Outcome s r (set s r)

/-! ## The condition -/

/-- When a line control that is refused is not seen by WMI: the word length or the parity that comes
before what is refused is there already. -/
def LineSuits (s : Device) (lc : LineControl) : Prop :=
  (wordLengthBits lc.wordLength).isSome →
    match parityBits lc.parity with
    | none => s.wmiCommData.bitsPerByte = lc.wordLength.setWidth 32
    | some (_, wmiParity) => (stopBits lc.stopBits).isSome ∨
        s.wmiCommData.bitsPerByte = lc.wordLength.setWidth 32 ∧ s.wmiCommData.parity = wmiParity

/-- When a request that is let in is right. -/
def Suits (s : Device) : SetRequest → Prop
  | .noBuffer _ => True
  | .buffer _ (.baudRate baudRate) =>
      ¬(baudRate.toNat = 1 ∧ 8 ≤ s.clockRate.toNat ∧ s.clockRate.toNat < 262144)
  | .buffer address (.modemControl contents) => contents.toNat = address % 256
  | .buffer _ (.lineControl lc) => LineSuits s lc
  | .buffer _ (.timeouts _) => True
  | .buffer _ (.chars _) => True

/-! ## The divisor latch -/

namespace Registers

/-- The access bit is set while the latch is accessed, and the line control is what it was. -/
theorem writeDivisorLatch_eq (r : Registers) (divisor : BitVec 16) :
    r.writeDivisorLatch divisor = { r with
      divisorLsb := (divisor &&& 0xff).setWidth 8
      divisorMsb := (divisor &&& 0xff00) >>> 8 |>.setWidth 8 } := by
  simp [writeDivisorLatch, write, dlab, serialLcrDlab]

theorem readDivisorLatch_eq (r : Registers) (received : BitVec 8) :
    r.readDivisorLatch received =
      (r.divisorLsb.setWidth 16 ||| r.divisorMsb.setWidth 16 <<< 8, r) := by
  simp [readDivisorLatch, read, write, dlab, serialLcrDlab]

/-- The bits of the two masks. -/
theorem getElem_masks : ∀ i, (hi : i < 16) →
    (255#16)[i] = decide (i < 8) ∧ (65280#16)[i] = decide (8 ≤ i) := by
  decide

/-- **The latch reads back.** -/
theorem readDivisorLatch_write (r : Registers) (divisor : BitVec 16) (received : BitVec 8) :
    (r.writeDivisorLatch divisor).readDivisorLatch received =
      (divisor, r.writeDivisorLatch divisor) := by
  rw [readDivisorLatch_eq, writeDivisorLatch_eq]
  congr 1
  apply BitVec.eq_of_getLsbD_eq
  intro i hi
  rcases Nat.lt_or_ge i 8 with h | h
  · simp [(getElem_masks i hi).1, h, hi]
  · obtain ⟨j, rfl⟩ : ∃ j, i = 8 + j := ⟨i - 8, by omega⟩
    have hj : j < 8 := by omega
    simp [(getElem_masks (8 + j) hi).2, hj, hi]

end Registers

/-! ## Each setting -/

section Settings

variable {s : Device}

/-- The divisor of a rate that is accepted is the positive number of a `SHORT`. -/
theorem divisor_lt {clockRate baudRate : BitVec 32} {divisor : Nat}
    (h : (BaudDivisor.serialGetDivisorFromBaud clockRate baudRate).value =
      some (.success, divisor)) : divisor < 0x8000 := by
  rw [BaudDivisor.serialGetDivisorFromBaud, Calc.value_bind, Option.bind_eq_some_iff] at h
  obtain ⟨d, -, h⟩ := h
  by_cases hneg : 0x8000 ≤ d
  · rw [if_pos hneg] at h
    cases h
  · simp only [if_neg hneg, Calc.value_bind, Calc.value_div, Option.bind_eq_some_iff] at h
    obtain ⟨_, -, _, -, h⟩ := h
    cases h
    exact Nat.not_le.1 hneg

/-- **The baud rate reads back, unless the routine for the divisor divides by zero.** -/
theorem baudRate_iff (hentry : entryStatus s = .success) (address : Nat) (baudRate : BitVec 32) :
    RoundTrip s (.buffer address (.baudRate baudRate)) ↔
      ¬(baudRate.toNat = 1 ∧ 8 ≤ s.clockRate.toNat ∧ s.clockRate.toNat < 262144) := by
  rw [← BaudDivisor.value_eq_none_iff, RoundTrip, set, if_pos hentry]
  show Outcome s _ (setBaudRate s baudRate) ↔ _
  rw [setBaudRate]
  cases hvalue : (BaudDivisor.serialGetDivisorFromBaud s.clockRate baudRate).value with
  | none => exact iff_of_false id fun h => h rfl
  | some v =>
    refine iff_of_true ?_ fun h => nomatch h
    obtain ⟨status, divisor⟩ := v
    cases status with
    | invalidParameter => exact rfl
    | success =>
      have hlt := divisor_lt hvalue
      refine ⟨address, _, rfl, ⟨divisor, hlt, hvalue, fun received => ?_, ?_⟩, ?_⟩
      · rw [serialSetBaud, Registers.readDivisorLatch_write, BitVec.toNat_ofNat]
        exact Nat.mod_eq_of_lt (by omega)
      · rw [serialSetBaud, Registers.writeDivisorLatch_eq]
      · exact if_pos hentry

/-- **The modem control register reads back exactly when the value is the low byte of its
address.** -/
theorem modemControl_iff (hentry : entryStatus s = .success) (address : Nat)
    (contents : BitVec 32) :
    RoundTrip s (.buffer address (.modemControl contents)) ↔ contents.toNat = address % 256 := by
  rw [RoundTrip, set, if_pos hentry]
  have hentry' : entryStatus (serialSetMCRContents s address) = .success := hentry
  have hregister : (serialSetMCRContents s address).registers.modemControl.toNat = address % 256 :=
    BitVec.toNat_ofNat ..
  constructor
  · rintro ⟨address', v, hr, hholds, -⟩
    cases hr
    exact hholds.1.symm.trans hregister
  · intro hcontents
    refine ⟨address, _, rfl, ⟨hregister.trans hcontents.symm, rfl⟩, ?_⟩
    have hread :
        (serialSetMCRContents s address).registers.modemControl.setWidth 32 = contents := by
      apply BitVec.eq_of_toNat_eq
      rw [BitVec.toNat_setWidth, hregister, hcontents]
      exact Nat.mod_eq_of_lt (by omega)
    show get _ .modemControl = _
    rw [get, if_pos hentry']
    show (_, some (Value.modemControl _)) = _
    rw [hread]

theorem timeouts_roundTrip (hentry : entryStatus s = .success) (address : Nat)
    (newTimeouts : Timeouts) :
    RoundTrip s (.buffer address (.timeouts newTimeouts)) := by
  rw [RoundTrip, set, if_pos hentry]
  show Outcome s _ (some (setTimeouts s newTimeouts))
  rw [setTimeouts]
  split_ifs with hmax
  · exact rfl
  · exact ⟨address, _, rfl, rfl, if_pos hentry⟩

theorem chars_roundTrip (hentry : entryStatus s = .success) (address : Nat) (newChars : Chars) :
    RoundTrip s (.buffer address (.chars newChars)) := by
  rw [RoundTrip, set, if_pos hentry]
  show Outcome s _ (some (setChars s newChars))
  rw [setChars]
  split_ifs with hescape
  · exact rfl
  · exact ⟨address, _, rfl, rfl, if_pos hentry⟩

/-! ## The line control -/

/-- The bit for a break is none of those that are read back. -/
theorem lineControl_and {mask : BitVec 8} (x bits : BitVec 8)
    (hmask : serialLcrBreak &&& mask = 0#8) :
    ((x &&& serialLcrBreak) ||| bits) &&& mask = bits &&& mask := by
  rw [BitVec.and_or_distrib_right, BitVec.and_assoc, hmask, BitVec.and_zero, BitVec.zero_or]

/-- The three parts of a line control that is accepted. -/
structure Accepted (lc : LineControl) (lData mask lParity : BitVec 8) (wmiParity : WmiParity) :
    Prop where
  wordLength : wordLengthBits lc.wordLength = some (lData, mask)
  parity : parityBits lc.parity = some (lParity, wmiParity)
  stopBits : stopBits lc.stopBits = some (0x00, .stop1)

section Accepted

variable {lc : LineControl} {lData mask lParity : BitVec 8} {wmiParity : WmiParity}

/-- The device with such a line control. -/
def stored (s : Device) (lc : LineControl) (lData mask lParity : BitVec 8)
    (wmiParity : WmiParity) : Device :=
  serialSetLineControl (((s.setBitsPerByte lc.wordLength).setParity wmiParity).storeLineControl
    (lData ||| lParity ||| 0x00) mask .stop1)

theorem setLineControl_eq (h : Accepted lc lData mask lParity wmiParity) :
    setLineControl s lc = (.success, stored s lc lData mask lParity wmiParity) := by
  obtain ⟨hword, hparity, hstop⟩ := h
  simp only [setLineControl, hword, hparity, hstop, stored]

/-- **The bits of a line control that is accepted are read back as that line control.** -/
theorem getLineControl_stored (h : Accepted lc lData mask lParity wmiParity) :
    getLineControl (stored s lc lData mask lParity wmiParity) = lc := by
  obtain ⟨stop, parity, wordLength⟩ := lc
  obtain ⟨hword, hparity, hstop⟩ := h
  have hdata := lineControl_and s.lineControl (lData ||| lParity ||| 0x00)
    (show serialLcrBreak &&& 0x03 = 0#8 by decide)
  have hpar := lineControl_and s.lineControl (lData ||| lParity ||| 0x00)
    (show serialLcrBreak &&& 0x38 = 0#8 by decide)
  have hbits : (stored s ⟨stop, parity, wordLength⟩ lData mask lParity wmiParity).lineControl =
      (s.lineControl &&& serialLcrBreak) ||| (lData ||| lParity ||| 0x00) := rfl
  rw [getLineControl, hbits, hdata, hpar]
  simp only [wordLengthBits, parityBits, stopBits] at hword hparity hstop
  split_ifs at hstop with hzero
  split_ifs at hword with h7 h8 <;> cases hword <;>
    split_ifs at hparity with h0 h2 h1 h4 h3 <;> cases hparity <;> subst_vars <;> rfl

/-- The mask keeps as many bits as the word has, and the bits are none of a break. -/
theorem Accepted.mask_eq (h : Accepted lc lData mask lParity wmiParity) :
    mask.toNat = 2 ^ lc.wordLength.toNat - 1 := by
  have hword := h.wordLength
  rw [wordLengthBits] at hword
  split_ifs at hword with h7 h8
  · cases hword
    rw [h7]
    rfl
  · cases hword
    rw [h8]
    rfl

/-- The bits of a line control are none of a break. -/
theorem Accepted.and_break (h : Accepted lc lData mask lParity wmiParity) :
    (lData ||| lParity ||| 0x00) &&& serialLcrBreak = 0#8 := by
  have hword := h.wordLength
  have hparity := h.parity
  rw [wordLengthBits] at hword
  rw [parityBits] at hparity
  split_ifs at hword <;> cases hword <;> split_ifs at hparity <;> cases hparity <;> rfl

/-- **A line control that is accepted reads back.** -/
theorem Accepted.roundTrip (h : Accepted lc lData mask lParity wmiParity)
    (hentry : entryStatus s = .success) (address : Nat) :
    RoundTrip s (.buffer address (.lineControl lc)) := by
  have hset : set s (.buffer address (.lineControl lc)) =
      some (.success, stored s lc lData mask lParity wmiParity) := by
    rw [set, if_pos hentry]
    exact congrArg some (setLineControl_eq h)
  have hread := getLineControl_stored (s := s) h
  have hentry' : entryStatus (stored s lc lData mask lParity wmiParity) = .success := hentry
  rw [RoundTrip, hset]
  refine ⟨address, _, rfl, ⟨hread, ?_, h.mask_eq, ?_, rfl⟩, ?_⟩
  · show ((s.lineControl &&& serialLcrBreak) ||| _) &&& serialLcrBreak = _
    rw [BitVec.and_or_distrib_right, h.and_break, BitVec.or_zero, BitVec.and_assoc, BitVec.and_self]
  · rw [h.parity]
    rfl
  · show get _ .lineControl = _
    rw [get, if_pos hentry']
    show (_, some (Value.lineControl _)) = _
    rw [hread]

end Accepted

theorem setBitsPerByte_eq_iff {wordLength : BitVec 8} :
    s.setBitsPerByte wordLength = s ↔ s.wmiCommData.bitsPerByte = wordLength.setWidth 32 := by
  constructor
  · intro h
    exact (congrArg (·.wmiCommData.bitsPerByte) h).symm
  · intro h
    rw [Device.setBitsPerByte, ← h]

theorem setParity_eq_iff {wordLength : BitVec 8} {parity : WmiParity} :
    (s.setBitsPerByte wordLength).setParity parity = s ↔
      s.wmiCommData.bitsPerByte = wordLength.setWidth 32 ∧ s.wmiCommData.parity = parity := by
  constructor
  · intro h
    exact ⟨(congrArg (·.wmiCommData.bitsPerByte) h).symm,
      (congrArg (·.wmiCommData.parity) h).symm⟩
  · rintro ⟨hbits, rfl⟩
    have h := setBitsPerByte_eq_iff.2 hbits
    rw [h, Device.setParity]

/-- **A line control round trips unless a part is refused after WMI has seen another.** -/
theorem lineControl_iff (hentry : entryStatus s = .success) (address : Nat) (lc : LineControl) :
    RoundTrip s (.buffer address (.lineControl lc)) ↔ LineSuits s lc := by
  have hset : RoundTrip s (.buffer address (.lineControl lc)) ↔
      Outcome s (.buffer address (.lineControl lc)) (some (setLineControl s lc)) := by
    rw [RoundTrip, set, if_pos hentry]
  cases hword : wordLengthBits lc.wordLength with
  | none =>
    rw [hset, setLineControl, hword, LineSuits, hword]
    exact iff_of_true rfl fun h => nomatch h
  | some word =>
    cases hparity : parityBits lc.parity with
    | none =>
      rw [hset, LineSuits, hword, hparity]
      simp only [setLineControl, hword, hparity]
      exact setBitsPerByte_eq_iff.trans ⟨fun h _ => h, fun h => h rfl⟩
    | some parity =>
      by_cases hstop : lc.stopBits = 0
      · have haccepted : Accepted lc word.1 word.2 parity.1 parity.2 :=
          ⟨hword, hparity, if_pos hstop⟩
        refine iff_of_true (haccepted.roundTrip hentry address) ?_
        rw [LineSuits, hparity, stopBits, if_pos hstop]
        exact fun _ => .inl rfl
      · have hrefused : stopBits lc.stopBits = none := if_neg hstop
        rw [hset, LineSuits, hword, hparity, hrefused]
        simp only [setLineControl, hword, hparity, hrefused]
        exact setParity_eq_iff.trans ⟨fun h _ => .inr h, fun h => (h rfl).resolve_left nofun⟩

end Settings

/-- **A request round trips exactly when it is not let in or its setting suits.** -/
theorem roundTrip_iff (s : Device) (r : SetRequest) :
    RoundTrip s r ↔ (entryStatus s = .success → Suits s r) := by
  by_cases hentry : entryStatus s = .success
  · rw [forall_prop_of_true hentry]
    match r with
    | .noBuffer _ =>
      rw [RoundTrip, set, if_pos hentry]
      exact iff_of_true rfl trivial
    | .buffer address (.baudRate baudRate) => exact baudRate_iff hentry address baudRate
    | .buffer address (.modemControl contents) => exact modemControl_iff hentry address contents
    | .buffer address (.lineControl lc) => exact lineControl_iff hentry address lc
    | .buffer address (.timeouts newTimeouts) =>
      exact iff_of_true (timeouts_roundTrip hentry address newTimeouts) trivial
    | .buffer address (.chars newChars) =>
      exact iff_of_true (chars_roundTrip hentry address newChars) trivial
  · refine iff_of_true ?_ fun h => absurd h hentry
    have hset : set s r = some (entryStatus s, s) := if_neg hentry
    rw [RoundTrip, hset]
    cases hstatus : entryStatus s with
    | success => exact absurd hstatus hentry
    | _ => exact rfl

/-! ## Three failures -/

/-- A device at 115200 baud with eight bits, no parity and one stop bit. -/
def sample : Device where
  registers := ⟨0, 0, 0x0e, 0x01, 0x03, 0x00⟩
  deviceIsOpened := true
  errorAbort := false
  errorWord := 0
  clockRate := 250000
  currentBaud := 115200
  lineControl := 0x03
  validDataMask := 0xff
  escapeChar := 0
  timeouts := ⟨0, 0, 0, 0, 0⟩
  specialChars := ⟨0, 0, 0, 0, 0x11, 0x13⟩
  wmiCommData := ⟨115200, 8, .none, .stop1, 0x11, 0x13⟩

/-- **The modem control register gets the low byte of an address**, WMI sees the word length of a
line control that is refused for its parity, and one baud divides by zero. -/
theorem roundTrip_fails :
    ((set sample (.buffer 0x7f40 (.modemControl 0x02))).map fun x =>
        (x.1, x.2.registers.modemControl)) = some (.success, 0x40) ∧
    ¬RoundTrip sample (.buffer 0x7f40 (.modemControl 0x02)) ∧
    ((set sample (.buffer 0x7f40 (.lineControl ⟨0, 9, 7⟩))).map fun x =>
        (x.1, x.2.wmiCommData.bitsPerByte)) = some (.invalidParameter, 7) ∧
    ¬RoundTrip sample (.buffer 0x7f40 (.lineControl ⟨0, 9, 7⟩)) ∧
    set sample (.buffer 0x7f40 (.baudRate 1)) = none ∧
    ¬RoundTrip sample (.buffer 0x7f40 (.baudRate 1)) := by
  have hentry : entryStatus sample = .success := by decide
  refine ⟨by decide, fun h => ?_, by decide, fun h => ?_, by decide, fun h => ?_⟩
  · exact absurd ((modemControl_iff hentry ..).1 h) (by decide)
  · have hbits : sample.wmiCommData.bitsPerByte = (7 : BitVec 8).setWidth 32 :=
      (lineControl_iff hentry ..).1 h rfl
    exact absurd hbits (by decide)
  · exact absurd ((baudRate_iff hentry ..).1 h) (by decide)

end RpiDrivers.MiniUart.Settings
