import RpiDrivers.Lib.Machine
import RpiDrivers.Lib.PackedFields

/-!
# Pin functions and pulls (`BcmGpio.cpp`)

The class extension opens and closes pins for I/O, for interrupts and for an alternate function.
The driver has shadows of the function select registers and of the pulls, which cannot be read
from the hardware, and a mask of open pins for each of the first two uses.

- `BcmGpio`: the shadows, the masks and the registers; `setDriveMode`, `revertPinToDefault` and the
  six functions of the class extension.
- `Pin`, `PinRequest`: the same for one pin alone.
- `pin_onDriver`: **a request on a pin changes that pin only**, and as the pin alone has it.
-/

namespace RpiDrivers.Gpio

open Lib

/-! ## The driver -/

/-- `BCM_GPIO_PIN_COUNT` -/
abbrev bcmGpioPinCount : Nat := 54

/-- `BCM_GPIO_PINS_PER_BANK` -/
abbrev bcmGpioPinsPerBank : Nat := 32

/-- `BCM_GPIO_PULL_DISABLE` -/
abbrev bcmGpioPullDisable : BitVec 32 := 0
/-- `BCM_GPIO_PULL_DOWN` -/
abbrev bcmGpioPullDown : BitVec 32 := 1
/-- `BCM_GPIO_PULL_UP` -/
abbrev bcmGpioPullUp : BitVec 32 := 2

/-- `BCM_GPIO_FUNCTION_INPUT` -/
abbrev bcmGpioFunctionInput : BitVec 32 := 0
/-- `BCM_GPIO_FUNCTION_OUTPUT` -/
abbrev bcmGpioFunctionOutput : BitVec 32 := 1
/-- `BCM_GPIO_FUNCTION_ALT0` .. `BCM_GPIO_FUNCTION_ALT5` -/
def alternateFunctions : List Nat := [4, 5, 6, 7, 3, 2]

/-- `GPIO_PIN_PULL_CONFIGURATION_*`; the field is an `UCHAR` and can have other values. -/
inductive PullConfiguration
  | default
  | pullUp
  | pullDown
  | none
  | other (value : Nat)

/-- `GPIO_CONNECT_IO_PINS_MODE` -/
inductive ConnectMode
  | input
  | output
  | other (value : Nat)

/-- The `NTSTATUS` of a request. -/
inductive Status
  | success
  | invalidParameter
  | notSupported
  deriving DecidableEq

/-- `BCM_GPIO`, and of the hardware the function select registers, `GPPUD` and the pull that was
last clocked into each pin. -/
structure BcmGpio where
  gpfsel : Nat → BitVec 32
  initialGpfsel : Nat → BitVec 32
  pullConfig : Nat → BitVec 32
  defaultPullConfig : Nat → BitVec 32
  openIoPins : Nat → BitVec 32
  openInterruptPins : Nat → BitVec 32
  hwGpfsel : Nat → BitVec 32
  gppud : BitVec 32
  clockedPull : Nat → BitVec 32

def absolutePinNumber (bankId pinNumber : Nat) : Nat := bankId * bcmGpioPinsPerBank + pinNumber

/-- The datasheet defaults. -/
def datasheetPulls : Nat → BitVec 32
  | 0 => 0x5556aaaa
  | 1 => 0x50555555
  | 2 => 0xa05556a5
  | 3 => 0x00000aaa
  | _ => 0

namespace BcmGpio

variable (s : BcmGpio)

/-- The constructor and `StartController`, with the function select registers that it reads. -/
def start (registers : Nat → BitVec 32) : BcmGpio where
  gpfsel := registers
  initialGpfsel := registers
  pullConfig := datasheetPulls
  defaultPullConfig := datasheetPulls
  openIoPins _ := 0
  openInterruptPins _ := 0
  hwGpfsel := registers
  gppud := 0
  clockedPull := fieldGet 2 datasheetPulls

/-- A write to `GPPUDCLK[bankId]` clocks `GPPUD` into the pins of the mask. -/
def writeGppudclk (bankId : Nat) (mask : BitVec 32) : BcmGpio :=
  { s with
    clockedPull := fun pin =>
      if pin / bcmGpioPinsPerBank = bankId && hasBit mask (pin % bcmGpioPinsPerBank) then s.gppud
      else s.clockedPull pin }

def updatePullMode (bankId pinNumber : Nat) (pullMode : BitVec 32) : BcmGpio :=
  let pin := absolutePinNumber bankId pinNumber
  if pullMode = fieldGet 2 s.pullConfig pin then s
  else
    let s := { s with pullConfig := fieldSet 2 s.pullConfig pin pullMode, gppud := pullMode }
    let s := s.writeGppudclk bankId (1#32 <<< pinNumber)
    { s with gppud := 0 }.writeGppudclk bankId 0

/-- The pull that `setDriveMode` asks for. -/
def pullMode (acpiPullConfig : PullConfiguration) (default : BitVec 32) : BitVec 32 :=
  match acpiPullConfig with
  | .pullUp => bcmGpioPullUp
  | .pullDown => bcmGpioPullDown
  | .none => bcmGpioPullDisable
  | .default | .other _ => default

def setDriveMode (bankId pinNumber : Nat) (function : BitVec 32)
    (acpiPullConfig : PullConfiguration) : BcmGpio :=
  let pin := absolutePinNumber bankId pinNumber
  let s :=
    if function = bcmGpioFunctionOutput then s
    else s.updatePullMode bankId pinNumber
      (pullMode acpiPullConfig (fieldGet 2 s.defaultPullConfig pin))
  let s := { s with gpfsel := fieldSet 3 s.gpfsel pin function }
  let index := fieldWord 32 3 pin
  { s with hwGpfsel := Function.update s.hwGpfsel index (s.gpfsel index) }

def revertPinToDefault (bankId pinNumber : Nat) : BcmGpio :=
  s.setDriveMode bankId pinNumber
    (fieldGet 3 s.initialGpfsel (absolutePinNumber bankId pinNumber)) .default

/-! ## The functions of the class extension -/

def enableInterrupt (bankId pinNumber : Nat) (pullConfiguration : PullConfiguration) : BcmGpio :=
  let s := { s with
    openInterruptPins := Function.update s.openInterruptPins bankId
      (setBit (s.openInterruptPins bankId) pinNumber) }
  if hasBit (s.openIoPins bankId) pinNumber then s
  else s.setDriveMode bankId pinNumber bcmGpioFunctionInput pullConfiguration

def disableInterrupt (bankId pinNumber : Nat) : BcmGpio :=
  let s :=
    if hasBit (s.openIoPins bankId) pinNumber then s else s.revertPinToDefault bankId pinNumber
  { s with
    openInterruptPins := Function.update s.openInterruptPins bankId
      (clearBit (s.openInterruptPins bankId) pinNumber) }

def connectFunctionConfigPins (bankId : Nat) (pinNumberTable : List Nat) (functionNumber : Nat)
    (pullConfiguration : PullConfiguration) : Status × BcmGpio :=
  if functionNumber ∉ alternateFunctions then (.invalidParameter, s)
  else
    match pullConfiguration with
    | .other _ => (.notSupported, s)
    | _ =>
      (.success, pinNumberTable.foldl
        (fun s pinNumber => s.setDriveMode bankId pinNumber (BitVec.ofNat 32 functionNumber)
          pullConfiguration) s)

def disconnectFunctionConfigPins (bankId : Nat) (pinNumberTable : List Nat) : BcmGpio :=
  pinNumberTable.foldl (fun s pinNumber => s.revertPinToDefault bankId pinNumber) s

/-- A round of the loop of `ConnectIoPins`. -/
def connectIoPin (bankId : Nat) (function : BitVec 32) (pullConfiguration : PullConfiguration)
    (pinNumber : Nat) : BcmGpio :=
  let s := { s with
    openIoPins := Function.update s.openIoPins bankId (setBit (s.openIoPins bankId) pinNumber) }
  s.setDriveMode bankId pinNumber function pullConfiguration

def connectIoPins (bankId : Nat) (pinNumberTable : List Nat) (connectMode : ConnectMode)
    (pullConfiguration : PullConfiguration) : Status × BcmGpio :=
  match connectMode with
  | .input =>
    (.success, pinNumberTable.foldl
      (fun s pinNumber => s.connectIoPin bankId bcmGpioFunctionInput pullConfiguration pinNumber) s)
  | .output =>
    (.success, pinNumberTable.foldl
      (fun s pinNumber =>
        s.connectIoPin bankId bcmGpioFunctionOutput pullConfiguration pinNumber) s)
  | .other _ => (.notSupported, s)

/-- A round of the loop of `DisconnectIoPins`. -/
def disconnectIoPin (bankId : Nat) (preserveConfiguration : Bool) (pinNumber : Nat) : BcmGpio :=
  let s :=
    if !preserveConfiguration && !hasBit (s.openInterruptPins bankId) pinNumber then
      s.revertPinToDefault bankId pinNumber
    else s
  { s with
    openIoPins := Function.update s.openIoPins bankId
      (clearBit (s.openIoPins bankId) pinNumber) }

def disconnectIoPins (bankId : Nat) (pinNumberTable : List Nat) (preserveConfiguration : Bool) :
    BcmGpio :=
  pinNumberTable.foldl
    (fun s pinNumber => s.disconnectIoPin bankId preserveConfiguration pinNumber) s

end BcmGpio

/-! ## Pin by pin -/

/-- What the driver and the hardware have for one pin. -/
@[ext] structure Pin where
  function : BitVec 32
  initialFunction : BitVec 32
  pull : BitVec 32
  defaultPull : BitVec 32
  clockedPull : BitVec 32
  openIo : Bool
  openInterrupt : Bool

namespace Pin

variable (p : Pin)

def updatePullMode (pullMode : BitVec 32) : Pin :=
  if pullMode = p.pull then p else { p with pull := pullMode, clockedPull := pullMode }

def setDriveMode (function : BitVec 32) (acpiPullConfig : PullConfiguration) : Pin :=
  { (if function = bcmGpioFunctionOutput then p
     else p.updatePullMode (BcmGpio.pullMode acpiPullConfig p.defaultPull)) with
    function := function }

def revertToDefault : Pin := p.setDriveMode p.initialFunction .default

end Pin

/-- What is asked for a pin. -/
inductive PinRequest
  | enableInterrupt (pullConfiguration : PullConfiguration)
  | disableInterrupt
  | connectFunction (function : BitVec 32) (pullConfiguration : PullConfiguration)
  | disconnectFunction
  | connectIo (function : BitVec 32) (pullConfiguration : PullConfiguration)
  | disconnectIo (preserveConfiguration : Bool)

namespace PinRequest

/-- The function asked for is one of the eight. -/
def WellFormed : PinRequest → Prop
  | connectFunction f _ | connectIo f _ => f &&& fieldMask 32 3 = f
  | _ => True

/-- A request on a pin of the driver: the round of its loop. -/
def onDriver (bankId : Nat) (r : PinRequest) (s : BcmGpio) (pinNumber : Nat) : BcmGpio :=
  match r with
  | enableInterrupt c => s.enableInterrupt bankId pinNumber c
  | disableInterrupt => s.disableInterrupt bankId pinNumber
  | connectFunction f c => s.setDriveMode bankId pinNumber f c
  | disconnectFunction => s.revertPinToDefault bankId pinNumber
  | connectIo f c => s.connectIoPin bankId f c pinNumber
  | disconnectIo preserve => s.disconnectIoPin bankId preserve pinNumber

/-- A request on the pin alone. -/
def onPin (r : PinRequest) (p : Pin) : Pin :=
  match r with
  | enableInterrupt c =>
    let p := { p with openInterrupt := true }
    if p.openIo then p else p.setDriveMode bcmGpioFunctionInput c
  | disableInterrupt =>
    { (if p.openIo then p else p.revertToDefault) with openInterrupt := false }
  | connectFunction f c => p.setDriveMode f c
  | disconnectFunction => p.revertToDefault
  | connectIo f c => { p with openIo := true }.setDriveMode f c
  | disconnectIo preserve =>
    { (if preserve || p.openInterrupt then p else p.revertToDefault) with openIo := false }

end PinRequest

namespace BcmGpio

variable (s : BcmGpio)

/-- What there is for an absolute pin number. -/
def pin (q : Nat) : Pin where
  function := fieldGet 3 s.gpfsel q
  initialFunction := fieldGet 3 s.initialGpfsel q
  pull := fieldGet 2 s.pullConfig q
  defaultPull := fieldGet 2 s.defaultPullConfig q
  clockedPull := s.clockedPull q
  openIo := hasBit (s.openIoPins (q / bcmGpioPinsPerBank)) (q % bcmGpioPinsPerBank)
  openInterrupt := hasBit (s.openInterruptPins (q / bcmGpioPinsPerBank)) (q % bcmGpioPinsPerBank)

variable {s}

section Bank

variable {bankId pinNumber q : Nat} (hpin : pinNumber < bcmGpioPinsPerBank)
include hpin

theorem eq_absolutePinNumber_iff : q = absolutePinNumber bankId pinNumber ↔
    q / bcmGpioPinsPerBank = bankId ∧ q % bcmGpioPinsPerBank = pinNumber := by
  rw [absolutePinNumber]
  unfold bcmGpioPinsPerBank at hpin ⊢
  omega

/-- A mask of one bit in a bank is one pin. -/
theorem hasBit_one_iff : (q / bcmGpioPinsPerBank = bankId ∧
    hasBit (1#32 <<< pinNumber) (q % bcmGpioPinsPerBank) = true) ↔
      q = absolutePinNumber bankId pinNumber := by
  have hmod : q % bcmGpioPinsPerBank < 32 := Nat.mod_lt _ (by decide)
  rw [eq_absolutePinNumber_iff hpin, hasBit_eq hmod, one_shiftLeft, BitVec.getLsbD_twoPow]
  refine and_congr_right fun _ => ?_
  rw [Bool.and_eq_true, decide_eq_true_eq, decide_eq_true_eq, and_iff_right hpin]
  exact eq_comm

/-- A bit of the pin is set or cleared in the mask of its bank, and the others stay. -/
theorem hasBit_update (masks : Nat → BitVec 32) :
    (hasBit (Function.update masks bankId (setBit (masks bankId) pinNumber)
        (q / bcmGpioPinsPerBank)) (q % bcmGpioPinsPerBank) =
      (decide (q = absolutePinNumber bankId pinNumber) ||
        hasBit (masks (q / bcmGpioPinsPerBank)) (q % bcmGpioPinsPerBank))) ∧
    hasBit (Function.update masks bankId (clearBit (masks bankId) pinNumber)
        (q / bcmGpioPinsPerBank)) (q % bcmGpioPinsPerBank) =
      (!decide (q = absolutePinNumber bankId pinNumber) &&
        hasBit (masks (q / bcmGpioPinsPerBank)) (q % bcmGpioPinsPerBank)) := by
  have hmod : q % bcmGpioPinsPerBank < 32 := Nat.mod_lt _ (by decide)
  simp only [eq_absolutePinNumber_iff hpin]
  by_cases hbank : q / bcmGpioPinsPerBank = bankId
  · rw [hbank, Function.update_self, Function.update_self, hasBit_setBit hmod, hasBit_clearBit hmod]
    simp
  · rw [Function.update_of_ne hbank, Function.update_of_ne hbank]
    simp [hbank]

/-- The open mask of the pin itself. -/
theorem hasBit_absolutePinNumber (masks : Nat → BitVec 32) :
    hasBit (masks (absolutePinNumber bankId pinNumber / bcmGpioPinsPerBank))
      (absolutePinNumber bankId pinNumber % bcmGpioPinsPerBank) =
        hasBit (masks bankId) pinNumber := by
  obtain ⟨hdiv, hmod⟩ := (eq_absolutePinNumber_iff hpin).1 rfl
  rw [hdiv, hmod]

/-! ### The pull -/

/-- A write to the clock register of one bit changes one pin. -/
theorem writeGppudclk_one : s.writeGppudclk bankId (1#32 <<< pinNumber) =
    { s with
      clockedPull :=
        Function.update s.clockedPull (absolutePinNumber bankId pinNumber) s.gppud } := by
  rw [writeGppudclk]
  congr 1
  funext q
  have hclock : (q / bcmGpioPinsPerBank = bankId ∧
      hasBit (1#32 <<< pinNumber) (q % bcmGpioPinsPerBank) = true) ↔
        q = absolutePinNumber bankId pinNumber := hasBit_one_iff hpin
  rw [← decide_eq_true_eq (p := _ = bankId), ← Bool.and_eq_true] at hclock
  rw [Function.update_apply]
  exact if_congr hclock rfl rfl

/-- A pull that changes is noted and clocked. -/
theorem updatePullMode_eq {m : BitVec 32} : s.updatePullMode bankId pinNumber m =
    if m = fieldGet 2 s.pullConfig (absolutePinNumber bankId pinNumber) then s
    else { s with
      pullConfig := fieldSet 2 s.pullConfig (absolutePinNumber bankId pinNumber) m
      gppud := 0
      clockedPull := Function.update s.clockedPull (absolutePinNumber bankId pinNumber) m } := by
  have hzero (t : BcmGpio) : t.writeGppudclk bankId 0 = t := by simp [writeGppudclk]
  unfold updatePullMode
  simp only [writeGppudclk_one hpin, hzero]

theorem pin_updatePullMode {m : BitVec 32} (hm : m &&& fieldMask 32 2 = m) :
    (s.updatePullMode bankId pinNumber m).pin q =
      if q = absolutePinNumber bankId pinNumber then (s.pin q).updatePullMode m else s.pin q := by
  rw [updatePullMode_eq hpin, Pin.updatePullMode]
  by_cases hq : q = absolutePinNumber bankId pinNumber
  · rw [if_pos hq, ← hq]
    show _ = if m = fieldGet 2 s.pullConfig q then _ else _
    split
    · rfl
    · simp [pin, fieldGet_fieldSet_self, hm]
  · rw [if_neg hq]
    split
    · rfl
    · simp [pin, fieldGet_fieldSet_of_ne _ (Ne.symm hq), Function.update_of_ne hq]

end Bank

/-! ### The function -/

variable {bankId pinNumber q : Nat}

theorem pin_select {f : BitVec 32} (hf : f &&& fieldMask 32 3 = f) (pinNumber q : Nat)
    (registers : Nat → BitVec 32) :
    pin { s with gpfsel := fieldSet 3 s.gpfsel pinNumber f, hwGpfsel := registers } q =
      if q = pinNumber then { s.pin q with function := f } else s.pin q := by
  by_cases hq : q = pinNumber
  · subst hq
    simp [pin, fieldGet_fieldSet_self, hf]
  · rw [if_neg hq]
    simp [pin, fieldGet_fieldSet_of_ne _ (Ne.symm hq)]

theorem pullMode_and_mask (c : PullConfiguration) {default : BitVec 32}
    (h : default &&& fieldMask 32 2 = default) :
    pullMode c default &&& fieldMask 32 2 = pullMode c default := by
  cases c with
  | default => exact h
  | other => exact h
  | pullUp => exact (by decide : bcmGpioPullUp &&& fieldMask 32 2 = bcmGpioPullUp)
  | pullDown => exact (by decide : bcmGpioPullDown &&& fieldMask 32 2 = bcmGpioPullDown)
  | none => exact (by decide : bcmGpioPullDisable &&& fieldMask 32 2 = bcmGpioPullDisable)

theorem pin_setDriveMode (hpin : pinNumber < bcmGpioPinsPerBank) {f : BitVec 32}
    (hf : f &&& fieldMask 32 3 = f) (c : PullConfiguration) :
    (s.setDriveMode bankId pinNumber f c).pin q =
      if q = absolutePinNumber bankId pinNumber then (s.pin q).setDriveMode f c else s.pin q := by
  have hm := pullMode_and_mask c
    (fieldGet_and_mask (b := 2) s.defaultPullConfig (absolutePinNumber bankId pinNumber))
  have hpull : (s.updatePullMode bankId pinNumber
      (pullMode c (fieldGet 2 s.defaultPullConfig (absolutePinNumber bankId pinNumber)))).pin q =
        _ := pin_updatePullMode hpin hm
  rw [setDriveMode, pin_select hf]
  by_cases hq : q = absolutePinNumber bankId pinNumber
  · rw [if_pos hq] at hpull ⊢
    rw [if_pos hq, Pin.setDriveMode]
    split
    · rfl
    · rw [hpull, hq]
      rfl
  · rw [if_neg hq] at hpull ⊢
    rw [if_neg hq]
    split
    · rfl
    · exact hpull

theorem pin_revertPinToDefault (hpin : pinNumber < bcmGpioPinsPerBank) :
    (s.revertPinToDefault bankId pinNumber).pin q =
      if q = absolutePinNumber bankId pinNumber then (s.pin q).revertToDefault else s.pin q := by
  rw [revertPinToDefault, pin_setDriveMode hpin (fieldGet_and_mask _ _)]
  by_cases hq : q = absolutePinNumber bankId pinNumber
  · rw [if_pos hq, if_pos hq, ← hq]
    rfl
  · rw [if_neg hq, if_neg hq]

/-! ### The requests -/

section Masks

variable (hpin : pinNumber < bcmGpioPinsPerBank)
include hpin

theorem pin_setOpenIo : pin { s with
      openIoPins := Function.update s.openIoPins bankId
        (setBit (s.openIoPins bankId) pinNumber) } q =
    if q = absolutePinNumber bankId pinNumber then { s.pin q with openIo := true }
    else s.pin q := by
  rw [pin, (hasBit_update hpin _).1]
  split
  next hq => simp [pin, hq]
  next hq => simp [pin, hq]

theorem pin_clearOpenIo : pin { s with
      openIoPins := Function.update s.openIoPins bankId
        (clearBit (s.openIoPins bankId) pinNumber) } q =
    if q = absolutePinNumber bankId pinNumber then { s.pin q with openIo := false }
    else s.pin q := by
  rw [pin, (hasBit_update hpin _).2]
  split
  next hq => simp [pin, hq]
  next hq => simp [pin, hq]

theorem pin_setOpenInterrupt : pin { s with
      openInterruptPins := Function.update s.openInterruptPins bankId
        (setBit (s.openInterruptPins bankId) pinNumber) } q =
    if q = absolutePinNumber bankId pinNumber then { s.pin q with openInterrupt := true }
    else s.pin q := by
  rw [pin, (hasBit_update hpin _).1]
  split
  next hq => simp [pin, hq]
  next hq => simp [pin, hq]

theorem pin_clearOpenInterrupt : pin { s with
      openInterruptPins := Function.update s.openInterruptPins bankId
        (clearBit (s.openInterruptPins bankId) pinNumber) } q =
    if q = absolutePinNumber bankId pinNumber then { s.pin q with openInterrupt := false }
    else s.pin q := by
  rw [pin, (hasBit_update hpin _).2]
  split
  next hq => simp [pin, hq]
  next hq => simp [pin, hq]

theorem openIo_absolutePinNumber :
    (s.pin (absolutePinNumber bankId pinNumber)).openIo = hasBit (s.openIoPins bankId) pinNumber :=
  hasBit_absolutePinNumber hpin s.openIoPins

theorem openInterrupt_absolutePinNumber :
    (s.pin (absolutePinNumber bankId pinNumber)).openInterrupt =
      hasBit (s.openInterruptPins bankId) pinNumber :=
  hasBit_absolutePinNumber hpin s.openInterruptPins

theorem pin_enableInterrupt (c : PullConfiguration) :
    (s.enableInterrupt bankId pinNumber c).pin q =
      if q = absolutePinNumber bankId pinNumber then
        PinRequest.onPin (.enableInterrupt c) (s.pin q)
      else s.pin q := by
  rw [enableInterrupt]
  by_cases hq : q = absolutePinNumber bankId pinNumber
  · subst hq
    rw [if_pos rfl, PinRequest.onPin]
    dsimp only
    rw [← openIo_absolutePinNumber hpin]
    split
    · rw [pin_setOpenInterrupt hpin, if_pos rfl]
    · rw [pin_setDriveMode hpin (by decide), if_pos rfl, pin_setOpenInterrupt hpin, if_pos rfl]
  · rw [if_neg hq]
    dsimp only
    split
    · rw [pin_setOpenInterrupt hpin, if_neg hq]
    · rw [pin_setDriveMode hpin (by decide), if_neg hq, pin_setOpenInterrupt hpin, if_neg hq]

theorem pin_disableInterrupt : (s.disableInterrupt bankId pinNumber).pin q =
    if q = absolutePinNumber bankId pinNumber then PinRequest.onPin .disableInterrupt (s.pin q)
    else s.pin q := by
  rw [disableInterrupt, pin_clearOpenInterrupt hpin]
  by_cases hq : q = absolutePinNumber bankId pinNumber
  · subst hq
    rw [if_pos rfl, if_pos rfl, PinRequest.onPin, openIo_absolutePinNumber hpin]
    split
    · rfl
    · rw [pin_revertPinToDefault hpin, if_pos rfl]
  · rw [if_neg hq, if_neg hq]
    split
    · rfl
    · rw [pin_revertPinToDefault hpin, if_neg hq]

theorem pin_connectIoPin {f : BitVec 32} (hf : f &&& fieldMask 32 3 = f) (c : PullConfiguration) :
    (s.connectIoPin bankId f c pinNumber).pin q =
      if q = absolutePinNumber bankId pinNumber then PinRequest.onPin (.connectIo f c) (s.pin q)
      else s.pin q := by
  rw [connectIoPin, pin_setDriveMode hpin hf, pin_setOpenIo hpin]
  by_cases hq : q = absolutePinNumber bankId pinNumber
  · rw [if_pos hq, if_pos hq, if_pos hq, PinRequest.onPin]
  · rw [if_neg hq, if_neg hq, if_neg hq]

theorem pin_disconnectIoPin (preserve : Bool) :
    (s.disconnectIoPin bankId preserve pinNumber).pin q =
      if q = absolutePinNumber bankId pinNumber then
        PinRequest.onPin (.disconnectIo preserve) (s.pin q)
      else s.pin q := by
  rw [disconnectIoPin, pin_clearOpenIo hpin]
  by_cases hq : q = absolutePinNumber bankId pinNumber
  · subst hq
    rw [if_pos rfl, if_pos rfl, PinRequest.onPin, openInterrupt_absolutePinNumber hpin]
    cases preserve with
    | true => rfl
    | false =>
      cases hasBit (s.openInterruptPins bankId) pinNumber with
      | true => rfl
      | false =>
        show { (s.revertPinToDefault bankId pinNumber).pin _ with openIo := false } = _
        rw [pin_revertPinToDefault hpin, if_pos rfl]
        rfl
  · rw [if_neg hq, if_neg hq]
    split
    · rw [pin_revertPinToDefault hpin, if_neg hq]
    · rfl

/-- **A request on a pin changes that pin**, as the request on the pin alone does. -/
theorem pin_onDriver {r : PinRequest} (hr : r.WellFormed) :
    (r.onDriver bankId s pinNumber).pin q =
      if q = absolutePinNumber bankId pinNumber then r.onPin (s.pin q) else s.pin q := by
  cases r with
  | enableInterrupt c => exact pin_enableInterrupt hpin c
  | disableInterrupt => exact pin_disableInterrupt hpin
  | connectFunction f c => exact pin_setDriveMode hpin hr c
  | disconnectFunction => exact pin_revertPinToDefault hpin
  | connectIo f c => exact pin_connectIoPin hpin hr c
  | disconnectIo preserve => exact pin_disconnectIoPin hpin preserve

end Masks

end BcmGpio

end RpiDrivers.Gpio
