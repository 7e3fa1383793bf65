import RpiDrivers.Lib.StatusRegister
import RpiDrivers.Rpisdhc.Requests

/-!
# Acknowledging the interrupts of an SD host

The interrupt routine reads the status of the controller, tells Sdport what it has read, and clears
it: `SlotExtension::SlotInterrupt` (`brcme88c`) and `SdhcSlotInterrupt` (`bcm2836sdhc.c`) with a
register for events and one for errors, `SDHC::sdhcInterrupt` (`rpisdhc.cpp`) with a single one.
The controller may set bits between any two accesses.

- `slotMachine`: a standard host, with either of its two drivers. `rpisdhcMachine`: the other one.
- `SlotInv`: between two accesses, what has been read is still set, and what has been taken will
  be told.
- `only_excused_lost`: **a bit is lost only when it is an error that came between the read and the
  clear of the errors, or one that `bcm2836sdhc` drops**; `rpisdhc` loses none.
- `event_dropped_error_cleared`: both happen.
-/

namespace RpiDrivers.SdInterrupts

open RpiDrivers.Lib

/-! ## The bits -/

/-- `SdRegNormalInterrupts` and `SDHC_IS_...` -/
def cardInsertion : BitVec 16 := 0x0040

def cardRemoval : BitVec 16 := 0x0080

def cardInterrupt : BitVec 16 := 0x0100

/-- `ReTuningEvent` and `SDHC_IS_TUNING_INTERRUPT` -/
def tuningInterrupt : BitVec 16 := 0x1000

/-- Set while there is an error. -/
def errorInterrupt : BitVec 16 := 0x8000

/-- `SDHC_IS_CARD_DETECT` -/
def cardDetect : BitVec 16 := cardInsertion ||| cardRemoval

/-- What the routine tells Sdport. -/
structure Report where
  events : BitVec 16
  errors : BitVec 16
  notifyCardChange : Bool
  notifySdioInterrupt : Bool
  notifyTuning : Bool

/-- The events that a report tells. -/
def Report.tells (r : Report) (i : Nat) : Bool :=
  r.events.getLsbD i || r.notifyCardChange && cardDetect.getLsbD i ||
    r.notifySdioInterrupt && cardInterrupt.getLsbD i ||
    r.notifyTuning && tuningInterrupt.getLsbD i

/-! ## The drivers of a standard host -/

inductive Driver
  | brcme88c
  | bcm2836sdhc
  deriving DecidableEq

/-- What `SlotExtension::SlotInterrupt` tells. -/
def slotInterrupt (interrupts errors : BitVec 16) : Report where
  events := interrupts &&&
    ~~~(cardInsertion ||| cardRemoval ||| cardInterrupt ||| tuningInterrupt ||| errorInterrupt)
  errors := errors
  notifyCardChange := interrupts &&& cardInsertion ≠ 0 || interrupts &&& cardRemoval ≠ 0
  notifySdioInterrupt := interrupts &&& cardInterrupt ≠ 0
  notifyTuning := interrupts &&& tuningInterrupt ≠ 0

/-- What `SdhcSlotInterrupt` tells, with `SDHC_IGNORE_CARD_DETECT_INTERRUPT`. -/
def sdhcSlotInterrupt (interruptStatus errors : BitVec 16) : Report where
  events := interruptStatus &&& ~~~(cardDetect ||| cardInterrupt ||| tuningInterrupt)
  errors := errors
  notifyCardChange := false
  notifySdioInterrupt := interruptStatus &&& cardInterrupt ≠ 0
  notifyTuning := interruptStatus &&& tuningInterrupt ≠ 0

namespace Driver

def report : Driver → BitVec 16 → BitVec 16 → Report
  | brcme88c => slotInterrupt
  | bcm2836sdhc => sdhcSlotInterrupt

/-- The last write of `AcknowledgeInterrupts` and `SdhcAcknowledgeInterrupts` -/
def acknowledged : Driver → BitVec 16 → BitVec 16
  | brcme88c, interrupts => interrupts
  | bcm2836sdhc, interrupts => interrupts &&& ~~~errorInterrupt

/-- An event that is cleared, and that nobody is told of. -/
def Drops (d : Driver) (i : Nat) : Prop := d = bcm2836sdhc ∧ cardDetect.getLsbD i = true

end Driver

/-- Where the interrupt routine is. -/
inductive Call
  | idle
  | readErrors (interrupts : BitVec 16)
  | acknowledgeErrors (interrupts errors : BitVec 16)
  | acknowledge (interrupts errors : BitVec 16)
  deriving DecidableEq

/-- The registers of a slot and its interrupt routine. -/
structure Slot where
  normal : StatusRegister 16
  error : StatusRegister 16
  call : Call
  /-- ghost: errors that were set between the read and the clear of the errors -/
  raced : Nat → Bool

inductive SlotAction
  | raise (events errors : BitVec 16)
  /-- the next access of the interrupt routine -/
  | access

namespace Slot

def start : Slot := ⟨.start, .start, .idle, fun _ => false⟩

/-- What is read of `NormalInterruptStatus`. -/
def normalStatus (s : Slot) : BitVec 16 :=
  s.normal.status ||| if s.error.status = 0 then 0 else errorInterrupt

/-- The controller sets bits. -/
def raise (s : Slot) (events errors : BitVec 16) : Slot :=
  { s with
    normal := s.normal.raise (events &&& ~~~errorInterrupt)
    error := s.error.raise errors
    raced :=
      match s.call with
      | .acknowledgeErrors _ _ => fun i =>
        s.raced i || (errors.getLsbD i && !s.error.status.getLsbD i)
      | _ => s.raced }

/-- The routine accesses a register. -/
def access (d : Driver) (s : Slot) : Slot :=
  match s.call with
  | .idle =>
    -- all ones is a controller that is offline
    if s.normalStatus = 0 ∨ s.normalStatus = 0xFFFF then s
    else
      { s with
        normal := s.normal.read
        call :=
          if s.normalStatus &&& errorInterrupt ≠ 0 then .readErrors s.normalStatus
          else .acknowledge s.normalStatus 0 }
  | .readErrors interrupts =>
    { s with
      error := s.error.read
      call := .acknowledgeErrors interrupts s.error.status }
  | .acknowledgeErrors interrupts errors =>
    { s with
      error := s.error.clear 0xFFFF
      call := .acknowledge interrupts errors }
  | .acknowledge interrupts errors =>
    { s with
      normal := (s.normal.clear (d.acknowledged interrupts)).report
        (d.report interrupts errors).tells
      error := s.error.report (d.report interrupts errors).errors.getLsbD
      call := .idle }

def effect (d : Driver) (s : Slot) : SlotAction → Slot
  | .raise events errors => s.raise events errors
  | .access => s.access d

end Slot

def slotMachine (d : Driver) : Machine Slot SlotAction :=
  .guarded (· = .start) (fun _ _ => True) (Slot.effect d)

/-! ## What is between two accesses -/

/-- The invariant of a standard host. -/
structure SlotInv (d : Driver) (s : Slot) : Prop where
  normalLost : ∀ i, s.normal.Lost i → d.Drops i
  errorLost : ∀ i, s.error.Lost i → s.raced i = true
  /-- the error interrupt is no event of its own -/
  noErrorEvent : s.normal.owed 15 = false
  call :
    match s.call with
    | .idle => (∀ i, s.normal.taken i = false) ∧ ∀ i, s.error.taken i = false
    | .readErrors interrupts =>
      s.normal.Held (interrupts &&& ~~~errorInterrupt) ∧
        s.normal.TakenOf (interrupts &&& ~~~errorInterrupt) ∧ ∀ i, s.error.taken i = false
    | .acknowledgeErrors interrupts errors =>
      s.normal.Held (interrupts &&& ~~~errorInterrupt) ∧
        s.normal.TakenOf (interrupts &&& ~~~errorInterrupt) ∧ s.error.TakenOf errors ∧
          ∀ i, s.error.owed i = true → s.raced i = true
    | .acknowledge interrupts errors =>
      s.normal.Held (interrupts &&& ~~~errorInterrupt) ∧
        s.normal.TakenOf (interrupts &&& ~~~errorInterrupt) ∧ s.error.TakenOf errors

/-! ## What is told -/

section Tells

variable {v m errors : BitVec 16} {i : Nat} {d : Driver}

theorem and_ne_zero (hv : v.getLsbD i = true) (hm : m.getLsbD i = true) : v &&& m ≠ 0#16 := by
  intro h
  have hbit := congrArg (BitVec.getLsbD · i) h
  simp [hv, hm] at hbit

theorem getLsbD_but_error :
    (v &&& ~~~errorInterrupt).getLsbD i = true ↔
      v.getLsbD i = true ∧ errorInterrupt.getLsbD i = false := by
  by_cases hv : v.getLsbD i = true
  · have hlt := BitVec.lt_of_getLsbD hv
    simp [hv, hlt]
  · simp [hv]

theorem eq_of_errorInterrupt (h : errorInterrupt.getLsbD i = true) : i = 15 := by
  have hbits : ∀ j : Fin 16, errorInterrupt.getLsbD j = true → j = 15 := by decide
  exact congrArg Fin.val (hbits ⟨i, BitVec.lt_of_getLsbD h⟩ h)

/-- An event that is not told of in the event bits is told of by itself. -/
theorem slotInterrupt_tells (hv : v.getLsbD i = true) (herror : errorInterrupt.getLsbD i = false) :
    (slotInterrupt v errors).tells i = true := by
  have hlt := BitVec.lt_of_getLsbD hv
  by_cases hown : cardInsertion.getLsbD i = true ∨ cardRemoval.getLsbD i = true ∨
      cardInterrupt.getLsbD i = true ∨ tuningInterrupt.getLsbD i = true
  · rcases hown with hbit | hbit | hbit | hbit
    · have hnotify := and_ne_zero hv hbit
      simp [Report.tells, slotInterrupt, cardDetect, hnotify, hbit]
    · have hnotify := and_ne_zero hv hbit
      simp [Report.tells, slotInterrupt, cardDetect, hnotify, hbit]
    · have hnotify := and_ne_zero hv hbit
      simp [Report.tells, slotInterrupt, hnotify, hbit]
    · have hnotify := and_ne_zero hv hbit
      simp [Report.tells, slotInterrupt, hnotify, hbit]
  · simp only [not_or, Bool.not_eq_true] at hown
    simp only [Report.tells, slotInterrupt, BitVec.getLsbD_and, BitVec.getLsbD_not,
      BitVec.getLsbD_or, hv, hlt, hown, herror, decide_true, Bool.or_false, Bool.not_false,
      Bool.and_self, Bool.true_or]

theorem sdhcSlotInterrupt_tells (hv : v.getLsbD i = true) (hkept : cardDetect.getLsbD i = false) :
    (sdhcSlotInterrupt v errors).tells i = true := by
  have hlt := BitVec.lt_of_getLsbD hv
  by_cases hown : cardInterrupt.getLsbD i = true ∨ tuningInterrupt.getLsbD i = true
  · rcases hown with hbit | hbit
    · have hnotify := and_ne_zero hv hbit
      simp [Report.tells, sdhcSlotInterrupt, hnotify, hbit]
    · have hnotify := and_ne_zero hv hbit
      simp [Report.tells, sdhcSlotInterrupt, hnotify, hbit]
  · simp only [not_or, Bool.not_eq_true] at hown
    simp only [Report.tells, sdhcSlotInterrupt, BitVec.getLsbD_and, BitVec.getLsbD_not,
      BitVec.getLsbD_or, hv, hlt, hown, hkept, decide_true, Bool.or_false, Bool.not_false,
      Bool.and_self, Bool.true_or]

/-- **Every event that is read is told**, unless the driver drops it. -/
theorem tells_of_read (h : (v &&& ~~~errorInterrupt).getLsbD i = true) (hdrops : ¬ d.Drops i) :
    (d.report v errors).tells i = true := by
  obtain ⟨hv, herror⟩ := getLsbD_but_error.1 h
  cases d with
  | brcme88c => exact slotInterrupt_tells hv herror
  | bcm2836sdhc =>
    refine sdhcSlotInterrupt_tells hv ?_
    by_contra hdetect
    exact hdrops ⟨rfl, Bool.not_eq_false _ ▸ hdetect⟩

theorem report_errors : (d.report v errors).errors = errors := by
  cases d <;> rfl

/-- Nothing is acknowledged that was not read. -/
theorem getLsbD_acknowledged (h : (d.acknowledged v).getLsbD i = true) : v.getLsbD i = true := by
  cases d with
  | brcme88c => exact h
  | bcm2836sdhc => exact (getLsbD_but_error.1 h).1

end Tells

/-! ## The steps of a standard host -/

section Steps

variable {d : Driver} {s : Slot}

theorem slotInv_start (d : Driver) : SlotInv d .start where
  normalLost _ h := absurd h StatusRegister.not_lost_start
  errorLost _ h := absurd h StatusRegister.not_lost_start
  noErrorEvent := rfl
  call := ⟨fun _ => rfl, fun _ => rfl⟩

/-- Bits may be set at any time. -/
theorem slotInv_raise (h : SlotInv d s) (events errors : BitVec 16) :
    SlotInv d (s.raise events errors) := by
  have hraced : ∀ i, s.raced i = true → (s.raise events errors).raced i = true := by
    intro i hi
    unfold Slot.raise
    cases hcall : s.call <;> simp [hi]
  have hcall := h.call
  constructor
  case normalLost => exact fun i hi => h.normalLost i (StatusRegister.lost_raise hi)
  case errorLost => exact fun i hi => hraced i (h.errorLost i (StatusRegister.lost_raise hi))
  case noErrorEvent =>
    show (s.normal.owed 15 || _) = false
    rw [h.noErrorEvent]
    simp [errorInterrupt]
  case call =>
    show match s.call with
      | .idle => _
      | .readErrors interrupts => _
      | .acknowledgeErrors interrupts errors => _
      | .acknowledge interrupts errors => _
    cases hc : s.call with
    | idle =>
      rw [hc] at hcall
      exact hcall
    | readErrors interrupts =>
      rw [hc] at hcall
      exact ⟨hcall.1.raise, hcall.2⟩
    | acknowledgeErrors interrupts read =>
      rw [hc] at hcall
      obtain ⟨hheld, htaken, herrors, howed⟩ := hcall
      refine ⟨hheld.raise, htaken, herrors, fun i hi => ?_⟩
      rcases Bool.or_eq_true_iff.1 hi with hi | hi
      · exact hraced i (howed i hi)
      · show (match s.call with
          | .acknowledgeErrors _ _ => fun i =>
            s.raced i || (errors.getLsbD i && !s.error.status.getLsbD i)
          | _ => s.raced) i = true
        rw [hc]
        exact Bool.or_eq_true_iff.2 (.inr hi)
    | acknowledge interrupts read =>
      rw [hc] at hcall
      exact ⟨hcall.1.raise, hcall.2⟩

/-- What the routine reads of the events is set, but for the error interrupt. -/
theorem held_normalStatus : s.normal.read.Held (s.normalStatus &&& ~~~errorInterrupt) := by
  intro i hi
  obtain ⟨hset, hnot⟩ := getLsbD_but_error.1 hi
  refine StatusRegister.held_read s.normal i ?_
  rw [Slot.normalStatus, BitVec.getLsbD_or] at hset
  split_ifs at hset <;> simpa [hnot] using hset

theorem takenOf_normalStatus (hnone : ∀ i, s.normal.taken i = false)
    (herror : s.normal.owed 15 = false) :
    s.normal.read.TakenOf (s.normalStatus &&& ~~~errorInterrupt) := by
  intro i hi
  have hset := StatusRegister.takenOf_read hnone i hi
  refine getLsbD_but_error.2 ⟨by rw [Slot.normalStatus, BitVec.getLsbD_or, hset]; rfl, ?_⟩
  -- what is taken was owed, and the error interrupt is not
  by_contra hbit
  obtain rfl := eq_of_errorInterrupt (Bool.not_eq_false _ ▸ hbit)
  simp [StatusRegister.read, herror, hnone] at hi

/-- **An access of the routine keeps what it has read**, and clears nothing else but errors. -/
theorem slotInv_access (h : SlotInv d s) : SlotInv d (s.access d) := by
  have hcall := h.call
  unfold Slot.access
  cases hc : s.call with
  | idle =>
    rw [hc] at hcall
    dsimp only
    split_ifs with hnone herror
    · exact h
    all_goals
      have hheld := held_normalStatus (s := s)
      have htaken := takenOf_normalStatus hcall.1 h.noErrorEvent
      constructor
      case normalLost => exact fun i hi => h.normalLost i (StatusRegister.lost_read hi)
      case errorLost => exact h.errorLost
      case noErrorEvent => simp [StatusRegister.read, h.noErrorEvent]
      case call => first
        | exact ⟨hheld, htaken, hcall.2⟩
        | exact ⟨hheld, htaken, fun i hi => absurd hi (by simp [hcall.2])⟩
  | readErrors interrupts =>
    rw [hc] at hcall
    obtain ⟨hheld, htaken, hnone⟩ := hcall
    constructor
    case normalLost => exact h.normalLost
    case errorLost => exact fun i hi => h.errorLost i (StatusRegister.lost_read hi)
    case noErrorEvent => exact h.noErrorEvent
    case call =>
      exact ⟨hheld, htaken, StatusRegister.takenOf_read hnone,
        fun i hi => h.errorLost i (StatusRegister.lost_of_owed_read hi)⟩
  | acknowledgeErrors interrupts errors =>
    rw [hc] at hcall
    obtain ⟨hheld, htaken, herrors, howed⟩ := hcall
    constructor
    case normalLost => exact h.normalLost
    case errorLost => exact fun i hi => howed i hi.1
    case noErrorEvent => exact h.noErrorEvent
    case call => exact ⟨hheld, htaken, herrors⟩
  | acknowledge interrupts errors =>
    rw [hc] at hcall
    obtain ⟨hheld, htaken, herrors⟩ := hcall
    constructor
    case normalLost =>
      intro i hi
      rcases StatusRegister.lost_report hi with hlost | ⟨hi, htold⟩
      · refine h.normalLost i (hheld.lost_clear (fun hack => ?_) hlost)
        refine getLsbD_but_error.2 ⟨getLsbD_acknowledged hack, ?_⟩
        -- an event that is owed is not the error interrupt
        by_contra hbit
        obtain rfl := eq_of_errorInterrupt (Bool.not_eq_false _ ▸ hbit)
        exact absurd hlost.1 (by simp [StatusRegister.clear, h.noErrorEvent])
      · by_contra hdrops
        rw [tells_of_read (htaken i hi) hdrops] at htold
        cases htold
    case errorLost =>
      intro i hi
      rcases StatusRegister.lost_report hi with hlost | ⟨hi, htold⟩
      · exact h.errorLost i hlost
      · rw [report_errors, herrors i hi] at htold
        cases htold
    case noErrorEvent =>
      show (s.normal.owed 15 || (s.normal.taken 15 && _)) = false
      have hnot : s.normal.taken 15 = false := by
        by_contra h15
        have hbit := (getLsbD_but_error.1 (htaken 15 (Bool.not_eq_false _ ▸ h15))).2
        exact absurd hbit (by decide)
      rw [h.noErrorEvent, hnot]
      rfl
    case call => exact ⟨fun _ => rfl, fun _ => rfl⟩

theorem slotInv_reachable (h : (slotMachine d).Reachable s) : SlotInv d s := by
  refine h.inv_guarded ?_ ?_
  · rintro s rfl
    exact slotInv_start d
  · intro s a hs _ _
    cases a with
    | raise events errors => exact slotInv_raise hs events errors
    | access => exact slotInv_access hs

end Steps

/-! ## `SDHC::sdhcInterrupt` -/

section Rpisdhc

open Rpisdhc

/-- `UINT32_EVENTS_AND_ERRORS_MASK` -/
def eventsAndErrorsMask : BitVec 32 := 0x07F9

/-- `UINT32_DATA_MASK`. The data flag cannot be cleared. -/
def dataMask : BitVec 32 := 0x1

/-- The fields of `_HSTS`. -/
def hstsOf (v : BitVec 32) : Hsts where
  dataFlag := v.getLsbD 0
  fifoError := v.getLsbD 3
  crc7Error := v.getLsbD 4
  crc16Error := v.getLsbD 5
  cmdTimeOut := v.getLsbD 6
  rewTimeOut := v.getLsbD 7
  sdioIrpt := v.getLsbD 8
  blockIrpt := v.getLsbD 9
  busyIrpt := v.getLsbD 10

/-- The bit of a field. -/
def bitOf (h : Hsts) : Nat → Bool
  | 0 => h.dataFlag
  | 3 => h.fifoError
  | 4 => h.crc7Error
  | 5 => h.crc16Error
  | 6 => h.cmdTimeOut
  | 7 => h.rewTimeOut
  | 8 => h.sdioIrpt
  | 9 => h.blockIrpt
  | 10 => h.busyIrpt
  | _ => false

/-- What the DPC gets back of the events and errors that are told. -/
def hstsTells (v : BitVec 32) (i : Nat) : Bool :=
  bitOf (getSdhcEventsFromSdportEvents (getSdportEventsFromSdhcEvents (hstsOf v).events)) i ||
    bitOf (getSdhcErrorsFromSdportErrors (getSdportErrorsFromSdhcErrors (hstsOf v).errors)) i

/-- The status register, and what the interrupt routine has read of it. -/
structure HstsSlot where
  hsts : StatusRegister 32
  call : Option (BitVec 32)

namespace HstsSlot

def start : HstsSlot := ⟨.start, none⟩

/-- The routine accesses the register. -/
def access (s : HstsSlot) : HstsSlot :=
  match s.call with
  | none =>
    if s.hsts.status &&& eventsAndErrorsMask = 0 then s
    else
      { s with
        hsts := s.hsts.read
        call := some s.hsts.status }
  | some hsts =>
    { s with
      hsts := (s.hsts.clear (hsts &&& eventsAndErrorsMask &&& ~~~dataMask)).report (hstsTells hsts)
      call := none }

inductive Action
  | raise (bits : BitVec 32)
  | access

def effect (s : HstsSlot) : Action → HstsSlot
  | .raise bits => { s with hsts := s.hsts.raise (bits &&& eventsAndErrorsMask) }
  | .access => s.access

end HstsSlot

def hstsMachine : Machine HstsSlot HstsSlot.Action :=
  .guarded (· = .start) (fun _ _ => True) HstsSlot.effect

/-- **Every event and error is told**, with the two CRC errors as one. -/
theorem hstsTells_of_read {v : BitVec 32} {i : Nat} (hv : v.getLsbD i = true)
    (hmask : eventsAndErrorsMask.getLsbD i = true) : hstsTells v i = true := by
  have hbits : ∀ j : Fin 32, eventsAndErrorsMask.getLsbD j = true →
      j.val ∈ [0, 3, 4, 5, 6, 7, 8, 9, 10] := by decide
  have hmem := hbits ⟨i, BitVec.lt_of_getLsbD hmask⟩ hmask
  rw [hstsTells, sdhcEvents_roundTrip, sdhcErrors_roundTrip]
  simp only [List.mem_cons, List.not_mem_nil, or_false] at hmem
  rcases hmem with rfl | rfl | rfl | rfl | rfl | rfl | rfl | rfl | rfl <;>
    simp [bitOf, hstsOf, Hsts.events, Hsts.errors, hv]

/-- The invariant of the status register. -/
structure HstsInv (s : HstsSlot) : Prop where
  nothingLost : ∀ i, ¬ s.hsts.Lost i
  owedBits : ∀ i, s.hsts.owed i = true → eventsAndErrorsMask.getLsbD i = true
  takenBits : ∀ i, s.hsts.taken i = true → eventsAndErrorsMask.getLsbD i = true
  call :
    match s.call with
    | none => ∀ i, s.hsts.taken i = false
    | some hsts => s.hsts.Held hsts ∧ s.hsts.TakenOf hsts

theorem hstsInv_raise {s : HstsSlot} (h : HstsInv s) (bits : BitVec 32) :
    HstsInv (s.effect (.raise bits)) := by
  have hcall := h.call
  constructor
  case nothingLost => exact fun i hi => h.nothingLost i (StatusRegister.lost_raise hi)
  case owedBits =>
    intro i hi
    rcases Bool.or_eq_true_iff.1 hi with hi | hi
    · exact h.owedBits i hi
    · simp only [BitVec.getLsbD_and, Bool.and_eq_true] at hi
      exact hi.1.2
  case takenBits => exact h.takenBits
  case call =>
    show match s.call with
      | none => _
      | some hsts => _
    cases hc : s.call with
    | none =>
      rw [hc] at hcall
      exact hcall
    | some hsts =>
      rw [hc] at hcall
      exact ⟨hcall.1.raise, hcall.2⟩

theorem hstsInv_access {s : HstsSlot} (h : HstsInv s) : HstsInv s.access := by
  have hcall := h.call
  unfold HstsSlot.access
  cases hc : s.call with
  | none =>
    rw [hc] at hcall
    dsimp only
    split_ifs
    · exact h
    · constructor
      case nothingLost => exact fun i hi => h.nothingLost i (StatusRegister.lost_read hi)
      case owedBits => exact fun i hi => h.owedBits i (Bool.and_eq_true_iff.1 hi).1
      case takenBits =>
        intro i hi
        simp only [StatusRegister.read, hcall i, Bool.false_or, Bool.and_eq_true] at hi
        exact h.owedBits i hi.1
      case call => exact ⟨s.hsts.held_read, StatusRegister.takenOf_read hcall⟩
  | some hsts =>
    rw [hc] at hcall
    obtain ⟨hheld, htaken⟩ := hcall
    constructor
    case nothingLost =>
      intro i hi
      rcases StatusRegister.lost_report hi with hlost | ⟨hi, htold⟩
      · refine h.nothingLost i (hheld.lost_clear (fun hbit => ?_) hlost)
        simp only [BitVec.getLsbD_and, Bool.and_eq_true] at hbit
        exact hbit.1.1
      · rw [hstsTells_of_read (htaken i hi) (h.takenBits i hi)] at htold
        cases htold
    case owedBits =>
      intro i hi
      rcases Bool.or_eq_true_iff.1 hi with hi | hi
      · exact h.owedBits i hi
      · exact h.takenBits i (Bool.and_eq_true_iff.1 hi).1
    case takenBits => exact fun i hi => absurd hi Bool.false_ne_true
    case call => exact fun _ => rfl

theorem hstsInv_reachable {s : HstsSlot} (h : hstsMachine.Reachable s) : HstsInv s := by
  refine h.inv_guarded ?_ ?_
  · rintro s rfl
    exact ⟨fun i => StatusRegister.not_lost_start, fun i hi => absurd hi Bool.false_ne_true,
      fun i hi => absurd hi Bool.false_ne_true, fun i => rfl⟩
  · intro s a hs _ _
    cases a with
    | raise bits => exact hstsInv_raise hs bits
    | access => exact hstsInv_access hs

end Rpisdhc

/-! ## The three drivers -/

/-- **What is lost**: events that a driver drops, and errors that are set between the read and the
clear of the errors. Whatever the routine has read it has told when it returns. -/
theorem only_excused_lost :
    (∀ d s, (slotMachine d).Reachable s →
      (∀ i, s.normal.Lost i → d.Drops i) ∧ (∀ i, s.error.Lost i → s.raced i = true) ∧
        (s.call = .idle → ∀ i, s.normal.taken i = false ∧ s.error.taken i = false)) ∧
      ∀ s, hstsMachine.Reachable s →
        (∀ i, ¬ s.hsts.Lost i) ∧ (s.call = none → ∀ i, s.hsts.taken i = false) := by
  constructor
  · intro d s hs
    have h := slotInv_reachable hs
    refine ⟨h.normalLost, h.errorLost, fun hidle i => ?_⟩
    have hcall := h.call
    rw [hidle] at hcall
    exact ⟨hcall.1 i, hcall.2 i⟩
  · intro s hs
    have h := hstsInv_reachable hs
    refine ⟨h.nothingLost, fun hidle => ?_⟩
    have hcall := h.call
    rw [hidle] at hcall
    exact hcall

/-- A command is told, and the transfer that completes meanwhile is still pending. -/
theorem only_excused_lost_transfer :
    ∃ s, (slotMachine .brcme88c).Reachable s ∧ (s.call = .idle ∧ s.normal.status = 0x0002) ∧
      ∀ i, ¬ s.normal.Lost i := by
  obtain ⟨s, hs, hp⟩ := (slotMachine .brcme88c).reach_exec_any (s := .start)
    [SlotAction.raise 0x0001 0, .access, .raise 0x0002 0, .access]
    (p := fun s => s.call = .idle ∧ s.normal.status = 0x0002) rfl (by decide +kernel)
  refine ⟨s, hs, by simpa using hp, fun i hi => ?_⟩
  exact Driver.noConfusion ((only_excused_lost.1 _ _ hs).1 i hi).1

/-- `bcm2836sdhc` clears a card that is inserted without a word, and `brcme88c` clears a CRC error
that comes after it has read a time-out. -/
theorem event_dropped_error_cleared :
    (∃ s, (slotMachine .bcm2836sdhc).Reachable s ∧ s.call = .idle ∧ s.normal.Lost 6) ∧
      ∃ s, (slotMachine .brcme88c).Reachable s ∧ s.call = .idle ∧ s.error.Lost 1 := by
  constructor
  · obtain ⟨s, hs, hp⟩ := (slotMachine .bcm2836sdhc).reach_exec_any (s := .start)
      [SlotAction.raise 0x0040 0, .access, .access]
      (p := fun s => s.call = .idle ∧ s.normal.Lost 6) rfl (by decide +kernel)
    exact ⟨s, hs, of_decide_eq_true hp⟩
  · obtain ⟨s, hs, hp⟩ := (slotMachine .brcme88c).reach_exec_any (s := .start)
      [SlotAction.raise 0 0x0001, .access, .access, .raise 0 0x0002, .access, .access]
      (p := fun s => s.call = .idle ∧ s.error.Lost 1) rfl (by decide +kernel)
    exact ⟨s, hs, of_decide_eq_true hp⟩

end RpiDrivers.SdInterrupts
