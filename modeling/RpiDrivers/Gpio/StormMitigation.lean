import RpiDrivers.Gpio.PinMode
import RpiDrivers.Lib.BitScan

/-!
# The mitigation of interrupt storms (`BcmGpio.cpp`)

Each interrupt of a pin lets its watchdog run down by one, and the DPC winds all of them up again.
When a watchdog has run down, the interrupt takes its pin from `enabledMask` to `disabledMask`; the
DPC takes it on to `pendingReenableMask` and starts a timer, which takes it back.

- `bankMachine`: the interrupt, its DPC, the timer and the requests of the class extension on one
  bank, by the sections that hold its interrupt lock.
- `StormSound`: each pin that a client has enabled is in one of the masks, and no other pin is; the
  registers are the shadows under `enabledMask`; disabled pins have a DPC to come, and pending
  ones a timer; the scan visits the events; no watchdog runs below zero; no assertion fails.
- `Regular`: the condition. `stormSound_of_regular`: **runs that meet it are sound**.
- `preProcess_accounted_iff`: **exactly when an interrupt accounts for its events**: not when the
  top bit is set.
-/

namespace RpiDrivers.Gpio.Storm

open RpiDrivers.Lib

/-! ## Registers -/

/-- `WATCHDOG_RESET` -/
def watchdogReset : Nat := 10

/-- `KINTERRUPT_MODE` -/
inductive InterruptMode
  | levelSensitive
  | latched
  deriving DecidableEq

/-- `KINTERRUPT_POLARITY`; rising edges are as active high, falling ones as active low. -/
inductive InterruptPolarity
  | unknown
  | activeHigh
  | activeLow
  | activeBoth
  deriving DecidableEq

/-- The polarities that the two modes have a register for. -/
def InterruptPolarity.hasRegister (polarity : InterruptPolarity) : Bool :=
  polarity == .activeHigh || polarity == .activeLow

/-- `_INTERRUPT_REGISTERS` -/
structure InterruptRegisters where
  gphen : BitVec 32
  gplen : BitVec 32
  gparen : BitVec 32
  gpafen : BitVec 32
  deriving DecidableEq

namespace InterruptRegisters

def zero : InterruptRegisters := ⟨0, 0, 0, 0⟩

/-- `Add` -/
def add (r : InterruptRegisters) (mask : BitVec 32) (mode : InterruptMode)
    (polarity : InterruptPolarity) : InterruptRegisters :=
  match mode, polarity with
  | .levelSensitive, .activeHigh => { r with gphen := r.gphen ||| mask }
  | .levelSensitive, .activeLow => { r with gplen := r.gplen ||| mask }
  | .latched, .activeHigh => { r with gparen := r.gparen ||| mask }
  | .latched, .activeLow => { r with gpafen := r.gpafen ||| mask }
  -- an assertion fails: there is no register
  | _, _ => r

/-- `Remove` -/
def remove (r : InterruptRegisters) (mask : BitVec 32) : InterruptRegisters :=
  ⟨r.gphen &&& ~~~mask, r.gplen &&& ~~~mask, r.gparen &&& ~~~mask, r.gpafen &&& ~~~mask⟩

/-- The pins of a mask. -/
def restrict (r : InterruptRegisters) (mask : BitVec 32) : InterruptRegisters :=
  ⟨r.gphen &&& mask, r.gplen &&& mask, r.gparen &&& mask, r.gpafen &&& mask⟩

end InterruptRegisters

/-! ## A bank -/

/-- The event status that an interrupt has read, and the bits that its scan has visited; `none` when
the scan has shifted by 32. -/
structure Scan where
  changedMask : BitVec 32
  visited : Option (List Nat)

/-- `_INTERRUPT_CONTEXT` of a bank, its registers, its DPC and its timer. -/
structure Bank where
  enabledMask : BitVec 32
  disabledMask : BitVec 32
  pendingReenableMask : BitVec 32
  registers : InterruptRegisters
  /-- what has been written to the registers last -/
  hw : InterruptRegisters
  /-- of 8 bits -/
  watchdogCount : Nat → Nat
  /-- no watchdog at 0 has been decremented -/
  counted : Bool
  /-- no assertion of `EnableInterrupt` and `Add` has failed -/
  asserted : Bool
  dpcQueued : Bool
  /-- the DPCs that run, before they take the lock -/
  dpcs : Nat
  /-- those that are about to start the timer -/
  starting : Nat
  timerQueued : Bool
  /-- the callbacks of the timer that run, before they take the lock -/
  timers : Nat
  /-- the pins that are enabled by their clients -/
  clients : BitVec 32
  scans : List Scan

/-- What the loop over the events leaves. -/
structure Accounting where
  watchdogCount : Nat → Nat
  disableMask : BitVec 32
  counted : Bool

/-- The loop of `PreProcessControllerInterrupt`, over the bits that it visits. -/
def account (watchdogCount : Nat → Nat) : List Nat → Accounting
  | [] => ⟨watchdogCount, 0, true⟩
  | i :: is =>
    let count := (watchdogCount i + 255) % 256
    let rest := account (Function.update watchdogCount i count) is
    { rest with
      disableMask := if count = 0 then rest.disableMask ||| BitVec.twoPow 32 i else rest.disableMask
      counted := decide (watchdogCount i ≠ 0) && rest.counted }

namespace Bank

variable (s : Bank)

def start : Bank where
  enabledMask := 0
  disabledMask := 0
  pendingReenableMask := 0
  registers := .zero
  hw := .zero
  watchdogCount := fun _ => watchdogReset
  counted := true
  asserted := true
  dpcQueued := false
  dpcs := 0
  starting := 0
  timerQueued := false
  timers := 0
  clients := 0
  scans := []

/-- A scan that was carried out to its end. -/
def withScan (changedMask : BitVec 32) (visited : List Nat) : Bank :=
  { s with scans := ⟨changedMask, some visited⟩ :: s.scans }

/-- `programInterruptRegisters` -/
def program : Bank := { s with hw := s.registers.restrict s.enabledMask }

/-- The interrupts of a mask go from the enabled list to the disabled list. -/
def disablePins (disableMask : BitVec 32) : Bank :=
  if disableMask ≠ 0 then
    program
      { s with
        enabledMask := s.enabledMask &&& ~~~disableMask
        disabledMask := s.disabledMask ||| disableMask }
  else s

/-- The watchdogs, and `WdfDpcEnqueue`. -/
def finishScan (a : Accounting) : Bank :=
  { s with watchdogCount := a.watchdogCount, counted := s.counted && a.counted, dpcQueued := true }

/-- `PreProcessControllerInterrupt`. When the scan shifts by 32, what comes after it is not
defined. -/
def preProcess (changedMask : BitVec 32) : Bank :=
  match bitScan changedMask with
  | none => { s with scans := ⟨changedMask, none⟩ :: s.scans }
  | some bits =>
    let a := account s.watchdogCount bits
    ((s.withScan changedMask bits).disablePins a.disableMask).finishScan a

/-- `evtDpcFunc`, while it holds the lock. -/
def dpcFunc : Bank :=
  { s with
    disabledMask := 0
    pendingReenableMask := s.pendingReenableMask ||| s.disabledMask
    watchdogCount := fun _ => watchdogReset
    dpcs := s.dpcs - 1
    starting := if s.disabledMask ≠ 0 then s.starting + 1 else s.starting }

/-- `evtReenableInterruptTimerFunc` -/
def reenable : Bank :=
  program
    { s with
      enabledMask := s.enabledMask ||| s.pendingReenableMask
      pendingReenableMask := 0
      timers := s.timers - 1 }

/-- `EnableInterrupt`, with what `gpfsel` has for the pin when it is open for I/O -/
def enableInterrupt (pinNumber : Nat) (ioFunction : Option (BitVec 32)) (mode : InterruptMode)
    (polarity : InterruptPolarity) : Bank :=
  let mask := BitVec.twoPow 32 pinNumber
  program
    { s with
      asserted := s.asserted && s.clients &&& mask == 0 &&
        ioFunction.all (· == bcmGpioFunctionInput) && s.enabledMask &&& mask == 0 &&
        s.disabledMask &&& mask == 0 && s.pendingReenableMask &&& mask == 0 &&
        polarity.hasRegister
      registers := s.registers.add mask mode polarity
      enabledMask := s.enabledMask ||| mask
      clients := s.clients ||| mask }

/-- `DisableInterrupt` -/
def disableInterrupt (pinNumber : Nat) : Bank :=
  let mask := BitVec.twoPow 32 pinNumber
  program
    { s with
      enabledMask := s.enabledMask &&& ~~~mask
      disabledMask := s.disabledMask &&& ~~~mask
      pendingReenableMask := s.pendingReenableMask &&& ~~~mask
      registers := s.registers.remove mask
      clients := s.clients &&& ~~~mask }

/-- `MaskInterrupts` -/
def maskInterrupts (pinMask : BitVec 32) : Bank :=
  program { s with registers := s.registers.remove pinMask }

/-- `UnmaskInterrupt` -/
def unmaskInterrupt (pinNumber : Nat) (mode : InterruptMode) (polarity : InterruptPolarity) :
    Bank :=
  program
    { s with
      asserted := s.asserted && polarity.hasRegister
      registers := s.registers.add (BitVec.twoPow 32 pinNumber) mode polarity }

end Bank

/-! ## The machine -/

inductive Action
  | preProcess (changedMask : BitVec 32)
  /-- the DPC begins to run -/
  | dpc
  | dpcFunc
  /-- `WdfTimerStart` -/
  | startTimer
  /-- the timer fires -/
  | timer
  | reenable
  | enableInterrupt (pinNumber : Nat) (ioFunction : Option (BitVec 32)) (mode : InterruptMode)
      (polarity : InterruptPolarity)
  | disableInterrupt (pinNumber : Nat)
  | maskInterrupts (pinMask : BitVec 32)
  | unmaskInterrupt (pinNumber : Nat) (mode : InterruptMode) (polarity : InterruptPolarity)

namespace Bank

/-- When a step can happen. -/
def enabled (s : Bank) : Action → Prop
  | .dpc => s.dpcQueued = true
  | .dpcFunc => 0 < s.dpcs
  | .startTimer => 0 < s.starting
  | .timer => s.timerQueued = true
  | .reenable => 0 < s.timers
  | _ => True

instance : ∀ (s : Bank) (a : Action), Decidable (s.enabled a)
  | _, .dpc | _, .timer => inferInstanceAs (Decidable (_ = _))
  | _, .dpcFunc | _, .startTimer | _, .reenable => inferInstanceAs (Decidable (_ < _))
  | _, .preProcess _ | _, .enableInterrupt .. | _, .disableInterrupt _ | _, .maskInterrupts _
  | _, .unmaskInterrupt .. => inferInstanceAs (Decidable True)

def effect (s : Bank) : Action → Bank
  | .preProcess changedMask => s.preProcess changedMask
  | .dpc => { s with dpcQueued := false, dpcs := s.dpcs + 1 }
  | .dpcFunc => s.dpcFunc
  | .startTimer => { s with starting := s.starting - 1, timerQueued := true }
  | .timer => { s with timerQueued := false, timers := s.timers + 1 }
  | .reenable => s.reenable
  | .enableInterrupt pinNumber ioFunction mode polarity =>
    s.enableInterrupt pinNumber ioFunction mode polarity
  | .disableInterrupt pinNumber => s.disableInterrupt pinNumber
  | .maskInterrupts pinMask => s.maskInterrupts pinMask
  | .unmaskInterrupt pinNumber mode polarity => s.unmaskInterrupt pinNumber mode polarity

end Bank

/-- All interleavings. -/
def bankMachine : Machine Bank Action :=
  Machine.guarded (· = Bank.start) Bank.enabled Bank.effect

/-! ## The property and the condition -/

/-- A pin that its client has enabled is in one of the masks, and in no other; a pin that it has not
is in none. -/
def Placed (client enabled disabled pending : Bool) : Prop :=
  (enabled || disabled || pending) = client ∧ (enabled && disabled) = false ∧
    (enabled && pending) = false ∧ (disabled && pending) = false

instance (client enabled disabled pending : Bool) :
    Decidable (Placed client enabled disabled pending) :=
  inferInstanceAs (Decidable (_ ∧ _ ∧ _ ∧ _))

/-- The masks, the registers, what is still to come, the scans and the watchdogs. -/
structure StormSound (s : Bank) : Prop where
  masks : ∀ i < 32, Placed (s.clients.getLsbD i) (s.enabledMask.getLsbD i)
    (s.disabledMask.getLsbD i) (s.pendingReenableMask.getLsbD i)
  hw : s.hw = s.registers.restrict s.enabledMask
  dpc : s.disabledMask ≠ 0 → s.dpcQueued = true ∨ 0 < s.dpcs
  timer : s.pendingReenableMask ≠ 0 → s.timerQueued = true ∨ 0 < s.timers ∨ 0 < s.starting
  scans : ∀ r ∈ s.scans, r.visited = some (setBits r.changedMask)
  watchdogCount : ∀ i < 32, s.watchdogCount i ≤ watchdogReset
  /-- a pin whose watchdog has run down is not enabled, and not about to be -/
  armed : ∀ i < 32, s.enabledMask.getLsbD i = true ∨ s.pendingReenableMask.getLsbD i = true →
    s.watchdogCount i ≠ 0
  counted : s.counted = true
  asserted : s.asserted = true

/-- The events are of pins that are enabled, and not of the top one. A client enables a pin that it
has not enabled, whose watchdog has not run down, and which is an input when it is open for I/O. An
interrupt has a polarity with a register. -/
def Regular (s : Bank) : Action → Prop
  | .preProcess changedMask =>
    changedMask.getLsbD 31 = false ∧
      ∀ i < 32, changedMask.getLsbD i = true → s.enabledMask.getLsbD i = true
  | .enableInterrupt pinNumber ioFunction _ polarity =>
    s.clients.getLsbD pinNumber = false ∧ s.watchdogCount pinNumber ≠ 0 ∧
      ioFunction.all (· == bcmGpioFunctionInput) = true ∧ polarity.hasRegister = true
  | .unmaskInterrupt _ _ polarity => polarity.hasRegister = true
  | _ => True

instance : ∀ (s : Bank) (a : Action), Decidable (Regular s a)
  | _, .preProcess _ => inferInstanceAs (Decidable (_ ∧ ∀ _, _))
  | _, .enableInterrupt .. => inferInstanceAs (Decidable (_ ∧ _))
  | _, .unmaskInterrupt .. => inferInstanceAs (Decidable (_ = _))
  | _, .dpc | _, .dpcFunc | _, .startTimer | _, .timer | _, .reenable | _, .disableInterrupt _
  | _, .maskInterrupts _ => inferInstanceAs (Decidable True)

/-! ## The scan -/

/-- **The scan visits the events exactly when the top bit is clear**: behind it, it would shift by
32. -/
theorem bitScan_iff (changedMask : BitVec 32) :
    bitScan changedMask = some (setBits changedMask) ↔ changedMask.getLsbD 31 = false := by
  rw [bitScan_eq (by decide)]
  cases changedMask.getLsbD 31 with
  | false => exact ⟨fun _ => rfl, fun _ => rfl⟩
  | true => exact ⟨(fun h => nomatch h), (fun h => nomatch h)⟩

theorem mem_setBits {m : BitVec 32} {i : Nat} :
    i ∈ setBits m ↔ i < 32 ∧ m.getLsbD i = true := by
  rw [setBits, List.mem_filter, List.mem_range]

theorem nodup_setBits (m : BitVec 32) : (setBits m).Nodup := List.nodup_range.filter _

/-! ### The watchdogs -/

/-- Each watchdog that is visited runs down by one. -/
theorem watchdogCount_account {bits : List Nat} (hnodup : bits.Nodup) (count : Nat → Nat)
    (i : Nat) : (account count bits).watchdogCount i =
      if i ∈ bits then (count i + 255) % 256 else count i := by
  induction bits generalizing count with
  | nil => rfl
  | cons j js ih =>
    obtain ⟨hj, hjs⟩ := List.nodup_cons.1 hnodup
    show (account (Function.update count j _) js).watchdogCount i = _
    rw [ih hjs]
    by_cases heq : i = j
    · subst heq
      rw [if_neg hj, Function.update_self, if_pos List.mem_cons_self]
    · rw [Function.update_of_ne heq]
      simp [heq]

theorem disableMask_account {bits : List Nat} (hnodup : bits.Nodup) (count : Nat → Nat) {i : Nat}
    (hi : i < 32) : (account count bits).disableMask.getLsbD i = true ↔
      i ∈ bits ∧ (count i + 255) % 256 = 0 := by
  induction bits generalizing count with
  | nil => simp [account]
  | cons j js ih =>
    obtain ⟨hj, hjs⟩ := List.nodup_cons.1 hnodup
    have hrest := ih hjs (Function.update count j ((count j + 255) % 256))
    have hcons : (account count (j :: js)).disableMask.getLsbD i = true ↔
        (i = j ∧ (count j + 255) % 256 = 0) ∨
          (account (Function.update count j ((count j + 255) % 256)) js).disableMask.getLsbD i =
            true := by
      rw [account]
      dsimp only
      split_ifs with hzero
      · have hbit : (decide (j < 32) && decide (j = i)) = true ↔ i = j := by
          rw [Bool.and_eq_true, decide_eq_true_iff, decide_eq_true_iff]
          constructor
          · rintro ⟨-, rfl⟩
            rfl
          · rintro rfl
            exact ⟨hi, rfl⟩
        rw [BitVec.getLsbD_or, BitVec.getLsbD_twoPow, Bool.or_eq_true, hbit, or_comm]
        simp only [hzero, and_true]
      · simp [hzero]
    rw [hcons, hrest]
    by_cases heq : i = j
    · subst heq
      simp [hj]
    · rw [Function.update_of_ne heq]
      simp [heq]

theorem counted_account {bits : List Nat} (hnodup : bits.Nodup) {count : Nat → Nat}
    (hcount : ∀ i ∈ bits, count i ≠ 0) : (account count bits).counted = true := by
  induction bits generalizing count with
  | nil => rfl
  | cons j js ih =>
    obtain ⟨hj, hjs⟩ := List.nodup_cons.1 hnodup
    rw [account, Bool.and_eq_true, decide_eq_true_iff]
    refine ⟨hcount j List.mem_cons_self, ih hjs fun i hi => ?_⟩
    have hne : i ≠ j := fun heq => hj (heq ▸ hi)
    rw [Function.update_of_ne hne]
    exact hcount i (List.mem_cons_of_mem _ hi)

/-! ## The masks -/

namespace Placed

variable {client enabled disabled pending : Bool}

/-- The interrupt disables a pin. -/
theorem disablePin (h : Placed client enabled disabled pending) {m : Bool}
    (hm : m = true → enabled = true ∨ disabled = true) :
    Placed client (enabled && !m) (disabled || m) pending := by
  revert client enabled disabled pending m
  decide

/-- The DPC. -/
theorem pend (h : Placed client enabled disabled pending) :
    Placed client enabled false (pending || disabled) := by
  revert client enabled disabled pending
  decide

/-- The timer. -/
theorem reenable (h : Placed client enabled disabled pending) :
    Placed client (enabled || pending) disabled false := by
  revert client enabled disabled pending
  decide

/-- A client enables a pin. -/
theorem enable (h : Placed client enabled disabled pending) {m : Bool}
    (hm : m = true → disabled = false ∧ pending = false) :
    Placed (client || m) (enabled || m) disabled pending := by
  revert client enabled disabled pending m
  decide

/-- A client disables a pin. -/
theorem disable (h : Placed client enabled disabled pending) (m : Bool) :
    Placed (client && !m) (enabled && !m) (disabled && !m) (pending && !m) := by
  revert client enabled disabled pending m
  decide

end Placed

namespace Bank

variable {s : Bank}

/-- Interrupts that are disabled, when the registers are what the shadows say. -/
theorem disablePins_eq (hhw : s.hw = s.registers.restrict s.enabledMask) (m : BitVec 32) :
    s.disablePins m =
      program
        { s with enabledMask := s.enabledMask &&& ~~~m, disabledMask := s.disabledMask ||| m } := by
  rw [disablePins]
  split_ifs with hm
  · rfl
  · have hzero : m = 0 := not_not.1 hm
    have hall : s.enabledMask &&& ~~~(0 : BitVec 32) = s.enabledMask := BitVec.and_allOnes
    have hnone : s.disabledMask ||| (0 : BitVec 32) = s.disabledMask := BitVec.or_zero
    rw [hzero, hall, hnone, program]
    exact congrArg (fun hw => { s with hw := hw }) hhw

end Bank

/-- A pin that is in none of the masks. -/
theorem and_twoPow_beq {m : BitVec 32} {i : Nat} (h : m.getLsbD i = false) :
    (m &&& BitVec.twoPow 32 i == 0) = true := by
  rw [BitVec.and_twoPow, h]
  rfl

theorem getLsbD_of_and_not {m n : BitVec 32} {i : Nat} (h : (m &&& ~~~n).getLsbD i = true) :
    m.getLsbD i = true := by
  rw [BitVec.getLsbD_and] at h
  exact (Bool.and_eq_true_iff.1 h).1

namespace StormSound

variable {s : Bank}

/-- The assertions of `EnableInterrupt`. -/
theorem not_masked (h : StormSound s) {i : Nat} (hclient : s.clients.getLsbD i = false) :
    s.enabledMask.getLsbD i = false ∧ s.disabledMask.getLsbD i = false ∧
      s.pendingReenableMask.getLsbD i = false := by
  by_cases hi : i < 32
  · obtain ⟨hany, -⟩ := h.masks i hi
    rw [hclient, Bool.or_eq_false_iff, Bool.or_eq_false_iff] at hany
    exact ⟨hany.1.1, hany.1.2, hany.2⟩
  · have hge := Nat.le_of_not_lt hi
    exact ⟨BitVec.getLsbD_of_ge _ _ hge, BitVec.getLsbD_of_ge _ _ hge,
      BitVec.getLsbD_of_ge _ _ hge⟩

theorem start : StormSound .start where
  masks := by decide
  hw := by decide
  dpc := fun h => absurd rfl h
  timer := fun h => absurd rfl h
  scans := by simp [Bank.start]
  watchdogCount := fun _ _ => Nat.le_refl _
  armed := fun _ _ _ => show watchdogReset ≠ 0 by decide
  counted := rfl
  asserted := rfl

theorem preProcess (h : StormSound s) {changedMask : BitVec 32}
    (hreg : Regular s (.preProcess changedMask)) : StormSound (s.preProcess changedMask) := by
  have hscan := (bitScan_iff changedMask).2 hreg.1
  have hnodup := nodup_setBits changedMask
  have hrun : s.preProcess changedMask =
      ((s.withScan changedMask (setBits changedMask)).disablePins
        (account s.watchdogCount (setBits changedMask)).disableMask).finishScan
          (account s.watchdogCount (setBits changedMask)) := by
    rw [Bank.preProcess, hscan]
  have hhw : (s.withScan changedMask (setBits changedMask)).hw = _ := h.hw
  rw [hrun, Bank.disablePins_eq hhw]
  -- the watchdogs of the events are those of enabled pins
  have harmed : ∀ i ∈ setBits changedMask,
      s.enabledMask.getLsbD i = true ∧ s.watchdogCount i ≠ 0 := by
    intro i hmem
    obtain ⟨hi, hset⟩ := mem_setBits.1 hmem
    have hen := hreg.2 i hi hset
    exact ⟨hen, h.armed i hi (.inl hen)⟩
  have hdisable : ∀ i < 32,
      (account s.watchdogCount (setBits changedMask)).disableMask.getLsbD i = true →
        s.enabledMask.getLsbD i = true := by
    intro i hi hset
    exact (harmed i ((disableMask_account hnodup s.watchdogCount hi).1 hset).1).1
  exact {
    masks := by
      intro i hi
      have hplaced := (h.masks i hi).disablePin fun hset => .inl (hdisable i hi hset)
      simpa [Bank.program, Bank.withScan, Bank.finishScan, hi] using hplaced
    hw := rfl
    dpc := fun _ => .inl rfl
    timer := h.timer
    scans := by
      rintro r (_ | ⟨_, hr⟩)
      · rfl
      · exact h.scans r hr
    watchdogCount := by
      intro i hi
      have hle := h.watchdogCount i hi
      show (account s.watchdogCount (setBits changedMask)).watchdogCount i ≤ _
      rw [watchdogCount_account hnodup]
      split_ifs with hmem
      · obtain ⟨-, hne⟩ := harmed i hmem
        have hten : s.watchdogCount i ≤ 10 := hle
        show (s.watchdogCount i + 255) % 256 ≤ 10
        omega
      · exact hle
    armed := by
      intro i hi hplace
      show (account s.watchdogCount (setBits changedMask)).watchdogCount i ≠ 0
      have hbit := disableMask_account hnodup s.watchdogCount hi
      rw [watchdogCount_account hnodup]
      split_ifs with hmem
      · intro hzero
        -- a pin whose watchdog runs down is taken out, and it is not pending
        have hset := hbit.2 ⟨hmem, hzero⟩
        obtain ⟨hen, -⟩ := harmed i hmem
        obtain ⟨-, -, hpending, -⟩ := h.masks i hi
        rcases hplace with hplace | hplace
        · simp [Bank.program, Bank.withScan, Bank.finishScan, hset] at hplace
        · have hpend : s.pendingReenableMask.getLsbD i = true := hplace
          rw [hen, hpend] at hpending
          cases hpending
      · refine h.armed i hi ?_
        rcases hplace with hplace | hplace
        · exact .inl (getLsbD_of_and_not hplace)
        · exact .inr hplace
    counted := by
      have hcounted : (account s.watchdogCount (setBits changedMask)).counted = true :=
        counted_account hnodup fun i hmem => (harmed i hmem).2
      show (s.counted && _) = true
      rw [h.counted, hcounted]
      rfl
    asserted := h.asserted }

theorem dpcFunc (h : StormSound s) : StormSound s.dpcFunc where
  masks i hi := by
    have hplaced := (h.masks i hi).pend
    simpa [Bank.dpcFunc] using hplaced
  hw := h.hw
  dpc hne := absurd rfl hne
  timer hne := by
    by_cases hdisabled : s.disabledMask = 0
    · have hpending : s.pendingReenableMask ≠ 0 := by
        intro hzero
        exact hne (by simp [Bank.dpcFunc, hzero, hdisabled])
      have hstarting : s.dpcFunc.starting = s.starting := if_neg (not_not.2 hdisabled)
      rw [hstarting]
      exact h.timer hpending
    · have hstarting : s.dpcFunc.starting = s.starting + 1 := if_pos hdisabled
      rw [hstarting]
      exact .inr (.inr (Nat.succ_pos _))
  scans := h.scans
  watchdogCount _ _ := Nat.le_refl _
  armed _ _ _ := show watchdogReset ≠ 0 by decide
  counted := h.counted
  asserted := h.asserted

theorem reenable (h : StormSound s) : StormSound s.reenable where
  masks i hi := by
    have hplaced := (h.masks i hi).reenable
    simpa [Bank.reenable, Bank.program] using hplaced
  hw := rfl
  dpc := h.dpc
  timer hne := absurd rfl hne
  scans := h.scans
  watchdogCount := h.watchdogCount
  armed i hi hplace := by
    refine h.armed i hi ?_
    rcases hplace with hplace | hplace
    · have hboth : (s.enabledMask.getLsbD i || s.pendingReenableMask.getLsbD i) = true := by
        simpa [Bank.reenable, Bank.program] using hplace
      exact Bool.or_eq_true_iff.1 hboth
    · have hzero : (0#32).getLsbD i = true := hplace
      rw [BitVec.getLsbD_zero] at hzero
      cases hzero
  counted := h.counted
  asserted := h.asserted

theorem enableInterrupt (h : StormSound s) {pinNumber : Nat} {ioFunction : Option (BitVec 32)}
    {mode : InterruptMode} {polarity : InterruptPolarity}
    (hreg : Regular s (.enableInterrupt pinNumber ioFunction mode polarity)) :
    StormSound (s.enableInterrupt pinNumber ioFunction mode polarity) where
  masks i hi := by
    have hplaced := (h.masks i hi).enable (m := decide (pinNumber = i)) (by
      intro hpin
      obtain rfl := of_decide_eq_true hpin
      exact (h.not_masked hreg.1).2)
    simpa [Bank.enableInterrupt, Bank.program, BitVec.getLsbD_twoPow, hi, eq_comm] using hplaced
  hw := rfl
  dpc := h.dpc
  timer := h.timer
  scans := h.scans
  watchdogCount := h.watchdogCount
  armed i hi hplace := by
    by_cases hpin : i = pinNumber
    · subst hpin
      exact hreg.2.1
    · refine h.armed i hi (hplace.imp_left fun hset => ?_)
      simpa [Bank.enableInterrupt, Bank.program, BitVec.getLsbD_twoPow, Ne.symm hpin] using hset
  counted := h.counted
  asserted := by
    obtain ⟨hen, hdisabled, hpending⟩ := h.not_masked hreg.1
    rw [Bank.enableInterrupt, Bank.program]
    dsimp only
    rw [h.asserted, and_twoPow_beq hreg.1, hreg.2.2.1, and_twoPow_beq hen,
      and_twoPow_beq hdisabled, and_twoPow_beq hpending, hreg.2.2.2]
    rfl

theorem disableInterrupt (h : StormSound s) (pinNumber : Nat) :
    StormSound (s.disableInterrupt pinNumber) where
  masks i hi := by
    have hplaced := (h.masks i hi).disable (decide (pinNumber = i))
    simpa [Bank.disableInterrupt, Bank.program, BitVec.getLsbD_twoPow, hi, eq_comm] using hplaced
  hw := rfl
  dpc hne := h.dpc fun hzero => hne (by simp [Bank.disableInterrupt, Bank.program, hzero])
  timer hne := h.timer fun hzero => hne (by simp [Bank.disableInterrupt, Bank.program, hzero])
  scans := h.scans
  watchdogCount := h.watchdogCount
  armed i hi hplace := by
    exact h.armed i hi (hplace.imp getLsbD_of_and_not getLsbD_of_and_not)
  counted := h.counted
  asserted := h.asserted

/-- **A step that meets the condition keeps a bank sound.** -/
theorem effect (h : StormSound s) {a : Action} (hreg : Regular s a) (hen : s.enabled a) :
    StormSound (s.effect a) := by
  cases a with
  | preProcess changedMask => exact h.preProcess hreg
  | dpc => exact { h with dpc := fun _ => .inr (Nat.succ_pos _) }
  | dpcFunc => exact h.dpcFunc
  | startTimer => exact { h with timer := fun _ => .inl rfl }
  | timer => exact { h with timer := fun _ => .inr (.inl (Nat.succ_pos _)) }
  | reenable => exact h.reenable
  | enableInterrupt => exact h.enableInterrupt hreg
  | disableInterrupt pinNumber => exact h.disableInterrupt pinNumber
  | maskInterrupts pinMask => exact { h with hw := rfl }
  | unmaskInterrupt pinNumber mode polarity =>
    exact { h with
      hw := rfl
      asserted := Bool.and_eq_true_iff.2 ⟨h.asserted, hreg⟩ }

end StormSound

/-! ## Runs -/

/-- **Every run that meets the condition is sound** in all its states. -/
theorem stormSound_of_regular {s : Bank} (h : bankMachine.Reach Regular s) : StormSound s :=
  Machine.Reach.inv_guarded (fun _ hs => hs ▸ .start)
    (fun _ _ hsound hreg hen => hsound.effect hreg hen) h

/-- A pin storms: it is disabled with its tenth interrupt, and enabled again by the timer. -/
theorem stormSound_of_regular_storm : ∃ s, StormSound s ∧
    s.clients.getLsbD 5 = true ∧ s.enabledMask.getLsbD 5 = true ∧ s.scans.length = 10 := by
  obtain ⟨s, hr, hs⟩ := Machine.reach_execOk_any bankMachine Regular (s := Bank.start)
    (.enableInterrupt 5 (some bcmGpioFunctionInput) .latched .activeLow ::
      List.replicate 10 (.preProcess 0x20) ++
      [.dpc, .dpcFunc, .startTimer, .timer, .reenable])
    (p := fun s => s.clients.getLsbD 5 && s.enabledMask.getLsbD 5 && s.scans.length == 10)
    rfl (by decide +kernel)
  simp only [Bool.and_eq_true, beq_iff_eq] at hs
  exact ⟨s, stormSound_of_regular hr, hs.1.1, hs.1.2, hs.2⟩

/-! ## One interrupt -/

/-- The watchdog of each event runs down by one, and the others do not. The pins whose watchdogs
have run down are no longer enabled but disabled, and the others are as they were. -/
structure Accounted (s : Bank) (changedMask : BitVec 32) (s' : Bank) : Prop where
  watchdogCount : ∀ i < 32, s'.watchdogCount i =
    if changedMask.getLsbD i then (s.watchdogCount i + 255) % 256 else s.watchdogCount i
  masks : ∀ i < 32, (s'.enabledMask.getLsbD i, s'.disabledMask.getLsbD i) =
    if changedMask.getLsbD i && (s.watchdogCount i + 255) % 256 == 0 then (false, true)
    else (s.enabledMask.getLsbD i, s.disabledMask.getLsbD i)
  dpc : s'.dpcQueued = true

/-- Bits go from one mask to the other. -/
theorem move_masks {e d m : BitVec 32} {i : Nat} (hi : i < 32) :
    ((e &&& ~~~m).getLsbD i, (d ||| m).getLsbD i) =
      if m.getLsbD i then (false, true) else (e.getLsbD i, d.getLsbD i) := by
  rw [BitVec.getLsbD_and, BitVec.getLsbD_not, BitVec.getLsbD_or]
  cases m.getLsbD i <;> simp [hi]

/-- Whether the registers are written or not, the masks are moved. -/
theorem masks_disablePins (s : Bank) (m : BitVec 32) {i : Nat} (hi : i < 32) :
    ((s.disablePins m).enabledMask.getLsbD i, (s.disablePins m).disabledMask.getLsbD i) =
      if m.getLsbD i then (false, true)
      else (s.enabledMask.getLsbD i, s.disabledMask.getLsbD i) := by
  rw [Bank.disablePins]
  by_cases hm : m = 0
  · rw [if_neg (not_not.2 hm), hm, if_neg]
    exact Bool.eq_false_iff.1 BitVec.getLsbD_zero
  · rw [if_pos hm]
    exact move_masks hi

/-- **An interrupt accounts for its events exactly when the top one is not there.** -/
theorem preProcess_accounted_iff (s : Bank) (changedMask : BitVec 32) :
    Accounted s changedMask (s.preProcess changedMask) ↔ changedMask.getLsbD 31 = false := by
  rw [← bitScan_iff, bitScan_eq (by decide)]
  cases htop : changedMask.getLsbD 31 with
  | true =>
    -- the interrupt does not get behind its scan, and the top watchdog has not run down
    have hscan : bitScan changedMask = none := by
      rw [bitScan_eq (by decide), htop]
      rfl
    refine ⟨fun h => ?_, fun h => absurd h (by simp)⟩
    have hcount := h.watchdogCount 31 (by decide)
    rw [Bank.preProcess, hscan, htop, if_pos rfl] at hcount
    dsimp only at hcount
    omega
  | false =>
    have hscan : bitScan changedMask = some (setBits changedMask) := by
      rw [bitScan_eq (by decide), htop]
      rfl
    have hnodup := nodup_setBits changedMask
    refine ⟨fun _ => by simp, fun _ => ?_⟩
    rw [Bank.preProcess, hscan]
    constructor
    · intro i hi
      show (account s.watchdogCount (setBits changedMask)).watchdogCount i = _
      rw [watchdogCount_account hnodup]
      simp [mem_setBits, hi]
    · intro i hi
      have hbit := disableMask_account hnodup s.watchdogCount hi
      have hmoved := masks_disablePins (s.withScan changedMask (setBits changedMask))
        (account s.watchdogCount (setBits changedMask)).disableMask hi
      have hiff : (account s.watchdogCount (setBits changedMask)).disableMask.getLsbD i =
          (changedMask.getLsbD i && (s.watchdogCount i + 255) % 256 == 0) := by
        rw [Bool.eq_iff_iff, hbit, mem_setBits, Bool.and_eq_true, beq_iff_eq]
        simp [hi]
      rw [hiff] at hmoved
      exact hmoved
    · rfl

end RpiDrivers.Gpio.Storm
