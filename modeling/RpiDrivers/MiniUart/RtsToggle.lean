import RpiDrivers.Lib.Machine
import RpiDrivers.Lib.Pool

/-!
# Lowering RTS after transmission (`modmflow.c`, `write.c`, `isr.c`)

With transmit toggling RTS is up while characters are sent. Once the hardware is empty it is
lowered, and as no interrupt says so a DPC starts a timer of one character time, and the timer looks
again. `CountOfTryingToLowerRTS` counts these paths, and the close waits until it is zero.

The code at interrupt level holds the interrupt lock, and the DPC and the timer run beside it: a DPC
may start before the count is raised for it.

- `routine`, `serialPerhapsLowerRTS`: what the code at interrupt level decides.
- `machine`: the paths, on so many processors.
- `Extension.paths`: the paths in flight.
- `Counted`: **the count is the number of the paths, but for the one that is being counted, and it
  has never gone below zero**.
- `count_of_paths`: **so it is in every run**.

A run ends before `SerialDrainTimersAndDpcs`, which the close calls after it has waited. The drain
is not modelled: it would stop a timer or a DPC that is left, and not lower the count for it.
-/

namespace RpiDrivers.MiniUart.RtsToggle

open RpiDrivers.Lib

/-! ## What is decided at interrupt level -/

/-- What the routines read of the extension and the line status. -/
structure Transmission where
  /-- `(FlowReplace & SERIAL_RTS_MASK) == SERIAL_TRANSMIT_TOGGLE` -/
  transmitToggle : Bool
  /-- `SERIAL_TX_BREAK` in `TXHolding` -/
  txBreak : Bool
  /-- `SERIAL_TX_XOFF` there -/
  txXoff : Bool
  /-- `SERIAL_TX_CTS`, `SERIAL_TX_DSR` and `SERIAL_TX_DCD` there -/
  txModem : Bool
  currentWriteRequest : Bool
  transmitImmediate : Bool
  writeQueueEmpty : Bool
  /-- `WriteLength` is not zero -/
  writeLength : Bool
  holdingEmpty : Bool
  emptiedTransmit : Bool
  /-- `SERIAL_EV_TXEMPTY` in `IsrWaitMask` -/
  waitsForEmpty : Bool
  /-- `SERIAL_LSR_THRE` and `SERIAL_LSR_TEMT` -/
  hardwareEmpty : Bool
  /-- `SERIAL_MCR_RTS` -/
  rts : Bool

/-- `TXHolding` -/
def Transmission.txHolding (t : Transmission) : Bool := t.txBreak || t.txXoff || t.txModem

/-- Something is left to be sent, and not held up. -/
def Transmission.writing (t : Transmission) : Bool :=
  t.currentWriteRequest || t.transmitImmediate || (!t.writeQueueEmpty && !t.txHolding)

/-- The routines at interrupt level that try to lower RTS. -/
inductive Routine
  /-- The ISR has sent something. -/
  | sent
  /-- The ISR has received or sent an XOFF, or `SerialPretendXoff` -/
  | xoff
  /-- `SerialHandleModemUpdate`, with what the modem lines say about holding -/
  | modemUpdate (txModem : Bool)
  /-- `SerialTurnOffBreak` -/
  | turnOffBreak
  /-- `SerialProcessEmptyTransmit` -/
  | processEmptyTransmit
  /-- `SerialSetupNewHandFlow`, for transmit toggling -/
  | setupToggle

/-- How a routine goes on. -/
inductive Call
  | none
  /-- `SerialInsertQueueDpc(StartTimerLowerRTSDpc)?CountOfTryingToLowerRTS++:0` -/
  | insertQueueDpc
  /-- `CountOfTryingToLowerRTS++`, `SerialPerhapsLowerRTS` -/
  | perhapsLowerRTS
  deriving DecidableEq

/-- The routines. -/
def routine (t : Transmission) : Routine → Transmission × Call
  | .sent =>
    if t.transmitToggle then ({ t with rts := true }, .insertQueueDpc) else (t, .none)
  | .xoff => ({ t with txXoff := true }, if t.transmitToggle then .insertQueueDpc else .none)
  | .modemUpdate txModem =>
    let t' := { t with txModem := txModem }
    (t', if !t.txHolding && t'.txHolding && t.transmitToggle then .insertQueueDpc else .none)
  | .turnOffBreak =>
    if t.txBreak then
      let t := { t with txBreak := false }
      if !t.txHolding && (t.transmitImmediate || t.writeLength) && t.holdingEmpty then (t, .none)
      else (t, .perhapsLowerRTS)
    else (t, .none)
  | .processEmptyTransmit =>
    if t.waitsForEmpty && t.emptiedTransmit && !t.transmitImmediate && !t.currentWriteRequest &&
        t.writeQueueEmpty then (t, .perhapsLowerRTS)
    else (t, .none)
  | .setupToggle =>
    let t := { t with transmitToggle := true }
    if t.txBreak || !t.hardwareEmpty || t.writing then ({ t with rts := true }, .none)
    else (t, .perhapsLowerRTS)

/-- `SerialPerhapsLowerRTS`, up to the count: RTS is lowered, or the DPC is to be queued. -/
def serialPerhapsLowerRTS (t : Transmission) : Transmission × Bool :=
  if t.transmitToggle then
    if t.txBreak || t.writing then (t, false)
    else if !t.hardwareEmpty then (t, true)
    else ({ t with rts := false }, false)
  else (t, false)

/-! ## The paths -/

/-- Where the code is that holds the interrupt lock. -/
inductive Phase
  /-- In the ISR, or in a routine that `WdfInterruptSynchronize` calls -/
  | running
  /-- `WdfDpcEnqueue` has returned `TRUE`, in `SerialPerhapsLowerRTS` or elsewhere. -/
  | queued (lowering : Bool)
  /-- At the beginning of `SerialPerhapsLowerRTS` -/
  | testing
  /-- At its end -/
  | ending
  deriving DecidableEq

/-- A routine at device level. -/
inductive Op
  /-- `SerialStartTimerLowerRTS`, before `SerialSetTimer` -/
  | startTimer
  /-- `SerialStartTimerLowerRTS`, when the timer was set already -/
  | collided
  /-- `SerialInvokePerhapsLowerRTS`, before `WdfInterruptSynchronize` -/
  | invoke
  deriving DecidableEq

/-- The extension, the DPC, the timer and the routines in execution. -/
structure Extension where
  countOfTryingToLowerRTS : Nat
  /-- The count has gone below zero. -/
  wrapped : Bool
  transmission : Transmission
  /-- `StartTimerLowerRTSDpc` is in the queue. -/
  dpcQueued : Bool
  /-- `LowerRTSTimer` is set. -/
  timerSet : Bool
  ops : List Op
  lock : Option Phase

namespace Extension

def raiseCount (s : Extension) : Extension :=
  { s with countOfTryingToLowerRTS := (s.countOfTryingToLowerRTS + 1) % 4294967296 }

def lowerCount (s : Extension) : Extension :=
  { s with
    countOfTryingToLowerRTS := (s.countOfTryingToLowerRTS + 4294967295) % 4294967296
    wrapped := s.wrapped || s.countOfTryingToLowerRTS == 0 }

/-- `SerialInsertQueueDpc` -/
def insertQueueDpc (s : Extension) (lowering : Bool) : Extension :=
  if s.dpcQueued then { s with lock := some (if lowering then .ending else .running) }
  else { s with dpcQueued := true, lock := some (.queued lowering) }

/-- A routine, up to what it calls. -/
def runRoutine (s : Extension) (r : Routine) : Extension :=
  let (t, call) := routine s.transmission r
  let s := { s with transmission := t }
  match call with
  | .none => s
  | .insertQueueDpc => s.insertQueueDpc false
  | .perhapsLowerRTS => { s.raiseCount with lock := some .testing }

/-- `SerialPerhapsLowerRTS`, up to the count. -/
def runTest (s : Extension) : Extension :=
  let (t, insert) := serialPerhapsLowerRTS s.transmission
  let s := { s with transmission := t }
  if insert then s.insertQueueDpc true else { s with lock := some .ending }

/-- `SerialStartTimerLowerRTS`: a timer that is set is set again, and one path is left of the
two. -/
def setTimer (s : Extension) : Extension :=
  { s with
    timerSet := true
    ops := advance s.ops .startTimer (if s.timerSet then [.collided] else []) }

end Extension

/-- What can happen. -/
inductive Event
  /-- The interrupt lock is taken. -/
  | enter
  | run (r : Routine)
  /-- `CountOfTryingToLowerRTS++`, after the DPC was queued -/
  | count (lowering : Bool)
  | test
  /-- `CountOfTryingToLowerRTS--`, at the end of `SerialPerhapsLowerRTS` -/
  | finish
  /-- The interrupt lock is released. -/
  | leave
  /-- The DPC leaves the queue and runs. -/
  | startDpc
  /-- `SerialSetTimer` -/
  | setTimer
  /-- `SerialDecrementRTSCounter` -/
  | decrement
  /-- The timer expires, and its routine runs. -/
  | expire
  /-- It has the interrupt lock, and calls `SerialPerhapsLowerRTS`. -/
  | invoke
  /-- Requests come and go, and the hardware sends. -/
  | change (t : Transmission)

/-- A routine at device level has a processor to itself. -/
def Enabled (processors : Nat) (s : Extension) : Event → Prop
  | .enter => s.lock = none
  | .run _ => s.lock = some .running
  | .count lowering => s.lock = some (.queued lowering)
  | .test => s.lock = some .testing
  | .finish => s.lock = some .ending
  | .leave => s.lock = some .running
  | .startDpc => s.dpcQueued ∧ s.ops.length < processors
  | .setTimer => .startTimer ∈ s.ops
  | .decrement => .collided ∈ s.ops ∧ s.lock = none
  | .expire => s.timerSet ∧ s.ops.length < processors
  | .invoke => .invoke ∈ s.ops ∧ s.lock = none
  | .change _ => True

instance (processors : Nat) (s : Extension) (e : Event) : Decidable (Enabled processors s e) := by
  cases e <;> unfold Enabled <;> infer_instance

def effect (s : Extension) : Event → Extension
  | .enter => { s with lock := some .running }
  | .run r => s.runRoutine r
  | .count lowering => { s.raiseCount with lock := some (if lowering then .ending else .running) }
  | .test => s.runTest
  | .finish => { s.lowerCount with lock := some .running }
  | .leave => { s with lock := none }
  | .startDpc => { s with dpcQueued := false, ops := .startTimer :: s.ops }
  | .setTimer => s.setTimer
  | .decrement => { s.lowerCount with ops := advance s.ops .collided [] }
  | .expire => { s with timerSet := false, ops := .invoke :: s.ops }
  | .invoke => { s with lock := some .testing, ops := advance s.ops .invoke [] }
  | .change t => { s with transmission := t }

/-- A device that has just started. -/
def initial (t : Transmission) : Extension where
  countOfTryingToLowerRTS := 0
  wrapped := false
  transmission := t
  dpcQueued := false
  timerSet := false
  ops := []
  lock := none

/-- The driver, on so many processors. -/
def machine (processors : Nat) : Machine Extension Event :=
  .guarded (fun s => ∃ t, s = initial t) (Enabled processors) effect

/-! ## The property -/

/-- `SerialPerhapsLowerRTS` is in execution. -/
def Phase.lowering : Phase → Bool
  | .running => false
  | .queued lowering => lowering
  | .testing => true
  | .ending => true

/-- The DPC is queued, and the count is not raised yet. -/
def Phase.due : Phase → Bool
  | .queued _ => true
  | .running | .testing | .ending => false

namespace Extension

/-- **The paths in flight**: the DPC in the queue, the timer that is set, and the routines in
execution. -/
def paths (s : Extension) : Nat :=
  s.dpcQueued.toNat + s.timerSet.toNat + s.ops.length + (s.lock.any Phase.lowering).toNat

/-- One between `WdfDpcEnqueue` and the count. -/
def due (s : Extension) : Nat := (s.lock.any Phase.due).toNat

end Extension

/-- **The count is the number of the paths in flight**, and never went below zero. -/
structure Counted (s : Extension) : Prop where
  count_eq : s.countOfTryingToLowerRTS + s.due = s.paths
  unlocked : s.lock = none → s.countOfTryingToLowerRTS = s.paths
  not_wrapped : s.wrapped = false

/-! ## The steps -/

/-- What every step keeps. -/
structure Balanced (processors : Nat) (s : Extension) : Prop where
  count_eq : s.countOfTryingToLowerRTS + s.due = s.paths
  not_wrapped : s.wrapped = false
  ops_le : s.ops.length ≤ processors

section Steps

variable {processors : Nat} {s : Extension}

/-- There are at most three paths that are no routine at device level. -/
theorem paths_le (h : Balanced processors s) : s.paths ≤ processors + 3 := by
  have hops := h.ops_le
  have hdpc := s.dpcQueued.toNat_le
  have htimer := s.timerSet.toNat_le
  have hlock := (s.lock.any Phase.lowering).toNat_le
  rw [Extension.paths]
  omega

theorem raiseCount_eq (h : s.countOfTryingToLowerRTS < 4294967295) :
    s.raiseCount = { s with countOfTryingToLowerRTS := s.countOfTryingToLowerRTS + 1 } := by
  rw [Extension.raiseCount, Nat.mod_eq_of_lt (by omega)]

/-- **A count that is lowered for a path does not go below zero.** -/
theorem lowerCount_eq (hpos : 0 < s.countOfTryingToLowerRTS)
    (h : s.countOfTryingToLowerRTS < 4294967296) :
    s.lowerCount = { s with countOfTryingToLowerRTS := s.countOfTryingToLowerRTS - 1 } := by
  have hmod : (s.countOfTryingToLowerRTS + 4294967295) % 4294967296 =
      s.countOfTryingToLowerRTS - 1 := by omega
  have hzero : (s.countOfTryingToLowerRTS == 0) = false := beq_false_of_ne (Nat.ne_of_gt hpos)
  rw [Extension.lowerCount, hmod, hzero, Bool.or_false]

/-- The DPC is queued for a path that the count owes, or it is there already. -/
theorem insertQueueDpc_balanced {phase : Phase} (h : Balanced processors s)
    (hlock : s.lock = some phase) (hdue : phase.due = false) :
    Balanced processors (s.insertQueueDpc phase.lowering) := by
  obtain ⟨hcount, hwrapped, hops⟩ := h
  simp only [Extension.due, Extension.paths, hlock, Option.any_some, hdue, Bool.toNat_false]
    at hcount
  rw [Extension.insertQueueDpc]
  cases hdpc : s.dpcQueued with
  | true =>
    refine ⟨?_, hwrapped, hops⟩
    cases hl : phase.lowering <;>
      simp_all [Extension.due, Extension.paths, Phase.due, Phase.lowering]
  | false =>
    refine ⟨?_, hwrapped, hops⟩
    simp_all [Extension.due, Extension.paths, Phase.due, Phase.lowering]
    omega

/-- A routine that calls `SerialPerhapsLowerRTS` is a path from the moment that it is counted. -/
theorem call_balanced (hp : processors < 4294967292) (h : Balanced processors s)
    (hlock : s.lock = some .running) :
    Balanced processors { s.raiseCount with lock := some .testing } := by
  have hle := paths_le h
  obtain ⟨hcount, hwrapped, hops⟩ := h
  rw [raiseCount_eq (by omega)]
  refine ⟨?_, hwrapped, hops⟩
  simp only [Extension.due, Extension.paths, hlock, Option.any_some, Phase.due, Phase.lowering,
    Bool.toNat_false, Bool.toNat_true] at hcount ⊢
  omega

theorem runRoutine_balanced (hp : processors < 4294967292) (h : Balanced processors s)
    (hlock : s.lock = some .running) (r : Routine) : Balanced processors (s.runRoutine r) := by
  rw [Extension.runRoutine]
  generalize routine s.transmission r = x
  obtain ⟨t, call⟩ := x
  have ht : Balanced processors { s with transmission := t } :=
    ⟨h.count_eq, h.not_wrapped, h.ops_le⟩
  cases call with
  | none => exact ht
  | insertQueueDpc => exact insertQueueDpc_balanced ht hlock rfl
  | perhapsLowerRTS => exact call_balanced hp ht hlock

theorem runTest_balanced (h : Balanced processors s) (hlock : s.lock = some .testing) :
    Balanced processors s.runTest := by
  rw [Extension.runTest]
  generalize serialPerhapsLowerRTS s.transmission = x
  obtain ⟨t, insert⟩ := x
  have ht : Balanced processors { s with transmission := t } :=
    ⟨h.count_eq, h.not_wrapped, h.ops_le⟩
  cases insert with
  | true => exact insertQueueDpc_balanced ht hlock rfl
  | false =>
    obtain ⟨hcount, hwrapped, hops⟩ := h
    refine ⟨?_, hwrapped, hops⟩
    simp only [Extension.due, Extension.paths, hlock, Option.any_some, Phase.due,
      Phase.lowering, Bool.toNat_false, Bool.toNat_true] at hcount ⊢
    exact hcount

theorem setTimer_balanced (h : Balanced processors s) (hop : .startTimer ∈ s.ops) :
    Balanced processors s.setTimer := by
  obtain ⟨hcount, hwrapped, hops⟩ := h
  have hlen := length_advance hop (if s.timerSet then [.collided] else [])
  rw [Extension.setTimer]
  simp only [Extension.due, Extension.paths] at hcount
  cases htimer : s.timerSet with
  | true =>
    rw [htimer] at hlen hcount
    simp only [if_true, List.length_singleton] at hlen
    refine ⟨?_, hwrapped, ?_⟩
    · simp only [Extension.due, Extension.paths, if_true]
      omega
    · simp only [if_true]
      omega
  | false =>
    rw [htimer] at hlen hcount
    simp only [Bool.false_eq_true, if_false, List.length_nil, Bool.toNat_false] at hlen hcount
    refine ⟨?_, hwrapped, ?_⟩
    · simp only [Extension.due, Extension.paths, Bool.false_eq_true, if_false, Bool.toNat_true]
      omega
    · simp only [Bool.false_eq_true, if_false]
      omega

/-- **One step.** What lowers the count is a path that ends, so the count is not zero. -/
theorem effect_balanced (hp : processors < 4294967292) {e : Event} (h : Balanced processors s)
    (hen : Enabled processors s e) : Balanced processors (effect s e) := by
  have hle := paths_le h
  cases e with
  | run r => exact runRoutine_balanced hp h hen r
  | test => exact runTest_balanced h hen
  | setTimer => exact setTimer_balanced h hen
  | change t => exact ⟨h.count_eq, h.not_wrapped, h.ops_le⟩
  | enter =>
    obtain ⟨hcount, hwrapped, hops⟩ := h
    have hlock : s.lock = none := hen
    rw [Extension.due, Extension.paths, hlock] at hcount
    exact ⟨hcount, hwrapped, hops⟩
  | leave =>
    obtain ⟨hcount, hwrapped, hops⟩ := h
    have hlock : s.lock = some .running := hen
    rw [Extension.due, Extension.paths, hlock] at hcount
    exact ⟨hcount, hwrapped, hops⟩
  | count lowering =>
    obtain ⟨hcount, hwrapped, hops⟩ := h
    have hlock : s.lock = some (.queued lowering) := hen
    -- the count is at most the paths that run, so it does not wrap
    rw [effect, raiseCount_eq (by omega)]
    refine ⟨?_, hwrapped, hops⟩
    cases lowering <;>
      simp only [Extension.due, Extension.paths, hlock, Option.any_some, Phase.due, Phase.lowering,
        Bool.toNat_false, Bool.toNat_true, if_true, Bool.false_eq_true, if_false] at hcount ⊢ <;>
      omega
  | finish =>
    obtain ⟨hcount, hwrapped, hops⟩ := h
    have hlock : s.lock = some .ending := hen
    simp only [Extension.due, Extension.paths, hlock, Option.any_some, Phase.due, Phase.lowering,
      Bool.toNat_false, Bool.toNat_true] at hcount hle
    rw [effect, lowerCount_eq (by omega) (by omega)]
    refine ⟨?_, hwrapped, hops⟩
    simp only [Extension.due, Extension.paths, Option.any_some, Phase.due, Phase.lowering,
      Bool.toNat_false]
    omega
  | startDpc =>
    obtain ⟨hcount, hwrapped, hops⟩ := h
    obtain ⟨hdpc, hfree⟩ := hen
    simp only [Extension.due, Extension.paths, hdpc, Bool.toNat_true] at hcount
    refine ⟨?_, hwrapped, hfree⟩
    simp only [effect, Extension.due, Extension.paths, Bool.toNat_false, List.length_cons]
    omega
  | decrement =>
    obtain ⟨hcount, hwrapped, hops⟩ := h
    obtain ⟨hop, hlock⟩ := hen
    -- the path that ends was counted, so the count is not zero
    have hlen := length_advance hop []
    rw [List.length_nil] at hlen
    simp only [Extension.due, Extension.paths, hlock, Option.any_none, Bool.toNat_false]
      at hcount hle
    rw [effect, lowerCount_eq (by omega) (by omega)]
    refine ⟨?_, hwrapped, ?_⟩
    · simp only [Extension.due, Extension.paths, hlock, Option.any_none, Bool.toNat_false]
      omega
    · show (advance s.ops .collided []).length ≤ processors
      omega
  | expire =>
    obtain ⟨hcount, hwrapped, hops⟩ := h
    obtain ⟨htimer, hfree⟩ := hen
    simp only [Extension.due, Extension.paths, htimer, Bool.toNat_true] at hcount
    refine ⟨?_, hwrapped, hfree⟩
    simp only [effect, Extension.due, Extension.paths, Bool.toNat_false, List.length_cons]
    omega
  | invoke =>
    obtain ⟨hcount, hwrapped, hops⟩ := h
    obtain ⟨hop, hlock⟩ := hen
    have hlen := length_advance hop []
    rw [List.length_nil] at hlen
    simp only [Extension.due, Extension.paths, hlock, Option.any_none, Bool.toNat_false] at hcount
    refine ⟨?_, hwrapped, ?_⟩
    · simp only [effect, Extension.due, Extension.paths, Option.any_some, Phase.due,
        Phase.lowering, Bool.toNat_false, Bool.toNat_true]
      omega
    · show (advance s.ops .invoke []).length ≤ processors
      omega

end Steps

/-! ## Runs -/

/-- **In every run the count is the number of the paths in flight and never goes below zero.** A
machine has fewer processors than a `ULONG` counts. -/
theorem count_of_paths {processors : Nat} (hp : processors < 4294967292) {s : Extension}
    (h : (machine processors).Reachable s) : Counted s := by
  have hinv : Balanced processors s := by
    refine h.inv_guarded (P := Balanced processors) ?_ fun s e hs _ hen => effect_balanced hp hs hen
    rintro s ⟨t, rfl⟩
    exact ⟨rfl, rfl, Nat.zero_le _⟩
  refine ⟨hinv.count_eq, fun hlock => ?_, hinv.not_wrapped⟩
  have hcount := hinv.count_eq
  rw [Extension.due, hlock] at hcount
  exact hcount

/-- A write under transmit toggling, with characters in the hardware. -/
def writing : Transmission where
  transmitToggle := true
  txBreak := false
  txXoff := false
  txModem := false
  currentWriteRequest := true
  transmitImmediate := false
  writeQueueEmpty := true
  writeLength := true
  holdingEmpty := false
  emptiedTransmit := true
  waitsForEmpty := false
  hardwareEmpty := false
  rts := true

/-- **On four processors the DPC sets the timer before it is counted**, and a second DPC finds the
timer set: two paths, and then one. -/
theorem counted_collision : ∃ s, (machine 4).Reachable s ∧
    (s.countOfTryingToLowerRTS = 2 ∧ s.timerSet = true ∧ s.ops = [.collided]) ∧ Counted s := by
  obtain ⟨s, hr, hs⟩ := Machine.reach_exec_any (machine 4) (s := initial writing)
    [.enter, .run .sent, .startDpc, .setTimer, .count false, .leave, .enter, .run .sent,
      .count false, .leave, .startDpc, .setTimer]
    (p := fun s => s.countOfTryingToLowerRTS = 2 ∧ s.timerSet = true ∧ s.ops = [.collided])
    ⟨writing, rfl⟩ (by decide)
  exact ⟨s, hr, of_decide_eq_true hs, count_of_paths (by decide) hr⟩

end RpiDrivers.MiniUart.RtsToggle
