import RpiDrivers.Lib.Machine
import RpiDrivers.Lib.Pool

/-!
# PL011 read notifications (`pl011rx.cpp`, `PL011interrupt.cpp`)

SerCx2 asks for one notification by `EnableReadyNotification` and is told through
`SerCx2PioReceiveReady`. The request is answered either from inside the enable
routine, when data is there already, or by the DPC of a later interrupt; the four
parties agree through compare-exchanges on `RxPioState`. Each access to that state,
to the byte count and to the DPC's event mask is one atomic step, and so is the
call of `SerCx2PioReceiveReady`.

- `notified_once`: no enable is notified twice, in any run.
- `CancelHonest`: a cancel that returned `TRUE` is never contradicted by a notification.
- `CancelArmed`: the condition, that a cancel finds the notification armed or claimed by
  the DPC (`WAIT_DATA` or `WAIT_READ_DATA`).
- `readyNotification_of_cancelArmed`: runs that keep to it have both properties.
- `cancelled_and_notified`: a cancel during an enable that is about to notify returns `TRUE`.
-/

namespace RpiDrivers.Pl011

open RpiDrivers.Lib

/-- `PL011_RX_PIO_STATE` -/
inductive RxPioState
  | off
  | idle
  | waitData
  | dataReady
  | waitReadData
  | readData
  | purgeFifo
  deriving DecidableEq

/-- `PL011_RX_BUFFER_SIZE_BYTES` -/
def pl011RxBufferSizeBytes : Nat := 8 * 1024

/-- Where `PL011SerCx2EvtPioReceiveEnableReadyNotification` stands; `k` numbers its calls. -/
inductive EnableStep
  /-- `PL011RxPendingByteCount(rxPioPtr) > 0`? -/
  | check (k : Nat)
  /-- compare-exchange `READ_DATA` with `WAIT_DATA` -/
  | compare (k : Nat)
  /-- call `SerCx2PioReceiveReady` -/
  | ready (k : Nat)
  deriving DecidableEq

/-- Where `PL011pInterruptIsr` stands on an RX interrupt. -/
inductive IsrStep
  | copy
  /-- compare-exchange `READ_DATA` with `DATA_READY` -/
  | compare
  | queueDpc
  deriving DecidableEq

/-- Where an instance of `PL011EvtInterruptDpc` stands. -/
inductive DpcStep
  /-- exchange `IntEventsForDpc` with 0 -/
  | takeEvents
  | copy
  /-- `PL011RxPendingByteCount(rxPioPtr) > 0`? -/
  | check
  /-- compare-exchange `WAIT_DATA` with `WAIT_READ_DATA` -/
  | compare
  /-- call `SerCx2PioReceiveReady`, for the enable that had armed the state -/
  | ready (k : Nat)
  deriving DecidableEq

/-- The receive context and the routines under way. `enables` counts the calls of the enable
routine, `waitingFor` is the call that stored `WAIT_DATA` last, `notified` logs the
notifications by call, and `cancelled` the calls whose cancel returned `TRUE`. -/
structure RxPio where
  rxPioState : RxPioState
  /-- `RxBufferCount` -/
  rxBufferCount : Nat
  /-- the RX bits of `IntEventsForDpc` -/
  rxEvents : Bool
  dpcQueued : Bool
  enable : Option EnableStep
  isr : Option IsrStep
  dpcs : List DpcStep
  enables : Nat
  waitingFor : Nat
  notified : List Nat
  cancelled : List Nat

namespace RxPio

/-- `PL011RxPioStateSetCompare(next, compare)`: the state after it, and whether it was set. -/
def pl011RxPioStateSetCompare (s : RxPio) (next compare : RxPioState) : RxPio × Bool :=
  if s.rxPioState = compare then ({ s with rxPioState := next }, true) else (s, false)

/-- `SerCx2PioReceiveReady` -/
def serCx2PioReceiveReady (s : RxPio) (k : Nat) : RxPio :=
  { s with notified := s.notified ++ [k] }

/-- `PL011RxPioFifoCopy`: `n` bytes move from the FIFO to the buffer. -/
def pl011RxPioFifoCopy (s : RxPio) (n : Nat) : RxPio :=
  { s with rxBufferCount := s.rxBufferCount + n }

/-- The enable routine is called: reset the state to `READ_DATA`. -/
def enableReadyNotification (s : RxPio) : RxPio :=
  { s with
    rxPioState := .readData
    enable := some (.check s.enables)
    enables := s.enables + 1 }

/-- The next step of the enable routine. -/
def runEnable (s : RxPio) : EnableStep → RxPio
  | .check k =>
    { s with enable := some (if 0 < s.rxBufferCount then .ready k else .compare k) }
  | .compare k =>
    match s.pl011RxPioStateSetCompare .waitData .readData with
    | (s, true) => { s with enable := none, waitingFor := k }
    | (s, false) => { s with enable := some (.ready k) }
  | .ready k => { s.serCx2PioReceiveReady k with enable := none }

/-- The next step of the ISR. -/
def runIsr (s : RxPio) (n : Nat) : IsrStep → RxPio
  | .copy => { s.pl011RxPioFifoCopy n with isr := some .compare }
  | .compare =>
    { (s.pl011RxPioStateSetCompare .dataReady .readData).1 with isr := some .queueDpc }
  | .queueDpc => { s with isr := none, dpcQueued := true }

/-- The DPC goes on to `next`, or is done. -/
def dpcGoOn (s : RxPio) (p : DpcStep) (next : Option DpcStep) : RxPio :=
  { s with dpcs := advance s.dpcs p next.toList }

/-- The next step of a DPC. -/
def runDpc (s : RxPio) (n : Nat) : DpcStep → RxPio
  | .takeEvents =>
    { s.dpcGoOn .takeEvents (if s.rxEvents then some .copy else none) with rxEvents := false }
  | .copy => (s.pl011RxPioFifoCopy n).dpcGoOn .copy (some .check)
  | .check => s.dpcGoOn .check (if 0 < s.rxBufferCount then some .compare else none)
  | .compare =>
    match s.pl011RxPioStateSetCompare .waitReadData .waitData with
    | (s, true) => s.dpcGoOn .compare (some (.ready s.waitingFor))
    | (s, false) => s.dpcGoOn .compare none
  | .ready k => (s.serCx2PioReceiveReady k).dpcGoOn (.ready k) none

/-- `PL011SerCx2EvtPioReceiveCancelReadyNotification`, for the last call of the enable routine:
`TRUE` unless the state was `WAIT_READ_DATA`. -/
def cancelReadyNotification (s : RxPio) : RxPio :=
  let isCanceled := s.rxPioState ≠ .waitReadData
  { s with
    rxPioState := .idle
    cancelled := if isCanceled then s.cancelled ++ [s.enables - 1] else s.cancelled }

/-- `PL011SerCx2EvtPioReceiveReadBuffer` takes `n` bytes out of the buffer. -/
def readBuffer (s : RxPio) (n : Nat) : RxPio :=
  { s with rxPioState := .readData, rxBufferCount := s.rxBufferCount - n }

end RxPio

/-- The atomic steps of all parties. -/
inductive RxAction
  | enableReadyNotification
  | runEnable (p : EnableStep)
  | interrupt
  | runIsr (p : IsrStep) (n : Nat)
  | dpc
  | runDpc (p : DpcStep) (n : Nat)
  | cancelReadyNotification
  | readBuffer (n : Nat)
  deriving DecidableEq

/-- When a step can happen. SerCx2 has one call of the enable routine under way at a time,
cancels a notification it has asked for, and reads when it waits for none. -/
def rxEnabled (s : RxPio) : RxAction → Prop
  | .enableReadyNotification => s.enable = none
  | .runEnable p => s.enable = some p
  | .interrupt => s.isr = none
  | .runIsr p n => s.isr = some p ∧ s.rxBufferCount + n ≤ pl011RxBufferSizeBytes
  | .dpc => s.dpcQueued = true
  | .runDpc p n => p ∈ s.dpcs ∧ s.rxBufferCount + n ≤ pl011RxBufferSizeBytes
  | .cancelReadyNotification => 0 < s.enables
  | .readBuffer n => s.enable = none ∧ s.rxPioState ≠ .waitData ∧ n ≤ s.rxBufferCount

instance : ∀ s a, Decidable (rxEnabled s a)
  | _, .enableReadyNotification | _, .runEnable _ | _, .interrupt | _, .dpc =>
    inferInstanceAs (Decidable (_ = _))
  | _, .runIsr _ _ | _, .runDpc _ _ | _, .readBuffer _ => inferInstanceAs (Decidable (_ ∧ _))
  | _, .cancelReadyNotification => inferInstanceAs (Decidable (_ < _))

/-- What a step does. -/
def rxEffect (s : RxPio) : RxAction → RxPio
  | .enableReadyNotification => s.enableReadyNotification
  | .runEnable p => s.runEnable p
  | .interrupt => { s with rxEvents := true, isr := some .copy }
  | .runIsr p n => s.runIsr n p
  | .dpc => { s with dpcQueued := false, dpcs := .takeEvents :: s.dpcs }
  | .runDpc p n => s.runDpc n p
  | .cancelReadyNotification => s.cancelReadyNotification
  | .readBuffer n => s.readBuffer n

/-- The receive context after `PL011RxPioReceiveStart`. -/
def RxPio.start : RxPio where
  rxPioState := .off
  rxBufferCount := 0
  rxEvents := false
  dpcQueued := false
  enable := none
  isr := none
  dpcs := []
  enables := 0
  waitingFor := 0
  notified := []
  cancelled := []

/-- The receive path as an interleaving of atomic steps. -/
def rxMachine : Machine RxPio RxAction :=
  Machine.guarded (· = RxPio.start) rxEnabled rxEffect

/-! ## The property and the condition -/

/-- No notification is issued, now or later, for a call whose cancel returned `TRUE`. -/
def CancelHonest (s : RxPio) : Prop :=
  ∀ k ∈ s.cancelled, k ∉ s.notified

/-- One notification per enable, and none after a successful cancel. -/
structure ReadyNotification (s : RxPio) : Prop where
  atMostOnce : ∀ k, s.notified.count k ≤ 1
  cancel : CancelHonest s

/-- A cancel finds the notification armed, or claimed by the DPC. -/
def CancelArmed (s : RxPio) : RxAction → Prop
  | .cancelReadyNotification => s.rxPioState = .waitData ∨ s.rxPioState = .waitReadData
  | _ => True

/-! ## Each enable has one notification to give away -/

/-- The call of the enable routine a step belongs to. -/
def EnableStep.call : EnableStep → Nat
  | .check k | .compare k | .ready k => k

/-- A DPC that is about to notify for the call, as a number. -/
def DpcStep.owes (k : Nat) : DpcStep → Nat
  | .ready k' => if k' = k then 1 else 0
  | .takeEvents | .copy | .check | .compare => 0

namespace RxPio

/-- The enable routine itself may still notify for the call. -/
def enableOwes (s : RxPio) (k : Nat) : Nat :=
  if s.enable.map EnableStep.call = some k then 1 else 0

/-- The state is armed for the call: a DPC may claim it. -/
def armed (s : RxPio) (k : Nat) : Nat :=
  if s.rxPioState = .waitData ∧ s.waitingFor = k then 1 else 0

/-- The notifications given for a call and those that may still come. -/
def tokens (s : RxPio) (k : Nat) : Nat :=
  s.notified.count k + s.enableOwes k + total (DpcStep.owes k) s.dpcs + s.armed k

end RxPio

/-- What every state of every run satisfies. -/
structure NotifyInv (s : RxPio) : Prop where
  /-- a call has one notification, given or to come -/
  tokens : ∀ k, s.tokens k ≤ if k < s.enables then 1 else 0
  /-- the state is armed for the last call only, and only once its routine has returned -/
  waiting : s.rxPioState = .waitData → s.waitingFor + 1 = s.enables ∧ s.enable = none
  current : ∀ p, s.enable = some p → p.call + 1 = s.enables

theorem notifyInv_init : NotifyInv RxPio.start where
  tokens k := by simp [RxPio.start, RxPio.tokens, RxPio.enableOwes, RxPio.armed]
  waiting h := nomatch h
  current p h := nomatch h

/-- Setting the state to anything but `WAIT_DATA` disarms it. -/
theorem RxPio.armed_of_ne {s : RxPio} (h : s.rxPioState ≠ .waitData) (k : Nat) : s.armed k = 0 :=
  if_neg fun hw => h hw.1

/-- A DPC exchanges its step for the next one. -/
theorem dpc_total {s : RxPio} {p : DpcStep} (hp : p ∈ s.dpcs) (next : Option DpcStep) (k : Nat) :
    total (DpcStep.owes k) (advance s.dpcs p next.toList) + p.owes k =
      total (DpcStep.owes k) s.dpcs + total (DpcStep.owes k) next.toList :=
  sum_advance (DpcStep.owes k) hp next.toList

theorem runEnable_tokens {s : RxPio} {p : EnableStep} (hp : s.enable = some p)
    (k : Nat) : (s.runEnable p).tokens k ≤ s.tokens k := by
  have howes : s.enableOwes k = if p.call = k then 1 else 0 := by simp [RxPio.enableOwes, hp]
  cases p with
  | check k' =>
    have hsame : (s.runEnable (.check k')).enableOwes k = s.enableOwes k := by
      rw [howes]
      simp only [RxPio.runEnable, RxPio.enableOwes, Option.map_some, Option.some.injEq]
      split <;> rfl
    show s.notified.count k + (s.runEnable (.check k')).enableOwes k + _ + s.armed k ≤ _
    rw [hsame]
    exact le_refl _
  | compare k' =>
    simp only [RxPio.runEnable, RxPio.pl011RxPioStateSetCompare]
    split
    · -- the token passes from the routine to the armed state
      next hs =>
      split at hs
      · next hstate =>
        obtain ⟨rfl, -⟩ := Prod.mk.inj hs
        have harmed := RxPio.armed_of_ne (s := s) (by rw [hstate]; exact nofun) k
        simp only [RxPio.tokens, howes, harmed]
        show s.notified.count k + 0 + total _ s.dpcs + (if _ ∧ k' = k then 1 else 0) ≤ _
        by_cases heq : k' = k
        · simp only [EnableStep.call, heq, and_true, if_true]
          omega
        · simp [EnableStep.call, heq]
      · nomatch hs
    · next hs =>
      split at hs
      · nomatch hs
      · obtain ⟨rfl, -⟩ := Prod.mk.inj hs
        simp only [RxPio.tokens, howes]
        show s.notified.count k + (if some k' = some k then 1 else 0) + total _ s.dpcs + s.armed k ≤ _
        by_cases heq : k' = k <;> simp [EnableStep.call, heq]
  | ready k' =>
    have hcount : (s.notified ++ [k']).count k = s.notified.count k + if k' = k then 1 else 0 := by
      simp [List.count_append, List.count_singleton]
    simp only [RxPio.tokens, howes]
    show (s.notified ++ [k']).count k + 0 + total _ s.dpcs + s.armed k ≤ _
    rw [hcount, EnableStep.call]
    omega

theorem runIsr_tokens (s : RxPio) (n : Nat) (p : IsrStep) (k : Nat) :
    (s.runIsr n p).tokens k ≤ s.tokens k := by
  cases p with
  | copy | queueDpc => exact le_refl _
  | compare =>
    simp only [RxPio.runIsr, RxPio.pl011RxPioStateSetCompare]
    split
    · show s.notified.count k + s.enableOwes k + total _ s.dpcs + 0 ≤ _
      exact Nat.le_add_right _ _
    · exact le_refl _

theorem runDpc_tokens {s : RxPio} {p : DpcStep} (hp : p ∈ s.dpcs) (n k : Nat) :
    (s.runDpc n p).tokens k ≤ s.tokens k := by
  -- a step that neither notifies nor claims the state leaves the DPC owing nothing
  have hmove : ∀ next : Option DpcStep, p.owes k = 0 → total (DpcStep.owes k) next.toList = 0 →
      total (DpcStep.owes k) (advance s.dpcs p next.toList) = total (DpcStep.owes k) s.dpcs := by
    intro next h0 hnext
    have := dpc_total hp next k
    omega
  cases p with
  | takeEvents =>
    have := hmove (if s.rxEvents then some .copy else none) rfl (by split <;> rfl)
    show s.notified.count k + s.enableOwes k + total _ (advance s.dpcs _ _) + s.armed k ≤ _
    rw [this]
    exact le_refl _
  | copy =>
    have := hmove (some .check) rfl rfl
    show s.notified.count k + s.enableOwes k + total _ (advance s.dpcs _ _) + s.armed k ≤ _
    rw [this]
    exact le_refl _
  | check =>
    have := hmove (if 0 < s.rxBufferCount then some .compare else none) rfl (by split <;> rfl)
    show s.notified.count k + s.enableOwes k + total _ (advance s.dpcs _ _) + s.armed k ≤ _
    rw [this]
    exact le_refl _
  | compare =>
    simp only [RxPio.runDpc, RxPio.pl011RxPioStateSetCompare]
    split
    · -- the token passes from the armed state to the DPC
      next hs =>
      split at hs
      · next hstate =>
        obtain ⟨rfl, -⟩ := Prod.mk.inj hs
        have htotal := dpc_total hp (some (.ready s.waitingFor)) k
        have hzero : (DpcStep.compare).owes k = 0 := rfl
        have harmed : s.armed k = (DpcStep.ready s.waitingFor).owes k := by
          simp [RxPio.armed, hstate, DpcStep.owes]
        simp only [Option.toList_some, total_cons, total_nil, hzero] at htotal
        show s.notified.count k + s.enableOwes k + total _ (advance s.dpcs _ _) + 0 ≤
          s.notified.count k + s.enableOwes k + total _ s.dpcs + s.armed k
        simp only [Option.toList_some]
        omega
      · nomatch hs
    · next hs =>
      split at hs
      · nomatch hs
      · obtain ⟨rfl, -⟩ := Prod.mk.inj hs
        have := hmove none rfl rfl
        show s.notified.count k + s.enableOwes k + total _ (advance s.dpcs _ _) + s.armed k ≤ _
        rw [this]
        exact le_refl _
  | ready k' =>
    have htotal := dpc_total hp none k
    have hcount : (s.notified ++ [k']).count k =
        s.notified.count k + (DpcStep.ready k').owes k := by
      simp [List.count_append, List.count_singleton, DpcStep.owes]
    simp only [Option.toList_none, total_nil] at htotal
    show (s.notified ++ [k']).count k + s.enableOwes k + total _ (advance s.dpcs _ _) + s.armed k ≤
      s.notified.count k + s.enableOwes k + total _ s.dpcs + s.armed k
    rw [hcount]
    simp only [Option.toList_none]
    omega

/-- **No step creates a notification except the call of the enable routine, for itself.** -/
theorem tokens_effect {s : RxPio} {a : RxAction} (hen : rxEnabled s a) (k : Nat) :
    (rxEffect s a).tokens k ≤
      s.tokens k + if a = .enableReadyNotification ∧ k = s.enables then 1 else 0 := by
  cases a with
  | enableReadyNotification =>
    have hnone : s.enableOwes k = 0 := by
      rw [RxPio.enableOwes, show s.enable = none from hen]
      rfl
    show s.notified.count k + (if some s.enables = some k then 1 else 0) + total _ s.dpcs + 0 ≤
      s.notified.count k + s.enableOwes k + total _ s.dpcs + s.armed k + _
    rw [hnone]
    by_cases heq : k = s.enables
    · simp only [heq, and_self, if_true]
      omega
    · simp only [Option.some.injEq, Ne.symm heq, if_false]
      omega
  | runEnable p => exact Nat.le_add_right_of_le (runEnable_tokens hen k)
  | interrupt => exact Nat.le_add_right _ _
  | runIsr p n => exact Nat.le_add_right_of_le (runIsr_tokens s n p k)
  | dpc =>
    refine Nat.le_add_right_of_le ?_
    show s.notified.count k + s.enableOwes k + total _ (.takeEvents :: s.dpcs) + s.armed k ≤ _
    rw [total_cons, show (DpcStep.takeEvents).owes k = 0 from rfl, Nat.zero_add]
    exact le_refl _
  | runDpc p n => exact Nat.le_add_right_of_le (runDpc_tokens hen.1 n k)
  | cancelReadyNotification =>
    refine Nat.le_add_right_of_le ?_
    show s.notified.count k + s.enableOwes k + total _ s.dpcs + 0 ≤ _
    exact Nat.le_add_right _ _
  | readBuffer n =>
    refine Nat.le_add_right_of_le ?_
    show s.notified.count k + s.enableOwes k + total _ s.dpcs + 0 ≤ _
    exact Nat.le_add_right _ _

/-! ## Whole runs -/

/-- Only the compare-exchange of the enable routine arms the state. -/
theorem waiting_effect {s : RxPio} (h : NotifyInv s) {a : RxAction} (hen : rxEnabled s a)
    (hw : (rxEffect s a).rxPioState = .waitData) :
    (rxEffect s a).waitingFor + 1 = (rxEffect s a).enables ∧ (rxEffect s a).enable = none := by
  cases a with
  | enableReadyNotification | cancelReadyNotification | readBuffer => nomatch hw
  | interrupt | dpc => exact h.waiting hw
  | runEnable p =>
    have hcurrent := h.current p hen
    -- while the routine is under way the state is not armed
    have hnot : s.rxPioState ≠ .waitData := by
      intro hs
      have := (h.waiting hs).2
      rw [show s.enable = some p from hen] at this
      nomatch this
    cases p with
    | check k => exact absurd hw hnot
    | ready k => exact absurd hw hnot
    | compare k =>
      simp only [rxEffect, RxPio.runEnable, RxPio.pl011RxPioStateSetCompare] at hw ⊢
      by_cases hs : s.rxPioState = .readData
      · simp only [hs, if_true] at hw ⊢
        exact ⟨hcurrent, trivial⟩
      · simp only [hs, if_false] at hw
        exact absurd hw hnot
  | runIsr p n =>
    cases p with
    | copy | queueDpc => exact h.waiting hw
    | compare =>
      simp only [rxEffect, RxPio.runIsr, RxPio.pl011RxPioStateSetCompare] at hw ⊢
      split at hw
      · nomatch hw
      · next hs =>
        simp only [hs, if_false]
        exact h.waiting hw
  | runDpc p n =>
    cases p with
    | takeEvents | copy | check | ready => exact h.waiting hw
    | compare =>
      simp only [rxEffect, RxPio.runDpc, RxPio.pl011RxPioStateSetCompare] at hw ⊢
      by_cases hs : s.rxPioState = .waitData
      · simp only [hs, if_true] at hw
        nomatch hw
      · simp only [hs, if_false] at hw
        exact absurd hw hs

/-- The enable routine under way is the last call. -/
theorem current_effect {s : RxPio} (h : NotifyInv s) {a : RxAction} (hen : rxEnabled s a)
    {p : EnableStep} (hp : (rxEffect s a).enable = some p) :
    p.call + 1 = (rxEffect s a).enables := by
  cases a with
  | enableReadyNotification =>
    obtain rfl := Option.some.inj hp
    rfl
  | cancelReadyNotification | readBuffer | interrupt | dpc => exact h.current p hp
  | runEnable q =>
    have hcurrent := h.current q hen
    cases q with
    | ready k => nomatch hp
    | check k =>
      obtain rfl := Option.some.inj hp
      show EnableStep.call (if _ then _ else _) + 1 = _
      split <;> exact hcurrent
    | compare k =>
      simp only [rxEffect, RxPio.runEnable, RxPio.pl011RxPioStateSetCompare] at hp ⊢
      by_cases hs : s.rxPioState = .readData
      · simp only [hs, if_true] at hp
        nomatch hp
      · simp only [hs, if_false] at hp ⊢
        obtain rfl := Option.some.inj hp
        exact hcurrent
  | runIsr q n =>
    cases q with
    | copy | queueDpc => exact h.current p hp
    | compare =>
      simp only [rxEffect, RxPio.runIsr, RxPio.pl011RxPioStateSetCompare] at hp ⊢
      by_cases hs : s.rxPioState = .readData
      · simp only [hs, if_true] at hp ⊢
        exact h.current p hp
      · simp only [hs, if_false] at hp ⊢
        exact h.current p hp
  | runDpc q n =>
    cases q with
    | takeEvents | copy | check | ready => exact h.current p hp
    | compare =>
      simp only [rxEffect, RxPio.runDpc, RxPio.pl011RxPioStateSetCompare] at hp ⊢
      by_cases hs : s.rxPioState = .waitData
      · simp only [hs, if_true] at hp ⊢
        exact h.current p hp
      · simp only [hs, if_false] at hp ⊢
        exact h.current p hp

/-- Only a call of its routine adds to the number of calls, or to the cancels. -/
theorem calls_effect (s : RxPio) (a : RxAction) :
    (rxEffect s a).enables = s.enables + (if a = .enableReadyNotification then 1 else 0) ∧
      (a ≠ .cancelReadyNotification → (rxEffect s a).cancelled = s.cancelled) := by
  cases a with
  | cancelReadyNotification => exact ⟨rfl, fun h => absurd rfl h⟩
  | enableReadyNotification | interrupt | dpc | readBuffer => exact ⟨rfl, fun _ => rfl⟩
  | runEnable p =>
    cases p with
    | check | ready => exact ⟨rfl, fun _ => rfl⟩
    | compare =>
      simp only [rxEffect, RxPio.runEnable, RxPio.pl011RxPioStateSetCompare]
      by_cases hs : s.rxPioState = .readData <;> simp [hs]
  | runIsr p n =>
    cases p with
    | copy | queueDpc => exact ⟨rfl, fun _ => rfl⟩
    | compare =>
      simp only [rxEffect, RxPio.runIsr, RxPio.pl011RxPioStateSetCompare]
      by_cases hs : s.rxPioState = .readData <;> simp [hs]
  | runDpc p n =>
    cases p with
    | takeEvents | copy | check | ready => exact ⟨rfl, fun _ => rfl⟩
    | compare =>
      simp only [rxEffect, RxPio.runDpc, RxPio.pl011RxPioStateSetCompare]
      by_cases hs : s.rxPioState = .waitData <;> simp [hs, RxPio.dpcGoOn]

theorem notifyInv_effect {s : RxPio} (h : NotifyInv s) {a : RxAction} (hen : rxEnabled s a) :
    NotifyInv (rxEffect s a) where
  tokens k := by
    have hstep := tokens_effect hen k
    have hold := h.tokens k
    rw [(calls_effect s a).1]
    by_cases ha : a = .enableReadyNotification
    · by_cases heq : k = s.enables
      · rw [if_pos ⟨ha, heq⟩] at hstep
        rw [if_neg (by omega)] at hold
        rw [if_pos ha, if_pos (by omega)]
        omega
      · rw [if_neg fun hc => heq hc.2] at hstep
        rw [if_pos ha]
        split at hold <;> split <;> omega
    · rw [if_neg fun hc => ha hc.1] at hstep
      rw [if_neg ha]
      exact hstep.trans (by simpa using hold)
  waiting hw := waiting_effect h hen hw
  current _ hp := current_effect h hen hp

theorem notifyInv_reach {ok : RxPio → RxAction → Prop} {s : RxPio} (h : rxMachine.Reach ok s) :
    NotifyInv s := by
  refine h.inv_guarded (fun s hs => ?_) fun s a hinv _ hen => notifyInv_effect hinv hen
  rw [hs]
  exact notifyInv_init

/-- **No enable is notified twice**, in any run. -/
theorem notified_once {ok : RxPio → RxAction → Prop} {s : RxPio} (h : rxMachine.Reach ok s)
    (k : Nat) : s.notified.count k ≤ 1 := by
  have htokens := (notifyInv_reach h).tokens k
  have hcount : s.notified.count k ≤ s.tokens k := by
    rw [RxPio.tokens]
    omega
  split at htokens <;> omega

/-- A call whose cancel returned `TRUE` has no notification left, given or to come. -/
def CancelInv (s : RxPio) : Prop :=
  ∀ k ∈ s.cancelled, k < s.enables ∧ s.tokens k = 0

/-- What a cancelled call has left stays nothing. -/
theorem cancelInv_keep {s : RxPio} (h : CancelInv s) {a : RxAction} (hen : rxEnabled s a) {k : Nat}
    (hk : k ∈ s.cancelled) : k < (rxEffect s a).enables ∧ (rxEffect s a).tokens k = 0 := by
  obtain ⟨hlt, hzero⟩ := h k hk
  have hstep := tokens_effect hen k
  rw [if_neg fun hc => by omega] at hstep
  refine ⟨?_, by omega⟩
  rw [(calls_effect s a).1]
  omega

theorem cancelInv_effect {s : RxPio} (hinv : NotifyInv s) (h : CancelInv s) {a : RxAction}
    (hen : rxEnabled s a) (hok : CancelArmed s a) : CancelInv (rxEffect s a) := by
  intro k hk
  by_cases ha : a = .cancelReadyNotification
  · subst ha
    rcases hok with hwait | hclaimed
    · have hmem : k ∈ s.cancelled ++ [s.enables - 1] := by
        simpa [rxEffect, RxPio.cancelReadyNotification, hwait] using hk
      rcases List.mem_append.1 hmem with hold | hnew
      · exact cancelInv_keep h hen hold
      · -- the armed state held the only notification of the last call
        obtain rfl := List.mem_singleton.1 hnew
        have hcall := (hinv.waiting hwait).1
        have hlt : s.enables - 1 < s.enables := by omega
        have htokens := hinv.tokens (s.enables - 1)
        have harmed : s.armed (s.enables - 1) = 1 := if_pos ⟨hwait, by omega⟩
        rw [if_pos hlt, RxPio.tokens, harmed] at htokens
        refine ⟨hlt, ?_⟩
        show s.notified.count _ + s.enableOwes _ + total _ s.dpcs + 0 = 0
        omega
    · -- the DPC has claimed the notification: the cancel returns FALSE
      have hold : k ∈ s.cancelled := by
        simpa [rxEffect, RxPio.cancelReadyNotification, hclaimed] using hk
      exact cancelInv_keep h hen hold
  · rw [(calls_effect s a).2 ha] at hk
    exact cancelInv_keep h hen hk

/-- **One notification per enable, and none once a cancel returned `TRUE`**, in every run in
which each cancel finds the notification armed or claimed by the DPC. -/
theorem readyNotification_of_cancelArmed {s : RxPio} (h : rxMachine.Reach CancelArmed s) :
    ReadyNotification s := by
  have hcancel : NotifyInv s ∧ CancelInv s := by
    refine h.inv_guarded (P := fun s => NotifyInv s ∧ CancelInv s) (fun s hs => ?_)
      fun s a hboth hok hen => ?_
    · rw [hs]
      exact ⟨notifyInv_init, fun k hk => nomatch hk⟩
    · exact ⟨notifyInv_effect hboth.1 hen, cancelInv_effect hboth.1 hboth.2 hen hok⟩
  refine ⟨notified_once h, fun k hk hnotified => ?_⟩
  have hzero := (hcancel.2 k hk).2
  have hpos := List.count_pos_iff.2 hnotified
  rw [RxPio.tokens] at hzero
  omega

/-- An enable that waits, and is cancelled before data comes. -/
theorem readyNotification_of_cancelArmed_waiting :
    ∃ s, rxMachine.Reach CancelArmed s ∧ s.cancelled = [0] ∧ ReadyNotification s := by
  have h0 : rxMachine.Reach CancelArmed RxPio.start := .init rfl
  have h1 := Machine.Reach.step (a := .enableReadyNotification) h0 (by trivial) rfl
  have h2 := Machine.Reach.step (a := .runEnable (.check 0)) h1 (by trivial) rfl
  have h3 := Machine.Reach.step (a := .runEnable (.compare 0)) h2 (by trivial) rfl
  have h4 := Machine.Reach.step (a := .cancelReadyNotification) h3 (by exact .inl rfl) rfl
  exact ⟨_, h4, rfl, readyNotification_of_cancelArmed h4⟩

/-- The run that breaks the promise of a cancel: a byte is there already, so the enable
routine goes on to notify, and the cancel comes in between. -/
def brokenCancelRun : List RxAction :=
  [.interrupt, .runIsr .copy 1, .enableReadyNotification, .runEnable (.check 0),
    .cancelReadyNotification, .runEnable (.ready 0)]

/-- **A cancel that returns `TRUE`, and then the notification.** -/
theorem cancelled_and_notified : ¬ ∀ s, rxMachine.Reachable s → ReadyNotification s := by
  intro h
  have hrun := rxMachine.reach_exec_get brokenCancelRun (s := RxPio.start) rfl (by rfl)
  exact (h _ hrun).cancel 0 (by decide) (by decide)

end RpiDrivers.Pl011
