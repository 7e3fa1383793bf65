import RpiDrivers.Lib.Machine
import RpiDrivers.Lib.Pool

/-!
# Notifications of GENET (`bcmgenet/driver.c`)

NetAdapterCx enables the notification of a queue by `SetNotificationEnabled`, which sets the flag of
the queue and writes the mask bits of both. `GenetInterruptIsr` masks what has come and saves it,
`GenetInterruptDpc` takes what is saved and notifies the queues whose flag it finds set. The
callback and the ISR exclude each other by the interrupt lock; the DPC takes no lock, and runs on
several processors at once.

- `interruptMachine`: every interleaving, one access at a time, with the device raising causes.
- `Covered`: the interrupt of a queue is unmasked, or its cause is saved and a DPC will notify it.
- `notificationSound_of_reachable`: **an enabled queue is covered**, or the ISR is about to save its
  cause and to queue the DPC, and **each enable is notified at most once**.
- `masked_not_saved`: in between, the cause is neither at the device nor with a DPC.
-/

namespace RpiDrivers.Genet

open RpiDrivers.Lib

/-! ## The two queues and their interrupts -/

/-- A queue, whose flag is `txNotify` or `rxNotify`. -/
inductive Queue
  | tx
  | rx
  deriving DecidableEq

/-- `BG_INTR_TXDMA_DONE` and `BG_INTR_RXDMA_DONE` -/
def Queue.done : Queue → BitVec 32
  | .tx => 1#32 <<< 16
  | .rx => 1#32 <<< 13

/-- The bit of the queue is set in a register. -/
def Queue.isIn (q : Queue) (v : BitVec 32) : Bool := (v &&& q.done) ≠ 0

/-- `interruptMask` of `GenetInterruptSetCommon` -/
def interruptMask : BitVec 32 := Queue.tx.done ||| Queue.rx.done

namespace Queue

def bit : Queue → Nat
  | .tx => 16
  | .rx => 13

theorem isIn_eq (q : Queue) (v : BitVec 32) : q.isIn v = v.getLsbD q.bit := by
  have hdone : q.done = BitVec.twoPow 32 q.bit := by cases q <;> rfl
  have hne : BitVec.twoPow 32 q.bit ≠ 0#32 := by cases q <;> decide
  rw [isIn, hdone, BitVec.and_twoPow]
  split
  · next h => simp [h, hne]
  · next h => simp [h]

@[simp] theorem isIn_zero (q : Queue) : q.isIn 0#32 = false := by
  simp [isIn_eq]

@[simp] theorem isIn_or (q : Queue) (v w : BitVec 32) :
    q.isIn (v ||| w) = (q.isIn v || q.isIn w) := by
  simp [isIn_eq]

@[simp] theorem isIn_and_not (q : Queue) (v w : BitVec 32) :
    q.isIn (v &&& ~~~w) = (q.isIn v && !q.isIn w) := by
  have hlt : q.bit < 32 := by cases q <;> decide
  simp [isIn_eq, hlt]

@[simp] theorem isIn_done (q r : Queue) : q.isIn r.done = decide (q = r) := by
  cases q <;> cases r <;> decide

@[simp] theorem isIn_interruptMask (q : Queue) : q.isIn interruptMask = true := by
  cases q <;> decide

end Queue

/-! ## The callbacks, the ISR and the DPC -/

/-- Where `GenetInterruptSetCommon` stands. -/
inductive SetStep
  /-- `InterlockedExchange(notify, enabled)` -/
  | exchange
  /-- `WdfInterruptAcquireLock` -/
  | acquire
  | readTx
  /-- `txNotify` has been read -/
  | readRx (armedInterrupts : BitVec 32)
  | maskSet (armedInterrupts : BitVec 32)
  | maskClear (armedInterrupts : BitVec 32)
  /-- `WdfInterruptReleaseLock` -/
  | release
  /-- `KeFlushQueuedDpcs`, after a disable -/
  | flush
  deriving DecidableEq

/-- A `SetNotificationEnabled` callback, which holds the lock of the adapter. -/
structure SetCall where
  queue : Queue
  enabled : Bool
  step : SetStep

/-- Where `GenetInterruptIsr` stands. -/
inductive IsrStep
  | readStatus
  | readMask (intrStatus : BitVec 32)
  | clear (intrStatus : BitVec 32)
  | maskSet (intrStatus : BitVec 32)
  /-- `InterlockedOr` into `savedStatus` -/
  | save (intrStatus : BitVec 32)
  | queueDpc

/-- Where an instance of `GenetInterruptDpc` stands. -/
inductive DpcStep
  /-- `InterlockedExchange` of `savedStatus` with 0 -/
  | take
  /-- if the bit of the queue is set, `InterlockedExchange` of its flag with `FALSE` -/
  | test (q : Queue) (intrStatus : BitVec 32)
  /-- the flag was set by the enable `k`: notify the queue -/
  | notify (q : Queue) (intrStatus : BitVec 32) (k : Nat)
  deriving DecidableEq

/-- The context of the interrupt, the registers `CPU_Status` and `CPU_Mask_Status`, and what is
under way. `enables` counts the calls that enable a queue, and `notified` logs its notifications,
each with the enable that it answers. -/
structure Interrupt where
  cpuStatus : BitVec 32
  cpuMaskStatus : BitVec 32
  notify : Queue → Bool
  savedStatus : BitVec 32
  dpcQueued : Bool
  call : Option SetCall
  isr : Option IsrStep
  dpcs : List DpcStep
  enables : Queue → Nat
  notified : Queue → List Nat

/-- The interrupt lock is held. -/
def SetStep.locked : SetStep → Bool
  | .exchange | .acquire | .flush => false
  | _ => true

/-- What the DPC goes on to after a queue. -/
def DpcStep.after (intrStatus : BitVec 32) : Queue → List DpcStep
  | .tx => [.test .rx intrStatus]
  | .rx => []

namespace Interrupt

/-- The callback goes on. -/
def goOn (s : Interrupt) (c : SetCall) (next : SetStep) : Interrupt :=
  { s with call := some { c with step := next } }

/-- `armedInterrupts |= …` when the flag of the queue is set -/
def armed (s : Interrupt) (q : Queue) (armedInterrupts : BitVec 32) : BitVec 32 :=
  if s.notify q then armedInterrupts ||| q.done else armedInterrupts

/-- The next step of the callback. -/
def runCall (s : Interrupt) (c : SetCall) : Interrupt :=
  match c.step with
  | .exchange =>
    { s.goOn c .acquire with
      notify := Function.update s.notify c.queue c.enabled
      enables := if c.enabled then Function.update s.enables c.queue (s.enables c.queue + 1)
        else s.enables }
  | .acquire => s.goOn c .readTx
  | .readTx => s.goOn c (.readRx (s.armed .tx 0))
  | .readRx armedInterrupts => s.goOn c (.maskSet (s.armed .rx armedInterrupts))
  | .maskSet armedInterrupts =>
    { s.goOn c (.maskClear armedInterrupts) with
      cpuMaskStatus := s.cpuMaskStatus ||| (interruptMask &&& ~~~armedInterrupts) }
  | .maskClear armedInterrupts =>
    { s.goOn c .release with cpuMaskStatus := s.cpuMaskStatus &&& ~~~armedInterrupts }
  | .release => if c.enabled then { s with call := none } else s.goOn c .flush
  | .flush => { s with call := none }

/-- The next step of the ISR. -/
def runIsr (s : Interrupt) : IsrStep → Interrupt
  | .readStatus => { s with isr := some (.readMask s.cpuStatus) }
  | .readMask intrStatus => { s with isr := some (.clear (intrStatus &&& ~~~s.cpuMaskStatus)) }
  | .clear intrStatus =>
    { s with cpuStatus := s.cpuStatus &&& ~~~intrStatus, isr := some (.maskSet intrStatus) }
  | .maskSet intrStatus =>
    { s with cpuMaskStatus := s.cpuMaskStatus ||| intrStatus, isr := some (.save intrStatus) }
  | .save intrStatus =>
    { s with savedStatus := s.savedStatus ||| intrStatus, isr := some .queueDpc }
  | .queueDpc => { s with dpcQueued := true, isr := none }

/-- The next step of a DPC. -/
def runDpc (s : Interrupt) : DpcStep → Interrupt
  | .take =>
    { s with savedStatus := 0, dpcs := advance s.dpcs .take [.test .tx s.savedStatus] }
  | .test q intrStatus =>
    if q.isIn intrStatus then
      { s with
        notify := Function.update s.notify q false
        dpcs := advance s.dpcs (.test q intrStatus)
          (if s.notify q then [.notify q intrStatus (s.enables q)]
            else DpcStep.after intrStatus q) }
    else { s with dpcs := advance s.dpcs (.test q intrStatus) (DpcStep.after intrStatus q) }
  | .notify q intrStatus k =>
    { s with
      notified := Function.update s.notified q (s.notified q ++ [k])
      dpcs := advance s.dpcs (.notify q intrStatus k) (DpcStep.after intrStatus q) }

end Interrupt

/-- What can happen next. -/
inductive IntrAction
  /-- the device has causes for interrupts -/
  | cause (v : BitVec 32)
  | setNotificationEnabled (q : Queue) (enabled : Bool)
  | call
  | startIsr
  | isr
  | startDpc
  | dpc (d : DpcStep)

/-- A step of the ISR or of a DPC. -/
def IntrAction.isDelivery : IntrAction → Bool
  | .isr | .startDpc | .dpc _ => true
  | _ => false

namespace Interrupt

/-- The ISR and the section of the callback exclude each other. -/
def enabled (s : Interrupt) : IntrAction → Prop
  | .cause _ => True
  | .setNotificationEnabled _ _ => s.call = none
  | .call => ∃ c ∈ s.call, c.step = .acquire → s.isr = none
  | .startIsr => s.isr = none ∧ ∀ c ∈ s.call, c.step.locked = false
  | .isr => s.isr.isSome = true
  | .startDpc => s.dpcQueued = true
  | .dpc d => d ∈ s.dpcs

instance (s : Interrupt) (a : IntrAction) : Decidable (s.enabled a) := by
  cases a <;> unfold enabled <;> infer_instance

def effect (s : Interrupt) : IntrAction → Interrupt
  | .cause v => { s with cpuStatus := s.cpuStatus ||| v }
  | .setNotificationEnabled q enabled => { s with call := some ⟨q, enabled, .exchange⟩ }
  | .call =>
    match s.call with
    | some c => s.runCall c
    | none => s
  | .startIsr => { s with isr := some .readStatus }
  | .isr =>
    match s.isr with
    | some step => s.runIsr step
    | none => s
  | .startDpc => { s with dpcQueued := false, dpcs := .take :: s.dpcs }
  | .dpc d => s.runDpc d

end Interrupt

/-- Every interleaving, from the registers as the adapter has been reset: all causes are masked. -/
def interruptMachine : Machine Interrupt IntrAction :=
  .guarded (fun s => s.cpuMaskStatus = 0xffffffff#32 ∧ s.notify = (fun _ => false) ∧
      s.savedStatus = 0 ∧ s.dpcQueued = false ∧ s.call = none ∧ s.isr = none ∧ s.dpcs = [] ∧
      s.enables = (fun _ => 0) ∧ s.notified = fun _ => [])
    Interrupt.enabled Interrupt.effect

/-! ## An enabled queue is covered -/

/-- The DPC will still test the flag of the queue, with its bit set. -/
def DpcStep.holds (q : Queue) : DpcStep → Bool
  | .take => false
  | .test .tx intrStatus => q.isIn intrStatus
  | .test .rx intrStatus | .notify .tx intrStatus _ => q = .rx && q.isIn intrStatus
  | .notify .rx _ _ => false

namespace Interrupt

/-- The cause of the queue has been saved and a DPC is queued or running that takes it, or a DPC has
taken it and has not come to the flag. -/
def SavedForDpc (s : Interrupt) (q : Queue) : Prop :=
  (q.isIn s.savedStatus = true ∧ (s.dpcQueued = true ∨ .take ∈ s.dpcs)) ∨
    ∃ d ∈ s.dpcs, d.holds q = true

/-- The ISR has masked the cause of the queue, and it is about to save it or to queue the DPC. -/
def InIsr (s : Interrupt) (q : Queue) : Prop :=
  (∃ intrStatus, s.isr = some (.save intrStatus) ∧ q.isIn intrStatus = true) ∨
    (s.isr = some .queueDpc ∧ q.isIn s.savedStatus = true)

/-- Steps of the ISR and of the DPC alone notify the queue for its last enable. -/
def WillNotify (s : Interrupt) (q : Queue) : Prop :=
  ∃ s', interruptMachine.Steps (fun _ a => a.isDelivery = true) s s' ∧ s.enables q ∈ s'.notified q

end Interrupt

/-- What holds outside the callbacks, and the notifications of each enable. -/
structure NotificationSound (s : Interrupt) : Prop where
  covered : s.call = none → ∀ q, s.notify q = true →
    q.isIn s.cpuMaskStatus = false ∨ ((s.SavedForDpc q ∨ s.InIsr q) ∧ s.WillNotify q)
  once : ∀ q, (s.notified q).Nodup ∧ ∀ k ∈ s.notified q, 0 < k ∧ k ≤ s.enables q

/-- The callback has set the flag of its queue and has not unmasked its interrupt. -/
def SetStep.setting : SetStep → Bool
  | .acquire | .readTx | .readRx _ | .maskSet _ | .maskClear _ => true
  | _ => false

/-- What has been read of the flag of a queue. -/
def SetStep.armed? : SetStep → Queue → Option (BitVec 32)
  | .readRx armedInterrupts, .tx => some armedInterrupts
  | .maskSet armedInterrupts, _ | .maskClear armedInterrupts, _ => some armedInterrupts
  | _, _ => none

/-- Something stands for the queue: its interrupt is unmasked, or its cause is in the ISR, saved, or
with a DPC. -/
def Interrupt.Covered (s : Interrupt) (q : Queue) : Prop :=
  q.isIn s.cpuMaskStatus = false ∨
    (∃ intrStatus, s.isr = some (.save intrStatus) ∧ q.isIn intrStatus = true) ∨
    q.isIn s.savedStatus = true ∨ ∃ d ∈ s.dpcs, d.holds q = true

/-- What every reachable state satisfies. -/
structure CoverInv (s : Interrupt) : Prop where
  covered : ∀ q, s.notify q = true →
    s.Covered q ∨ ∃ c, s.call = some c ∧ c.queue = q ∧ c.step.setting = true
  /-- what is saved is taken by a DPC -/
  dpc : ∀ q : Queue, q.isIn s.savedStatus = true →
    s.dpcQueued = true ∨ s.isr = some .queueDpc ∨ .take ∈ s.dpcs
  excludes : ∀ c, s.call = some c → c.step.locked = true → s.isr = none
  /-- a flag that was read `FALSE` stays so, since the callback is the only one -/
  armed : ∀ c (q : Queue) v, s.call = some c → c.step.armed? q = some v → q.isIn v = false →
    s.notify q = false

namespace CoverInv

variable {s : Interrupt}

theorem of_init (hnotify : s.notify = fun _ => false) (hsaved : s.savedStatus = 0)
    (hcall : s.call = none) : CoverInv s where
  covered q h := by rw [hnotify] at h; cases h
  dpc q h := by rw [hsaved] at h; simp at h
  excludes c h := by rw [hcall] at h; cases h
  armed c q v h := by rw [hcall] at h; cases h

/-- Outside the section that sets the flag, an enabled queue is covered. -/
theorem covered_of (h : CoverInv s) {c : SetCall} (hc : s.call = some c)
    (hsetting : c.step.setting = false) {q : Queue} (hq : s.notify q = true) : s.Covered q := by
  rcases h.covered q hq with hcov | ⟨c', hc', -, hsetting'⟩
  · exact hcov
  · obtain rfl : c = c' := Option.some.inj (hc.symm.trans hc')
    rw [hsetting] at hsetting'
    cases hsetting'

/-- A step of the callback within the section that sets the flag. -/
theorem setting_of (h : CoverInv s) {c : SetCall} (hc : s.call = some c) {next : SetStep}
    (hnext : next.setting = true) {q : Queue} (hq : s.notify q = true) :
    s.Covered q ∨ ∃ c', some (SetCall.mk c.queue c.enabled next) = some c' ∧ c'.queue = q ∧
      c'.step.setting = true := by
  rcases h.covered q hq with hcov | ⟨c', hc', hqueue, -⟩
  · exact .inl hcov
  · obtain rfl : c = c' := Option.some.inj (hc.symm.trans hc')
    exact .inr ⟨_, rfl, hqueue, hnext⟩

/-- A flag that is set has been read so. -/
theorem isIn_of_notify (h : CoverInv s) {c : SetCall} (hc : s.call = some c) {q : Queue}
    {v : BitVec 32} (ha : c.step.armed? q = some v) (hq : s.notify q = true) : q.isIn v = true := by
  by_contra hv
  rw [h.armed c q v hc ha (Bool.eq_false_iff.2 hv)] at hq
  cases hq

theorem isIn_armed_eq_false {q r : Queue} {v : BitVec 32} (h : q.isIn (s.armed r v) = false) :
    q.isIn v = false ∧ (q = r → s.notify r = false) := by
  rw [Interrupt.armed] at h
  split at h
  · simp only [Queue.isIn_or, Queue.isIn_done, Bool.or_eq_false_iff, decide_eq_false_iff_not] at h
    exact ⟨h.1, fun heq => absurd heq h.2⟩
  · next hnotify => exact ⟨h, fun _ => Bool.eq_false_iff.2 hnotify⟩

theorem runCall (h : CoverInv s) {c : SetCall} (hc : s.call = some c)
    (hlock : c.step = .acquire → s.isr = none) : CoverInv (s.runCall c) := by
  obtain ⟨queue, enabled, step⟩ := c
  cases step with
  | exchange =>
    refine ⟨fun q hq => ?_, h.dpc, fun c' hc' hl => ?_, fun c' q v hc' ha => ?_⟩
    · by_cases hqueue : queue = q
      · exact .inr ⟨_, rfl, hqueue, rfl⟩
      · refine .inl (h.covered_of hc rfl (q := q) ?_)
        have heq : Function.update s.notify queue enabled q = s.notify q :=
          Function.update_of_ne (Ne.symm hqueue) ..
        exact heq.symm.trans hq
    · obtain rfl := Option.some.inj hc'
      cases hl
    · obtain rfl := Option.some.inj hc'
      cases ha
  | acquire =>
    refine ⟨fun q hq => h.setting_of hc rfl hq, h.dpc, fun _ _ _ => hlock rfl,
      fun c' q v hc' ha => ?_⟩
    obtain rfl := Option.some.inj hc'
    cases ha
  | readTx =>
    refine ⟨fun q hq => h.setting_of hc rfl hq, h.dpc, fun _ _ _ => h.excludes _ hc rfl,
      fun c' q v hc' ha hv => ?_⟩
    obtain rfl := Option.some.inj hc'
    cases q with
    | tx =>
      obtain rfl := Option.some.inj ha
      exact (isIn_armed_eq_false hv).2 rfl
    | rx => cases ha
  | readRx armedInterrupts =>
    refine ⟨fun q hq => h.setting_of hc rfl hq, h.dpc, fun _ _ _ => h.excludes _ hc rfl,
      fun c' q v hc' ha hv => ?_⟩
    obtain rfl := Option.some.inj hc'
    obtain rfl := Option.some.inj ha
    obtain ⟨hbefore, hnotify⟩ := isIn_armed_eq_false hv
    cases q with
    | tx => exact h.armed _ .tx _ hc rfl hbefore
    | rx => exact hnotify rfl
  | maskSet armedInterrupts =>
    refine ⟨fun q hq => ?_, h.dpc, fun _ _ _ => h.excludes _ hc rfl, fun c' q v hc' ha hv => ?_⟩
    · have harmed : q.isIn armedInterrupts = true := h.isIn_of_notify hc rfl hq
      have hnext : (SetStep.maskClear armedInterrupts).setting = true := rfl
      refine (h.setting_of hc hnext hq).imp_left fun hcov => ?_
      rcases hcov with hmask | hcov
      · refine .inl ?_
        show q.isIn (_ ||| _) = false
        simp [hmask, harmed]
      · exact .inr hcov
    · obtain rfl := Option.some.inj hc'
      exact h.armed _ q v hc ha hv
  | maskClear armedInterrupts =>
    refine ⟨fun q hq => .inl (.inl ?_), h.dpc, fun _ _ _ => h.excludes _ hc rfl,
      fun c' q v hc' ha hv => ?_⟩
    · -- the flags that were read are unmasked, and no other one is set
      have harmed : q.isIn armedInterrupts = true := h.isIn_of_notify hc rfl hq
      show q.isIn (_ &&& ~~~_) = false
      simp [harmed]
    · obtain rfl := Option.some.inj hc'
      cases ha
  | release =>
    have hcov : ∀ q, s.notify q = true → s.Covered q := fun q hq => h.covered_of hc rfl hq
    rw [Interrupt.runCall]
    dsimp only
    split
    · exact ⟨fun q hq => .inl (hcov q hq), h.dpc, (fun c' hc' => by cases hc'),
        (fun c' q v hc' => by cases hc')⟩
    · refine ⟨fun q hq => .inl (hcov q hq), h.dpc, fun c' hc' hl => ?_, fun c' q v hc' ha => ?_⟩
      · obtain rfl := Option.some.inj hc'
        cases hl
      · obtain rfl := Option.some.inj hc'
        cases ha
  | flush =>
    exact ⟨fun q hq => .inl (h.covered_of hc rfl hq), h.dpc, (fun c' hc' => by cases hc'),
      (fun c' q v hc' => by cases hc')⟩

/-- A step that leaves the callback where it is. -/
theorem congr {s' : Interrupt} (h : CoverInv s) (hcall : s'.call = s.call)
    (hnotify : ∀ q, s'.notify q = true → s.notify q = true)
    (hcovered : ∀ q, s'.notify q = true → s.Covered q → s'.Covered q)
    (hdpc : ∀ q : Queue, q.isIn s'.savedStatus = true →
      s'.dpcQueued = true ∨ s'.isr = some .queueDpc ∨ .take ∈ s'.dpcs)
    (hisr : s.isr = none → (∀ c, s.call = some c → c.step.locked = false) ∨ s'.isr = none) :
    CoverInv s' where
  covered q hq := by
    rw [hcall]
    exact (h.covered q (hnotify q hq)).imp_left (hcovered q hq)
  dpc := hdpc
  excludes c hc hl := by
    rw [hcall] at hc
    rcases hisr (h.excludes c hc hl) with hfree | hnone
    · rw [hfree c hc] at hl
      cases hl
    · exact hnone
  armed c q v hc ha hv := by
    rw [hcall] at hc
    exact Bool.eq_false_iff.2 fun hq => Bool.eq_false_iff.1 (h.armed c q v hc ha hv) (hnotify q hq)

theorem runIsr (h : CoverInv s) {step : IsrStep} (hs : s.isr = some step) :
    CoverInv (s.runIsr step) := by
  have hbusy : s.isr = none → (∀ c, s.call = some c → c.step.locked = false) ∨
      (s.runIsr step).isr = none := by
    intro hnone
    rw [hs] at hnone
    cases hnone
  -- a cause in the ISR is one that the ISR is about to save
  have hisr : ∀ {q}, s.Covered q → q.isIn s.cpuMaskStatus = false ∨
      (∃ intrStatus, step = .save intrStatus ∧ q.isIn intrStatus = true) ∨
      q.isIn s.savedStatus = true ∨ ∃ d ∈ s.dpcs, d.holds q = true := by
    intro q hcov
    rw [Interrupt.Covered, hs] at hcov
    refine hcov.imp_right (Or.imp_left ?_)
    rintro ⟨v, hv, hq⟩
    exact ⟨v, Option.some.inj hv, hq⟩
  have hqueued : step ≠ .queueDpc → ∀ q : Queue, q.isIn s.savedStatus = true →
      s.dpcQueued = true ∨ .take ∈ s.dpcs := by
    intro hne q hq
    rcases h.dpc q hq with hdpc | hdpc | hdpc
    · exact .inl hdpc
    · exact absurd (Option.some.inj (hs.symm.trans hdpc)) hne
    · exact .inr hdpc
  cases step with
  | readStatus | readMask | clear =>
    refine h.congr rfl (fun q hq => hq) (fun q _ hcov => ?_) (fun q hq => ?_) hbusy
    · rcases hisr hcov with hmask | ⟨v, hv, -⟩ | hcov
      · exact .inl hmask
      · cases hv
      · exact .inr (.inr hcov)
    · exact (hqueued (fun hne => by cases hne) q hq).imp_right .inr
  | maskSet intrStatus =>
    refine h.congr rfl (fun q hq => hq) (fun q _ hcov => ?_) (fun q hq => ?_) hbusy
    · rcases hisr hcov with hmask | ⟨v, hv, -⟩ | hcov
      · by_cases hin : q.isIn intrStatus = true
        · exact .inr (.inl ⟨intrStatus, rfl, hin⟩)
        · refine .inl ?_
          show q.isIn (_ ||| _) = false
          simp [hmask, hin]
      · cases hv
      · exact .inr (.inr hcov)
    · exact (hqueued (fun hne => by cases hne) q hq).imp_right .inr
  | save intrStatus =>
    refine h.congr rfl (fun q hq => hq) (fun q _ hcov => ?_) (fun q _ => .inr (.inl rfl)) hbusy
    rcases hisr hcov with hmask | ⟨v, hv, hin⟩ | hsaved | hheld
    · exact .inl hmask
    · obtain rfl : intrStatus = v := by cases hv; rfl
      refine .inr (.inr (.inl ?_))
      show q.isIn (_ ||| _) = true
      simp [hin]
    · refine .inr (.inr (.inl ?_))
      show q.isIn (_ ||| _) = true
      simp [hsaved]
    · exact .inr (.inr (.inr hheld))
  | queueDpc =>
    refine h.congr rfl (fun q hq => hq) (fun q _ hcov => ?_) (fun q _ => .inl rfl) fun _ => .inr rfl
    rcases hisr hcov with hmask | ⟨v, hv, -⟩ | hcov
    · exact .inl hmask
    · cases hv
    · exact .inr (.inr hcov)

/-- A step of a DPC, which hands on what it holds of the flags that stay set. -/
theorem runDpc (h : CoverInv s) {d : DpcStep} {rest : List DpcStep} {s' : Interrupt}
    (hcall : s'.call = s.call) (hisr : s'.isr = s.isr) (hmask : s'.cpuMaskStatus = s.cpuMaskStatus)
    (hqueued : s'.dpcQueued = s.dpcQueued) (hdpcs : s'.dpcs = advance s.dpcs d rest)
    (hnotify : ∀ q, s'.notify q = true → s.notify q = true)
    (hsaved : ∀ q : Queue, q.isIn s'.savedStatus = true → q.isIn s.savedStatus = true ∧ d ≠ .take)
    (htaken : ∀ q : Queue, s'.notify q = true → q.isIn s.savedStatus = true →
      q.isIn s'.savedStatus = true ∨ ∃ e ∈ rest, e.holds q = true)
    (hrest : ∀ q, s'.notify q = true → d.holds q = true → ∃ e ∈ rest, e.holds q = true) :
    CoverInv s' := by
  have hmem : ∀ {q}, (∃ e ∈ rest, e.holds q = true) → ∃ e ∈ s'.dpcs, e.holds q = true := by
    rintro q ⟨e, he, hheld⟩
    rw [hdpcs]
    exact ⟨e, List.mem_append_left _ he, hheld⟩
  refine h.congr hcall hnotify (fun q hq hcov => ?_) (fun q hq => ?_) fun hnone => ?_
  · rw [Interrupt.Covered, hmask, hisr]
    rcases hcov with hmasked | hintr | hin | ⟨e, he, hheld⟩
    · exact .inl hmasked
    · exact .inr (.inl hintr)
    · exact .inr (.inr ((htaken q hq hin).imp_right hmem))
    · refine .inr (.inr (.inr ?_))
      by_cases heq : e = d
      · exact hmem (hrest q hq (heq ▸ hheld))
      · rw [hdpcs]
        exact ⟨e, mem_advance_of_ne he heq, hheld⟩
  · obtain ⟨hin, hne⟩ := hsaved q hq
    rw [hqueued, hisr, hdpcs]
    refine (h.dpc q hin).imp_right (Or.imp_right fun htake => ?_)
    exact mem_advance_of_ne htake (Ne.symm hne)
  · rw [hisr]
    exact .inr hnone

theorem holds_of_after {q r : Queue} {v : BitVec 32} (h : (DpcStep.test r v).holds q = true)
    (hne : q ≠ r) : ∃ e ∈ DpcStep.after v r, e.holds q = true := by
  cases r with
  | tx =>
    cases q with
    | tx => exact absurd rfl hne
    | rx => exact ⟨_, List.mem_singleton_self _, h⟩
  | rx =>
    cases q with
    | tx => cases h
    | rx => exact absurd rfl hne

/-- A DPC that is past the flag of a queue holds what it has left. -/
theorem holds_notify {q r : Queue} {v : BitVec 32} {k : Nat} :
    (DpcStep.notify r v k).holds q = true ↔ ∃ e ∈ DpcStep.after v r, e.holds q = true := by
  cases r with
  | tx =>
    constructor
    · exact fun h => ⟨_, List.mem_singleton_self _, h⟩
    · rintro ⟨e, he, hheld⟩
      obtain rfl := List.mem_singleton.1 he
      exact hheld
  | rx =>
    constructor
    · intro h
      cases h
    · rintro ⟨e, he, -⟩
      cases he

theorem dpc_step (h : CoverInv s) (d : DpcStep) : CoverInv (s.runDpc d) := by
  cases d with
  | take =>
    refine h.runDpc (d := .take) rfl rfl rfl rfl rfl (fun q hq => hq) (fun q hq => ?_)
      (fun q _ hin => .inr ⟨_, List.mem_singleton_self _, ?_⟩) fun q _ hheld => by cases hheld
    · rw [Interrupt.runDpc] at hq
      simp at hq
    · cases q with
      | tx => exact hin
      | rx => exact hin
  | test r v =>
    rw [Interrupt.runDpc]
    split
    · have hkeep : ∀ q, Function.update s.notify r false q = true → q ≠ r ∧ s.notify q = true := by
        intro q hq
        by_cases hqr : q = r
        · rw [hqr, Function.update_self] at hq
          cases hq
        · exact ⟨hqr, (Function.update_of_ne hqr ..).symm.trans hq⟩
      refine h.runDpc (d := .test r v) rfl rfl rfl rfl rfl (fun q hq => (hkeep q hq).2)
        (fun q hq => ⟨hq, fun hc => by cases hc⟩) (fun q _ hin => .inl hin) fun q hq hheld => ?_
      have hafter := holds_of_after hheld (hkeep q hq).1
      split
      · exact ⟨_, List.mem_singleton_self _, holds_notify.2 hafter⟩
      · exact hafter
    · next hin =>
      refine h.runDpc (d := .test r v) rfl rfl rfl rfl rfl (fun q hq => hq)
        (fun q hq => ⟨hq, fun hc => by cases hc⟩) (fun q _ hin => .inl hin) fun q hq hheld => ?_
      refine holds_of_after hheld fun hqr => hin ?_
      subst hqr
      cases q with
      | tx => exact hheld
      | rx => exact hheld
  | notify r v k =>
    exact h.runDpc (d := .notify r v k) rfl rfl rfl rfl rfl (fun q hq => hq)
      (fun q hq => ⟨hq, fun hc => by cases hc⟩) (fun q _ hin => .inl hin)
      fun q _ hheld => holds_notify.1 hheld

/-- Every step keeps the invariant. -/
theorem step (h : CoverInv s) {a : IntrAction} (hen : s.enabled a) : CoverInv (s.effect a) := by
  cases a with
  | cause v =>
    exact h.congr rfl (fun q hq => hq) (fun q _ hcov => hcov) h.dpc .inr
  | setNotificationEnabled r enabled =>
    refine ⟨fun q hq => (h.covered q hq).imp_right ?_, h.dpc, fun c hc hl => ?_,
      fun c q v hc ha => ?_⟩
    · rintro ⟨c, hc, -⟩
      rw [show s.call = none from hen] at hc
      cases hc
    · obtain rfl := Option.some.inj hc
      cases hl
    · obtain rfl := Option.some.inj hc
      cases ha
  | call =>
    obtain ⟨c, hc, hlock⟩ := hen
    rw [show s.effect .call = s.runCall c by rw [Interrupt.effect, Option.mem_def.1 hc]]
    exact h.runCall hc hlock
  | startIsr =>
    refine h.congr rfl (fun q hq => hq) (fun q _ hcov => ?_) (fun q hq => ?_)
      fun _ => .inl hen.2
    · refine hcov.imp_right (Or.imp_left ?_)
      rintro ⟨v, hv, -⟩
      rw [hen.1] at hv
      cases hv
    · rcases h.dpc q hq with hdpc | hdpc | hdpc
      · exact .inl hdpc
      · rw [hen.1] at hdpc
        cases hdpc
      · exact .inr (.inr hdpc)
  | isr =>
    obtain ⟨step, hs⟩ := Option.isSome_iff_exists.1 hen
    rw [show s.effect .isr = s.runIsr step by rw [Interrupt.effect, hs]]
    exact h.runIsr hs
  | startDpc =>
    refine h.congr rfl (fun q hq => hq) (fun q _ hcov => ?_)
      (fun q _ => .inr (.inr List.mem_cons_self)) .inr
    refine hcov.imp_right (Or.imp_right (Or.imp_right ?_))
    rintro ⟨d, hd, hheld⟩
    exact ⟨d, List.mem_cons_of_mem _ hd, hheld⟩
  | dpc d => exact h.dpc_step d

end CoverInv

/-! ## A DPC notifies -/

namespace Interrupt

variable {s : Interrupt} {q : Queue}

/-- A step of the ISR or of a DPC that keeps the number of the last enable. -/
theorem WillNotify.of_step {a : IntrAction} (hdelivery : a.isDelivery = true) (hen : s.enabled a)
    (henables : (s.effect a).enables q = s.enables q) (h : (s.effect a).WillNotify q) :
    s.WillNotify q := by
  obtain ⟨s', hs', hmem⟩ := h
  exact ⟨s', .head hdelivery (Machine.guarded_step.2 ⟨hen, rfl⟩) hs', henables ▸ hmem⟩

theorem willNotify_of_notify {v : BitVec 32} (h : .notify q v (s.enables q) ∈ s.dpcs) :
    s.WillNotify q := by
  have hen : s.enabled (.dpc (.notify q v (s.enables q))) := h
  refine ⟨s.effect (.dpc (.notify q v (s.enables q))),
    .single rfl (Machine.guarded_step.2 ⟨hen, rfl⟩), ?_⟩
  show s.enables q ∈ Function.update s.notified q _ q
  simp

/-- A DPC that comes to the flag of the queue, finds it set and its bit too. -/
theorem willNotify_of_test {v : BitVec 32} (h : .test q v ∈ s.dpcs) (hin : q.isIn v = true)
    (hq : s.notify q = true) : s.WillNotify q := by
  have heffect : s.effect (.dpc (.test q v)) = { s with
      notify := Function.update s.notify q false
      dpcs := advance s.dpcs (.test q v) [.notify q v (s.enables q)] } := by
    show s.runDpc (.test q v) = _
    rw [runDpc, if_pos hin, if_pos hq]
  refine .of_step (a := .dpc (.test q v)) rfl h (by rw [heffect]) ?_
  rw [heffect]
  exact willNotify_of_notify (v := v) (List.mem_append_left _ (List.mem_singleton_self _))

theorem willNotify_of_holds {d : DpcStep} (h : d ∈ s.dpcs) (hheld : d.holds q = true)
    (hq : s.notify q = true) : s.WillNotify q := by
  -- the DPC that is at the flag of the other queue still has to pass it
  have hpast : ∀ {s : Interrupt} {v k}, .notify .tx v k ∈ s.dpcs → Queue.rx.isIn v = true →
      s.notify .rx = true → s.WillNotify .rx := by
    intro s v k h hin hq
    exact .of_step (a := .dpc (.notify .tx v k)) rfl h rfl
      (willNotify_of_test (List.mem_append_left _ (List.mem_singleton_self _)) hin hq)
  cases d with
  | take => cases hheld
  | test r v =>
    cases r with
    | rx =>
      obtain ⟨hqueue, hin⟩ := Bool.and_eq_true_iff.1 hheld
      obtain rfl := of_decide_eq_true hqueue
      exact willNotify_of_test h hin hq
    | tx =>
      cases q with
      | tx => exact willNotify_of_test h hheld hq
      | rx =>
        refine .of_step (a := .dpc (.test .tx v)) rfl h ?_ ?_
        · show (s.runDpc (.test .tx v)).enables .rx = _
          rw [runDpc]
          split <;> rfl
        · show (s.runDpc (.test .tx v)).WillNotify .rx
          rw [runDpc]
          split
          · by_cases htx : s.notify .tx = true
            · rw [if_pos htx]
              exact hpast (List.mem_append_left _ (List.mem_singleton_self _)) hheld hq
            · rw [if_neg htx]
              exact willNotify_of_test (List.mem_append_left _ (List.mem_singleton_self _)) hheld hq
          · exact willNotify_of_test (List.mem_append_left _ (List.mem_singleton_self _)) hheld hq
  | notify r v k =>
    cases r with
    | rx => cases hheld
    | tx =>
      obtain ⟨hqueue, hin⟩ := Bool.and_eq_true_iff.1 hheld
      obtain rfl := of_decide_eq_true hqueue
      exact hpast h hin hq

/-- A DPC that takes what has been saved. -/
theorem willNotify_of_take (h : .take ∈ s.dpcs) (hin : q.isIn s.savedStatus = true)
    (hq : s.notify q = true) : s.WillNotify q := by
  refine .of_step (a := .dpc .take) rfl h rfl ?_
  refine willNotify_of_holds (d := .test .tx s.savedStatus)
    (List.mem_append_left _ (List.mem_singleton_self _)) ?_ hq
  cases q with
  | tx => exact hin
  | rx => exact hin

theorem willNotify_of_queued (h : s.dpcQueued = true) (hin : q.isIn s.savedStatus = true)
    (hq : s.notify q = true) : s.WillNotify q :=
  .of_step (a := .startDpc) rfl h rfl (willNotify_of_take List.mem_cons_self hin hq)

theorem SavedForDpc.willNotify (h : s.SavedForDpc q) (hq : s.notify q = true) : s.WillNotify q := by
  rcases h with ⟨hin, hqueued | htake⟩ | ⟨d, hd, hheld⟩
  · exact willNotify_of_queued hqueued hin hq
  · exact willNotify_of_take htake hin hq
  · exact willNotify_of_holds hd hheld hq

theorem InIsr.willNotify (h : s.InIsr q) (hq : s.notify q = true) : s.WillNotify q := by
  have hqueue : ∀ {s : Interrupt}, s.isr = some .queueDpc → q.isIn s.savedStatus = true →
      s.notify q = true → s.WillNotify q := by
    intro s hs hin hq
    have heffect : s.effect .isr = { s with dpcQueued := true, isr := none } := by
      rw [effect, hs]
      rfl
    refine .of_step (a := .isr) rfl (by rw [enabled, hs]; rfl) (by rw [heffect]) ?_
    rw [heffect]
    exact willNotify_of_queued rfl hin hq
  rcases h with ⟨v, hs, hin⟩ | ⟨hs, hin⟩
  · have heffect : s.effect .isr =
        { s with savedStatus := s.savedStatus ||| v, isr := some .queueDpc } := by
      rw [effect, hs]
      rfl
    refine .of_step (a := .isr) rfl (by rw [enabled, hs]; rfl) (by rw [heffect]) ?_
    rw [heffect]
    refine hqueue rfl ?_ hq
    show q.isIn (_ ||| _) = true
    simp [hin]
  · exact hqueue hs hin hq

end Interrupt

/-! ## Each enable is notified at most once -/

/-- The enable for which the DPC is about to notify the queue. -/
def DpcStep.answers (q : Queue) : DpcStep → Option Nat
  | .notify r _ k => if r = q then some k else none
  | _ => none

/-- The enables of a queue that are notified, or about to be. -/
def Interrupt.answered (s : Interrupt) (q : Queue) : List Nat :=
  s.notified q ++ s.dpcs.filterMap (DpcStep.answers q)

/-- What every reachable state satisfies for a queue. -/
structure OnceInv (s : Interrupt) (q : Queue) : Prop where
  nodup : (s.answered q).Nodup
  numbered : ∀ k ∈ s.answered q, 0 < k ∧ k ≤ s.enables q
  /-- while the flag is set the last enable has not been notified -/
  fresh : s.notify q = true → 0 < s.enables q ∧ s.enables q ∉ s.answered q

theorem filterMap_answers_after (q r : Queue) (v : BitVec 32) :
    (DpcStep.after v r).filterMap (DpcStep.answers q) = [] := by
  cases r <;> rfl

namespace OnceInv

variable {s s' : Interrupt} {q : Queue}

/-- What has been answered when a DPC goes on and perhaps notifies. -/
theorem answered_advance (s' : Interrupt) {d : DpcStep} {rest : List DpcStep} (new : List Nat)
    (hd : d ∈ s.dpcs) (hdpcs : s'.dpcs = advance s.dpcs d rest)
    (hnotified : s'.notified q = s.notified q ++ new) :
    ((d.answers q).toList ++ s'.answered q).Perm
      (new ++ rest.filterMap (DpcStep.answers q) ++ s.answered q) := by
  have hpool := filterMap_advance (DpcStep.answers q) hd rest
  rw [Interrupt.answered, Interrupt.answered, hdpcs, hnotified]
  refine List.perm_iff_count.2 fun k => ?_
  have hcount := hpool.count_eq k
  simp only [List.count_append] at hcount ⊢
  omega

/-- A step that answers no enable. -/
theorem of_perm (h : OnceInv s q) (hperm : (s'.answered q).Perm (s.answered q))
    (henables : s'.enables q = s.enables q) (hnotify : s'.notify q = true → s.notify q = true) :
    OnceInv s' q where
  nodup := hperm.nodup_iff.2 h.nodup
  numbered k hk := by
    rw [henables]
    exact h.numbered k (hperm.mem_iff.1 hk)
  fresh hq := by
    rw [henables, hperm.mem_iff]
    exact h.fresh (hnotify hq)

/-- A DPC that finds the flag set answers the last enable. -/
theorem answer (h : OnceInv s q) (hperm : (s'.answered q).Perm (s.enables q :: s.answered q))
    (henables : s'.enables q = s.enables q) (hq : s.notify q = true) (hq' : s'.notify q = false) :
    OnceInv s' q where
  nodup := hperm.nodup_iff.2 (List.nodup_cons.2 ⟨(h.fresh hq).2, h.nodup⟩)
  numbered k hk := by
    rw [henables]
    rcases List.mem_cons.1 (hperm.mem_iff.1 hk) with rfl | hk
    · exact ⟨(h.fresh hq).1, Nat.le_refl _⟩
    · exact h.numbered k hk
  fresh hset := by
    rw [hq'] at hset
    cases hset

theorem exchange (h : OnceInv s q) {c : SetCall} (hc : c.step = .exchange) :
    OnceInv (s.runCall c) q := by
  obtain ⟨queue, enabled, step⟩ := c
  obtain rfl : step = .exchange := hc
  by_cases hqueue : queue = q
  · subst hqueue
    cases enabled with
    | false =>
      refine h.of_perm (.refl _) rfl fun hset => ?_
      rw [show (s.runCall ⟨queue, false, .exchange⟩).notify queue = false from
        Function.update_self ..] at hset
      cases hset
    | true =>
      have henables : (s.runCall ⟨queue, true, .exchange⟩).enables queue = s.enables queue + 1 :=
        Function.update_self ..
      refine ⟨h.nodup, fun k hk => ?_, fun _ => ?_⟩
      · obtain ⟨hpos, hle⟩ := h.numbered k hk
        exact ⟨hpos, by omega⟩
      · refine ⟨by omega, fun hmem => ?_⟩
        have hle := (h.numbered _ hmem).2
        omega
  · refine h.of_perm (.refl _) ?_ fun hset => ?_
    · cases enabled with
      | false => rfl
      | true => exact Function.update_of_ne (Ne.symm hqueue) ..
    · have heq : Function.update s.notify queue enabled q = s.notify q :=
        Function.update_of_ne (Ne.symm hqueue) ..
      exact heq.symm.trans hset

theorem runDpc (h : OnceInv s q) {d : DpcStep} (hd : d ∈ s.dpcs) : OnceInv (s.runDpc d) q := by
  cases d with
  | take =>
    exact h.of_perm (answered_advance (s.runDpc .take) [] hd rfl
      (List.append_nil _).symm) rfl id
  | test r v =>
    have hsame : ∀ {s' : Interrupt}, s'.dpcs = advance s.dpcs (.test r v) (DpcStep.after v r) →
        s'.notified q = s.notified q → (s'.answered q).Perm (s.answered q) := by
      intro s' hdpcs hnotified
      have hperm := answered_advance s' [] hd hdpcs
        (hnotified.trans (List.append_nil _).symm)
      rwa [filterMap_answers_after] at hperm
    rw [Interrupt.runDpc]
    split
    · by_cases hset : s.notify r = true
      · rw [if_pos hset]
        have hperm := answered_advance (q := q) { s with
          notify := Function.update s.notify r false
          dpcs := advance s.dpcs (.test r v) [.notify r v (s.enables r)] } [] hd rfl
          (List.append_nil _).symm
        by_cases hqr : r = q
        · subst hqr
          refine h.answer ?_ rfl hset (Function.update_self ..)
          simpa [DpcStep.answers] using hperm
        · refine h.of_perm ?_ rfl fun hq => ?_
          · simpa [DpcStep.answers, hqr] using hperm
          · exact (Function.update_of_ne (Ne.symm hqr) ..).symm.trans hq
      · rw [if_neg hset]
        refine h.of_perm (hsame rfl rfl) rfl fun hq => ?_
        by_cases hqr : q = r
        · rw [hqr] at hq
          exact absurd ((Function.update_self r false s.notify).symm.trans hq) fun hc => by cases hc
        · exact (Function.update_of_ne hqr ..).symm.trans hq
    · exact h.of_perm (hsame rfl rfl) rfl id
  | notify r v k =>
    by_cases hqr : r = q
    · subst hqr
      have hperm := answered_advance (q := r) (s.runDpc (.notify r v k)) [k] hd rfl
        (Function.update_self ..)
      rw [filterMap_answers_after, DpcStep.answers, if_pos rfl] at hperm
      exact h.of_perm (List.perm_cons k |>.1 hperm) rfl id
    · have hperm := answered_advance (q := q) (s.runDpc (.notify r v k)) [] hd rfl
        ((Function.update_of_ne (Ne.symm hqr) ..).trans (List.append_nil _).symm)
      rw [filterMap_answers_after, DpcStep.answers, if_neg hqr] at hperm
      exact h.of_perm hperm rfl id

/-- Every step keeps the invariant. -/
theorem step (h : OnceInv s q) {a : IntrAction} (hen : s.enabled a) : OnceInv (s.effect a) q := by
  cases a with
  | cause | setNotificationEnabled | startIsr => exact h.of_perm (.refl _) rfl id
  | call =>
    obtain ⟨c, hc, -⟩ := hen
    rw [show s.effect .call = s.runCall c by rw [Interrupt.effect, Option.mem_def.1 hc]]
    obtain ⟨queue, enabled, step⟩ := c
    cases step with
    | exchange => exact h.exchange rfl
    | release =>
      rw [Interrupt.runCall]
      dsimp only
      split
      · exact h.of_perm (.refl _) rfl id
      · exact h.of_perm (.refl _) rfl id
    | acquire | readTx | readRx | maskSet | maskClear | flush => exact h.of_perm (.refl _) rfl id
  | isr =>
    obtain ⟨step, hs⟩ := Option.isSome_iff_exists.1 hen
    rw [show s.effect .isr = s.runIsr step by rw [Interrupt.effect, hs]]
    cases step with
    | readStatus | readMask | clear | maskSet | save | queueDpc =>
      exact h.of_perm (.refl _) rfl id
  | startDpc => exact h.of_perm (.refl _) rfl id
  | dpc d => exact h.runDpc hen

end OnceInv

/-! ## Every interleaving -/

/-- **An enabled queue is covered outside the callbacks, and each enable is notified at most once**,
in every run. -/
theorem notificationSound_of_reachable {s : Interrupt} (h : interruptMachine.Reachable s) :
    NotificationSound s := by
  obtain ⟨hcover, honce⟩ : CoverInv s ∧ ∀ q, OnceInv s q := by
    refine h.inv_guarded (P := fun s => CoverInv s ∧ ∀ q, OnceInv s q) (fun s hs => ?_)
      fun s a hinv _ hen => ⟨hinv.1.step hen, fun q => (hinv.2 q).step hen⟩
    obtain ⟨-, hnotify, hsaved, -, hcall, -, hdpcs, -, hnotified⟩ := hs
    refine ⟨.of_init hnotify hsaved hcall, fun q => ?_⟩
    have hnone : s.answered q = [] := by rw [Interrupt.answered, hdpcs, hnotified]; rfl
    refine ⟨?_, fun k hk => ?_, fun hq => ?_⟩
    · rw [hnone]
      exact .nil
    · rw [hnone] at hk
      cases hk
    · rw [hnotify] at hq
      cases hq
  constructor
  · intro hcall q hq
    have hcov : s.Covered q := by
      rcases hcover.covered q hq with hcov | ⟨c, hc, -⟩
      · exact hcov
      · rw [hcall] at hc
        cases hc
    have hcome : s.SavedForDpc q ∨ s.InIsr q → (s.SavedForDpc q ∨ s.InIsr q) ∧ s.WillNotify q :=
      fun hor => ⟨hor, hor.elim (·.willNotify hq) (·.willNotify hq)⟩
    rcases hcov with hmask | hsave | hsaved | hheld
    · exact .inl hmask
    · exact .inr (hcome (.inr (.inl hsave)))
    · refine .inr (hcome ?_)
      rcases hcover.dpc q hsaved with hqueued | hisr | htake
      · exact .inl (.inl ⟨hsaved, .inl hqueued⟩)
      · exact .inr (.inr ⟨hisr, hsaved⟩)
      · exact .inl (.inl ⟨hsaved, .inr htake⟩)
    · exact .inr (hcome (.inl (.inr hheld)))
  · intro q
    exact ⟨(List.nodup_append.1 (honce q).nodup).1,
      fun k hk => (honce q).numbered k (List.mem_append_left _ hk)⟩

/-- A device that has been reset. -/
def Interrupt.reset : Interrupt where
  cpuStatus := 0
  cpuMaskStatus := 0xffffffff#32
  notify := fun _ => false
  savedStatus := 0
  dpcQueued := false
  call := none
  isr := none
  dpcs := []
  enables := fun _ => 0
  notified := fun _ => []

theorem Interrupt.reset_init : interruptMachine.init .reset :=
  ⟨rfl, rfl, rfl, rfl, rfl, rfl, rfl, rfl, rfl⟩

/-- The notification of the receive queue is enabled, a packet comes, and the ISR gets as far as
masking the interrupt. -/
def receiveRun : List IntrAction :=
  [.setNotificationEnabled .rx true, .call, .call, .call, .call, .call, .call, .call,
    .cause Queue.rx.done, .startIsr, .isr, .isr, .isr, .isr]

theorem notificationSound_receive : ∃ s, interruptMachine.Reachable s ∧
    s.notified .rx = [1] ∧ NotificationSound s := by
  obtain ⟨s, hs, hp⟩ := interruptMachine.reach_exec_any (receiveRun ++
      [IntrAction.isr, .isr, .startDpc, .dpc .take, .dpc (.test .tx Queue.rx.done),
        .dpc (.test .rx Queue.rx.done), .dpc (.notify .rx Queue.rx.done 1)])
    (p := fun s => s.notified .rx = [1]) Interrupt.reset_init (by decide +kernel)
  exact ⟨s, hs, of_decide_eq_true hp, notificationSound_of_reachable hs⟩

/-- **In the ISR the interrupt is masked before its cause is saved**: for that moment the enabled
queue has neither. -/
theorem masked_not_saved : ¬ ∀ s, interruptMachine.Reachable s → s.call = none →
    ∀ q : Queue, s.notify q = true → q.isIn s.cpuMaskStatus = false ∨ s.SavedForDpc q := by
  intro h
  obtain ⟨s, hs, hp⟩ := interruptMachine.reach_exec_any receiveRun
    (p := fun s => s.call.isNone && s.notify .rx && Queue.rx.isIn s.cpuMaskStatus &&
      !Queue.rx.isIn s.savedStatus && s.dpcs.isEmpty) Interrupt.reset_init (by decide +kernel)
  simp only [Bool.and_eq_true, Bool.not_eq_true', Option.isNone_iff_eq_none,
    List.isEmpty_iff] at hp
  obtain ⟨⟨⟨⟨hcall, hnotify⟩, hmask⟩, hsaved⟩, hdpcs⟩ := hp
  rcases h s hs hcall .rx hnotify with hunmasked | ⟨hin, -⟩ | ⟨d, hd, -⟩
  · rw [hmask] at hunmasked
    cases hunmasked
  · rw [hsaved] at hin
    cases hin
  · rw [hdpcs] at hd
    cases hd

end RpiDrivers.Genet
