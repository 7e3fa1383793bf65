import Mathlib.Logic.Function.Basic
import Mathlib.Data.List.Basic
import RpiDrivers.Lib.Machine
import RpiDrivers.Vchiq.Slots

/-!
# Reference counts and recycling of RX slots (`slots.c`)

The RX thread walks a slot that the VideoCore has filled, takes one reference per
message it keeps (`VchiqAddRefMsg`), and when it moves past the slot gives up its
own hold through `VchiqRecycleSlot`. Any thread that is done with a message calls
`VchiqReleaseMsg`, which decrements the count and then runs the same
`VchiqRecycleSlot`. That function takes no lock before its test:

    curSlotRefCount = InterlockedExchange(&RefCount, RefCount);
    if ((curSlotRefCount == 0) && (SlotInUse == FALSE)) { ... queue the slot ... }

The argument of the exchange is read first, the exchange follows, and `SlotInUse`
is read last, so the function is four atomic steps here (`RecyclePc`), and the
steps of all threads interleave.

- `RecycledOnce`: every fill of a slot is answered by exactly one recycle, and only
  once the RX thread has left the slot and every reference on it is gone.
- `Exclusive`: the condition on the state before a step under which the test of one
  thread is not disturbed by the others.
- `slotRefs_inv`: **the invariant of runs that keep to `Exclusive`**, from which
  `recycledOnce_of_exclusive` reads the property off.
- `recycled_twice`: without the condition two threads queue one slot twice.
-/

namespace RpiDrivers.Vchiq

open RpiDrivers.Lib

/-- `SLOT_INFO` -/
structure SlotInfo where
  refCount : Int
  slotInUse : Bool

/-- The threads that handle RX messages: the RX thread and any number of others. -/
inductive Thread
  | rx
  | other (n : Nat)
  deriving DecidableEq

/-- Where a thread stands inside `VchiqRecycleSlot`. -/
inductive RecyclePc
  /-- not in the function -/
  | idle
  /-- about to read `RefCount`, the argument of the exchange -/
  | read (slot : Nat)
  /-- about to exchange `RefCount` with the value read -/
  | exchange (slot : Nat) (value : Int)
  /-- about to test the count obtained and `SlotInUse` -/
  | test (slot : Nat) (curSlotRefCount : Int)
  /-- about to queue the slot under `RecycleSlotMutex` -/
  | queue (slot : Nat)
  deriving DecidableEq

/-- The slot whose recycling the thread is deciding. -/
def RecyclePc.slot? : RecyclePc → Option Nat
  | .idle => none
  | .read slot | .exchange slot _ | .test slot _ | .queue slot => some slot

/-- The device state the RX slots live in. `held`, `fills` and `recycled` are history:
the references taken and not yet released, how often each slot was filled, and the
slots put on the recycle queue so far. -/
structure RxSlots where
  /-- `RxSlotInfo` -/
  rxSlotInfo : Nat → SlotInfo
  /-- `MasterCurrentSlot` and `MasterCurrentSlotIndex`: the slot the RX thread is in -/
  masterCurrentSlot : Option Nat
  /-- `Master.SlotQueue` -/
  slotQueue : Nat → Nat
  /-- `Master.SlotQueueRecycle` -/
  slotQueueRecycle : Nat
  pc : Thread → RecyclePc
  held : Nat → Nat
  fills : Nat → Nat
  recycled : List Nat

namespace RxSlots

/-- `currentSlotPtr->SlotInUse = inUse` -/
def setInUse (s : RxSlots) (slot : Nat) (inUse : Bool) : RxSlots :=
  { s with rxSlotInfo :=
      Function.update s.rxSlotInfo slot { s.rxSlotInfo slot with slotInUse := inUse } }

/-- `RefCount = count` -/
def setRefCount (s : RxSlots) (slot : Nat) (count : Int) : RxSlots :=
  { s with rxSlotInfo :=
      Function.update s.rxSlotInfo slot { s.rxSlotInfo slot with refCount := count } }

/-- Move thread `t` to `pc`. -/
def setPc (s : RxSlots) (t : Thread) (pc : RecyclePc) : RxSlots :=
  { s with pc := Function.update s.pc t pc }

/-- The RX thread finds `MasterCurrentSlot == NULL`, looks the next slot up and marks it. -/
def takeSlot (s : RxSlots) (slot : Nat) : RxSlots :=
  { s.setInUse slot true with
    masterCurrentSlot := some slot
    fills := Function.update s.fills slot (s.fills slot + 1) }

/-- `VchiqAddRefMsg` -/
def vchiqAddRefMsg (s : RxSlots) (slot : Nat) : RxSlots :=
  { s.setRefCount slot ((s.rxSlotInfo slot).refCount + 1) with
    held := Function.update s.held slot (s.held slot + 1) }

/-- `VchiqReleaseMsg` up to its call of `VchiqRecycleSlot(slot, FALSE)`. -/
def vchiqReleaseMsg (s : RxSlots) (t : Thread) (slot : Nat) : RxSlots :=
  { s.setRefCount slot ((s.rxSlotInfo slot).refCount - 1) with
    held := Function.update s.held slot (s.held slot - 1)
    pc := Function.update s.pc t (.read slot) }

/-- The RX thread moves past its slot: `VchiqRecycleSlot(slot, TRUE)` clears `SlotInUse`.
`MasterCurrentSlot = NULL` follows the call in the source, and nothing reads it before. -/
def leaveSlot (s : RxSlots) (slot : Nat) : RxSlots :=
  { s.setInUse slot false with
    masterCurrentSlot := none
    pc := Function.update s.pc .rx (.read slot) }

/-- The section under `RecycleSlotMutex`: append the slot to the recycle queue. -/
def queueSlot (s : RxSlots) (slot : Nat) : RxSlots :=
  { s with
    slotQueue := Function.update s.slotQueue (s.slotQueueRecycle &&& vchiqSlotQueueMask) slot
    slotQueueRecycle := addPos s.slotQueueRecycle 1
    recycled := s.recycled ++ [slot] }

/-- The next atomic step of thread `t` inside `VchiqRecycleSlot`. -/
def vchiqRecycleSlot (s : RxSlots) (t : Thread) : RxSlots :=
  match s.pc t with
  | .idle => s
  | .read slot => s.setPc t (.exchange slot (s.rxSlotInfo slot).refCount)
  | .exchange slot value =>
    (s.setRefCount slot value).setPc t (.test slot (s.rxSlotInfo slot).refCount)
  | .test slot curSlotRefCount =>
    if curSlotRefCount = 0 ∧ (s.rxSlotInfo slot).slotInUse = false then s.setPc t (.queue slot)
    else s.setPc t .idle
  | .queue slot => (s.queueSlot slot).setPc t .idle

end RxSlots

/-- The atomic steps of all threads. -/
inductive SlotAction
  /-- the RX thread enters a slot the VideoCore has filled -/
  | takeSlot (slot : Nat)
  /-- `VchiqAddRefMsg`, for a new message or for a message handed over between lists -/
  | addRef (t : Thread) (slot : Nat)
  /-- `VchiqReleaseMsg` -/
  | release (t : Thread) (slot : Nat)
  /-- the RX thread moves past its slot -/
  | leaveSlot (slot : Nat)
  /-- one step of a thread inside `VchiqRecycleSlot` -/
  | recycle (t : Thread)

/-- When a step can happen. The VideoCore fills a slot again only after it was
recycled; a reference is taken by the RX thread for the slot it is in, or by a
thread that holds one already; only a held reference is released. -/
def slotEnabled (s : RxSlots) : SlotAction → Prop
  | .takeSlot slot =>
    s.pc .rx = .idle ∧ s.masterCurrentSlot = none ∧ s.fills slot ≤ s.recycled.count slot
  | .addRef t slot =>
    s.pc t = .idle ∧ (t = .rx ∧ s.masterCurrentSlot = some slot ∨ 0 < s.held slot)
  | .release t slot => s.pc t = .idle ∧ 0 < s.held slot
  | .leaveSlot slot => s.pc .rx = .idle ∧ s.masterCurrentSlot = some slot
  | .recycle t => s.pc t ≠ .idle

instance : ∀ s a, Decidable (slotEnabled s a)
  | _, .takeSlot _ => inferInstanceAs (Decidable (_ ∧ _))
  | _, .addRef _ _ => inferInstanceAs (Decidable (_ ∧ _))
  | _, .release _ _ => inferInstanceAs (Decidable (_ ∧ _))
  | _, .leaveSlot _ => inferInstanceAs (Decidable (_ ∧ _))
  | _, .recycle _ => inferInstanceAs (Decidable (_ ≠ _))

/-- What a step does. -/
def slotEffect (s : RxSlots) : SlotAction → RxSlots
  | .takeSlot slot => s.takeSlot slot
  | .addRef _ slot => s.vchiqAddRefMsg slot
  | .release t slot => s.vchiqReleaseMsg t slot
  | .leaveSlot slot => s.leaveSlot slot
  | .recycle t => s.vchiqRecycleSlot t

/-- `VchiqRecycleSlot` takes and drops no reference. -/
theorem vchiqRecycleSlot_held (s : RxSlots) (t : Thread) : (s.vchiqRecycleSlot t).held = s.held := by
  unfold RxSlots.vchiqRecycleSlot
  cases s.pc t with
  | idle | read | exchange | queue => rfl
  | test slot curSlotRefCount =>
    show (if _ then _ else _ : RxSlots).held = _
    split <;> rfl

/-- Before the first message: no reference, no slot in use, nothing filled or recycled,
no thread in `VchiqRecycleSlot`. The slot queue is whatever initialisation left there. -/
structure RxSlots.Initial (s : RxSlots) : Prop where
  rxSlotInfo : ∀ slot, s.rxSlotInfo slot = ⟨0, false⟩
  masterCurrentSlot : s.masterCurrentSlot = none
  pc : ∀ t, s.pc t = .idle
  held : ∀ slot, s.held slot = 0
  fills : ∀ slot, s.fills slot = 0
  recycled : s.recycled = []

/-- RX slot handling as an interleaving of atomic steps. -/
def slotMachine : Machine RxSlots SlotAction :=
  Machine.guarded RxSlots.Initial slotEnabled slotEffect

/-! ## The property and the condition -/

/-- No thread is deciding about the slot. -/
def NoneDeciding (pc : Thread → RecyclePc) (slot : Nat) : Prop :=
  ∀ t, (pc t).slot? ≠ some slot

/-- Each fill of a slot is answered by one recycle, not before the slot is free. -/
structure RecycledOnce (s : RxSlots) : Prop where
  /-- a slot is never queued more often than it was filled -/
  atMostOnce : ∀ slot, s.recycled.count slot ≤ s.fills slot
  /-- a slot whose last fill was answered is free: the RX thread has left it and no
  reference on it is held -/
  afterHolds : ∀ slot, s.fills slot = s.recycled.count slot →
    s.masterCurrentSlot ≠ some slot ∧ s.held slot = 0
  /-- a free slot that no thread is deciding about has been queued for its last fill -/
  atLeastOnce : ∀ slot, s.masterCurrentSlot ≠ some slot → s.held slot = 0 →
    NoneDeciding s.pc slot → s.recycled.count slot = s.fills slot

/-- No thread stands between its read of the slot's `RefCount` and its exchange. -/
def NoPendingExchange (pc : Thread → RecyclePc) (slot : Nat) : Prop :=
  ∀ t value, pc t ≠ .exchange slot value

/-- The state before a step leaves the tests of the other threads undisturbed: the count
is not changed between a read and its exchange, the RX thread does not leave a slot
that a thread with a zero count is about to test, and the step that gives up the last
hold on a slot finds no thread deciding about it. -/
def Exclusive (s : RxSlots) : SlotAction → Prop
  | .addRef _ slot => NoPendingExchange s.pc slot
  | .release _ slot => NoPendingExchange s.pc slot ∧
      (s.held slot = 1 → s.masterCurrentSlot ≠ some slot → NoneDeciding s.pc slot)
  | .leaveSlot slot => (∀ t, s.pc t ≠ .test slot 0) ∧
      (s.held slot = 0 → NoneDeciding s.pc slot)
  | .takeSlot _ | .recycle _ => True

/-! ## The invariant -/

/-- The thread is on its way to queueing the slot, if nothing changes. -/
def RecyclePc.WillQueue (slot : Nat) : RecyclePc → Prop
  | .idle => False
  | .read slot' | .exchange slot' _ | .queue slot' => slot' = slot
  | .test slot' curSlotRefCount => slot' = slot ∧ curSlotRefCount = 0

theorem RecyclePc.WillQueue.slot? {slot : Nat} {pc : RecyclePc} (h : pc.WillQueue slot) :
    pc.slot? = some slot := by
  cases pc with
  | idle => exact h.elim
  | read | exchange | queue => exact congrArg some h
  | test => exact congrArg some h.1

/-- One thread is going to queue the slot, and no other is deciding about it. -/
def SoleQueuer (pc : Thread → RecyclePc) (slot : Nat) : Prop :=
  ∃ t, (pc t).WillQueue slot ∧ ∀ u, u ≠ t → (pc u).slot? ≠ some slot

/-- A step of a thread from and to places outside the slot's test. -/
theorem SoleQueuer.update {pc : Thread → RecyclePc} {slot : Nat} {t : Thread} {p : RecyclePc}
    (h : SoleQueuer pc slot) (hold : (pc t).slot? ≠ some slot) (hnew : p.slot? ≠ some slot) :
    SoleQueuer (Function.update pc t p) slot := by
  obtain ⟨v, hwill, hothers⟩ := h
  have hne : v ≠ t := fun heq => hold (heq ▸ hwill.slot?)
  refine ⟨v, by rwa [Function.update_of_ne hne], fun u hu => ?_⟩
  rw [Function.update_apply]
  split
  · exact hnew
  · exact hothers u hu

/-- The queueing thread takes its next step. -/
theorem SoleQueuer.advance {pc : Thread → RecyclePc} {slot : Nat} {t : Thread} {p : RecyclePc}
    (h : SoleQueuer pc slot) (hold : (pc t).slot? = some slot) (hnew : p.WillQueue slot) :
    SoleQueuer (Function.update pc t p) slot := by
  obtain ⟨v, -, hothers⟩ := h
  have heq : t = v := by
    by_contra hne
    exact hothers t hne hold
  subst heq
  refine ⟨t, by rwa [Function.update_self], fun u hu => ?_⟩
  rw [Function.update_of_ne hu]
  exact hothers u hu

theorem NoneDeciding.update {pc : Thread → RecyclePc} {slot : Nat} {t : Thread} {p : RecyclePc}
    (h : NoneDeciding pc slot) (hnew : p.slot? ≠ some slot) :
    NoneDeciding (Function.update pc t p) slot := by
  intro u
  rw [Function.update_apply]
  split
  · exact hnew
  · exact h u

/-- The only thread deciding about a slot enters the test. -/
theorem NoneDeciding.soleQueuer {pc : Thread → RecyclePc} {slot : Nat} {t : Thread}
    {p : RecyclePc} (h : NoneDeciding pc slot) (hnew : p.WillQueue slot) :
    SoleQueuer (Function.update pc t p) slot := by
  refine ⟨t, by rwa [Function.update_self], fun u hu => ?_⟩
  rw [Function.update_of_ne hu]
  exact h u

/-- What every state of an undisturbed run satisfies. -/
structure SlotInv (s : RxSlots) : Prop where
  /-- the recorded count is the number of references held -/
  refCount : ∀ slot, (s.rxSlotInfo slot).refCount = s.held slot
  inUse : ∀ slot, (s.rxSlotInfo slot).slotInUse = true ↔ s.masterCurrentSlot = some slot
  /-- a value read is still the count when it is written back -/
  exchange : ∀ t slot value, s.pc t = .exchange slot value → value = s.held slot
  /-- a slot is at most one recycle behind its fills -/
  fills : ∀ slot, s.fills slot = s.recycled.count slot ∨
    s.fills slot = s.recycled.count slot + 1
  /-- a slot somebody holds has not been recycled since it was filled -/
  outstanding : ∀ slot, s.masterCurrentSlot = some slot ∨ 0 < s.held slot →
    s.fills slot = s.recycled.count slot + 1
  /-- a recycled slot is nobody's business -/
  settled : ∀ slot, s.fills slot = s.recycled.count slot → NoneDeciding s.pc slot
  /-- a thread that saw a zero count is right, or the RX thread is still in the slot -/
  zeroSeen : ∀ t slot, s.pc t = .test slot 0 →
    s.masterCurrentSlot = some slot ∨ s.held slot = 0
  queueing : ∀ t slot, s.pc t = .queue slot →
    s.masterCurrentSlot ≠ some slot ∧ s.held slot = 0
  /-- exactly one thread is going to queue a slot that has become free -/
  drained : ∀ slot, s.fills slot = s.recycled.count slot + 1 →
    s.masterCurrentSlot ≠ some slot → s.held slot = 0 → SoleQueuer s.pc slot

theorem slotInv_init {s : RxSlots} (h : s.Initial) : SlotInv s where
  refCount slot := by simp [h.rxSlotInfo, h.held]
  inUse slot := by simp [h.rxSlotInfo, h.masterCurrentSlot]
  exchange t slot value hpc := by simp [h.pc] at hpc
  fills slot := by simp [h.fills, h.recycled]
  outstanding slot hlive := by simp [h.masterCurrentSlot, h.held] at hlive
  settled slot _ t := by simp [h.pc, RecyclePc.slot?]
  zeroSeen t slot hpc := by simp [h.pc] at hpc
  queueing t slot hpc := by simp [h.pc] at hpc
  drained slot hfill := by simp [h.fills] at hfill

/-- The property is read off the invariant. -/
theorem SlotInv.recycledOnce {s : RxSlots} (h : SlotInv s) : RecycledOnce s where
  atMostOnce slot := by
    have := h.fills slot
    omega
  afterHolds slot heq := by
    constructor
    · intro hcur
      have := h.outstanding slot (.inl hcur)
      omega
    · by_contra hheld
      have := h.outstanding slot (.inr (by omega))
      omega
  atLeastOnce slot hcur hheld hnone := by
    rcases h.fills slot with heq | hbehind
    · exact heq.symm
    · obtain ⟨t, hwill, -⟩ := h.drained slot hbehind hcur hheld
      exact absurd hwill.slot? (hnone t)

/-! ## The invariant is preserved by each step -/

theorem slotInv_takeSlot {s : RxSlots} (h : SlotInv s) {slot : Nat}
    (hen : slotEnabled s (.takeSlot slot)) : SlotInv (s.takeSlot slot) := by
  obtain ⟨-, hnone, hle⟩ := hen
  have hfills : s.fills slot = s.recycled.count slot := by
    have := h.fills slot
    omega
  -- the last filling has been recycled, so nobody decides about the slot
  have hidle : NoneDeciding s.pc slot := h.settled slot hfills
  have hfree : s.held slot = 0 := (h.recycledOnce.afterHolds slot hfills).2
  constructor <;> simp only [RxSlots.takeSlot, RxSlots.setInUse, Function.update_apply]
  · intro slot'
    split
    · next heq => rw [heq]; exact h.refCount slot
    · exact h.refCount slot'
  · intro slot'
    have := h.inUse slot'
    simp only [hnone] at this
    split
    · next heq => simp [heq]
    · next hne => simp [this, Ne.symm hne]
  · exact h.exchange
  · intro slot'
    have := h.fills slot'
    split
    · next heq => subst heq; omega
    · exact this
  · intro slot' hlive
    split
    · next heq => subst heq; omega
    · next hne =>
      refine h.outstanding slot' (hlive.imp (fun he => ?_) id)
      exact absurd (Option.some.inj he).symm hne
  · intro slot' hfill
    split at hfill
    · next heq => subst heq; omega
    · exact h.settled slot' hfill
  · intro t slot' hpc
    have := h.zeroSeen t slot' hpc
    simp only [hnone] at this
    exact this.imp (fun he => nomatch he) id
  · intro t slot' hpc
    refine ⟨fun he => hidle t ?_, (h.queueing t slot' hpc).2⟩
    rw [hpc, Option.some.inj he]
    rfl
  · intro slot' hfill hcur hheld
    have hne : slot' ≠ slot := fun he => hcur (by rw [he])
    rw [if_neg hne] at hfill
    exact h.drained slot' hfill (by simp [hnone]) hheld

/-- Nobody can add to a count that a thread is about to queue the slot for. -/
theorem slotInv_addRef {s : RxSlots} (h : SlotInv s) {t : Thread} {slot : Nat}
    (hen : slotEnabled s (.addRef t slot)) (hex : NoPendingExchange s.pc slot) :
    SlotInv (s.vchiqAddRefMsg slot) := by
  have hlive : s.masterCurrentSlot = some slot ∨ 0 < s.held slot := hen.2.imp_left And.right
  constructor <;>
    simp only [RxSlots.vchiqAddRefMsg, RxSlots.setRefCount, Function.update_apply]
  · intro slot'
    have := h.refCount slot'
    split
    · next heq => subst heq; simp only; omega
    · exact this
  · intro slot'
    have := h.inUse slot'
    split
    · next heq => subst heq; exact this
    · exact this
  · intro u slot' value hpc
    have hne : slot' ≠ slot := by
      rintro rfl
      exact hex u value hpc
    rw [if_neg hne]
    exact h.exchange u slot' value hpc
  · exact h.fills
  · intro slot' hlive'
    by_cases heq : slot' = slot
    · exact heq ▸ h.outstanding slot hlive
    · rw [if_neg heq] at hlive'
      exact h.outstanding slot' hlive'
  · exact h.settled
  · intro u slot' hpc
    have hzero := h.zeroSeen u slot' hpc
    split
    · -- a second reference is only handed over while the first is held
      next heq =>
        subst heq
        exact .inl (hzero.elim id fun h0 => hlive.resolve_right (by omega))
    · exact hzero
  · intro u slot' hpc
    obtain ⟨hcur, hheld⟩ := h.queueing u slot' hpc
    split
    · next heq => subst heq; exact absurd hlive (by simp [hcur, hheld])
    · exact ⟨hcur, hheld⟩
  · intro slot' hfill hcur hheld
    split at hheld
    · omega
    · exact h.drained slot' hfill hcur hheld

theorem slotInv_release {s : RxSlots} (h : SlotInv s) {t : Thread} {slot : Nat}
    (hen : slotEnabled s (.release t slot)) (hex : Exclusive s (.release t slot)) :
    SlotInv (s.vchiqReleaseMsg t slot) := by
  obtain ⟨hidle, hheld⟩ := hen
  obtain ⟨hnoex, hlast⟩ := hex
  have hbehind := h.outstanding slot (.inr hheld)
  constructor <;> simp only [RxSlots.vchiqReleaseMsg, RxSlots.setRefCount]
  · intro slot'
    have := h.refCount slot'
    simp only [Function.update_apply]
    split
    · next heq => subst heq; simp only; omega
    · exact this
  · intro slot'
    have := h.inUse slot'
    simp only [Function.update_apply]
    split
    · next heq => subst heq; exact this
    · exact this
  · intro u slot' value hpc
    simp only [Function.update_apply] at hpc ⊢
    split at hpc
    · nomatch hpc
    · have hne : slot' ≠ slot := by
        rintro rfl
        exact hnoex u value hpc
      rw [if_neg hne]
      exact h.exchange u slot' value hpc
  · exact h.fills
  · intro slot' hlive'
    by_cases heq : slot' = slot
    · exact heq ▸ hbehind
    · rw [Function.update_of_ne heq] at hlive'
      exact h.outstanding slot' hlive'
  · intro slot' hfill
    refine (h.settled slot' hfill).update fun heq => ?_
    obtain rfl : slot = slot' := Option.some.inj heq
    omega
  · intro u slot' hpc
    simp only [Function.update_apply] at hpc ⊢
    split at hpc
    · nomatch hpc
    · have hzero := h.zeroSeen u slot' hpc
      split
      · next heq => subst heq; exact .inl (hzero.resolve_right (by omega))
      · exact hzero
  · intro u slot' hpc
    simp only [Function.update_apply] at hpc ⊢
    split at hpc
    · nomatch hpc
    · obtain ⟨hcur, hheld'⟩ := h.queueing u slot' hpc
      rw [if_neg fun heq => by rw [heq] at hheld'; omega]
      exact ⟨hcur, hheld'⟩
  · intro slot' hfill hcur hheld'
    by_cases heq : slot' = slot
    · -- the last reference: this thread queues the slot, and no other is deciding
      subst heq
      rw [Function.update_self] at hheld'
      exact (hlast (by omega) hcur).soleQueuer rfl
    · rw [Function.update_of_ne heq] at hheld'
      refine (h.drained slot' hfill hcur hheld').update ?_ fun he => ?_
      · simp [hidle, RecyclePc.slot?]
      · exact heq (Option.some.inj he).symm

theorem slotInv_leaveSlot {s : RxSlots} (h : SlotInv s) {slot : Nat}
    (hen : slotEnabled s (.leaveSlot slot)) (hex : Exclusive s (.leaveSlot slot)) :
    SlotInv (s.leaveSlot slot) := by
  obtain ⟨hidle, hcur⟩ := hen
  obtain ⟨hnotest, hlast⟩ := hex
  -- this filling of the slot has not been recycled
  have hbehind := h.outstanding slot (.inl hcur)
  constructor <;> simp only [RxSlots.leaveSlot, RxSlots.setInUse]
  · intro slot'
    simp only [Function.update_apply]
    split
    · next heq => rw [heq]; exact h.refCount slot
    · exact h.refCount slot'
  · intro slot'
    have := h.inUse slot'
    simp only [Function.update_apply]
    split
    · next heq => simp
    · next hne => simp [this, hcur, Ne.symm hne]
  · intro u slot' value hpc
    simp only [Function.update_apply] at hpc
    split at hpc
    · nomatch hpc
    · exact h.exchange u slot' value hpc
  · exact h.fills
  · intro slot' hlive
    exact h.outstanding slot' (hlive.imp_left fun he => nomatch he)
  · intro slot' hfill
    refine (h.settled slot' hfill).update fun heq => ?_
    obtain rfl : slot = slot' := Option.some.inj heq
    omega
  · intro u slot' hpc
    simp only [Function.update_apply] at hpc
    split at hpc
    · nomatch hpc
    · refine (h.zeroSeen u slot' hpc).elim (fun he => ?_) .inr
      obtain rfl : slot = slot' := Option.some.inj (hcur.symm.trans he)
      exact absurd hpc (hnotest u)
  · intro u slot' hpc
    simp only [Function.update_apply] at hpc
    split at hpc
    · nomatch hpc
    · exact ⟨nofun, (h.queueing u slot' hpc).2⟩
  · intro slot' hfill _ hheld
    by_cases heq : slot' = slot
    · subst heq
      exact (hlast hheld).soleQueuer rfl
    · have hne : s.masterCurrentSlot ≠ some slot' := fun he =>
        heq (Option.some.inj (he.symm.trans hcur))
      refine (h.drained slot' hfill hne hheld).update ?_ fun he => ?_
      · simp [hidle, RecyclePc.slot?]
      · exact heq (Option.some.inj he).symm

/-! ### The steps of `VchiqRecycleSlot` -/

/-- A move of one thread that changes nothing else keeps the invariant if the new place
is justified: what it claims to know is true, and it neither enters the test of a
settled slot nor abandons a slot that only it was going to queue. -/
theorem SlotInv.setPc {s : RxSlots} (h : SlotInv s) {t : Thread} {p : RecyclePc} (slot : Nat)
    (hold : (s.pc t).slot? = some slot) (hsub : ∀ slot', p.slot? = some slot' → slot' = slot)
    (hexchange : ∀ value, p = .exchange slot value → value = s.held slot)
    (hzero : p = .test slot 0 → s.masterCurrentSlot = some slot ∨ s.held slot = 0)
    (hqueue : p = .queue slot → s.masterCurrentSlot ≠ some slot ∧ s.held slot = 0)
    (hstays : s.masterCurrentSlot ≠ some slot → s.held slot = 0 → (s.pc t).WillQueue slot →
      p.WillQueue slot) :
    SlotInv (s.setPc t p) := by
  constructor <;> simp only [RxSlots.setPc]
  · exact h.refCount
  · exact h.inUse
  · intro u slot' value hpc
    simp only [Function.update_apply] at hpc
    split at hpc
    · obtain rfl := hsub slot' (by rw [hpc]; rfl)
      exact hexchange value hpc
    · exact h.exchange u slot' value hpc
  · exact h.fills
  · exact h.outstanding
  · intro slot' hfill
    refine (h.settled slot' hfill).update fun he => ?_
    obtain rfl := hsub slot' he
    exact h.settled slot' hfill t hold
  · intro u slot' hpc
    simp only [Function.update_apply] at hpc
    split at hpc
    · obtain rfl := hsub slot' (by rw [hpc]; rfl)
      exact hzero hpc
    · exact h.zeroSeen u slot' hpc
  · intro u slot' hpc
    simp only [Function.update_apply] at hpc
    split at hpc
    · obtain rfl := hsub slot' (by rw [hpc]; rfl)
      exact hqueue hpc
    · exact h.queueing u slot' hpc
  · intro slot' hfill hcur hheld
    have hsole := h.drained slot' hfill hcur hheld
    by_cases heq : slot' = slot
    · subst heq
      obtain ⟨v, hwill, hothers⟩ := hsole
      obtain rfl : t = v := by
        by_contra hne
        exact hothers t hne hold
      exact SoleQueuer.advance ⟨t, hwill, hothers⟩ hold (hstays hcur hheld hwill)
    · refine hsole.update (fun he => ?_) fun he => heq (hsub slot' he)
      exact heq (Option.some.inj (hold.symm.trans he)).symm

/-- Writing back the count that is recorded changes nothing. -/
theorem RxSlots.setRefCount_self (s : RxSlots) (slot : Nat) :
    s.setRefCount slot (s.rxSlotInfo slot).refCount = s := by
  simp [RxSlots.setRefCount]

theorem slotInv_queueSlot {s : RxSlots} (h : SlotInv s) {t : Thread} {slot : Nat}
    (hpc : s.pc t = .queue slot) : SlotInv ((s.queueSlot slot).setPc t .idle) := by
  obtain ⟨hcur, hheld⟩ := h.queueing t slot hpc
  have hbehind : s.fills slot = s.recycled.count slot + 1 :=
    (h.fills slot).resolve_left fun he => h.settled slot he t (by rw [hpc]; rfl)
  -- only one thread decides to queue a drained slot
  obtain ⟨v, -, hothers⟩ := h.drained slot hbehind hcur hheld
  obtain rfl : t = v := by
    by_contra hne
    exact hothers t hne (by rw [hpc]; rfl)
  have hcount : ∀ slot', (s.recycled ++ [slot]).count slot' =
      if slot' = slot then s.recycled.count slot + 1 else s.recycled.count slot' := by
    intro slot'
    rw [List.count_append, List.count_singleton]
    by_cases heq : slot' = slot
    · simp [heq]
    · simp [heq, Ne.symm heq]
  constructor <;> simp only [RxSlots.queueSlot, RxSlots.setPc, hcount]
  · exact h.refCount
  · exact h.inUse
  · intro u slot' value hpc'
    simp only [Function.update_apply] at hpc'
    split at hpc'
    · nomatch hpc'
    · exact h.exchange u slot' value hpc'
  · intro slot'
    split
    · next heq => subst heq; exact .inl hbehind
    · exact h.fills slot'
  · intro slot' hlive
    have hne : slot' ≠ slot := by
      rintro rfl
      exact hlive.elim hcur fun hpos => by omega
    rw [if_neg hne]
    exact h.outstanding slot' hlive
  · intro slot' hfill
    split at hfill
    · next heq =>
      subst heq
      intro u
      rw [Function.update_apply]
      split
      · exact nofun
      · next hne => exact hothers u hne
    · exact (h.settled slot' hfill).update nofun
  · intro u slot' hpc'
    simp only [Function.update_apply] at hpc'
    split at hpc'
    · nomatch hpc'
    · exact h.zeroSeen u slot' hpc'
  · intro u slot' hpc'
    simp only [Function.update_apply] at hpc'
    split at hpc'
    · nomatch hpc'
    · exact h.queueing u slot' hpc'
  · intro slot' hfill hcur' hheld'
    split at hfill
    · next heq => subst heq; omega
    · next hne =>
      refine (h.drained slot' hfill hcur' hheld').update (fun he => ?_) nofun
      rw [hpc] at he
      exact hne (Option.some.inj he).symm

theorem slotInv_recycle {s : RxSlots} (h : SlotInv s) (t : Thread) :
    SlotInv (s.vchiqRecycleSlot t) := by
  unfold RxSlots.vchiqRecycleSlot
  cases hpc : s.pc t with
  | idle => exact h
  | read slot =>
    refine h.setPc slot (by rw [hpc]; rfl) (fun _ he => (Option.some.inj he).symm)
      (fun value he => ?_) nofun nofun fun _ _ _ => rfl
    injection he with _ hvalue
    rw [← hvalue]
    exact h.refCount slot
  | exchange slot value =>
    have hvalue : value = (s.rxSlotInfo slot).refCount := by
      rw [h.refCount slot]
      exact h.exchange t slot value hpc
    simp only [hvalue, s.setRefCount_self]
    refine h.setPc slot (by rw [hpc]; rfl) (fun _ he => (Option.some.inj he).symm)
      nofun (fun he => .inr ?_) nofun fun _ hheld _ => ⟨rfl, ?_⟩
    · injection he with _ hzero
      have := h.refCount slot
      omega
    · rw [h.refCount slot, hheld]
      rfl
  | test slot curSlotRefCount =>
    have hfree : (s.rxSlotInfo slot).slotInUse = false ↔ s.masterCurrentSlot ≠ some slot := by
      rw [← Bool.not_eq_true, h.inUse slot]
    show SlotInv (if _ then _ else _)
    split
    · next hyes =>
      obtain ⟨hzero, hnotInUse⟩ := hyes
      subst hzero
      refine h.setPc slot (by rw [hpc]; rfl) (fun _ he => (Option.some.inj he).symm)
        nofun nofun (fun _ => ?_) fun _ _ _ => rfl
      have hcur := hfree.1 hnotInUse
      exact ⟨hcur, (h.zeroSeen t slot hpc).resolve_left hcur⟩
    · next hno =>
      refine h.setPc slot (by rw [hpc]; rfl) nofun nofun nofun nofun
        fun hcur _ hwill => ?_
      rw [hpc] at hwill
      exact hno ⟨hwill.2, hfree.2 hcur⟩
  | queue slot => exact slotInv_queueSlot h hpc

/-! ## Whole runs -/

/-- **Every state of an undisturbed run satisfies the invariant.** -/
theorem slotRefs_inv {s : RxSlots} (h : slotMachine.Reach Exclusive s) : SlotInv s := by
  refine h.inv_guarded (fun _ => slotInv_init) fun s a hinv hex hen => ?_
  cases a with
  | takeSlot slot => exact slotInv_takeSlot hinv hen
  | addRef t slot => exact slotInv_addRef hinv hen hex
  | release t slot => exact slotInv_release hinv hen hex
  | leaveSlot slot => exact slotInv_leaveSlot hinv hen hex
  | recycle t => exact slotInv_recycle hinv t

/-- **Each fill of an RX slot is recycled exactly once, after its last user is gone**, in
every run in which no step disturbs another thread's test of the slot. -/
theorem recycledOnce_of_exclusive {s : RxSlots} (h : slotMachine.Reach Exclusive s) :
    RecycledOnce s :=
  (slotRefs_inv h).recycledOnce

/-- The state before the first message, with an empty slot queue. -/
def RxSlots.start : RxSlots where
  rxSlotInfo _ := ⟨0, false⟩
  masterCurrentSlot := none
  slotQueue _ := 0
  slotQueueRecycle := 0
  pc _ := .idle
  held _ := 0
  fills _ := 0
  recycled := []

theorem RxSlots.start_initial : RxSlots.start.Initial :=
  ⟨fun _ => rfl, rfl, fun _ => rfl, fun _ => rfl, fun _ => rfl, rfl⟩

/-- Two messages of a slot are kept. One of them is released while the RX thread leaves the slot, and
a third thread releases the other one and recycles the slot. -/
theorem recycledOnce_of_exclusive_released :
    ∃ s, slotMachine.Reach Exclusive s ∧ s.fills 5 = 1 ∧ s.recycled = [5] ∧ RecycledOnce s := by
  have h0 : slotMachine.Reach Exclusive RxSlots.start := .init RxSlots.start_initial
  have h1 := Machine.Reach.step (a := .takeSlot 5) h0 (by trivial) rfl
  have h2 := Machine.Reach.step (a := .addRef .rx 5) h1 (by exact fun _ _ => nofun) rfl
  have h3 := Machine.Reach.step (a := .addRef .rx 5) h2 (by exact fun _ _ => nofun) rfl
  have h4 := Machine.Reach.step (a := .release (.other 0) 5) h3
    (by exact ⟨fun _ _ => nofun, nofun⟩) rfl
  -- the RX thread and the other one are both in `VchiqRecycleSlot`
  have h5 := Machine.Reach.step (a := .leaveSlot 5) h4
    (by exact ⟨by rintro (_ | _ | _) ⟨⟩, nofun⟩) rfl
  have h6 := Machine.Reach.step (a := .recycle .rx) h5 (by trivial) rfl
  have h7 := Machine.Reach.step (a := .recycle (.other 0)) h6 (by trivial) rfl
  have h8 := Machine.Reach.step (a := .recycle .rx) h7 (by trivial) rfl
  have h9 := Machine.Reach.step (a := .recycle (.other 0)) h8 (by trivial) rfl
  have h10 := Machine.Reach.step (a := .recycle .rx) h9 (by trivial) rfl
  have h11 := Machine.Reach.step (a := .recycle (.other 0)) h10 (by trivial) rfl
  -- both have left it, and the last reference goes
  have h12 := Machine.Reach.step (a := .release (.other 1) 5) h11
    (by exact ⟨by rintro (_ | _ | _) _ ⟨⟩, fun _ _ => by rintro (_ | _ | _) ⟨⟩⟩) rfl
  have h13 := Machine.Reach.step (a := .recycle (.other 1)) h12 (by trivial) rfl
  have h14 := Machine.Reach.step (a := .recycle (.other 1)) h13 (by trivial) rfl
  have h15 := Machine.Reach.step (a := .recycle (.other 1)) h14 (by trivial) rfl
  have h16 := Machine.Reach.step (a := .recycle (.other 1)) h15 (by trivial) rfl
  exact ⟨_, h16, rfl, rfl, recycledOnce_of_exclusive h16⟩

/-- The run in which two threads recycle one slot: another thread releases the last
message after the RX thread has left the slot but before it has read the count. -/
def twiceRun : List SlotAction :=
  [.takeSlot 5, .addRef .rx 5, .leaveSlot 5, .release (.other 0) 5,
    .recycle .rx, .recycle .rx, .recycle (.other 0), .recycle (.other 0),
    .recycle .rx, .recycle (.other 0), .recycle .rx, .recycle (.other 0)]

/-- **One fill, two recycles**: both threads see a zero count and a slot not in use. -/
theorem recycled_twice : ¬ ∀ s, slotMachine.Reachable s → RecycledOnce s := by
  intro h
  have hrun := slotMachine.reach_exec_get twiceRun RxSlots.start_initial (by rfl)
  exact absurd ((h _ hrun).atMostOnce 5) (by decide)

end RpiDrivers.Vchiq
