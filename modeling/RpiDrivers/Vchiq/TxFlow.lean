import Mathlib.Data.List.Perm.Basic
import RpiDrivers.Lib.Ring
import RpiDrivers.Vchiq.TxPublish

/-!
# Slots on their way to VC and back (`slots.c`)

A caller takes space for its message, waiting for a slot when the current one is filled up, and
writes the message piece by piece, all under `TxSlotMutex`. Outside of it the callers publish
`CurrentTxPos`. VC reads slot by slot what is published, and gives each slot that it has read back
through the slot queue, in any order; the recycle thread counts it as available.

Only where the driver writes is modelled, not what. `total` counts the position and `pubMax` the
published one without reduction modulo `2 ^ 32`, and `supply` lists the slots in the order in which
the driver enters them.

- `flowMachine`: any number of callers, VC and the recycle thread.
- `FlowSound`: no slot is written to that VC has, and the semaphore counts the slots.
- `flowSound_of_confined`: **this holds in runs that keep to the condition**.
- `slot_overwritten`: a position that is published too early.
-/

namespace RpiDrivers.Vchiq

open RpiDrivers.Lib

/-- What is sent: the size of a buffer, or the sizes of some elements. -/
inductive TxSizes
  | buffer (size : Nat)
  | elements (sizes : List Nat)
  deriving DecidableEq

/-- The size of the message. -/
def TxSizes.size : TxSizes → Nat
  | .buffer size => size
  | .elements sizes => sizes.sum

/-- A piece of memory that is written. -/
structure Extent where
  address : Nat
  length : Nat
  deriving DecidableEq

/-- The copies of `VchiqQueueMultiElementAsync`. Its pointer is one to headers. -/
def elementWrites : Nat → List Nat → List Extent
  | _, [] => []
  | msgHeaderPtr, size :: sizes =>
    if size = 0 then elementWrites msgHeaderPtr sizes
    else ⟨msgHeaderPtr, size⟩ :: elementWrites (msgHeaderPtr + vchiqHeaderSize * size) sizes

/-- What is written for a message whose header is at the given address. -/
def messageWrites (header : Nat) (sizes : TxSizes) : List Extent :=
  ⟨header, 4⟩ :: ⟨header + 4, 4⟩ ::
    match sizes with
    | .buffer size => if size = 0 then [] else [⟨header + vchiqHeaderSize, size⟩]
    | .elements sizes => elementWrites (header + vchiqHeaderSize) sizes

/-- `actualBufferSize` of `VchiqAcquireTxSpace` -/
def TxSizes.actualBufferSize (sizes : TxSizes) : Nat :=
  vchiqGetSlotAlignSize ((vchiqHeaderSize + sizes.size) % ulongSize)

/-- Where the caller is that holds `TxSlotMutex`. -/
inductive TxSection
  /-- nobody holds it -/
  | free
  /-- it waits for a slot, for ever or for a time -/
  | waiting (sizes : TxSizes) (syncAcquire : Bool)
  /-- it writes its message -/
  | writing (writes : List Extent)
  deriving DecidableEq

/-- What the caller has still to write. -/
def TxSection.writes : TxSection → List Extent
  | .writing writes => writes
  | _ => []

/-- The slots of the driver's side. -/
structure TxSlots where
  slotFirst : Nat
  slotLast : Nat
  lt : slotFirst < slotLast
  le : slotLast < slotFirst + vchiqMaxSlotsPerSide

/-- `totalTxSlot` of `VchiqInit`, one less than there are slots. -/
def TxSlots.totalTxSlot (t : TxSlots) : Nat := t.slotLast - t.slotFirst

structure TxFlow where
  slotQueue : Nat → Nat
  slotQueueRecycle : Nat
  txPos : Nat
  currentTxPos : Nat
  /-- `SlaveCurrentSlot`, an address -/
  slaveCurrentSlot : Nat
  /-- the count of the semaphore `AvailableTxSlot` -/
  availableTxSlot : Nat
  recycleTxSlotIndex : Nat
  txSection : TxSection
  /-- the number of callers that have released the mutex but not read `CurrentTxPos` -/
  copied : Nat
  /-- the callers that have read `CurrentTxPos` but not stored it -/
  reads : List TxRead
  /-- the slot that VC reads -/
  vcSlot : Option Nat
  /-- how many slots VC has read -/
  vcRead : Nat
  /-- the slots that VC has read and not recycled -/
  held : List Nat
  total : Nat
  pubMax : Nat
  supply : List Nat
  /-- how many slots the driver has entered -/
  entered : Nat
  /-- how many recycled slots the recycle thread has counted -/
  processed : Nat
  /-- the slots of VC that the driver has written to -/
  trespass : List Nat

/-- A piece of memory that reaches into a slot. -/
def Extent.Touches (w : Extent) (slot : Nat) : Prop :=
  0 < w.length ∧ w.address < (slot + 1) * vchiqSlotSize ∧ slot * vchiqSlotSize < w.address + w.length

instance (w : Extent) (slot : Nat) : Decidable (w.Touches slot) :=
  inferInstanceAs (Decidable (_ ∧ _ ∧ _))

namespace TxFlow

variable (s : TxFlow)

/-- The slots that are filled up and published, and not recycled since. -/
def handed : List Nat := s.held ++ (s.supply.take (s.pubMax / vchiqSlotSize)).drop s.vcRead

/-- A write to memory. -/
def touch (w : Extent) : TxFlow :=
  { s with trespass := s.trespass ++ s.handed.filter fun slot => w.Touches slot }

/-- The space of a message is taken in the current slot. -/
def place (sizes : TxSizes) : TxFlow :=
  { s with
    txSection := .writing (messageWrites (s.slaveCurrentSlot + slotOffset s.currentTxPos) sizes)
    currentTxPos := addPos s.currentTxPos sizes.actualBufferSize
    total := s.total + sizes.actualBufferSize }

/-- The current slot is filled up with padding, up to its end. -/
def pad (availSlotSpace : Nat) : TxFlow :=
  { s.touch ⟨s.slaveCurrentSlot + slotOffset s.currentTxPos, vchiqHeaderSize⟩ with
    currentTxPos := addPos s.currentTxPos availSlotSpace
    total := s.total + availSlotSpace }

/-- `VchiqAcquireTxSpace` after the padding, up to its wait. -/
def enter (sizes : TxSizes) (syncAcquire : Bool) : TxFlow :=
  if slotOffset s.currentTxPos = 0 then { s with txSection := .waiting sizes syncAcquire }
  else s.place sizes

/-- `VchiqAcquireTxSpace`, up to its wait. -/
def acquire (sizes : TxSizes) (syncAcquire : Bool) : TxFlow :=
  let availSlotSpace := vchiqSlotSize - slotOffset s.currentTxPos
  if availSlotSpace < sizes.actualBufferSize then (s.pad availSlotSpace).enter sizes syncAcquire
  else s.enter sizes syncAcquire

/-- The wait has ended with a slot. -/
def takeSlot (sizes : TxSizes) : TxFlow :=
  { s with
    availableTxSlot := s.availableTxSlot - 1
    slaveCurrentSlot := vchiqGetHeaderByGlobalIndex (s.slotQueue (slotQueueIndex s.currentTxPos))
    entered := s.entered + 1 }.place sizes

/-- The next piece of the message is written. -/
def write (w : Extent) (writes : List Extent) : TxFlow :=
  { s.touch w with txSection := .writing writes }

/-- The `i`th of the callers that have read `CurrentTxPos` stores it. -/
def store (i : Nat) : TxFlow :=
  match s.reads[i]? with
  | none => s
  | some v =>
    { s with txPos := v.pos, reads := s.reads.eraseIdx i, pubMax := max s.pubMax v.total }

/-- VC has read its slot. -/
def vcFinish : TxFlow :=
  { s with vcSlot := none, vcRead := s.vcRead + 1, held := s.held ++ s.vcSlot.toList }

/-- VC recycles a slot. -/
def recycle (slot : Nat) : TxFlow :=
  { s with
    slotQueue := fun i =>
      if i = s.slotQueueRecycle &&& vchiqSlotQueueMask then slot else s.slotQueue i
    slotQueueRecycle := addPos s.slotQueueRecycle 1
    held := s.held.erase slot
    supply := s.supply ++ [slot] }

/-- One round of `VchiqProcessRecycleTxSlot`. -/
def replenish : TxFlow :=
  { s with
    availableTxSlot := s.availableTxSlot + 1
    recycleTxSlotIndex := addPos s.recycleTxSlotIndex 1
    processed := s.processed + 1 }

/-- `VchiqInit` -/
def start (t : TxSlots) : TxFlow where
  slotQueue := fun i => if i ≤ t.totalTxSlot then t.slotFirst + i else 0
  slotQueueRecycle := t.totalTxSlot
  txPos := 0
  currentTxPos := 0
  slaveCurrentSlot := 0
  availableTxSlot := t.totalTxSlot
  recycleTxSlotIndex := t.totalTxSlot
  txSection := .free
  copied := 0
  reads := []
  vcSlot := none
  vcRead := 0
  held := []
  total := 0
  pubMax := 0
  supply := List.range' t.slotFirst t.totalTxSlot
  entered := 0
  processed := 0
  trespass := []

end TxFlow

inductive FlowAction
  | acquire (sizes : TxSizes) (syncAcquire : Bool)
  | takeSlot (sizes : TxSizes) (syncAcquire : Bool)
  /-- the wait ends without a slot, because its time is over or because of the stop event -/
  | giveUp (sizes : TxSizes) (syncAcquire stopped : Bool)
  | write (w : Extent) (writes : List Extent)
  | release
  | read
  | store (i : Nat)
  | vcBegin
  | vcFinish
  | recycle (slot : Nat)
  | replenish

namespace TxFlow

/-- When a step can happen. A wait does not give up when there is a slot, and only one with a time
limit ends by itself. -/
def enabled (s : TxFlow) : FlowAction → Prop
  | .acquire _ _ => s.txSection = .free
  | .takeSlot sizes syncAcquire =>
    s.txSection = .waiting sizes syncAcquire ∧ 0 < s.availableTxSlot
  | .giveUp sizes syncAcquire stopped => s.txSection = .waiting sizes syncAcquire ∧
      s.availableTxSlot = 0 ∧ (stopped = true ∨ syncAcquire = false)
  | .write w writes => s.txSection = .writing (w :: writes)
  | .release => s.txSection = .writing []
  | .read => 0 < s.copied
  | .store i => i < s.reads.length
  | .vcBegin => s.vcSlot = none ∧ s.vcRead * vchiqSlotSize < s.pubMax
  | .vcFinish => s.vcSlot ≠ none ∧ (s.vcRead + 1) * vchiqSlotSize ≤ s.pubMax
  | .recycle slot => slot ∈ s.held
  | .replenish => s.recycleTxSlotIndex ≠ s.slotQueueRecycle

instance : ∀ (s : TxFlow) (a : FlowAction), Decidable (s.enabled a)
  | _, .acquire .. | _, .write .. | _, .release => inferInstanceAs (Decidable (_ = _))
  | _, .takeSlot .. | _, .vcBegin | _, .vcFinish => inferInstanceAs (Decidable (_ ∧ _))
  | _, .giveUp .. => inferInstanceAs (Decidable (_ ∧ _ ∧ _))
  | _, .read | _, .store _ => inferInstanceAs (Decidable (_ < _))
  | _, .recycle _ => inferInstanceAs (Decidable (_ ∈ _))
  | _, .replenish => inferInstanceAs (Decidable (_ ≠ _))

def effect (s : TxFlow) : FlowAction → TxFlow
  | .acquire sizes syncAcquire => s.acquire sizes syncAcquire
  | .takeSlot sizes _ => s.takeSlot sizes
  | .giveUp .. => { s with txSection := .free }
  | .write w writes => s.write w writes
  | .release => { s with txSection := .free, copied := s.copied + 1 }
  | .read =>
    { s with copied := s.copied - 1, reads := s.reads ++ [⟨s.currentTxPos, s.total⟩] }
  | .store i => s.store i
  | .vcBegin =>
    { s with vcSlot := some (s.slotQueue (s.vcRead &&& vchiqSlotQueueMask)) }
  | .vcFinish => s.vcFinish
  | .recycle slot => s.recycle slot
  | .replenish => s.replenish

end TxFlow

/-- All interleavings. -/
def flowMachine (t : TxSlots) : Machine TxFlow FlowAction :=
  Machine.guarded (· = TxFlow.start t) TxFlow.enabled TxFlow.effect

/-! ## The property and the condition -/

/-- The driver has not written into a slot that VC has, and the semaphore counts the slots: those
there were, and those that are recycled and counted, less those that are entered. -/
structure FlowSound (t : TxSlots) (s : TxFlow) : Prop where
  confined : s.trespass = []
  semaphore : s.availableTxSlot + s.entered = t.totalTxSlot + s.processed
  limit : s.availableTxSlot ≤ t.totalTxSlot

/-- Where in its slot a message is placed. -/
def TxFlow.placeOffset (s : TxFlow) (sizes : TxSizes) : Nat :=
  if vchiqSlotSize - slotOffset s.currentTxPos < sizes.actualBufferSize then 0
  else slotOffset s.currentTxPos

/-- The condition: a message is not larger than `VCHIQ_MAX_MSG_SIZE`, no element is copied beyond
the end of the slot, and no caller reads `CurrentTxPos` while another one still writes a message
that fills up its slot. -/
def Confined (s : TxFlow) : FlowAction → Prop
  | .acquire sizes _ => sizes.size ≤ vchiqMaxMsgSize ∧
      ∀ w ∈ messageWrites (s.placeOffset sizes) sizes, w.address + w.length ≤ vchiqSlotSize
  | .read => slotOffset s.currentTxPos = 0 → s.txSection.writes = []
  | _ => True

instance : ∀ (s : TxFlow) (a : FlowAction), Decidable (Confined s a)
  | _, .acquire .. => inferInstanceAs (Decidable (_ ∧ _))
  | _, .read => inferInstanceAs (Decidable (_ → _))
  | _, .takeSlot .. | _, .giveUp .. | _, .write .. | _, .release | _, .store _ | _, .vcBegin
  | _, .vcFinish | _, .recycle _ | _, .replenish => inferInstanceAs (Decidable True)

/-! ## The slots in their order -/

/-- How the slot queue, the slots in their order and those that VC holds belong together. -/
structure Supply (t : TxSlots) (slotQueue : Nat → Nat) (slotQueueRecycle : Nat)
    (supply held : List Nat) (vcRead : Nat) : Prop where
  recycle : slotQueueRecycle = supply.length % ulongSize
  queue : ∀ n slot, supply[n]? = some slot → supply.length ≤ n + vchiqMaxSlotsPerSide →
    slotQueue (n % vchiqMaxSlotsPerSide) = slot
  length : supply.length + held.length = t.totalTxSlot + vcRead
  le : vcRead ≤ supply.length
  nodup : (held ++ supply.drop vcRead).Nodup

namespace Supply

variable {t : TxSlots} {slotQueue : Nat → Nat} {slotQueueRecycle vcRead : Nat}
  {supply held : List Nat}

theorem totalTxSlot_lt (t : TxSlots) : t.totalTxSlot < vchiqMaxSlotsPerSide := by
  have hle := t.le
  have hlt := t.lt
  rw [TxSlots.totalTxSlot]
  omega

theorem init (t : TxSlots) : Supply t (TxFlow.start t).slotQueue t.totalTxSlot
    (List.range' t.slotFirst t.totalTxSlot) [] 0 where
  recycle := by
    have hlt := totalTxSlot_lt t
    have hbound : vchiqMaxSlotsPerSide < ulongSize := by decide
    rw [List.length_range', Nat.mod_eq_of_lt (Nat.lt_trans hlt hbound)]
  queue n slot hn _ := by
    obtain ⟨hlt, rfl⟩ := List.getElem?_eq_some_iff.1 hn
    rw [List.length_range'] at hlt
    have hmax := totalTxSlot_lt t
    rw [Nat.mod_eq_of_lt (by omega), List.getElem_range']
    show (if n ≤ t.totalTxSlot then t.slotFirst + n else 0) = t.slotFirst + 1 * n
    rw [if_pos (Nat.le_of_lt hlt), Nat.one_mul]
  length := by rw [List.length_range']; rfl
  le := Nat.zero_le _
  nodup := List.nodup_range'

/-- The entries from the slots of VC on are still in the queue. -/
theorem lookup (h : Supply t slotQueue slotQueueRecycle supply held vcRead) {n slot : Nat}
    (hn : supply[n]? = some slot) (hle : vcRead ≤ n) :
    slotQueue (n % vchiqMaxSlotsPerSide) = slot := by
  have hlength := h.length
  have hmax := totalTxSlot_lt t
  exact h.queue n slot hn (by omega)

/-- VC finishes a slot: it was the next one, and now it is held. -/
theorem finish (h : Supply t slotQueue slotQueueRecycle supply held vcRead) {slot : Nat}
    (hslot : supply[vcRead]? = some slot) :
    Supply t slotQueue slotQueueRecycle supply (held ++ [slot]) (vcRead + 1) where
  recycle := h.recycle
  queue := h.queue
  length := by
    rw [List.length_append, List.length_singleton, ← Nat.add_assoc, h.length, Nat.add_assoc]
  le := (List.getElem?_eq_some_iff.1 hslot).1
  nodup := by
    have hnodup := h.nodup
    obtain ⟨hlt, hget⟩ := List.getElem?_eq_some_iff.1 hslot
    rw [List.drop_eq_getElem_cons hlt, hget] at hnodup
    rw [List.append_assoc]
    exact hnodup

theorem recycleSlot (h : Supply t slotQueue slotQueueRecycle supply held vcRead) {slot : Nat}
    (hslot : slot ∈ held) :
    Supply t (fun i => if i = slotQueueRecycle &&& vchiqSlotQueueMask then slot else slotQueue i)
      (addPos slotQueueRecycle 1) (supply ++ [slot]) (held.erase slot) vcRead where
  recycle := by
    rw [addPos, h.recycle, Nat.mod_add_mod, List.length_append]
    rfl
  queue n p hn hle := by
    rw [List.length_append, List.length_singleton] at hle
    have hmask : slotQueueRecycle &&& vchiqSlotQueueMask = supply.length % vchiqMaxSlotsPerSide := by
      rw [h.recycle]
      refine (Nat.and_two_pow_sub_one_eq_mod _ 6).trans ?_
      exact Nat.mod_mod_of_dvd _ (by decide)
    show (if n % vchiqMaxSlotsPerSide = slotQueueRecycle &&& vchiqSlotQueueMask then slot
      else slotQueue (n % vchiqMaxSlotsPerSide)) = p
    rw [hmask]
    rcases Nat.lt_or_ge n supply.length with hlt | hge
    · have hne : n % vchiqMaxSlotsPerSide ≠ supply.length % vchiqMaxSlotsPerSide :=
        mod_ne_of_ne (d := n) (Nat.ne_of_lt hlt) (Nat.le_refl n) (by omega) (by omega) (by omega)
      rw [List.getElem?_append_left hlt] at hn
      rw [if_neg hne]
      exact h.queue n p hn (by omega)
    · obtain ⟨hlt, -⟩ := List.getElem?_eq_some_iff.1 hn
      rw [List.length_append, List.length_singleton] at hlt
      obtain rfl : n = supply.length := by omega
      rw [List.getElem?_concat_length] at hn
      rw [if_pos rfl]
      exact Option.some.inj hn
  length := by
    have hlength := h.length
    have herase := List.length_erase_of_mem hslot
    have hpos := List.length_pos_of_mem hslot
    rw [List.length_append, List.length_singleton]
    omega
  le := by
    rw [List.length_append]
    exact Nat.le_trans h.le (Nat.le_add_right _ _)
  nodup := by
    rw [List.drop_append_of_le_length h.le, ← List.append_assoc]
    have hperm : (held.erase slot ++ supply.drop vcRead ++ [slot]).Perm
        (held ++ supply.drop vcRead) := by
      refine List.perm_append_singleton _ _ |>.trans ?_
      exact ((List.perm_cons_erase hslot).symm).append_right _
    exact hperm.nodup_iff.2 h.nodup

/-- The slots that are handed are told from a later one. -/
theorem notMem_handed (h : Supply t slotQueue slotQueueRecycle supply held vcRead) {n k slot : Nat}
    (hn : supply[n]? = some slot) (hk : k ≤ n) (hle : vcRead ≤ n) :
    slot ∉ held ++ (supply.take k).drop vcRead := by
  obtain ⟨hheld, hdrop, hdisjoint⟩ := List.nodup_append.1 h.nodup
  have hmem : (supply.drop vcRead)[n - vcRead]? = some slot := by
    rw [List.getElem?_drop, Nat.add_sub_cancel' hle]
    exact hn
  intro hslot
  rcases List.mem_append.1 hslot with hs | hs
  · exact hdisjoint slot hs slot (List.mem_of_getElem? hmem) rfl
  · obtain ⟨i, hi⟩ := List.getElem?_of_mem hs
    rw [List.getElem?_drop, List.getElem?_take] at hi
    split at hi
    · next hik =>
      have hi' : (supply.drop vcRead)[i]? = some slot := by
        rw [List.getElem?_drop]
        exact hi
      have hlt := (List.getElem?_eq_some_iff.1 hi').1
      have hieq : i = n - vcRead := (List.getElem?_inj hlt hdrop).1 (hi'.trans hmem.symm)
      omega
    · cases hi

end Supply

/-! ## Where a message is written -/

/-- The copies begin behind the header, wherever it is. -/
theorem elementWrites_add (base : Nat) :
    ∀ (msgHeaderPtr : Nat) (sizes : List Nat), elementWrites (base + msgHeaderPtr) sizes =
      (elementWrites msgHeaderPtr sizes).map fun w => ⟨base + w.address, w.length⟩
  | _, [] => rfl
  | msgHeaderPtr, size :: sizes => by
    rw [elementWrites, elementWrites, Nat.add_assoc, elementWrites_add base _ sizes,
      elementWrites_add base _ sizes]
    split <;> rfl

theorem le_of_mem_elementWrites :
    ∀ {msgHeaderPtr : Nat} {sizes : List Nat} {w : Extent},
      w ∈ elementWrites msgHeaderPtr sizes → msgHeaderPtr ≤ w.address
  | _, [], _, hw => by cases hw
  | msgHeaderPtr, size :: sizes, w, hw => by
    rw [elementWrites] at hw
    split at hw
    · exact le_of_mem_elementWrites hw
    · rcases List.mem_cons.1 hw with rfl | hw
      · exact Nat.le_refl _
      · exact Nat.le_trans (Nat.le_add_right _ _) (le_of_mem_elementWrites hw)

/-- A message is written relative to its slot. -/
theorem messageWrites_add (base header : Nat) (sizes : TxSizes) :
    messageWrites (base + header) sizes =
      (messageWrites header sizes).map fun w => ⟨base + w.address, w.length⟩ := by
  cases sizes with
  | buffer size =>
    rw [messageWrites, messageWrites, Nat.add_assoc, Nat.add_assoc]
    split <;> rfl
  | elements sizes =>
    rw [messageWrites, messageWrites, Nat.add_assoc, Nat.add_assoc, elementWrites_add]
    rfl

/-- What is written within a slot touches only this slot. -/
theorem Extent.Touches.eq {w : Extent} {slot p : Nat} (h : w.Touches p)
    (hle : slot * vchiqSlotSize ≤ w.address)
    (hend : w.address + w.length ≤ slot * vchiqSlotSize + vchiqSlotSize) : p = slot := by
  obtain ⟨hpos, hlt, hgt⟩ := h
  simp only [vchiqSlotSize] at *
  omega

/-- The size that is taken for a message that is small enough. -/
theorem TxSizes.actualBufferSize_eq {sizes : TxSizes} (h : sizes.size ≤ vchiqMaxMsgSize) :
    sizes.actualBufferSize = (sizes.size + 15) / 8 * 8 := by
  have hle : sizes.size ≤ 4088 := h
  have hmod : (vchiqHeaderSize + sizes.size) % ulongSize = 8 + sizes.size :=
    Nat.mod_eq_of_lt (show 8 + sizes.size < 4294967296 by omega)
  rw [actualBufferSize, hmod,
    vchiqGetSlotAlignSize_eq (show 8 + sizes.size + 7 < 4294967296 by omega)]
  omega

/-! ## What holds in every step -/

/-- What holds while a caller has the mutex: what it has still to write lies in the current slot, and
no position that reaches the end of this slot is published or about to be. -/
def SectionOk (txSection : TxSection) (total pubMax slaveCurrentSlot entered : Nat)
    (reads : List TxRead) : Prop :=
  match txSection with
  | .free => True
  | .waiting sizes _ => total % vchiqSlotSize = 0 ∧ sizes.size ≤ vchiqMaxMsgSize ∧
      ∀ w ∈ messageWrites 0 sizes, w.address + w.length ≤ vchiqSlotSize
  | .writing writes => writes ≠ [] → (∀ w ∈ writes, slaveCurrentSlot ≤ w.address ∧
        w.address + w.length ≤ slaveCurrentSlot + vchiqSlotSize) ∧
      0 < entered ∧ pubMax < entered * vchiqSlotSize ∧
      ∀ v ∈ reads, v.total < entered * vchiqSlotSize

namespace TxFlow

variable {t : TxSlots} {s : TxFlow}

/-- What does not depend on where the current slot ends. -/
structure Base (t : TxSlots) (s : TxFlow) : Prop where
  supply : Supply t s.slotQueue s.slotQueueRecycle s.supply s.held s.vcRead
  position : s.currentTxPos = s.total % ulongSize
  aligned : s.total % slotMsgSizeAlign = 0
  recycleIndex : s.recycleTxSlotIndex = (t.totalTxSlot + s.processed) % ulongSize
  processed : t.totalTxSlot + s.processed ≤ s.supply.length
  semaphore : s.availableTxSlot + s.entered = t.totalTxSlot + s.processed
  published : s.vcRead * vchiqSlotSize ≤ s.pubMax ∧ s.pubMax ≤ s.total
  reads : ∀ v ∈ s.reads, v.total ≤ s.total
  vcSlot : ∀ slot, s.vcSlot = some slot → s.supply[s.vcRead]? = some slot
  current : 0 < s.entered → ∃ slot, s.supply[s.entered - 1]? = some slot ∧
    s.slaveCurrentSlot = slot * vchiqSlotSize
  confined : s.trespass = []

structure Inv (t : TxSlots) (s : TxFlow) : Prop extends Base t s where
  entered : s.entered = (s.total + (vchiqSlotSize - 1)) / vchiqSlotSize
  txSection : SectionOk s.txSection s.total s.pubMax s.slaveCurrentSlot s.entered s.reads

theorem Base.slotOffset_pos (h : Base t s) :
    slotOffset s.currentTxPos = s.total % vchiqSlotSize := by
  rw [slotOffset_eq, h.position]
  exact Nat.mod_mod_of_dvd _ (by decide)

/-- **A write within the current slot** does not reach VC, as long as the slot is not published to
its end. -/
theorem Base.touch_eq (h : Base t s) {w : Extent} (hpos : 0 < s.entered)
    (hpub : s.pubMax < s.entered * vchiqSlotSize) (hle : s.slaveCurrentSlot ≤ w.address)
    (hend : w.address + w.length ≤ s.slaveCurrentSlot + vchiqSlotSize) : s.touch w = s := by
  obtain ⟨slot, hslot, hcurrent⟩ := h.current hpos
  rw [hcurrent] at hle hend
  have hread := h.published.1
  have hnot := h.supply.notMem_handed (k := s.pubMax / vchiqSlotSize) hslot
    (by simp only [vchiqSlotSize] at *; omega) (by simp only [vchiqSlotSize] at *; omega)
  have hempty : s.handed.filter (fun slot => w.Touches slot) = [] := by
    refine List.filter_eq_nil_iff.2 fun p hp htouches => ?_
    have heq := Extent.Touches.eq (of_decide_eq_true htouches) hle hend
    exact hnot (heq ▸ hp)
  rw [touch, hempty, List.append_nil]

/-- A message is placed in the current slot, which has room for it. -/
theorem Base.place (h : Base t s) {sizes : TxSizes} (hsize : sizes.size ≤ vchiqMaxMsgSize)
    (hbegin : s.entered * vchiqSlotSize ≤ s.total + vchiqSlotSize)
    (hend : s.total + sizes.actualBufferSize ≤ s.entered * vchiqSlotSize)
    (hwrites : ∀ w ∈ messageWrites (slotOffset s.currentTxPos) sizes,
      w.address + w.length ≤ vchiqSlotSize) : Inv t (s.place sizes) := by
  have hactual := TxSizes.actualBufferSize_eq hsize
  have haligned := h.aligned
  have hpublished := h.published
  have hreads := h.reads
  simp only [vchiqSlotSize] at hbegin hend
  refine { h with
    position := ?_
    aligned := ?_
    published := ⟨hpublished.1, Nat.le_trans hpublished.2 (Nat.le_add_right _ _)⟩
    reads := fun v hv => Nat.le_trans (h.reads v hv) (Nat.le_add_right _ _)
    entered := ?_
    txSection := fun _ => ⟨fun w hw => ?_, ?_, ?_, fun v hv => ?_⟩ }
  · show addPos s.currentTxPos sizes.actualBufferSize = _
    rw [addPos, h.position, Nat.mod_add_mod]
    rfl
  · show (s.total + sizes.actualBufferSize) % 8 = 0
    simp only [slotMsgSizeAlign] at haligned
    omega
  · show s.entered = (s.total + sizes.actualBufferSize + 4095) / 4096
    omega
  · rw [messageWrites_add] at hw
    obtain ⟨w', hw', rfl⟩ := List.mem_map.1 hw
    have hle := hwrites w' hw'
    refine ⟨Nat.le_add_right _ _, ?_⟩
    show s.slaveCurrentSlot + w'.address + w'.length ≤ s.slaveCurrentSlot + vchiqSlotSize
    omega
  · show 0 < s.entered
    omega
  · show s.pubMax < s.entered * 4096
    omega
  · have hle := h.reads v hv
    show v.total < s.entered * 4096
    omega

namespace Inv

/-- The slots that VC has read are among those that are published, and these among those that are
entered. -/
theorem read_le (h : Inv t s) : s.vcRead ≤ s.entered := by
  have hpublished := h.published
  have hentered := h.entered
  simp only [vchiqSlotSize] at *
  omega

theorem entered_le (h : Inv t s) : s.entered ≤ s.supply.length := by
  have hsemaphore := h.semaphore
  have hprocessed := h.processed
  omega

/-- No more slots are available than there are. -/
theorem limit (h : Inv t s) : s.availableTxSlot ≤ t.totalTxSlot := by
  have hsemaphore := h.semaphore
  have hprocessed := h.processed
  have hlength := h.supply.length
  have hread := h.read_le
  omega

/-- The current slot is filled up, and its padding stays within it. -/
theorem pad (h : Inv t s) (hfree : s.txSection = .free) (hpos : slotOffset s.currentTxPos ≠ 0) :
    Inv t (s.pad (vchiqSlotSize - slotOffset s.currentTxPos)) := by
  have haligned := h.aligned
  have hentered := h.entered
  have hpublished := h.published
  have hoffset := h.slotOffset_pos
  rw [hoffset] at hpos
  simp only [vchiqSlotSize, slotMsgSizeAlign] at *
  rw [TxFlow.pad, h.touch_eq (by omega) (by simp only [vchiqSlotSize]; omega)
    (Nat.le_add_right _ _) (by simp only [vchiqSlotSize, vchiqHeaderSize, hoffset]; omega), hoffset]
  refine { h with
    position := ?_
    aligned := ?_
    published := ⟨hpublished.1, Nat.le_trans hpublished.2 (Nat.le_add_right _ _)⟩
    reads := fun v hv => Nat.le_trans (h.reads v hv) (Nat.le_add_right _ _)
    entered := ?_
    txSection := ?_ }
  · show addPos s.currentTxPos (4096 - s.total % 4096) = _
    rw [addPos, h.position, Nat.mod_add_mod]
  · show (s.total + (4096 - s.total % 4096)) % 8 = 0
    omega
  · show s.entered = (s.total + (4096 - s.total % 4096) + 4095) / 4096
    omega
  · show SectionOk s.txSection _ _ _ _ _
    rw [hfree]
    trivial

theorem enter (h : Inv t s) {sizes : TxSizes} (syncAcquire : Bool)
    (hsize : sizes.size ≤ vchiqMaxMsgSize)
    (hfits : slotOffset s.currentTxPos + sizes.actualBufferSize ≤ vchiqSlotSize)
    (hwrites : ∀ w ∈ messageWrites (slotOffset s.currentTxPos) sizes,
      w.address + w.length ≤ vchiqSlotSize) : Inv t (s.enter sizes syncAcquire) := by
  have hentered := h.entered
  have hoffset := h.slotOffset_pos
  rw [TxFlow.enter]
  split
  · next hzero =>
    rw [hzero] at hwrites
    exact { h with txSection := ⟨hoffset.symm.trans hzero, hsize, hwrites⟩ }
  · next hpos =>
    rw [hoffset] at hpos hfits
    simp only [vchiqSlotSize] at *
    exact h.toBase.place hsize (by simp only [vchiqSlotSize]; omega)
      (by simp only [vchiqSlotSize]; omega) hwrites

theorem acquire (h : Inv t s) {sizes : TxSizes} {syncAcquire : Bool} (hfree : s.txSection = .free)
    (hsize : sizes.size ≤ vchiqMaxMsgSize)
    (hwrites : ∀ w ∈ messageWrites (s.placeOffset sizes) sizes,
      w.address + w.length ≤ vchiqSlotSize) : Inv t (s.acquire sizes syncAcquire) := by
  have hactual := TxSizes.actualBufferSize_eq hsize
  have hsize' : sizes.size ≤ 4088 := hsize
  have hlt : slotOffset s.currentTxPos < 4096 := by
    rw [slotOffset_eq]
    exact Nat.mod_lt _ (by decide)
  rw [placeOffset] at hwrites
  rw [TxFlow.acquire]
  simp only [vchiqSlotSize] at *
  split
  · next hpad =>
    rw [if_pos hpad] at hwrites
    have hzero : slotOffset (s.pad (4096 - slotOffset s.currentTxPos)).currentTxPos = 0 := by
      show slotOffset (addPos s.currentTxPos (4096 - slotOffset s.currentTxPos)) = 0
      simp only [addPos, slotOffset_eq, ulongSize]
      omega
    refine (h.pad hfree (by omega)).enter syncAcquire hsize ?_ ?_
    · show slotOffset (s.pad (4096 - slotOffset s.currentTxPos)).currentTxPos +
        sizes.actualBufferSize ≤ 4096
      rw [hzero]
      omega
    · show ∀ w ∈ messageWrites
        (slotOffset (s.pad (4096 - slotOffset s.currentTxPos)).currentTxPos) sizes, _
      rw [hzero]
      exact hwrites
  · next hpad =>
    rw [if_neg hpad] at hwrites
    exact h.enter syncAcquire hsize (by simp only [vchiqSlotSize]; omega) hwrites

/-- The slot that is entered is the next one in their order. -/
theorem takeSlot (h : Inv t s) {sizes : TxSizes} {syncAcquire : Bool}
    (hwaiting : s.txSection = .waiting sizes syncAcquire) (hpos : 0 < s.availableTxSlot) :
    Inv t (s.takeSlot sizes) := by
  have hsection := h.txSection
  rw [hwaiting] at hsection
  obtain ⟨hboundary, hsize, hwrites⟩ := hsection
  have hentered := h.entered
  have hsemaphore := h.semaphore
  have hprocessed := h.processed
  have hactual := TxSizes.actualBufferSize_eq hsize
  have hsize' : sizes.size ≤ 4088 := hsize
  have hlt : s.entered < s.supply.length := by omega
  have hindex : slotQueueIndex s.currentTxPos = s.entered % vchiqMaxSlotsPerSide := by
    rw [slotQueueIndex_eq, h.position, hentered]
    simp only [ulongSize, vchiqSlotSize, vchiqMaxSlotsPerSide] at *
    omega
  have hlookup := h.supply.lookup (List.getElem?_eq_getElem hlt) h.read_le
  simp only [vchiqSlotSize] at *
  refine Base.place (s := { s with
    availableTxSlot := s.availableTxSlot - 1
    slaveCurrentSlot := vchiqGetHeaderByGlobalIndex (s.slotQueue (slotQueueIndex s.currentTxPos))
    entered := s.entered + 1 }) { h.toBase with
      semaphore := ?_
      current := fun _ => ⟨s.supply[s.entered], List.getElem?_eq_getElem hlt, ?_⟩ } hsize ?_ ?_ ?_
  · show s.availableTxSlot - 1 + (s.entered + 1) = t.totalTxSlot + s.processed
    omega
  · show vchiqGetHeaderByGlobalIndex (s.slotQueue (slotQueueIndex s.currentTxPos)) = _
    rw [hindex, hlookup]
    rfl
  · show (s.entered + 1) * 4096 ≤ s.total + 4096
    omega
  · show s.total + sizes.actualBufferSize ≤ (s.entered + 1) * 4096
    omega
  · show ∀ w ∈ messageWrites (slotOffset s.currentTxPos) sizes, _
    rw [h.slotOffset_pos]
    simp only [vchiqSlotSize]
    rw [hboundary]
    exact hwrites

theorem write (h : Inv t s) {w : Extent} {writes : List Extent}
    (hwriting : s.txSection = .writing (w :: writes)) : Inv t (s.write w writes) := by
  have hsection := h.txSection
  rw [hwriting] at hsection
  obtain ⟨hin, hpos, hpub, hreads⟩ := hsection (List.cons_ne_nil _ _)
  have hw := hin w (List.mem_cons_self ..)
  rw [TxFlow.write, h.touch_eq hpos hpub hw.1 hw.2]
  exact { h with
    txSection := fun _ => ⟨fun w hw => hin w (List.mem_cons_of_mem _ hw), hpos, hpub, hreads⟩ }

/-- The mutex is released. -/
theorem release (h : Inv t s) (copied : Nat) :
    Inv t { s with txSection := .free, copied := copied } :=
  { h with txSection := trivial }

theorem read (h : Inv t s) (hconfined : slotOffset s.currentTxPos = 0 → s.txSection.writes = [])
    (copied : Nat) :
    Inv t { s with copied := copied, reads := s.reads ++ [⟨s.currentTxPos, s.total⟩] } := by
  have hentered := h.entered
  have hsection := h.txSection
  rw [h.slotOffset_pos] at hconfined
  refine { h with reads := fun v hv => ?_, txSection := ?_ }
  · rcases List.mem_append.1 hv with hs | hnew
    · exact h.reads v hs
    · rw [List.mem_singleton.1 hnew]
  · show SectionOk s.txSection s.total s.pubMax s.slaveCurrentSlot s.entered
      (s.reads ++ [⟨s.currentTxPos, s.total⟩])
    cases htx : s.txSection with
    | free => trivial
    | waiting =>
      rw [htx] at hsection
      exact hsection
    | writing writes =>
      rw [htx] at hsection hconfined
      intro hne
      obtain ⟨hin, hpos, hpub, hreads⟩ := hsection hne
      refine ⟨hin, hpos, hpub, fun v hv => ?_⟩
      rcases List.mem_append.1 hv with hs | hnew
      · exact hreads v hs
      · have hoffset : ¬ s.total % 4096 = 0 := fun hzero => hne (hconfined hzero)
        have hceil : s.entered = (s.total + 4095) / 4096 := hentered
        rw [List.mem_singleton.1 hnew]
        show s.total < s.entered * 4096
        omega

theorem store (h : Inv t s) {i : Nat} (hi : i < s.reads.length) : Inv t (s.store i) := by
  have hsection := h.txSection
  have hmem := List.getElem_mem hi
  rw [TxFlow.store, List.getElem?_eq_getElem hi]
  refine { h with
    published := ⟨Nat.le_trans h.published.1 (Nat.le_max_left _ _),
      Nat.max_le.2 ⟨h.published.2, h.reads _ hmem⟩⟩
    reads := fun v hv => h.reads v (List.mem_of_mem_eraseIdx hv)
    txSection := ?_ }
  show SectionOk s.txSection s.total (max s.pubMax s.reads[i].total) s.slaveCurrentSlot s.entered
    (s.reads.eraseIdx i)
  cases htx : s.txSection with
  | free => trivial
  | waiting =>
    rw [htx] at hsection
    exact hsection
  | writing writes =>
    rw [htx] at hsection
    intro hne
    obtain ⟨hin, hpos, hpub, hreads⟩ := hsection hne
    exact ⟨hin, hpos, Nat.max_lt.2 ⟨hpub, hreads _ hmem⟩,
      fun v hv => hreads v (List.mem_of_mem_eraseIdx hv)⟩

/-- VC looks up the slot that the driver has entered. -/
theorem vcBegin (h : Inv t s) (hlt : s.vcRead * vchiqSlotSize < s.pubMax) :
    Inv t { s with vcSlot := some (s.slotQueue (s.vcRead &&& vchiqSlotQueueMask)) } := by
  have hpublished := h.published.2
  have hentered := h.entered
  have hle := h.entered_le
  have hread : s.vcRead < s.supply.length := by
    simp only [vchiqSlotSize] at *
    omega
  have hlookup := h.supply.lookup (List.getElem?_eq_getElem hread) (Nat.le_refl _)
  refine { h with vcSlot := fun slot hslot => ?_ }
  have hmask : s.vcRead &&& vchiqSlotQueueMask = s.vcRead % vchiqMaxSlotsPerSide :=
    Nat.and_two_pow_sub_one_eq_mod _ 6
  rw [← Option.some.inj hslot, hmask, hlookup]
  exact List.getElem?_eq_getElem hread

theorem vcFinish (h : Inv t s) (hsome : s.vcSlot ≠ none)
    (hle : (s.vcRead + 1) * vchiqSlotSize ≤ s.pubMax) : Inv t s.vcFinish := by
  obtain ⟨slot, hslot⟩ := Option.ne_none_iff_exists'.1 hsome
  rw [TxFlow.vcFinish, hslot]
  exact { h with
    supply := h.supply.finish (h.vcSlot slot hslot)
    published := ⟨hle, h.published.2⟩
    vcSlot := fun _ hnone => absurd hnone.symm (Option.some_ne_none _) }

theorem recycle (h : Inv t s) {slot : Nat} (hslot : slot ∈ s.held) : Inv t (s.recycle slot) := by
  refine { h with
    supply := h.supply.recycleSlot hslot
    processed := ?_
    vcSlot := fun p hp => ?_
    current := fun hpos => ?_ }
  · show _ ≤ (s.supply ++ [slot]).length
    rw [List.length_append]
    exact Nat.le_trans h.processed (Nat.le_add_right _ _)
  · have hget := h.vcSlot p hp
    have hlt := (List.getElem?_eq_some_iff.1 hget).1
    exact (List.getElem?_append_left hlt).trans hget
  · obtain ⟨p, hget, hcurrent⟩ := h.current hpos
    have hlt := (List.getElem?_eq_some_iff.1 hget).1
    exact ⟨p, (List.getElem?_append_left hlt).trans hget, hcurrent⟩

theorem replenish (h : Inv t s) (hne : s.recycleTxSlotIndex ≠ s.slotQueueRecycle) :
    Inv t s.replenish := by
  have hsemaphore := h.semaphore
  rw [h.recycleIndex, h.supply.recycle] at hne
  refine { h with recycleIndex := ?_, processed := ?_, semaphore := ?_ }
  · show addPos s.recycleTxSlotIndex 1 = (t.totalTxSlot + (s.processed + 1)) % ulongSize
    rw [addPos, h.recycleIndex, Nat.mod_add_mod, Nat.add_assoc]
  · exact Nat.lt_of_le_of_ne h.processed fun heq => hne (congrArg (· % ulongSize) heq)
  · show s.availableTxSlot + 1 + s.entered = t.totalTxSlot + (s.processed + 1)
    omega

theorem effect (h : Inv t s) {a : FlowAction} (hen : s.enabled a) (hconfined : Confined s a) :
    Inv t (s.effect a) := by
  cases a with
  | acquire sizes syncAcquire => exact h.acquire hen hconfined.1 hconfined.2
  | takeSlot sizes syncAcquire => exact h.takeSlot hen.1 hen.2
  | giveUp sizes syncAcquire stopped => exact h.release s.copied
  | write w writes => exact h.write hen
  | release => exact h.release (s.copied + 1)
  | read => exact h.read hconfined (s.copied - 1)
  | store i => exact h.store hen
  | vcBegin => exact h.vcBegin hen.2
  | vcFinish => exact h.vcFinish hen.1 hen.2
  | recycle slot => exact h.recycle hen
  | replenish => exact h.replenish hen

end Inv

theorem inv_start (t : TxSlots) : Inv t (start t) where
  supply := Supply.init t
  position := (Nat.zero_mod _).symm
  aligned := Nat.zero_mod _
  recycleIndex := by
    have hlt := Supply.totalTxSlot_lt t
    have hbound : vchiqMaxSlotsPerSide < ulongSize := by decide
    exact (Nat.mod_eq_of_lt (Nat.lt_trans hlt hbound)).symm
  processed := Nat.le_of_eq List.length_range'.symm
  semaphore := rfl
  published := (by decide : 0 * vchiqSlotSize ≤ 0 ∧ 0 ≤ 0)
  reads _ hv := nomatch hv
  vcSlot _ hslot := absurd hslot.symm (Option.some_ne_none _)
  current hpos := absurd hpos (Nat.lt_irrefl _)
  confined := rfl
  entered := (by decide : 0 = (0 + (vchiqSlotSize - 1)) / vchiqSlotSize)
  txSection := trivial

end TxFlow

/-- **Slots come and go soundly** in runs that keep to the condition, also when positions and
counters wrap. -/
theorem flowSound_of_confined {t : TxSlots} {s : TxFlow} (h : (flowMachine t).Reach Confined s) :
    FlowSound t s := by
  have hinv : TxFlow.Inv t s := by
    refine Machine.Reach.inv_guarded (fun s hs => ?_) (fun s a hinv hconfined hen => ?_) h
    · rw [hs]
      exact TxFlow.inv_start t
    · exact hinv.effect hen hconfined
  exact ⟨hinv.confined, hinv.semaphore, hinv.limit⟩

/-- The slots that `VchiqInit` gives the driver. -/
def driverSlots : TxSlots := ⟨34, 65, by decide, by decide⟩

/-- A message fills up a slot. -/
def fillRun (slot : Nat) : List FlowAction :=
  let header := slot * vchiqSlotSize
  let message : Extent := ⟨header + 8, 4088⟩
  [.acquire (.buffer 4088) false, .takeSlot (.buffer 4088) false,
    .write ⟨header, 4⟩ [⟨header + 4, 4⟩, message], .write ⟨header + 4, 4⟩ [message],
    .write message [], .release, .read, .store 0]

/-- 31 messages take all the slots, the next one waits for one and gives up. VC reads the first slot
and recycles it, and the message is sent again. -/
def recycledRun : List FlowAction :=
  (List.range' 34 31).flatMap fillRun ++
    [.acquire (.buffer 8) false, .giveUp (.buffer 8) false false, .vcBegin, .vcFinish, .recycle 34,
      .replenish, .acquire (.buffer 8) false, .takeSlot (.buffer 8) false]

theorem flowSound_of_confined_recycled : ∃ s, (flowMachine driverSlots).Reach Confined s ∧
    s.entered = 32 ∧ s.slaveCurrentSlot = 34 * vchiqSlotSize ∧ FlowSound driverSlots s :=
  have h := (flowMachine driverSlots).reach_execOk_get Confined recycledRun rfl (by decide +kernel)
  ⟨_, h, by decide +kernel, by decide +kernel, flowSound_of_confined h⟩

/-- The first caller has released the mutex; the second one writes a message that fills up the slot,
and the first one publishes its position meanwhile. -/
def earlyRun : List FlowAction :=
  let header := 34 * vchiqSlotSize
  let second := header + vchiqHeaderSize
  [.acquire (.buffer 0) false, .takeSlot (.buffer 0) false, .write ⟨header, 4⟩ [⟨header + 4, 4⟩],
    .write ⟨header + 4, 4⟩ [], .release, .acquire (.buffer 4080) false, .read, .store 0,
    .write ⟨second, 4⟩ [⟨second + 4, 4⟩, ⟨second + 8, 4080⟩]]

/-- VC has slot 34, all of which is published, and the driver writes into it. -/
theorem slot_overwritten :
    ∃ s, (flowMachine driverSlots).Reachable s ∧ s.trespass = [34] ∧ ¬ FlowSound driverSlots s :=
  have h := (flowMachine driverSlots).reach_exec_get earlyRun rfl (by decide +kernel)
  have htrespass :
      (((flowMachine driverSlots).exec (.start driverSlots) earlyRun).get _).trespass = [34] := by
    decide +kernel
  ⟨_, h, htrespass, fun hsound => absurd (htrespass.symm.trans hsound.confined) (by decide)⟩

end RpiDrivers.Vchiq
