import Mathlib.Data.Nat.Basic
import Mathlib.Tactic.Ring

/-!
# Slot macros (`slots.h`, `vchiq_core.h`)

The transfer memory is divided into slots of 4096 bytes. A *position* is a 32-bit
byte count in a stream of messages: its low 12 bits are the offset within a slot,
the next 6 bits the entry of the owner's 64-entry slot queue that names the
physical slot. Positions are `Nat`s below `2 ^ 32`, and every addition to one
wraps explicitly (`addPos`).

- `vchiqGetSlotAlignSize_eq`: the alignment mask rounds up to a multiple of 8.
- `slotOffset_eq`, `slotQueueIndex_eq`: the masks as remainders.
-/

namespace RpiDrivers.Vchiq

/-- `2 ^ 32`: the modulus of every `ULONG`. -/
abbrev ulongSize : Nat := 2 ^ 32

/-- `OFFSET_DIRECT_SDRAM` -/
abbrev offsetDirectSdram : Nat := 0xc0000000

/-- `VCHIQ_SLOT_SIZE` -/
abbrev vchiqSlotSize : Nat := 4096

/-- `VCHIQ_SLOT_MASK` -/
abbrev vchiqSlotMask : Nat := vchiqSlotSize - 1

/-- `VCHIQ_MAX_SLOTS_PER_SIDE` -/
abbrev vchiqMaxSlotsPerSide : Nat := 64

/-- `VCHIQ_SLOT_QUEUE_MASK` -/
abbrev vchiqSlotQueueMask : Nat := vchiqMaxSlotsPerSide - 1

/-- `sizeof(VCHIQ_HEADER)`: a message id and a size, both `ULONG`. -/
abbrev vchiqHeaderSize : Nat := 8

/-- `VCHIQ_MAX_MSG_SIZE` -/
abbrev vchiqMaxMsgSize : Nat := vchiqSlotSize - vchiqHeaderSize

/-- `SLOT_MSG_SIZE_ALIGN` -/
abbrev slotMsgSizeAlign : Nat := 8

/-- `SLOT_MSG_SIZE_MASK_ALIGN` -/
abbrev slotMsgSizeMaskAlign : Nat := slotMsgSizeAlign - 1

/-- `VCHIQ_MSG_PADDING` -/
abbrev vchiqMsgPadding : Nat := 0

/-- `VCHIQ_MSG_DATA` -/
abbrev vchiqMsgData : Nat := 5

/-- `VCHIQ_MSG_BULK_RX_DONE` -/
abbrev vchiqMsgBulkRxDone : Nat := 8

/-- `VCHIQ_MSG_BULK_TX_DONE` -/
abbrev vchiqMsgBulkTxDone : Nat := 9

/-- `VCHIQ_MSGID_PADDING`: type padding, ports 0. -/
abbrev vchiqMsgIdPadding : Nat := 0

/-- `VCHIQ_MSG_TYPE(msgid)` -/
def vchiqMsgType (msgId : Nat) : Nat := msgId >>> 24

/-- `VCHIQ_GET_SLOT_ALIGN_SIZE(Size)`, with `~SLOT_MSG_SIZE_MASK_ALIGN` as a `ULONG`. -/
def vchiqGetSlotAlignSize (size : Nat) : Nat :=
  (size + slotMsgSizeMaskAlign) % ulongSize &&& (ulongSize - slotMsgSizeAlign)

/-- `pos & VCHIQ_SLOT_MASK`: the offset of a position within its slot. -/
def slotOffset (pos : Nat) : Nat := pos &&& vchiqSlotMask

/-- `(pos / VCHIQ_SLOT_SIZE) & VCHIQ_SLOT_QUEUE_MASK`: the slot queue entry of a position. -/
def slotQueueIndex (pos : Nat) : Nat := (pos / vchiqSlotSize) &&& vchiqSlotQueueMask

/-- `pos += n` on a `ULONG`. -/
def addPos (pos n : Nat) : Nat := (pos + n) % ulongSize

/-! ## The masks as arithmetic -/

/-- Clearing the low `k` bits of a number of `w` bits rounds it down to a multiple of `2 ^ k`. -/
theorem and_highMask {n k w : Nat} (h : n < 2 ^ w) (hk : k ≤ w) :
    n &&& (2 ^ w - 2 ^ k) = n / 2 ^ k * 2 ^ k := by
  have hmask : 2 ^ w - 2 ^ k = (2 ^ (w - k) - 1) <<< k := by
    rw [Nat.shiftLeft_eq, Nat.sub_mul, ← Nat.pow_add, Nat.sub_add_cancel hk, Nat.one_mul]
  have hshift : n / 2 ^ k * 2 ^ k = (n >>> k) <<< k := by
    rw [Nat.shiftRight_eq_div_pow, Nat.shiftLeft_eq]
  rw [hmask, hshift]
  refine Nat.eq_of_testBit_eq fun i => ?_
  rw [Nat.testBit_and, Nat.testBit_shiftLeft, Nat.testBit_shiftLeft, Nat.testBit_shiftRight,
    Nat.testBit_two_pow_sub_one]
  by_cases hi : k ≤ i
  · rw [Nat.add_sub_cancel' hi]
    by_cases hlt : i - k < w - k
    · simp [hi, hlt]
    · -- bits from `w` on are clear in `n` already
      have hbit : n.testBit i = false :=
        Nat.testBit_lt_two_pow (lt_of_lt_of_le h (Nat.pow_le_pow_right (by decide) (by omega)))
      simp [hbit]
  · simp [hi]

/-- Clearing the low 3 bits of a 32-bit number rounds it down to a multiple of 8. -/
theorem and_alignMask {n : Nat} (h : n < ulongSize) :
    n &&& (ulongSize - slotMsgSizeAlign) = n / 8 * 8 :=
  and_highMask (k := 3) (w := 32) h (by decide)

/-- The aligned size is the size rounded up to a multiple of 8. -/
theorem vchiqGetSlotAlignSize_eq {size : Nat} (h : size + 7 < ulongSize) :
    vchiqGetSlotAlignSize size = (size + 7) / 8 * 8 := by
  show (size + 7) % ulongSize &&& (ulongSize - slotMsgSizeAlign) = _
  rw [Nat.mod_eq_of_lt h, and_alignMask h]

@[simp] theorem slotOffset_eq (pos : Nat) : slotOffset pos = pos % 4096 :=
  Nat.and_two_pow_sub_one_eq_mod pos 12

@[simp] theorem slotQueueIndex_eq (pos : Nat) : slotQueueIndex pos = pos / 4096 % 64 :=
  Nat.and_two_pow_sub_one_eq_mod (pos / 4096) 6

end RpiDrivers.Vchiq
