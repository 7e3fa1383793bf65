import RpiDrivers.Lib.Region
import RpiDrivers.Vchiq.TxFlow

/-!
# The layout of the shared memory (`slots.c`)

`VchiqInit` allocates memory for 65 slots and for a block of fragments behind them. It aligns slot
zero to a slot, counts how many slots there are in all of the memory, the fragment block included,
and divides those after slot zero between the two sides. The fragment block is told to the VideoCore
by its address.

- `vchiqInit`: what is written into slot zero, and where the driver puts the fragments.
- `Layout.slots_disjoint`: slot zero and the slots of the two sides do not overlap.
- `not_layoutSound`: **wherever the memory is, the fragment block overlaps the slots of the
  driver**.
-/

namespace RpiDrivers.Vchiq

open RpiDrivers.Lib

/-- `sizeof(VCHIQ_REMOTE_EVENT)` -/
abbrev sizeofRemoteEvent : Nat := 3 * 4

/-- `DEBUG_MAX`, with `VCHIQ_ENABLE_DEBUG` -/
abbrev debugMax : Nat := 11

/-- `sizeof(VCHIQ_SHARED_STATE)`: the four numbers of the slots, the position and the recycle index,
the four events, the slot queue and the debugging state. -/
abbrev sizeofSharedState : Nat :=
  4 * 4 + sizeofRemoteEvent + 4 + sizeofRemoteEvent + 4 + 2 * sizeofRemoteEvent +
    4 * vchiqMaxSlotsPerSide + 4 * debugMax

/-- `VCHIQ_MAX_SLOTS` -/
abbrev vchiqMaxSlots : Nat := 128

/-- `sizeof(VCHIQ_SLOT_ZERO)` -/
abbrev sizeofSlotZero : Nat := 4 + 2 * 2 + 4 * 4 + 2 * 4 + 2 * sizeofSharedState + 4 * vchiqMaxSlots

/-- `VCHIQ_SLOT_ZERO_SLOTS` -/
abbrev vchiqSlotZeroSlots : Nat := (sizeofSlotZero + vchiqSlotSize - 1) / vchiqSlotSize

/-- `VCHIQ_DEFAULT_TOTAL_SLOTS` -/
abbrev vchiqDefaultTotalSlots : Nat := 1 + 32 + 32

/-- `VCHIQ_NUM_CURRENT_BULKS` -/
abbrev vchiqNumCurrentBulks : Nat := 32

/-- `VCHIQ_MAX_FRAGMENTS` -/
abbrev vchiqMaxFragments : Nat := vchiqNumCurrentBulks * 2

/-- `slotMemorySize` -/
abbrev slotMemorySize : Nat := vchiqDefaultTotalSlots * vchiqSlotSize

/-- `fragMemorySize` -/
abbrev fragMemorySize : Nat := 2 * 32 * vchiqMaxFragments

/-- `totalMemorySize`, what is allocated -/
abbrev totalMemorySize : Nat := slotMemorySize + fragMemorySize

/-- The slots of a side, as slot zero has them. -/
structure SideSlots where
  slotSync : Nat
  slotFirst : Nat
  slotLast : Nat

/-- What `VchiqInit` makes of the memory. -/
structure Layout where
  /-- the number of bytes before slot zero -/
  memAlign : Nat
  /-- `slotMemoryPhy`, the address of the memory for the VideoCore -/
  slotMemoryPhy : Nat
  master : SideSlots
  slave : SideSlots
  /-- `PlatformData[VCHIQ_PLATFORM_FRAGMENTS_OFFSET_IDX]` -/
  fragments : Nat
  /-- `PlatformData[VCHIQ_PLATFORM_FRAGMENTS_COUNT_IDX]` -/
  fragmentsCount : Nat
  /-- `fragmentBasePtr`, as an offset in the memory -/
  fragmentBase : Nat

/-- The width of a `UINT_PTR`. -/
inductive Architecture
  | arm
  | arm64
  deriving DecidableEq

/-- How many values a `UINT_PTR` has. -/
def Architecture.uintPtrSize : Architecture → Nat
  | .arm => 2 ^ 32
  | .arm64 => 2 ^ 64

/-- `(VCHIQ_SLOT_SIZE - (UINT_PTR)SlotZeroPtr) & VCHIQ_SLOT_MASK` -/
def memAlign (arch : Architecture) (base : Nat) : Nat :=
  (vchiqSlotSize + (arch.uintPtrSize - base % arch.uintPtrSize)) % arch.uintPtrSize &&& vchiqSlotMask

/-- `numSlots`, once the slots of slot zero are taken off -/
def numSlots (memAlign : Nat) : Nat :=
  (totalMemorySize - memAlign) / vchiqSlotSize - vchiqSlotZeroSlots

/-- `VchiqInit` with memory at the address `base`, whose physical address has the low part
`lowPart`. -/
def vchiqInit (arch : Architecture) (base lowPart : Nat) : Layout :=
  let memAlign := memAlign arch base
  let numSlots := numSlots memAlign
  let firstDataSlot := vchiqSlotZeroSlots
  let slotMemoryPhy := (lowPart + offsetDirectSdram) % ulongSize
  { memAlign := memAlign
    slotMemoryPhy := slotMemoryPhy
    master := ⟨firstDataSlot, firstDataSlot + 1, firstDataSlot + numSlots / 2 - 1⟩
    slave := ⟨firstDataSlot + numSlots / 2, firstDataSlot + numSlots / 2 + 1,
      firstDataSlot + numSlots - 1⟩
    fragments := (slotMemoryPhy + slotMemorySize) % ulongSize
    fragmentsCount := vchiqMaxFragments
    fragmentBase := memAlign + slotMemorySize }

namespace Layout

variable (l : Layout)

/-- The memory that was allocated. The regions below are offsets in it. -/
def allocation : Region := ⟨0, totalMemorySize⟩

/-- The slots from `first` to `last`, which are counted from slot zero. -/
def slotRange (first last : Nat) : Region :=
  ⟨l.memAlign + first * vchiqSlotSize, (last + 1 - first) * vchiqSlotSize⟩

def slotZero : Region := l.slotRange 0 (vchiqSlotZeroSlots - 1)

def masterSlots : Region := l.slotRange l.master.slotFirst l.master.slotLast

def slaveSlots : Region := l.slotRange l.slave.slotFirst l.slave.slotLast

/-- The fragment block, at the address that is told to the VideoCore. -/
def fragmentBlock : Region :=
  ⟨(l.fragments + (ulongSize - l.slotMemoryPhy)) % ulongSize, 2 * 32 * l.fragmentsCount⟩

/-- The regions that are published. -/
def regions : List Region := [l.slotZero, l.slaveSlots, l.masterSlots, l.fragmentBlock]

end Layout

/-- The regions do not overlap, and are inside of what was allocated. -/
structure LayoutSound (l : Layout) : Prop where
  disjoint : l.regions.Pairwise Region.Disjoint
  inside : ∀ region ∈ l.regions, region.Inside Layout.allocation

/-! ## Where the regions are -/

theorem memAlign_lt (arch : Architecture) (base : Nat) : memAlign arch base < vchiqSlotSize :=
  Nat.lt_of_le_of_lt Nat.and_le_right (by decide)

/-- The page of the fragments counts as a slot, unless the alignment takes it. -/
theorem numSlots_eq {memAlign : Nat} (h : memAlign < vchiqSlotSize) :
    numSlots memAlign = if memAlign = 0 then 65 else 64 := by
  rw [numSlots]
  split
  · next hzero =>
    rw [hzero]
    rfl
  · next hne =>
    have hdiv : (totalMemorySize - memAlign) / vchiqSlotSize = 65 := by
      simp only [totalMemorySize, slotMemorySize, fragMemorySize, vchiqDefaultTotalSlots,
        vchiqMaxFragments, vchiqNumCurrentBulks, vchiqSlotSize] at h ⊢
      omega
    rw [hdiv]
    rfl

/-- The fragment block is behind the memory of the 65 slots. -/
theorem Layout.fragmentBlock_vchiqInit (arch : Architecture) (base lowPart : Nat) :
    (vchiqInit arch base lowPart).fragmentBlock = ⟨slotMemorySize, fragMemorySize⟩ := by
  have hphy : (vchiqInit arch base lowPart).slotMemoryPhy < ulongSize := Nat.mod_lt _ (by decide)
  have hstart : ((vchiqInit arch base lowPart).fragments +
      (ulongSize - (vchiqInit arch base lowPart).slotMemoryPhy)) % ulongSize = slotMemorySize := by
    show (((vchiqInit arch base lowPart).slotMemoryPhy + slotMemorySize) % ulongSize +
      (ulongSize - (vchiqInit arch base lowPart).slotMemoryPhy)) % ulongSize = slotMemorySize
    simp only [slotMemorySize, vchiqDefaultTotalSlots, vchiqSlotSize, ulongSize] at hphy ⊢
    omega
  exact congrArg (Region.mk · fragMemorySize) hstart

namespace Layout

variable (arch : Architecture) (base lowPart : Nat)

/-- The slots of the driver end where the slots end. -/
theorem slave_vchiqInit :
    (vchiqInit arch base lowPart).slave =
      if Vchiq.memAlign arch base = 0 then ⟨33, 34, 65⟩ else ⟨33, 34, 64⟩ := by
  show SideSlots.mk _ _ _ = _
  rw [numSlots_eq (memAlign_lt arch base)]
  split <;> rfl

theorem master_vchiqInit : (vchiqInit arch base lowPart).master = ⟨1, 2, 32⟩ := by
  show SideSlots.mk _ _ _ = _
  rw [numSlots_eq (memAlign_lt arch base)]
  split <;> rfl

/-- Slot zero, the slots of the VideoCore and those of the driver are apart, and inside of what was
allocated. -/
theorem slots_disjoint :
    let l := vchiqInit arch base lowPart
    [l.slotZero, l.slaveSlots, l.masterSlots].Pairwise Region.Disjoint ∧
      ∀ region ∈ [l.slotZero, l.slaveSlots, l.masterSlots], region.Inside allocation := by
  intro l
  have hlt : l.memAlign < 4096 := memAlign_lt arch base
  have hmaster : l.masterSlots = ⟨l.memAlign + 2 * 4096, 31 * 4096⟩ := by
    rw [masterSlots, master_vchiqInit]
    rfl
  have hzero : l.slotZero = ⟨l.memAlign + 0 * 4096, 1 * 4096⟩ := rfl
  have hslave : l.slaveSlots = ⟨l.memAlign + 34 * 4096, 32 * 4096⟩ ∧ l.memAlign = 0 ∨
      l.slaveSlots = ⟨l.memAlign + 34 * 4096, 31 * 4096⟩ := by
    rw [slaveSlots, slave_vchiqInit]
    split
    · next h => exact .inl ⟨rfl, h⟩
    · exact .inr rfl
  have htotal : totalMemorySize = 270336 := rfl
  rcases hslave with ⟨hslave, halign⟩ | hslave
  all_goals
    rw [hmaster, hzero, hslave]
    simp only [List.pairwise_cons, List.mem_cons, List.not_mem_nil, or_false, forall_eq_or_imp,
      forall_eq, Region.Disjoint, Region.Inside, Region.stop, allocation, htotal]
    refine ⟨⟨⟨?_, ?_⟩, ?_, ?_⟩, ?_, ?_, ?_⟩ <;> first | omega | simp

/-- The last slot of the driver reaches into the fragment block. -/
theorem contains_fragmentBlock :
    (vchiqInit arch base lowPart).slaveSlots.Contains slotMemorySize := by
  have hlt := memAlign_lt arch base
  have halign : (vchiqInit arch base lowPart).memAlign = Vchiq.memAlign arch base := rfl
  have hsize : slotMemorySize = 65 * 4096 := rfl
  rw [slaveSlots, slave_vchiqInit, slotRange, Region.Contains, Region.stop, halign, hsize]
  simp only [vchiqSlotSize] at hlt ⊢
  split
  · next h =>
    simp only [h]
    omega
  · next h =>
    dsimp only
    omega

end Layout

/-- **Wherever the memory is, the layout is not sound**: the fragment block overlaps the slots of
the driver. -/
theorem not_layoutSound (arch : Architecture) (base lowPart : Nat) :
    ¬ LayoutSound (vchiqInit arch base lowPart) := by
  intro h
  have hcontains := Layout.contains_fragmentBlock arch base lowPart
  have hblock := Layout.fragmentBlock_vchiqInit arch base lowPart
  have hdisjoint : Region.Disjoint (vchiqInit arch base lowPart).slaveSlots
      (vchiqInit arch base lowPart).fragmentBlock := by
    have hpairs := h.disjoint
    simp only [Layout.regions, List.pairwise_cons, List.mem_cons] at hpairs
    exact hpairs.2.1 _ (.inr (.inl rfl))
  rw [hblock] at hdisjoint
  refine Region.not_disjoint_of_contains hcontains ⟨Nat.le_refl _, ?_⟩ hdisjoint
  exact Nat.lt_add_of_pos_right (by decide)

/-- Memory at a page boundary: slot 65 and the fragments are the same page. -/
theorem last_slot_is_fragmentBlock :
    ¬ LayoutSound (vchiqInit .arm 0x81200000 0x1200000) ∧
      (vchiqInit .arm 0x81200000 0x1200000).slotRange 65 65 =
        (vchiqInit .arm 0x81200000 0x1200000).fragmentBlock := by
  refine ⟨fun h => ?_, by decide⟩
  exact absurd h.disjoint (by decide)

end RpiDrivers.Vchiq
