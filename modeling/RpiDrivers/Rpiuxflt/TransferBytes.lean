import Mathlib.Logic.Function.Basic
import RpiDrivers.Lib.ByteMemory
import RpiDrivers.Rpiuxflt.BounceBuffers

/-!
# The bytes of a transfer (`rpiuxflt/dma.c`)

A transfer is `Length` bytes from `CurrentVa` on, an address in the buffer that the MDL describes.
What the device is to read is copied to the bounce buffer before the transfer, and what it has
written is copied back when the list is put. Both copies begin at the start of the MDL.

- `TransferSound`: the device reads the bytes of the transfer, and what it writes goes there and
  nowhere else.
- `transferSound_iff`: **this holds exactly when** the transfer is empty or begins with its MDL.
- `offset_ignored`: a transfer from the middle.
-/

namespace RpiDrivers.Rpiuxflt

open RpiDrivers.Lib

/-- An MDL, with the address at which its buffer is mapped in system space. -/
structure Mdl where
  virtualAddress : Nat
  byteCount : Nat
  systemAddress : Nat
  /-- `Next` is not `NULL` -/
  chained : Bool

/-- System space, and the bounce buffers with what is noted in them. -/
structure DmaState where
  mdls : Nat → Mdl
  memory : ByteMemory
  bounceMemory : Nat → ByteMemory
  bounceBuffers : Nat → BounceBuffer

/-- The only element of a scatter/gather list: its bounce buffer, and how much of it. -/
structure ScatterGatherElement where
  buffer : Nat
  length : Nat

/-- What the device finds in the memory of an element. -/
def DmaState.device (s : DmaState) (e : ScatterGatherElement) : List UInt8 :=
  load (s.bounceMemory e.buffer) 0 e.length

/-- `Dma_GetScatterGatherList`, with the bounce buffer that is popped, up to the call of the
`ExecutionRoutine` with the list. `CurrentVa` is not used. -/
def dmaGetScatterGatherList (s : DmaState) (popped : Option Nat) (mdl : Option Nat)
    (_currentVa length : Nat) (writeToDevice : Bool) :
    Except Status (DmaState × ScatterGatherElement) :=
  match Filter.checkRequest mdl (mdl.any fun m => (s.mdls m).chained) length with
  | .error status => .error status
  | .ok request =>
    match popped with
    | none => .error .unsuccessful
    | some buffer =>
      let systemCurrentVa := (s.mdls request.mdl).systemAddress
      let copied := store (s.bounceMemory buffer) 0 (load s.memory systemCurrentVa length)
      .ok ({ s with
        bounceMemory :=
          if writeToDevice then Function.update s.bounceMemory buffer copied else s.bounceMemory
        bounceBuffers := Function.update s.bounceBuffers buffer request }, ⟨buffer, length⟩)

/-- `Dma_PutScatterGatherList`, up to the return of the bounce buffer. -/
def dmaPutScatterGatherList (s : DmaState) (buffer : Nat) (writeToDevice : Bool) : DmaState :=
  if writeToDevice then s
  else
    let request := s.bounceBuffers buffer
    { s with
      memory := store s.memory (s.mdls request.mdl).systemAddress
        (load (s.bounceMemory buffer) 0 request.length) }

/-! ## The property and the condition -/

/-- A transfer that is inside its MDL, and fits into a bounce buffer. -/
structure InMdl (mdl : Mdl) (currentVa length : Nat) : Prop where
  single : mdl.chained = false
  le : mdl.virtualAddress ≤ currentVa
  stop_le : currentVa + length ≤ mdl.virtualAddress + mdl.byteCount
  length_le : length ≤ filterScatterGatherMaxSize

/-- Where an address in the buffer is mapped. -/
def Mdl.system (mdl : Mdl) (va : Nat) : Nat := mdl.systemAddress + (va - mdl.virtualAddress)

/-- The device is given the bytes of the transfer. What it has produced is copied to them, from
whatever is in the bounce buffer and in memory when the list is put, and nothing else changes. -/
structure TransferSound (mdl : Mdl) (currentVa length : Nat) : Prop where
  write : ∀ (s s' : DmaState) (m buffer : Nat) (e : ScatterGatherElement), s.mdls m = mdl →
    dmaGetScatterGatherList s (some buffer) (some m) currentVa length true = .ok (s', e) →
      s'.device e = load s.memory (mdl.system currentVa) length ∧ s'.memory = s.memory
  read : ∀ (s s' : DmaState) (m buffer : Nat) (e : ScatterGatherElement), s.mdls m = mdl →
    dmaGetScatterGatherList s (some buffer) (some m) currentVa length false = .ok (s', e) →
      s'.memory = s.memory ∧ ∀ t : DmaState, t.mdls m = mdl →
        t.bounceBuffers e.buffer = s'.bounceBuffers e.buffer →
          (dmaPutScatterGatherList t e.buffer false).memory =
            store t.memory (mdl.system currentVa) (t.device e)

/-- The condition: the transfer is empty, or it begins where its MDL does. -/
def AtStart (mdl : Mdl) (currentVa length : Nat) : Prop :=
  length = 0 ∨ currentVa = mdl.virtualAddress

/-! ## The copies -/

section Transfer

variable {mdl : Mdl} {currentVa length : Nat}

/-- A transfer in its MDL gets a list when there is a bounce buffer. -/
theorem dmaGetScatterGatherList_eq (h : InMdl mdl currentVa length) {s : DmaState} {m : Nat}
    (hm : s.mdls m = mdl) (buffer : Nat) (writeToDevice : Bool) :
    dmaGetScatterGatherList s (some buffer) (some m) currentVa length writeToDevice =
      .ok ({ s with
        bounceMemory :=
          if writeToDevice then Function.update s.bounceMemory buffer
            (store (s.bounceMemory buffer) 0 (load s.memory mdl.systemAddress length))
          else s.bounceMemory
        bounceBuffers := Function.update s.bounceBuffers buffer ⟨m, length⟩ },
        ⟨buffer, length⟩) := by
  have hcheck : Filter.checkRequest (some m) (s.mdls m).chained length = .ok ⟨m, length⟩ := by
    rw [hm, h.single]
    exact if_neg (Nat.not_lt.2 h.length_le)
  unfold dmaGetScatterGatherList
  rw [Option.any_some, hcheck]
  dsimp only
  rw [hm]

/-- **What the device is given** are the first bytes of the MDL. -/
theorem device_get (h : InMdl mdl currentVa length) {s s' : DmaState} {m buffer : Nat}
    {e : ScatterGatherElement} (hm : s.mdls m = mdl)
    (hget : dmaGetScatterGatherList s (some buffer) (some m) currentVa length true = .ok (s', e)) :
    s'.device e = load s.memory mdl.systemAddress length ∧ s'.memory = s.memory := by
  rw [dmaGetScatterGatherList_eq h hm, if_pos rfl] at hget
  obtain ⟨rfl, rfl⟩ := Prod.mk.inj (Except.ok.inj hget)
  refine ⟨?_, rfl⟩
  have hload := load_store_same (s.bounceMemory buffer) 0 (load s.memory mdl.systemAddress length)
  rw [length_load] at hload
  rw [DmaState.device]
  dsimp only
  rw [Function.update_self]
  exact hload

/-- **What the device has produced** is copied to the first bytes of the MDL. -/
theorem memory_put (h : InMdl mdl currentVa length) {s s' t : DmaState} {m buffer : Nat}
    {e : ScatterGatherElement} (hm : s.mdls m = mdl)
    (hget : dmaGetScatterGatherList s (some buffer) (some m) currentVa length false = .ok (s', e))
    (ht : t.mdls m = mdl) (hkept : t.bounceBuffers e.buffer = s'.bounceBuffers e.buffer) :
    (dmaPutScatterGatherList t e.buffer false).memory =
      store t.memory mdl.systemAddress (t.device e) := by
  rw [dmaGetScatterGatherList_eq h hm] at hget
  obtain ⟨rfl, rfl⟩ := Prod.mk.inj (Except.ok.inj hget)
  dsimp only at hkept ⊢
  rw [Function.update_self] at hkept
  rw [dmaPutScatterGatherList, if_neg Bool.false_ne_true, hkept]
  dsimp only
  rw [ht]
  rfl

theorem memory_get (h : InMdl mdl currentVa length) {s s' : DmaState} {m buffer : Nat}
    {e : ScatterGatherElement} (hm : s.mdls m = mdl)
    (hget : dmaGetScatterGatherList s (some buffer) (some m) currentVa length false = .ok (s', e)) :
    s'.memory = s.memory ∧ e.length = length := by
  rw [dmaGetScatterGatherList_eq h hm] at hget
  obtain ⟨rfl, rfl⟩ := Prod.mk.inj (Except.ok.inj hget)
  exact ⟨rfl, rfl⟩

/-- **A transfer is sound** exactly when it is empty or begins with its MDL. -/
theorem transferSound_iff (h : InMdl mdl currentVa length) :
    TransferSound mdl currentVa length ↔ AtStart mdl currentVa length := by
  constructor
  · intro hsound
    by_contra hoffset
    obtain ⟨hlength, hva⟩ := not_or.1 hoffset
    -- a memory whose only byte that is not zero is the first one of the buffer
    let s : DmaState := ⟨fun _ => mdl, fun x => if x = mdl.systemAddress then 1 else 0,
      fun _ _ => 0, fun _ => ⟨0, 0⟩⟩
    have hget := dmaGetScatterGatherList_eq h (rfl : s.mdls 0 = mdl) 0 true
    have hgiven := (hsound.write s _ 0 0 _ rfl hget).1
    rw [(device_get h rfl hget).1] at hgiven
    have hfirst := congrArg (·[0]?) hgiven
    have hle := h.le
    have hne : mdl.system currentVa ≠ mdl.systemAddress := by
      rw [Mdl.system]
      omega
    simp [load, Nat.pos_of_ne_zero hlength, s, hne] at hfirst
  · intro hstart
    have hempty : ∀ (mem : ByteMemory) (a : Nat), length = 0 → load mem a length = [] := by
      rintro mem a rfl
      rfl
    refine ⟨fun s s' m buffer e hm hget => ?_, fun s s' m buffer e hm hget => ?_⟩
    · obtain ⟨hdevice, hmemory⟩ := device_get h hm hget
      refine ⟨hdevice.trans ?_, hmemory⟩
      rcases hstart with hzero | rfl
      · rw [hempty _ _ hzero, hempty _ _ hzero]
      · rw [Mdl.system, Nat.sub_self, Nat.add_zero]
    · obtain ⟨hmemory, helength⟩ := memory_get h hm hget
      refine ⟨hmemory, fun t ht hkept => (memory_put h hm hget ht hkept).trans ?_⟩
      rcases hstart with hzero | rfl
      · rw [DmaState.device, helength, hempty _ _ hzero, store_nil, store_nil]
      · rw [Mdl.system, Nat.sub_self, Nat.add_zero]

end Transfer

/-- A buffer of 64 bytes. -/
def smallMdl : Mdl := ⟨0x1000, 64, 0x9000, false⟩

theorem transferSound_iff_whole :
    TransferSound smallMdl 0x1000 64 ↔ AtStart smallMdl 0x1000 64 :=
  transferSound_iff ⟨rfl, by decide, by decide, by decide⟩

/-- **The last byte of the buffer** is not what the device is given. -/
theorem offset_ignored : ¬ TransferSound smallMdl 0x103f 1 := by
  intro h
  have hgiven := (h.write ⟨fun _ => smallMdl, fun x => if x = 0x9000 then 1 else 0, fun _ _ => 0,
    fun _ => ⟨0, 0⟩⟩ _ 0 0 _ rfl rfl).1
  exact absurd hgiven (by decide)

end RpiDrivers.Rpiuxflt
