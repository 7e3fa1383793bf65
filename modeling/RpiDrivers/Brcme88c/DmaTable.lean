import Mathlib.Data.List.Basic
import RpiDrivers.Brcme88c.SlotEvents

/-!
# The ADMA2 table of the slot (`SlotExtension.cpp` of brcme88c)

Transfers by DMA go through a bounce buffer of single pages. There is one descriptor a page, and
they are written once, when the buffer is allocated. A transfer only takes the end mark off the
descriptor where the transfer before it ended and puts it on the one where it ends itself.

- `admaRead`: what the engine reads off a table.
- `DmaSound`: each transfer was started with a table that describes it, and no assertion on page
  frame numbers has failed.
- `NoLastPage`: the condition. `PfnToLegacyMasterAddress` is not called for the last page of the
  low 1 GB.
- `dmaSound_iff_noLastPage`: **a run is sound if and only if its steps meet the condition**.
- `last_page_asserted`: the allocator may return that page.
-/

namespace RpiDrivers.Brcme88c

open RpiDrivers.Lib

/-! ## Descriptors -/

/-- `PAGE_SIZE` -/
def pageSize : Nat := 0x1000

/-- `SdRegDmaAction` -/
inductive SdRegDmaAction
  | adma2Nop | adma2Rsv | adma2Tran | adma2Link
  | adma3CmdSD | adma3CmdUHS2 | adma3Reserved | adma3IntegratedDescriptor
  deriving DecidableEq

/-- `SdRegDma32` -/
structure SdRegDma32 where
  valid : Bool
  isEnd : Bool
  int : Bool
  action : SdRegDmaAction
  lengthHigh : Nat
  length : Nat
  address : Nat

/-- `PfnToLegacyMasterAddress` -/
def pfnToLegacyMasterAddress (pfn dmaTranslation : Nat) : Nat :=
  (pfn * pageSize + dmaTranslation) % 2 ^ 32

/-- The assertion in `PfnToLegacyMasterAddress`. -/
def PfnAsserted (pfn : Nat) : Prop := pfn < 0x3FFFFFFF / pageSize

instance (pfn : Nat) : Decidable (PfnAsserted pfn) := inferInstanceAs (Decidable (_ < _))

/-- The assertion in the loop of `AllocateDmaBuffers`. -/
def PageAsserted (pfn : Nat) : Prop := pfn < 0x40000000 / pageSize

instance (pfn : Nat) : Decidable (PageAsserted pfn) := inferInstanceAs (Decidable (_ < _))

/-- The descriptor of a page, as `AllocateDmaBuffers` writes it. -/
def pageDescriptor (dmaTranslation pfn : Nat) : SdRegDma32 where
  valid := true
  isEnd := false
  int := false
  action := .adma2Tran
  lengthHigh := 0
  length := pageSize
  address := pfnToLegacyMasterAddress pfn dmaTranslation

/-- What the engine reads off a table: the bus addresses that it transfers, up to the first
descriptor marked `End`. A table without an end, or with a descriptor it does not know, has no
meaning. A length of 0 stands for 65536. -/
def admaRead : List SdRegDma32 → Option (List Nat)
  | [] => none
  | d :: ds =>
    if d.valid = true ∧ d.action = .adma2Tran then
      let bytes := List.range' d.address (if d.length = 0 then 65536 else d.length)
      if d.isEnd then some bytes else (admaRead ds).map (bytes ++ ·)
    else none

/-! ## Commands and allocations -/

/-- The fields of `SDPORT_COMMAND` that matter here. -/
structure Command where
  responseType : ResponseType
  commandType : CommandType
  transferType : TransferType
  transferDirection : TransferDirection
  transferMethod : TransferMethod
  length : Nat

/-- What the two calls of `MmAllocatePagesForMdlEx` return, the page frame numbers, and whether
the buffers can be mapped. -/
structure Allocation where
  data : Option (List Nat)
  dataMapped : Bool
  descriptor : Option (List Nat)
  descriptorMapped : Bool

/-- `cDmaDataPages` -/
def dataPages (cbDmaData : Nat) : Nat := (cbDmaData + pageSize - 1) % 2 ^ 32 / pageSize

/-- An MDL of `n` pages of the low 1 GB, none missing; there is no MDL without pages. -/
def MdlOf (n : Nat) (pfns : List Nat) : Prop :=
  pfns.length = n ∧ pfns ≠ [] ∧ ∀ pfn ∈ pfns, pfn < 0x40000000 / pageSize

instance (n : Nat) (pfns : List Nat) : Decidable (MdlOf n pfns) :=
  inferInstanceAs (Decidable (_ ∧ _ ∧ _))

/-- What the allocator may return. -/
def Allocation.For (a : Allocation) (cbDmaData : Nat) : Prop :=
  (∀ pfns ∈ a.data, MdlOf (dataPages cbDmaData) pfns) ∧
    ∀ pfns ∈ a.descriptor, MdlOf ((dataPages cbDmaData * 8 + pageSize - 1) / pageSize) pfns

instance (a : Allocation) (cbDmaData : Nat) : Decidable (a.For cbDmaData) :=
  inferInstanceAs (Decidable (_ ∧ _))

/-! ## The slot -/

/-- What the engine is started with. -/
structure DmaStart where
  length : Nat
  dataPfns : List Nat
  descriptors : List SdRegDma32
  iDmaEndDescriptor : Nat
  dmaTranslation : Nat
  admaSystemAddress : Nat

/-- The members of `SlotExtension` that have to do with DMA; the buffers are there when it is
initialized. -/
structure DmaSlot where
  initialized : Bool
  dataPfns : List Nat
  descriptorPfns : List Nat
  descriptors : List SdRegDma32
  iDmaEndDescriptor : Nat
  dmaTranslation : Nat
  /-- an assertion on a page frame number has failed -/
  assertFailed : Bool
  /-- the transfers started so far -/
  started : List DmaStart

namespace DmaSlot

/-- The end of `AllocateDmaBuffers`, when both buffers are there. -/
def useBuffers (s : DmaSlot) (dataPfns descriptorPfns : List Nat) : DmaSlot :=
  { s with
    dataPfns := dataPfns
    descriptorPfns := descriptorPfns
    descriptors :=
      (dataPfns.map (pageDescriptor s.dmaTranslation)).modify 0 fun d => { d with isEnd := true }
    iDmaEndDescriptor := 0
    assertFailed := s.assertFailed ||
      dataPfns.any fun pfn => !(PageAsserted pfn ∧ PfnAsserted pfn) }

/-- `AllocateDmaBuffers`, and whether it succeeds; when it fails the old buffers stay. -/
def allocateDmaBuffers (s : DmaSlot) (a : Allocation) : DmaSlot × Bool :=
  match a.data, a.dataMapped with
  | some dataPfns, true =>
    match a.descriptor, a.descriptorMapped with
    | some descriptorPfns, true => (s.useBuffers dataPfns descriptorPfns, true)
    | _, _ => (s, false)
  | _, _ => (s, false)

/-- `m_capabilities.PioTransferMaxThreshold` -/
def pioTransferMaxThreshold : Nat := 64

/-- `CommandShouldUseDma` -/
def commandShouldUseDma (s : DmaSlot) (length : Nat) (a : Allocation) : DmaSlot × Bool :=
  if length ≤ pioTransferMaxThreshold then (s, false)
  else if length ≤ s.dataPfns.length * pageSize then (s, true)
  else s.allocateDmaBuffers a

/-- `SendCommand` moves the end mark. -/
def moveEnd (s : DmaSlot) (length : Nat) : DmaSlot :=
  let cleaned := s.descriptors.modify s.iDmaEndDescriptor fun d =>
    { d with
      isEnd := false
      length := pageSize % 2 ^ 16 }
  let iDmaEndDescriptor := (length - 1) / pageSize
  { s with
    iDmaEndDescriptor := iDmaEndDescriptor
    descriptors := cleaned.modify iDmaEndDescriptor fun d =>
      { d with
        isEnd := true
        length := (length - iDmaEndDescriptor * pageSize) % 2 ^ 16 } }

/-- `SendCommand` writes the address of the table, and the transfer is started. -/
def startDma (s : DmaSlot) (length : Nat) : DmaSlot :=
  let pfn := s.descriptorPfns.headD 0
  { s with
    assertFailed := s.assertFailed || !PfnAsserted pfn
    started := s.started ++
      [{ length := length
         dataPfns := s.dataPfns
         descriptors := s.descriptors
         iDmaEndDescriptor := s.iDmaEndDescriptor
         dmaTranslation := s.dmaTranslation
         admaSystemAddress := pfnToLegacyMasterAddress pfn s.dmaTranslation }] }

end DmaSlot

/-- `SendCommand` gets to `CommandShouldUseDma`. -/
def Command.Transfers (c : Command) : Prop :=
  c.responseType ≠ .unknown ∧ c.commandType ≠ .unknown ∧ c.transferType ≠ .none ∧
    c.transferType ≠ .unknown ∧ c.transferMethod = .pio

instance (c : Command) : Decidable c.Transfers := inferInstanceAs (Decidable (_ ∧ _ ∧ _ ∧ _ ∧ _))

namespace DmaSlot

/-- `SendCommand`, what it does for DMA. -/
def sendCommand (s : DmaSlot) (c : Command) (a : Allocation) : DmaSlot :=
  if c.Transfers then
    match s.commandShouldUseDma c.length a with
    | (s, false) => s
    | (s, true) =>
      let s := s.moveEnd c.length
      -- the direction is looked at when the table has been changed
      if c.transferDirection = .undefined then s else s.startDma c.length
  else s

/-- `SlotInitialize` -/
def slotInitialize (s : DmaSlot) (beforeC0 : Bool) (a : Allocation) : DmaSlot :=
  let zeroed : DmaSlot := { s with
    initialized := false
    dataPfns := []
    descriptorPfns := []
    descriptors := []
    iDmaEndDescriptor := 0
    dmaTranslation := if beforeC0 then 0xC0000000 else 0 }
  match zeroed.allocateDmaBuffers a with
  | (s, success) => { s with initialized := success }

/-- `SlotCleanup` -/
def slotCleanup (s : DmaSlot) : DmaSlot :=
  { s with
    initialized := false
    dataPfns := []
    descriptorPfns := []
    descriptors := [] }

/-- The slot before `SlotInitialize` -/
def start : DmaSlot := ⟨false, [], [], [], 0, 0, false, []⟩

end DmaSlot

/-! ## Runs -/

inductive DmaAction
  | slotInitialize (beforeC0 crashdumpMode : Bool) (a : Allocation)
  | sendCommand (c : Command) (a : Allocation)
  | slotCleanup

/-- What `SlotInitialize` allocates. -/
def initialBytes (crashdumpMode : Bool) : Nat := if crashdumpMode then 0x10000 else 0x100000

namespace DmaSlot

/-- When a step can happen: lengths are of 32 bits, and allocations are what was asked for. -/
def enabled (s : DmaSlot) : DmaAction → Prop
  | .slotInitialize _ crashdumpMode a =>
    s.initialized = false ∧ a.For (initialBytes crashdumpMode)
  | .sendCommand c a => s.initialized = true ∧ c.length < 2 ^ 32 ∧ a.For c.length
  | .slotCleanup => s.initialized = true

instance : ∀ (s : DmaSlot) (a : DmaAction), Decidable (s.enabled a)
  | _, .slotInitialize .. => inferInstanceAs (Decidable (_ ∧ _))
  | _, .sendCommand .. => inferInstanceAs (Decidable (_ ∧ _ ∧ _))
  | _, .slotCleanup => inferInstanceAs (Decidable (_ = _))

def effect (s : DmaSlot) : DmaAction → DmaSlot
  | .slotInitialize beforeC0 _ a => s.slotInitialize beforeC0 a
  | .sendCommand c a => s.sendCommand c a
  | .slotCleanup => s.slotCleanup

end DmaSlot

/-- Commands, one after the other. -/
def dmaMachine : Machine DmaSlot DmaAction :=
  Machine.guarded (· = DmaSlot.start) DmaSlot.enabled DmaSlot.effect

/-! ## The property and the condition -/

/-- The bus address of a byte of the bounce buffer. -/
def byteAddress (dmaTranslation : Nat) (dataPfns : List Nat) (n : Nat) : Nat :=
  dataPfns.getD (n / pageSize) 0 * pageSize + dmaTranslation + n % pageSize

/-- The table describes the transfer. -/
structure DmaStart.Correct (t : DmaStart) : Prop where
  read : admaRead t.descriptors =
    some ((List.range t.length).map (byteAddress t.dmaTranslation t.dataPfns))
  fits : t.length ≤ t.dataPfns.length * pageSize
  recorded : t.iDmaEndDescriptor < t.descriptors.length
  transfers : ∀ d ∈ t.descriptors, d.valid = true ∧ d.action = .adma2Tran
  end_iff : ∀ i d, t.descriptors[i]? = some d → (d.isEnd = true ↔ i = t.iDmaEndDescriptor)
  fullPage : ∀ i d, t.descriptors[i]? = some d → i ≠ t.iDmaEndDescriptor → d.length = pageSize

structure DmaSound (s : DmaSlot) : Prop where
  correct : ∀ t ∈ s.started, t.Correct
  asserted : s.assertFailed = false

/-- The last page of the low 1 GB. -/
def lastPage : Nat := 0x3FFFF

/-- Both buffers are allocated and mapped. -/
def Allocation.Succeeds (a : Allocation) : Prop :=
  a.data.isSome = true ∧ a.dataMapped = true ∧ a.descriptor.isSome = true ∧ a.descriptorMapped = true

instance (a : Allocation) : Decidable a.Succeeds := inferInstanceAs (Decidable (_ ∧ _ ∧ _ ∧ _))

/-- The bounce buffer that is allocated does not have the last page. -/
def Allocation.DataBelow (a : Allocation) : Prop := a.Succeeds → lastPage ∉ a.data.getD []

instance (a : Allocation) : Decidable a.DataBelow := inferInstanceAs (Decidable (_ → _))

namespace DmaSlot

/-- The command needs a larger bounce buffer. -/
def Reallocates (s : DmaSlot) (c : Command) : Prop :=
  c.Transfers ∧ pioTransferMaxThreshold < c.length ∧ s.dataPfns.length * pageSize < c.length

instance (s : DmaSlot) (c : Command) : Decidable (s.Reallocates c) :=
  inferInstanceAs (Decidable (_ ∧ _ ∧ _))

/-- The command starts a transfer by DMA. -/
def StartsDma (s : DmaSlot) (c : Command) (a : Allocation) : Prop :=
  c.Transfers ∧ pioTransferMaxThreshold < c.length ∧ c.transferDirection ≠ .undefined ∧
    (s.Reallocates c → a.Succeeds)

instance (s : DmaSlot) (c : Command) (a : Allocation) : Decidable (s.StartsDma c a) :=
  inferInstanceAs (Decidable (_ ∧ _ ∧ _ ∧ (_ → _)))

/-- The pages of the table that it is started with. -/
def tablePfns (s : DmaSlot) (c : Command) (a : Allocation) : List Nat :=
  if s.Reallocates c then a.descriptor.getD [] else s.descriptorPfns

end DmaSlot

/-- Neither a new bounce buffer nor the start of the table of a transfer is at the last page. -/
def NoLastPage (s : DmaSlot) : DmaAction → Prop
  | .slotInitialize _ _ a => a.DataBelow
  | .sendCommand c a =>
    (s.Reallocates c → a.DataBelow) ∧ (s.StartsDma c a → (s.tablePfns c a).headD 0 ≠ lastPage)
  | .slotCleanup => True

instance : ∀ (s : DmaSlot) (a : DmaAction), Decidable (NoLastPage s a)
  | _, .slotInitialize _ _ a => inferInstanceAs (Decidable a.DataBelow)
  | _, .sendCommand .. => inferInstanceAs (Decidable ((_ → _) ∧ (_ → _)))
  | _, .slotCleanup => inferInstanceAs (Decidable True)

/-! ## The table -/

/-- The table with the end mark at one place and its length there, full pages elsewhere. -/
def describe (dmaTranslation : Nat) : List Nat → Nat → Nat → List SdRegDma32
  | [], _, _ => []
  | pfn :: pfns, 0, length =>
    { pageDescriptor dmaTranslation pfn with
      isEnd := true
      length := length } :: pfns.map (pageDescriptor dmaTranslation)
  | pfn :: pfns, i + 1, length =>
    pageDescriptor dmaTranslation pfn :: describe dmaTranslation pfns i length

theorem length_describe (dmaTranslation : Nat) :
    ∀ (pfns : List Nat) (i length : Nat), (describe dmaTranslation pfns i length).length = pfns.length
  | [], _, _ => rfl
  | _ :: pfns, 0, _ => by simp [describe]
  | _ :: pfns, i + 1, length => by simp [describe, length_describe dmaTranslation pfns i length]

/-- The end mark is taken off. -/
theorem modify_describe (dmaTranslation : Nat) :
    ∀ (pfns : List Nat) (i length : Nat),
      (describe dmaTranslation pfns i length).modify i (fun d =>
        { d with
          isEnd := false
          length := pageSize % 2 ^ 16 }) = pfns.map (pageDescriptor dmaTranslation)
  | [], i, _ => by cases i <;> rfl
  | pfn :: pfns, 0, _ => rfl
  | pfn :: pfns, i + 1, length => by
    rw [describe, List.modify_succ_cons, modify_describe dmaTranslation pfns i length, List.map_cons]

/-- The end mark is put on. -/
theorem modify_map_pageDescriptor (dmaTranslation : Nat) (length : Nat) :
    ∀ (pfns : List Nat) (i : Nat),
      (pfns.map (pageDescriptor dmaTranslation)).modify i (fun d =>
        { d with
          isEnd := true
          length := length }) = describe dmaTranslation pfns i length
  | [], i => by cases i <;> rfl
  | pfn :: pfns, 0 => rfl
  | pfn :: pfns, i + 1 => by
    rw [List.map_cons, List.modify_succ_cons, modify_map_pageDescriptor dmaTranslation length pfns i,
      describe]

/-- Only the descriptor recorded is marked, and the others are full pages. -/
theorem getElem?_describe {dmaTranslation : Nat} :
    ∀ {pfns : List Nat} {i length k : Nat} {d : SdRegDma32},
      (describe dmaTranslation pfns i length)[k]? = some d →
        (d.isEnd = true ↔ k = i) ∧ (k ≠ i → d.length = pageSize)
  | [], _, _, _, _, h => by simp [describe] at h
  | pfn :: pfns, 0, length, 0, d, h => by
    obtain rfl := Option.some.inj h
    simp
  | pfn :: pfns, 0, length, k + 1, d, h => by
    have hd : (pfns.map (pageDescriptor dmaTranslation))[k]? = some d := h
    rw [List.getElem?_map, Option.map_eq_some_iff] at hd
    obtain ⟨p, -, rfl⟩ := hd
    simp [pageDescriptor]
  | pfn :: pfns, i + 1, length, 0, d, h => by
    obtain rfl := Option.some.inj h
    simp [pageDescriptor]
  | pfn :: pfns, i + 1, length, k + 1, d, h => by
    have hd : (describe dmaTranslation pfns i length)[k]? = some d := h
    simpa using getElem?_describe hd

/-- Every descriptor transfers. -/
theorem mem_describe {dmaTranslation : Nat} {d : SdRegDma32} :
    ∀ {pfns : List Nat} {i length : Nat}, d ∈ describe dmaTranslation pfns i length →
      d.valid = true ∧ d.action = .adma2Tran
  | [], _, _, h => by simp [describe] at h
  | pfn :: pfns, 0, length, h => by
    rcases List.mem_cons.1 h with rfl | h
    · exact ⟨rfl, rfl⟩
    · obtain ⟨p, -, rfl⟩ := List.mem_map.1 h
      exact ⟨rfl, rfl⟩
  | pfn :: pfns, i + 1, length, h => by
    rcases List.mem_cons.1 h with rfl | h
    · exact ⟨rfl, rfl⟩
    · exact mem_describe h

/-- Bytes of the first page, and of those after it. -/
theorem byteAddress_cons_lt (dmaTranslation pfn : Nat) (pfns : List Nat) {n : Nat} (hn : n < pageSize) :
    byteAddress dmaTranslation (pfn :: pfns) n = pfn * pageSize + dmaTranslation + n := by
  rw [byteAddress, Nat.div_eq_of_lt hn, Nat.mod_eq_of_lt hn, List.getD_cons_zero]

theorem byteAddress_cons_add (dmaTranslation pfn : Nat) (pfns : List Nat) (n : Nat) :
    byteAddress dmaTranslation (pfn :: pfns) (pageSize + n) = byteAddress dmaTranslation pfns n := by
  have hpos : 0 < pageSize := by decide
  rw [byteAddress, byteAddress, Nat.add_div_left n hpos, Nat.add_mod_left, List.getD_cons_succ]

/-- The bytes of a descriptor. -/
theorem range'_page (dmaTranslation pfn : Nat) (pfns : List Nat) {length : Nat}
    (hlength : length ≤ pageSize) :
    List.range' (pfn * pageSize + dmaTranslation) length =
      (List.range length).map (byteAddress dmaTranslation (pfn :: pfns)) := by
  rw [List.range'_eq_map_range]
  refine List.map_congr_left fun n hn => ?_
  exact (byteAddress_cons_lt dmaTranslation pfn pfns ((List.mem_range.1 hn).trans_le hlength)).symm

/-- **The engine reads the transfer off the table.** -/
theorem admaRead_describe {dmaTranslation : Nat} (ht : dmaTranslation ≤ 0xC0000000) :
    ∀ {pfns : List Nat} {i length : Nat}, (∀ pfn ∈ pfns, pfn < 0x40000) → i < pfns.length →
      0 < length → length ≤ pageSize →
      admaRead (describe dmaTranslation pfns i length) =
        some ((List.range (i * pageSize + length)).map (byteAddress dmaTranslation pfns))
  | [], _, _, _, hi, _, _ => absurd hi (Nat.not_lt_zero _)
  | pfn :: pfns, i, length, hlow, hi, hpos, hle => by
    have haddress : pfnToLegacyMasterAddress pfn dmaTranslation = pfn * pageSize + dmaTranslation := by
      have hpfn := hlow pfn List.mem_cons_self
      rw [pfnToLegacyMasterAddress]
      refine Nat.mod_eq_of_lt ?_
      rw [pageSize]
      omega
    cases i with
    | zero =>
      simp only [describe, admaRead, pageDescriptor, and_self, if_true, if_neg hpos.ne', haddress,
        Nat.zero_mul, Nat.zero_add]
      rw [range'_page dmaTranslation pfn pfns hle]
    | succ i =>
      have hlow' : ∀ p ∈ pfns, p < 0x40000 := fun p hp => hlow p (List.mem_cons_of_mem _ hp)
      have ih := admaRead_describe ht hlow' (Nat.lt_of_succ_lt_succ hi) hpos hle
      have hpage : pageSize ≠ 0 := by decide
      simp only [describe, admaRead, pageDescriptor, and_self, if_true, if_neg hpage, haddress, ih,
        Bool.false_eq_true, if_false, Option.map_some]
      have hlength : (i + 1) * pageSize + length = pageSize + (i * pageSize + length) := by
        rw [Nat.succ_mul]
        omega
      have htail : (List.range (i * pageSize + length)).map (byteAddress dmaTranslation pfns) =
          (List.range (i * pageSize + length)).map
            (byteAddress dmaTranslation (pfn :: pfns) ∘ (pageSize + ·)) :=
        List.map_congr_left fun n _ => (byteAddress_cons_add dmaTranslation pfn pfns n).symm
      rw [range'_page dmaTranslation pfn pfns (le_refl _), hlength, htail]
      generalize i * pageSize + length = rest
      rw [List.range_add, List.map_append, List.map_map]

/-! ## What the steps keep -/

/-- The end mark is at the descriptor recorded, and only there. -/
def DmaSlot.Marked (s : DmaSlot) : Prop :=
  s.iDmaEndDescriptor < s.dataPfns.length ∧
    ∃ length, s.descriptors = describe s.dmaTranslation s.dataPfns s.iDmaEndDescriptor length

/-- The table is as a transfer, or the allocation, has left it. -/
structure TableInv (s : DmaSlot) : Prop where
  translation : s.dmaTranslation ≤ 0xC0000000
  low : ∀ pfn ∈ s.dataPfns, pfn < 0x40000
  table : s.initialized = true → s.Marked
  tableLow : ∀ pfn ∈ s.descriptorPfns, pfn < 0x40000
  correct : ∀ t ∈ s.started, t.Correct

namespace DmaSlot

variable {s : DmaSlot}

/-- The end mark is where the transfer of that length ends. -/
theorem moveEnd_describe (length : Nat) (h : s.Marked) :
    s.moveEnd length =
      { s with
        iDmaEndDescriptor := (length - 1) / pageSize
        descriptors := describe s.dmaTranslation s.dataPfns ((length - 1) / pageSize)
          ((length - (length - 1) / pageSize * pageSize) % 2 ^ 16) } := by
  obtain ⟨-, old, hold⟩ := h
  rw [moveEnd, hold, modify_describe, modify_map_pageDescriptor]

/-- What is left for the last page. -/
theorem endLength {length : Nat} (hpos : 0 < length) :
    0 < length - (length - 1) / pageSize * pageSize ∧
      length - (length - 1) / pageSize * pageSize ≤ pageSize ∧
      (length - 1) / pageSize * pageSize + (length - (length - 1) / pageSize * pageSize) = length := by
  rw [pageSize]
  omega

/-- A buffer that is large enough has a page for the end. -/
theorem end_lt {length pages : Nat} (hpos : 0 < length) (hle : length ≤ pages * pageSize) :
    (length - 1) / pageSize < pages := by
  rw [pageSize] at *
  omega

/-- A new buffer is large enough. -/
theorem le_dataPages {length : Nat} (hlength : length < 2 ^ 32) (hpages : dataPages length ≠ 0) :
    length ≤ dataPages length * pageSize := by
  rw [dataPages, pageSize] at *
  omega

/-! ### Allocation -/

theorem allocateDmaBuffers_eq (s : DmaSlot) (a : Allocation) :
    s.allocateDmaBuffers a =
      if a.Succeeds then (s.useBuffers (a.data.getD []) (a.descriptor.getD []), true)
      else (s, false) := by
  obtain ⟨data, dataMapped, descriptor, descriptorMapped⟩ := a
  cases data <;> cases dataMapped <;> cases descriptor <;> cases descriptorMapped <;>
    simp [allocateDmaBuffers, Allocation.Succeeds]

/-- The new buffers, when the allocation succeeds. -/
theorem mdl_of_succeeds {a : Allocation} {cb : Nat} (ha : a.For cb) (hs : a.Succeeds) :
    MdlOf (dataPages cb) (a.data.getD []) ∧ ∀ pfn ∈ a.descriptor.getD [], pfn < 0x40000 := by
  obtain ⟨hdata, -, hdescriptor, -⟩ := hs
  obtain ⟨data, hd⟩ := Option.isSome_iff_exists.1 hdata
  obtain ⟨descriptor, ht⟩ := Option.isSome_iff_exists.1 hdescriptor
  rw [hd, ht]
  exact ⟨ha.1 data hd, (ha.2 descriptor ht).2.2⟩

/-- `PfnToLegacyMasterAddress` does not take the last page. -/
theorem pfnAsserted_iff {pfn : Nat} (hlow : pfn < 0x40000) : PfnAsserted pfn ↔ pfn ≠ lastPage := by
  rw [PfnAsserted, pageSize, lastPage]
  omega

/-- The assertions on the pages of a new bounce buffer fail for the last page only. -/
theorem any_not_asserted {pfns : List Nat} (hlow : ∀ pfn ∈ pfns, pfn < 0x40000) :
    (pfns.any fun pfn => !(PageAsserted pfn ∧ PfnAsserted pfn : Bool)) = false ↔ lastPage ∉ pfns := by
  rw [List.any_eq_false]
  constructor
  · intro h hlast
    exact absurd (h lastPage hlast) (by decide)
  · intro h pfn hpfn
    have hpage : PageAsserted pfn := hlow pfn hpfn
    have hasserted := (pfnAsserted_iff (hlow pfn hpfn)).2 fun heq => h (heq ▸ hpfn)
    simp [hpage, hasserted]

end DmaSlot

theorem DmaSlot.marked_useBuffers {s : DmaSlot} {n : Nat} {data : List Nat} (hdata : MdlOf n data)
    (descriptor : List Nat) : (s.useBuffers data descriptor).Marked := by
  obtain ⟨pfn, pfns, rfl⟩ := List.exists_cons_of_ne_nil hdata.2.1
  exact ⟨Nat.succ_pos _, pageSize, rfl⟩

/-- `AllocateDmaBuffers` -/
theorem TableInv.allocateDmaBuffers {s : DmaSlot} (h : TableInv s) {a : Allocation} {cb : Nat}
    (ha : a.For cb) : TableInv (s.allocateDmaBuffers a).1 ∧
      ((s.allocateDmaBuffers a).2 = true → (s.allocateDmaBuffers a).1.Marked) ∧
      ((s.allocateDmaBuffers a).1.assertFailed = false ↔ s.assertFailed = false ∧ a.DataBelow) := by
  rw [DmaSlot.allocateDmaBuffers_eq]
  by_cases hs : a.Succeeds
  · obtain ⟨hdata, hdescriptor⟩ := DmaSlot.mdl_of_succeeds ha hs
    have hmarked := DmaSlot.marked_useBuffers (s := s) hdata (a.descriptor.getD [])
    rw [if_pos hs]
    refine ⟨⟨h.translation, hdata.2.2, fun _ => hmarked, hdescriptor, h.correct⟩, fun _ => hmarked, ?_⟩
    rw [DmaSlot.useBuffers, Bool.or_eq_false_iff, DmaSlot.any_not_asserted hdata.2.2]
    exact and_congr_right fun _ => ⟨fun hlast _ => hlast, fun hbelow => hbelow hs⟩
  · rw [if_neg hs]
    exact ⟨h, fun h0 => (nomatch h0), (and_iff_left fun h0 => absurd h0 hs).symm⟩

/-- The table of a transfer, when the bounce buffer is large enough. -/
theorem correct_of_describe {t : DmaStart} (htranslation : t.dmaTranslation ≤ 0xC0000000)
    (hlow : ∀ pfn ∈ t.dataPfns, pfn < 0x40000) (hpos : 0 < t.length)
    (hfits : t.length ≤ t.dataPfns.length * pageSize)
    (hend : t.iDmaEndDescriptor = (t.length - 1) / pageSize)
    (htable : t.descriptors = describe t.dmaTranslation t.dataPfns t.iDmaEndDescriptor
      (t.length - t.iDmaEndDescriptor * pageSize)) : t.Correct := by
  obtain ⟨hrest, hle, hsum⟩ := DmaSlot.endLength hpos
  have hlt := DmaSlot.end_lt hpos hfits
  rw [← hend] at hrest hle hsum hlt
  refine ⟨?_, hfits, ?_, fun d hd => ?_, fun i d hd => ?_, fun i d hd hi => ?_⟩
  · rw [htable, admaRead_describe htranslation hlow hlt hrest hle, hsum]
  · rw [htable, length_describe]
    exact hlt
  · rw [htable] at hd
    exact mem_describe hd
  · rw [htable] at hd
    exact (getElem?_describe hd).1
  · rw [htable] at hd
    exact (getElem?_describe hd).2 hi

/-- **A transfer is set up**: the end mark is moved, and the table describes the transfer that is
started with it. -/
theorem TableInv.setUp {s : DmaSlot} (h : TableInv s) (hinit : s.initialized = true) {length : Nat}
    (hpos : 0 < length) (hfits : length ≤ s.dataPfns.length * pageSize) :
    TableInv (s.moveEnd length) ∧ TableInv ((s.moveEnd length).startDma length) := by
  have htable := h.table hinit
  obtain ⟨hrest, hle, hsum⟩ := DmaSlot.endLength hpos
  have hlt := DmaSlot.end_lt hpos hfits
  have hmod : (length - (length - 1) / pageSize * pageSize) % 2 ^ 16 =
      length - (length - 1) / pageSize * pageSize :=
    Nat.mod_eq_of_lt (hle.trans_lt (by decide))
  rw [DmaSlot.moveEnd_describe length htable, hmod]
  refine ⟨⟨h.translation, h.low, fun _ => ⟨hlt, _, rfl⟩, h.tableLow, h.correct⟩,
    ⟨h.translation, h.low, fun _ => ⟨hlt, _, rfl⟩, h.tableLow, fun t ht => ?_⟩⟩
  rcases List.mem_append.1 ht with ht | ht
  · exact h.correct t ht
  · obtain rfl := List.mem_singleton.1 ht
    exact correct_of_describe h.translation h.low hpos hfits rfl rfl

/-- The assertion at the start of a transfer. -/
theorem assertFailed_startDma {s : DmaSlot} (h : TableInv s) (length : Nat) :
    (s.startDma length).assertFailed = false ↔
      s.assertFailed = false ∧ s.descriptorPfns.headD 0 ≠ lastPage := by
  have hhead : s.descriptorPfns.headD 0 < 0x40000 := by
    cases hpfns : s.descriptorPfns with
    | nil => decide
    | cons pfn pfns => exact h.tableLow pfn (hpfns ▸ List.mem_cons_self)
  rw [DmaSlot.startDma, Bool.or_eq_false_iff, Bool.not_eq_false', decide_eq_true_iff,
    DmaSlot.pfnAsserted_iff hhead]

/-- `CommandShouldUseDma` keeps the invariant, and what it takes to say yes. -/
theorem TableInv.commandShouldUseDma {s : DmaSlot} (h : TableInv s) {c : Command} {a : Allocation}
    (hc : c.Transfers) (hlength : c.length < 2 ^ 32) (ha : a.For c.length) :
    TableInv (s.commandShouldUseDma c.length a).1 ∧
      ((s.commandShouldUseDma c.length a).1.assertFailed = false ↔
        s.assertFailed = false ∧ (s.Reallocates c → a.DataBelow)) ∧
      ((s.commandShouldUseDma c.length a).2 = true ↔
        DmaSlot.pioTransferMaxThreshold < c.length ∧ (s.Reallocates c → a.Succeeds)) ∧
      ((s.commandShouldUseDma c.length a).2 = true →
        c.length ≤ (s.commandShouldUseDma c.length a).1.dataPfns.length * pageSize ∧
        (s.commandShouldUseDma c.length a).1.descriptorPfns = s.tablePfns c a) ∧
      (s.commandShouldUseDma c.length a).1.initialized = s.initialized := by
  rw [DmaSlot.commandShouldUseDma]
  split_ifs with hpio hfits
  · have hre : ¬ s.Reallocates c := fun hre => absurd hre.2.1 (not_lt.2 hpio)
    exact ⟨h, (and_iff_left fun h0 => absurd h0 hre).symm,
      ⟨fun h0 => (nomatch h0), fun h0 => absurd h0.1 (not_lt.2 hpio)⟩, fun h0 => (nomatch h0), rfl⟩
  · have hre : ¬ s.Reallocates c := fun hre => absurd hre.2.2 (not_lt.2 hfits)
    refine ⟨h, (and_iff_left fun h0 => absurd h0 hre).symm,
      ⟨fun _ => ⟨not_le.1 hpio, fun h0 => absurd h0 hre⟩, fun _ => rfl⟩, fun _ => ⟨hfits, ?_⟩, rfl⟩
    rw [DmaSlot.tablePfns, if_neg hre]
  · have hre : s.Reallocates c := ⟨hc, not_le.1 hpio, not_le.1 hfits⟩
    obtain ⟨hinv, -, hassert⟩ := h.allocateDmaBuffers ha
    refine ⟨hinv, hassert.trans (and_congr_right fun _ => ⟨fun hb _ => hb, fun hb => hb hre⟩), ?_⟩
    rw [DmaSlot.allocateDmaBuffers_eq]
    by_cases hs : a.Succeeds
    · rw [if_pos hs]
      refine ⟨⟨fun _ => ⟨hre.2.1, fun _ => hs⟩, fun _ => rfl⟩, fun _ => ⟨?_, ?_⟩, rfl⟩
      · have hdata := (DmaSlot.mdl_of_succeeds ha hs).1
        have hpages : dataPages c.length ≠ 0 := by
          rw [← hdata.1]
          exact (List.length_pos_iff.2 hdata.2.1).ne'
        show c.length ≤ (a.data.getD []).length * pageSize
        rw [hdata.1]
        exact DmaSlot.le_dataPages hlength hpages
      · rw [DmaSlot.tablePfns, if_pos hre]
        rfl
    · rw [if_neg hs]
      exact ⟨⟨fun h0 => (nomatch h0), fun h0 => absurd (h0.2 hre) hs⟩, fun h0 => (nomatch h0), rfl⟩

/-- `SendCommand` -/
theorem TableInv.sendCommand {s : DmaSlot} (h : TableInv s) (hinit : s.initialized = true)
    {c : Command} {a : Allocation} (hlength : c.length < 2 ^ 32) (ha : a.For c.length) :
    TableInv (s.sendCommand c a) ∧ ((s.sendCommand c a).assertFailed = false ↔
      s.assertFailed = false ∧ NoLastPage s (.sendCommand c a)) := by
  rw [DmaSlot.sendCommand]
  by_cases hc : c.Transfers
  · obtain ⟨hinv, hassert, hyes, hready, hinit'⟩ := h.commandShouldUseDma hc hlength ha
    rw [if_pos hc]
    generalize s.commandShouldUseDma c.length a = r at *
    obtain ⟨s', useDma⟩ := r
    cases useDma with
    | false =>
      have hno : ¬ s.StartsDma c a := fun h0 =>
        absurd (hyes.2 ⟨h0.2.1, h0.2.2.2⟩) Bool.false_ne_true
      refine ⟨hinv, hassert.trans (and_congr_right fun _ => ?_)⟩
      exact ⟨fun hb => ⟨hb, fun h0 => absurd h0 hno⟩, fun hb => hb.1⟩
    | true =>
      obtain ⟨hthreshold, hsucceeds⟩ := hyes.1 rfl
      obtain ⟨hfits, hpfns⟩ := hready rfl
      have hpos : 0 < c.length := Nat.zero_lt_of_lt hthreshold
      obtain ⟨hmoved, hstarted⟩ := hinv.setUp (hinit'.trans hinit) hpos hfits
      by_cases hdir : c.transferDirection = .undefined
      · have hno : ¬ s.StartsDma c a := fun h0 => h0.2.2.1 hdir
        simp only [if_pos hdir]
        refine ⟨hmoved, hassert.trans (and_congr_right fun _ => ?_)⟩
        exact ⟨fun hb => ⟨hb, fun h0 => absurd h0 hno⟩, fun hb => hb.1⟩
      · have hyes : s.StartsDma c a := ⟨hc, hthreshold, hdir, hsucceeds⟩
        simp only [if_neg hdir]
        refine ⟨hstarted, (assertFailed_startDma hmoved c.length).trans ?_⟩
        have hmovedAssert : (s'.moveEnd c.length).assertFailed = s'.assertFailed := rfl
        have hmovedPfns : (s'.moveEnd c.length).descriptorPfns = s'.descriptorPfns := rfl
        rw [hmovedAssert, hmovedPfns, hassert, hpfns, and_assoc]
        refine and_congr_right fun _ => and_congr_right fun _ => ?_
        exact ⟨fun hlast _ => hlast, fun hlast => hlast hyes⟩
  · rw [if_neg hc]
    refine ⟨h, (and_iff_left ⟨fun h0 => absurd h0.1 hc, fun h0 => absurd h0.1 hc⟩).symm⟩

/-- `SlotInitialize` -/
theorem TableInv.slotInitialize {s : DmaSlot} (h : TableInv s) (beforeC0 : Bool) {a : Allocation}
    {cb : Nat} (ha : a.For cb) : TableInv (s.slotInitialize beforeC0 a) ∧
      ((s.slotInitialize beforeC0 a).assertFailed = false ↔ s.assertFailed = false ∧ a.DataBelow) := by
  have hzeroed : TableInv { s with
      initialized := false
      dataPfns := []
      descriptorPfns := []
      descriptors := []
      iDmaEndDescriptor := 0
      dmaTranslation := if beforeC0 then 0xC0000000 else 0 } := by
    refine ⟨?_, fun _ h0 => (nomatch h0), fun h0 => (nomatch h0), fun _ h0 => (nomatch h0), h.correct⟩
    show (if beforeC0 then 0xC0000000 else 0) ≤ 0xC0000000
    split <;> omega
  obtain ⟨hinv, hmarked, hassert⟩ := hzeroed.allocateDmaBuffers ha
  exact ⟨⟨hinv.translation, hinv.low, hmarked, hinv.tableLow, hinv.correct⟩, hassert⟩

theorem TableInv.effect {s : DmaSlot} (h : TableInv s) {a : DmaAction} (hen : s.enabled a) :
    TableInv (s.effect a) ∧
      ((s.effect a).assertFailed = false ↔ s.assertFailed = false ∧ NoLastPage s a) := by
  cases a with
  | slotInitialize beforeC0 crashdumpMode a => exact h.slotInitialize beforeC0 hen.2
  | sendCommand c a => exact h.sendCommand hen.1 hen.2.1 hen.2.2
  | slotCleanup =>
    exact ⟨⟨h.translation, fun _ h0 => (nomatch h0), fun h0 => (nomatch h0), fun _ h0 => (nomatch h0),
      h.correct⟩, (and_iff_left trivial).symm⟩

theorem tableInv_start : TableInv DmaSlot.start :=
  ⟨by decide, fun _ h0 => (nomatch h0), fun h0 => (nomatch h0), fun _ h0 => (nomatch h0),
    fun _ h0 => (nomatch h0)⟩

/-! ## Runs -/

/-- **All transfers of all runs are described by their tables**, whatever is asserted. -/
theorem correct_of_reachable {s : DmaSlot} (h : dmaMachine.Reachable s) :
    ∀ t ∈ s.started, t.Correct := by
  have hinv : TableInv s := by
    refine Machine.Reach.inv_guarded (fun s hs => ?_) (fun s a hinv _ hen => (hinv.effect hen).1) h
    rw [hs]
    exact tableInv_start
  exact hinv.correct

/-- **A run is sound if and only if its steps do not translate the last page.** -/
theorem dmaSound_iff_noLastPage {as : List DmaAction} {s : DmaSlot}
    (h : dmaMachine.exec DmaSlot.start as = some s) :
    DmaSound s ↔ dmaMachine.AllOk NoLastPage DmaSlot.start as := by
  have hstep : ∀ s a s', TableInv s → dmaMachine.step s a = some s' →
      TableInv s' ∧ (s'.assertFailed = false ↔ s.assertFailed = false ∧ NoLastPage s a) := by
    intro s a s' hinv hs
    obtain ⟨hen, rfl⟩ := Machine.guarded_step.1 hs
    exact hinv.effect hen
  obtain ⟨hinv, hiff⟩ := Machine.exec_iff (f := (·.assertFailed = false))
    (fun s a s' hinv hs => (hstep s a s' hinv hs).1)
    (fun s a s' hinv hs => (hstep s a s' hinv hs).2) tableInv_start h
  constructor
  · intro hsound
    exact (hiff.1 hsound.asserted).2
  · intro hall
    exact ⟨hinv.correct, hiff.2 ⟨rfl, hall⟩⟩

/-- Sixteen pages and a table. -/
def sixteenPages (first : Nat) : Allocation where
  data := some (List.range' first 16)
  dataMapped := true
  descriptor := some [0x100]
  descriptorMapped := true

/-- A read or write by DMA. -/
def dmaCommand (transferDirection : TransferDirection) (length : Nat) : Command where
  responseType := .r1
  commandType := .undefined
  transferType := .multiBlock
  transferDirection := transferDirection
  transferMethod := .pio
  length := length

def noPages : Allocation := ⟨none, false, none, false⟩

/-- Seventeen pages, with or without a table. -/
def seventeenPages (descriptor : Option (List Nat)) : Allocation where
  data := some (List.range' 0x300 17)
  dataMapped := true
  descriptor := descriptor
  descriptorMapped := true

/-- A transfer, one that is rejected half-way, a short one, and one that needs a larger buffer,
which is there at the second attempt. -/
def transfers : List DmaAction :=
  [.slotInitialize true true (sixteenPages 0x200), .sendCommand (dmaCommand .write 0x2200) noPages,
    .sendCommand (dmaCommand .undefined 0x5000) noPages,
    .sendCommand (dmaCommand .read 0x200) noPages,
    .sendCommand (dmaCommand .read 0x10200) (seventeenPages none),
    .sendCommand (dmaCommand .read 0x10200) (seventeenPages (some [0x101]))]

theorem dmaSound_iff_noLastPage_transfers :
    ∃ s, dmaMachine.exec DmaSlot.start transfers = some s ∧
      s.started.map DmaStart.length = [0x2200, 0x200, 0x10200] ∧ DmaSound s := by
  have hsome : (dmaMachine.execOk NoLastPage DmaSlot.start transfers).isSome = true := by decide
  obtain ⟨s, hs⟩ := Option.isSome_iff_exists.1 hsome
  obtain ⟨hexec, hall⟩ := Machine.allOk_of_execOk hs
  refine ⟨s, hexec, ?_, (dmaSound_iff_noLastPage hexec).2 hall⟩
  have hstarted : (dmaMachine.execOk NoLastPage DmaSlot.start transfers).map
      (fun s => s.started.map DmaStart.length) = some [0x2200, 0x200, 0x10200] := rfl
  rw [hs] at hstarted
  exact Option.some.inj hstarted

/-- **The allocator may return the last page of the low 1 GB**, and the assertion fails. -/
theorem last_page_asserted : ¬ ∀ s, dmaMachine.Reachable s → DmaSound s := by
  intro h
  have hrun := dmaMachine.reach_exec_get [.slotInitialize true true (sixteenPages 0x3FFF0)]
    (s := DmaSlot.start) rfl (by rfl)
  exact absurd (h _ hrun).asserted (by decide)

end RpiDrivers.Brcme88c
