import Mathlib.Data.List.Range
import Mathlib.Tactic.IntervalCases
import RpiDrivers.Lib.Segments
import RpiDrivers.Lib.ShiftRegister

/-!
# The FIFO of the AUX SPI (`bcmauxspi.cpp`, `bcmauxspi.h`, `bcmauxspi-hw.h`)

Bytes go to the transmit FIFO in entries of up to four. In the variable modes an entry says itself
how many of its bits are shifted out, in the fixed modes a register says it for all of them. For
data modes 1 and 3 the controller starts to shift one bit too early, and the bytes are placed one
bit further down. What comes in is found at the low end of the entries of the receive FIFO.

- `writeFifo`, `extractFifoBuffer`: the two encodings, each in its four modes.
- `Cntl0.shiftOut`: what an entry puts on the wire; `shiftOut_writeFifo`: the bytes that were
  written, in order.
- `bitsOf_extractFifoBuffer`: what is extracted are the bits at the low ends of the entries.
- `fifoCodec`: **a buffer or a chain of MDLs, written in chunks, goes over the wire in order, and
  comes back from it exactly**.
-/

namespace RpiDrivers.AuxSpi

open RpiDrivers.Lib

/-- `BYTE` -/
abbrev Byte := BitVec 8

/-- `ULONG` -/
abbrev Ulong := BitVec 32

/-- `BCM_AUXSPI_FIFO_DEPTH` -/
def fifoDepth : Nat := 4

/-- `_FIFO_MODE` -/
inductive FifoMode
  | fixed4
  | variable3
  | fixed3Shifted
  | variable2Shifted
  deriving DecidableEq

/-- `_SPI_DATA_MODE` -/
inductive SpiDataMode
  | mode0
  | mode1
  | mode2
  | mode3
  deriving DecidableEq

/-- `selectFifoMode` -/
def selectFifoMode (spiDataMode : SpiDataMode) (length : Nat) : FifoMode :=
  match spiDataMode with
  | .mode0 | .mode2 => if length % 4 = 0 then .fixed4 else .variable3
  | .mode1 | .mode3 => if length % 3 = 0 then .fixed3Shifted else .variable2Shifted

/-- `getFifoCapacity` -/
def getFifoCapacity : FifoMode → Nat
  | .fixed4 => fifoDepth * 4
  | .variable3 => fifoDepth * 3
  | .fixed3Shifted => fifoDepth * 3
  | .variable2Shifted => fifoDepth * 2

/-! ## Writing -/

/-- A byte of a buffer, as it is promoted in an expression. -/
def byteOf (buffer : List Byte) (i : Nat) : Ulong := (buffer.getD i 0).setWidth 32

/-- `BCM_AUXSPI_IO_REG`, with its fields `Width` (5 bits) and `Data` (24 bits). -/
def ioReg (width : Nat) (data : Ulong) : Ulong :=
  (data &&& 0x00FFFFFF#32) ||| (BitVec.ofNat 32 (width % 32) <<< 24)

/-- `RtlUlongByteSwap` -/
def rtlUlongByteSwap (e : Ulong) : Ulong :=
  e <<< 24 ||| (e &&& 0xFF00#32) <<< 8 ||| ((e >>> 8) &&& 0xFF00#32) ||| e >>> 24

/-- The `ULONG` at index `i` of a buffer, in memory order. -/
def ulongOf (buffer : List Byte) (i : Nat) : Ulong :=
  byteOf buffer (4 * i) ||| byteOf buffer (4 * i + 1) <<< 8 |||
    byteOf buffer (4 * i + 2) <<< 16 ||| byteOf buffer (4 * i + 3) <<< 24

/-- `_FIFO_FIXED_4::Write`: the entries written to `TxHoldReg`, and the number of `ULONG`s. -/
def writeFixed4 (writeBuffer : List Byte) (length : Nat) : List Ulong × Nat :=
  let count := min length fifoDepth
  ((List.range count).map fun i => rtlUlongByteSwap (ulongOf writeBuffer i), count)

/-- `_FIFO_VARIABLE_3::Write` -/
def writeVariable3 (writeBuffer : List Byte) (length : Nat) : List Ulong × Nat :=
  let bytesToQueue := min (fifoDepth * 3) length
  let full := (List.range (bytesToQueue / 3)).map fun i =>
    ioReg 24 (byteOf writeBuffer (i * 3) <<< 16 ||| byteOf writeBuffer (i * 3 + 1) <<< 8 |||
      byteOf writeBuffer (i * 3 + 2))
  let last := match bytesToQueue % 3 with
    | 1 => [ioReg 8 (byteOf writeBuffer (bytesToQueue - 1) <<< 16)]
    | 2 => [ioReg 16 (byteOf writeBuffer (bytesToQueue - 1) <<< 8 |||
        byteOf writeBuffer (bytesToQueue - 2) <<< 16)]
    | _ => []
  (full ++ last, bytesToQueue)

/-- `_FIFO_FIXED_3_SHIFTED::Write` -/
def writeFixed3Shifted (writeBuffer : List Byte) (length : Nat) : List Ulong × Nat :=
  let bytesToQueue := min length (fifoDepth * 3)
  ((List.range (bytesToQueue / 3)).map fun i =>
    byteOf writeBuffer (i * 3) <<< 23 ||| byteOf writeBuffer (i * 3 + 1) <<< 15 |||
      byteOf writeBuffer (i * 3 + 2) <<< 7, bytesToQueue)

/-- `_FIFO_VARIABLE_2_SHIFTED::Write` -/
def writeVariable2Shifted (writeBuffer : List Byte) (length : Nat) : List Ulong × Nat :=
  let bytesToQueue := min (fifoDepth * 2) length
  let full := (List.range (bytesToQueue / 2)).map fun i =>
    ioReg 16 (byteOf writeBuffer (i * 2) <<< 15 ||| byteOf writeBuffer (i * 2 + 1) <<< 7)
  let last := if bytesToQueue % 2 ≠ 0 then
      [ioReg 8 (byteOf writeBuffer (bytesToQueue - 1) <<< 15)]
    else []
  (full ++ last, bytesToQueue)

/-- `writeFifo`: the entries, and the number of bytes that they take. -/
def writeFifo (writeBuffer : List Byte) (length : Nat) : FifoMode → List Ulong × Nat
  | .fixed4 =>
    let (entries, count) := writeFixed4 writeBuffer (length / 4)
    (entries, 4 * count)
  | .variable3 => writeVariable3 writeBuffer length
  | .fixed3Shifted => writeFixed3Shifted writeBuffer length
  | .variable2Shifted => writeVariable2Shifted writeBuffer length

/-- `writeFifoZeros` -/
def writeFifoZeros (maxCount : Nat) (fifoMode : FifoMode) : List Ulong × Nat :=
  writeFifo (List.replicate (fifoDepth * 4) 0) maxCount fifoMode

/-- `writeFifoMdl`: the cursor of the chain behind the bytes, the entries, and the number of bytes.
`copyBytesFromMdl` is `Cursor.copyFrom`. -/
def writeFifoMdl (mdl : List (List Byte)) (cursor : Cursor) (fifoMode : FifoMode) :
    Cursor × List Ulong × Nat :=
  let (cursor, fifoBuffer) := cursor.copyFrom mdl (getFifoCapacity fifoMode)
  (cursor, writeFifo fifoBuffer fifoBuffer.length fifoMode)

/-! ## Reading -/

/-- The bytes of a `ULONG`, in memory order. -/
def ulongBytes (e : Ulong) : List Byte := [byteAt e 0, byteAt e 8, byteAt e 16, byteAt e 24]

/-- `_FIFO_FIXED_4::Extract` -/
def extractFixed4 (fifoBuffer : List Ulong) (length : Nat) : List Byte :=
  (List.range length).flatMap fun i => ulongBytes (rtlUlongByteSwap (fifoBuffer.getD i 0))

/-- `_FIFO_VARIABLE_3::Extract` -/
def extractVariable3 (fifoBuffer : List Ulong) (length : Nat) : List Byte :=
  let full := (List.range (length / 3)).flatMap fun i =>
    let data := fifoBuffer.getD i 0
    [byteAt data 16, byteAt data 8, byteAt data 0]
  let data := fifoBuffer.getD ((length - 1) / 3) 0
  let last := match length % 3 with
    | 2 => [byteAt data 8, byteAt data 0]
    | 1 => [byteAt data 0]
    | _ => []
  full ++ last

/-- `_FIFO_FIXED_3_SHIFTED::Extract` -/
def extractFixed3Shifted (fifoBuffer : List Ulong) (length : Nat) : List Byte :=
  (List.range (length / 3)).flatMap fun i =>
    let data := fifoBuffer.getD i 0
    [byteAt data 16, byteAt data 8, byteAt data 0]

/-- `_FIFO_VARIABLE_2_SHIFTED::Extract` -/
def extractVariable2Shifted (fifoBuffer : List Ulong) (length : Nat) : List Byte :=
  let full := (List.range (length / 2)).flatMap fun i =>
    let data := fifoBuffer.getD i 0
    [byteAt data 8, byteAt data 0]
  let last := if length % 2 ≠ 0 then [byteAt (fifoBuffer.getD (length / 2) 0) 0] else []
  full ++ last

/-- `extractFifoBuffer` -/
def extractFifoBuffer (fifoBuffer : List Ulong) (length : Nat) : FifoMode → List Byte
  | .fixed4 => extractFixed4 fifoBuffer (length / 4)
  | .variable3 => extractVariable3 fifoBuffer length
  | .fixed3Shifted => extractFixed3Shifted fifoBuffer length
  | .variable2Shifted => extractVariable2Shifted fifoBuffer length

/-! ## The wire -/

/-- `BCM_AUXSPI_CNTL0_REG`: how entries are shifted out. -/
structure Cntl0 where
  variableWidth : Bool
  shiftLength : Nat

/-- `computeControlRegisters` -/
def computeControlRegisters : FifoMode → Cntl0
  | .fixed4 => ⟨false, 32⟩
  | .variable3 => ⟨true, 0⟩
  | .fixed3Shifted => ⟨false, 24⟩
  | .variable2Shifted => ⟨true, 0⟩

/-- The controller starts shifting out data one bit too early. -/
def SpiDataMode.early : SpiDataMode → Bool
  | .mode0 | .mode2 => false
  | .mode1 | .mode3 => true

/-- The number of bits of an entry that go over the wire. -/
def Cntl0.width (cntl0 : Cntl0) (entry : Ulong) : Nat :=
  if cntl0.variableWidth then ((entry >>> 24) &&& 0x1F#32).toNat else cntl0.shiftLength

/-- The bits of an entry that go over the wire: the most significant ones of its data. The first is
gone before it is looked at when the controller starts too early. -/
def Cntl0.shiftOut (cntl0 : Cntl0) (early : Bool) (entry : Ulong) : List Bool :=
  bitsDown entry ((if cntl0.variableWidth then 23 else 31) - early.toNat) (cntl0.width entry)

/-- An entry of the receive FIFO: the bits that have come in, shifted in one by one. -/
def received (before : Ulong) (bits : List Bool) : Ulong := bits.foldl shiftIn before

/-! ## Bytes of entries -/

theorem getLsbD_dataMask {i : Nat} (hi : i < 24) : (0x00FFFFFF#32).getLsbD i = true :=
  (by decide : ∀ i : Fin 24, (0x00FFFFFF#32).getLsbD i = true) ⟨i, hi⟩

/-- The field `Data` keeps the three lower bytes. -/
theorem byteAt_ioReg (width : Nat) (data : Ulong) {s : Nat} (hs : s + 8 ≤ 24) :
    byteAt (ioReg width data) s = byteAt data s := by
  refine BitVec.eq_of_getLsbD_eq fun i hi => ?_
  rw [getLsbD_byteAt _ _ hi, getLsbD_byteAt _ _ hi, ioReg, BitVec.getLsbD_or, BitVec.getLsbD_and,
    getLsbD_dataMask (by omega), BitVec.getLsbD_shiftLeft]
  simp [show s + i < 24 by omega]

/-- The field `Width`. -/
theorem width_ioReg {width : Nat} (hw : width < 32) (data : Ulong) :
    (⟨true, 0⟩ : Cntl0).width (ioReg width data) = width := by
  have hdata : (data &&& 0x00FFFFFF#32) >>> 24 = 0#32 := by
    have hmask : 0x00FFFFFF#32 >>> 24 = 0#32 := by decide
    rw [BitVec.ushiftRight_and_distrib, hmask, BitVec.and_zero]
  have hwidth : BitVec.ofNat 32 (width % 32) <<< 24 >>> 24 &&& 0x1F#32 = BitVec.ofNat 32 width := by
    rw [Nat.mod_eq_of_lt hw]
    interval_cases width <;> decide
  rw [Cntl0.width, if_pos rfl, ioReg, BitVec.ushiftRight_or_distrib, hdata, BitVec.zero_or, hwidth,
    BitVec.toNat_ofNat]
  omega

/-- The swap turns memory order around. -/
theorem bytes_rtlUlongByteSwap (e : Ulong) :
    bytesDown (rtlUlongByteSwap e) 0 4 = ulongBytes e ∧
      ulongBytes (rtlUlongByteSwap e) = bytesDown e 0 4 := by
  have h0 : byteAt 0xFF00#32 0 = 0 := by decide
  have h8 : byteAt 0xFF00#32 8 = BitVec.allOnes 8 := by decide
  have h16 : byteAt 0xFF00#32 16 = 0 := by decide
  have h24 : byteAt 0xFF00#32 24 = 0 := by decide
  have hall (b : Byte) : b &&& 255#8 = b := BitVec.and_allOnes
  constructor <;>
    simp (disch := decide) [bytesDown, rtlUlongByteSwap, ulongBytes, byteAt_shiftLeft_of_le,
      byteAt_shiftLeft_of_lt, byteAt_of_le, h0, h8, h16, h24, hall]

theorem ulongBytes_ulongOf (buffer : List Byte) (i : Nat) :
    ulongBytes (ulongOf buffer i) = [buffer.getD (4 * i) 0, buffer.getD (4 * i + 1) 0,
      buffer.getD (4 * i + 2) 0, buffer.getD (4 * i + 3) 0] := by
  simp (disch := decide) [ulongBytes, ulongOf, byteOf, byteAt_shiftLeft_of_le,
    byteAt_shiftLeft_of_lt, byteAt_setWidth_zero, byteAt_setWidth_of_le]

/-! ## Entries -/

/-- How many bytes an entry takes. -/
def FifoMode.entryBytes : FifoMode → Nat
  | .fixed4 => 4
  | .variable3 => 3
  | .fixed3Shifted => 3
  | .variable2Shifted => 2

/-- The lengths of the pieces that `n` bytes are cut into. -/
def pieces (k n : Nat) : List Nat :=
  List.replicate (n / k) k ++ if n % k = 0 then [] else [n % k]

/-- The mode is one that the data mode uses. -/
def FifoMode.Of (fifoMode : FifoMode) (spiDataMode : SpiDataMode) : Prop :=
  match fifoMode with
  | .fixed4 | .variable3 => spiDataMode.early = false
  | .fixed3Shifted | .variable2Shifted => spiDataMode.early = true

/-- A length that the mode can take: `NT_ASSERT` in the fixed modes. -/
def FifoMode.Takes (fifoMode : FifoMode) (length : Nat) : Prop :=
  match fifoMode with
  | .fixed4 | .fixed3Shifted => length % fifoMode.entryBytes = 0
  | .variable3 | .variable2Shifted => True

theorem selectFifoMode_of (spiDataMode : SpiDataMode) (length : Nat) :
    (selectFifoMode spiDataMode length).Of spiDataMode := by
  cases spiDataMode <;> rw [selectFifoMode] <;> split <;> rfl

theorem selectFifoMode_takes (spiDataMode : SpiDataMode) (length : Nat) :
    (selectFifoMode spiDataMode length).Takes length := by
  cases spiDataMode <;> rw [selectFifoMode] <;> split
  all_goals first | assumption | trivial

/-! ## What is written -/

/-- The bits of an entry are those of its upper bytes. -/
theorem shiftOut_eq {cntl0 : Cntl0} {early : Bool} {entry : Ulong} {s k : Nat}
    (hwidth : cntl0.width entry = 8 * k)
    (htop : (if cntl0.variableWidth then 23 else 31) - early.toNat = s + 8 * k - 1) :
    cntl0.shiftOut early entry = bitsOf (bytesDown entry s k) := by
  rw [bitsDown_bytes, Cntl0.shiftOut, hwidth, htop]

theorem bytesDown_ioReg (width : Nat) (data : Ulong) {s : Nat} :
    ∀ k, s + 8 * k ≤ 24 → bytesDown (ioReg width data) s k = bytesDown data s k
  | 0, _ => rfl
  | k + 1, h => by
    rw [bytesDown, bytesDown, byteAt_ioReg _ _ (by omega), bytesDown_ioReg width data k (by omega)]

/-- The entries of the variable modes. -/
theorem shiftOut_ioReg {early : Bool} {width : Nat} {data : Ulong} {s k : Nat}
    (hwidth : width = 8 * k) (htop : 23 - early.toNat = s + 8 * k - 1) (hs : s + 8 * k ≤ 24) :
    (⟨true, 0⟩ : Cntl0).shiftOut early (ioReg width data) = bitsOf (bytesDown data s k) := by
  have hw : (⟨true, 0⟩ : Cntl0).width (ioReg width data) = 8 * k :=
    (width_ioReg (by omega) data).trans hwidth
  rw [shiftOut_eq hw htop, bytesDown_ioReg width data k hs]

/-- Entries put the bytes on the wire, each of them a piece. -/
structure Carries (cntl0 : Cntl0) (early : Bool) (k : Nat) (entries : List Ulong)
    (bytes : List Byte) : Prop where
  bits : entries.flatMap (cntl0.shiftOut early) = bitsOf bytes
  widths : entries.map (fun entry => (cntl0.shiftOut early entry).length) =
    (pieces k bytes.length).map (8 * ·)

theorem flatMap_slices (buffer : List Byte) (k : Nat) :
    ∀ m, (List.range m).flatMap (fun i => (buffer.drop (i * k)).take k) = buffer.take (m * k)
  | 0 => by rw [Nat.zero_mul, List.take_zero]; rfl
  | m + 1 => by
    rw [List.range_succ, List.flatMap_append, flatMap_slices buffer k m, Nat.succ_mul,
      List.take_add]
    simp

theorem bitsOf_flatMap {β : Type} (f : β → List Byte) (l : List β) :
    bitsOf (l.flatMap f) = l.flatMap fun b => bitsOf (f b) :=
  List.flatMap_assoc

/-- Full entries, and one for what is left. -/
theorem carries_pieces {cntl0 : Cntl0} {early : Bool} {k n : Nat} {buffer : List Byte}
    (hn : n ≤ buffer.length) {full : Nat → Ulong} {last : List Ulong}
    (hfull : ∀ i < n / k,
      cntl0.shiftOut early (full i) = bitsOf ((buffer.drop (i * k)).take k))
    (hlast : (n % k = 0 ∧ last = []) ∨ n % k ≠ 0 ∧ ∃ entry, last = [entry] ∧
      cntl0.shiftOut early entry = bitsOf ((buffer.drop (n / k * k)).take (n % k))) :
    Carries cntl0 early k ((List.range (n / k)).map full ++ last) (buffer.take n) := by
  have hsplit : n = n / k * k + n % k := (Nat.div_add_mod' n k).symm
  have hbits : ((List.range (n / k)).map full).flatMap (cntl0.shiftOut early) =
      bitsOf (buffer.take (n / k * k)) := by
    rw [← flatMap_slices, bitsOf_flatMap, List.flatMap_map]
    exact List.flatMap_congr fun i hi => hfull i (List.mem_range.1 hi)
  have hwidths : ((List.range (n / k)).map full).map
      (fun entry => (cntl0.shiftOut early entry).length) = List.replicate (n / k) (8 * k) := by
    refine List.eq_replicate_iff.2 ⟨by simp, ?_⟩
    simp only [List.mem_map, List.mem_range]
    rintro _ ⟨_, ⟨i, hi, rfl⟩, rfl⟩
    have hle : (i + 1) * k ≤ n / k * k := Nat.mul_le_mul_right k hi
    rw [Nat.succ_mul] at hle
    rw [hfull i hi, length_bitsOf, List.length_take, List.length_drop]
    omega
  have hlength : (buffer.take n).length = n := List.length_take_of_le hn
  constructor
  · rw [List.flatMap_append, hbits]
    rcases hlast with ⟨hzero, rfl⟩ | ⟨-, entry, rfl, hentry⟩
    · rw [List.flatMap_nil, List.append_nil]
      congr 2
      omega
    · rw [List.flatMap_singleton, hentry, ← bitsOf_append, ← List.take_add, ← hsplit]
  · rw [hlength, pieces, List.map_append, List.map_append, hwidths, List.map_replicate]
    congr 1
    rcases hlast with ⟨hzero, rfl⟩ | ⟨hne, entry, rfl, hentry⟩
    · rw [if_pos hzero]
      rfl
    · rw [if_neg hne, List.map_singleton, List.map_singleton, hentry, length_bitsOf,
        List.length_take, List.length_drop]
      congr 2
      omega

theorem take_drop_eq {buffer : List Byte} {i k : Nat} (h : i + k ≤ buffer.length) :
    (buffer.drop i).take k = (List.range k).map fun j => buffer.getD (i + j) 0 := by
  refine List.ext_getElem ?_ fun j hj hj' => ?_
  · rw [List.length_take, List.length_drop, List.length_map, List.length_range]
    omega
  · rw [List.length_map, List.length_range] at hj'
    rw [List.getElem_take, List.getElem_drop, List.getElem_map, List.getElem_range,
      List.getD_eq_getElem?_getD, List.getElem?_eq_getElem (by omega)]
    rfl

theorem slice_one {buffer : List Byte} {i : Nat} (h : i + 1 ≤ buffer.length) :
    (buffer.drop i).take 1 = [buffer.getD i 0] :=
  take_drop_eq h

theorem slice_two {buffer : List Byte} {i : Nat} (h : i + 2 ≤ buffer.length) :
    (buffer.drop i).take 2 = [buffer.getD i 0, buffer.getD (i + 1) 0] :=
  take_drop_eq h

theorem slice_three {buffer : List Byte} {i : Nat} (h : i + 3 ≤ buffer.length) :
    (buffer.drop i).take 3 =
      [buffer.getD i 0, buffer.getD (i + 1) 0, buffer.getD (i + 2) 0] :=
  take_drop_eq h

theorem slice_four {buffer : List Byte} {i : Nat} (h : i + 4 ≤ buffer.length) :
    (buffer.drop i).take 4 =
      [buffer.getD i 0, buffer.getD (i + 1) 0, buffer.getD (i + 2) 0, buffer.getD (i + 3) 0] :=
  take_drop_eq h

/-- A full piece ends inside the bytes that are written. -/
theorem full_le {i k n : Nat} (hi : i < n / k) : i * k + k ≤ n := by
  have hle : (i + 1) * k ≤ n / k * k := Nat.mul_le_mul_right k hi
  rw [Nat.succ_mul] at hle
  exact hle.trans (Nat.div_mul_le_self n k)

theorem carries_writeFixed4 {buffer : List Byte} {n : Nat} (hn : 4 * n ≤ buffer.length) :
    Carries (computeControlRegisters .fixed4) false 4 (writeFixed4 buffer n).1
      (buffer.take (4 * (writeFixed4 buffer n).2)) := by
  simp only [writeFixed4]
  generalize hcount : min n fifoDepth = count
  have hle : count ≤ n := by omega
  have hfull : ∀ i < 4 * count / 4, (computeControlRegisters .fixed4).shiftOut false
      (rtlUlongByteSwap (ulongOf buffer i)) = bitsOf ((buffer.drop (i * 4)).take 4) := by
    intro i hi
    have hend := full_le hi
    rw [slice_four (by omega), shiftOut_eq (s := 0) (k := 4) rfl rfl, (bytes_rtlUlongByteSwap _).1,
      ulongBytes_ulongOf, Nat.mul_comm 4 i]
  have h := carries_pieces (by omega) hfull (.inl ⟨by omega, rfl⟩)
  rwa [List.append_nil, show 4 * count / 4 = count by omega] at h

theorem carries_writeVariable3 {buffer : List Byte} {length : Nat} (hn : length ≤ buffer.length) :
    Carries (computeControlRegisters .variable3) false 3 (writeVariable3 buffer length).1
      (buffer.take (writeVariable3 buffer length).2) := by
  simp only [writeVariable3]
  generalize hqueue : min (fifoDepth * 3) length = bytesToQueue
  have hle : bytesToQueue ≤ length := by omega
  refine carries_pieces (by omega) ?_ ?_
  · intro i hi
    have hend := full_le hi
    rw [slice_three (by omega)]
    refine (shiftOut_ioReg (s := 0) (k := 3) rfl rfl (by decide)).trans ?_
    congr 1
    simp (disch := decide) [bytesDown, byteOf, byteAt_shiftLeft_of_le,
      byteAt_shiftLeft_of_lt, byteAt_setWidth_zero, byteAt_setWidth_of_le]
  · have hmod : bytesToQueue % 3 = 0 ∨ bytesToQueue % 3 = 1 ∨ bytesToQueue % 3 = 2 := by omega
    rcases hmod with h0 | h1 | h2
    · exact .inl ⟨h0, by rw [h0]; rfl⟩
    · refine .inr ⟨by omega, _, (by rw [h1]; rfl), ?_⟩
      rw [h1, slice_one (by omega)]
      refine (shiftOut_ioReg (s := 16) (k := 1) rfl rfl (by decide)).trans ?_
      congr 1
      rw [show bytesToQueue - 1 = bytesToQueue / 3 * 3 by omega]
      simp (disch := decide) [bytesDown, byteOf, byteAt_shiftLeft_of_le,
        byteAt_setWidth_zero]
    · refine .inr ⟨by omega, _, (by rw [h2]; rfl), ?_⟩
      rw [h2, slice_two (by omega)]
      refine (shiftOut_ioReg (s := 8) (k := 2) rfl rfl (by decide)).trans ?_
      congr 1
      rw [show bytesToQueue - 1 = bytesToQueue / 3 * 3 + 1 by omega,
        show bytesToQueue - 2 = bytesToQueue / 3 * 3 by omega]
      simp (disch := decide) [bytesDown, byteOf, byteAt_shiftLeft_of_le,
        byteAt_shiftLeft_of_lt, byteAt_setWidth_zero, byteAt_setWidth_of_le]

theorem carries_writeFixed3Shifted {buffer : List Byte} {length : Nat}
    (hn : length ≤ buffer.length) (htakes : length % 3 = 0) :
    Carries (computeControlRegisters .fixed3Shifted) true 3 (writeFixed3Shifted buffer length).1
      (buffer.take (writeFixed3Shifted buffer length).2) := by
  simp only [writeFixed3Shifted]
  generalize hqueue : min length (fifoDepth * 3) = bytesToQueue
  have hdepth : fifoDepth * 3 = 12 := rfl
  have hle : bytesToQueue ≤ length := by omega
  have hfull : ∀ i < bytesToQueue / 3, (computeControlRegisters .fixed3Shifted).shiftOut true
      (byteOf buffer (i * 3) <<< 23 ||| byteOf buffer (i * 3 + 1) <<< 15 |||
        byteOf buffer (i * 3 + 2) <<< 7) = bitsOf ((buffer.drop (i * 3)).take 3) := by
    intro i hi
    have hend := full_le hi
    rw [slice_three (by omega), shiftOut_eq (s := 7) (k := 3) rfl rfl]
    congr 1
    simp (disch := decide) [bytesDown, byteOf, byteAt_shiftLeft_of_le, byteAt_shiftLeft_of_lt,
      byteAt_setWidth_zero, byteAt_setWidth_of_le]
  have h := carries_pieces (by omega) hfull (.inl ⟨by omega, rfl⟩)
  rwa [List.append_nil] at h

theorem carries_writeVariable2Shifted {buffer : List Byte} {length : Nat}
    (hn : length ≤ buffer.length) :
    Carries (computeControlRegisters .variable2Shifted) true 2
      (writeVariable2Shifted buffer length).1
      (buffer.take (writeVariable2Shifted buffer length).2) := by
  simp only [writeVariable2Shifted]
  generalize hqueue : min (fifoDepth * 2) length = bytesToQueue
  have hle : bytesToQueue ≤ length := by omega
  refine carries_pieces (by omega) ?_ ?_
  · intro i hi
    have hend := full_le hi
    rw [slice_two (by omega)]
    refine (shiftOut_ioReg (s := 7) (k := 2) rfl rfl (by decide)).trans ?_
    congr 1
    simp (disch := decide) [bytesDown, byteOf, byteAt_shiftLeft_of_le,
      byteAt_shiftLeft_of_lt, byteAt_setWidth_zero, byteAt_setWidth_of_le]
  · have hmod : bytesToQueue % 2 = 0 ∨ bytesToQueue % 2 = 1 := by omega
    rcases hmod with h0 | h1
    · exact .inl ⟨h0, by rw [h0]; rfl⟩
    · refine .inr ⟨by omega, _, if_pos (by omega), ?_⟩
      rw [h1, slice_one (by omega)]
      refine (shiftOut_ioReg (s := 15) (k := 1) rfl rfl (by decide)).trans ?_
      congr 1
      rw [show bytesToQueue - 1 = bytesToQueue / 2 * 2 by omega]
      simp (disch := decide) [bytesDown, byteOf, byteAt_shiftLeft_of_le,
        byteAt_setWidth_zero]

/-- **What `writeFifo` puts on the wire** are the bytes that it says it has written. -/
theorem writeFifo_spec {spiDataMode : SpiDataMode} {fifoMode : FifoMode}
    (hof : fifoMode.Of spiDataMode) {buffer : List Byte} {length : Nat}
    (hn : length ≤ buffer.length) (htakes : fifoMode.Takes length) :
    (writeFifo buffer length fifoMode).2 = min length (getFifoCapacity fifoMode) ∧
      Carries (computeControlRegisters fifoMode) spiDataMode.early fifoMode.entryBytes
        (writeFifo buffer length fifoMode).1
        (buffer.take (writeFifo buffer length fifoMode).2) := by
  have hdepth : fifoDepth = 4 := rfl
  cases fifoMode with
  | fixed4 =>
    have hmod : length % 4 = 0 := htakes
    rw [show spiDataMode.early = false from hof]
    refine ⟨?_, carries_writeFixed4 (by omega)⟩
    show 4 * min (length / 4) fifoDepth = min length (fifoDepth * 4)
    omega
  | variable3 =>
    rw [show spiDataMode.early = false from hof]
    exact ⟨Nat.min_comm _ _, carries_writeVariable3 hn⟩
  | fixed3Shifted =>
    rw [show spiDataMode.early = true from hof]
    exact ⟨rfl, carries_writeFixed3Shifted hn htakes⟩
  | variable2Shifted =>
    rw [show spiDataMode.early = true from hof]
    exact ⟨Nat.min_comm _ _, carries_writeVariable2Shifted hn⟩

/-! ## What is extracted -/

/-- The bits of the `k` lower bytes of an entry. -/
def lowBits (entry : Ulong) (k : Nat) : List Bool := bitsDown entry (8 * k - 1) (8 * k)

theorem bitsOf_bytesDown (entry : Ulong) (k : Nat) :
    bitsOf (bytesDown entry 0 k) = lowBits entry k := by
  rw [bitsDown_bytes, Nat.zero_add, lowBits]

theorem zipWith_replicate_append {f : Ulong → Nat → List Bool} {k : Nat} (last : List Nat) :
    ∀ {m : Nat} {fifoBuffer : List Ulong}, m ≤ fifoBuffer.length →
      (List.zipWith f fifoBuffer (List.replicate m k ++ last)).flatten =
        (List.range m).flatMap (fun i => f (fifoBuffer.getD i 0) k) ++
          (List.zipWith f (fifoBuffer.drop m) last).flatten
  | 0, fifoBuffer, _ => rfl
  | m + 1, [], h => absurd h (Nat.not_succ_le_zero m)
  | m + 1, entry :: fifoBuffer, h => by
    rw [List.replicate_succ, List.cons_append, List.zipWith_cons_cons, List.flatten_cons,
      zipWith_replicate_append last (Nat.le_of_succ_le_succ h), List.range_succ_eq_map,
      List.flatMap_cons, List.flatMap_map, List.append_assoc]
    rfl

/-- Full entries, and one for what is left. -/
theorem bitsOf_pieces {k n : Nat} {fifoBuffer : List Ulong} {full : Nat → List Byte}
    (last : List Byte) (hfifo : (pieces k n).length ≤ fifoBuffer.length)
    (hfull : ∀ i < n / k, full i = bytesDown (fifoBuffer.getD i 0) 0 k)
    (hlast : last = if n % k = 0 then [] else bytesDown (fifoBuffer.getD (n / k) 0) 0 (n % k)) :
    bitsOf ((List.range (n / k)).flatMap full ++ last) =
      (List.zipWith lowBits fifoBuffer (pieces k n)).flatten := by
  rw [pieces, List.length_append, List.length_replicate] at hfifo
  rw [pieces, zipWith_replicate_append _ (by omega), bitsOf_append, bitsOf_flatMap]
  congr 1
  · refine List.flatMap_congr fun i hi => ?_
    rw [hfull i (List.mem_range.1 hi), bitsOf_bytesDown]
  · rw [hlast]
    split
    · rw [List.zipWith_nil_right]
      rfl
    · next hne =>
      rw [if_neg hne, List.length_singleton] at hfifo
      rw [bitsOf_bytesDown, List.drop_eq_getElem_cons (by omega), List.zipWith_cons_cons,
        List.zipWith_nil_right, List.flatten_cons, List.flatten_nil, List.append_nil,
        List.getD_eq_getElem?_getD, List.getElem?_eq_getElem (by omega)]
      rfl

/-- **What is extracted** are the bits at the low ends of the entries. -/
theorem bitsOf_extractFifoBuffer {fifoMode : FifoMode} {fifoBuffer : List Ulong} {length : Nat}
    (htakes : fifoMode.Takes length)
    (hfifo : (pieces fifoMode.entryBytes length).length ≤ fifoBuffer.length) :
    bitsOf (extractFifoBuffer fifoBuffer length fifoMode) =
      (List.zipWith lowBits fifoBuffer (pieces fifoMode.entryBytes length)).flatten := by
  cases fifoMode with
  | fixed4 =>
    have hmod : length % 4 = 0 := htakes
    rw [← bitsOf_pieces [] hfifo (fun i _ => (bytes_rtlUlongByteSwap _).2)
      (if_pos hmod).symm, List.append_nil]
    rfl
  | variable3 =>
    refine bitsOf_pieces _ hfifo (fun i _ => rfl) ?_
    have hmod : length % 3 = 0 ∨ length % 3 = 1 ∨ length % 3 = 2 := by omega
    rcases hmod with h0 | h1 | h2
    · rw [h0]
      rfl
    · rw [h1,
        show (length - 1) / 3 = length / 3 by omega]
      rfl
    · rw [h2,
        show (length - 1) / 3 = length / 3 by omega]
      rfl
  | fixed3Shifted =>
    have hmod : length % 3 = 0 := htakes
    rw [← bitsOf_pieces [] hfifo (fun i _ => rfl) (if_pos hmod).symm, List.append_nil]
    rfl
  | variable2Shifted =>
    refine bitsOf_pieces _ hfifo (fun i _ => rfl) ?_
    have hmod : length % 2 = 0 ∨ length % 2 = 1 := by omega
    rcases hmod with h0 | h1
    · rw [h0]
      rfl
    · rw [h1]
      rfl

/-! ## There and back -/

/-- The receive FIFO after the bits have come in, entry by entry. -/
def Received (groups : List (List Bool)) (rxFifo : List Ulong) : Prop :=
  List.Forall₂ (fun bits entry => ∃ before, entry = received before bits) groups rxFifo

/-- Reading gives the bits back; what is read behind the entries is of no concern. -/
theorem Received.zipWith {groups : List (List Bool)} {rxFifo : List Ulong}
    (h : Received groups rxFifo) (stale : List Ulong) :
    ∀ {sizes : List Nat}, groups.map List.length = sizes.map (8 * ·) → (∀ k ∈ sizes, k ≤ 4) →
      (List.zipWith lowBits (rxFifo ++ stale) sizes).flatten = groups.flatten := by
  induction h with
  | nil =>
    intro sizes hsizes _
    obtain rfl : sizes = [] := by simpa using hsizes.symm
    rw [List.zipWith_nil_right]
  | @cons bits entry groups rxFifo hentry _ ih =>
    intro sizes hsizes hle
    cases sizes with
    | nil => simp at hsizes
    | cons k sizes =>
      obtain ⟨hlength, hrest⟩ := List.cons.inj hsizes
      obtain ⟨before, rfl⟩ := hentry
      have hk := hle k List.mem_cons_self
      have hbits : bits.length = 8 * k := hlength
      have hlow : lowBits (received before bits) k = bits := by
        rw [lowBits, ← hbits]
        exact bitsDown_shiftIn bits before (by omega)
      rw [List.cons_append, List.zipWith_cons_cons, List.flatten_cons, List.flatten_cons, hlow,
        ih hrest fun k' hk' => hle k' (List.mem_cons_of_mem _ hk')]

theorem le_of_mem_pieces {k n i : Nat} (hk : 0 < k) (h : i ∈ pieces k n) : i ≤ k := by
  rw [pieces, List.mem_append] at h
  rcases h with h | h
  · exact (List.eq_of_mem_replicate h).le
  · split at h
    · cases h
    · rw [List.mem_singleton.1 h]
      exact (Nat.mod_lt n hk).le

theorem FifoMode.entryBytes_pos (fifoMode : FifoMode) : 0 < fifoMode.entryBytes := by
  cases fifoMode <;> decide

theorem FifoMode.entryBytes_le (fifoMode : FifoMode) : fifoMode.entryBytes ≤ 4 := by
  cases fifoMode <;> decide

/-- What the FIFO can hold of a length that the mode takes. -/
theorem FifoMode.Takes.min_capacity {fifoMode : FifoMode} {length : Nat}
    (h : fifoMode.Takes length) : fifoMode.Takes (min length (getFifoCapacity fifoMode)) := by
  cases fifoMode with
  | fixed4 =>
    have hmod : length % 4 = 0 := h
    show min length 16 % 4 = 0
    omega
  | fixed3Shifted =>
    have hmod : length % 3 = 0 := h
    show min length 12 % 3 = 0
    omega
  | variable3 => trivial
  | variable2Shifted => trivial

/-- **Bits that came in, in the sizes of the mode, are extracted in order.** -/
theorem extract_received {fifoMode : FifoMode} {length : Nat} (htakes : fifoMode.Takes length)
    {groups : List (List Bool)} {rxFifo : List Ulong} (h : Received groups rxFifo)
    (hsizes : groups.map List.length = (pieces fifoMode.entryBytes length).map (8 * ·))
    (stale : List Ulong) :
    bitsOf (extractFifoBuffer (rxFifo ++ stale) length fifoMode) = groups.flatten := by
  have hlength : (pieces fifoMode.entryBytes length).length ≤ (rxFifo ++ stale).length := by
    have hcount := congrArg List.length hsizes
    rw [List.length_map, List.length_map] at hcount
    rw [List.length_append, ← h.length_eq, ← hcount]
    exact Nat.le_add_right _ _
  rw [bitsOf_extractFifoBuffer htakes hlength]
  refine h.zipWith stale hsizes fun k hk => ?_
  exact (le_of_mem_pieces fifoMode.entryBytes_pos hk).trans fifoMode.entryBytes_le

/-- **Bytes that are written, looped back and extracted are unchanged.** -/
theorem extract_carries {cntl0 : Cntl0} {early : Bool} {fifoMode : FifoMode}
    {entries : List Ulong} {bytes : List Byte}
    (hcarries : Carries cntl0 early fifoMode.entryBytes entries bytes)
    (htakes : fifoMode.Takes bytes.length) {rxFifo : List Ulong}
    (h : Received (entries.map (cntl0.shiftOut early)) rxFifo) (stale : List Ulong) :
    extractFifoBuffer (rxFifo ++ stale) bytes.length fifoMode = bytes := by
  refine bitsOf_injective ((extract_received htakes h ?_ stale).trans ?_)
  · rw [List.map_map]
    exact hcarries.widths
  · rw [← hcarries.bits, List.flatMap_def]

/-! ## Chunk by chunk -/

/-- What a list of entries puts on the wire. -/
def FifoMode.wire (fifoMode : FifoMode) (spiDataMode : SpiDataMode) (entries : List Ulong) :
    List (List Bool) :=
  entries.map ((computeControlRegisters fifoMode).shiftOut spiDataMode.early)

/-- A buffer is written in chunks of any lengths that the mode takes, the entries are looped back,
and what has come back of a chunk is extracted: the bits on the wire, and the bytes extracted. -/
inductive Looped (spiDataMode : SpiDataMode) (fifoMode : FifoMode) :
    List Byte → List Bool → List Byte → Prop
  | done : Looped spiDataMode fifoMode [] [] []
  | chunk {buffer : List Byte} {length : Nat} {rxFifo : List Ulong} (stale : List Ulong)
      {wire : List Bool} {bytes : List Byte} (hpos : 0 < length) (hle : length ≤ buffer.length)
      (htakes : fifoMode.Takes length)
      (hrx : Received (fifoMode.wire spiDataMode (writeFifo buffer length fifoMode).1) rxFifo)
      (hrest : Looped spiDataMode fifoMode (buffer.drop (writeFifo buffer length fifoMode).2)
        wire bytes) :
      Looped spiDataMode fifoMode buffer
        ((fifoMode.wire spiDataMode (writeFifo buffer length fifoMode).1).flatten ++ wire)
        (extractFifoBuffer (rxFifo ++ stale) (writeFifo buffer length fifoMode).2 fifoMode ++ bytes)

/-- The same from a chain of MDLs to another one: the bits on the wire, and the chain at the end.
`copyBytesToMdl` is `Cursor.copyTo`. -/
inductive LoopedMdl (spiDataMode : SpiDataMode) (fifoMode : FifoMode) (mdl : List (List Byte)) :
    Cursor → List (List Byte) → Cursor → List Bool → List (List Byte) → Prop
  | done {c : Cursor} {readMdl : List (List Byte)} {readCursor : Cursor} (hend : c.AtEnd mdl) :
      LoopedMdl spiDataMode fifoMode mdl c readMdl readCursor [] readMdl
  | chunk {c : Cursor} {readMdl readMdl' : List (List Byte)} {readCursor : Cursor}
      {rxFifo : List Ulong} (stale : List Ulong) {wire : List Bool} (hmore : ¬ c.AtEnd mdl)
      (hrx : Received (fifoMode.wire spiDataMode (writeFifoMdl mdl c fifoMode).2.1) rxFifo)
      (hrest : LoopedMdl spiDataMode fifoMode mdl (writeFifoMdl mdl c fifoMode).1
        (Cursor.copyTo readMdl readCursor (extractFifoBuffer (rxFifo ++ stale)
          (writeFifoMdl mdl c fifoMode).2.2 fifoMode)).2.1
        (Cursor.copyTo readMdl readCursor (extractFifoBuffer (rxFifo ++ stale)
          (writeFifoMdl mdl c fifoMode).2.2 fifoMode)).1 wire readMdl') :
      LoopedMdl spiDataMode fifoMode mdl c readMdl readCursor
        ((fifoMode.wire spiDataMode (writeFifoMdl mdl c fifoMode).2.1).flatten ++ wire) readMdl'

theorem received_self (groups : List (List Bool)) : Received groups (groups.map (received 0)) := by
  induction groups with
  | nil => exact .nil
  | cons bits groups ih => exact .cons ⟨0, rfl⟩ ih

theorem Looped.spec {spiDataMode : SpiDataMode} {fifoMode : FifoMode}
    (hof : fifoMode.Of spiDataMode) {buffer : List Byte} {wire : List Bool} {bytes : List Byte}
    (h : Looped spiDataMode fifoMode buffer wire bytes) :
    wire = bitsOf buffer ∧ bytes = buffer := by
  induction h with
  | done => exact ⟨rfl, rfl⟩
  | chunk stale hpos hle htakes hrx _ ih =>
    obtain ⟨rfl, rfl⟩ := ih
    obtain ⟨hcount, hcarries⟩ := writeFifo_spec hof hle htakes
    constructor
    · rw [FifoMode.wire, ← List.flatMap_def, hcarries.bits, ← bitsOf_append, List.take_append_drop]
    · have hlength := List.length_take_of_le (hcount.le.trans ((Nat.min_le_left _ _).trans hle))
      have hextract := extract_carries hcarries (by
        rw [hlength, hcount]
        exact htakes.min_capacity) hrx stale
      rw [hlength] at hextract
      rw [hextract, List.take_append_drop]

/-- What is left behind a chunk is a length that the mode takes. -/
theorem FifoMode.Takes.sub_capacity {fifoMode : FifoMode} {length : Nat}
    (h : fifoMode.Takes length) :
    fifoMode.Takes (length - min length (getFifoCapacity fifoMode)) := by
  cases fifoMode with
  | fixed4 =>
    have hmod : length % 4 = 0 := h
    show (length - min length 16) % 4 = 0
    omega
  | fixed3Shifted =>
    have hmod : length % 3 = 0 := h
    show (length - min length 12) % 3 = 0
    omega
  | variable3 => trivial
  | variable2Shifted => trivial

theorem getFifoCapacity_pos (fifoMode : FifoMode) : 0 < getFifoCapacity fifoMode := by
  cases fifoMode <;> decide

/-- The driver asks for all that is left, and gets to the end. -/
theorem exists_looped {spiDataMode : SpiDataMode} {fifoMode : FifoMode}
    (hof : fifoMode.Of spiDataMode) {buffer : List Byte} (htakes : fifoMode.Takes buffer.length) :
    ∃ wire bytes, Looped spiDataMode fifoMode buffer wire bytes := by
  induction hlength : buffer.length using Nat.strong_induction_on generalizing buffer with
  | h n ih =>
    subst hlength
    rcases Nat.eq_zero_or_pos buffer.length with hzero | hpos
    · obtain rfl := List.length_eq_zero_iff.1 hzero
      exact ⟨_, _, .done⟩
    · obtain ⟨hcount, -⟩ := writeFifo_spec hof (Nat.le_refl buffer.length) htakes
      have hcapacity := getFifoCapacity_pos fifoMode
      have hdrop : (buffer.drop (writeFifo buffer buffer.length fifoMode).2).length =
          buffer.length - min buffer.length (getFifoCapacity fifoMode) := by
        rw [List.length_drop, hcount]
      have htakes' :
          fifoMode.Takes (buffer.drop (writeFifo buffer buffer.length fifoMode).2).length := by
        rw [hdrop]
        exact htakes.sub_capacity
      obtain ⟨wire, bytes, hrest⟩ := ih _ (by omega) htakes' rfl
      exact ⟨_, _, .chunk [] hpos (Nat.le_refl _) htakes (received_self _) hrest⟩

/-- What one call of `writeFifoMdl` takes from the chain. -/
theorem writeFifoMdl_spec {spiDataMode : SpiDataMode} {fifoMode : FifoMode}
    (hof : fifoMode.Of spiDataMode) {mdl : List (List Byte)} {c : Cursor} (hc : c.Within mdl)
    {left : Nat} (hleft : c.position mdl + left = mdl.flatten.length)
    (htakes : fifoMode.Takes left) :
    (writeFifoMdl mdl c fifoMode).2.2 = min left (getFifoCapacity fifoMode) ∧
      Cursor.Within mdl (writeFifoMdl mdl c fifoMode).1 ∧
      (writeFifoMdl mdl c fifoMode).1.position mdl =
        c.position mdl + (writeFifoMdl mdl c fifoMode).2.2 ∧
      Carries (computeControlRegisters fifoMode) spiDataMode.early fifoMode.entryBytes
        (writeFifoMdl mdl c fifoMode).2.1
        ((mdl.flatten.drop (c.position mdl)).take (writeFifoMdl mdl c fifoMode).2.2) := by
  obtain ⟨hcopy, hwithin, hpos⟩ := Cursor.copyFrom_spec mdl (getFifoCapacity fifoMode) hc
  simp only [writeFifoMdl]
  generalize Cursor.copyFrom mdl c (getFifoCapacity fifoMode) = copied at hcopy hwithin hpos ⊢
  obtain ⟨c', fifoBuffer⟩ := copied
  have hlength : fifoBuffer.length = min left (getFifoCapacity fifoMode) := by
    rw [show fifoBuffer = _ from hcopy, List.length_take, List.length_drop]
    omega
  have htakes' : fifoMode.Takes fifoBuffer.length := by
    rw [hlength]
    exact htakes.min_capacity
  obtain ⟨hcount, hcarries⟩ := writeFifo_spec hof (Nat.le_refl fifoBuffer.length) htakes'
  have hcount' : (writeFifo fifoBuffer fifoBuffer.length fifoMode).2 = fifoBuffer.length := by
    omega
  refine ⟨hcount'.trans hlength, hwithin, ?_, ?_⟩
  · rw [hcount']
    exact hpos
  · rw [hcount', List.take_length] at hcarries
    have hbuffer : (mdl.flatten.drop (c.position mdl)).take fifoBuffer.length = fifoBuffer := by
      conv_rhs => rw [show fifoBuffer = _ from hcopy]
      rw [hlength, List.take_eq_take_iff, List.length_drop]
      omega
    rw [hcount', hbuffer]
    exact hcarries

theorem LoopedMdl.spec {spiDataMode : SpiDataMode} {fifoMode : FifoMode}
    (hof : fifoMode.Of spiDataMode) {mdl readMdl readMdl' : List (List Byte)}
    {c readCursor : Cursor} {wire : List Bool}
    (h : LoopedMdl spiDataMode fifoMode mdl c readMdl readCursor wire readMdl') :
    ∀ {left : Nat}, c.Within mdl → readCursor.Within readMdl →
      c.position mdl + left = mdl.flatten.length →
      readCursor.position readMdl + left = readMdl.flatten.length → fifoMode.Takes left →
      wire = bitsOf (mdl.flatten.drop (c.position mdl)) ∧
        readMdl'.flatten = readMdl.flatten.take (readCursor.position readMdl) ++
          mdl.flatten.drop (c.position mdl) ∧
        Cursor.SameShape readMdl' readMdl := by
  induction h with
  | @done c readMdl readCursor hend =>
    intro left hc _ hleft hreadLeft _
    have hpos := Cursor.position_of_atEnd hc hend
    rw [hpos, List.drop_length, List.append_nil, List.take_of_length_le (by omega)]
    exact ⟨rfl, rfl, rfl⟩
  | @chunk c readMdl readMdl' readCursor rxFifo stale wire _ hrx _ ih =>
    intro left hc hreadCursor hleft hreadLeft htakes
    obtain ⟨hcount, hwithin, hpos, hcarries⟩ := writeFifoMdl_spec hof hc hleft htakes
    have hlength : ((mdl.flatten.drop (c.position mdl)).take
        (writeFifoMdl mdl c fifoMode).2.2).length = (writeFifoMdl mdl c fifoMode).2.2 := by
      rw [List.length_take, List.length_drop]
      omega
    have hextract := extract_carries hcarries (by
      rw [hlength, hcount]
      exact htakes.min_capacity) hrx stale
    rw [hlength] at hextract
    rw [hextract] at ih
    obtain ⟨hread, hshape, -, hreadWithin, hreadPos⟩ := Cursor.copyTo_spec
      ((mdl.flatten.drop (c.position mdl)).take (writeFifoMdl mdl c fifoMode).2.2) hreadCursor
      (by rw [hlength]; omega)
    rw [hlength] at hread hreadPos
    obtain ⟨hin, hsame⟩ := hshape.cursor (Cursor.copyTo readMdl readCursor
      ((mdl.flatten.drop (c.position mdl)).take (writeFifoMdl mdl c fifoMode).2.2)).1
    have hflatten := hshape.length_flatten
    have hleft' : (writeFifoMdl mdl c fifoMode).1.position mdl +
        (left - (writeFifoMdl mdl c fifoMode).2.2) = mdl.flatten.length := by omega
    have hreadLeft' :
        readCursor.position readMdl + (writeFifoMdl mdl c fifoMode).2.2 +
          (left - (writeFifoMdl mdl c fifoMode).2.2) = readMdl.flatten.length := by omega
    rw [← hreadPos, ← hsame, ← hflatten] at hreadLeft'
    have htakes' : fifoMode.Takes (left - (writeFifoMdl mdl c fifoMode).2.2) := by
      rw [hcount]
      exact htakes.sub_capacity
    -- the rest is looped from where both cursors are now
    obtain ⟨rfl, hbytes, hshape'⟩ := ih hwithin (hin.2 hreadWithin) hleft' hreadLeft' htakes'
    refine ⟨?_, ?_, hshape'.trans hshape⟩
    · rw [FifoMode.wire, ← List.flatMap_def, hcarries.bits, hpos, ← List.drop_drop, ← bitsOf_append,
        List.take_append_drop]
    · have hfront : (readMdl.flatten.take (readCursor.position readMdl) ++
          (mdl.flatten.drop (c.position mdl)).take (writeFifoMdl mdl c fifoMode).2.2).length =
          readCursor.position readMdl + (writeFifoMdl mdl c fifoMode).2.2 := by
        rw [List.length_append, List.length_take, hlength]
        omega
      rw [hbytes, hsame, hreadPos, hread, hpos, List.take_left' hfront, ← List.drop_drop,
        List.append_assoc, List.take_append_drop]

/-- The end of the chain is reached. -/
theorem exists_loopedMdl {spiDataMode : SpiDataMode} {fifoMode : FifoMode}
    (hof : fifoMode.Of spiDataMode) {mdl : List (List Byte)} {left : Nat} :
    ∀ {c : Cursor} {readMdl : List (List Byte)} {readCursor : Cursor}, c.Within mdl →
      c.position mdl + left = mdl.flatten.length → fifoMode.Takes left →
      ∃ wire readMdl', LoopedMdl spiDataMode fifoMode mdl c readMdl readCursor wire readMdl' := by
  induction left using Nat.strong_induction_on with
  | h left ih =>
    intro c readMdl readCursor hc hleft htakes
    by_cases hend : c.AtEnd mdl
    · exact ⟨_, _, .done hend⟩
    · obtain ⟨hcount, hwithin, hpos, -⟩ := writeFifoMdl_spec hof hc hleft htakes
      have hcapacity := getFifoCapacity_pos fifoMode
      rcases Nat.eq_zero_or_pos left with hzero | hmore
      · -- only empty MDLs are left, and the cursor moves over them
        have hat : (writeFifoMdl mdl c fifoMode).1.AtEnd mdl :=
          Cursor.atEnd_copyFrom mdl (getFifoCapacity fifoMode) hc (by
            show (writeFifoMdl mdl c fifoMode).1.position mdl = _
            omega)
        exact ⟨_, _, .chunk [] hend (received_self _) (.done hat)⟩
      · have hleft' : (writeFifoMdl mdl c fifoMode).1.position mdl +
            (left - (writeFifoMdl mdl c fifoMode).2.2) = mdl.flatten.length := by omega
        have htakes' : fifoMode.Takes (left - (writeFifoMdl mdl c fifoMode).2.2) := by
          rw [hcount]
          exact htakes.sub_capacity
        obtain ⟨wire, readMdl', hrest⟩ := ih _ (by omega) hwithin hleft' htakes'
        exact ⟨_, _, .chunk [] hend (received_self _) hrest⟩

/-- The FIFO is a codec, in the mode that is selected for the length: whatever the chunks and the
MDLs, the bits on the wire are those of the bytes, and the bytes come back. The chunks can always
be gone through to the end. -/
structure CodecSound (spiDataMode : SpiDataMode) : Prop where
  buffer : ∀ (buffer : List Byte) (wire : List Bool) (bytes : List Byte),
    Looped spiDataMode (selectFifoMode spiDataMode buffer.length) buffer wire bytes →
      wire = bitsOf buffer ∧ bytes = buffer
  bufferEnds : ∀ buffer : List Byte, ∃ wire bytes,
    Looped spiDataMode (selectFifoMode spiDataMode buffer.length) buffer wire bytes
  mdl : ∀ (mdl readMdl readMdl' : List (List Byte)) (wire : List Bool),
    readMdl.flatten.length = mdl.flatten.length →
    LoopedMdl spiDataMode (selectFifoMode spiDataMode mdl.flatten.length) mdl ⟨0, 0⟩ readMdl ⟨0, 0⟩
        wire readMdl' →
      wire = bitsOf mdl.flatten ∧ readMdl'.flatten = mdl.flatten ∧
        Cursor.SameShape readMdl' readMdl
  mdlEnds : ∀ mdl readMdl : List (List Byte), ∃ wire readMdl',
    LoopedMdl spiDataMode (selectFifoMode spiDataMode mdl.flatten.length) mdl ⟨0, 0⟩ readMdl ⟨0, 0⟩
      wire readMdl'

/-- **The FIFO codec**: what is written in chunks goes over the wire in order, and what a loop-back
returns is extracted unchanged. -/
theorem fifoCodec (spiDataMode : SpiDataMode) : CodecSound spiDataMode where
  buffer buffer wire bytes h := h.spec (selectFifoMode_of _ _)
  bufferEnds buffer := exists_looped (selectFifoMode_of _ _) (selectFifoMode_takes _ _)
  mdl mdl readMdl readMdl' wire hlength h := by
    have hstart := Cursor.position_start mdl
    have hreadStart := Cursor.position_start readMdl
    have hspec := h.spec (selectFifoMode_of _ _) (Cursor.within_start mdl)
      (Cursor.within_start readMdl) (by rw [hstart, Nat.zero_add])
      (by rw [hreadStart, Nat.zero_add, hlength]) (selectFifoMode_takes _ _)
    rwa [hstart, hreadStart, List.drop_zero, List.take_zero, List.nil_append] at hspec
  mdlEnds mdl readMdl := exists_loopedMdl (selectFifoMode_of _ _) (Cursor.within_start mdl)
    (by rw [Cursor.position_start, Nat.zero_add]) (selectFifoMode_takes _ _)

/-- Five bytes in data mode 0: an entry of three, and one of two. -/
example : (writeFifo [0x12, 0x34, 0x56, 0xab, 0xcd] 5 (selectFifoMode .mode0 5)).1 =
    [0x18123456, 0x10abcd00] := by decide

/-- In data mode 1: two entries of two and one of one, a bit further down. -/
example : (writeFifo [0x12, 0x34, 0x56, 0x78, 0xab] 5 (selectFifoMode .mode1 5)).1 =
    [ioReg 16 (0x00123400 >>> 1), ioReg 16 (0x00567800 >>> 1), ioReg 8 (0x00ab0000 >>> 1)] := by
  decide

end RpiDrivers.AuxSpi
