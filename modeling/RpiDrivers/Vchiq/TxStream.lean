import Mathlib.Data.List.Nodup
import RpiDrivers.Vchiq.TxSpace

/-!
# The stream of messages

A run of `streamMachine` is described by positions that are not reduced modulo `2 ^ 32`: the
writer's `w`, the published `p`, the reader's `r`, and the number `q` of slots ever queued, `a` of
them made available. Between `r` and `w` the memory holds a chain of frames (messages and
padding), each in one slot of the window `r / 4096 … q` of the slot queue.

- `Frames`: the chain, and what leaves it alone.
- `StreamInv`: the invariant; one lemma an action.
- `stream_iff`: **once all messages are written and the reader's loop has ended, the reader has
  received them all and stands where the writer does exactly when the stream ends below
  `2 ^ 32`**.
- `wrap_lost`: a message that ends at `2 ^ 32` is never seen.
-/

namespace RpiDrivers.Vchiq

open RpiDrivers.Lib

/-! ## Frames -/

/-- What is written at one position: a message, or the header of padding. -/
structure Frame where
  msgId : Nat
  size : Nat
  payload : List UInt8
  msgId_lt : msgId < ulongSize
  size_le : size ≤ vchiqMaxMsgSize
  payload_le : payload.length ≤ size
  whole : vchiqMsgType msgId ≠ vchiqMsgPadding → payload.length = size

def Frame.bytes (f : Frame) : List UInt8 := encode32 f.msgId ++ encode32 f.size ++ f.payload

/-- The space a frame takes. -/
def Frame.length (f : Frame) : Nat := (f.size + vchiqHeaderSize + 7) / 8 * 8

/-- What the reader makes of a frame. -/
def Frame.packet? (f : Frame) : Option Packet :=
  if vchiqMsgType f.msgId = vchiqMsgPadding then none else some ⟨f.msgId, f.size, f.payload⟩

def Message.frame (m : Message) : Frame :=
  ⟨m.msgId, m.payload.length, m.payload, m.msgId_lt, m.size_le, Nat.le_refl _, fun _ => rfl⟩

/-- The padding that fills a slot from an offset on. -/
def paddingFrame (size : Nat) (h : size ≤ vchiqMaxMsgSize) : Frame :=
  ⟨vchiqMsgIdPadding, size, [], by decide, h, Nat.zero_le _, fun hne => absurd rfl hne⟩

@[simp] theorem Message.packet?_frame (m : Message) : m.frame.packet? = some m.packet :=
  if_neg m.notPadding

theorem Frame.length_bytes (f : Frame) : f.bytes.length = 8 + f.payload.length := by
  simp only [Frame.bytes, List.length_append, length_encode32]

theorem Frame.length_bytes_le (f : Frame) : f.bytes.length ≤ f.length := by
  have := f.payload_le
  rw [Frame.length_bytes, Frame.length]
  show 8 + f.payload.length ≤ (f.size + 8 + 7) / 8 * 8
  omega

theorem Frame.length_pos (f : Frame) : 0 < f.length := by
  show 0 < (f.size + 8 + 7) / 8 * 8
  omega

theorem Frame.aligned (f : Frame) : 8 ∣ f.length :=
  Nat.dvd_mul_left ..

/-- The length of a frame as the code computes it. -/
theorem Frame.length_eq (f : Frame) :
    vchiqGetSlotAlignSize ((f.size + vchiqHeaderSize) % ulongSize) = f.length := by
  have hsize : f.size ≤ 4088 := f.size_le
  have hmod : (f.size + vchiqHeaderSize) % ulongSize = f.size + vchiqHeaderSize :=
    Nat.mod_eq_of_lt (show f.size + 8 < 2 ^ 32 by omega)
  rw [hmod, vchiqGetSlotAlignSize_eq (show f.size + 8 + 7 < 2 ^ 32 by omega)]
  rfl

/-- The slot of the `i`th entry of the slot queue. -/
def slotAt (queue : Nat → Nat) (i : Nat) : Nat := queue (i % vchiqMaxSlotsPerSide)

/-- The address of a position. -/
def addressOf (queue : Nat → Nat) (pos : Nat) : Nat :=
  slotAt queue (pos / vchiqSlotSize) * vchiqSlotSize + pos % vchiqSlotSize

/-- The frame lies at a position, within one slot. -/
def FrameAt (memory : ByteMemory) (queue : Nat → Nat) (pos : Nat) (f : Frame) : Prop :=
  pos % vchiqSlotSize + f.length ≤ vchiqSlotSize ∧
    load memory (addressOf queue pos) f.bytes.length = f.bytes

/-- The frames lie one after the other from one position to another. -/
def Frames (memory : ByteMemory) (queue : Nat → Nat) : Nat → List Frame → Nat → Prop
  | pos, [], last => pos = last
  | pos, f :: fs, last => FrameAt memory queue pos f ∧ Frames memory queue (pos + f.length) fs last

variable {memory : ByteMemory} {queue : Nat → Nat}

theorem Frames.le : ∀ {fs : List Frame} {pos last : Nat}, Frames memory queue pos fs last → pos ≤ last
  | [], _, _, h => Nat.le_of_eq h
  | f :: _, pos, _, h => Nat.le_trans (Nat.le_add_right pos f.length) h.2.le

theorem Frames.append : ∀ {fs gs : List Frame} {pos mid last : Nat},
    Frames memory queue pos fs mid → Frames memory queue mid gs last →
      Frames memory queue pos (fs ++ gs) last
  | [], _, _, _, _, h, h' => by
    obtain rfl : _ = _ := h
    exact h'
  | _ :: _, _, _, _, _, h, h' => ⟨h.1, h.2.append h'⟩

theorem Frames.singleton {pos : Nat} {f : Frame} (h : FrameAt memory queue pos f) :
    Frames memory queue pos [f] (pos + f.length) :=
  ⟨h, rfl⟩

/-- No frames fit into no space. -/
theorem Frames.eq_nil {fs : List Frame} {pos : Nat} (h : Frames memory queue pos fs pos) :
    fs = [] := by
  cases fs with
  | nil => rfl
  | cons f fs =>
    have hle := h.2.le
    have := f.length_pos
    omega

/-- Entries of the slot queue in a window name different slots. -/
def DistinctSlots (queue : Nat → Nat) (lo hi : Nat) : Prop :=
  ∀ i j, lo ≤ i → i < hi → lo ≤ j → j < hi → slotAt queue i = slotAt queue j → i = j

/-- **Writing at the end leaves the frames alone.** -/
theorem Frames.store {lo hi w : Nat} {bytes : List UInt8} (hslots : DistinctSlots queue lo hi)
    (hw : w / vchiqSlotSize < hi) (hfit : w % vchiqSlotSize + bytes.length ≤ vchiqSlotSize) :
    ∀ {fs : List Frame} {pos last : Nat}, lo ≤ pos / vchiqSlotSize → last ≤ w →
      Frames memory queue pos fs last →
      Frames (store memory (addressOf queue w) bytes) queue pos fs last
  | [], _, _, _, _, h => h
  | f :: fs, pos, last, hlo, hlast, h => by
    have hle := h.2.le
    have hin := h.1.1
    have hlen := f.length_bytes_le
    have hpos := f.length_pos
    refine ⟨⟨hin, ?_⟩, Frames.store hslots hw hfit ?_ hlast h.2⟩
    · rw [load_store_disjoint _ ?_, h.1.2]
      by_cases hsame : pos / vchiqSlotSize = w / vchiqSlotSize
      · left
        simp only [addressOf, hsame]
        simp only [vchiqSlotSize] at *
        omega
      · have hne : slotAt queue (pos / vchiqSlotSize) ≠ slotAt queue (w / vchiqSlotSize) := by
          refine fun heq => hsame (hslots _ _ hlo ?_ ?_ hw heq)
          · simp only [vchiqSlotSize] at *
            omega
          · simp only [vchiqSlotSize] at *
            omega
        simp only [addressOf]
        simp only [vchiqSlotSize] at *
        omega
    · simp only [vchiqSlotSize] at *
      omega

/-- **Queueing a slot leaves the frames alone** when its entry is outside their window. -/
theorem Frames.requeue {queue' : Nat → Nat} {lo hi : Nat}
    (hsame : ∀ i, lo ≤ i → i < hi → slotAt queue' i = slotAt queue i) :
    ∀ {fs : List Frame} {pos last : Nat}, lo ≤ pos / vchiqSlotSize →
      (last + (vchiqSlotSize - 1)) / vchiqSlotSize ≤ hi →
      Frames memory queue pos fs last → Frames memory queue' pos fs last
  | [], _, _, _, _, h => h
  | f :: fs, pos, last, hlo, hlast, h => by
    have hle := h.2.le
    have hpos := f.length_pos
    have haddress : addressOf queue' pos = addressOf queue pos := by
      rw [addressOf, addressOf, hsame _ hlo]
      simp only [vchiqSlotSize] at *
      omega
    refine ⟨⟨h.1.1, by rw [haddress, h.1.2]⟩, Frames.requeue hsame ?_ hlast h.2⟩
    simp only [vchiqSlotSize] at *
    omega

/-! ## Reading a frame -/

/-- The fields of a frame as the reader loads them. -/
theorem FrameAt.fields {pos : Nat} {f : Frame} (h : FrameAt memory queue pos f) :
    load32 memory (addressOf queue pos) = f.msgId ∧
      load32 memory (addressOf queue pos + 4) = f.size ∧
      load memory (addressOf queue pos + vchiqHeaderSize) f.payload.length = f.payload := by
  have hsize : f.size ≤ 4088 := f.size_le
  obtain ⟨hheader, hpayload⟩ := load_of_load_append h.2
  obtain ⟨hid, hsz⟩ := load_of_load_append hheader
  refine ⟨?_, ?_, hpayload⟩
  · exact (congrArg decode32 hid).trans (decode32_encode32 f.msgId_lt)
  · exact (congrArg decode32 hsz).trans (decode32_encode32 (show f.size < 2 ^ 32 by omega))

/-- **A round of the reader** takes in the frame at its position. -/
theorem vchiqProcessRxMessage_eq {sh : SharedState} {rx : RxState} {r : Nat} {f : Frame}
    (hpos : rx.currentRxPos = r)
    (hslot : rx.masterCurrentSlot =
      if r % vchiqSlotSize = 0 then none else some (slotAt sh.slotQueue (r / vchiqSlotSize)))
    (hframe : FrameAt sh.memory sh.slotQueue r f) (hlt : r + f.length < ulongSize) :
    vchiqProcessRxMessage sh rx =
      { currentRxPos := r + f.length
        masterCurrentSlot :=
          if (r + f.length) % vchiqSlotSize = 0 then none
          else some (slotAt sh.slotQueue (r / vchiqSlotSize))
        received := rx.received ++ f.packet?.toList
        held := rx.held ++ if (r + f.length) % vchiqSlotSize = 0 then
          [slotAt sh.slotQueue (r / vchiqSlotSize)] else [] } := by
  obtain ⟨hid, hsize, hpayload⟩ := hframe.fields
  have hslot' : rx.masterCurrentSlot.getD (sh.slotQueue (slotQueueIndex rx.currentRxPos)) =
      slotAt sh.slotQueue (r / vchiqSlotSize) := by
    rw [hslot, hpos, slotQueueIndex_eq]
    split <;> rfl
  have haddress : vchiqGetHeaderByGlobalIndex (slotAt sh.slotQueue (r / vchiqSlotSize)) +
      slotOffset rx.currentRxPos = addressOf sh.slotQueue r := by
    rw [hpos, slotOffset_eq]
    rfl
  have hnext : addPos r f.length = r + f.length := Nat.mod_eq_of_lt hlt
  have hreceived : (if vchiqMsgType f.msgId = vchiqMsgPadding then rx.received
      else rx.received ++ [⟨f.msgId, f.size, load sh.memory
        (addressOf sh.slotQueue r + vchiqHeaderSize) f.size⟩]) =
      rx.received ++ f.packet?.toList := by
    unfold Frame.packet?
    by_cases hpad : vchiqMsgType f.msgId = vchiqMsgPadding
    · simp [hpad]
    · rw [f.whole hpad] at hpayload
      simp [hpad, hpayload]
  unfold vchiqProcessRxMessage
  simp only [hslot', haddress]
  simp only [hid, hsize, f.length_eq, hpos, hnext, hreceived, slotOffset_eq]
  split <;> simp

/-! ## The invariant -/

/-- Where a run stands: the positions `w` of the writer, `p` published and `r` of the reader, the
numbers `q` of slots queued and `a` of slots made available. -/
structure StreamInv (start : StreamStart) (messages : List Message) (s : StreamState)
    (w p r q a : Nat) : Prop where
  txPos : s.tx.currentTxPos = w % ulongSize
  published : s.shared.txPos = p % ulongSize
  rxPos : s.rx.currentRxPos = r
  r_lt : r < ulongSize
  queued : s.shared.slotQueueRecycle = q % ulongSize
  acked : s.tx.recycleTxSlotIndex = a % ulongSize
  aligned : 8 ∣ w
  /-- the slots begun by the writer and the available ones -/
  available : s.tx.availableTxSlot + (w + (vchiqSlotSize - 1)) / vchiqSlotSize = a
  a_le : a ≤ q
  /-- each slot is in the window or held by the reader -/
  slots : ((List.range' (r / vchiqSlotSize) (q - r / vchiqSlotSize)).map
    (slotAt s.shared.slotQueue) ++ s.rx.held).Perm start.slots
  txSlot : w % vchiqSlotSize ≠ 0 → s.tx.slaveCurrentSlot =
    slotAt s.shared.slotQueue (w / vchiqSlotSize) * vchiqSlotSize
  rxSlot : s.rx.masterCurrentSlot = if r % vchiqSlotSize = 0 then none
    else some (slotAt s.shared.slotQueue (r / vchiqSlotSize))
  /-- frames to read and unpublished padding -/
  frames : ∃ fs gs, Frames s.shared.memory s.shared.slotQueue r fs p ∧
    Frames s.shared.memory s.shared.slotQueue p gs w ∧ gs.filterMap Frame.packet? = [] ∧
    s.rx.received ++ fs.filterMap Frame.packet? ++ s.toWrite.map Message.packet =
      messages.map Message.packet
  ends : streamEnd w s.toWrite = streamEnd start.pos messages
  last : s.toWrite = [] → p = w

variable {start : StreamStart} {messages : List Message} {s : StreamState} {w p r q a : Nat}

theorem StreamInv.order (h : StreamInv start messages s w p r q a) : r ≤ p ∧ p ≤ w := by
  obtain ⟨fs, gs, hfs, hgs, -⟩ := h.frames
  exact ⟨hfs.le, hgs.le⟩

/-- The window has room for one more entry when a slot is held. -/
theorem StreamInv.window (h : StreamInv start messages s w p r q a) :
    r / vchiqSlotSize ≤ q ∧
      q - r / vchiqSlotSize + s.rx.held.length ≤ vchiqMaxSlotsPerSide := by
  obtain ⟨hrp, hpw⟩ := h.order
  have hlen := h.slots.length_eq
  have hcount := start.slotCount_le
  have ha := h.available
  have hq := h.a_le
  simp only [StreamStart.slots, List.length_append, List.length_map, List.length_range'] at hlen
  simp only [vchiqSlotSize] at *
  omega

theorem StreamInv.distinct (h : StreamInv start messages s w p r q a) :
    DistinctSlots s.shared.slotQueue (r / vchiqSlotSize) q := by
  have hnodup : ((List.range' (r / vchiqSlotSize) (q - r / vchiqSlotSize)).map
      (slotAt s.shared.slotQueue)).Nodup :=
    (List.nodup_append.1 (h.slots.nodup_iff.2 start.distinct)).1
  intro i j hi hi' hj hj' heq
  refine List.inj_on_of_nodup_map hnodup (List.mem_range'_1.2 ?_) (List.mem_range'_1.2 ?_) heq
  · omega
  · omega

/-- The loop condition of the reader, in terms of the positions. -/
theorem StreamInv.rxPending_iff (h : StreamInv start messages s w p r q a) :
    rxPending s.shared s.rx = true ↔ p < ulongSize ∧ r < p := by
  obtain ⟨hrp, hpw⟩ := h.order
  obtain ⟨hrq, hwindow⟩ := h.window
  have ha := h.available
  have hq := h.a_le
  have hr := h.r_lt
  rw [rxPending, decide_eq_true_iff, h.rxPos, h.published]
  -- the writer is at most 64 slots ahead, so a wrapped position is behind the reader
  have hahead : p ≤ r + 65 * 4096 := by
    simp only [vchiqSlotSize, vchiqMaxSlotsPerSide] at *
    omega
  simp only [ulongSize] at *
  omega

/-! ## The reader's steps -/

/-- **A round of the reader** moves on over one frame. -/
theorem StreamInv.read (h : StreamInv start messages s w p r q a)
    (hpending : rxPending s.shared s.rx = true) :
    ∃ r', r < r' ∧ r' ≤ p ∧ StreamInv start messages
      { s with rx := vchiqProcessRxMessage s.shared s.rx } w p r' q a := by
  obtain ⟨hplt, hrp⟩ := h.rxPending_iff.1 hpending
  obtain ⟨fs, gs, hfs, hgs, hpad, hall⟩ := h.frames
  cases fs with
  | nil =>
    obtain rfl : r = p := hfs
    omega
  | cons f fs =>
    have hle := hfs.2.le
    have hpos := f.length_pos
    have hin := hfs.1.1
    obtain ⟨hrq, -⟩ := h.window
    obtain ⟨-, hpw⟩ := h.order
    have hcount := h.available
    have haq := h.a_le
    rw [vchiqProcessRxMessage_eq h.rxPos h.rxSlot hfs.1 (by omega)]
    refine ⟨r + f.length, by omega, hle, { h with
      rxPos := rfl
      r_lt := by omega
      slots := ?_
      rxSlot := ?_
      frames := ?_ }⟩
    · by_cases hend : (r + f.length) % vchiqSlotSize = 0
      · -- the slot moves from the window to the slots held
        have hdiv : (r + f.length) / vchiqSlotSize = r / vchiqSlotSize + 1 := by
          simp only [vchiqSlotSize] at *
          omega
        have hwindow : q - r / vchiqSlotSize = q - (r / vchiqSlotSize + 1) + 1 := by
          simp only [vchiqSlotSize] at *
          omega
        have hslots := h.slots
        rw [hwindow, List.range'_succ, List.map_cons, List.cons_append] at hslots
        simp only [if_pos hend, hdiv]
        rw [← List.append_assoc]
        exact (List.perm_append_singleton _ _).trans hslots
      · have hdiv : (r + f.length) / vchiqSlotSize = r / vchiqSlotSize := by
          simp only [vchiqSlotSize] at *
          omega
        simp only [if_neg hend, List.append_nil, hdiv]
        exact h.slots
    · by_cases hend : (r + f.length) % vchiqSlotSize = 0
      · simp only [if_pos hend]
      · have hdiv : (r + f.length) / vchiqSlotSize = r / vchiqSlotSize := by
          simp only [vchiqSlotSize] at *
          omega
        simp only [if_neg hend, hdiv]
    · refine ⟨fs, gs, hfs.2, hgs, hpad, ?_⟩
      rw [← hall]
      cases hf : f.packet? <;> simp [hf]

/-- **A slot is queued again**: the window grows at its end. -/
theorem StreamInv.recycle (h : StreamInv start messages s w p r q a) {slot : Nat}
    (hslot : slot ∈ s.rx.held) :
    StreamInv start messages { s with
      shared := requeueSlot s.shared slot
      rx := { s.rx with held := s.rx.held.erase slot } } w p r (q + 1) a := by
  obtain ⟨hrq, hwindow⟩ := h.window
  obtain ⟨hrp, hpw⟩ := h.order
  have hheld := List.length_pos_of_mem hslot
  have hcount := h.available
  have haq := h.a_le
  have hindex : s.shared.slotQueueRecycle &&& vchiqSlotQueueMask = q % vchiqMaxSlotsPerSide := by
    rw [h.queued, show (q % ulongSize) &&& vchiqSlotQueueMask = q % ulongSize % 64 from
      Nat.and_two_pow_sub_one_eq_mod _ 6]
    simp only [ulongSize, vchiqMaxSlotsPerSide]
    omega
  -- one entry is new, and those in use stay
  have hnew : slotAt (requeueSlot s.shared slot).slotQueue q = slot := by
    simp only [slotAt, requeueSlot, hindex, Function.update_self]
  have hsame : ∀ i, r / vchiqSlotSize ≤ i → i < q →
      slotAt (requeueSlot s.shared slot).slotQueue i = slotAt s.shared.slotQueue i := by
    intro i hlo hhi
    simp only [slotAt, requeueSlot, hindex]
    refine Function.update_of_ne ?_ _ _
    simp only [vchiqMaxSlotsPerSide, vchiqSlotSize] at *
    omega
  refine { h with
    queued := ?_
    a_le := by omega
    slots := ?_
    txSlot := ?_
    rxSlot := ?_
    frames := ?_ }
  · show addPos s.shared.slotQueueRecycle 1 = (q + 1) % ulongSize
    rw [addPos, h.queued, Nat.mod_add_mod]
  · have hgrow : q + 1 - r / vchiqSlotSize = q - r / vchiqSlotSize + 1 := by omega
    have hlast : r / vchiqSlotSize + 1 * (q - r / vchiqSlotSize) = q := by omega
    have hmap : (List.range' (r / vchiqSlotSize) (q - r / vchiqSlotSize)).map
        (slotAt (requeueSlot s.shared slot).slotQueue) =
        (List.range' (r / vchiqSlotSize) (q - r / vchiqSlotSize)).map
          (slotAt s.shared.slotQueue) := by
      refine List.map_congr_left fun i hi => ?_
      obtain ⟨hlo, hhi⟩ := List.mem_range'_1.1 hi
      exact hsame i hlo (by omega)
    rw [hgrow, List.range'_concat, hlast, List.map_append, hmap, List.map_singleton, hnew,
      List.append_assoc]
    exact ((List.perm_cons_erase hslot).symm.append_left _).trans h.slots
  · intro hw
    rw [h.txSlot hw, hsame]
    · simp only [vchiqSlotSize] at *
      omega
    · simp only [vchiqSlotSize] at *
      omega
  · rw [h.rxSlot]
    split
    · rfl
    · rw [hsame _ (Nat.le_refl _)]
      simp only [vchiqSlotSize] at *
      omega
  · obtain ⟨fs, gs, hfs, hgs, hrest⟩ := h.frames
    have hhi : (w + (vchiqSlotSize - 1)) / vchiqSlotSize ≤ q := by omega
    refine ⟨fs, gs, hfs.requeue hsame (Nat.le_refl _) ?_, hgs.requeue hsame ?_ hhi, hrest⟩
    · simp only [vchiqSlotSize] at *
      omega
    · simp only [vchiqSlotSize] at *
      omega

/-- **A queued slot becomes available.** -/
theorem StreamInv.replenish (h : StreamInv start messages s w p r q a)
    (hne : s.tx.recycleTxSlotIndex ≠ s.shared.slotQueueRecycle) :
    StreamInv start messages { s with tx := vchiqRecycleTxSlot s.tx } w p r q (a + 1) := by
  have haq := h.a_le
  have hcount := h.available
  have hlt : a < q := by
    refine lt_of_le_of_ne haq fun heq => hne ?_
    rw [h.acked, h.queued, heq]
  refine { h with acked := ?_, available := ?_, a_le := hlt, txSlot := h.txSlot }
  · show addPos s.tx.recycleTxSlotIndex 1 = (a + 1) % ulongSize
    rw [addPos, h.acked, Nat.mod_add_mod]
  · show s.tx.availableTxSlot + 1 + _ = a + 1
    omega

/-! ## The writer's step -/

theorem writeHeader_eq (m : ByteMemory) (header msgId size : Nat) :
    writeHeader m header msgId size = store m header (encode32 msgId ++ encode32 size) :=
  store_append m header (encode32 msgId) (encode32 size)

/-- A message written to memory is its frame. -/
theorem store_message (m : ByteMemory) (header : Nat) (message : Message) :
    store (writeHeader m header message.msgId message.payload.length) (header + vchiqHeaderSize)
      message.payload = store m header message.frame.bytes := by
  rw [writeHeader_eq]
  exact store_append m header (encode32 _ ++ encode32 _) message.payload

theorem Message.length_eq (m : Message) :
    vchiqGetSlotAlignSize (vchiqHeaderSize + m.payload.length) = m.frame.length := by
  have hsize : m.payload.length ≤ 4088 := m.size_le
  rw [Nat.add_comm, vchiqGetSlotAlignSize_eq (show m.payload.length + 8 + 7 < 2 ^ 32 by omega)]
  rfl

theorem Message.length_le (m : Message) : m.frame.length ≤ vchiqSlotSize := by
  have hsize : m.payload.length ≤ 4088 := m.size_le
  show (m.payload.length + 8 + 7) / 8 * 8 ≤ 4096
  omega

theorem paddingFrame_length {size : Nat} (hle : size ≤ vchiqMaxMsgSize) (h8 : 8 ∣ size) :
    (paddingFrame size hle).length = size + 8 := by
  have heq : (paddingFrame size hle).length = (size + 8 + 7) / 8 * 8 := rfl
  omega

theorem paddingFrame_packet? {size : Nat} (hle : size ≤ vchiqMaxMsgSize) :
    (paddingFrame size hle).packet? = none :=
  if_pos (show vchiqMsgType vchiqMsgIdPadding = vchiqMsgPadding from rfl)

/-- The end of a message is the same from the next slot on when it does not fit. -/
theorem messageEnd_pad {pos : Nat} (size : Nat)
    (hfit : vchiqSlotSize < pos % vchiqSlotSize + (size + vchiqHeaderSize + 7) / 8 * 8)
    (hle : (size + vchiqHeaderSize + 7) / 8 * 8 ≤ vchiqSlotSize) :
    messageEnd (pos + (vchiqSlotSize - pos % vchiqSlotSize)) size = messageEnd pos size := by
  simp only [messageEnd]
  simp only [vchiqSlotSize, vchiqHeaderSize] at *
  rw [if_pos (by omega), if_neg (by omega)]
  omega

theorem messageEnd_fits {pos : Nat} {m : Message}
    (hfit : pos % vchiqSlotSize + m.frame.length ≤ vchiqSlotSize) :
    messageEnd pos m.payload.length = pos + m.frame.length :=
  if_pos hfit

/-- **Padding the slot** when the next message does not fit. -/
theorem StreamInv.pad (h : StreamInv start messages s w p r q a) {m : Message}
    {rest : List Message} (hnext : s.toWrite = m :: rest) :
    ∃ w', w' % vchiqSlotSize + m.frame.length ≤ vchiqSlotSize ∧
      StreamInv start messages { s with
        shared := (padTxSlot s.shared s.tx m.frame.length).1
        tx := (padTxSlot s.shared s.tx m.frame.length).2 } w' p r q a := by
  have hoffset : slotOffset s.tx.currentTxPos = w % vchiqSlotSize := by
    rw [h.txPos, slotOffset_eq]
    simp only [ulongSize, vchiqSlotSize]
    omega
  have hmle := m.length_le
  by_cases hfit : w % vchiqSlotSize + m.frame.length ≤ vchiqSlotSize
  · have hpad : padTxSlot s.shared s.tx m.frame.length = (s.shared, s.tx) := by
      simp only [padTxSlot, hoffset]
      rw [if_neg (by omega)]
    exact ⟨w, hfit, by rw [hpad]; exact h⟩
  -- the slot is filled with the header of padding
  have hw : w % vchiqSlotSize ≠ 0 := by omega
  have h8 := h.aligned
  have hcount := h.available
  have haq := h.a_le
  obtain ⟨hrp, hpw⟩ := h.order
  have hlt : w % vchiqSlotSize < vchiqSlotSize := Nat.mod_lt _ (by decide)
  have havail : 8 ≤ vchiqSlotSize - w % vchiqSlotSize := by
    simp only [vchiqSlotSize] at *
    omega
  let pad := paddingFrame (vchiqSlotSize - w % vchiqSlotSize - vchiqHeaderSize)
    (Nat.sub_le_sub_right (Nat.sub_le ..) _)
  have hlength : pad.length = vchiqSlotSize - w % vchiqSlotSize := by
    refine (paddingFrame_length _ ?_).trans ?_
    · simp only [vchiqSlotSize, vchiqHeaderSize] at *
      omega
    · simp only [vchiqSlotSize, vchiqHeaderSize] at *
      omega
  have hheader : vchiqGetCurrentTxHeader s.tx = addressOf s.shared.slotQueue w := by
    rw [vchiqGetCurrentTxHeader, hoffset, h.txSlot hw]
    rfl
  have hpad : padTxSlot s.shared s.tx m.frame.length =
      ({ s.shared with
        memory := store s.shared.memory (addressOf s.shared.slotQueue w) pad.bytes },
       { s.tx with currentTxPos := (w + pad.length) % ulongSize }) := by
    simp only [padTxSlot, hoffset, hheader, writeHeader_eq]
    rw [if_pos (by omega), addPos, h.txPos, Nat.mod_add_mod, hlength]
    rfl
  have hfits : w % vchiqSlotSize + pad.bytes.length ≤ vchiqSlotSize := by
    have := pad.length_bytes_le
    omega
  have hwq : w / vchiqSlotSize < q := by
    simp only [vchiqSlotSize] at *
    omega
  have hnext' : (w + pad.length) % vchiqSlotSize = 0 := by
    rw [hlength]
    simp only [vchiqSlotSize] at *
    omega
  refine ⟨w + pad.length, by rw [hnext']; omega, ?_⟩
  rw [hpad]
  refine { h with
    txPos := rfl
    aligned := Nat.dvd_add h8 pad.aligned
    available := ?_
    txSlot := fun hne => absurd hnext' hne
    frames := ?_
    ends := ?_
    last := fun hnil => absurd (hnil ▸ hnext) nofun }
  · rw [← hcount, hlength]
    simp only [vchiqSlotSize] at *
    omega
  · obtain ⟨fs, gs, hfs, hgs, hpads, hall⟩ := h.frames
    have hrp' : r / vchiqSlotSize ≤ p / vchiqSlotSize := Nat.div_le_div_right hrp
    refine ⟨fs, gs ++ [pad], hfs.store h.distinct hwq hfits (Nat.le_refl _) hpw,
      (hgs.store h.distinct hwq hfits hrp' (Nat.le_refl _)).append (.singleton ⟨?_, ?_⟩), ?_, hall⟩
    · omega
    · exact load_store_same ..
    · simp [hpads, pad, paddingFrame_packet?]
  · rw [← h.ends, hnext, hlength, streamEnd, streamEnd, List.foldl_cons, List.foldl_cons,
      messageEnd_pad m.payload.length (Nat.lt_of_not_le hfit) hmle]

/-- What the writer has when space is acquired for a message that fits. -/
structure TxReady (s : StreamState) (tx : TxState) (w length a : Nat) : Prop where
  pos : tx.currentTxPos = w % ulongSize
  slot : tx.slaveCurrentSlot =
    slotAt s.shared.slotQueue (w / vchiqSlotSize) * vchiqSlotSize
  acked : tx.recycleTxSlotIndex = a % ulongSize
  available : tx.availableTxSlot + (w + length + (vchiqSlotSize - 1)) / vchiqSlotSize = a

/-- **Taking the next slot** at the end of the previous one. -/
theorem StreamInv.nextSlot (h : StreamInv start messages s w p r q a) {length : Nat}
    (hfit : w % vchiqSlotSize + length ≤ vchiqSlotSize) (hpos : 0 < length) {stopped : Bool}
    {tx : TxState} (hok : nextTxSlot s.shared s.tx stopped = .ok tx) :
    TxReady s tx w length a := by
  have hcount := h.available
  have hoffset : slotOffset s.tx.currentTxPos = w % vchiqSlotSize := by
    rw [h.txPos, slotOffset_eq]
    simp only [ulongSize, vchiqSlotSize]
    omega
  have hindex : slotQueueIndex s.tx.currentTxPos = w / vchiqSlotSize % vchiqMaxSlotsPerSide := by
    rw [h.txPos, slotQueueIndex_eq]
    simp only [ulongSize, vchiqSlotSize, vchiqMaxSlotsPerSide]
    omega
  simp only [nextTxSlot, hoffset] at hok
  by_cases hw : w % vchiqSlotSize = 0
  · rw [if_pos hw] at hok
    by_cases hnone : s.tx.availableTxSlot = 0
    · simp [hnone] at hok
    · rw [if_neg hnone] at hok
      obtain rfl := Except.ok.inj hok
      refine ⟨h.txPos, ?_, h.acked, ?_⟩
      · simp only [vchiqGetHeaderByGlobalIndex, vchiqGetNextTxSlotIndex, hindex]
        rfl
      · show s.tx.availableTxSlot - 1 + _ = a
        simp only [vchiqSlotSize] at *
        omega
  · rw [if_neg hw] at hok
    obtain rfl := Except.ok.inj hok
    refine ⟨h.txPos, h.txSlot hw, h.acked, ?_⟩
    simp only [vchiqSlotSize] at *
    omega

/-- **Putting a message** in the space acquired for it, and publishing it. -/
theorem StreamInv.put (h : StreamInv start messages s w p r q a) {m : Message}
    {rest : List Message} (hnext : s.toWrite = m :: rest)
    (hfit : w % vchiqSlotSize + m.frame.length ≤ vchiqSlotSize) {tx : TxState}
    (hready : TxReady s tx w m.frame.length a) :
    StreamInv start messages { s with
      shared := { s.shared with
        memory := store s.shared.memory (addressOf s.shared.slotQueue w) m.frame.bytes
        txPos := (w + m.frame.length) % ulongSize }
      tx := { tx with currentTxPos := (w + m.frame.length) % ulongSize }
      toWrite := rest } (w + m.frame.length) (w + m.frame.length) r q a := by
  have hpos := m.frame.length_pos
  have hcount := hready.available
  have haq := h.a_le
  obtain ⟨hrp, hpw⟩ := h.order
  have hwq : w / vchiqSlotSize < q := by
    simp only [vchiqSlotSize] at *
    omega
  have hfits : w % vchiqSlotSize + m.frame.bytes.length ≤ vchiqSlotSize := by
    have := m.frame.length_bytes_le
    omega
  refine { h with
    txPos := rfl
    published := rfl
    acked := hready.acked
    aligned := Nat.dvd_add h.aligned m.frame.aligned
    available := hcount
    txSlot := fun hne => ?_
    frames := ?_
    ends := ?_
    last := fun _ => rfl }
  · have hdiv : (w + m.frame.length) / vchiqSlotSize = w / vchiqSlotSize := by
      simp only [vchiqSlotSize] at *
      omega
    rw [hdiv]
    exact hready.slot
  · obtain ⟨fs, gs, hfs, hgs, hpads, hall⟩ := h.frames
    have hrp' : r / vchiqSlotSize ≤ p / vchiqSlotSize := Nat.div_le_div_right hrp
    refine ⟨fs ++ (gs ++ [m.frame]), [], ?_, rfl, rfl, ?_⟩
    · refine (hfs.store h.distinct hwq hfits (Nat.le_refl _) hpw).append
        ((hgs.store h.distinct hwq hfits hrp' (Nat.le_refl _)).append (.singleton ⟨hfit, ?_⟩))
      exact load_store_same ..
    · rw [← hall, hnext]
      simp [hpads]
  · rw [← h.ends, hnext, streamEnd, streamEnd, List.foldl_cons, messageEnd_fits hfit]

/-- **A write**, successful or not, keeps the invariant. -/
theorem StreamInv.write (h : StreamInv start messages s w p r q a) {stopped : Bool}
    {s' : StreamState} (hstep : streamStep s (.write stopped) = some s') :
    ∃ w' p', StreamInv start messages s' w' p' r q a := by
  unfold streamStep at hstep
  cases hnext : s.toWrite with
  | nil => simp [hnext] at hstep
  | cons m rest =>
    obtain ⟨w', hfit, hpad⟩ := h.pad hnext
    simp only [hnext, vchiqQueueMessageAsync, vchiqAcquireTxSpace, m.length_eq] at hstep
    generalize padTxSlot s.shared s.tx m.frame.length = padded at hpad hstep
    cases hslot : nextTxSlot padded.1 padded.2 stopped with
    | error e =>
      simp only [hslot] at hstep
      obtain rfl := Option.some.inj hstep
      exact ⟨w', p, by rw [← hnext]; exact hpad⟩
    | ok tx =>
      have hready := hpad.nextSlot hfit m.frame.length_pos hslot
      simp only [hslot] at hstep
      obtain rfl := Option.some.inj hstep
      have hheader : vchiqGetCurrentTxHeader tx = addressOf padded.1.slotQueue w' := by
        rw [vchiqGetCurrentTxHeader, hready.slot, hready.pos, slotOffset_eq, addressOf]
        simp only [ulongSize, vchiqSlotSize]
        omega
      have hend : addPos tx.currentTxPos m.frame.length = (w' + m.frame.length) % ulongSize := by
        rw [addPos, hready.pos, Nat.mod_add_mod]
      refine ⟨w' + m.frame.length, w' + m.frame.length, ?_⟩
      rw [store_message, hheader, hend]
      exact hpad.put hnext hfit hready

/-! ## Runs -/

theorem streamInv_start (start : StreamStart) (messages : List Message) :
    StreamInv start messages (start.state messages) start.pos start.pos start.pos
      (start.pos / vchiqSlotSize + start.slotCount)
      (start.pos / vchiqSlotSize + start.slotCount) where
  txPos := (Nat.mod_eq_of_lt start.pos_lt).symm
  published := (Nat.mod_eq_of_lt start.pos_lt).symm
  rxPos := rfl
  r_lt := start.pos_lt
  queued := rfl
  acked := rfl
  aligned := start.aligned
  available := by
    have hcount := start.slotCount_pos
    simp only [StreamStart.state, slotOffset_eq]
    split
    · simp only [vchiqSlotSize]
      omega
    · simp only [vchiqSlotSize]
      omega
  a_le := Nat.le_refl _
  slots := by
    rw [Nat.add_sub_cancel_left]
    exact (List.append_nil _).symm ▸ List.Perm.refl _
  txSlot := fun _ => by
    simp only [StreamStart.state, slotQueueIndex_eq]
    rfl
  rxSlot := by
    simp only [StreamStart.state, slotOffset_eq, slotQueueIndex_eq]
    by_cases hbegun : start.pos % vchiqSlotSize = 0
    · rw [if_pos hbegun, if_neg (not_not.2 hbegun)]
    · rw [if_neg hbegun, if_pos hbegun]
      rfl
  frames := ⟨[], [], rfl, rfl, rfl, rfl⟩
  ends := rfl
  last := fun _ => rfl

/-- **The invariant of every run.** -/
theorem streamInv_reach (h : (streamMachine start messages).Reachable s) :
    ∃ w p r q a, StreamInv start messages s w p r q a := by
  refine h.inv (P := fun s => ∃ w p r q a, StreamInv start messages s w p r q a) ?_ ?_
  · rintro s rfl
    exact ⟨_, _, _, _, _, streamInv_start start messages⟩
  · rintro s act s' ⟨w, p, r, q, a, hinv⟩ - hstep
    cases act with
    | write stopped =>
      obtain ⟨w', p', hinv'⟩ := hinv.write hstep
      exact ⟨w', p', r, q, a, hinv'⟩
    | read =>
      obtain ⟨hpending, hs'⟩ : rxPending s.shared s.rx = true ∧ _ = s' := by
        simpa [streamMachine, streamStep] using hstep
      obtain ⟨r', -, -, hinv'⟩ := hinv.read hpending
      exact ⟨w, p, r', q, a, hs' ▸ hinv'⟩
    | recycle slot =>
      obtain ⟨hslot, hs'⟩ : slot ∈ s.rx.held ∧ _ = s' := by
        simpa [streamMachine, streamStep] using hstep
      exact ⟨w, p, r, q + 1, a, hs' ▸ hinv.recycle hslot⟩
    | replenish =>
      obtain ⟨hne, hs'⟩ : s.tx.recycleTxSlotIndex ≠ s.shared.slotQueueRecycle ∧ _ = s' := by
        simpa [streamMachine, streamStep] using hstep
      exact ⟨w, p, r, q, a + 1, hs' ▸ hinv.replenish hne⟩

/-- **The reader's loop ends**, with nothing pending. -/
theorem StreamInv.processRxSlot (h : StreamInv start messages s w p r q a) :
    ∃ fuel rx r', vchiqProcessRxSlot s.shared fuel s.rx = some rx ∧
      rxPending s.shared rx = false ∧ StreamInv start messages { s with rx := rx } w p r' q a := by
  -- the distance to the published position decreases
  induction hn : p - r using Nat.strong_induction_on generalizing s r with
  | _ n ih =>
    by_cases hpending : rxPending s.shared s.rx = true
    · obtain ⟨r', hlt, hle, hinv⟩ := h.read hpending
      obtain ⟨fuel, rx, r'', hrun, hdone, hinv'⟩ := ih (p - r') (by omega) hinv rfl
      refine ⟨fuel + 1, rx, r'', ?_, hdone, hinv'⟩
      simp only [vchiqProcessRxSlot, hpending, if_true]
      exact hrun
    · refine ⟨0, s.rx, r, ?_, by simpa using hpending, h⟩
      simp only [vchiqProcessRxSlot, hpending]
      rfl

/-- **The stream**: when all messages are written, the loop of the reader ends, and then the reader
has received them all and stands where the writer does exactly when the stream ends below
`2 ^ 32`. -/
theorem stream_iff (h : (streamMachine start messages).Reachable s) (hall : s.toWrite = []) :
    ∃ fuel rx, vchiqProcessRxSlot s.shared fuel s.rx = some rx ∧
      (rx.received = messages.map Message.packet ∧ rx.currentRxPos = s.tx.currentTxPos ↔
        streamEnd start.pos messages < ulongSize) := by
  obtain ⟨w, p, r, q, a, hinv⟩ := streamInv_reach h
  obtain ⟨fuel, rx, r', hrun, hdone, hinv'⟩ := hinv.processRxSlot
  refine ⟨fuel, rx, hrun, ?_⟩
  obtain rfl : p = w := hinv'.last hall
  have hend : p = streamEnd start.pos messages := by
    rw [← hinv'.ends]
    simp only [hall]
    rfl
  have hpos : rx.currentRxPos = r' := hinv'.rxPos
  have htx : s.tx.currentTxPos = p % ulongSize := hinv'.txPos
  have hpending : ¬ (p < ulongSize ∧ r' < p) := by
    rw [← hinv'.rxPending_iff]
    simpa using hdone
  obtain ⟨hrp, -⟩ := hinv'.order
  have hr := hinv'.r_lt
  rw [← hend, hpos, htx]
  constructor
  · rintro ⟨-, heq⟩
    obtain ⟨hrq, hwindow⟩ := hinv'.window
    have hcount := hinv'.available
    have haq := hinv'.a_le
    simp only [vchiqSlotSize, vchiqMaxSlotsPerSide, ulongSize] at *
    omega
  · intro hlt
    obtain rfl : r' = p := by omega
    obtain ⟨fs, gs, hfs, -, -, hmessages⟩ := hinv'.frames
    obtain rfl := hfs.eq_nil
    refine ⟨?_, (Nat.mod_eq_of_lt hlt).symm⟩
    simpa [hall] using hmessages

/-- The stream of the driver's start, at any position: 31 slots from slot 34 on. -/
def driverStart (pos : Nat) (pos_lt : pos < ulongSize) (aligned : 8 ∣ pos)
    (distinct : ((List.range' (pos / vchiqSlotSize) 31).map fun i =>
      34 + i % vchiqMaxSlotsPerSide).Nodup) : StreamStart where
  pos := pos
  pos_lt := pos_lt
  aligned := aligned
  memory := fun _ => 0
  slotQueue := fun i => 34 + i
  slotCount := 31
  slotCount_pos := by decide
  slotCount_le := by decide
  distinct := distinct

def emptyMessage : Message := ⟨5 <<< 24, [], by decide, by decide, by decide⟩

def twoBytes : Message := ⟨5 <<< 24, [0xAB, 0xCD], by decide, by decide, by decide⟩

/-- The stream from 16 bytes before the end of a slot on. The second message does not fit behind the
first one: the slot is padded, and the message is in the next one. -/
def writtenStart : StreamStart := driverStart 4080 (by decide) (by decide) (by decide)

def written : StreamState :=
  ((streamMachine writtenStart [emptyMessage, twoBytes]).exec
    (writtenStart.state [emptyMessage, twoBytes]) [.write false, .read, .write false]).get (by rfl)

theorem stream_iff_written :
    written.tx.currentTxPos = 4112 ∧
      ∃ fuel rx, vchiqProcessRxSlot written.shared fuel written.rx = some rx ∧
        (rx.received = [emptyMessage, twoBytes].map Message.packet ∧
          rx.currentRxPos = written.tx.currentTxPos ↔
          streamEnd writtenStart.pos [emptyMessage, twoBytes] < ulongSize) :=
  ⟨rfl, stream_iff
    ((streamMachine _ _).reach_exec_get [.write false, .read, .write false] rfl (by rfl)) rfl⟩

/-- The last 8 bytes of the positions. -/
def wrapStart : StreamStart := driverStart 4294967288 (by decide) (by decide) (by decide)

/-- **A message that ends at `2 ^ 32` is never seen**: the published position is 0, the reader
does not move, and the message is not received. -/
theorem wrap_lost :
    ∃ s, (streamMachine wrapStart [emptyMessage]).Reachable s ∧ s.toWrite = [] ∧
      s.shared.txPos = 0 ∧ vchiqProcessRxSlot s.shared 0 s.rx = some s.rx ∧
      s.rx.received ≠ [emptyMessage].map Message.packet ∧
      s.rx.currentRxPos ≠ s.tx.currentTxPos := by
  refine ⟨_, (streamMachine _ _).reach_exec_get (s := wrapStart.state [emptyMessage])
    [.write false] rfl (by rfl), rfl, rfl, rfl, ?_, ?_⟩
  · exact (List.cons_ne_nil _ _).symm
  · decide

end RpiDrivers.Vchiq
