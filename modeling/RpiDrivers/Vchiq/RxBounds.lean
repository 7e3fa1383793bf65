import RpiDrivers.Vchiq.QueueMessage

/-!
# The receive loop on any memory (`slots.c`)

`VchiqProcessRxSlot` takes the sizes of messages from memory that VC writes. It advances by the
size, rounded up, as a `ULONG`, and hands the header of a message on, with a payload of that size.
Each round may find another content of the slots, another position of VC and other clients.

- `RxSound`: the loop ends, each of its rounds advances by at least 8 bytes, and what is read is
  inside the slot.
- `rxSound_iff`: **this holds exactly when** all rounds that the loop comes to meet `RxRoundOk`.
- `endless`: a size that wraps to nothing.
-/

namespace RpiDrivers.Vchiq

open RpiDrivers.Lib

/-! ## The loop -/

/-- What a round finds: the shared memory, the ports that are open, and whether there is a request
that waits for a bulk transfer of the port. -/
structure RxView where
  shared : SharedState
  opened : Nat → Bool
  retrieved : Bool

/-- `VCHIQ_MSG_DSTPORT` -/
def vchiqMsgDstport (msgId : Nat) : Nat := msgId &&& 0xfff

namespace RxView

variable (v : RxView) (rx : RxState)

/-- The slot of the round. -/
def slot : Nat := rx.masterCurrentSlot.getD (v.shared.slotQueue (slotQueueIndex rx.currentRxPos))

/-- `VCHIQ_GET_CURRENT_RX_HEADER` -/
def header : Nat := vchiqGetHeaderByGlobalIndex (v.slot rx) + slotOffset rx.currentRxPos

def msgId : Nat := load32 v.shared.memory (v.header rx)

def size : Nat := load32 v.shared.memory (v.header rx + 4)

/-- A bulk is done on an open port, and its request is retrieved. -/
def BulkDone : Prop :=
  (vchiqMsgType (v.msgId rx) = vchiqMsgBulkTxDone ∨
    vchiqMsgType (v.msgId rx) = vchiqMsgBulkRxDone) ∧
      v.opened (vchiqMsgDstport (v.msgId rx)) = true ∧ v.retrieved = true

/-- Data has come for an open port. Data without length is ignored. -/
def Data : Prop :=
  vchiqMsgType (v.msgId rx) = vchiqMsgData ∧
    v.opened (vchiqMsgDstport (v.msgId rx)) = true ∧ v.size rx ≠ 0

instance : Decidable (v.BulkDone rx) := inferInstanceAs (Decidable (_ ∧ _))

instance : Decidable (v.Data rx) := inferInstanceAs (Decidable (_ ∧ _))

/-- What is read: the header, `*respondMsg` of a bulk that is done, and the payload of a message
that `VchiqProcessNewRxMsg` gets. -/
def reads : List Extent :=
  ⟨v.header rx, vchiqHeaderSize⟩ ::
    if v.BulkDone rx then
      [⟨v.header rx + vchiqHeaderSize, 4⟩, ⟨v.header rx + vchiqHeaderSize, v.size rx⟩]
    else if v.Data rx then [⟨v.header rx + vchiqHeaderSize, v.size rx⟩]
    else []

/-- How far the round advances. -/
def advance : Nat := vchiqGetSlotAlignSize ((v.size rx + vchiqHeaderSize) % ulongSize)

end RxView

/-- The state after some rounds. -/
def rxAfter (views : Nat → RxView) (rx : RxState) : Nat → RxState
  | 0 => rx
  | n + 1 => vchiqProcessRxMessage (views n).shared (rxAfter views rx n)

/-- The loop of `VchiqProcessRxSlot` from a round on, at most `fuel` rounds; `none` when they do not
suffice. -/
def vchiqProcessRxSlotFrom (views : Nat → RxView) : (fuel round : Nat) → RxState → Option RxState
  | 0, round, rx => if rxPending (views round).shared rx then none else some rx
  | fuel + 1, round, rx =>
    if rxPending (views round).shared rx then
      vchiqProcessRxSlotFrom views fuel (round + 1) (vchiqProcessRxMessage (views round).shared rx)
    else some rx

/-- The loop comes to a round. -/
def ComesTo (views : Nat → RxView) (rx : RxState) (n : Nat) : Prop :=
  ∀ i ≤ n, rxPending (views i).shared (rxAfter views rx i) = true

/-! ## The property and the condition -/

/-- A round advances by at least 8 bytes, and reads inside its slot. -/
structure RxRoundSound (v : RxView) (rx : RxState) : Prop where
  advance : rx.currentRxPos + 8 ≤ (vchiqProcessRxMessage v.shared rx).currentRxPos
  confined : ∀ r ∈ v.reads rx, r.Inside ⟨vchiqGetHeaderByGlobalIndex (v.slot rx), vchiqSlotSize⟩

/-- The loop ends, and its rounds are sound. -/
structure RxSound (views : Nat → RxView) (rx : RxState) : Prop where
  ends : ∃ fuel, (vchiqProcessRxSlotFrom views fuel 0 rx).isSome = true
  rounds : ∀ n, ComesTo views rx n → RxRoundSound (views n) (rxAfter views rx n)

/-- The condition on a round: the size does not wrap to nothing when the header is added and the sum
rounded up, the position does not wrap, and a payload that is handed on, or `*respondMsg`, is not
longer than the rest of the slot. -/
structure RxRoundOk (v : RxView) (rx : RxState) : Prop where
  size : v.size rx < 2 ^ 32 - 15 ∨ 2 ^ 32 - 8 < v.size rx
  pos : rx.currentRxPos + v.advance rx < ulongSize
  bulk : v.BulkDone rx →
    slotOffset rx.currentRxPos + vchiqHeaderSize + max 4 (v.size rx) ≤ vchiqSlotSize
  data : v.Data rx → slotOffset rx.currentRxPos + vchiqHeaderSize + v.size rx ≤ vchiqSlotSize

/-! ## A round -/

theorem currentRxPos_process (v : RxView) (rx : RxState) :
    (vchiqProcessRxMessage v.shared rx).currentRxPos = addPos rx.currentRxPos (v.advance rx) := by
  unfold vchiqProcessRxMessage
  dsimp only
  split_ifs <;> rfl

/-- **A round advances** exactly when the size does not wrap to nothing. -/
theorem le_advance {v : RxView} {rx : RxState} :
    8 ≤ v.advance rx ↔ v.size rx < 2 ^ 32 - 15 ∨ 2 ^ 32 - 8 < v.size rx := by
  have hlt : v.size rx < 2 ^ 32 := decode32_lt (length_load ..)
  rw [RxView.advance, vchiqGetSlotAlignSize, and_alignMask (Nat.mod_lt _ (by decide))]
  simp only [vchiqHeaderSize, slotMsgSizeMaskAlign, slotMsgSizeAlign, ulongSize]
  omega

theorem advance_lt (v : RxView) (rx : RxState) : v.advance rx < ulongSize := by
  rw [RxView.advance, vchiqGetSlotAlignSize]
  exact Nat.lt_of_le_of_lt Nat.and_le_left (Nat.mod_lt _ (by decide))

/-- Where a message can begin. -/
structure Aligned (pos : Nat) : Prop where
  lt : pos < ulongSize
  dvd : slotMsgSizeAlign ∣ pos

theorem aligned_process {rx : RxState} (h : Aligned rx.currentRxPos) (v : RxView) :
    Aligned (vchiqProcessRxMessage v.shared rx).currentRxPos := by
  rw [currentRxPos_process]
  exact ⟨Nat.mod_lt _ (by decide), dvd_addPos h.dvd (dvd_vchiqGetSlotAlignSize _)⟩

theorem aligned_rxAfter (views : Nat → RxView) {rx : RxState} (h : Aligned rx.currentRxPos) :
    ∀ n, Aligned (rxAfter views rx n).currentRxPos
  | 0 => h
  | n + 1 => aligned_process (aligned_rxAfter views h n) (views n)

/-- **The position moves on as a number** exactly when neither the size nor the position wraps. -/
theorem advance_iff {v : RxView} {rx : RxState} (h : Aligned rx.currentRxPos) :
    rx.currentRxPos + 8 ≤ (vchiqProcessRxMessage v.shared rx).currentRxPos ↔
      8 ≤ v.advance rx ∧ rx.currentRxPos + v.advance rx < ulongSize := by
  have hlt := h.lt
  have hadvance := advance_lt v rx
  rw [currentRxPos_process, addPos]
  simp only [ulongSize] at *
  omega

/-- A piece of memory behind the header is inside the slot when it is not longer than the rest. -/
theorem inside_slot {v : RxView} {rx : RxState} {length : Nat} :
    (⟨v.header rx + vchiqHeaderSize, length⟩ : Extent).Inside
        ⟨vchiqGetHeaderByGlobalIndex (v.slot rx), vchiqSlotSize⟩ ↔
      slotOffset rx.currentRxPos + vchiqHeaderSize + length ≤ vchiqSlotSize := by
  rw [Extent.Inside, RxView.header]
  dsimp only
  omega

/-- **The reads stay in the slot** exactly when what is handed on does. -/
theorem confined_reads_iff {v : RxView} {rx : RxState} (h : Aligned rx.currentRxPos) :
    (∀ r ∈ v.reads rx, r.Inside ⟨vchiqGetHeaderByGlobalIndex (v.slot rx), vchiqSlotSize⟩) ↔
      (v.BulkDone rx →
        slotOffset rx.currentRxPos + vchiqHeaderSize + max 4 (v.size rx) ≤ vchiqSlotSize) ∧
      (v.Data rx → slotOffset rx.currentRxPos + vchiqHeaderSize + v.size rx ≤ vchiqSlotSize) := by
  have hheader : (⟨v.header rx, vchiqHeaderSize⟩ : Extent).Inside
      ⟨vchiqGetHeaderByGlobalIndex (v.slot rx), vchiqSlotSize⟩ := by
    obtain ⟨k, hk⟩ := h.dvd
    have hoffset := slotOffset_eq rx.currentRxPos
    simp only [slotMsgSizeAlign] at hk
    refine ⟨Nat.le_add_right _ _, ?_⟩
    rw [RxView.header]
    simp only [vchiqHeaderSize, vchiqSlotSize]
    omega
  rw [RxView.reads, List.forall_mem_cons, and_iff_right hheader]
  by_cases hbulk : v.BulkDone rx
  · have hdata : ¬ v.Data rx := by
      rintro ⟨hdata, -⟩
      rcases hbulk.1 with hbulk | hbulk <;> rw [hbulk] at hdata <;> cases hdata
    rw [if_pos hbulk, List.forall_mem_cons, List.forall_mem_singleton, inside_slot, inside_slot]
    refine ⟨fun hin => ⟨fun _ => ?_, fun hd => absurd hd hdata⟩, fun hin => ?_⟩
    · omega
    · have hmax := hin.1 hbulk
      omega
  · by_cases hdata : v.Data rx
    · simp [hbulk, hdata, inside_slot]
    · simp [hbulk, hdata]

theorem rxRoundSound_iff {v : RxView} {rx : RxState} (h : Aligned rx.currentRxPos) :
    RxRoundSound v rx ↔ RxRoundOk v rx := by
  constructor
  · rintro ⟨hadvance, hconfined⟩
    obtain ⟨hle, hpos⟩ := (advance_iff h).1 hadvance
    obtain ⟨hbulk, hdata⟩ := (confined_reads_iff h).1 hconfined
    exact ⟨le_advance.1 hle, hpos, hbulk, hdata⟩
  · rintro ⟨hsize, hpos, hbulk, hdata⟩
    exact ⟨(advance_iff h).2 ⟨le_advance.2 hsize, hpos⟩, (confined_reads_iff h).2 ⟨hbulk, hdata⟩⟩

/-! ## The rounds -/

/-- **The loop ends** before a round that it does not come to. -/
theorem ends_of_not_pending (views : Nat → RxView) (rx : RxState) :
    ∀ fuel round, (¬ ∀ i ≤ fuel, rxPending (views (round + i)).shared
        (rxAfter views rx (round + i)) = true) →
      (vchiqProcessRxSlotFrom views fuel round (rxAfter views rx round)).isSome = true
  | 0, round, h => by
    have hdone : ¬ rxPending (views round).shared (rxAfter views rx round) = true := fun hpending =>
      h fun i hi => by rwa [Nat.le_zero.1 hi]
    rw [vchiqProcessRxSlotFrom, if_neg hdone]
    rfl
  | fuel + 1, round, h => by
    rw [vchiqProcessRxSlotFrom]
    split
    next hpending =>
      refine ends_of_not_pending views rx fuel (round + 1) fun hall => h fun i hi => ?_
      rcases Nat.eq_zero_or_pos i with rfl | hpos
      · exact hpending
      · obtain ⟨j, rfl⟩ := Nat.exists_eq_add_of_lt hpos
        have hnext := hall j (by omega)
        rwa [show round + 1 + j = round + (0 + j + 1) by omega] at hnext
    next => rfl

/-- **Sound rounds advance**: the position is a bound for the rounds. -/
theorem le_rxAfter {views : Nat → RxView} {rx : RxState}
    (h : ∀ n, ComesTo views rx n → RxRoundSound (views n) (rxAfter views rx n)) :
    ∀ n, ComesTo views rx n → 8 * n ≤ (rxAfter views rx n).currentRxPos
  | 0, _ => Nat.zero_le _
  | n + 1, hn => by
    have hbefore : ComesTo views rx n := fun i hi => hn i (Nat.le_succ_of_le hi)
    have ih := le_rxAfter h n hbefore
    have hadvance := (h n hbefore).advance
    show 8 * (n + 1) ≤ (vchiqProcessRxMessage (views n).shared (rxAfter views rx n)).currentRxPos
    omega

/-- **The loop is sound** exactly when all rounds that it comes to meet the condition. -/
theorem rxSound_iff {views : Nat → RxView} {rx : RxState} (h : Aligned rx.currentRxPos) :
    RxSound views rx ↔ ∀ n, ComesTo views rx n → RxRoundOk (views n) (rxAfter views rx n) := by
  constructor
  · exact fun hsound n hn => (rxRoundSound_iff (aligned_rxAfter views h n)).1 (hsound.rounds n hn)
  · intro hok
    have hrounds : ∀ n, ComesTo views rx n → RxRoundSound (views n) (rxAfter views rx n) :=
      fun n hn => (rxRoundSound_iff (aligned_rxAfter views h n)).2 (hok n hn)
    refine ⟨⟨2 ^ 29, ends_of_not_pending views rx _ 0 fun hall => ?_⟩, hrounds⟩
    have hle := le_rxAfter hrounds (2 ^ 29) fun i hi => by
      have hpending := hall i hi
      rwa [Nat.zero_add] at hpending
    have hlt := (aligned_rxAfter views h (2 ^ 29)).lt
    simp only [ulongSize] at hlt
    omega

/-- Padding behind the first header of slot 0, with all bits of the size set but the last three. -/
def endlessView : RxView where
  shared :=
    { memory := store (fun _ => 0) 12 [0xf8, 0xff, 0xff, 0xff]
      slotQueue := fun _ => 0
      slotQueueRecycle := 0
      txPos := 16 }
  opened _ := false
  retrieved := false

/-- In slot 0 behind its first message. -/
def secondMessage : RxState where
  currentRxPos := 8
  masterCurrentSlot := some 0
  received := []
  held := []

theorem rxSound_iff_second : RxSound (fun _ => endlessView) secondMessage ↔
    ∀ n, ComesTo (fun _ => endlessView) secondMessage n →
      RxRoundOk endlessView (rxAfter (fun _ => endlessView) secondMessage n) :=
  rxSound_iff ⟨by decide, by decide⟩

/-- **The loop does not end.** -/
theorem endless : ¬ RxSound (fun _ => endlessView) secondMessage := by
  have hround : vchiqProcessRxMessage endlessView.shared secondMessage = secondMessage := by rfl
  have hloop : ∀ fuel round,
      vchiqProcessRxSlotFrom (fun _ => endlessView) fuel round secondMessage = none := by
    intro fuel
    induction fuel with
    | zero => exact fun _ => rfl
    | succ fuel ih =>
      intro round
      rw [vchiqProcessRxSlotFrom, if_pos (by rfl), hround]
      exact ih (round + 1)
  rintro ⟨⟨fuel, hends⟩, -⟩
  rw [hloop] at hends
  cases hends

end RpiDrivers.Vchiq
