import RpiDrivers.Vchiq.Bulk
import RpiDrivers.Vchiq.Slots

/-!
# The buffers of `AWAIT_COMPLETION` (`slots.c`, `ioctl.c`)

`VchiqInCallerContext` locks `Count` completion records and a message buffer for each of them.
`VchiqRemovePendingMsg` runs later, when messages are pending, and goes on until `MsgBufCount` of
them are returned. A message that is not returned, because of the mode of its bulk, writes to a
record all the same.

- `vchiqInCallerContext`, `vchiqRemovePendingMsg`: the two functions, the second with what it
  accesses.
- `accessesLocked_iff`: all of that is locked **exactly when** `MsgBufCount` is at most `Count`, or
  the messages that fit run out first.
- `second_record`: one record, but two buffers.
-/

namespace RpiDrivers.Vchiq.Await

/-- `VCHIQ_AWAIT_COMPLETION` -/
structure AwaitCompletion where
  count : Nat
  msgBufSize : Nat
  msgBufCount : Nat

/-! ## Locking -/

/-- The locks of a request: so many completion records, and message buffers of these sizes. -/
structure Locked where
  completions : Nat
  buffers : List Nat

/-- The loop that locks the message buffers. An empty buffer cannot be locked. -/
def lockBuffers (msgBufSize : Nat) (locks : Nat → Bool) :
    (left completionCount : Nat) → Option (List Nat)
  | 0, _ => some []
  | left + 1, completionCount =>
    if msgBufSize = 0 ∨ locks completionCount = false then none
    else (lockBuffers msgBufSize locks left (completionCount + 1)).map (msgBufSize :: ·)

/-- `VchiqInCallerContext`, with the outcomes of its locks; `none` when the request fails. -/
def vchiqInCallerContext (a : AwaitCompletion) (lockCompletions : Bool) (locks : Nat → Bool) :
    Option Locked :=
  if a.count = 0 ∨ lockCompletions = false then none
  else (lockBuffers a.msgBufSize locks a.count 0).map (Locked.mk a.count)

/-! ## Returning messages -/

/-- A pending message, with the fields of its header. -/
structure PendingMsg where
  msgId : Nat
  size : Nat

namespace PendingMsg

variable (m : PendingMsg)

/-- `pendingMsgSize`, a `ULONG` -/
def pendingMsgSize : Nat := (m.size + vchiqHeaderSize) % ulongSize

def IsBulkDone : Prop :=
  vchiqMsgType m.msgId = vchiqMsgBulkTxDone ∨ vchiqMsgType m.msgId = vchiqMsgBulkRxDone

instance : Decidable m.IsBulkDone := inferInstanceAs (Decidable (_ ∨ _))

/-- `returnMsgToVchiService`. For a bulk it depends on the mode that `VchiqRemovePendingBulkMsg`
finds, and is false when it finds no bulk. -/
def returned (bulkMode : Option VchiqBulkMode) : Bool :=
  if m.IsBulkDone then bulkMode.any VchiqBulkMode.reported else true

end PendingMsg

/-- An access to memory of the caller. -/
inductive Access
  /-- to a field of a completion record -/
  | completion (index : Nat)
  /-- a copy to the message buffer of a record -/
  | buffer (index length : Nat)
  deriving DecidableEq

/-- What a round accesses: `Reason`, unless the type is unknown, `BulkUserData` of a bulk that is
found, and for a message that is returned `WdfMemoryBuffer`, the buffer and `ServiceUserData`. -/
def roundAccesses (m : PendingMsg) (bulkMode : Option VchiqBulkMode) (totalMsg : Nat) :
    List Access :=
  (if vchiqMsgType m.msgId = vchiqMsgData then [.completion totalMsg]
   else if m.IsBulkDone then
     .completion totalMsg :: (if bulkMode.isSome then [.completion totalMsg] else [])
   else []) ++
  if m.returned bulkMode then
    [.completion totalMsg, .buffer totalMsg m.pendingMsgSize, .completion totalMsg]
  else []

/-- `*totalMsgPtr` after a round. -/
def nextTotal (m : PendingMsg) (bulkMode : Option VchiqBulkMode) (totalMsg : Nat) : Nat :=
  if m.returned bulkMode then totalMsg + 1 else totalMsg

/-- The outcome of the loop: the accesses, `*totalMsgPtr` and what remains pending. -/
structure Removed where
  accesses : List Access
  totalMsg : Nat
  pendingDataMsgList : List PendingMsg

/-- The loop of `VchiqRemovePendingMsg`. `bulkModes` tells for each round what
`VchiqRemovePendingBulkMsg` finds. -/
def removeLoop (a : AwaitCompletion) (bulkModes : Nat → Option VchiqBulkMode) :
    List PendingMsg → (round totalMsg : Nat) → Removed
  | [], _, totalMsg => ⟨[], totalMsg, []⟩
  | m :: rest, round, totalMsg =>
    if a.msgBufSize < m.pendingMsgSize then ⟨[], totalMsg, m :: rest⟩
    else
      let accesses := roundAccesses m (bulkModes round) totalMsg
      let totalMsg := nextTotal m (bulkModes round) totalMsg
      if totalMsg < a.msgBufCount then
        let removed := removeLoop a bulkModes rest (round + 1) totalMsg
        { removed with accesses := accesses ++ removed.accesses }
      else ⟨accesses, totalMsg, rest⟩

/-- `VchiqRemovePendingMsg` -/
def vchiqRemovePendingMsg (a : AwaitCompletion) (bulkModes : Nat → Option VchiqBulkMode)
    (pending : List PendingMsg) : Removed :=
  removeLoop a bulkModes pending 0 0

/-! ## The property and the condition -/

/-- An access to a record or a buffer that is locked, and inside of it. -/
def Locked.Covers (locked : Locked) : Access → Prop
  | .completion index => index < locked.completions
  | .buffer index length => ∃ size, locked.buffers[index]? = some size ∧ length ≤ size

/-- All accesses are to what is locked. -/
def AccessesLocked (locked : Locked) (a : AwaitCompletion)
    (bulkModes : Nat → Option VchiqBulkMode) (pending : List PendingMsg) : Prop :=
  ∀ x ∈ (vchiqRemovePendingMsg a bulkModes pending).accesses, locked.Covers x

/-- The pending messages up to the first one that is too large. -/
def fitting (a : AwaitCompletion) (pending : List PendingMsg) : List PendingMsg :=
  pending.takeWhile (·.pendingMsgSize ≤ a.msgBufSize)

/-- How many of some messages are to be returned. -/
def countReturned (bulkModes : Nat → Option VchiqBulkMode) : List PendingMsg → Nat → Nat
  | [], _ => 0
  | m :: rest, round =>
    (m.returned (bulkModes round)).toNat + countReturned bulkModes rest (round + 1)

/-- The condition: `MsgBufCount` is at most `Count`, or fewer than `Count` messages are to be
returned in front of the last one that fits. -/
def RecordsSuffice (a : AwaitCompletion) (bulkModes : Nat → Option VchiqBulkMode)
    (pending : List PendingMsg) : Prop :=
  a.msgBufCount ≤ a.count ∨ countReturned bulkModes (fitting a pending).dropLast 0 < a.count

/-! ## What is locked -/

theorem lockBuffers_eq {msgBufSize : Nat} {locks : Nat → Bool} :
    ∀ {left completionCount : Nat} {sizes : List Nat},
      lockBuffers msgBufSize locks left completionCount = some sizes →
        sizes = List.replicate left msgBufSize
  | 0, _, _, h => (Option.some.inj h).symm
  | left + 1, _, _, h => by
    rw [lockBuffers] at h
    split at h
    · cases h
    · obtain ⟨sizes, hrest, rfl⟩ := Option.map_eq_some_iff.1 h
      rw [lockBuffers_eq hrest, List.replicate_succ]

/-- **There are `Count` of both**, and at least one. -/
theorem vchiqInCallerContext_eq {a : AwaitCompletion} {lockCompletions : Bool}
    {locks : Nat → Bool} {locked : Locked}
    (h : vchiqInCallerContext a lockCompletions locks = some locked) :
    0 < a.count ∧ locked = ⟨a.count, List.replicate a.count a.msgBufSize⟩ := by
  rw [vchiqInCallerContext] at h
  split at h
  next => cases h
  next hcount =>
    obtain ⟨sizes, hsizes, rfl⟩ := Option.map_eq_some_iff.1 h
    rw [lockBuffers_eq hsizes]
    exact ⟨Nat.pos_of_ne_zero fun hzero => hcount (.inl hzero), rfl⟩

/-! ## What is accessed -/

/-- **A round accesses its record**, whatever the message is. -/
theorem mem_roundAccesses (m : PendingMsg) (bulkMode : Option VchiqBulkMode) (totalMsg : Nat) :
    .completion totalMsg ∈ roundAccesses m bulkMode totalMsg := by
  rw [roundAccesses, List.mem_append]
  by_cases hdata : vchiqMsgType m.msgId = vchiqMsgData
  · rw [if_pos hdata]
    exact .inl List.mem_cons_self
  rw [if_neg hdata]
  by_cases hbulk : m.IsBulkDone
  · rw [if_pos hbulk]
    exact .inl List.mem_cons_self
  · -- a message of unknown type is returned
    have hreturned : m.returned bulkMode = true := if_neg hbulk
    rw [if_pos hreturned]
    exact .inr List.mem_cons_self

/-- It accesses no other record, and copies the message only. -/
theorem eq_of_mem_roundAccesses {m : PendingMsg} {bulkMode : Option VchiqBulkMode}
    {totalMsg : Nat} {x : Access} (h : x ∈ roundAccesses m bulkMode totalMsg) :
    x = .completion totalMsg ∨ x = .buffer totalMsg m.pendingMsgSize := by
  unfold roundAccesses at h
  split_ifs at h <;> simp at h <;> tauto

section Loop

variable {a : AwaitCompletion} {bulkModes : Nat → Option VchiqBulkMode}

/-- What is locked for a request. -/
abbrev AwaitCompletion.locked (a : AwaitCompletion) : Locked :=
  ⟨a.count, List.replicate a.count a.msgBufSize⟩

/-- A round with a record is covered when its message fits. -/
theorem covers_round {m : PendingMsg} {bulkMode : Option VchiqBulkMode} {totalMsg : Nat}
    (hfits : m.pendingMsgSize ≤ a.msgBufSize) (hlt : totalMsg < a.count) {x : Access}
    (hx : x ∈ roundAccesses m bulkMode totalMsg) : a.locked.Covers x := by
  rcases eq_of_mem_roundAccesses hx with rfl | rfl
  · exact hlt
  · exact ⟨a.msgBufSize, List.getElem?_replicate_of_lt hlt, hfits⟩

theorem fitting_cons_of_fits {m : PendingMsg} {rest : List PendingMsg}
    (h : ¬ a.msgBufSize < m.pendingMsgSize) : fitting a (m :: rest) = m :: fitting a rest :=
  List.takeWhile_cons_of_pos (decide_eq_true (Nat.not_lt.1 h))

theorem fitting_cons_of_large {m : PendingMsg} {rest : List PendingMsg}
    (h : a.msgBufSize < m.pendingMsgSize) : fitting a (m :: rest) = [] :=
  List.takeWhile_cons_of_neg fun hle => Nat.not_lt.2 (of_decide_eq_true hle) h

theorem nextTotal_eq (m : PendingMsg) (bulkMode : Option VchiqBulkMode) (totalMsg : Nat) :
    nextTotal m bulkMode totalMsg = totalMsg + (m.returned bulkMode).toNat := by
  rw [nextTotal]
  cases m.returned bulkMode <;> rfl

/-- **Without a record** only a loop that does nothing is covered. -/
theorem covers_overrun {pending : List PendingMsg} {round : Nat} :
    (∀ x ∈ (removeLoop a bulkModes pending round a.count).accesses, a.locked.Covers x) ↔
      fitting a pending = [] := by
  match pending with
  | [] => exact ⟨fun _ => rfl, fun _ x hx => nomatch hx⟩
  | m :: rest =>
    by_cases hlarge : a.msgBufSize < m.pendingMsgSize
    · rw [removeLoop, if_pos hlarge, fitting_cons_of_large hlarge]
      exact ⟨fun _ => rfl, fun _ x hx => nomatch hx⟩
    · rw [fitting_cons_of_fits hlarge]
      refine ⟨fun h => ?_, fun h => nomatch h⟩
      have hmem : .completion a.count ∈
          (removeLoop a bulkModes (m :: rest) round a.count).accesses := by
        rw [removeLoop, if_neg hlarge]
        dsimp only
        have hround := mem_roundAccesses m (bulkModes round) a.count
        split_ifs
        · exact List.mem_append_left _ hround
        · exact hround
      exact absurd (h _ hmem) (Nat.lt_irrefl _)

/-- **The loop is covered** exactly when it ends, or the messages do, before the records. -/
theorem covers_loop : ∀ (pending : List PendingMsg) (round totalMsg : Nat), totalMsg < a.count →
    ((∀ x ∈ (removeLoop a bulkModes pending round totalMsg).accesses, a.locked.Covers x) ↔
      a.msgBufCount ≤ a.count ∨
        totalMsg + countReturned bulkModes (fitting a pending).dropLast round < a.count)
  | [], _, _, hlt => ⟨fun _ => .inr hlt, fun _ x hx => nomatch hx⟩
  | m :: rest, round, totalMsg, hlt => by
    rw [removeLoop]
    by_cases hlarge : a.msgBufSize < m.pendingMsgSize
    · rw [if_pos hlarge, fitting_cons_of_large hlarge]
      exact ⟨fun _ => .inr hlt, fun _ x hx => nomatch hx⟩
    rw [if_neg hlarge, fitting_cons_of_fits hlarge]
    dsimp only
    have hround : ∀ x ∈ roundAccesses m (bulkModes round) totalMsg, a.locked.Covers x :=
      fun x hx => covers_round (Nat.not_lt.1 hlarge) hlt hx
    have hnext := nextTotal_eq m (bulkModes round) totalMsg
    have hle := Bool.toNat_le (m.returned (bulkModes round))
    by_cases hmore : nextTotal m (bulkModes round) totalMsg < a.msgBufCount
    · rw [if_pos hmore]
      simp only [List.forall_mem_append]
      rw [and_iff_right hround]
      rcases Nat.lt_or_ge (nextTotal m (bulkModes round) totalMsg) a.count with hrecord | hfull
      · rw [covers_loop rest _ _ hrecord, hnext]
        cases fitting a rest with
        | nil =>
          rw [hnext] at hrecord
          exact ⟨fun _ => .inr hlt, fun _ => .inr hrecord⟩
        | cons b l =>
          rw [List.dropLast_cons_cons, countReturned, Nat.add_assoc]
      · -- the records are used up, and more messages are asked for
        have hcount : nextTotal m (bulkModes round) totalMsg = a.count := by omega
        rw [hcount, covers_overrun]
        cases fitting a rest with
        | nil => exact ⟨fun _ => .inr hlt, fun _ => rfl⟩
        | cons b l =>
          rw [List.dropLast_cons_cons, countReturned]
          exact ⟨fun h => (nomatch h), fun h => by omega⟩
    · rw [if_neg hmore]
      exact ⟨fun _ => .inl (by omega), fun _ => hround⟩

end Loop

/-- **All that is accessed is locked** exactly when the records suffice. -/
theorem accessesLocked_iff {a : AwaitCompletion} {lockCompletions : Bool} {locks : Nat → Bool}
    {locked : Locked} (h : vchiqInCallerContext a lockCompletions locks = some locked)
    (bulkModes : Nat → Option VchiqBulkMode) (pending : List PendingMsg) :
    AccessesLocked locked a bulkModes pending ↔ RecordsSuffice a bulkModes pending := by
  obtain ⟨hcount, rfl⟩ := vchiqInCallerContext_eq h
  rw [RecordsSuffice, ← Nat.zero_add (countReturned _ _ _)]
  exact covers_loop pending 0 0 hcount

/-- A DATA message of four bytes. -/
def dataMsg : PendingMsg := ⟨0x05001001, 4⟩

theorem accessesLocked_iff_two :
    AccessesLocked ⟨2, [64, 64]⟩ ⟨2, 64, 2⟩ (fun _ => none) [dataMsg, dataMsg, dataMsg] ↔
      RecordsSuffice ⟨2, 64, 2⟩ (fun _ => none) [dataMsg, dataMsg, dataMsg] :=
  have hlocked : vchiqInCallerContext ⟨2, 64, 2⟩ true (fun _ => true) = some ⟨2, [64, 64]⟩ := rfl
  accessesLocked_iff hlocked _ _

/-- **The record behind the only one is written** for the second message. -/
theorem second_record :
    ¬ ∀ locked, vchiqInCallerContext ⟨1, 64, 2⟩ true (fun _ => true) = some locked →
      AccessesLocked locked ⟨1, 64, 2⟩ (fun _ => none) [dataMsg, dataMsg] := by
  intro h
  have hmem : Access.completion 1 ∈
      (vchiqRemovePendingMsg ⟨1, 64, 2⟩ (fun _ => none) [dataMsg, dataMsg]).accesses := by decide
  exact absurd (h ⟨1, [64]⟩ rfl _ hmem) (by decide : ¬ (1 < 1))

end RpiDrivers.Vchiq.Await
