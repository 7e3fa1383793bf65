import RpiDrivers.Lib.Pool
import RpiDrivers.Vchiq.SlotRefs

/-!
# Pending message lists and the references they hold (`slots.c`, `file.c`)

A message the RX thread keeps is an entry of its file's pending data list, and a
data message delivered to a VCHI service is an entry of the pending VCHI list as
well. An entry points into an RX slot and holds a reference on it: `VchiqAddRefMsg`
follows each insertion, and whoever removes an entry (an await, a dequeue, a close,
the nested VCHI delivery) calls `VchiqReleaseMsg`.

The lists are only touched under `PendingDataMsgMutex` and `PendingVchiMsgMutex`, so a
list operation is one atomic step here, together with the reference taken for it.
The reference count is not protected by these mutexes, and the steps of
`VchiqReleaseMsg` and `VchiqRecycleSlot` interleave as in `slotMachine`, which this
machine refines (`PendingState.slots` is its state).

- `ledger_inv`: **the ledger**. The references held on a slot are its list entries and the
  releases some operation still owes, in every run.
- `slots_reach`: the simulation. An undisturbed run of this machine is an undisturbed
  run of `slotMachine`.
- `refsBalanced_of_exclusive`: in such runs the recorded count is the number of entries,
  and no entry points into a recycled slot.
- `refs_unbalanced`: a lost update of the count breaks both.
-/

namespace RpiDrivers.Vchiq

open RpiDrivers.Lib

/-- `VCHIQ_PENDING_MSG`: the header it points to and the slot the header lies in. -/
structure PendingMsg where
  msgId : Nat
  size : Nat
  slotNumber : Nat
  deriving DecidableEq

/-- The part of `VCHIQ_FILE_CONTEXT` that keeps received messages. A mutex is the thread
that owns it. -/
structure PendingFile where
  isVchi : Bool
  pendingDataMsgList : List PendingMsg
  pendingVchiMsgList : List PendingMsg
  pendingDataMsgMutex : Option Thread
  pendingVchiMsgMutex : Option Thread

/-- A file context as `VchiqAllocateFileObjContext` leaves it. -/
def PendingFile.empty : PendingFile := ⟨false, [], [], none, none⟩

/-- The entries of both lists that point into the slot. -/
def PendingFile.entriesIn (slot : Nat) (f : PendingFile) : Nat :=
  f.pendingDataMsgList.countP (·.slotNumber = slot) +
    f.pendingVchiMsgList.countP (·.slotNumber = slot)

/-- `pendingMsgSize = Size + sizeof(VCHIQ_HEADER)`, compared with the caller's buffer. -/
def PendingMsg.fits (m : PendingMsg) (bufSize : Nat) : Bool :=
  addPos m.size vchiqHeaderSize ≤ bufSize

/-- `VchiqAddPendingMsg`: the entry goes to the tail if the lookaside allocation succeeds. -/
def vchiqAddPendingMsg (f : PendingFile) (m : PendingMsg) (allocated : Bool) : PendingFile :=
  if allocated then { f with pendingDataMsgList := f.pendingDataMsgList ++ [m] } else f

/-- `VchiqAddPendingVchiMsg`, from the same lookaside list. -/
def vchiqAddPendingVchiMsg (f : PendingFile) (m : PendingMsg) (allocated : Bool) : PendingFile :=
  if allocated then { f with pendingVchiMsgList := f.pendingVchiMsgList ++ [m] } else f

/-- One round of `VchiqRemovePendingMsg` with a request: the head entry, taken off the
list when it fits the request's buffer and put back at the head when it does not. -/
def vchiqRemovePendingMsg (f : PendingFile) (msgBufSize : Nat) :
    Option (PendingMsg × PendingFile) :=
  match f.pendingDataMsgList with
  | [] => none
  | m :: rest => if m.fits msgBufSize then some (m, { f with pendingDataMsgList := rest }) else none

/-- `VchiqRemovePendingVchiMsg` with a request, likewise. -/
def vchiqRemovePendingVchiMsg (f : PendingFile) (bufSize : Nat) :
    Option (PendingMsg × PendingFile) :=
  match f.pendingVchiMsgList with
  | [] => none
  | m :: rest => if m.fits bufSize then some (m, { f with pendingVchiMsgList := rest }) else none

/-- One round of `VchiqRemovePendingMsg` without a request (`VchiqFileClose`): the tail entry. -/
def vchiqRemoveTailMsg (f : PendingFile) : Option (PendingMsg × PendingFile) :=
  f.pendingDataMsgList.getLast?.map fun m =>
    (m, { f with pendingDataMsgList := f.pendingDataMsgList.dropLast })

/-- One round of `VchiqRemovePendingVchiMsg` without a request. -/
def vchiqRemoveTailVchiMsg (f : PendingFile) : Option (PendingMsg × PendingFile) :=
  f.pendingVchiMsgList.getLast?.map fun m =>
    (m, { f with pendingVchiMsgList := f.pendingVchiMsgList.dropLast })

/-- What a thread that has taken an entry off a list still has to do with it. -/
inductive PendingOp
  /-- `VchiqRemovePendingMsg` copies the message and may track it for a VCHI service -/
  | deliver (t : Thread) (file : Nat) (msg : PendingMsg)
  /-- `VchiqReleaseMsg` is next -/
  | release (t : Thread) (slot : Nat)
  deriving DecidableEq

/-- The thread that performs the operation. -/
def PendingOp.thread : PendingOp → Thread
  | .deliver t _ _ | .release t _ => t

/-- The slot whose reference the operation holds. -/
def PendingOp.slot : PendingOp → Nat
  | .deliver _ _ msg => msg.slotNumber
  | .release _ slot => slot

/-- The release the operation owes the slot. -/
def PendingOp.owes (slot : Nat) (op : PendingOp) : Nat :=
  if op.slot = slot then 1 else 0

/-- The RX slots, the open files and the operations under way. -/
structure PendingState where
  slots : RxSlots
  files : List PendingFile
  ops : List PendingOp

/-- The atomic steps. Which of them a thread takes next is decided in the source by the
ioctls, the waiting requests and their buffers, and is left open here. -/
inductive PendingAction
  | takeSlot (slot : Nat)
  | leaveSlot (slot : Nat)
  /-- one step of a thread inside `VchiqRecycleSlot` -/
  | recycle (t : Thread)
  /-- a file gets its context -/
  | openFile
  /-- `IOCTL_VCHIQ_CREATE_SERVICE` sets `IsVchi` -/
  | createService (file : Nat) (isVchi : Bool)
  | lockData (t : Thread) (file : Nat)
  | unlockData (t : Thread) (file : Nat)
  | lockVchi (t : Thread) (file : Nat)
  | unlockVchi (t : Thread) (file : Nat)
  /-- `VchiqProcessNewRxMsg` adds the message of a header in the current slot; `allocated`
  tells whether the lookaside allocation succeeds -/
  | newRxMsg (file msgId size : Nat) (allocated : Bool)
  | removePendingMsg (t : Thread) (file msgBufSize : Nat)
  /-- the rest of the round: a data message of a VCHI service is also tracked there -/
  | delivered (t : Thread) (file : Nat) (msg : PendingMsg) (allocated : Bool)
  | removePendingVchiMsg (t : Thread) (file bufSize : Nat)
  | closeMsg (t : Thread) (file : Nat)
  | closeVchiMsg (t : Thread) (file : Nat)
  /-- `VchiqReleaseMsg` decrements the count -/
  | release (t : Thread) (slot : Nat)

namespace PendingState

/-- The file context with the given number. -/
def file (s : PendingState) (i : Nat) : PendingFile := s.files.getD i PendingFile.empty

def setFile (s : PendingState) (i : Nat) (f : PendingFile) : PendingState :=
  { s with files := s.files.set i f }

/-- The thread is between operations. -/
def Free (s : PendingState) (t : Thread) : Prop :=
  s.slots.pc t = .idle ∧ ∀ op ∈ s.ops, op.thread ≠ t

instance (s : PendingState) (t : Thread) : Decidable (s.Free t) :=
  inferInstanceAs (Decidable (_ ∧ _))

/-- The number of list entries that point into the slot. -/
def entriesIn (s : PendingState) (slot : Nat) : Nat :=
  total (PendingFile.entriesIn slot) s.files

/-- A removal of a list entry: the thread now owes the release of its slot. -/
def remove (s : PendingState) (i : Nat) (mkOp : PendingMsg → PendingOp) :
    Option (PendingMsg × PendingFile) → PendingState
  | none => s
  | some (m, f) => { s.setFile i f with ops := mkOp m :: s.ops }

end PendingState

/-- Is a message delivered to this file also tracked for its VCHI service? -/
def tracked (f : PendingFile) (m : PendingMsg) : Bool :=
  f.isVchi && vchiqMsgType m.msgId == vchiqMsgData

/-- The step of the reference counts that is part of the action, if any. -/
def slotAction (s : PendingState) : PendingAction → Option SlotAction
  | .takeSlot slot => some (.takeSlot slot)
  | .leaveSlot slot => some (.leaveSlot slot)
  | .recycle t => some (.recycle t)
  | .release t slot => some (.release t slot)
  | .newRxMsg _ _ _ allocated =>
    if allocated then s.slots.masterCurrentSlot.map (.addRef .rx) else none
  | .delivered t file msg allocated =>
    if tracked (s.file file) msg && allocated then some (.addRef t msg.slotNumber) else none
  | _ => none

/-- What the action does to the lists, the mutexes and the operations under way. -/
def listEffect (s : PendingState) : PendingAction → PendingState
  | .takeSlot _ | .leaveSlot _ | .recycle _ => s
  | .openFile => { s with files := s.files ++ [PendingFile.empty] }
  | .createService i isVchi => s.setFile i { s.file i with isVchi := isVchi }
  | .lockData t i => s.setFile i { s.file i with pendingDataMsgMutex := some t }
  | .unlockData _ i => s.setFile i { s.file i with pendingDataMsgMutex := none }
  | .lockVchi t i => s.setFile i { s.file i with pendingVchiMsgMutex := some t }
  | .unlockVchi _ i => s.setFile i { s.file i with pendingVchiMsgMutex := none }
  | .newRxMsg i msgId size allocated =>
    match s.slots.masterCurrentSlot with
    | some slot => s.setFile i (vchiqAddPendingMsg (s.file i) ⟨msgId, size, slot⟩ allocated)
    | none => s
  | .removePendingMsg t i msgBufSize =>
    s.remove i (.deliver t i) (vchiqRemovePendingMsg (s.file i) msgBufSize)
  | .delivered t i msg allocated =>
    let s' := { s with ops := advance s.ops (.deliver t i msg) [.release t msg.slotNumber] }
    if tracked (s.file i) msg then
      s'.setFile i (vchiqAddPendingVchiMsg (s.file i) msg allocated)
    else s'
  | .removePendingVchiMsg t i bufSize =>
    s.remove i (fun m => .release t m.slotNumber) (vchiqRemovePendingVchiMsg (s.file i) bufSize)
  | .closeMsg t i =>
    s.remove i (fun m => .release t m.slotNumber) (vchiqRemoveTailMsg (s.file i))
  | .closeVchiMsg t i =>
    s.remove i (fun m => .release t m.slotNumber) (vchiqRemoveTailVchiMsg (s.file i))
  | .release t slot => { s with ops := advance s.ops (.release t slot) [] }

/-- The whole effect: the lists, and the reference counts as `slotMachine` has them. -/
def pendingEffect (s : PendingState) (a : PendingAction) : PendingState :=
  { listEffect s a with
    slots := match slotAction s a with
      | some b => slotEffect s.slots b
      | none => s.slots }

/-- When a step can happen. A list is touched by the owner of its mutex only; the RX thread
adds messages of the slot it is in. -/
def pendingEnabled (s : PendingState) : PendingAction → Prop
  | .takeSlot slot => s.Free .rx ∧ slotEnabled s.slots (.takeSlot slot)
  | .leaveSlot slot => s.Free .rx ∧ slotEnabled s.slots (.leaveSlot slot)
  | .recycle t => slotEnabled s.slots (.recycle t)
  | .openFile => True
  | .createService i _ => i < s.files.length
  | .lockData t i =>
    s.Free t ∧ i < s.files.length ∧ (s.file i).pendingDataMsgMutex = none
  | .unlockData t i =>
    s.Free t ∧ i < s.files.length ∧ (s.file i).pendingDataMsgMutex = some t
  | .lockVchi t i =>
    s.slots.pc t = .idle ∧ i < s.files.length ∧ (s.file i).pendingVchiMsgMutex = none
  | .unlockVchi t i =>
    s.slots.pc t = .idle ∧ i < s.files.length ∧ (s.file i).pendingVchiMsgMutex = some t
  | .newRxMsg i _ _ _ =>
    s.Free .rx ∧ i < s.files.length ∧ (s.file i).pendingDataMsgMutex = some .rx ∧
      s.slots.masterCurrentSlot.isSome
  | .removePendingMsg t i _ | .closeMsg t i =>
    s.Free t ∧ i < s.files.length ∧ (s.file i).pendingDataMsgMutex = some t
  | .removePendingVchiMsg t i _ | .closeVchiMsg t i =>
    s.Free t ∧ i < s.files.length ∧ (s.file i).pendingVchiMsgMutex = some t
  | .delivered t i msg _ =>
    .deliver t i msg ∈ s.ops ∧ s.slots.pc t = .idle ∧ i < s.files.length ∧
      (tracked (s.file i) msg → (s.file i).pendingVchiMsgMutex = some t)
  | .release t slot => .release t slot ∈ s.ops ∧ s.slots.pc t = .idle

instance : ∀ s a, Decidable (pendingEnabled s a)
  | _, .takeSlot _ | _, .leaveSlot _ | _, .release _ _ => inferInstanceAs (Decidable (_ ∧ _))
  | _, .recycle _ => inferInstanceAs (Decidable (_ ≠ _))
  | _, .openFile => inferInstanceAs (Decidable True)
  | _, .createService _ _ => inferInstanceAs (Decidable (_ < _))
  | _, .lockData _ _ | _, .unlockData _ _ | _, .lockVchi _ _ | _, .unlockVchi _ _
  | _, .removePendingMsg _ _ _ | _, .closeMsg _ _ | _, .removePendingVchiMsg _ _ _
  | _, .closeVchiMsg _ _ => inferInstanceAs (Decidable (_ ∧ _ ∧ _))
  | _, .newRxMsg _ _ _ _ => inferInstanceAs (Decidable (_ ∧ _ ∧ _ ∧ _))
  | _, .delivered _ _ _ _ => inferInstanceAs (Decidable (_ ∧ _ ∧ _ ∧ (_ → _)))

/-- Before the first file is opened. -/
structure PendingState.Initial (s : PendingState) : Prop where
  slots : s.slots.Initial
  files : s.files = []
  ops : s.ops = []

/-- RX messages, ioctls and file closes as an interleaving of atomic steps. -/
def pendingMachine : Machine PendingState PendingAction :=
  Machine.guarded PendingState.Initial pendingEnabled pendingEffect

/-! ## The ledger -/

/-- One entry that points into the slot, or none. -/
def PendingMsg.pointsTo (slot : Nat) (m : PendingMsg) : Nat :=
  if m.slotNumber = slot then 1 else 0

theorem countP_pointsTo (slot : Nat) (m : PendingMsg) (l : List PendingMsg) :
    (m :: l).countP (·.slotNumber = slot) = l.countP (·.slotNumber = slot) + m.pointsTo slot := by
  simp [List.countP_cons, PendingMsg.pointsTo]

theorem countP_append_pointsTo (slot : Nat) (m : PendingMsg) (l : List PendingMsg) :
    (l ++ [m]).countP (·.slotNumber = slot) =
      l.countP (·.slotNumber = slot) + m.pointsTo slot := by
  rw [List.countP_append, countP_pointsTo]
  simp

theorem entriesIn_addPendingMsg (slot : Nat) (f : PendingFile) (m : PendingMsg) (b : Bool) :
    (vchiqAddPendingMsg f m b).entriesIn slot =
      f.entriesIn slot + if b then m.pointsTo slot else 0 := by
  cases b with
  | false => rfl
  | true =>
    simp only [vchiqAddPendingMsg, PendingFile.entriesIn, if_true, countP_append_pointsTo]
    omega

theorem entriesIn_addPendingVchiMsg (slot : Nat) (f : PendingFile) (m : PendingMsg) (b : Bool) :
    (vchiqAddPendingVchiMsg f m b).entriesIn slot =
      f.entriesIn slot + if b then m.pointsTo slot else 0 := by
  cases b with
  | false => rfl
  | true =>
    simp only [vchiqAddPendingVchiMsg, PendingFile.entriesIn, if_true, countP_append_pointsTo]
    omega

/-- The entry taken is gone from the file, and nothing else is. -/
def Takes (f : PendingFile) (r : Option (PendingMsg × PendingFile)) : Prop :=
  ∀ m f', r = some (m, f') → ∀ slot, f.entriesIn slot = f'.entriesIn slot + m.pointsTo slot

theorem takes_removePendingMsg (f : PendingFile) (n : Nat) : Takes f (vchiqRemovePendingMsg f n) := by
  intro m f' h slot
  unfold vchiqRemovePendingMsg at h
  split at h
  · nomatch h
  · next hlist =>
    split at h
    · obtain ⟨rfl, rfl⟩ := Prod.mk.inj (Option.some.inj h)
      simp only [PendingFile.entriesIn, hlist, countP_pointsTo]
      omega
    · nomatch h

theorem takes_removePendingVchiMsg (f : PendingFile) (n : Nat) :
    Takes f (vchiqRemovePendingVchiMsg f n) := by
  intro m f' h slot
  unfold vchiqRemovePendingVchiMsg at h
  split at h
  · nomatch h
  · next hlist =>
    split at h
    · obtain ⟨rfl, rfl⟩ := Prod.mk.inj (Option.some.inj h)
      simp only [PendingFile.entriesIn, hlist, countP_pointsTo]
      omega
    · nomatch h

/-- Counting a list by its last entry and the rest. -/
theorem countP_dropLast (slot : Nat) {l : List PendingMsg} {m : PendingMsg}
    (h : l.getLast? = some m) :
    l.countP (·.slotNumber = slot) = l.dropLast.countP (·.slotNumber = slot) + m.pointsTo slot := by
  obtain ⟨l', rfl⟩ := List.getLast?_eq_some_iff.1 h
  rw [countP_append_pointsTo, List.dropLast_concat]

theorem takes_removeTailMsg (f : PendingFile) : Takes f (vchiqRemoveTailMsg f) := by
  intro m f' h slot
  obtain ⟨m', hlast, h⟩ := Option.map_eq_some_iff.1 h
  obtain ⟨rfl, rfl⟩ := Prod.mk.inj h
  simp only [PendingFile.entriesIn, countP_dropLast slot hlast]
  omega

theorem takes_removeTailVchiMsg (f : PendingFile) : Takes f (vchiqRemoveTailVchiMsg f) := by
  intro m f' h slot
  obtain ⟨m', hlast, h⟩ := Option.map_eq_some_iff.1 h
  obtain ⟨rfl, rfl⟩ := Prod.mk.inj h
  simp only [PendingFile.entriesIn, countP_dropLast slot hlast]
  omega

theorem PendingState.entriesIn_setFile (s : PendingState) {i : Nat} (h : i < s.files.length)
    (f : PendingFile) (slot : Nat) :
    (s.setFile i f).entriesIn slot + (s.file i).entriesIn slot =
      s.entriesIn slot + f.entriesIn slot := by
  refine sum_map_set (PendingFile.entriesIn slot) f ?_
  simp [PendingState.file, List.getD, h]

/-- **The ledger**: the references held on a slot are its entries in the pending lists and
the releases that operations under way still owe it. -/
def Ledger (s : PendingState) : Prop :=
  ∀ slot, s.slots.held slot = s.entriesIn slot + total (PendingOp.owes slot) s.ops

theorem ledger_init {s : PendingState} (h : s.Initial) : Ledger s := by
  intro slot
  simp [h.slots.held, PendingState.entriesIn, h.files, h.ops]

/-- Changing a file without touching its lists. -/
theorem Ledger.setFile {s : PendingState} (h : Ledger s) {i : Nat} {f : PendingFile}
    (hi : i < s.files.length) (hf : ∀ slot, f.entriesIn slot = (s.file i).entriesIn slot) :
    Ledger (s.setFile i f) := by
  intro slot
  have hset := s.entriesIn_setFile hi f slot
  have hold := h slot
  rw [hf slot] at hset
  show s.slots.held slot = (s.setFile i f).entriesIn slot + total _ s.ops
  omega

/-- A removal moves a reference from a list to the operation that owes its release. -/
theorem Ledger.remove {s : PendingState} (h : Ledger s) {i : Nat} (mkOp : PendingMsg → PendingOp)
    {r : Option (PendingMsg × PendingFile)} (hi : i < s.files.length)
    (hr : Takes (s.file i) r) (hop : ∀ m, (mkOp m).slot = m.slotNumber) :
    Ledger { s.remove i mkOp r with slots := s.slots } := by
  intro slot
  match r, hr with
  | none, _ => exact h slot
  | some (m, f), hr =>
    have hset := s.entriesIn_setFile hi f slot
    have htake := hr m f rfl slot
    have hold := h slot
    have howes : (mkOp m).owes slot = m.pointsTo slot := by
      rw [PendingOp.owes, hop m, PendingMsg.pointsTo]
    show s.slots.held slot = (s.setFile i f).entriesIn slot + total _ (mkOp m :: s.ops)
    rw [total_cons, howes]
    omega

/-- The effect on the lists and on the references, when the action moves no reference. -/
theorem Ledger.of_slots {s : PendingState} (h : Ledger s) {slots : RxSlots}
    (hheld : slots.held = s.slots.held) : Ledger { s with slots := slots } := by
  intro slot
  show slots.held slot = _
  rw [hheld]
  exact h slot

/-- A new entry comes with a new reference on its slot. -/
theorem Ledger.add {s : PendingState} (h : Ledger s) {i : Nat} {f : PendingFile}
    {m : PendingMsg} (hi : i < s.files.length)
    (hf : ∀ slot, f.entriesIn slot = (s.file i).entriesIn slot + m.pointsTo slot) :
    Ledger { s.setFile i f with slots := s.slots.vchiqAddRefMsg m.slotNumber } := by
  intro slot
  have hset := s.entriesIn_setFile hi f slot
  have hold := h slot
  rw [hf slot] at hset
  have hheld : (s.slots.vchiqAddRefMsg m.slotNumber).held slot =
      s.slots.held slot + m.pointsTo slot := by
    show Function.update _ _ _ _ = _
    rw [Function.update_apply, PendingMsg.pointsTo]
    by_cases heq : slot = m.slotNumber
    · simp [heq]
    · simp [heq, Ne.symm heq]
  show (s.slots.vchiqAddRefMsg m.slotNumber).held slot =
    (s.setFile i f).entriesIn slot + total _ s.ops
  omega

/-- The operation that delivered a message goes on to release it. -/
theorem Ledger.delivered {s : PendingState} (h : Ledger s) {t : Thread} {i : Nat}
    {msg : PendingMsg} (hop : .deliver t i msg ∈ s.ops) :
    Ledger { s with ops := advance s.ops (.deliver t i msg) [.release t msg.slotNumber] } := by
  intro slot
  have hsum := sum_advance (PendingOp.owes slot) hop [.release t msg.slotNumber]
  have hsame : (PendingOp.deliver t i msg).owes slot =
      total (PendingOp.owes slot) [.release t msg.slotNumber] := by
    rw [total_cons, total_nil]
    rfl
  have hold := h slot
  show s.slots.held slot = s.entriesIn slot + total _ (advance s.ops _ _)
  omega

/-- A release pays what its operation owed. -/
theorem Ledger.release {s : PendingState} (h : Ledger s) {t : Thread} {slot : Nat}
    (hop : .release t slot ∈ s.ops) :
    Ledger { s with
      ops := advance s.ops (.release t slot) []
      slots := s.slots.vchiqReleaseMsg t slot } := by
  intro slot'
  have hsum := sum_advance (PendingOp.owes slot') hop []
  have hold := h slot'
  have hheld : (s.slots.vchiqReleaseMsg t slot).held slot' =
      s.slots.held slot' - (PendingOp.release t slot).owes slot' := by
    show Function.update _ _ _ _ = _
    rw [Function.update_apply, PendingOp.owes]
    by_cases heq : slot' = slot
    · simp [heq, PendingOp.slot]
    · simp [heq, Ne.symm heq, PendingOp.slot]
  show (s.slots.vchiqReleaseMsg t slot).held slot' =
    s.entriesIn slot' + total _ (advance s.ops _ _)
  rw [total_nil] at hsum
  omega

/-- The ledger is kept by every step, whatever the interleaving. -/
theorem ledger_effect {s : PendingState} {a : PendingAction} (h : Ledger s)
    (hen : pendingEnabled s a) : Ledger (pendingEffect s a) := by
  cases a with
  | takeSlot slot => exact h.of_slots rfl
  | leaveSlot slot => exact h.of_slots rfl
  | recycle t => exact h.of_slots (vchiqRecycleSlot_held s.slots t)
  | openFile =>
    intro slot
    show s.slots.held slot = total _ (s.files ++ [PendingFile.empty]) + total _ s.ops
    rw [total_append]
    exact h slot
  | createService i isVchi => exact h.setFile hen fun _ => rfl
  | lockData t i => exact h.setFile hen.2.1 fun _ => rfl
  | unlockData t i => exact h.setFile hen.2.1 fun _ => rfl
  | lockVchi t i => exact h.setFile hen.2.1 fun _ => rfl
  | unlockVchi t i => exact h.setFile hen.2.1 fun _ => rfl
  | newRxMsg i msgId size allocated =>
    obtain ⟨slot, hslot⟩ := Option.isSome_iff_exists.1 hen.2.2.2
    have hf := fun slot' => entriesIn_addPendingMsg slot' (s.file i) ⟨msgId, size, slot⟩ allocated
    cases allocated with
    | true =>
      simp only [pendingEffect, listEffect, slotAction, hslot]
      exact h.add hen.2.1 hf
    | false =>
      simp only [pendingEffect, listEffect, slotAction, hslot]
      exact h.setFile hen.2.1 hf
  | removePendingMsg t i n =>
    exact h.remove (.deliver t i) hen.2.1 (takes_removePendingMsg _ n) fun _ => rfl
  | removePendingVchiMsg t i n =>
    exact h.remove (.release t ·.slotNumber) hen.2.1 (takes_removePendingVchiMsg _ n) fun _ => rfl
  | closeMsg t i =>
    exact h.remove (.release t ·.slotNumber) hen.2.1 (takes_removeTailMsg _) fun _ => rfl
  | closeVchiMsg t i =>
    exact h.remove (.release t ·.slotNumber) hen.2.1 (takes_removeTailVchiMsg _) fun _ => rfl
  | delivered t i msg allocated =>
    have hdel := h.delivered hen.1
    have hf := fun slot => entriesIn_addPendingVchiMsg slot (s.file i) msg allocated
    -- only a message that is tracked gets an entry of its own
    by_cases htr : tracked (s.file i) msg = true
    · cases allocated with
      | true =>
        simp only [pendingEffect, listEffect, slotAction, htr]
        exact hdel.add hen.2.2.1 hf
      | false =>
        simp only [pendingEffect, listEffect, slotAction, htr]
        exact hdel.setFile hen.2.2.1 hf
    · simp only [pendingEffect, listEffect, slotAction, htr]
      exact hdel
  | release t slot => exact h.release hen.1

/-- **The ledger holds in every run.** -/
theorem ledger_inv {s : PendingState} {ok : PendingState → PendingAction → Prop}
    (h : pendingMachine.Reach ok s) : Ledger s :=
  h.inv_guarded (P := Ledger) (fun _ => ledger_init) fun _ _ hl _ hen => ledger_effect hl hen

/-! ## The property and the refinement -/

/-- The recorded count of a slot is the number of entries that point into it, and entries
point into slots that were not recycled since they were filled. -/
structure RefsBalanced (s : PendingState) : Prop where
  /-- at every point where no operation is in the middle of updating the slot's count -/
  counted : ∀ slot, (∀ op ∈ s.ops, op.slot ≠ slot) → NoneDeciding s.slots.pc slot →
    (s.slots.rxSlotInfo slot).refCount = s.entriesIn slot
  notRecycled : ∀ f ∈ s.files, ∀ m ∈ f.pendingDataMsgList ++ f.pendingVchiMsgList,
    s.slots.recycled.count m.slotNumber < s.slots.fills m.slotNumber

/-- The condition of `slotMachine`, for the step of the reference counts in the action. -/
def RefsExclusive (s : PendingState) (a : PendingAction) : Prop :=
  ∀ b, slotAction s a = some b → Exclusive s.slots b

/-- An operation under way holds a reference on its slot. -/
theorem Ledger.held_of_op {s : PendingState} (h : Ledger s) {op : PendingOp} (hop : op ∈ s.ops) :
    0 < s.slots.held op.slot := by
  have hle := le_total (PendingOp.owes op.slot) hop
  have howes : op.owes op.slot = 1 := if_pos rfl
  have := h op.slot
  omega

/-- A list entry holds a reference on its slot. -/
theorem Ledger.held_of_entry {s : PendingState} (h : Ledger s) {f : PendingFile}
    (hf : f ∈ s.files) {m : PendingMsg}
    (hm : m ∈ f.pendingDataMsgList ++ f.pendingVchiMsgList) : 0 < s.slots.held m.slotNumber := by
  have hle := le_total (PendingFile.entriesIn m.slotNumber) hf
  have hpos : 0 < f.entriesIn m.slotNumber := by
    rw [PendingFile.entriesIn, ← List.countP_append]
    exact List.countP_pos_iff.2 ⟨m, hm, by simp⟩
  have := h m.slotNumber
  simp only [PendingState.entriesIn] at this
  omega

/-- The step of the reference counts is one of `slotMachine`. -/
theorem slotEnabled_of_pendingEnabled {s : PendingState} {a : PendingAction} {b : SlotAction}
    (h : Ledger s) (hen : pendingEnabled s a) (hb : slotAction s a = some b) :
    slotEnabled s.slots b := by
  cases a with
  | takeSlot slot =>
    obtain rfl := Option.some.inj hb
    exact hen.2
  | leaveSlot slot =>
    obtain rfl := Option.some.inj hb
    exact hen.2
  | recycle t =>
    obtain rfl := Option.some.inj hb
    exact hen
  | release t slot =>
    obtain rfl := Option.some.inj hb
    exact ⟨hen.2, h.held_of_op hen.1⟩
  | newRxMsg i msgId size allocated =>
    simp only [slotAction] at hb
    split at hb
    · obtain ⟨slot, hslot, rfl⟩ := Option.map_eq_some_iff.1 hb
      exact ⟨hen.1.1, .inl ⟨rfl, hslot⟩⟩
    · nomatch hb
  | delivered t i msg allocated =>
    simp only [slotAction] at hb
    split at hb
    · obtain rfl := Option.some.inj hb
      exact ⟨hen.2.1, .inr (h.held_of_op hen.1)⟩
    · nomatch hb
  | openFile | createService | lockData | unlockData | lockVchi | unlockVchi | removePendingMsg
  | removePendingVchiMsg | closeMsg | closeVchiMsg => nomatch hb

/-- **The refinement**: seen through its RX slots, an undisturbed run of this machine is an
undisturbed run of `slotMachine`. -/
theorem slots_reach {s : PendingState} (h : pendingMachine.Reach RefsExclusive s) :
    slotMachine.Reach Exclusive s.slots := by
  refine h.lift (P := Ledger) PendingState.slots (fun s (hi : s.Initial) => hi.slots)
    (fun _ hr => ledger_inv hr) fun s a s' hl hex hs => ?_
  obtain ⟨hen, rfl⟩ := Machine.guarded_step.1 hs
  cases hb : slotAction s a with
  | none =>
    have : (pendingEffect s a).slots = s.slots := by simp only [pendingEffect, hb]
    rw [this]
    exact .refl
  | some b =>
    have : (pendingEffect s a).slots = slotEffect s.slots b := by simp only [pendingEffect, hb]
    rw [this]
    exact .single (hex b hb)
      (Machine.guarded_step.2 ⟨slotEnabled_of_pendingEnabled hl hen hb, rfl⟩)

/-- **The counts match the lists, and no entry outlives its slot**, in every run in which no
step disturbs another thread's test of the slot it touches. -/
theorem refsBalanced_of_exclusive {s : PendingState} (h : pendingMachine.Reach RefsExclusive s) :
    RefsBalanced s := by
  have hledger := ledger_inv h
  have hslots := slotRefs_inv (slots_reach h)
  constructor
  · intro slot hops _
    have howes : total (PendingOp.owes slot) s.ops = 0 :=
      total_eq_zero fun op hop => if_neg (hops op hop)
    rw [hslots.refCount slot, hledger slot, howes]
    simp
  · intro f hf m hm
    have := hslots.outstanding m.slotNumber (.inr (hledger.held_of_entry hf hm))
    omega

/-- The state before the first file is opened. -/
def PendingState.start : PendingState := ⟨RxSlots.start, [], []⟩

theorem PendingState.start_initial : PendingState.start.Initial :=
  ⟨RxSlots.start_initial, rfl, rfl⟩

/-- A message is received and awaited while the RX thread is in its slot, which is recycled once the
RX thread has left it. -/
theorem refsBalanced_of_exclusive_awaited :
    ∃ s, pendingMachine.Reach RefsExclusive s ∧ s.slots.fills 5 = 1 ∧ s.slots.recycled = [5] ∧
      RefsBalanced s := by
  have h0 : pendingMachine.Reach RefsExclusive PendingState.start := .init PendingState.start_initial
  have h1 := Machine.Reach.step (a := .openFile) h0 (by exact nofun) rfl
  have h2 := Machine.Reach.step (a := .takeSlot 5) h1 (by rintro _ ⟨⟩; trivial) rfl
  have h3 := Machine.Reach.step (a := .lockData .rx 0) h2 (by exact nofun) rfl
  have h4 := Machine.Reach.step (a := .newRxMsg 0 (vchiqMsgData <<< 24) 4 true) h3
    (by rintro _ ⟨⟩; exact nofun) rfl
  have h5 := Machine.Reach.step (a := .unlockData .rx 0) h4 (by exact nofun) rfl
  have h6 := Machine.Reach.step (a := .lockData (.other 0) 0) h5 (by exact nofun) rfl
  have h7 := Machine.Reach.step (a := .removePendingMsg (.other 0) 0 100) h6 (by exact nofun) rfl
  have h8 := Machine.Reach.step (a := .delivered (.other 0) 0 ⟨vchiqMsgData <<< 24, 4, 5⟩ true) h7
    (by exact nofun) rfl
  have h9 := Machine.Reach.step (a := .release (.other 0) 5) h8
    (by rintro _ ⟨⟩; exact ⟨nofun, fun _ h => absurd rfl h⟩) rfl
  have h10 := Machine.Reach.step (a := .recycle (.other 0)) h9 (by rintro _ ⟨⟩; trivial) rfl
  have h11 := Machine.Reach.step (a := .recycle (.other 0)) h10 (by rintro _ ⟨⟩; trivial) rfl
  have h12 := Machine.Reach.step (a := .recycle (.other 0)) h11 (by rintro _ ⟨⟩; trivial) rfl
  have h13 := Machine.Reach.step (a := .unlockData (.other 0) 0) h12 (by exact nofun) rfl
  have h14 := Machine.Reach.step (a := .leaveSlot 5) h13
    (by rintro _ ⟨⟩; exact ⟨by rintro (_ | _ | _) ⟨⟩, fun _ => by rintro (_ | _ | _) ⟨⟩⟩) rfl
  have h15 := Machine.Reach.step (a := .recycle .rx) h14 (by rintro _ ⟨⟩; trivial) rfl
  have h16 := Machine.Reach.step (a := .recycle .rx) h15 (by rintro _ ⟨⟩; trivial) rfl
  have h17 := Machine.Reach.step (a := .recycle .rx) h16 (by rintro _ ⟨⟩; trivial) rfl
  have h18 := Machine.Reach.step (a := .recycle .rx) h17 (by rintro _ ⟨⟩; trivial) rfl
  exact ⟨_, h18, rfl, rfl, refsBalanced_of_exclusive h18⟩

/-- The run in which an increment is lost: the RX thread adds a message for the second file
between the read and the exchange of a thread that has released one of the first. -/
def lostRefRun : List PendingAction :=
  [.openFile, .openFile, .takeSlot 5,
    .lockData .rx 0, .newRxMsg 0 (vchiqMsgData <<< 24) 4 true, .unlockData .rx 0,
    .lockData (.other 0) 0, .removePendingMsg (.other 0) 0 100,
    .delivered (.other 0) 0 ⟨vchiqMsgData <<< 24, 4, 5⟩ true, .release (.other 0) 5,
    .recycle (.other 0),
    .lockData .rx 1, .newRxMsg 1 (vchiqMsgData <<< 24) 4 true, .unlockData .rx 1,
    .recycle (.other 0), .recycle (.other 0), .unlockData (.other 0) 0,
    .leaveSlot 5, .recycle .rx, .recycle .rx, .recycle .rx, .recycle .rx]

/-- **A lost increment**: the message of the second file is still pending, the count of its
slot is 0, and the slot has been recycled. -/
theorem refs_unbalanced : ¬ ∀ s, pendingMachine.Reachable s → RefsBalanced s := by
  intro h
  have hrun := pendingMachine.reach_exec_get lostRefRun PendingState.start_initial (by rfl)
  have hlive := (h _ hrun).notRecycled
  revert hlive
  decide

end RpiDrivers.Vchiq
