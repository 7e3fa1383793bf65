import RpiDrivers.Lib.Ledger
import RpiDrivers.Vchiq.Bulk

/-!
# What a bulk transfer allocates (`slots.c`, `transfer.c`)

`VchiqBulkTransfer` gets a scatter/gather list and a page list, and two memory objects whose parent
is the request. A context of the request takes the two lists over: its cleanup callback frees them
when the request is completed. The entry in `PendingBulkMsgList` is memory of the file object. It
is deleted with a failed submission and at the close, and with the file object when a DONE message
has taken it off the list.

- `vchiqBulkTransfer`, `BulkFile.processBulkTransfer`: a submission, with all of its failures.
- `bulkFileMachine`: submissions, DONE messages, cancellations and the close, in any order.
- `ReleaseSound`: what a request has allocated is released once it is completed, and all of it,
  each object once, with the file object.
- `releaseSound_iff`: **every run is sound exactly when neither the page list nor the context of a
  request fails to be allocated**.
- `list_not_put`: without a page list, the scatter/gather list is never put.
-/

namespace RpiDrivers.Vchiq.BulkResources

open RpiDrivers.Lib

/-! ## Submissions -/

/-- What is allocated for a bulk transfer. -/
inductive Kind
  /-- `VCHIQ_PENDING_BULK_MSG` -/
  | pendingBulkMsg
  /-- the memory of the scatter/gather list -/
  | scatterGatherMemory
  /-- the memory of the DMA transfer context -/
  | dmaTransferContext
  /-- what `BuildScatterGatherListEx` gets and `PutScatterGatherList` gives back -/
  | scatterGatherList
  /-- the common buffer of the page list -/
  | pageList
  /-- `VCHIQ_TX_REQUEST_CONTEXT` -/
  | txRequestContext
  deriving DecidableEq

/-- An object that was allocated for the transfer of a request. -/
structure Object where
  kind : Kind
  transfer : Nat
  deriving DecidableEq

/-- The entry of a transfer in `PendingBulkMsgList`. -/
def entry (transfer : Nat) : Object := ⟨.pendingBulkMsg, transfer⟩

/-- The pointers of `VCHIQ_TX_REQUEST_CONTEXT` that are not NULL. -/
structure TxRequestContext where
  pageListPtr : Bool
  scatterGatherListPtr : Bool
  deriving DecidableEq

/-- A request, with what belongs to it. -/
structure Request where
  transfer : Nat
  /-- the memory objects whose parent it is -/
  memories : List Kind
  context : Option TxRequestContext
  deriving DecidableEq

/-- The points at which a submission can fail, in their order. -/
inductive FailurePoint
  /-- `VchiqAddPendingBulkMsg` -/
  | pendingBulkMsg
  /-- `WdfRequestForwardToIoQueue` -/
  | forward
  | calculateScatterGatherList
  | scatterGatherMemory
  | dmaTransferContext
  | initializeDmaTransferContext
  | buildScatterGatherList
  /-- `VchiqAllocateCommonBuffer` -/
  | pageList
  /-- `VchiqAllocateTransferRequestObjContext` -/
  | txRequestContext
  /-- `VchiqQueueMessageAsync` -/
  | queueMessage
  deriving DecidableEq

/-- Which calls succeed, by the point at which they would fail. One reason is that the framework
has cancelled the request in the meantime. -/
abbrev Outcomes : Type := FailurePoint → Bool

/-- `VchiqBulkTransfer`: where it has failed, and the request as it leaves it. -/
def vchiqBulkTransfer (r : Outcomes) (transfer : Nat) (l : Ledger Object) :
    Option FailurePoint × Request × Ledger Object :=
  if !r .calculateScatterGatherList then
    (some .calculateScatterGatherList, ⟨transfer, [], none⟩, l)
  else if !r .scatterGatherMemory then (some .scatterGatherMemory, ⟨transfer, [], none⟩, l)
  else
    let l := l.acquire ⟨.scatterGatherMemory, transfer⟩
    if !r .dmaTransferContext then
      (some .dmaTransferContext, ⟨transfer, [.scatterGatherMemory], none⟩, l)
    else
      let l := l.acquire ⟨.dmaTransferContext, transfer⟩
      let request : Request := ⟨transfer, [.dmaTransferContext, .scatterGatherMemory], none⟩
      if !r .initializeDmaTransferContext then (some .initializeDmaTransferContext, request, l)
      else if !r .buildScatterGatherList then (some .buildScatterGatherList, request, l)
      else
        let l := l.acquire ⟨.scatterGatherList, transfer⟩
        if !r .pageList then (some .pageList, request, l)
        else
          let l := l.acquire ⟨.pageList, transfer⟩
          if !r .txRequestContext then
            -- `pageListPtr` is not NULL
            (some .txRequestContext, request, l.release ⟨.pageList, transfer⟩)
          else
            let l := l.acquire ⟨.txRequestContext, transfer⟩
            let request := { request with context := some ⟨true, true⟩ }
            if !r .queueMessage then (some .queueMessage, request, l)
            else (none, request, l)

/-- What `VchiqTransferRequestContextCleanup` frees. -/
def TxRequestContext.lists (context : TxRequestContext) : List Kind :=
  (if context.pageListPtr then [.pageList] else []) ++
    if context.scatterGatherListPtr then [.scatterGatherList] else []

/-- What goes with a request when it is completed: what the cleanup callback frees, the context,
and the memory objects. -/
def Request.kinds (request : Request) : List Kind :=
  (request.context.elim [] fun context => context.lists ++ [.txRequestContext]) ++
    request.memories

def Request.objects (request : Request) : List Object :=
  request.kinds.map (⟨·, request.transfer⟩)

/-! ## The file -/

/-- The bulks of one direction. -/
structure BulkSide where
  fileQueue : List Request
  pendingBulkMsgList : List Nat

inductive FilePhase
  | opened
  | closed
  /-- the file object is deleted -/
  | deleted
  deriving DecidableEq

structure BulkFile where
  /-- the number of requests so far -/
  requests : Nat
  sides : MsgBulkType → BulkSide
  /-- the entries that are off the list, and not deleted -/
  unlinked : List Nat
  /-- the transfers whose submission has failed -/
  failed : List Nat
  phase : FilePhase
  ledger : Ledger Object

namespace BulkFile

variable (s : BulkFile)

def setSide (t : MsgBulkType) (side : BulkSide) : BulkFile :=
  { s with sides := Function.update s.sides t side }

/-- The request is completed, and deleted. -/
def complete (request : Request) : BulkFile :=
  { s with ledger := s.ledger.releaseAll request.objects }

/-- `VchiqRemovePendingBulkMsg` for the last entry -/
def removeTail (t : MsgBulkType) : BulkFile :=
  match (s.sides t).pendingBulkMsgList.getLast? with
  | none => s
  | some transfer =>
    { s.setSide t { s.sides t with
        pendingBulkMsgList := (s.sides t).pendingBulkMsgList.dropLast } with
      ledger := s.ledger.release (entry transfer) }

/-- `VchiqProcessBulkTransfer`, which holds `PendingBulkMsgMutex`, and the completion of a request
that has failed. It is the framework that completes the request when it has cancelled it. -/
def processBulkTransfer (t : MsgBulkType) (r : Outcomes) : BulkFile :=
  let transfer := s.requests
  let s := { s with requests := transfer + 1 }
  if !r .pendingBulkMsg then { s with failed := transfer :: s.failed }
  else
    let s := { s.setSide t { s.sides t with
        pendingBulkMsgList := (s.sides t).pendingBulkMsgList ++ [transfer] } with
      ledger := s.ledger.acquire (entry transfer) }
    if !r .forward then { s.removeTail t with failed := transfer :: s.failed }
    else
      match vchiqBulkTransfer r transfer s.ledger with
      | (none, request, l) =>
        { s.setSide t { s.sides t with fileQueue := (s.sides t).fileQueue ++ [request] } with
          ledger := l }
      | (some _, request, l) =>
        -- the request is taken from the queue again
        { (({ s with ledger := l } : BulkFile).removeTail t).complete request with
          failed := transfer :: s.failed }

/-- A DONE message, which completes the next request. With the `success` of the transfer the RX
thread puts the scatter/gather list itself. -/
def bulkDone (t : MsgBulkType) (success : Bool) : BulkFile :=
  match (s.sides t).fileQueue with
  | [] => s
  | request :: fileQueue =>
    let s := s.setSide t { s.sides t with fileQueue := fileQueue }
    match request.context with
    | none => s.complete request
    | some context =>
      if success then
        ({ s with ledger := s.ledger.release ⟨.scatterGatherList, request.transfer⟩ } :
          BulkFile).complete
          { request with context := some { context with scatterGatherListPtr := false } }
      else s.complete request

/-- `VchiqRemovePendingBulkMsg` for the first entry, which is not deleted -/
def removeHead (t : MsgBulkType) : BulkFile :=
  match (s.sides t).pendingBulkMsgList with
  | [] => s
  | transfer :: pendingBulkMsgList =>
    { s.setSide t { s.sides t with pendingBulkMsgList := pendingBulkMsgList } with
      unlinked := transfer :: s.unlinked }

/-- The framework cancels a request of the queue. -/
def cancel (t : MsgBulkType) (request : Request) : BulkFile :=
  (s.setSide t { s.sides t with fileQueue := (s.sides t).fileQueue.erase request }).complete request

/-- `WdfIoQueuePurgeSynchronously` -/
def purge (t : MsgBulkType) : BulkFile :=
  { s.setSide t { s.sides t with fileQueue := [] } with
    ledger := s.ledger.releaseAll ((s.sides t).fileQueue.flatMap Request.objects) }

/-- `VchiqRemovePendingBulkMsg` for all entries, the last one first -/
def removeAll (t : MsgBulkType) : BulkFile :=
  { s.setSide t { s.sides t with pendingBulkMsgList := [] } with
    ledger := s.ledger.releaseAll ((s.sides t).pendingBulkMsgList.reverse.map entry) }

/-- `VchiqFileClose` -/
def closeFile : BulkFile :=
  { (((s.purge .tx).purge .rx).removeAll .tx).removeAll .rx with phase := .closed }

/-- The file object is deleted, and its memory with it. -/
def deleteFile : BulkFile :=
  { s with
    unlinked := []
    phase := .deleted
    ledger := s.ledger.releaseAll (s.unlinked.map entry) }

/-- A new file. -/
def start : BulkFile := ⟨0, fun _ => ⟨[], []⟩, [], [], .opened, .empty⟩

end BulkFile

inductive Action
  | processBulkTransfer (t : MsgBulkType) (r : Outcomes)
  | bulkDone (t : MsgBulkType) (success : Bool)
  | removeHead (t : MsgBulkType)
  | cancel (t : MsgBulkType) (request : Request)
  | closeFile
  | deleteFile

namespace BulkFile

def enabled (s : BulkFile) : Action → Prop
  | .processBulkTransfer _ _ | .bulkDone _ _ | .removeHead _ | .closeFile => s.phase = .opened
  | .cancel t request => request ∈ (s.sides t).fileQueue
  | .deleteFile => s.phase = .closed

instance (s : BulkFile) : ∀ a : Action, Decidable (s.enabled a)
  | .processBulkTransfer _ _ | .bulkDone _ _ | .removeHead _ | .closeFile | .deleteFile =>
    inferInstanceAs (Decidable (_ = _))
  | .cancel _ _ => inferInstanceAs (Decidable (_ ∈ _))

def effect (s : BulkFile) : Action → BulkFile
  | .processBulkTransfer t r => s.processBulkTransfer t r
  | .bulkDone t success => s.bulkDone t success
  | .removeHead t => s.removeHead t
  | .cancel t request => s.cancel t request
  | .closeFile => s.closeFile
  | .deleteFile => s.deleteFile

end BulkFile

/-- The steps in any order. -/
def bulkFileMachine : Machine BulkFile Action :=
  .guarded (· = .start) BulkFile.enabled BulkFile.effect

/-! ## The property -/

/-- The points, in their order. -/
def FailurePoint.all : List FailurePoint :=
  [.pendingBulkMsg, .forward, .calculateScatterGatherList, .scatterGatherMemory,
    .dmaTransferContext, .initializeDmaTransferContext, .buildScatterGatherList, .pageList,
    .txRequestContext, .queueMessage]

/-- The call at which a submission fails: the first one that does not succeed. -/
def Action.failure : Action → Option FailurePoint
  | .processBulkTransfer _ r => FailurePoint.all.find? fun p => !r p
  | _ => none

/-- The condition: submissions fail at these points only. -/
def FailsOnlyAt (points : FailurePoint → Prop) (_ : BulkFile) (a : Action) : Prop :=
  ∀ p, a.failure = some p → points p

/-- **The property.** -/
structure ReleaseSound (s : BulkFile) : Prop where
  once : s.ledger.released.Nodup ∧ ∀ o ∈ s.ledger.released, o ∈ s.ledger.acquired
  /-- a request that is not in the queue has been completed -/
  ended : ∀ o ∈ s.ledger.acquired, o.kind ≠ .pendingBulkMsg →
    (∀ t, ∀ request ∈ (s.sides t).fileQueue, request.transfer ≠ o.transfer) →
    o ∈ s.ledger.released
  entry : ∀ transfer, entry transfer ∈ s.ledger.acquired →
    (∀ t, transfer ∉ (s.sides t).pendingBulkMsgList) → transfer ∉ s.unlinked →
    entry transfer ∈ s.ledger.released
  failed : ∀ transfer ∈ s.failed, ∀ t,
    (∀ request ∈ (s.sides t).fileQueue, request.transfer ≠ transfer) ∧
      transfer ∉ (s.sides t).pendingBulkMsgList ∧ transfer ∉ s.unlinked
  deleted : s.phase = .deleted → s.ledger.Settled

/-! ## A submission -/

section Transfer

variable {r : Outcomes} {transfer : Nat} {l : Ledger Object} {live : List Object}

/-- Objects of a transfer were acquired, each of another kind. -/
def Acquires (transfer : Nat) (kinds : List Kind) (l l' : Ledger Object) : Prop :=
  l'.acquired = kinds.map (⟨·, transfer⟩) ++ l.acquired

/-- `VchiqBulkTransfer` fails at the first call that does not succeed. -/
theorem failure_eq (t : MsgBulkType) (hpending : r .pendingBulkMsg = true)
    (hforward : r .forward = true) (transfer : Nat) (l : Ledger Object) :
    (Action.processBulkTransfer t r).failure = (vchiqBulkTransfer r transfer l).1 := by
  unfold vchiqBulkTransfer
  dsimp only [Action.failure, FailurePoint.all]
  split_ifs <;> simp_all only [List.find?, Bool.not_true, Bool.not_eq_true]

/-- A request whose transfer has been started. -/
def Request.started (transfer : Nat) : Request :=
  ⟨transfer, [.dmaTransferContext, .scatterGatherMemory], some ⟨true, true⟩⟩

theorem kinds_started (transfer : Nat) : (Request.started transfer).kinds =
    [.pageList, .scatterGatherList, .txRequestContext, .dmaTransferContext,
      .scatterGatherMemory] := rfl

/-- How `VchiqBulkTransfer` ends: what it has acquired belongs to the request. -/
structure Owned (transfer : Nat) (l : Ledger Object) (live : List Object)
    (x : Option FailurePoint × Request × Ledger Object) : Prop where
  live : x.2.2.Live (x.2.1.objects ++ live)
  acquires : ∃ kinds : List Kind, kinds.Nodup ∧ .pendingBulkMsg ∉ kinds ∧
    Acquires transfer kinds l x.2.2
  started : x.1 = none → x.2.1 = .started transfer

/-- When neither of the two allocations fails, the objects are owned. -/
theorem owned_transfer (h : l.Live live)
    (hpageList : (vchiqBulkTransfer r transfer l).1 ≠ some .pageList)
    (hcontext : (vchiqBulkTransfer r transfer l).1 ≠ some .txRequestContext) :
    Owned transfer l live (vchiqBulkTransfer r transfer l) := by
  have hmemories := (h.acquire (a := ⟨.scatterGatherMemory, transfer⟩)).acquire
    (a := ⟨.dmaTransferContext, transfer⟩)
  revert hpageList hcontext
  unfold vchiqBulkTransfer
  dsimp only
  split_ifs <;> intro hpageList hcontext
  · exact ⟨h, ⟨[], by decide, by decide, rfl⟩, fun hnone => by cases hnone⟩
  · exact ⟨h, ⟨[], by decide, by decide, rfl⟩, fun hnone => by cases hnone⟩
  · exact ⟨h.acquire, ⟨[.scatterGatherMemory], by decide, by decide, rfl⟩,
      fun hnone => by cases hnone⟩
  · exact ⟨hmemories, ⟨[.dmaTransferContext, .scatterGatherMemory], by decide, by decide, rfl⟩,
      fun hnone => by cases hnone⟩
  · exact ⟨hmemories, ⟨[.dmaTransferContext, .scatterGatherMemory], by decide, by decide, rfl⟩,
      fun hnone => by cases hnone⟩
  · exact absurd rfl hpageList
  · exact absurd rfl hcontext
  all_goals
    have hall := hmemories.acquire (a := ⟨.scatterGatherList, transfer⟩)
      |>.acquire (a := ⟨.pageList, transfer⟩) |>.acquire (a := ⟨.txRequestContext, transfer⟩)
    have hperm : ([.txRequestContext, .pageList, .scatterGatherList, .dmaTransferContext,
        .scatterGatherMemory] : List Kind).Perm [.pageList, .scatterGatherList, .txRequestContext,
        .dmaTransferContext, .scatterGatherMemory] := by decide
    have hobjects := (hperm.map fun kind => (⟨kind, transfer⟩ : Object)).append_right live
    refine ⟨hall.of_perm hobjects,
      ⟨[.txRequestContext, .pageList, .scatterGatherList, .dmaTransferContext,
        .scatterGatherMemory], by decide, by decide, rfl⟩, ?_⟩
  · exact fun hnone => by cases hnone
  · exact fun _ => rfl

end Transfer

/-! ## What is live -/

def BulkSide.objects (side : BulkSide) : List Object :=
  side.fileQueue.flatMap Request.objects ++ side.pendingBulkMsgList.map entry

def other : MsgBulkType → MsgBulkType
  | .tx => .rx
  | .rx => .tx

namespace BulkFile

variable {s : BulkFile}

/-- The objects that the file refers to. -/
def live (s : BulkFile) : List Object :=
  (s.sides .tx).objects ++ (s.sides .rx).objects ++ s.unlinked.map entry

/-- Those that are not of one direction. -/
def rest (s : BulkFile) (t : MsgBulkType) : List Object :=
  (s.sides (other t)).objects ++ s.unlinked.map entry

theorem live_perm (s : BulkFile) (t : MsgBulkType) :
    s.live.Perm ((s.sides t).objects ++ s.rest t) := by
  cases t with
  | tx => exact List.Perm.of_eq (List.append_assoc ..)
  | rx =>
    exact (List.perm_append_comm.append_right _).trans (List.Perm.of_eq (List.append_assoc ..))

theorem other_ne (t : MsgBulkType) : other t ≠ t := by
  cases t <;> decide

/-- A request is in the queue, an entry in the list, or off it. -/
theorem mem_live {o : Object} : o ∈ s.live ↔
    (∃ t, ∃ request ∈ (s.sides t).fileQueue, o ∈ request.objects) ∨
      (∃ t, ∃ transfer ∈ (s.sides t).pendingBulkMsgList, entry transfer = o) ∨
      ∃ transfer ∈ s.unlinked, entry transfer = o := by
  simp only [live, BulkSide.objects, List.mem_append, List.mem_flatMap, List.mem_map]
  constructor
  · rintro (((h | h) | h | h) | h)
    · exact .inl ⟨.tx, h⟩
    · exact .inr (.inl ⟨.tx, h⟩)
    · exact .inl ⟨.rx, h⟩
    · exact .inr (.inl ⟨.rx, h⟩)
    · exact .inr (.inr h)
  · rintro (⟨t, h⟩ | ⟨t, h⟩ | h)
    · cases t with
      | tx => exact .inl (.inl (.inl h))
      | rx => exact .inl (.inr (.inl h))
    · cases t with
      | tx => exact .inl (.inl (.inr h))
      | rx => exact .inl (.inr (.inr h))
    · exact .inr h

/-! ## The invariant -/

/-- A transfer is in the file. -/
def Refers (s : BulkFile) (transfer : Nat) : Prop :=
  (∃ t, (∃ request ∈ (s.sides t).fileQueue, request.transfer = transfer) ∨
    transfer ∈ (s.sides t).pendingBulkMsgList) ∨ transfer ∈ s.unlinked

/-- Just the objects that the file refers to are acquired and not released. -/
structure Inv (s : BulkFile) : Prop where
  live : s.ledger.Live s.live
  nodup : s.ledger.acquired.Nodup
  fresh : ∀ o ∈ s.ledger.acquired, o.transfer < s.requests
  refers : ∀ transfer, s.Refers transfer → transfer < s.requests ∧ transfer ∉ s.failed
  failed : ∀ transfer ∈ s.failed, transfer < s.requests
  queued : ∀ t, ∀ request ∈ (s.sides t).fileQueue, request = .started request.transfer
  closed : s.phase ≠ .opened → ∀ t, s.sides t = ⟨[], []⟩
  deleted : s.phase = .deleted → s.unlinked = []

namespace Inv

/-- **What the invariant says of the ledger.** -/
theorem sound (h : s.Inv) : ReleaseSound s := by
  have hperm : s.ledger.acquired.Perm (s.ledger.released ++ s.live) := h.live
  have hnodup := hperm.nodup_iff.1 h.nodup
  have hmem : ∀ o ∈ s.ledger.acquired, o ∉ s.live → o ∈ s.ledger.released := fun o ho hnot =>
    (List.mem_append.1 (hperm.mem_iff.1 ho)).resolve_right hnot
  constructor
  case once =>
    exact ⟨(List.nodup_append.1 hnodup).1, fun o ho => hperm.mem_iff.2 (List.mem_append_left _ ho)⟩
  case ended =>
    intro o ho hkind hqueue
    refine hmem o ho fun hlive => ?_
    rcases mem_live.1 hlive with ⟨t, request, hrequest, hobject⟩ | ⟨_, _, -, rfl⟩ | ⟨_, -, rfl⟩
    · obtain ⟨kind, -, rfl⟩ := List.mem_map.1 hobject
      exact hqueue t request hrequest rfl
    · exact hkind rfl
    · exact hkind rfl
  case entry =>
    intro transfer ho hlist hunlinked
    refine hmem _ ho fun hlive => ?_
    rcases mem_live.1 hlive with ⟨t, request, hrequest, hobject⟩ | ⟨t, transfer', h', heq⟩ |
      ⟨transfer', h', heq⟩
    · obtain ⟨kind, hkind, heq⟩ := List.mem_map.1 hobject
      have hentry : kind = .pendingBulkMsg := congrArg Object.kind heq
      rw [h.queued t request hrequest, kinds_started, hentry] at hkind
      revert hkind
      decide
    · obtain rfl : transfer' = transfer := congrArg Object.transfer heq
      exact hlist t h'
    · obtain rfl : transfer' = transfer := congrArg Object.transfer heq
      exact hunlinked h'
  case failed =>
    intro transfer hfailed t
    have hnot : ¬ s.Refers transfer := fun hrefers => (h.refers transfer hrefers).2 hfailed
    exact ⟨fun request hrequest heq => hnot (.inl ⟨t, .inl ⟨request, hrequest, heq⟩⟩),
      fun hmem => hnot (.inl ⟨t, .inr hmem⟩), fun hmem => hnot (.inr hmem)⟩
  case deleted =>
    intro hphase
    have hempty : s.live = [] := by
      rw [BulkFile.live, h.closed (by rw [hphase]; decide), h.closed (by rw [hphase]; decide),
        h.deleted hphase]
      rfl
    have hsettled := h.live
    rw [hempty] at hsettled
    exact hsettled

/-- Requests leave a queue and entries a list, and their objects are released. -/
theorem shrink (h : s.Inv) {t : MsgBulkType} {side : BulkSide} (unlinked : List Nat)
    {l : Ledger Object}
    (hlive : l.Live (side.objects ++
      ((s.sides (other t)).objects ++ unlinked.map BulkResources.entry)))
    (hacquired : l.acquired = s.ledger.acquired)
    (hqueue : side.fileQueue ⊆ (s.sides t).fileQueue)
    (hlist : side.pendingBulkMsgList ⊆ (s.sides t).pendingBulkMsgList)
    (hunlinked : unlinked ⊆ s.unlinked ++ (s.sides t).pendingBulkMsgList) :
    Inv { s.setSide t side with unlinked := unlinked, ledger := l } := by
  -- neither direction has more than before
  have hside : ∀ t', (Function.update s.sides t side t').fileQueue ⊆ (s.sides t').fileQueue ∧
      (Function.update s.sides t side t').pendingBulkMsgList ⊆
        (s.sides t').pendingBulkMsgList := fun t' => by
    by_cases ht : t' = t
    · subst ht
      rw [Function.update_self]
      exact ⟨hqueue, hlist⟩
    · rw [Function.update_of_ne ht]
      exact ⟨List.Subset.refl _, List.Subset.refl _⟩
  constructor
  case live =>
    have hperm := live_perm { s.setSide t side with unlinked := unlinked, ledger := l } t
    refine hlive.of_perm (List.Perm.trans (List.Perm.of_eq ?_) hperm.symm)
    show _ = (Function.update s.sides t side t).objects ++
      ((Function.update s.sides t side (other t)).objects ++ _)
    rw [Function.update_self, Function.update_of_ne (other_ne t)]
  case nodup => exact hacquired ▸ h.nodup
  case fresh => exact hacquired ▸ h.fresh
  case refers =>
    refine fun transfer hrefers => h.refers transfer ?_
    rcases hrefers with ⟨t', ⟨request, hrequest, heq⟩ | hmem⟩ | hmem
    · exact .inl ⟨t', .inl ⟨request, (hside t').1 hrequest, heq⟩⟩
    · exact .inl ⟨t', .inr ((hside t').2 hmem)⟩
    · rcases List.mem_append.1 (hunlinked hmem) with hmem | hmem
      · exact .inr hmem
      · exact .inl ⟨t, .inr hmem⟩
  case failed => exact h.failed
  case queued => exact fun t' request hrequest => h.queued t' request ((hside t').1 hrequest)
  case closed =>
    intro hphase t'
    have hempty := h.closed hphase t'
    obtain ⟨hqueue', hlist'⟩ := hside t'
    rw [hempty] at hqueue' hlist'
    show Function.update s.sides t side t' = _
    generalize Function.update s.sides t side t' = side' at hqueue' hlist' ⊢
    obtain ⟨fileQueue, pendingBulkMsgList⟩ := side'
    obtain rfl : fileQueue = [] := List.subset_nil.1 hqueue'
    obtain rfl : pendingBulkMsgList = [] := List.subset_nil.1 hlist'
    rfl
  case deleted =>
    intro hphase
    have hempty := h.closed (by rw [show s.phase = .deleted from hphase]; decide) t
    have hnil := h.deleted hphase
    rw [hempty, hnil] at hunlinked
    exact List.subset_nil.1 hunlinked

/-- The objects, by the direction. -/
theorem liveOf (h : s.Inv) (t : MsgBulkType) : s.ledger.Live ((s.sides t).objects ++ s.rest t) :=
  h.live.of_perm (live_perm s t)

/-- A request leaves its queue, and its objects are released. -/
theorem leave (h : s.Inv) {t : MsgBulkType} {request : Request} {fileQueue : List Request}
    {objects : List Object} (hqueue : (s.sides t).fileQueue.Perm (request :: fileQueue))
    (hobjects : request.objects.Perm objects) :
    Inv { s.setSide t { s.sides t with fileQueue := fileQueue } with
      ledger := s.ledger.releaseAll objects } := by
  refine h.shrink s.unlinked ?_ (Ledger.acquired_releaseAll ..)
    (fun request' hmem => hqueue.mem_iff.2 (List.mem_cons_of_mem request hmem))
    (List.Subset.refl _) (List.subset_append_left ..)
  refine Ledger.Live.releaseAll ((h.liveOf t).of_perm ?_)
  have hflatMap := hqueue.flatMap_right Request.objects
  rw [List.flatMap_cons] at hflatMap
  rw [BulkSide.objects, BulkSide.objects, rest]
  have hside := ((hflatMap.trans (hobjects.append_right _)).append_right
    ((s.sides t).pendingBulkMsgList.map BulkResources.entry)).append_right
    ((s.sides (other t)).objects ++ s.unlinked.map BulkResources.entry)
  simpa only [List.append_assoc] using hside

theorem bulkDone (h : s.Inv) (t : MsgBulkType) (success : Bool) : (s.bulkDone t success).Inv := by
  rw [BulkFile.bulkDone]
  cases hqueue : (s.sides t).fileQueue with
  | nil => exact h
  | cons request fileQueue =>
    obtain ⟨n, rfl⟩ : ∃ n, request = .started n :=
      ⟨_, h.queued t request (by rw [hqueue]; exact List.mem_cons_self)⟩
    cases success with
    | false => exact h.leave (List.Perm.of_eq hqueue) (List.Perm.refl _)
    | true =>
      -- the list is put first, and the cleanup callback finds it gone
      have hperm : ([.pageList, .scatterGatherList, .txRequestContext, .dmaTransferContext,
          .scatterGatherMemory] : List Kind).Perm [.scatterGatherList, .pageList,
          .txRequestContext, .dmaTransferContext, .scatterGatherMemory] := by decide
      exact h.leave (List.Perm.of_eq hqueue) (hperm.map fun kind => (⟨kind, n⟩ : Object))

theorem cancel (h : s.Inv) {t : MsgBulkType} {request : Request}
    (hmem : request ∈ (s.sides t).fileQueue) : (s.cancel t request).Inv :=
  h.leave (List.perm_cons_erase hmem) (List.Perm.refl _)

theorem purge (h : s.Inv) (t : MsgBulkType) : (s.purge t).Inv := by
  refine h.shrink s.unlinked ?_ (Ledger.acquired_releaseAll ..)
    (List.nil_subset _) (List.Subset.refl _) (List.subset_append_left ..)
  have hlive := h.liveOf t
  rw [BulkSide.objects, List.append_assoc] at hlive
  exact hlive.releaseAll

theorem removeAll (h : s.Inv) (t : MsgBulkType) : (s.removeAll t).Inv := by
  refine h.shrink s.unlinked ?_ (Ledger.acquired_releaseAll ..)
    (List.Subset.refl _) (List.nil_subset _) (List.subset_append_left ..)
  refine Ledger.Live.releaseAll ((h.liveOf t).of_perm ?_)
  rw [BulkSide.objects, BulkSide.objects, List.map_nil, List.append_nil]
  refine List.perm_iff_count.2 fun o => ?_
  have hreverse := ((List.reverse_perm (s.sides t).pendingBulkMsgList).map
    BulkResources.entry).count_eq o
  simp only [List.count_append, rest]
  omega

theorem removeHead (h : s.Inv) (t : MsgBulkType) : (s.removeHead t).Inv := by
  rw [BulkFile.removeHead]
  cases hlist : (s.sides t).pendingBulkMsgList with
  | nil => exact h
  | cons transfer pendingBulkMsgList =>
    refine h.shrink (transfer :: s.unlinked) ((h.liveOf t).of_perm ?_) rfl (List.Subset.refl _)
      (fun transfer' hmem => ?_) (fun transfer' hmem => ?_)
    · rw [BulkSide.objects, BulkSide.objects, rest, hlist]
      refine List.perm_iff_count.2 fun o => ?_
      simp only [List.map_cons, List.count_append, List.count_cons]
      omega
    · rw [hlist]
      exact List.mem_cons_of_mem transfer hmem
    · rw [hlist]
      rcases List.mem_cons.1 hmem with rfl | hmem
      · exact List.mem_append_right _ List.mem_cons_self
      · exact List.mem_append_left _ hmem

theorem closeFile (h : s.Inv) : s.closeFile.Inv := by
  have hremoved := (((h.purge .tx).purge .rx).removeAll .tx).removeAll .rx
  refine { hremoved with closed := fun _ t => ?_, deleted := fun hphase => by cases hphase }
  cases t <;> rfl

theorem deleteFile (h : s.Inv) (hphase : s.phase = .closed) : s.deleteFile.Inv := by
  have hclosed := h.closed (by rw [hphase]; decide)
  have hacquired : s.deleteFile.ledger.acquired = s.ledger.acquired :=
    Ledger.acquired_releaseAll ..
  refine { h with
    live := ?_
    nodup := hacquired ▸ h.nodup
    fresh := hacquired ▸ h.fresh
    refers := fun transfer hrefers => h.refers transfer ?_
    closed := fun _ => hclosed
    deleted := fun _ => rfl }
  · have hlive := h.live
    rw [BulkFile.live, hclosed, hclosed] at hlive
    have hempty : s.deleteFile.live = [] := by
      rw [BulkFile.live]
      show (s.sides .tx).objects ++ (s.sides .rx).objects ++ [] = []
      rw [hclosed, hclosed]
      rfl
    rw [hempty]
    exact Ledger.Live.settled hlive
  · rcases hrefers with hside | hmem
    · exact .inl hside
    · cases hmem

/-- New objects of a new transfer. -/
theorem acquired_nodup (h : s.Inv) {l : Ledger Object} {kinds : List Kind} (hnodup : kinds.Nodup)
    (hacquires : Acquires s.requests kinds s.ledger l) :
    l.acquired.Nodup ∧ ∀ o ∈ l.acquired, o.transfer < s.requests + 1 := by
  rw [hacquires]
  constructor
  · refine List.nodup_append.2 ⟨hnodup.map fun k k' heq => congrArg Object.kind heq, h.nodup, ?_⟩
    rintro o hnew o' hold rfl
    obtain ⟨kind, -, rfl⟩ := List.mem_map.1 hnew
    exact absurd (h.fresh _ hold) (Nat.lt_irrefl _)
  · intro o ho
    rcases List.mem_append.1 ho with hnew | hold
    · obtain ⟨kind, -, rfl⟩ := List.mem_map.1 hnew
      exact Nat.lt_succ_self _
    · exact Nat.lt_succ_of_lt (h.fresh o hold)

/-- A submission has failed, and nothing of it is left. -/
theorem fail (h : s.Inv) (kinds : List Kind) {l : Ledger Object} (hlive : l.Live s.live)
    (hnodup : kinds.Nodup) (hacquires : Acquires s.requests kinds s.ledger l) :
    Inv { s with requests := s.requests + 1, failed := s.requests :: s.failed, ledger := l } := by
  obtain ⟨hnodup', hfresh⟩ := h.acquired_nodup hnodup hacquires
  refine { h with
    live := hlive
    nodup := hnodup'
    fresh := hfresh
    refers := fun transfer hrefers => ?_
    failed := fun transfer hmem => ?_ }
  · obtain ⟨hlt, hnot⟩ := h.refers transfer hrefers
    refine ⟨Nat.lt_succ_of_lt hlt, fun hmem => ?_⟩
    rcases List.mem_cons.1 hmem with rfl | hmem
    · exact Nat.lt_irrefl _ hlt
    · exact hnot hmem
  · rcases List.mem_cons.1 hmem with rfl | hmem
    · exact Nat.lt_succ_self _
    · exact Nat.lt_succ_of_lt (h.failed transfer hmem)

/-- The entry that was added is the last one. -/
theorem removeTail_append (s : BulkFile) (t : MsgBulkType) (transfer : Nat) (l : Ledger Object) :
    BulkFile.removeTail { s.setSide t { s.sides t with
        pendingBulkMsgList := (s.sides t).pendingBulkMsgList ++ [transfer] } with ledger := l } t =
      { s with ledger := l.release (BulkResources.entry transfer) } := by
  simp only [removeTail, setSide, Function.update_self, List.getLast?_concat, Function.update_idem,
    List.dropLast_concat, Function.update_eq_self]

/-- A transfer is started. -/
theorem submit (h : s.Inv) (hphase : s.phase = .opened) (t : MsgBulkType) {l : Ledger Object}
    {kinds : List Kind}
    (hlive : l.Live ((Request.started s.requests).objects ++
      (BulkResources.entry s.requests :: s.live)))
    (hnodup : kinds.Nodup) (hacquires : Acquires s.requests kinds s.ledger l) :
    Inv { s.setSide t ⟨(s.sides t).fileQueue ++ [.started s.requests],
        (s.sides t).pendingBulkMsgList ++ [s.requests]⟩ with
      requests := s.requests + 1
      ledger := l } := by
  obtain ⟨hnodup', hfresh⟩ := h.acquired_nodup hnodup hacquires
  have hset : ∀ t', t' ≠ t → Function.update s.sides t
      ⟨(s.sides t).fileQueue ++ [.started s.requests],
        (s.sides t).pendingBulkMsgList ++ [s.requests]⟩ t' = s.sides t' :=
    fun t' ht => Function.update_of_ne ht ..
  -- the queue and the list of this direction have the new transfer, and nothing else changes
  have hqueue : ∀ t', ∀ request ∈ (Function.update s.sides t
      ⟨(s.sides t).fileQueue ++ [.started s.requests],
        (s.sides t).pendingBulkMsgList ++ [s.requests]⟩ t').fileQueue,
      request ∈ (s.sides t').fileQueue ∨ request = .started s.requests := by
    intro t' request hmem
    by_cases ht : t' = t
    · subst ht
      rw [Function.update_self] at hmem
      exact (List.mem_append.1 hmem).imp id List.mem_singleton.1
    · rw [hset t' ht] at hmem
      exact .inl hmem
  have hlist : ∀ t', ∀ transfer ∈ (Function.update s.sides t
      ⟨(s.sides t).fileQueue ++ [.started s.requests],
        (s.sides t).pendingBulkMsgList ++ [s.requests]⟩ t').pendingBulkMsgList,
      transfer ∈ (s.sides t').pendingBulkMsgList ∨ transfer = s.requests := by
    intro t' transfer hmem
    by_cases ht : t' = t
    · subst ht
      rw [Function.update_self] at hmem
      exact (List.mem_append.1 hmem).imp id List.mem_singleton.1
    · rw [hset t' ht] at hmem
      exact .inl hmem
  constructor
  case live =>
    refine hlive.of_perm (List.Perm.trans ?_ (live_perm _ t).symm)
    show List.Perm _ ((Function.update s.sides t _ t).objects ++
      ((Function.update s.sides t _ (other t)).objects ++ s.unlinked.map BulkResources.entry))
    rw [Function.update_self, hset _ (other_ne t)]
    refine List.perm_iff_count.2 fun o => ?_
    have hside := (live_perm s t).count_eq o
    simp only [BulkSide.objects, rest, List.count_append, List.count_cons, List.count_nil,
      List.flatMap_append, List.flatMap_cons, List.flatMap_nil, List.map_append, List.map_cons,
      List.map_nil] at hside ⊢
    omega
  case nodup => exact hnodup'
  case fresh => exact hfresh
  case refers =>
    intro transfer hrefers
    have hold : s.Refers transfer ∨ transfer = s.requests := by
      rcases hrefers with ⟨t', ⟨request, hrequest, rfl⟩ | hmem⟩ | hmem
      · rcases hqueue t' request hrequest with hmem | rfl
        · exact .inl (.inl ⟨t', .inl ⟨request, hmem, rfl⟩⟩)
        · exact .inr rfl
      · exact (hlist t' transfer hmem).imp (fun hmem => .inl ⟨t', .inr hmem⟩) id
      · exact .inl (.inr hmem)
    rcases hold with hold | rfl
    · exact ⟨Nat.lt_succ_of_lt (h.refers transfer hold).1, (h.refers transfer hold).2⟩
    · exact ⟨Nat.lt_succ_self _, fun hmem => Nat.lt_irrefl _ (h.failed _ hmem)⟩
  case failed => exact fun transfer hmem => Nat.lt_succ_of_lt (h.failed transfer hmem)
  case queued =>
    intro t' request hrequest
    rcases hqueue t' request hrequest with hmem | rfl
    · exact h.queued t' request hmem
    · rfl
  case closed => exact fun hne => absurd hphase hne
  case deleted => exact fun hdeleted => by cases hphase.symm.trans hdeleted

/-- `VchiqProcessBulkTransfer`, when neither of the two allocations fails. -/
theorem processBulkTransfer (h : s.Inv) (hphase : s.phase = .opened) (t : MsgBulkType)
    (r : Outcomes) (hpageList : (Action.processBulkTransfer t r).failure ≠ some .pageList)
    (hcontext : (Action.processBulkTransfer t r).failure ≠ some .txRequestContext) :
    (s.processBulkTransfer t r).Inv := by
  rw [BulkFile.processBulkTransfer]
  dsimp only
  cases hpending : r .pendingBulkMsg with
  | false => exact h.fail [] h.live List.nodup_nil rfl
  | true =>
    cases hforward : r .forward with
    | false =>
      rw [if_neg (by decide), if_pos (by decide), removeTail_append]
      exact h.fail [.pendingBulkMsg] h.live.acquire.release (by decide) rfl
    | true =>
      rw [failure_eq t hpending hforward s.requests
        (s.ledger.acquire (BulkResources.entry s.requests))] at hpageList hcontext
      rw [if_neg (by decide), if_neg (by decide)]
      obtain ⟨hlive, ⟨kinds, hnodup, hkinds, hacquires⟩, hstarted⟩ :=
        owned_transfer h.live.acquire hpageList hcontext
      obtain ⟨x, hx⟩ : ∃ x, x = vchiqBulkTransfer r s.requests
        (s.ledger.acquire (BulkResources.entry s.requests)) := ⟨_, rfl⟩
      rw [← hx] at hlive hacquires hstarted ⊢
      obtain ⟨failure, request, l⟩ := x
      have hnodup' : (kinds ++ [Kind.pendingBulkMsg]).Nodup :=
        List.nodup_append.2 ⟨hnodup, List.nodup_singleton _, fun kind hmem kind' hmem' heq =>
          hkinds (List.mem_singleton.1 hmem' ▸ heq ▸ hmem)⟩
      have hacquires' : Acquires s.requests (kinds ++ [.pendingBulkMsg]) s.ledger l := by
        rw [Acquires, List.map_append, List.append_assoc]
        exact hacquires
      cases failure with
      | none =>
        obtain rfl : request = .started s.requests := hstarted rfl
        simp only [setSide, Function.update_idem, Function.update_self]
        exact h.submit hphase t hlive hnodup' hacquires'
      | some _ =>
        dsimp only
        rw [removeTail_append]
        exact h.fail _ (Ledger.Live.releaseAll (Ledger.Live.release
          (hlive.of_perm List.perm_middle))) hnodup'
          (Eq.trans (Ledger.acquired_releaseAll _ request.objects) hacquires')

/-- What one step preserves. -/
theorem effect (h : s.Inv) {a : Action} (henabled : s.enabled a)
    (hpageList : a.failure ≠ some .pageList) (hcontext : a.failure ≠ some .txRequestContext) :
    (s.effect a).Inv := by
  cases a with
  | processBulkTransfer t r => exact h.processBulkTransfer henabled t r hpageList hcontext
  | bulkDone t success => exact h.bulkDone t success
  | removeHead t => exact h.removeHead t
  | cancel t request => exact h.cancel henabled
  | closeFile => exact h.closeFile
  | deleteFile => exact h.deleteFile henabled

theorem start : BulkFile.start.Inv where
  live := Ledger.Live.empty
  nodup := List.nodup_nil
  fresh := fun _ hmem => absurd hmem List.not_mem_nil
  refers := by
    rintro transfer (⟨_, ⟨_, hmem, -⟩ | hmem⟩ | hmem) <;> exact absurd hmem List.not_mem_nil
  failed := fun _ hmem => absurd hmem List.not_mem_nil
  queued := fun _ _ hmem => absurd hmem List.not_mem_nil
  closed := fun _ _ => rfl
  deleted := fun _ => rfl

end Inv

end BulkFile

/-! ## Every run -/

/-- Just one call fails. -/
def allBut (p : FailurePoint) : Outcomes := fun q => q != p

/-- One submission that fails at one of the two points. -/
theorem unsound_of_point {points : FailurePoint → Prop} {p : FailurePoint} (hp : points p)
    (hpoint : p = .pageList ∨ p = .txRequestContext) :
    ∃ s, bulkFileMachine.Reach (FailsOnlyAt points) s ∧ ¬ ReleaseSound s := by
  have hfailure : (Action.processBulkTransfer .tx (allBut p)).failure = some p := by
    rcases hpoint with rfl | rfl <;> rfl
  have hstep : bulkFileMachine.step .start (.processBulkTransfer .tx (allBut p)) =
      some (BulkFile.start.processBulkTransfer .tx (allBut p)) := rfl
  refine ⟨BulkFile.start.processBulkTransfer .tx (allBut p),
    .step (.init rfl) (fun q hq => ?_) hstep, fun h => ?_⟩
  · rw [hfailure] at hq
    obtain rfl : p = q := Option.some.inj hq
    exact hp
  · -- the scatter/gather list belongs to no request, and was not put
    have hqueue : ∀ t, ((BulkFile.start.processBulkTransfer .tx (allBut p)).sides t).fileQueue =
        [] := fun t => by
      rcases hpoint with rfl | rfl <;> cases t <;> rfl
    have hput := fun hmem => h.ended ⟨.scatterGatherList, 0⟩ hmem (by decide)
      fun t request hrequest => absurd (hqueue t ▸ hrequest) List.not_mem_nil
    rcases hpoint with rfl | rfl
    · exact absurd (hput (by decide)) (by decide)
    · exact absurd (hput (by decide)) (by decide)

/-- **The objects of every bulk transfer are released, each once, exactly when no submission fails
for want of the page list or of the context of the request.** -/
theorem releaseSound_iff (points : FailurePoint → Prop) :
    (∀ s, bulkFileMachine.Reach (FailsOnlyAt points) s → ReleaseSound s) ↔
      ¬ points .pageList ∧ ¬ points .txRequestContext := by
  constructor
  · intro hsound
    refine ⟨fun hp => ?_, fun hp => ?_⟩
    · obtain ⟨s, hreach, hnot⟩ := unsound_of_point hp (.inl rfl)
      exact hnot (hsound s hreach)
    · obtain ⟨s, hreach, hnot⟩ := unsound_of_point hp (.inr rfl)
      exact hnot (hsound s hreach)
  · rintro ⟨hpageList, hcontext⟩ s h
    have hinv : s.Inv := by
      refine Machine.Reach.inv_guarded (fun s hs => ?_) (fun s a hinv hok henabled => ?_) h
      · rw [hs]
        exact BulkFile.Inv.start
      · exact hinv.effect henabled (fun heq => hpageList (hok _ heq))
          (fun heq => hcontext (hok _ heq))
    exact hinv.sound

/-- `VchiqAllocateCommonBuffer` fails, and the scatter/gather list is never put. -/
theorem list_not_put : ¬ ∀ s, bulkFileMachine.Reachable s → ReleaseSound s := by
  intro h
  obtain ⟨s, hreach, hlist⟩ := bulkFileMachine.reach_exec_any (s := BulkFile.start)
    [.processBulkTransfer .tx (allBut .pageList), .closeFile, .deleteFile]
    (p := fun s => s.phase == .deleted && s.ledger.acquired.contains ⟨.scatterGatherList, 0⟩ &&
      !s.ledger.released.contains ⟨.scatterGatherList, 0⟩) rfl (by decide +kernel)
  rw [Bool.and_eq_true, Bool.and_eq_true] at hlist
  obtain ⟨⟨hphase, hacquired⟩, hreleased⟩ := hlist
  have hsettled : s.ledger.acquired.Perm (s.ledger.released ++ []) :=
    (h s hreach).deleted (eq_of_beq hphase)
  rw [List.append_nil] at hsettled
  have hmem := hsettled.mem_iff.1 (List.contains_iff_mem.1 hacquired)
  rw [List.contains_iff_mem.2 hmem] at hreleased
  cases hreleased

end RpiDrivers.Vchiq.BulkResources
