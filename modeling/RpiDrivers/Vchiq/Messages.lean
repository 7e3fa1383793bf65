import Mathlib.Algebra.Group.Nat.Defs
import RpiDrivers.Lib.Machine

/-!
# The delivery of messages (`slots.c`, `ioctl.c`)

A DATA message for a service is listed in `PendingDataMsgList`. An `AWAIT_COMPLETION` request,
which waits in a manual queue of the file, is completed with as many of the listed messages as
it has room for. On a VCHI service the messages reported are listed once more, in
`PendingVchiMsgList`, and a `DEQUEUE_MESSAGE` request takes one of these. The RX thread and the
ioctls process the lists, the first one under `PendingDataMsgMutex`, the second one under
`PendingVchiMsgMutex`.

- `Service`, `MsgAction`: the lists, the queues and who holds the mutexes; each step of the RX
  thread and of the ioctls, and the cancellation of requests.
- `DeliverySound`: the messages are reported once, in order and whole, on a VCHI service they
  are dequeued once and in the same order, and when everything is at rest no request waits that
  could be completed.
- `deliverySound_of_orderly`: **messages that are not empty are delivered soundly**, in every
  run that stays within the caller's arrays and whose requests have room for the messages they
  are matched with.
- `delivery_fails`: an empty message is ignored; and what happens otherwise.

The slots that hold the messages are not part of this model.
-/

namespace RpiDrivers.Vchiq.Messages

open RpiDrivers.Lib

/-! ## Messages and requests -/

/-- `VCHIQ_REASON_T` -/
inductive Reason
  | serviceOpened
  | serviceClosed
  | messageAvailable
  | bulkTransmitDone
  | bulkReceiveDone
  | bulkTransmitAborted
  | bulkReceiveAborted
  deriving DecidableEq

/-- A DATA message in a slot: `VCHIQ_HEADER` and the payload after it. -/
structure RxMsg where
  msgId : UInt32
  payload : List UInt8
  fits : payload.length + 8 ≤ 4096
  deriving DecidableEq

/-- A `ULONG` in memory. -/
def ulongBytes (v : Nat) : List UInt8 :=
  [.ofNat v, .ofNat (v / 2 ^ 8), .ofNat (v / 2 ^ 16), .ofNat (v / 2 ^ 24)]

/-- The message as it is in the slot. -/
def RxMsg.bytes (m : RxMsg) : List UInt8 :=
  ulongBytes m.msgId.toNat ++ ulongBytes m.payload.length ++ m.payload

/-- `nextMsgHeaderPtr->Size + sizeof(*nextMsgHeaderPtr)`, a `ULONG` -/
def RxMsg.pendingMsgSize (m : RxMsg) : Nat := (m.payload.length + 8) % 2 ^ 32

/-- What `RtlCopyMemory` copies of the message. -/
def RxMsg.copied (m : RxMsg) : List UInt8 := m.bytes.take m.pendingMsgSize

theorem RxMsg.copied_eq (m : RxMsg) : m.copied = m.bytes := by
  have hfits := m.fits
  refine List.take_of_length_le ?_
  simp only [RxMsg.bytes, RxMsg.pendingMsgSize, ulongBytes, List.length_append, List.length_cons,
    List.length_nil]
  omega

/-- A request `AWAIT_COMPLETION`. `VchiqInCallerContext` lets it pass only with at least one
completion record. -/
structure AwaitCompletion where
  id : Nat
  outputBufferLength : Nat
  count : Nat
  msgBufSize : Nat
  msgBufCount : Nat
  counted : 0 < count

/-- A request `DEQUEUE_MESSAGE`. -/
structure DequeueMessage where
  id : Nat
  outputBufferLength : Nat
  blocking : Bool
  bufSize : Nat
  deriving DecidableEq

/-- A record of `VCHIQ_COMPLETION_DATA` with the message in its buffer. -/
structure Report where
  reason : Reason
  serviceUserData : Nat
  msg : List UInt8

/-! ## The state -/

/-- Who runs `VchiqProcessPendingMsg`. -/
inductive MsgCaller
  | rx
  /-- the ioctl of the request with this number -/
  | awaitCompletion (id : Nat)

/-- Where the holder of `PendingDataMsgMutex` is. -/
inductive MsgWork
  /-- at the call of `VchiqProcessPendingMsg` -/
  | processPendingMsg (caller : MsgCaller)
  /-- in the loop of `VchiqRemovePendingMsg`, with `*totalMsgPtr` and the records written -/
  | removePendingMsg (caller : MsgCaller) (request : AwaitCompletion) (totalMsg : Nat)
      (reports : List Report)
  /-- after the loop -/
  | removedPendingMsg (caller : MsgCaller) (request : AwaitCompletion) (totalMsg : Nat)
      (reports : List Report)
  /-- about to acquire `PendingVchiMsgMutex` -/
  | completedPendingMsg (caller : MsgCaller)
  /-- in `VchiqProcessPendingVchiMsg` -/
  | processPendingVchiMsg (caller : MsgCaller)

/-- The part of `VCHIQ_FILE_CONTEXT` that messages pass through, and the threads that work on
it. -/
structure Service where
  isVchi : Bool
  serviceUserData : Nat
  pendingDataMsgList : List RxMsg
  pendingVchiMsgList : List RxMsg
  /-- `FileQueue[FILE_QUEUE_PENDING_MSG]`, the head first -/
  pendingMsg : List AwaitCompletion
  /-- `FileQueue[FILE_QUEUE_PENDING_VCHI_MSG]` -/
  pendingVchiMsg : List DequeueMessage
  /-- the message for which the RX thread is about to acquire `PendingDataMsgMutex` -/
  rx : Option RxMsg
  /-- the `AWAIT_COMPLETION` ioctls that have forwarded their request and are about to acquire
  it -/
  ioctls : List Nat
  /-- the holder of `PendingDataMsgMutex` -/
  work : Option MsgWork
  /-- the `DEQUEUE_MESSAGE` ioctl that holds `PendingVchiMsgMutex` -/
  dequeuer : Option Nat
  /-- the requests that the driver has completed -/
  completed : List Nat
  /-- the messages for the service, as the RX thread has come to them -/
  received : List RxMsg
  /-- what the completed `AWAIT_COMPLETION` requests have reported -/
  reports : List Report
  /-- what the completed `DEQUEUE_MESSAGE` requests have returned -/
  dequeued : List (List UInt8)
  /-- a completion record past the caller's `Count` was used -/
  overrun : Bool

namespace Service

variable (s : Service)

/-- The record that reports a message. -/
def report (msg : List UInt8) : Report := ⟨.messageAvailable, s.serviceUserData, msg⟩

/-- The records of the request that is being completed. -/
def inHand : List Report :=
  match s.work with
  | some (.removePendingMsg _ _ _ reports) | some (.removedPendingMsg _ _ _ reports) => reports
  | _ => []

/-- The RX thread is processing a message. -/
def rxBusy : Bool :=
  s.rx.isSome ||
    match s.work with
    | some (.processPendingMsg .rx) | some (.removePendingMsg .rx _ _ _)
    | some (.removedPendingMsg .rx _ _ _) | some (.completedPendingMsg .rx)
    | some (.processPendingVchiMsg .rx) => true
    | _ => false

/-- `PendingVchiMsgMutex` is free. -/
def vchiFree : Bool :=
  s.dequeuer.isNone &&
    match s.work with
    | some (.processPendingVchiMsg _) => false
    | _ => true

/-- The next round of the loop of `VchiqRemovePendingMsg` takes a message off the list. -/
def takesMsg (request : AwaitCompletion) : Bool :=
  match s.pendingDataMsgList with
  | [] => false
  | m :: _ => m.pendingMsgSize ≤ request.msgBufSize

/-- `WdfRequestComplete` -/
def complete (id : Nat) : Service := { s with completed := s.completed ++ [id] }

/-- `VchiqProcessPendingMsg` returns an error, and `PendingDataMsgMutex` is released: an ioctl
completes its request. -/
def returnError (caller : MsgCaller) : Service :=
  let s := { s with work := none }
  match caller with
  | .rx => s
  | .awaitCompletion id => s.complete id

/-! ## The RX thread -/

/-- The DATA case of `VchiqProcessRxSlot`. -/
def vchiqProcessRxSlot (m : RxMsg) : Service :=
  let s := { s with received := s.received ++ [m] }
  -- ignore zero length data
  if m.payload = [] then s else { s with rx := some m }

/-- `VchiqProcessNewRxMsg` up to its call of `VchiqProcessPendingMsg`, and `VchiqAddPendingMsg`:
is there memory for the entry? -/
def vchiqProcessNewRxMsg (m : RxMsg) (allocated : Bool) : Service :=
  let s := { s with rx := none }
  if allocated then
    { s with
      pendingDataMsgList := s.pendingDataMsgList ++ [m]
      work := some (.processPendingMsg .rx) }
  else s

/-! ## `VchiqProcessPendingMsg` and `VchiqRemovePendingMsg` -/

/-- `VchiqProcessPendingMsg` and the beginning of `VchiqRemovePendingMsg`. -/
def vchiqProcessPendingMsg (caller : MsgCaller) : Service :=
  match s.pendingDataMsgList, s.pendingMsg with
  | _ :: _, nextRequest :: rest =>
    let s := { s with pendingMsg := rest }
    if nextRequest.outputBufferLength < 4 then (s.complete nextRequest.id).returnError caller
    else { s with work := some (.removePendingMsg caller nextRequest 0 []) }
  | _, _ => { s with work := none }

/-- The first message is copied to the record of this number, and on a VCHI service listed again:
is there memory for the entry of `VchiqAddPendingVchiMsg`? -/
def copyMsg (request : AwaitCompletion) (totalMsg : Nat) (m : RxMsg) (rest : List RxMsg)
    (allocated : Bool) : Service :=
  { s with
    pendingDataMsgList := rest
    overrun := s.overrun || decide (request.count ≤ totalMsg)
    pendingVchiMsgList :=
      if s.isVchi && allocated then s.pendingVchiMsgList ++ [m] else s.pendingVchiMsgList }

/-- One round of the loop of `VchiqRemovePendingMsg`. -/
def vchiqRemovePendingMsg (caller : MsgCaller) (request : AwaitCompletion) (totalMsg : Nat)
    (reports : List Report) (allocated : Bool) : Service :=
  match s.pendingDataMsgList with
  | [] => { s with work := some (.removedPendingMsg caller request totalMsg reports) }
  | m :: rest =>
    if request.msgBufSize < m.pendingMsgSize then
      { s with work := some (.removedPendingMsg caller request totalMsg reports) }
    else
      -- the record is in the caller's array up to `Count`
      let reports :=
        if totalMsg < request.count then reports ++ [s.report m.copied] else reports
      let s := s.copyMsg request totalMsg m rest allocated
      if totalMsg + 1 < request.msgBufCount then
        { s with work := some (.removePendingMsg caller request (totalMsg + 1) reports) }
      else { s with work := some (.removedPendingMsg caller request (totalMsg + 1) reports) }

/-- The end of `VchiqRemovePendingMsg`: the request is put back, or completed. -/
def finishPendingMsg (caller : MsgCaller) (request : AwaitCompletion) (totalMsg : Nat)
    (reports : List Report) : Service :=
  if totalMsg = 0 then { s with work := none, pendingMsg := request :: s.pendingMsg }
  else
    { s.complete request.id with
      work := some (.completedPendingMsg caller)
      reports := s.reports ++ reports }

/-! ## `VchiqProcessPendingVchiMsg` and `VchiqRemovePendingVchiMsg` -/

/-- How a round of the loop of `VchiqProcessPendingVchiMsg` ends. -/
inductive Round
  | done
  | more
  | failed
  deriving DecidableEq

/-- One round of the loop of `VchiqProcessPendingVchiMsg`. -/
def vchiqProcessPendingVchiMsg : Round × Service :=
  match s.pendingVchiMsgList, s.pendingVchiMsg with
  | m :: rest, nextRequest :: requests =>
    let s := { s with pendingVchiMsg := requests }
    if nextRequest.outputBufferLength < 4 ∨ nextRequest.bufSize < m.pendingMsgSize then
      (.failed, s.complete nextRequest.id)
    else
      (.more, { s.complete nextRequest.id with
        pendingVchiMsgList := rest
        dequeued := s.dequeued ++ [m.copied] })
  | _, _ => (.done, s)

/-- The round as the holder of `PendingDataMsgMutex` runs it. -/
def msgRound (caller : MsgCaller) : Service :=
  match s.vchiqProcessPendingVchiMsg with
  | (.done, s) => { s with work := none }
  | (.more, s) => s
  | (.failed, s) => s.returnError caller

/-- The round as the ioctl of a `DEQUEUE_MESSAGE` request runs it. -/
def dequeueRound (id : Nat) : Service :=
  match s.vchiqProcessPendingVchiMsg with
  | (.done, s) => { s with dequeuer := none }
  | (.more, s) => s
  | (.failed, s) => { s.complete id with dequeuer := none }

/-- `DEQUEUE_MESSAGE` up to its call of `VchiqProcessPendingVchiMsg`. -/
def dequeueMessage (d : DequeueMessage) : Service :=
  if !d.blocking && s.pendingVchiMsgList.isEmpty then s.complete d.id
  else { s with pendingVchiMsg := s.pendingVchiMsg ++ [d], dequeuer := some d.id }

end Service

/-! ## The machine -/

inductive MsgAction
  /-- the RX thread comes to a message for the service -/
  | rxData (m : RxMsg)
  /-- the RX thread acquires `PendingDataMsgMutex` -/
  | rxAcquire (allocated : Bool)
  /-- an `AWAIT_COMPLETION` ioctl forwards its request -/
  | await (a : AwaitCompletion)
  /-- an `AWAIT_COMPLETION` ioctl acquires `PendingDataMsgMutex` -/
  | awaitAcquire (id : Nat)
  /-- the holder of `PendingDataMsgMutex` goes on -/
  | work (allocated : Bool)
  /-- a `DEQUEUE_MESSAGE` ioctl acquires `PendingVchiMsgMutex` -/
  | dequeue (d : DequeueMessage)
  /-- it goes on -/
  | dequeueRound
  /-- the framework cancels requests that are in a queue -/
  | cancelAwait (id : Nat)
  | cancelDequeue (id : Nat)

/-- The holder of `PendingDataMsgMutex` goes on; `none` while it has to wait for
`PendingVchiMsgMutex`. -/
def Service.goOn (s : Service) (allocated : Bool) : MsgWork → Option Service
  | .processPendingMsg caller => some (s.vchiqProcessPendingMsg caller)
  | .removePendingMsg caller request totalMsg reports =>
    if s.isVchi && s.takesMsg request && !s.vchiFree then none
    else some (s.vchiqRemovePendingMsg caller request totalMsg reports allocated)
  | .removedPendingMsg caller request totalMsg reports =>
    some (s.finishPendingMsg caller request totalMsg reports)
  | .completedPendingMsg caller =>
    if s.vchiFree then some { s with work := some (.processPendingVchiMsg caller) } else none
  | .processPendingVchiMsg caller => some (s.msgRound caller)

def Service.step (s : Service) : MsgAction → Option Service
  | .rxData m => if s.rxBusy then none else some (s.vchiqProcessRxSlot m)
  | .rxAcquire allocated =>
    match s.rx, s.work with
    | some m, none => some (s.vchiqProcessNewRxMsg m allocated)
    | _, _ => none
  | .await a => some { s with pendingMsg := s.pendingMsg ++ [a], ioctls := s.ioctls ++ [a.id] }
  | .awaitAcquire id =>
    if s.work = none ∧ id ∈ s.ioctls then
      some { s with
        ioctls := s.ioctls.erase id
        work := some (.processPendingMsg (.awaitCompletion id)) }
    else none
  | .work allocated => s.work.bind (s.goOn allocated)
  | .dequeue d => if s.vchiFree then some (s.dequeueMessage d) else none
  | .dequeueRound => s.dequeuer.map s.dequeueRound
  | .cancelAwait id => some { s with pendingMsg := s.pendingMsg.filter (·.id ≠ id) }
  | .cancelDequeue id => some { s with pendingVchiMsg := s.pendingVchiMsg.filter (·.id ≠ id) }

/-- A file whose context has just been set up. -/
def Service.Initial (s : Service) : Prop :=
  s.pendingDataMsgList = [] ∧ s.pendingVchiMsgList = [] ∧ s.pendingMsg = [] ∧
    s.pendingVchiMsg = [] ∧ s.rx = none ∧ s.ioctls = [] ∧ s.work = none ∧ s.dequeuer = none ∧
    s.received = [] ∧ s.reports = [] ∧ s.dequeued = [] ∧ s.overrun = false

def msgMachine : Machine Service MsgAction where
  init := Service.Initial
  step := Service.step

/-! ## The property and the condition -/

/-- The message has no room in the request's buffers. -/
def Blocked (m : RxMsg) (a : AwaitCompletion) : Prop := a.msgBufSize < m.pendingMsgSize

instance (m : RxMsg) (a : AwaitCompletion) : Decidable (Blocked m a) :=
  inferInstanceAs (Decidable (_ < _))

/-- The messages given are those reported, those in the hands of a request that is being
completed and those still to be reported, in this order and each of them once and whole. -/
def Service.Delivered (s : Service) (msgs : List RxMsg) : Prop :=
  msgs.map (fun m => s.report m.bytes) =
    s.reports ++ s.inHand ++ (s.pendingDataMsgList ++ s.rx.toList).map fun m => s.report m.bytes

/-- The messages given are those dequeued and those still to be dequeued or reported. -/
def Service.Dequeued (s : Service) (msgs : List RxMsg) : Prop :=
  msgs.map RxMsg.bytes = s.dequeued ++
    (s.pendingVchiMsgList ++ s.pendingDataMsgList ++ s.rx.toList).map RxMsg.bytes

/-- The messages for the service are delivered once, in order and whole, within the arrays of
the caller; and at rest no request waits that could be completed. -/
structure DeliverySound (s : Service) (msgs : List RxMsg) : Prop where
  delivered : s.Delivered msgs
  dequeued : s.isVchi = true → s.Dequeued msgs
  inBounds : s.overrun = false
  awaits : s.rx = none → s.ioctls = [] → s.work = none →
    ∀ m ∈ s.pendingDataMsgList.head?, ∀ a ∈ s.pendingMsg, Blocked m a
  dequeues : s.work = none → s.dequeuer = none →
    s.pendingVchiMsgList = [] ∨ s.pendingVchiMsg = []

/-- The messages that are not empty. -/
def Service.nonempty (s : Service) : List RxMsg := s.received.filter (·.payload ≠ [])

/-- The request that `VchiqProcessPendingVchiMsg` matches with a message has room for it. -/
def orderlyRound (s : Service) : Bool :=
  match s.pendingVchiMsgList, s.pendingVchiMsg with
  | m :: _, d :: _ => decide (4 ≤ d.outputBufferLength ∧ m.pendingMsgSize ≤ d.bufSize)
  | _, _ => true

/-- The request that `VchiqProcessPendingMsg` matches with a message has room for it, or no other
one that waits has; and a message that is copied has a record of the caller, and on a VCHI
service an entry can be allocated for it. -/
def orderlyWork (s : Service) (allocated : Bool) : MsgWork → Bool
  | .processPendingMsg _ =>
    match s.pendingDataMsgList, s.pendingMsg with
    | m :: _, a :: rest =>
      decide (4 ≤ a.outputBufferLength ∧ (¬ Blocked m a ∨ ∀ b ∈ rest, Blocked m b))
    | _, _ => true
  | .removePendingMsg _ request totalMsg _ =>
    match s.pendingDataMsgList with
    | m :: _ =>
      decide (Blocked m request ∨ totalMsg < request.count ∧ (s.isVchi = true → allocated = true))
    | [] => true
  | .removedPendingMsg _ _ _ _ | .completedPendingMsg _ => true
  | .processPendingVchiMsg _ => orderlyRound s

/-- The condition on a step. -/
def Orderly (s : Service) : MsgAction → Prop
  | .rxAcquire allocated => allocated = true
  | .work allocated => s.work.all (orderlyWork s allocated) = true
  | .dequeueRound => orderlyRound s = true
  | _ => True

instance (s : Service) : ∀ a, Decidable (Orderly s a)
  | .rxAcquire allocated => inferInstanceAs (Decidable (allocated = true))
  | .work allocated => inferInstanceAs (Decidable (s.work.all (orderlyWork s allocated) = true))
  | .dequeueRound => inferInstanceAs (Decidable (orderlyRound s = true))
  | .rxData _ | .await _ | .awaitAcquire _ | .dequeue _ | .cancelAwait _ | .cancelDequeue _ =>
    inferInstanceAs (Decidable True)

/-! ## Waiting requests -/

/-- While messages are listed, the requests that wait are first those that are known to have no
room for the first message, and then at most as many as ioctls are still to come. -/
def Waiting (pending : List RxMsg) (queue : List AwaitCompletion) (due : Nat) : Prop :=
  ∀ m ∈ pending.head?, ∃ settled fresh, queue = settled ++ fresh ∧
    (∀ a ∈ settled, Blocked m a) ∧ fresh.length ≤ due

/-- While messages are listed, at most as many requests wait as ioctls are still to come. -/
def AllDue (pending : List RxMsg) (queue : List AwaitCompletion) (due : Nat) : Prop :=
  pending = [] ∨ queue.length ≤ due

theorem AllDue.waiting {pending : List RxMsg} {queue : List AwaitCompletion} {due : Nat}
    (h : AllDue pending queue due) : Waiting pending queue due := by
  rintro m hm
  obtain rfl | hle := h
  · exact nomatch hm
  · exact ⟨[], queue, rfl, by simp, hle⟩

theorem waiting_nil (queue : List AwaitCompletion) (due : Nat) : Waiting [] queue due :=
  fun _ hm => nomatch hm

theorem Waiting.forward {pending : List RxMsg} {queue : List AwaitCompletion} {due : Nat}
    (h : Waiting pending queue due) (a : AwaitCompletion) :
    Waiting pending (queue ++ [a]) (due + 1) := by
  intro m hm
  obtain ⟨settled, fresh, rfl, hsettled, hfresh⟩ := h m hm
  refine ⟨settled, fresh ++ [a], List.append_assoc .., hsettled, ?_⟩
  rw [List.length_append]
  exact Nat.succ_le_succ hfresh

theorem AllDue.forward {pending : List RxMsg} {queue : List AwaitCompletion} {due : Nat}
    (h : AllDue pending queue due) (a : AwaitCompletion) :
    AllDue pending (queue ++ [a]) (due + 1) := by
  refine h.imp_right fun hle => ?_
  rw [List.length_append]
  exact Nat.succ_le_succ hle

theorem Waiting.cancel {pending : List RxMsg} {queue : List AwaitCompletion} {due : Nat}
    (h : Waiting pending queue due) (p : AwaitCompletion → Bool) :
    Waiting pending (queue.filter p) due := by
  intro m hm
  obtain ⟨settled, fresh, rfl, hsettled, hfresh⟩ := h m hm
  refine ⟨settled.filter p, fresh.filter p, List.filter_append .., fun a ha => ?_, ?_⟩
  · exact hsettled a (List.mem_filter.1 ha).1
  · exact Nat.le_trans (List.length_filter_le p fresh) hfresh

theorem AllDue.cancel {pending : List RxMsg} {queue : List AwaitCompletion} {due : Nat}
    (h : AllDue pending queue due) (p : AwaitCompletion → Bool) :
    AllDue pending (queue.filter p) due :=
  h.imp_right (Nat.le_trans (List.length_filter_le p queue))

/-- A message at the tail is not the first one. -/
theorem Waiting.snoc {m : RxMsg} {ms queue due} (h : Waiting (m :: ms) queue due) (m' : RxMsg) :
    Waiting (m :: ms ++ [m']) queue due :=
  h

theorem Waiting.mono {pending : List RxMsg} {queue : List AwaitCompletion} {due due' : Nat}
    (h : Waiting pending queue due) (hle : due ≤ due') : Waiting pending queue due' := by
  intro m hm
  obtain ⟨settled, fresh, heq, hsettled, hfresh⟩ := h m hm
  exact ⟨settled, fresh, heq, hsettled, Nat.le_trans hfresh hle⟩

/-- The first request that waits has room for the first message: all that wait are due. -/
theorem Waiting.retrieve {m : RxMsg} {ms : List RxMsg} {a : AwaitCompletion}
    {rest : List AwaitCompletion} {due : Nat} (h : Waiting (m :: ms) (a :: rest) (due + 1))
    (hroom : ¬ Blocked m a) : rest.length ≤ due := by
  obtain ⟨settled, fresh, heq, hsettled, hfresh⟩ := h m rfl
  cases settled with
  | nil =>
    rw [← show a :: rest = fresh from heq] at hfresh
    exact Nat.le_of_succ_le_succ hfresh
  | cons b settled =>
    obtain rfl : a = b := (List.cons.inj heq).1
    exact absurd (hsettled a (List.mem_cons_self ..)) hroom

/-- A request that has no room for the first message is put back. -/
theorem Waiting.requeue {m : RxMsg} {ms : List RxMsg} {a : AwaitCompletion}
    {queue : List AwaitCompletion} {due : Nat} (h : Waiting (m :: ms) queue due)
    (hblocked : Blocked m a) : Waiting (m :: ms) (a :: queue) due := by
  rintro _ ⟨⟩
  obtain ⟨settled, fresh, rfl, hsettled, hfresh⟩ := h m rfl
  refine ⟨a :: settled, fresh, rfl, ?_, hfresh⟩
  rintro b (_ | ⟨_, hb⟩)
  · exact hblocked
  · exact hsettled b hb

/-! ## The invariant -/

/-- Nothing that is listed for a dequeue could be taken. -/
def Service.VchiRest (s : Service) : Prop :=
  s.dequeuer = none → s.pendingVchiMsgList = [] ∨ s.pendingVchiMsg = []

/-- A request in the hands of a thread: as long as it has taken no message, it has room for the
first one and all others are due, or it has not. -/
def Service.Taking (s : Service) (request : AwaitCompletion) : Prop :=
  s.VchiRest ∧ ∃ m ms, s.pendingDataMsgList = m :: ms ∧
    (¬ Blocked m request ∧ AllDue ms s.pendingMsg s.ioctls.length ∨
      Blocked m request ∧ Waiting (m :: ms) s.pendingMsg s.ioctls.length)

/-- The requests that wait, by where the holder of `PendingDataMsgMutex` is. -/
def Service.WorkInv (s : Service) : Option MsgWork → Prop
  | none => s.VchiRest ∧ Waiting s.pendingDataMsgList s.pendingMsg s.ioctls.length
  | some (.processPendingMsg _) =>
    s.VchiRest ∧ (s.pendingDataMsgList.length ≤ 1 ∨
      Waiting s.pendingDataMsgList s.pendingMsg (s.ioctls.length + 1))
  | some (.removePendingMsg _ request totalMsg reports) =>
    totalMsg = reports.length ∧ (totalMsg = 0 → s.Taking request) ∧
      (0 < totalMsg → AllDue s.pendingDataMsgList s.pendingMsg s.ioctls.length)
  | some (.removedPendingMsg _ request totalMsg reports) =>
    totalMsg = reports.length ∧
      (totalMsg = 0 → s.VchiRest ∧ ∃ m ms, s.pendingDataMsgList = m :: ms ∧
        Blocked m request ∧ Waiting (m :: ms) s.pendingMsg s.ioctls.length) ∧
      (0 < totalMsg → AllDue s.pendingDataMsgList s.pendingMsg s.ioctls.length)
  | some (.completedPendingMsg _) | some (.processPendingVchiMsg _) =>
    AllDue s.pendingDataMsgList s.pendingMsg s.ioctls.length

/-- The invariant of a service. -/
structure Inv (s : Service) : Prop where
  delivered : s.Delivered s.nonempty
  dequeued : s.isVchi = true → s.Dequeued s.nonempty
  inBounds : s.overrun = false
  work : s.WorkInv s.work

/-- What the other threads and the framework may do to the queues. -/
theorem Service.WorkInv.congr {s s' : Service} {work : Option MsgWork} (h : s.WorkInv work)
    (hpending : s'.pendingDataMsgList = s.pendingDataMsgList) (hrest : s.VchiRest → s'.VchiRest)
    (hwaiting : ∀ pending k, Waiting pending s.pendingMsg (s.ioctls.length + k) →
      Waiting pending s'.pendingMsg (s'.ioctls.length + k))
    (hdue : ∀ pending, AllDue pending s.pendingMsg s.ioctls.length →
      AllDue pending s'.pendingMsg s'.ioctls.length) : s'.WorkInv work := by
  revert h
  unfold Service.WorkInv
  rw [hpending]
  split
  · exact fun h => ⟨hrest h.1, hwaiting _ 0 h.2⟩
  · exact fun h => ⟨hrest h.1, h.2.imp_right (hwaiting _ 1)⟩
  · refine fun h => ⟨h.1, fun hzero => ?_, fun hpos => hdue _ (h.2.2 hpos)⟩
    obtain ⟨hvchi, m, ms, hlist, htaking⟩ := h.2.1 hzero
    refine ⟨hrest hvchi, m, ms, hpending.trans hlist, ?_⟩
    exact htaking.imp (And.imp_right (hdue ms)) (And.imp_right (hwaiting (m :: ms) 0))
  · refine fun h => ⟨h.1, fun hzero => ?_, fun hpos => hdue _ (h.2.2 hpos)⟩
    obtain ⟨hvchi, m, ms, hlist, hblocked, hwait⟩ := h.2.1 hzero
    exact ⟨hrest hvchi, m, ms, hlist, hblocked, hwaiting (m :: ms) 0 hwait⟩
  · exact fun h => hdue _ h
  · exact fun h => hdue _ h

theorem Inv.sound {s : Service} (h : Inv s) : DeliverySound s s.nonempty := by
  refine ⟨h.delivered, h.dequeued, h.inBounds, ?_, ?_⟩
  · intro _ hioctls hwork m hm a ha
    have hinv := h.work
    rw [hwork] at hinv
    obtain ⟨settled, fresh, heq, hsettled, hfresh⟩ := hinv.2 m hm
    rw [hioctls] at hfresh
    obtain rfl : fresh = [] := List.eq_nil_of_length_eq_zero (Nat.le_zero.1 hfresh)
    rw [heq, List.append_nil] at ha
    exact hsettled a ha
  · intro hwork hdequeuer
    have hinv := h.work
    rw [hwork] at hinv
    exact hinv.1 hdequeuer

namespace Inv

variable {s : Service}

/-! ### The RX thread -/

theorem rxData (h : Inv s) (hbusy : s.rxBusy = false) (m : RxMsg) :
    Inv (s.vchiqProcessRxSlot m) := by
  have hrx : s.rx = none := by
    rw [Service.rxBusy, Bool.or_eq_false_iff] at hbusy
    exact Option.isNone_iff_eq_none.1 (by simpa using hbusy.1)
  have hdelivered := h.delivered
  have hdequeued := h.dequeued
  rw [Service.Delivered, hrx] at hdelivered
  rw [Service.Dequeued, hrx] at hdequeued
  unfold Service.vchiqProcessRxSlot
  dsimp only
  split
  · next hempty =>
    have hsame : { s with received := s.received ++ [m] }.nonempty = s.nonempty := by
      simp [Service.nonempty, hempty]
    refine ⟨?_, ?_, h.inBounds, h.work⟩
    · rw [hsame]
      exact h.delivered
    · rw [hsame]
      exact h.dequeued
  · next hpayload =>
    have hsnoc : { s with received := s.received ++ [m], rx := some m }.nonempty =
        s.nonempty ++ [m] := by
      simp [Service.nonempty, hpayload]
    refine ⟨?_, fun hvchi => ?_, h.inBounds, h.work⟩
    · rw [hsnoc, Service.Delivered, List.map_append]
      refine (congrArg (· ++ _) hdelivered).trans ?_
      simp [Service.inHand, Service.report]
    · rw [hsnoc, Service.Dequeued, List.map_append, hdequeued hvchi]
      simp

theorem rxAcquire (h : Inv s) {m : RxMsg} (hrx : s.rx = some m) (hwork : s.work = none) :
    Inv (s.vchiqProcessNewRxMsg m true) := by
  have hdelivered := h.delivered
  have hdequeued := h.dequeued
  have hinv := h.work
  rw [Service.Delivered, hrx, Service.inHand, hwork] at hdelivered
  rw [Service.Dequeued, hrx] at hdequeued
  rw [hwork] at hinv
  refine ⟨?_, fun hvchi => ?_, h.inBounds, hinv.1, ?_⟩
  · refine hdelivered.trans ?_
    simp [Service.vchiqProcessNewRxMsg, Service.inHand, Service.report]
  · refine (hdequeued hvchi).trans ?_
    simp [Service.vchiqProcessNewRxMsg]
  · show (s.pendingDataMsgList ++ [m]).length ≤ 1 ∨
      Waiting (s.pendingDataMsgList ++ [m]) s.pendingMsg (s.ioctls.length + 1)
    cases hpending : s.pendingDataMsgList with
    | nil => exact .inl (Nat.le_refl 1)
    | cons m' ms =>
      -- the first message stays the first one
      have hwaiting := hinv.2
      rw [hpending] at hwaiting
      exact .inr ((hwaiting.mono (Nat.le_succ _)).snoc m)

/-! ### Requests arrive and are cancelled -/

theorem await (h : Inv s) (a : AwaitCompletion) :
    Inv { s with pendingMsg := s.pendingMsg ++ [a], ioctls := s.ioctls ++ [a.id] } := by
  have hlength : (s.ioctls ++ [a.id]).length = s.ioctls.length + 1 := List.length_append
  refine ⟨h.delivered, h.dequeued, h.inBounds, h.work.congr rfl id (fun pending k hw => ?_)
    fun pending hd => ?_⟩
  · show Waiting pending (s.pendingMsg ++ [a]) ((s.ioctls ++ [a.id]).length + k)
    rw [hlength, Nat.add_right_comm]
    exact hw.forward a
  · show AllDue pending (s.pendingMsg ++ [a]) (s.ioctls ++ [a.id]).length
    rw [hlength]
    exact hd.forward a

theorem cancelAwait (h : Inv s) (p : AwaitCompletion → Bool) :
    Inv { s with pendingMsg := s.pendingMsg.filter p } :=
  ⟨h.delivered, h.dequeued, h.inBounds,
    h.work.congr rfl id (fun _ _ hw => hw.cancel p) fun _ hd => hd.cancel p⟩

theorem cancelDequeue (h : Inv s) (p : DequeueMessage → Bool) :
    Inv { s with pendingVchiMsg := s.pendingVchiMsg.filter p } := by
  refine ⟨h.delivered, h.dequeued, h.inBounds, h.work.congr rfl ?_ (fun _ _ => id) fun _ => id⟩
  refine fun hrest hfree => (hrest hfree).imp_right fun hnil => ?_
  show s.pendingVchiMsg.filter p = []
  rw [hnil]
  rfl

/-- An ioctl acquires `PendingDataMsgMutex`: it is no longer to come. -/
theorem awaitAcquire (h : Inv s) (hwork : s.work = none) {id : Nat} (hid : id ∈ s.ioctls) :
    Inv { s with
      ioctls := s.ioctls.erase id
      work := some (.processPendingMsg (.awaitCompletion id)) } := by
  have hdelivered := h.delivered
  have hinv := h.work
  rw [Service.Delivered, Service.inHand, hwork] at hdelivered
  rw [hwork] at hinv
  refine ⟨hdelivered, h.dequeued, h.inBounds, hinv.1, .inr ?_⟩
  have hpos := List.length_pos_of_mem hid
  have hlength : (s.ioctls.erase id).length + 1 = s.ioctls.length := by
    rw [List.length_erase_of_mem hid]
    omega
  exact hlength ▸ hinv.2

/-! ### The dequeues -/

/-- A message is taken from the second list, or the loop is left with nothing to match. -/
theorem round_cases (s : Service) (hok : orderlyRound s = true) :
    (s.vchiqProcessPendingVchiMsg = (.done, s) ∧
      (s.pendingVchiMsgList = [] ∨ s.pendingVchiMsg = [])) ∨
    ∃ m rest request requests, s.pendingVchiMsgList = m :: rest ∧
      s.pendingVchiMsg = request :: requests ∧
      s.vchiqProcessPendingVchiMsg = (.more, { s with
        pendingVchiMsg := requests
        completed := s.completed ++ [request.id]
        pendingVchiMsgList := rest
        dequeued := s.dequeued ++ [m.bytes] }) := by
  unfold Service.vchiqProcessPendingVchiMsg
  split
  · next m rest request requests hlist hqueue =>
    simp only [orderlyRound, hlist, hqueue, decide_eq_true_eq] at hok
    refine .inr ⟨m, rest, request, requests, hlist, hqueue, ?_⟩
    rw [if_neg (by omega), RxMsg.copied_eq]
    rfl
  · next hnone =>
    refine .inl ⟨rfl, ?_⟩
    cases hlist : s.pendingVchiMsgList with
    | nil => exact .inl rfl
    | cons m rest =>
      cases hqueue : s.pendingVchiMsg with
      | nil => exact .inr rfl
      | cons request requests => exact (hnone m rest request requests hlist hqueue).elim

/-- A dequeue takes the oldest message. -/
theorem dequeued_more (h : Inv s) {m : RxMsg} {rest : List RxMsg} {request : DequeueMessage}
    {requests : List DequeueMessage} (hlist : s.pendingVchiMsgList = m :: rest)
    (hqueue : s.pendingVchiMsg = request :: requests) (completed : List Nat) :
    Inv { s with
      pendingVchiMsg := requests
      completed := completed
      pendingVchiMsgList := rest
      dequeued := s.dequeued ++ [m.bytes] } := by
  have hdequeued := h.dequeued
  rw [Service.Dequeued, hlist] at hdequeued
  refine ⟨h.delivered, fun hvchi => (hdequeued hvchi).trans ?_, h.inBounds,
    h.work.congr rfl (fun hrest hfree => ?_) (fun _ _ => id) fun _ => id⟩
  · simp
  · -- both the list and the queue had an entry
    obtain hnil | hnil := hrest hfree
    · exact absurd (hlist.symm.trans hnil) (List.cons_ne_nil _ _)
    · exact absurd (hqueue.symm.trans hnil) (List.cons_ne_nil _ _)

theorem dequeue (h : Inv s) (d : DequeueMessage) : Inv (s.dequeueMessage d) := by
  unfold Service.dequeueMessage
  split
  · exact ⟨h.delivered, h.dequeued, h.inBounds,
      h.work.congr rfl id (fun _ _ => id) fun _ => id⟩
  · refine ⟨h.delivered, h.dequeued, h.inBounds,
      h.work.congr rfl (fun _ hfree => ?_) (fun _ _ => id) fun _ => id⟩
    exact absurd hfree (Option.some_ne_none _)

theorem dequeueRound (h : Inv s) (dequeuer : Nat) (hok : orderlyRound s = true) :
    Inv (s.dequeueRound dequeuer) := by
  unfold Service.dequeueRound
  obtain ⟨heq, hnone⟩ | ⟨m, rest, request, requests, hlist, hqueue, heq⟩ := round_cases s hok
  · rw [heq]
    exact ⟨h.delivered, h.dequeued, h.inBounds,
      h.work.congr rfl (fun _ _ => hnone) (fun _ _ => id) fun _ => id⟩
  · rw [heq]
    exact h.dequeued_more hlist hqueue _

/-! ### The holder of `PendingDataMsgMutex` -/

/-- The holder goes on to where the records in its hands are the same. -/
theorem setWork (h : Inv s) {work : Option MsgWork}
    (hinHand : Service.inHand { s with work := work } = s.inHand) (hwork : s.WorkInv work) :
    Inv { s with work := work } := by
  refine ⟨?_, h.dequeued, h.inBounds, hwork⟩
  have hdelivered := h.delivered
  rw [Service.Delivered, ← hinHand] at hdelivered
  exact hdelivered

theorem msgRound (h : Inv s) {caller : MsgCaller}
    (hwork : s.work = some (.processPendingVchiMsg caller)) (hok : orderlyRound s = true) :
    Inv (s.msgRound caller) := by
  have hinv := h.work
  rw [hwork] at hinv
  unfold Service.msgRound
  obtain ⟨heq, hnone⟩ | ⟨m, rest, request, requests, hlist, hqueue, heq⟩ := round_cases s hok
  · rw [heq]
    refine h.setWork ?_ ⟨fun _ => hnone, hinv.waiting⟩
    rw [Service.inHand, Service.inHand, hwork]
  · rw [heq]
    exact h.dequeued_more hlist hqueue _

theorem processPendingMsg (h : Inv s) {caller : MsgCaller}
    (hwork : s.work = some (.processPendingMsg caller)) {allocated : Bool}
    (hok : orderlyWork s allocated (.processPendingMsg caller) = true) :
    Inv (s.vchiqProcessPendingMsg caller) := by
  have hinv := h.work
  have hinHand : s.inHand = [] := by rw [Service.inHand, hwork]
  rw [hwork] at hinv
  obtain ⟨hrest, hwaiting⟩ := hinv
  unfold Service.vchiqProcessPendingMsg
  split
  · next m ms a rest hlist hqueue =>
    simp only [orderlyWork, hlist, hqueue, decide_eq_true_eq] at hok
    rw [if_neg (by omega)]
    have hdelivered := h.delivered
    rw [Service.Delivered, hinHand] at hdelivered
    refine ⟨hdelivered, h.dequeued, h.inBounds, rfl, fun _ => ⟨hrest, m, ms, hlist, ?_⟩, nofun⟩
    show ¬ Blocked m a ∧ AllDue ms rest s.ioctls.length ∨
      Blocked m a ∧ Waiting (m :: ms) rest s.ioctls.length
    by_cases hroom : Blocked m a
    · -- then no other request has room
      have hblocked := hok.2.resolve_left (not_not_intro hroom)
      refine .inr ⟨hroom, ?_⟩
      rintro _ ⟨⟩
      exact ⟨rest, [], (List.append_nil _).symm, hblocked, Nat.zero_le _⟩
    · refine .inl ⟨hroom, ?_⟩
      rw [hlist, hqueue] at hwaiting
      obtain hone | hwaiting := hwaiting
      · exact .inl (List.eq_nil_of_length_eq_zero (Nat.le_zero.1 (Nat.le_of_succ_le_succ hone)))
      · exact .inr (hwaiting.retrieve hroom)
  · next hnone =>
    refine h.setWork hinHand.symm ⟨hrest, ?_⟩
    intro m hm
    cases hlist : s.pendingDataMsgList with
    | nil => rw [hlist] at hm; exact nomatch hm
    | cons m' ms =>
      cases hqueue : s.pendingMsg with
      | nil => exact ⟨[], [], rfl, by simp, Nat.zero_le _⟩
      | cons a rest => exact (hnone m' ms a rest hlist hqueue).elim

/-- The first message goes into the hands of the request. -/
theorem copyMsg (h : Inv s) {request : AwaitCompletion} {totalMsg : Nat} {m : RxMsg}
    {ms : List RxMsg} {allocated : Bool} (hlist : s.pendingDataMsgList = m :: ms)
    (hcount : totalMsg < request.count) (hallocated : s.isVchi = true → allocated = true)
    {work : Option MsgWork}
    (hinHand : Service.inHand { s with work := work } = s.inHand ++ [s.report m.bytes])
    (hwork : (s.copyMsg request totalMsg m ms allocated).WorkInv work) :
    Inv { s.copyMsg request totalMsg m ms allocated with work := work } := by
  have hdelivered := h.delivered
  have hdequeued := h.dequeued
  rw [Service.Delivered, hlist] at hdelivered
  rw [Service.Dequeued, hlist] at hdequeued
  refine ⟨hdelivered.trans ?_, fun hvchi => (hdequeued hvchi).trans ?_, ?_, hwork⟩
  · show _ = s.reports ++ Service.inHand { s with work := work } ++ _
    rw [hinHand]
    simp [Service.copyMsg, Service.report]
  · have hvchi : s.isVchi = true := hvchi
    simp [Service.copyMsg, hvchi, hallocated hvchi]
  · show (s.overrun || decide (request.count ≤ totalMsg)) = false
    rw [h.inBounds, decide_eq_false (Nat.not_le.2 hcount)]
    rfl

/-- One round of the loop of `VchiqRemovePendingMsg`: the first message goes into the hands of
the request, or the loop ends. -/
theorem removePendingMsg (h : Inv s) {caller : MsgCaller} {request : AwaitCompletion}
    {totalMsg : Nat} {reports : List Report} {allocated : Bool}
    (hwork : s.work = some (.removePendingMsg caller request totalMsg reports))
    (hok : orderlyWork s allocated (.removePendingMsg caller request totalMsg reports) = true) :
    Inv (s.vchiqRemovePendingMsg caller request totalMsg reports allocated) := by
  have hinv := h.work
  have hinHand : s.inHand = reports := by rw [Service.inHand, hwork]
  rw [hwork] at hinv
  obtain ⟨htotal, htaking, hdue⟩ := hinv
  unfold Service.vchiqRemovePendingMsg
  split
  · next hlist =>
    refine h.setWork hinHand.symm ⟨htotal, fun hzero => ?_, hdue⟩
    obtain ⟨-, m, ms, hcons, -⟩ := htaking hzero
    exact absurd (hlist.symm.trans hcons) (List.cons_ne_nil _ _).symm
  · next m ms hlist =>
    split
    · next hblocked =>
      -- no room for the message: the loop ends
      refine h.setWork hinHand.symm ⟨htotal, fun hzero => ?_, hdue⟩
      obtain ⟨hrest, m', ms', hcons, htaking⟩ := htaking hzero
      obtain ⟨rfl, rfl⟩ := List.cons.inj (hlist.symm.trans hcons)
      obtain ⟨hroom, -⟩ | ⟨hblocked, hwaiting⟩ := htaking
      · exact absurd hblocked hroom
      · exact ⟨hrest, m, ms, hcons, hblocked, hwaiting⟩
    · next hroom =>
      simp only [orderlyWork, hlist, decide_eq_true_eq] at hok
      obtain ⟨hcount, hallocated⟩ := hok.resolve_left hroom
      have hdue' : AllDue ms s.pendingMsg s.ioctls.length := by
        obtain hzero | hpos := Nat.eq_zero_or_pos totalMsg
        · obtain ⟨-, m', ms', hcons, htaking⟩ := htaking hzero
          obtain ⟨rfl, rfl⟩ := List.cons.inj (hlist.symm.trans hcons)
          exact htaking.elim And.right fun hblocked => absurd hblocked.1 hroom
        · exact .inr ((hdue hpos).resolve_left (hlist ▸ List.cons_ne_nil _ _))
      have hlength : totalMsg + 1 = (reports ++ [s.report m.copied]).length := by
        rw [List.length_append, htotal]
        rfl
      have hhand : reports ++ [s.report m.copied] = s.inHand ++ [s.report m.bytes] := by
        rw [hinHand, m.copied_eq]
      simp only [if_pos hcount]
      split
      · exact h.copyMsg hlist hcount hallocated hhand
          ⟨hlength, fun hzero => absurd hzero (Nat.succ_ne_zero _), fun _ => hdue'⟩
      · exact h.copyMsg hlist hcount hallocated hhand
          ⟨hlength, fun hzero => absurd hzero (Nat.succ_ne_zero _), fun _ => hdue'⟩

/-- The end of `VchiqRemovePendingMsg`. -/
theorem finishPendingMsg (h : Inv s) {caller : MsgCaller} {request : AwaitCompletion}
    {totalMsg : Nat} {reports : List Report}
    (hwork : s.work = some (.removedPendingMsg caller request totalMsg reports)) :
    Inv (s.finishPendingMsg caller request totalMsg reports) := by
  have hinv := h.work
  have hinHand : s.inHand = reports := by rw [Service.inHand, hwork]
  have hdelivered := h.delivered
  rw [hwork] at hinv
  rw [Service.Delivered, hinHand] at hdelivered
  obtain ⟨htotal, hblocked, hdue⟩ := hinv
  unfold Service.finishPendingMsg
  split
  · next hzero =>
    -- put back at the head, where it is known to have no room
    obtain rfl : reports = [] := List.eq_nil_of_length_eq_zero (htotal.symm.trans hzero)
    obtain ⟨hrest, m, ms, hlist, hroom, hwaiting⟩ := hblocked hzero
    refine ⟨hdelivered, h.dequeued, h.inBounds, hrest, ?_⟩
    show Waiting s.pendingDataMsgList (request :: s.pendingMsg) s.ioctls.length
    rw [hlist]
    exact hwaiting.requeue hroom
  · next hpos =>
    refine ⟨hdelivered.trans ?_, h.dequeued, h.inBounds, hdue (Nat.pos_of_ne_zero hpos)⟩
    simp [Service.inHand, Service.report, Service.complete]

/-! ### Every run -/

theorem goOn (h : Inv s) {work : MsgWork} (hwork : s.work = some work) {allocated : Bool}
    (hok : orderlyWork s allocated work = true) {s' : Service}
    (hs : s.goOn allocated work = some s') : Inv s' := by
  cases work with
  | processPendingMsg caller =>
    obtain rfl := Option.some.inj hs
    exact h.processPendingMsg hwork hok
  | removePendingMsg caller request totalMsg reports =>
    simp only [Service.goOn] at hs
    split at hs
    · exact nomatch hs
    · obtain rfl := Option.some.inj hs
      exact h.removePendingMsg hwork hok
  | removedPendingMsg caller request totalMsg reports =>
    obtain rfl := Option.some.inj hs
    exact h.finishPendingMsg hwork
  | completedPendingMsg caller =>
    simp only [Service.goOn] at hs
    split at hs
    · obtain rfl := Option.some.inj hs
      have hinv := h.work
      rw [hwork] at hinv
      refine h.setWork ?_ hinv
      rw [Service.inHand, Service.inHand, hwork]
    · exact nomatch hs
  | processPendingVchiMsg caller =>
    obtain rfl := Option.some.inj hs
    exact h.msgRound hwork hok

theorem step (h : Inv s) {a : MsgAction} (hok : Orderly s a) {s' : Service}
    (hs : s.step a = some s') : Inv s' := by
  cases a with
  | rxData m =>
    simp only [Service.step] at hs
    split at hs
    · exact nomatch hs
    · next hbusy =>
      obtain rfl := Option.some.inj hs
      exact h.rxData (Bool.eq_false_iff.2 hbusy) m
  | rxAcquire allocated =>
    obtain rfl : allocated = true := hok
    simp only [Service.step] at hs
    split at hs
    · next m hrx hwork =>
      obtain rfl := Option.some.inj hs
      exact h.rxAcquire hrx hwork
    · exact nomatch hs
  | await a =>
    obtain rfl := Option.some.inj hs
    exact h.await a
  | awaitAcquire id =>
    simp only [Service.step] at hs
    split at hs
    · next hen =>
      obtain rfl := Option.some.inj hs
      exact h.awaitAcquire hen.1 hen.2
    · exact nomatch hs
  | work allocated =>
    obtain ⟨work, hwork, hs⟩ := Option.bind_eq_some_iff.1 hs
    have hok : orderlyWork s allocated work = true := by simpa [Orderly, hwork] using hok
    exact h.goOn hwork hok hs
  | dequeue d =>
    simp only [Service.step] at hs
    split at hs
    · obtain rfl := Option.some.inj hs
      exact h.dequeue d
    · exact nomatch hs
  | dequeueRound =>
    obtain ⟨dequeuer, -, rfl⟩ := Option.map_eq_some_iff.1 hs
    exact h.dequeueRound dequeuer hok
  | cancelAwait id =>
    obtain rfl := Option.some.inj hs
    exact h.cancelAwait _
  | cancelDequeue id =>
    obtain rfl := Option.some.inj hs
    exact h.cancelDequeue _

end Inv

theorem inv_initial {s : Service} (h : s.Initial) : Inv s := by
  obtain ⟨hdata, hvchi, hqueue, -, hrx, -, hwork, -, hreceived, hreports, hdequeued, hoverrun⟩ := h
  refine ⟨?_, fun _ => ?_, hoverrun, ?_⟩
  · simp [Service.Delivered, Service.nonempty, Service.inHand, hreceived, hreports, hwork, hdata,
      hrx]
  · simp [Service.Dequeued, Service.nonempty, hreceived, hdequeued, hdata, hvchi, hrx]
  · rw [hwork]
    exact ⟨fun _ => .inl hvchi, hdata ▸ waiting_nil _ _⟩

theorem inv_of_reach {s : Service} (h : msgMachine.Reach Orderly s) : Inv s :=
  h.inv (fun _ => inv_initial) fun _ _ _ hinv hok hs => hinv.step hok hs

/-- **Messages that are not empty are delivered soundly** in every orderly run. -/
theorem deliverySound_of_orderly {s : Service} (h : msgMachine.Reach Orderly s) :
    DeliverySound s s.nonempty :=
  (inv_of_reach h).sound

/-! ## Runs -/

/-- A file with a service. -/
def service (isVchi : Bool) : Service where
  isVchi := isVchi
  serviceUserData := 0x1000
  pendingDataMsgList := []
  pendingVchiMsgList := []
  pendingMsg := []
  pendingVchiMsg := []
  rx := none
  ioctls := []
  work := none
  dequeuer := none
  completed := []
  received := []
  reports := []
  dequeued := []
  overrun := false

theorem service_initial (isVchi : Bool) : (service isVchi).Initial :=
  ⟨rfl, rfl, rfl, rfl, rfl, rfl, rfl, rfl, rfl, rfl, rfl, rfl⟩

/-- A message of eight bytes, which takes 16 with its header. -/
def message : RxMsg := ⟨0x05001001, [1, 2, 3, 4, 5, 6, 7, 8], by decide⟩

def emptyMessage : RxMsg := ⟨0x05001001, [], by decide⟩

/-- A request with one completion record and this many message buffers of this size. -/
def awaitOne (id msgBufSize msgBufCount : Nat) : AwaitCompletion :=
  ⟨id, 4, 1, msgBufSize, msgBufCount, by decide⟩

def dequeueInto (id bufSize : Nat) : DequeueMessage := ⟨id, 4, true, bufSize⟩

/-- The steps of the RX thread for a message that no request waits for. -/
def rxSteps (m : RxMsg) : List MsgAction := [.rxData m, .rxAcquire true, .work true]

/-- The steps of an `AWAIT_COMPLETION` ioctl up to its call of `VchiqProcessPendingMsg`. -/
def awaitSteps (a : AwaitCompletion) : List MsgAction := [.await a, .awaitAcquire a.id, .work true]

/-- Two messages on a VCHI service, one before the request for it and one after, and a dequeue. -/
theorem deliverySound_vchi : ∃ s, (msgMachine.Reach Orderly s ∧ s.reports.length = 2 ∧
    s.dequeued = [message.bytes]) ∧ DeliverySound s s.nonempty := by
  obtain ⟨s, hr, hs⟩ := msgMachine.reach_execOk_any Orderly
    (rxSteps message ++ awaitSteps (awaitOne 0 64 1) ++
      [MsgAction.work true, .work true, .work true, .work true] ++
      [MsgAction.dequeue (dequeueInto 1 64), .dequeueRound, .dequeueRound] ++
      awaitSteps (awaitOne 2 64 1) ++ [MsgAction.rxData message, .rxAcquire true] ++
      [MsgAction.work true, .work true, .work true, .work true, .work true])
    (p := fun s => decide (s.reports.length = 2 ∧ s.dequeued = [message.bytes]))
    (service_initial true) (by decide +kernel)
  exact ⟨s, ⟨hr, of_decide_eq_true hs⟩, deliverySound_of_orderly hr⟩

/-- The messages that are reported, being reported or still to be reported are as many as those
that arrived. -/
theorem DeliverySound.length {s : Service} {msgs : List RxMsg} (h : DeliverySound s msgs) :
    msgs.length = s.reports.length + s.inHand.length + s.pendingDataMsgList.length +
      s.rx.toList.length := by
  have hlength := congrArg List.length h.delivered
  simpa [Nat.add_assoc] using hlength

/-- At rest a request waits that has room for the first message. -/
def stuck (s : Service) : Bool :=
  s.rx.isNone && s.ioctls.isEmpty && s.work.isNone &&
    s.pendingDataMsgList.head?.any fun m => s.pendingMsg.any fun a => decide (¬ Blocked m a)

theorem not_sound_of_stuck {s : Service} {msgs : List RxMsg} (h : stuck s = true) :
    ¬ DeliverySound s msgs := by
  simp only [stuck, Bool.and_eq_true, Option.isNone_iff_eq_none, List.isEmpty_iff] at h
  obtain ⟨⟨⟨hrx, hioctls⟩, hwork⟩, hany⟩ := h
  obtain ⟨m, hm, hany⟩ := (Option.any_eq_true _ _).1 hany
  obtain ⟨a, ha, hroom⟩ := List.any_eq_true.1 hany
  exact fun h => of_decide_eq_true hroom (h.awaits hrx hioctls hwork m hm a ha)

/-- **What is not delivered.** An empty message is ignored, in an orderly run. And out of order:
with two message buffers but one completion record, the second message is written past the
record; behind a request without room for the first message, one that has room waits; a dequeue
without room for the message leaves one that has room waiting; and a message for which there is
no memory is lost. -/
theorem delivery_fails :
    (∃ s, msgMachine.Reach Orderly s ∧ ¬ DeliverySound s s.received) ∧
    (∃ s, msgMachine.Reachable s ∧ s.overrun = true) ∧
    (∃ s, msgMachine.Reachable s ∧ ¬ DeliverySound s s.nonempty ∧ stuck s = true) ∧
    (∃ s, msgMachine.Reachable s ∧ s.work = none ∧ s.dequeuer = none ∧
      s.pendingVchiMsgList = [message] ∧ s.pendingVchiMsg = [dequeueInto 1 64]) ∧
    (∃ s, msgMachine.Reachable s ∧ s.received = [message] ∧ ¬ DeliverySound s s.received) := by
  refine ⟨?_, ?_, ?_, ?_, ?_⟩
  · obtain ⟨s, hr, hs⟩ := msgMachine.reach_execOk_any Orderly
      (awaitSteps (awaitOne 0 64 1) ++ [.rxData emptyMessage])
      (p := fun s => decide (s.received.length ≠ s.reports.length + s.inHand.length +
        s.pendingDataMsgList.length + s.rx.toList.length)) (service_initial false)
      (by decide +kernel)
    exact ⟨s, hr, fun h => of_decide_eq_true hs h.length⟩
  · exact msgMachine.reach_exec_any (rxSteps message ++ rxSteps message ++
      awaitSteps (awaitOne 0 64 2) ++ [.work true, .work true])
      (p := fun s => s.overrun) (service_initial false) (by decide +kernel)
  · obtain ⟨s, hr, hs⟩ := msgMachine.reach_exec_any
      (awaitSteps (awaitOne 0 8 1) ++ rxSteps message ++ [.work true, .work true] ++
        awaitSteps (awaitOne 1 64 1) ++ [.work true, .work true])
      (p := stuck) (service_initial false) (by decide +kernel)
    exact ⟨s, hr, not_sound_of_stuck hs, hs⟩
  · obtain ⟨s, hr, hs⟩ := msgMachine.reach_exec_any
      ([.dequeue (dequeueInto 0 8), .dequeueRound, .dequeue (dequeueInto 1 64), .dequeueRound] ++
        awaitSteps (awaitOne 2 64 1) ++ rxSteps message ++
        [.work true, .work true, .work true, .work true])
      (p := fun s => decide (s.work = none ∧ s.dequeuer = none ∧
        s.pendingVchiMsgList = [message] ∧ s.pendingVchiMsg = [dequeueInto 1 64]))
      (service_initial true) (by decide +kernel)
    exact ⟨s, hr, of_decide_eq_true hs⟩
  · obtain ⟨s, hr, hs⟩ := msgMachine.reach_exec_any [.rxData message, .rxAcquire false]
      (p := fun s => decide (s.received = [message] ∧ s.received.length ≠ s.reports.length +
        s.inHand.length + s.pendingDataMsgList.length + s.rx.toList.length))
      (service_initial false) (by decide +kernel)
    obtain ⟨hreceived, hlength⟩ := of_decide_eq_true hs
    exact ⟨s, hr, hreceived, fun h => hlength h.length⟩

end RpiDrivers.Vchiq.Messages
