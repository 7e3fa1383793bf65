import Mathlib.Logic.Function.Basic
import RpiDrivers.Lib.Machine
import RpiDrivers.Lib.ManualQueue

/-!
# Requests and their completion (`ioctl.c`, `slots.c`, `file.c`)

An ioctl is a framework request. `VchiqIoDeviceControl` completes it at once or forwards it to
one of the manual queues of its file, where the RX thread, another ioctl or the framework finds
it. Who completes a request is a matter of convention: a function that takes a request from a
queue completes it, and its status tells the ioctl that called it whether to complete its own.

- `Request`, `FileContext`, `Task`: a request with the buffer sizes the driver reads, a file with
  its pending lists, and what a thread has left to do.
- `vchiqIoDeviceControl`: what an ioctl does with its request.
- `Task.run`: one step of a thread, up to its next use of what it shares with the others.
- `requestStep`, `requestMachine`: the ioctls, the RX thread and the framework, interleaved.

The outcomes of framework calls are those of `Outcomes`. The messages that an ioctl sends
are not part of this model, only whether sending succeeds.
-/

namespace RpiDrivers.Vchiq.Ioctl

open RpiDrivers.Lib

/-- The ioctls. -/
inductive IoControlCode
  | connect
  | shutdown
  | createService
  | removeService
  | queueMsg
  | bulkTransmit
  | bulkReceive
  | awaitCompletion
  | dequeueMessage
  | getConfig
  | closeService
  | useService
  | releaseService
  | setServiceOption
  | libVersion
  | closeDelivered
  | unsupported
  deriving DecidableEq

/-- A request: its buffer lengths, and of the structures in its buffers what decides who
completes it. -/
structure Request where
  id : Nat
  fileObject : Option Nat
  code : IoControlCode
  inputBufferLength : Nat
  outputBufferLength : Nat
  /-- of `VCHIQ_CREATE_SERVICE` -/
  isVchi : Bool
  /-- of `VCHIQ_AWAIT_COMPLETION` -/
  msgBufSize : Nat
  msgBufCount : Nat
  /-- of `VCHIQ_DEQUEUE_MESSAGE` -/
  blocking : Bool
  bufSize : Nat
  deriving DecidableEq

/-- The manual queues of a file, `FILE_QUEUE_*`. -/
inductive FileQueue
  | createService
  | closeService
  | pendingMsg
  | pendingVchiMsg
  | txData
  | rxData
  deriving DecidableEq

/-- The index in `FileQueue[]`. -/
def FileQueue.index : FileQueue → Nat
  | .createService => 0
  | .closeService => 1
  | .pendingMsg => 2
  | .pendingVchiMsg => 3
  | .txData => 4
  | .rxData => 5

/-- `FILE_QUEUE_MAX` -/
def fileQueueMax : Nat := 6

/-- The messages that are listed. -/
inductive MsgType
  | data
  | bulkTxDone
  | bulkRxDone
  deriving DecidableEq

/-- A message, `VCHIQ_HEADER`. -/
structure Msg where
  type : MsgType
  size : Nat
  deriving DecidableEq

/-- `nextMsgHeaderPtr->Size + sizeof(*nextMsgHeaderPtr)`, a `ULONG` -/
def Msg.pendingMsgSize (m : Msg) : Nat := (m.size + 8) % 2 ^ 32

/-- `VCHIQ_FILE_CONTEXT` -/
structure FileContext where
  /-- the queues created are those with a smaller index, the others are NULL -/
  fileQueues : Nat
  isVchi : Bool
  pendingDataMsgList : List Msg
  pendingVchiMsgList : List Msg
  /-- `PendingDataMsgMutex` is held -/
  pendingDataMsgMutex : Bool
  /-- `PendingVchiMsgMutex` is held -/
  pendingVchiMsgMutex : Bool

/-- The queue has been created. -/
def FileContext.HasQueue (context : FileContext) (queue : FileQueue) : Prop :=
  queue.index < context.fileQueues

instance (context : FileContext) (queue : FileQueue) : Decidable (context.HasQueue queue) :=
  inferInstanceAs (Decidable (_ < _))

/-- Who runs `VchiqProcessPendingMsg`. -/
inductive MsgCaller
  /-- the RX thread in `VchiqProcessNewRxMsg` -/
  | rx
  /-- the ioctl of this request, which is in the queue -/
  | awaitCompletion (request : Request)
  deriving DecidableEq

/-- Who runs `VchiqProcessPendingVchiMsg`. -/
inductive VchiCaller
  /-- `VchiqRemovePendingMsg` -/
  | removePendingMsg (caller : MsgCaller)
  /-- the ioctl of this request, which is in the queue -/
  | dequeueMessage (request : Request)
  deriving DecidableEq

/-- What a thread has left to do for a file. -/
inductive FileTask
  /-- the request is forwarded, unless its queue is NULL, and its message is to be sent -/
  | dispatchMessage (queue : Option FileQueue) (request : Request)
  /-- the message could not be sent and the request is to be taken from the queue -/
  | notSent (queue : FileQueue) (request : Request)
  /-- `AWAIT_COMPLETION` has forwarded its request and acquires `PendingDataMsgMutex` -/
  | awaitCompletion (request : Request)
  /-- `DEQUEUE_MESSAGE` acquires `PendingVchiMsgMutex` -/
  | dequeueMessage (request : Request)
  /-- `VchiqProcessNewRxMsg` acquires `PendingDataMsgMutex` -/
  | newRxMsg (msg : Msg)
  /-- `VchiqProcessPendingMsg` is called -/
  | processPendingMsg (caller : MsgCaller)
  /-- the loop of `VchiqRemovePendingMsg`, with `totalMsgPtr` -/
  | removePendingMsg (caller : MsgCaller) (request : Request) (totalMsg : Nat)
  /-- the loop has ended -/
  | removedPendingMsg (caller : MsgCaller) (request : Request) (totalMsg : Nat)
  /-- `VchiqRemovePendingMsg` has completed a request and acquires `PendingVchiMsgMutex` -/
  | completedPendingMsg (caller : MsgCaller)
  /-- the loop of `VchiqProcessPendingVchiMsg` -/
  | processPendingVchiMsg (caller : VchiCaller)
  deriving DecidableEq

/-- What a thread has left to do. -/
inductive Task
  /-- `VchiqIoDeviceControl` gets the request -/
  | ioDeviceControl (request : Request)
  /-- a step for the file with this number -/
  | inFile (file : Nat) (task : FileTask)
  deriving DecidableEq

/-- The requests that the thread owns, and has to complete or to put into a queue. -/
def FileTask.owned : FileTask → List Request
  | .dispatchMessage none request => [request]
  | .dequeueMessage request => [request]
  | .removePendingMsg _ request _ => [request]
  | .removedPendingMsg _ request _ => [request]
  | _ => []

def Task.owned : Task → List Request
  | .ioDeviceControl request => [request]
  | .inFile _ task => task.owned

/-- It is the RX thread. -/
def FileTask.isRx : FileTask → Bool
  | .newRxMsg _ => true
  | .processPendingMsg .rx => true
  | .removePendingMsg .rx _ _ => true
  | .removedPendingMsg .rx _ _ => true
  | .completedPendingMsg .rx => true
  | .processPendingVchiMsg (.removePendingMsg .rx) => true
  | _ => false

def Task.isRx : Task → Bool
  | .ioDeviceControl _ => false
  | .inFile _ task => task.isRx

/-- The driver. -/
structure RequestState where
  vcConnected : Bool
  files : Nat → Option FileContext
  queued : ManualQueues (Nat × FileQueue) Request
  tasks : List Task
  /-- the number of requests received, which are numbered in this order -/
  received : Nat
  /-- the requests completed, by the driver or the framework, in this order -/
  completed : List Nat

/-- What the calls of the next step return. -/
structure Outcomes where
  /-- the queues that `VchiqAllocateFileObjContext` creates, `none` if there is no context -/
  allocateContext : Option Nat := some fileQueueMax
  /-- the MDL and the entry of a bulk transfer are available -/
  bulkResources : Bool := true
  /-- `WdfRequestForwardToIoQueue` -/
  forward : Bool := true
  /-- `VchiqQueueMessageAsync` or `VchiqBulkTransfer` -/
  send : Bool := true
  /-- `WdfIoQueueRetrieveNextRequest` is not refused, as it is when the queue is stopped -/
  retrieve : Bool := true
  /-- the output buffer can be mapped -/
  mapped : Bool := true
  /-- the entry of a pending message can be allocated -/
  allocateMsg : Bool := true
  /-- the bulk of a DONE message is one that is reported -/
  returnBulk : Bool := true
  /-- `WdfRequestRequeue` -/
  requeue : Bool := true

/-! ## What is done to the state -/

namespace RequestState

/-- `WdfRequestComplete` -/
def complete (s : RequestState) (request : Request) : RequestState :=
  { s with completed := s.completed ++ [request.id] }

/-- Change a file. -/
def setFile (s : RequestState) (file : Nat) (context : FileContext) : RequestState :=
  { s with files := Function.update s.files file (some context) }

/-- Change the queues. -/
def setQueued (s : RequestState) (queued : ManualQueues (Nat × FileQueue) Request) :
    RequestState :=
  { s with queued := queued }

/-- A thread goes on with what it has left to do. -/
def advance (s : RequestState) (task : Task) (rest : List Task) : RequestState :=
  { s with tasks := Lib.advance s.tasks task rest }

/-- A thread goes on for a file. -/
def advanceFile (s : RequestState) (file : Nat) (task : FileTask) (rest : List FileTask) :
    RequestState :=
  s.advance (.inFile file task) (rest.map (.inFile file))

/-- The framework completes the requests of a queue. -/
def purge (s : RequestState) (file : Nat) (queue : FileQueue) : RequestState :=
  let purged := s.queued.purge (file, queue)
  { s with
    queued := purged.2
    completed := s.completed ++ purged.1.map Request.id }

end RequestState

/-! ## `VchiqInCallerContext` -/

section Sizes

variable (pointerSize : Nat)

def sizeofCreateService : Nat := 20 + 2 * pointerSize
def sizeofQueueMessage : Nat := 8 + 2 * pointerSize
def sizeofQueueBulkTransfer : Nat := 12 + 3 * pointerSize
def sizeofAwaitCompletion : Nat := 12 + 3 * pointerSize
def sizeofDequeueMessage : Nat := 12 + 2 * pointerSize
def sizeofGetConfig : Nat := 4 + 2 * pointerSize

/-- `sizeof(ULONG)`, the output of `AWAIT_COMPLETION` and `DEQUEUE_MESSAGE` -/
def sizeofTotal : Nat := 4

/-- The input that is needed in the context of the caller, where its buffers are locked. -/
def callerContextInput : IoControlCode → Nat
  | .getConfig => sizeofGetConfig pointerSize
  | .queueMsg => sizeofQueueMessage pointerSize
  | .awaitCompletion => sizeofAwaitCompletion pointerSize
  | .dequeueMessage => sizeofDequeueMessage pointerSize
  | _ => 0

/-! ## `VchiqIoDeviceControl` -/

/-- `VchiqAllocateFileObjContext`: the context, if there is one, and whether it is whole. -/
def vchiqAllocateFileObjContext (created : Option Nat) : Option FileContext × Bool :=
  (created.map fun queues =>
    { fileQueues := queues
      isVchi := false
      pendingDataMsgList := []
      pendingVchiMsgList := []
      pendingDataMsgMutex := false
      pendingVchiMsgMutex := false },
    created.any (fileQueueMax ≤ ·))

/-- What an ioctl does with its request. -/
inductive Disposition
  /-- `goto CompleteRequest` -/
  | completeRequest
  /-- purge the queue of `AWAIT_COMPLETION`, then complete -/
  | shutdown
  /-- `VchiqUpdateQueueDispatchMessage` with this queue -/
  | updateQueueDispatchMessage (queue : FileQueue)
  /-- `VchiqProcessBulkTransfer` with this queue -/
  | processBulkTransfer (queue : FileQueue)
  | awaitCompletion
  | dequeueMessage

/-- The second `switch`: the ioctls of a file with a context. -/
def ioDeviceControlFile (context : FileContext) (request : Request) (o : Outcomes) :
    FileContext × Disposition :=
  match request.code with
  | .createService =>
    if request.inputBufferLength < sizeofCreateService pointerSize then
      (context, .completeRequest)
    else
      ({ context with isVchi := request.isVchi }, .updateQueueDispatchMessage .createService)
  | .shutdown => (context, .shutdown)
  | .removeService | .closeService => (context, .updateQueueDispatchMessage .closeService)
  | .bulkTransmit =>
    if request.inputBufferLength = 0 then (context, .completeRequest)
    else if request.outputBufferLength < sizeofQueueBulkTransfer pointerSize then
      (context, .completeRequest)
    else if o.bulkResources then (context, .processBulkTransfer .txData)
    else (context, .completeRequest)
  | .bulkReceive =>
    if request.outputBufferLength = 0 then (context, .completeRequest)
    else if request.inputBufferLength < sizeofQueueBulkTransfer pointerSize then
      (context, .completeRequest)
    else if o.bulkResources then (context, .processBulkTransfer .rxData)
    else (context, .completeRequest)
  | .awaitCompletion => (context, .awaitCompletion)
  | .dequeueMessage =>
    if request.inputBufferLength < sizeofDequeueMessage pointerSize then
      (context, .completeRequest)
    else (context, .dequeueMessage)
  | _ => (context, .completeRequest)

/-- `VchiqIoDeviceControl`: the context of the request's file after it, and what is done with
the request. -/
def vchiqIoDeviceControl (vcConnected : Bool) (context : Option FileContext)
    (request : Request) (o : Outcomes) : Option FileContext × Disposition :=
  if !vcConnected then (context, .completeRequest)
  else
    match request.code with
    | .connect =>
      match context with
      | some context => (some context, .completeRequest)
      | none => ((vchiqAllocateFileObjContext o.allocateContext).1, .completeRequest)
    | .getConfig | .libVersion => (context, .completeRequest)
    | code =>
      match context with
      | some context => (ioDeviceControlFile pointerSize context request o).map some id
      | none =>
        if code = .createService then
          match vchiqAllocateFileObjContext o.allocateContext with
          | (some context, true) => (ioDeviceControlFile pointerSize context request o).map some id
          | (context, _) => (context, .completeRequest)
        else (none, .completeRequest)

/-- `WdfRequestForwardToIoQueue` with what comes after it; a NULL queue is a bug check. -/
def forwardToIoQueue (s : RequestState) (file : Nat) (context : FileContext) (queue : FileQueue)
    (request : Request) (o : Outcomes) (rest : FileTask) : Option RequestState :=
  let task := Task.ioDeviceControl request
  if context.HasQueue queue then
    if o.forward then
      some ((s.setQueued (s.queued.forward (file, queue) request)).advance task
        [.inFile file rest])
    else some ((s.advance task []).complete request)
  else none

/-- Carry it out, for a file with a context. -/
def dispose (s : RequestState) (file : Nat) (context : FileContext) (request : Request)
    (o : Outcomes) (disposition : Disposition) : Option RequestState :=
  let task := Task.ioDeviceControl request
  match disposition with
  | .completeRequest => some ((s.advance task []).complete request)
  | .shutdown =>
    if context.HasQueue .pendingMsg then
      some (((s.advance task []).purge file .pendingMsg).complete request)
    else none
  | .updateQueueDispatchMessage queue =>
    if context.HasQueue queue then
      forwardToIoQueue s file context queue request o (.dispatchMessage (some queue) request)
    else some (s.advance task [.inFile file (.dispatchMessage none request)])
  | .processBulkTransfer queue =>
    forwardToIoQueue s file context queue request o (.dispatchMessage (some queue) request)
  | .awaitCompletion =>
    forwardToIoQueue s file context .pendingMsg request o (.awaitCompletion request)
  | .dequeueMessage => some (s.advance task [.inFile file (.dequeueMessage request)])

/-- The request is dispatched. -/
def ioDeviceControl (s : RequestState) (request : Request) (o : Outcomes) :
    Option RequestState :=
  match request.fileObject with
  | none => some ((s.advance (.ioDeviceControl request) []).complete request)
  | some file =>
    match vchiqIoDeviceControl pointerSize s.vcConnected (s.files file) request o with
    | (some context, disposition) =>
      dispose (s.setFile file context) file context request o disposition
    | (none, _) => some ((s.advance (.ioDeviceControl request) []).complete request)

/-! ## Pending messages -/

/-- The status returned to an ioctl: a failure makes it complete its request. -/
def returnTo (s : RequestState) (request : Request) (success : Bool) : RequestState :=
  if success then s else s.complete request

/-- Return from `VchiqProcessPendingMsg`, and release `PendingDataMsgMutex`. -/
def returnFromPendingMsg (s : RequestState) (file : Nat) (context : FileContext)
    (caller : MsgCaller) (success : Bool) : RequestState :=
  let s := s.setFile file { context with pendingDataMsgMutex := false }
  match caller with
  | .rx => s
  | .awaitCompletion request => returnTo s request success

/-- Return from `VchiqProcessPendingVchiMsg`, and release `PendingVchiMsgMutex`. -/
def returnFromPendingVchiMsg (s : RequestState) (file : Nat) (context : FileContext)
    (caller : VchiCaller) (success : Bool) : RequestState :=
  let context := { context with pendingVchiMsgMutex := false }
  match caller with
  | .removePendingMsg caller => returnFromPendingMsg s file context caller success
  | .dequeueMessage request => returnTo (s.setFile file context) request success

/-- The buffers of an `AWAIT_COMPLETION` can be retrieved. -/
def awaitBuffers (request : Request) (o : Outcomes) : Bool :=
  o.mapped && sizeofTotal ≤ request.outputBufferLength &&
    sizeofAwaitCompletion pointerSize ≤ request.inputBufferLength

/-- `VchiqProcessPendingMsg`, up to the loop of `VchiqRemovePendingMsg`. -/
def processPendingMsg (s : RequestState) (file : Nat) (context : FileContext)
    (caller : MsgCaller) (o : Outcomes) : RequestState :=
  let task := FileTask.processPendingMsg caller
  if context.pendingDataMsgList = [] then
    returnFromPendingMsg (s.advanceFile file task []) file context caller true
  else if !o.retrieve then
    returnFromPendingMsg (s.advanceFile file task []) file context caller false
  else
    match s.queued.retrieveNext (file, .pendingMsg) with
    | none => returnFromPendingMsg (s.advanceFile file task []) file context caller true
    | some (request, queued) =>
      let s := s.setQueued queued
      if awaitBuffers pointerSize request o then
        s.advanceFile file task [.removePendingMsg caller request 0]
      else
        returnFromPendingMsg ((s.complete request).advanceFile file task []) file context caller
          false

/-- One round of the loop of `VchiqRemovePendingMsg`: the next message goes to the request, and
to `PendingVchiMsgList` when the service is a vchi service. -/
def removePendingMsg (s : RequestState) (file : Nat) (context : FileContext)
    (caller : MsgCaller) (request : Request) (totalMsg : Nat) (o : Outcomes) :
    Option RequestState :=
  let task := FileTask.removePendingMsg caller request totalMsg
  let done := FileTask.removedPendingMsg caller request
  match context.pendingDataMsgList with
  | [] => some (s.advanceFile file task [done totalMsg])
  | msg :: msgs =>
    if request.msgBufSize < msg.pendingMsgSize then some (s.advanceFile file task [done totalMsg])
    else
      let trackMsg := context.isVchi && msg.type = .data
      -- it waits for the mutex
      if trackMsg && context.pendingVchiMsgMutex then none
      else
        let totalMsg := if msg.type = .data || o.returnBulk then totalMsg + 1 else totalMsg
        let context := { context with
          pendingDataMsgList := msgs
          pendingVchiMsgList :=
            if trackMsg && o.allocateMsg then context.pendingVchiMsgList ++ [msg]
            else context.pendingVchiMsgList }
        some ((s.setFile file context).advanceFile file task
          [if totalMsg < request.msgBufCount then
            .removePendingMsg caller request totalMsg
          else done totalMsg])

/-- The rest of `VchiqRemovePendingMsg`: the request is queued again if there is no message for
it, and completed otherwise. -/
def removedPendingMsg (s : RequestState) (file : Nat) (context : FileContext)
    (caller : MsgCaller) (request : Request) (totalMsg : Nat) (o : Outcomes) : RequestState :=
  let task := FileTask.removedPendingMsg caller request totalMsg
  if totalMsg = 0 then
    if o.requeue then
      let s := s.setQueued (s.queued.requeue (file, .pendingMsg) request)
      returnFromPendingMsg (s.advanceFile file task []) file context caller true
    else returnFromPendingMsg (s.advanceFile file task []) file context caller false
  else (s.complete request).advanceFile file task [.completedPendingMsg caller]

/-- `VchiqRemovePendingVchiMsg`: the rest of the list, and success or failure. It completes
the request in both cases. -/
def vchiqRemovePendingVchiMsg (msgs : List Msg) (request : Request) (o : Outcomes) :
    List Msg × Bool :=
  if request.inputBufferLength < sizeofDequeueMessage pointerSize then (msgs, false)
  else if !o.mapped || request.outputBufferLength < sizeofTotal then (msgs, false)
  else
    match msgs with
    | [] => ([], false)
    | msg :: rest =>
      if request.bufSize < msg.pendingMsgSize then (msg :: rest, false) else (rest, true)

/-- One round of the loop of `VchiqProcessPendingVchiMsg`. -/
def processPendingVchiMsg (s : RequestState) (file : Nat) (context : FileContext)
    (caller : VchiCaller) (o : Outcomes) : RequestState :=
  let task := FileTask.processPendingVchiMsg caller
  if context.pendingVchiMsgList = [] then
    returnFromPendingVchiMsg (s.advanceFile file task []) file context caller true
  else if !o.retrieve then
    returnFromPendingVchiMsg (s.advanceFile file task []) file context caller false
  else
    match s.queued.retrieveNext (file, .pendingVchiMsg) with
    | none => returnFromPendingVchiMsg (s.advanceFile file task []) file context caller true
    | some (request, queued) =>
      let s := (s.setQueued queued).complete request
      match vchiqRemovePendingVchiMsg pointerSize context.pendingVchiMsgList request o with
      | (msgs, true) => s.setFile file { context with pendingVchiMsgList := msgs }
      | (_, false) => returnFromPendingVchiMsg (s.advanceFile file task []) file context caller false

/-! ## One step of a thread -/

/-- `DEQUEUE_MESSAGE`, with `PendingVchiMsgMutex` acquired. -/
def dequeueMessage (s : RequestState) (file : Nat) (context : FileContext) (request : Request)
    (o : Outcomes) : Option RequestState :=
  let task := FileTask.dequeueMessage request
  if !request.blocking && context.pendingVchiMsgList = [] then
    some ((s.advanceFile file task []).complete request)
  else if context.HasQueue .pendingVchiMsg then
    if o.forward then
      let s := s.setQueued (s.queued.forward (file, .pendingVchiMsg) request)
      some ((s.setFile file { context with pendingVchiMsgMutex := true }).advanceFile file task
        [.processPendingVchiMsg (.dequeueMessage request)])
    else some ((s.advanceFile file task []).complete request)
  else none

/-- One step of a thread for a file. -/
def runTask (s : RequestState) (file : Nat) (context : FileContext) (o : Outcomes)
    (task : FileTask) : Option RequestState :=
  match task with
  | .dispatchMessage queue request =>
    if o.send then some (s.advanceFile file task [])
    else
      match queue with
      | none => some ((s.advanceFile file task []).complete request)
      | some queue => some (s.advanceFile file task [.notSent queue request])
  | .notSent queue request =>
    -- the request is found or not; the source asserts that there is no other failure
    match s.queued.retrieveFound (file, queue) request with
    | none => some (s.advanceFile file task [])
    | some (_, queued) =>
      some (((s.setQueued queued).advanceFile file task []).complete request)
  | .awaitCompletion request =>
    if context.pendingDataMsgMutex then none
    else
      some ((s.setFile file { context with pendingDataMsgMutex := true }).advanceFile file task
        [.processPendingMsg (.awaitCompletion request)])
  | .dequeueMessage request =>
    if context.pendingVchiMsgMutex then none else dequeueMessage s file context request o
  | .newRxMsg msg =>
    if context.pendingDataMsgMutex then none
    else if o.allocateMsg then
      some ((s.setFile file { context with
        pendingDataMsgMutex := true
        pendingDataMsgList := context.pendingDataMsgList ++ [msg] }).advanceFile file task
        [.processPendingMsg .rx])
    else some (s.advanceFile file task [])
  | .processPendingMsg caller => some (processPendingMsg pointerSize s file context caller o)
  | .removePendingMsg caller request totalMsg =>
    removePendingMsg s file context caller request totalMsg o
  | .removedPendingMsg caller request totalMsg =>
    some (removedPendingMsg s file context caller request totalMsg o)
  | .completedPendingMsg caller =>
    if context.pendingVchiMsgMutex then none
    else
      some ((s.setFile file { context with pendingVchiMsgMutex := true }).advanceFile file task
        [.processPendingVchiMsg (.removePendingMsg caller)])
  | .processPendingVchiMsg caller =>
    some (processPendingVchiMsg pointerSize s file context caller o)

/-! ## The RX thread -/

/-- A message from VC, `VchiqProcessRxSlot`. -/
inductive RxMsg
  | openAck
  | close
  | msg (msg : Msg)
  deriving DecidableEq

/-- The queue whose next request the message completes. -/
def RxMsg.queue : RxMsg → Option FileQueue
  | .openAck => some .createService
  | .close => some .closeService
  | .msg m =>
    match m.type with
    | .data => none
    | .bulkTxDone => some .txData
    | .bulkRxDone => some .rxData

/-- What is left to do after that. -/
def RxMsg.rest : RxMsg → List FileTask
  | .openAck | .close => []
  | .msg m => [.newRxMsg m]

/-- `VchiqProcessRxSlot` for one message to a file with a context. -/
def processRxMsg (s : RequestState) (file : Nat) (context : FileContext) (rx : RxMsg)
    (o : Outcomes) : Option RequestState :=
  match rx.queue with
  | none =>
    -- data of length zero is ignored
    if rx = .msg ⟨.data, 0⟩ then some s
    else some { s with tasks := rx.rest.map (.inFile file) ++ s.tasks }
  | some queue =>
    if context.HasQueue queue then
      if o.retrieve then
        match s.queued.retrieveNext (file, queue) with
        | none => some s
        | some (request, queued) =>
          let s := (s.setQueued queued).complete request
          some { s with tasks := rx.rest.map (.inFile file) ++ s.tasks }
      else some s
    else none

/-! ## The driver, its callers and the framework -/

/-- The atomic steps. -/
inductive RequestAction
  /-- VC answers `VCHIQ_MSG_CONNECT` -/
  | connected
  /-- `VchiqInCallerContext` gets a request, which is given the next number; its buffers can be
  locked, and it can be enqueued -/
  | inCallerContext (request : Request) (locked enqueued : Bool)
  /-- a step of `VchiqIoDeviceControl` or of the RX thread -/
  | run (task : Task) (o : Outcomes)
  /-- the RX thread gets a message to a file -/
  | rx (file : Nat) (msg : RxMsg) (o : Outcomes)
  /-- the framework cancels a request in a queue -/
  | cancel (file : Nat) (queue : FileQueue) (request : Request)
  /-- `VchiqFileClose` purges a queue -/
  | purge (file : Nat) (queue : FileQueue)
  /-- `VchiqFileClose` empties `PendingDataMsgList` -/
  | removeAllPendingMsg (file : Nat)
  /-- `VchiqFileClose` empties `PendingVchiMsgList` -/
  | removeAllPendingVchiMsg (file : Nat)

/-- `VchiqInCallerContext` -/
def inCallerContext (s : RequestState) (request : Request) (locked enqueued : Bool) :
    RequestState :=
  let request := { request with id := s.received }
  let s := { s with received := s.received + 1 }
  if callerContextInput pointerSize request.code ≤ request.inputBufferLength ∧ locked ∧ enqueued
  then { s with tasks := .ioDeviceControl request :: s.tasks }
  else s.complete request

/-- One step. -/
def requestStep (s : RequestState) : RequestAction → Option RequestState
  | .connected => some { s with vcConnected := true }
  | .inCallerContext request locked enqueued =>
    some (inCallerContext pointerSize s request locked enqueued)
  | .run task o =>
    if task ∈ s.tasks then
      match task with
      | .ioDeviceControl request => ioDeviceControl pointerSize s request o
      | .inFile file task =>
        (s.files file).bind fun context => runTask pointerSize s file context o task
    else none
  | .rx file msg o =>
    if s.tasks.all (!·.isRx) then
      (s.files file).bind fun context => processRxMsg s file context msg o
    else none
  | .cancel file queue request =>
    (s.queued.retrieveFound (file, queue) request).map fun (_, queued) =>
      (s.setQueued queued).complete request
  | .purge file queue => some (s.purge file queue)
  | .removeAllPendingMsg file =>
    (s.files file).bind fun context =>
      if context.pendingDataMsgMutex then none
      else some (s.setFile file { context with pendingDataMsgList := [] })
  | .removeAllPendingVchiMsg file =>
    (s.files file).bind fun context =>
      if context.pendingVchiMsgMutex then none
      else some (s.setFile file { context with pendingVchiMsgList := [] })

/-- No file is open. -/
def RequestState.start : RequestState where
  vcConnected := false
  files := fun _ => none
  queued := []
  tasks := []
  received := 0
  completed := []

/-- All interleavings. -/
def requestMachine : Machine RequestState RequestAction where
  init s := s = .start
  step := requestStep pointerSize

end Sizes

end RpiDrivers.Vchiq.Ioctl
