import Mathlib.Logic.Function.Basic
import RpiDrivers.Vchiq.Requests

/-!
# Services and their ports (`file.c`, `ioctl.c`, `slots.c`)

A file gets its context, and with it an Arm port, at its first `CONNECT` or `CREATE_SERVICE`. The
port is an index of `ArmPortHandles`, where the RX thread finds the context of a message from VC.
The ioctls of a file run in parallel: the default queue is a parallel one.

- `Handler`: how far the handler of a request has come.
- `FilePhase`: how far the close of a file has come.
- `World.effect`: the steps, each up to the next use of what is shared.
- `serviceMachine`: the files, the handlers, the RX thread and VC, interleaved.

A message from VC carries the file that it was sent for, and a message to VC the file and the
request that it was sent by. The code does not see these.
-/

namespace RpiDrivers.Vchiq.Service

open RpiDrivers.Lib
open RpiDrivers.Vchiq.Ioctl (FileQueue IoControlCode fileQueueMax)

/-- `ARM_PORT_START` -/
def armPortStart : Nat := 1

/-- `MAX_ARM_PORTS` -/
def maxArmPorts : Nat := 4096

/-- The types of messages, `VCHIQ_MSG_*`. -/
inductive MsgType
  | openService
  | openAck
  | close
  | data
  | bulkRx
  | bulkTx
  | bulkRxDone
  | bulkTxDone
  deriving DecidableEq

/-- `VCHIQ_MAKE_MSG` -/
structure TxMsg where
  type : MsgType
  srcPort : Nat
  dstPort : Nat
  deriving DecidableEq

/-- A message that was put into the Tx slots. -/
structure Sent where
  file : Nat
  /-- the request, none when it is `VchiqFileClose` that sends -/
  request : Option Nat
  msg : TxMsg

/-- A message from VC. -/
structure RxMsg where
  type : MsgType
  srcPort : Nat
  dstPort : Nat
  size : Nat
  /-- the file whose service it was sent for -/
  service : Nat
  deriving DecidableEq

/-- `SERVICE_STATE_*` -/
inductive ServiceState
  | min
  | opened
  | closed
  deriving DecidableEq

/-- `VCHIQ_FILE_CONTEXT` -/
structure FileContext where
  armPortNumber : Nat
  vchiqPortNumber : Nat
  state : ServiceState
  /-- the queues created are those with a smaller index, the others are NULL -/
  fileQueues : Nat
  pendingDataMsgList : List RxMsg

/-- The queue has been created. -/
def FileContext.HasQueue (context : FileContext) (queue : FileQueue) : Prop :=
  queue.index < context.fileQueues

instance (context : FileContext) (queue : FileQueue) : Decidable (context.HasQueue queue) :=
  inferInstanceAs (Decidable (_ < _))

/-- What `WdfObjectAllocateContext` allocates. -/
def FileContext.zero : FileContext := ⟨0, 0, .min, 0, []⟩

/-- How far `VchiqIoDeviceControl` has come with a request. -/
inductive Handler
  /-- `VchiqGetFileContext` has returned NULL -/
  | allocate (file : Nat) (code : IoControlCode)
  /-- the loop of `VchiqAllocateFileObjContext` is at this port -/
  | scan (file : Nat) (code : IoControlCode) (port : Nat)
  /-- it has got this port -/
  | store (file : Nat) (code : IoControlCode) (port : Nat)
  /-- the second `switch` -/
  | dispatch (file : Nat) (code : IoControlCode)
  /-- `VchiqQueueMessageAsync`; the request is in the queue, if there is one -/
  | send (file : Nat) (queue : Option FileQueue) (msg : TxMsg)
  /-- the message could not be sent and the request is to be taken from the queue -/
  | notSent (file : Nat) (queue : FileQueue)
  /-- its queue is NULL, and the request is neither queued nor completed -/
  | lost (file : Nat)
  | done
  deriving DecidableEq

/-- The request is in the hands of its handler, so that its file cannot be closed. -/
def Handler.Holds : Handler → Nat → Prop
  | .allocate file _, f => file = f
  | .scan file _ _, f => file = f
  | .store file _ _, f => file = f
  | .dispatch file _, f => file = f
  | .send file none _, f => file = f
  | .lost file, f => file = f
  | .send _ (some _) _, _ | .notSent _ _, _ | .done, _ => False

instance : ∀ (h : Handler) (f : Nat), Decidable (h.Holds f)
  | .allocate _ _, _ | .scan _ _ _, _ | .store _ _ _, _ | .dispatch _ _, _ | .send _ none _, _
  | .lost _, _ => inferInstanceAs (Decidable (_ = _))
  | .send _ (some _) _, _ | .notSent _ _, _ | .done, _ => inferInstanceAs (Decidable False)

/-- How far `VchiqFileClose` has come. -/
inductive CloseStep
  /-- the state is tested -/
  | testState
  /-- the CLOSE message is sent -/
  | sendClose
  /-- `ArmPortHandles[portNumber]` is read -/
  | readHandle
  /-- and replaced, if it has not changed -/
  | release (portNumber : Nat) (temp : Option Nat)
  deriving DecidableEq

inductive FilePhase
  | absent
  | opened
  | closing (step : CloseStep)
  | closed
  deriving DecidableEq

/-- The file has a context that the driver may use. -/
def FilePhase.Live : FilePhase → Prop
  | .opened | .closing _ => True
  | .absent | .closed => False

/-- The driver, the messages under way, and what VC knows. -/
structure World where
  /-- `ArmPortHandles`; a context is named by its file -/
  armPortHandles : Nat → Option Nat
  phase : Nat → FilePhase
  context : Nat → Option FileContext
  queued : ManualQueues (Nat × FileQueue) Nat
  /-- the requests received, by which they are numbered -/
  requests : List (Nat × IoControlCode)
  handler : Nat → Handler
  /-- the messages to VC -/
  sent : List Sent
  /-- the services, with their Arm ports, that VC may still send for -/
  remote : List (Nat × Nat)
  /-- the messages in the Rx slots -/
  inFlight : List RxMsg
  /-- the message that the RX thread processes, and the context it has found -/
  rx : Option (RxMsg × Option Nat)
  /-- the messages that were given to a context -/
  delivered : List (RxMsg × Nat)
  /-- the states that `VchiqFileClose` has found -/
  tested : List (Nat × ServiceState)

/-! ## What the functions decide -/

/-- The message that an ioctl sends, and the queue its request waits in. -/
def messageOf : IoControlCode → Option (MsgType × Option FileQueue)
  | .createService => some (.openService, some .createService)
  | .closeService | .removeService => some (.close, some .closeService)
  | .queueMsg => some (.data, none)
  | .bulkTransmit => some (.bulkTx, some .txData)
  | .bulkReceive => some (.bulkRx, some .rxData)
  | _ => none

/-- Where an ioctl starts, by the context of its file. -/
def startHandler (f : Nat) (context : Option FileContext) (code : IoControlCode) : Handler :=
  match context with
  | none => if code = .connect ∨ code = .createService then .allocate f code else .done
  | some _ => if (messageOf code).isSome then .dispatch f code else .done

/-- What `VchiqQueueMessageAsync` comes to. -/
inductive QueueMessage
  | success
  /-- the message is in the slot, but VC could not be signalled -/
  | signalFailed
  /-- there is no space for it -/
  | failed
  deriving DecidableEq

/-- What becomes of a request once its message is sent, or not. -/
def afterSend (f : Nat) (queue : Option FileQueue) (msg : TxMsg) (success : Bool) : Handler :=
  match queue with
  | some queue => if success then .done else .notSent f queue
  -- without a queue it is completed, unless the queue should be there and all went well
  | none => if success ∧ msg.type ≠ .data then .lost f else .done

/-- The queue whose next request a message completes. -/
def RxMsg.queue (msg : RxMsg) : Option FileQueue :=
  match msg.type with
  | .openAck => some .createService
  | .close => some .closeService
  | .bulkRxDone => some .rxData
  | .bulkTxDone => some .txData
  | _ => none

/-- The message is one for a service. -/
def RxMsg.forService (msg : RxMsg) : Bool :=
  match msg.type with
  | .openAck | .close | .data | .bulkRxDone | .bulkTxDone => true
  | .openService | .bulkRx | .bulkTx => false

/-- The context before the message completes a request. -/
def beforeRequest (context : FileContext) (msg : RxMsg) : FileContext :=
  if msg.type = .openAck then { context with vchiqPortNumber := msg.srcPort } else context

/-- The context once the message has completed a request; `listed` is whether an entry for it can be
allocated. -/
def afterRequest (context : FileContext) (msg : RxMsg) (listed : Bool) : FileContext :=
  match msg.type with
  | .openAck => { context with state := .opened }
  | .close => { context with state := .closed }
  | .bulkRxDone | .bulkTxDone =>
    if listed then { context with pendingDataMsgList := context.pendingDataMsgList ++ [msg] }
    else context
  | _ => context

namespace World

/-- The handler of a request goes on. -/
def setHandler (s : World) (request : Nat) (handler : Handler) : World :=
  { s with handler := Function.update s.handler request handler }

/-- Change the context of a file. -/
def setContext (s : World) (f : Nat) (context : FileContext) : World :=
  { s with context := Function.update s.context f (some context) }

def setPhase (s : World) (f : Nat) (phase : FilePhase) : World :=
  { s with phase := Function.update s.phase f phase }

def setHandle (s : World) (port : Nat) (handle : Option Nat) : World :=
  { s with armPortHandles := Function.update s.armPortHandles port handle }

/-! ## The ioctls -/

def ioctl (s : World) (f : Nat) (code : IoControlCode) : World :=
  { s.setHandler s.requests.length (startHandler f (s.context f) code) with
    requests := s.requests ++ [(f, code)] }

/-- `WdfObjectAllocateContext`. A file that has a context already keeps it, and the call
succeeds with `STATUS_OBJECT_NAME_EXISTS`. -/
def allocateContext (s : World) (request f : Nat) (code : IoControlCode) (allocated : Bool) :
    World :=
  if allocated then
    (s.setContext f ((s.context f).getD .zero)).setHandler request (.scan f code armPortStart)
  else s.setHandler request .done

/-- One round of the loop over `ArmPortHandles`. -/
def tryPort (s : World) (request f : Nat) (code : IoControlCode) (port : Nat) : World :=
  if maxArmPorts ≤ port then s.setHandler request .done  -- `STATUS_NO_MORE_FILES`
  else if s.armPortHandles port = none then
    (s.setHandle port (some f)).setHandler request (.store f code port)
  else s.setHandler request (.scan f code (port + 1))

/-- The rest of `VchiqAllocateFileObjContext`. The queues are created up to `created`; `rest` is
whether everything behind them succeeds. -/
def storePort (s : World) (request f : Nat) (code : IoControlCode) (port created : Nat)
    (rest : Bool) : World :=
  let context := { (s.context f).getD .zero with armPortNumber := port, fileQueues := created }
  (s.setContext f context).setHandler request
    (if fileQueueMax ≤ created ∧ rest ∧ code = .createService then .dispatch f code else .done)

/-- The second `switch`, up to the message. The input is `valid`; `forward` is the outcome of
`WdfRequestForwardToIoQueue`. -/
def dispatch (s : World) (request f : Nat) (code : IoControlCode) (valid forward : Bool) : World :=
  match s.context f, messageOf code with
  | some context, some (type, queue) =>
    let msg := {
      type := type
      srcPort := context.armPortNumber
      dstPort := if code = .createService then 0 else context.vchiqPortNumber }
    if !valid then s.setHandler request .done
    else
      match queue with
      | none => s.setHandler request (.send f none msg)
      | some queue =>
        if ¬context.HasQueue queue then s.setHandler request (.send f none msg)
        else if forward then
          { s with queued := s.queued.forward (f, queue) request }.setHandler request
            (.send f (some queue) msg)
        else s.setHandler request .done
  | _, _ => s.setHandler request .done

/-- The message in the slot, if it gets there. VC learns of a service by its OPEN. -/
def queueMessage (s : World) (f : Nat) (request : Option Nat) (msg : TxMsg)
    (outcome : QueueMessage) : World :=
  if outcome = .failed then s
  else { s with
    sent := s.sent ++ [⟨f, request, msg⟩]
    remote := if msg.type = .openService then s.remote ++ [(f, msg.srcPort)] else s.remote }

def send (s : World) (request f : Nat) (queue : Option FileQueue) (msg : TxMsg)
    (outcome : QueueMessage) : World :=
  (s.queueMessage f (some request) msg outcome).setHandler request
    (afterSend f queue msg (outcome = .success))

/-- `WdfIoQueueRetrieveFoundRequest` for a request whose message was not sent -/
def notSent (s : World) (request f : Nat) (queue : FileQueue) : World :=
  { s with queued := ((s.queued.retrieveFound (f, queue) request).map Prod.snd).getD s.queued
    }.setHandler request .done

/-- The framework cancels a request in a queue. -/
def cancel (s : World) (f : Nat) (queue : FileQueue) (request : Nat) : World :=
  { s with queued := ((s.queued.retrieveFound (f, queue) request).map Prod.snd).getD s.queued }

/-! ## `VchiqFileClose` -/

/-- `EvtFileClose` is called, once no request of the file is left. -/
def closeFile (s : World) (f : Nat) : World :=
  s.setPhase f (if s.context f = none then FilePhase.closed else .closing .testState)

def testState (s : World) (f : Nat) : World :=
  match s.context f with
  | none => s
  | some context =>
    { s with tested := s.tested ++ [(f, context.state)] }.setPhase f
      (.closing (if context.state ≠ ServiceState.closed then .sendClose else .readHandle))

def sendClose (s : World) (f : Nat) (outcome : QueueMessage) : World :=
  match s.context f with
  | none => s
  | some context =>
    (s.queueMessage f none ⟨.close, context.armPortNumber, context.vchiqPortNumber⟩
      outcome).setPhase f (.closing .readHandle)

def readHandle (s : World) (f : Nat) : World :=
  match s.context f with
  | none => s
  | some context =>
    s.setPhase f (.closing (.release context.armPortNumber
      (s.armPortHandles context.armPortNumber)))

/-- `InterlockedCompareExchangePointer`; then the queues are purged and the lists emptied. -/
def release (s : World) (f portNumber : Nat) (temp : Option Nat) : World :=
  let s := if s.armPortHandles portNumber = temp then s.setHandle portNumber none else s
  let s := { s with queued := s.queued.filter fun e => e.1.1 ≠ f }
  match s.context f with
  | none => s.setPhase f .closed
  | some context => (s.setContext f { context with pendingDataMsgList := [] }).setPhase f .closed

/-! ## `VchiqProcessRxSlot` -/

/-- The next message and its context. -/
def rxLookup (s : World) : World :=
  match s.inFlight with
  | [] => s
  | msg :: inFlight =>
    { s with rx := some (msg, s.armPortHandles msg.dstPort), inFlight := inFlight }

/-- The message is processed for a context. -/
def deliver (s : World) (g : Nat) (context : FileContext) (msg : RxMsg)
    (retrieve listed : Bool) : World :=
  let s := { s with delivered := s.delivered ++ [(msg, g)] }
  let context := beforeRequest context msg
  match msg.queue with
  | none =>
    -- data of length zero is ignored
    if msg.size ≠ 0 ∧ listed then
      s.setContext g
        { context with pendingDataMsgList := context.pendingDataMsgList ++ [msg] }
    else s
  | some queue =>
    match if retrieve then s.queued.retrieveNext (g, queue) else none with
    | none => s.setContext g context
    | some (_, queued) => { s with queued := queued }.setContext g (afterRequest context msg listed)

/-- The message is processed, for the context that was found. -/
def rxHandle (s : World) (msg : RxMsg) (handle : Option Nat) (retrieve listed : Bool) : World :=
  let s := { s with rx := none }
  match handle with
  | none => s
  | some g =>
    match s.context g with
    | none => s
    | some context => if msg.forService then s.deliver g context msg retrieve listed else s

end World

/-! ## The machine -/

/-- The atomic steps. A step of a handler names the request and what it has come to. -/
inductive Action
  | openFile (f : Nat)
  | ioctl (f : Nat) (code : IoControlCode)
  | allocateContext (request f : Nat) (code : IoControlCode) (allocated : Bool)
  | tryPort (request f : Nat) (code : IoControlCode) (port : Nat)
  | storePort (request f : Nat) (code : IoControlCode) (port created : Nat) (rest : Bool)
  | dispatch (request f : Nat) (code : IoControlCode) (valid forward : Bool)
  | send (request f : Nat) (queue : Option FileQueue) (msg : TxMsg) (outcome : QueueMessage)
  | notSent (request f : Nat) (queue : FileQueue)
  | cancel (f : Nat) (queue : FileQueue) (request : Nat)
  | closeFile (f : Nat)
  | testState (f : Nat)
  | sendClose (f : Nat) (outcome : QueueMessage)
  | readHandle (f : Nat)
  | release (f portNumber : Nat) (temp : Option Nat)
  /-- VC sends a message for a service -/
  | vcSend (msg : RxMsg)
  /-- VC is through with a service -/
  | vcClosed (f port : Nat)
  | rxLookup
  | rxHandle (msg : RxMsg) (handle : Option Nat) (retrieve listed : Bool)

namespace World

/-- When a step can be taken. -/
def enabled (s : World) : Action → Prop
  | .openFile f => s.phase f = .absent
  | .ioctl f _ => s.phase f = .opened
  | .allocateContext request f code _ => s.handler request = .allocate f code
  | .tryPort request f code port => s.handler request = .scan f code port
  | .storePort request f code port _ _ => s.handler request = .store f code port
  | .dispatch request f code _ _ => s.handler request = .dispatch f code
  | .send request f queue msg _ => s.handler request = .send f queue msg
  | .notSent request f queue => s.handler request = .notSent f queue
  | .cancel _ _ _ => True
  | .closeFile f => s.phase f = .opened ∧ (∀ e ∈ s.queued, e.1.1 ≠ f) ∧
      ∀ request < s.requests.length, ¬(s.handler request).Holds f
  | .testState f => s.phase f = .closing .testState
  | .sendClose f _ => s.phase f = .closing .sendClose
  | .readHandle f => s.phase f = .closing .readHandle
  | .release f portNumber temp => s.phase f = .closing (.release portNumber temp)
  | .vcSend msg => (msg.service, msg.dstPort) ∈ s.remote
  | .vcClosed _ _ => True
  | .rxLookup => s.rx = none ∧ s.inFlight ≠ []
  | .rxHandle msg handle _ _ => s.rx = some (msg, handle)

instance (s : World) : ∀ a : Action, Decidable (s.enabled a)
  | .openFile _ | .ioctl _ _ | .allocateContext _ _ _ _ | .tryPort _ _ _ _
  | .storePort _ _ _ _ _ _ | .dispatch _ _ _ _ _ | .send _ _ _ _ _ | .notSent _ _ _
  | .testState _ | .sendClose _ _ | .readHandle _ | .release _ _ _ | .rxHandle _ _ _ _ =>
    inferInstanceAs (Decidable (_ = _))
  | .cancel _ _ _ | .vcClosed _ _ => inferInstanceAs (Decidable True)
  | .closeFile _ | .rxLookup => inferInstanceAs (Decidable (_ ∧ _))
  | .vcSend _ => inferInstanceAs (Decidable (_ ∈ _))

/-- What a step does. -/
def effect (s : World) : Action → World
  | .openFile f => s.setPhase f .opened
  | .ioctl f code => s.ioctl f code
  | .allocateContext request f code allocated => s.allocateContext request f code allocated
  | .tryPort request f code port => s.tryPort request f code port
  | .storePort request f code port created rest => s.storePort request f code port created rest
  | .dispatch request f code valid forward => s.dispatch request f code valid forward
  | .send request f queue msg outcome => s.send request f queue msg outcome
  | .notSent request f queue => s.notSent request f queue
  | .cancel f queue request => s.cancel f queue request
  | .closeFile f => s.closeFile f
  | .testState f => s.testState f
  | .sendClose f outcome => s.sendClose f outcome
  | .readHandle f => s.readHandle f
  | .release f portNumber temp => s.release f portNumber temp
  | .vcSend msg => { s with inFlight := s.inFlight ++ [msg] }
  | .vcClosed f port => { s with remote := s.remote.filter (· ≠ (f, port)) }
  | .rxLookup => s.rxLookup
  | .rxHandle msg handle retrieve listed => s.rxHandle msg handle retrieve listed

/-- No file is open. -/
def start : World where
  armPortHandles _ := none
  phase _ := .absent
  context _ := none
  queued := []
  requests := []
  handler _ := .done
  sent := []
  remote := []
  inFlight := []
  rx := none
  delivered := []
  tested := []

end World

/-- All interleavings. -/
def serviceMachine : Machine World Action :=
  .guarded (· = .start) World.enabled World.effect

end RpiDrivers.Vchiq.Service
