import RpiDrivers.Lib.Machine
import RpiDrivers.Lib.ManualQueue

/-!
# Property requests of the mailbox (`mailbox.c`, `interrupt.c`, `ioctl.c`, `init.c`)

A property request gets a buffer of its own, is put into the queue of its channel, and the bus
address of the buffer is written to the mailbox. The firmware answers with the same value. The
DPC takes the request at the head of the channel's queue for the one that has been answered; it
does not look at the address. The query for the MAC address is made when the device starts, and
polls for its answer, which it does tell by the address.

The parties are any number of callers, the framework that cancels queued requests, the firmware
that answers in any order, and the DPC.

- `PairingSound`: requests are completed once, with success only when they have been answered,
  and no buffer is freed that the firmware still has.
- `InOrder`: the condition. Answers come in the order of the queue, and before anybody gives up.
-/

namespace RpiDrivers.Mailbox

open RpiDrivers.Lib

/-! ## Requests and messages -/

inductive Status
  | success
  | bufferTooSmall
  | invalidParameter
  | insufficientResources
  | ioTimeout
  | unsuccessful
  | cancelled
  deriving DecidableEq

/-- What `RpiqProcessChannel` looks at in an `IOCTL_MAILBOX_PROPERTY`. -/
structure PropertyIoctl where
  inputLength : Nat
  totalBuffer : Nat
  outputLength : Nat

/-- `sizeof(MAILBOX_HEADER)` -/
def headerSize : Nat := 20

/-- The checks of `RpiqProcessChannel`. -/
def PropertyIoctl.check (i : PropertyIoctl) : Status :=
  if i.inputLength < headerSize then .bufferTooSmall
  else if i.totalBuffer ≠ i.inputLength then .invalidParameter
  else if i.outputLength < i.totalBuffer then .bufferTooSmall
  else if i.outputLength ≠ i.inputLength then .invalidParameter
  else .success

/-- A property buffer: that of the query for the MAC address, or `PropertyMemory` of a request. -/
inductive Buffer
  | mac
  | request (r : Nat)
  deriving DecidableEq

/-- A value in the mailbox, and the buffer that it stands for. -/
structure Message where
  value : Nat
  buffer : Option Buffer
  deriving DecidableEq

/-- `value & ~MAILBOX_CHANNEL_MASK` -/
def withoutChannel (value : Nat) : Nat := value / 16 * 16

/-- `value & MAILBOX_CHANNEL_MASK` -/
def Message.channel (m : Message) : Nat := m.value % 16

/-- `MAILBOX_CHANNEL_PROPERTY_ARM_VC` -/
def channelPropertyArmVc : Nat := 8

/-- `MAILBOX_CHANNEL_MAX` -/
def channelMax : Nat := 10

/-- `addrProperty.LowPart + OFFSET_DIRECT_SDRAM` -/
def busAddress (address : Nat) : Nat := (address + 0xC0000000) % 0x100000000

/-- `MAX_POLL` -/
def maxPoll : Nat := 50

/-! ## The parties -/

/-- Who calls `RpiqMailboxWrite`. -/
inductive Writer
  | mac
  | property (r : Nat)
  | vchiq
  deriving DecidableEq

/-- The arguments of `RpiqMailboxWrite`. -/
structure Write where
  writer : Writer
  channel : Nat
  value : Nat
  deriving DecidableEq

/-- The buffer that is handed to the firmware. -/
def Write.buffer (w : Write) : Option Buffer :=
  match w.writer with
  | .mac => some .mac
  | .property r => some (.request r)
  | .vchiq => none

/-- What a call does next. -/
inductive Call
  /-- `RpiqMailboxProperty` allocates the context and the buffer -/
  | allocate (r : Nat)
  /-- `WdfWaitLockAcquire` -/
  | acquire (w : Write)
  /-- look whether the mailbox is full -/
  | poll (w : Write) (count : Nat)
  /-- `WdfRequestForwardToIoQueue`, if there is a request -/
  | forward (w : Write)
  /-- write to the mailbox -/
  | write (w : Write)
  deriving DecidableEq

/-- Where the query for the MAC address is. -/
inductive Mac
  | notStarted
  | writing
  | waiting (retries : Nat)
  | done
  deriving DecidableEq

/-- Where `RpiqMailboxDpc` is. -/
inductive Dpc
  | idle
  /-- it has read an answer -/
  | read (m : Message)
  /-- it has taken a request for it -/
  | took (r : Nat)
  deriving DecidableEq

/-- The completion of a property request: the buffer that was copied, and whether it had been
answered. -/
structure Completion where
  request : Nat
  status : Status
  copied : Option Buffer
  answered : Bool

/-- The driver and the firmware. Property requests are numbered as they come. -/
structure Rpiq where
  mac : Mac
  macAddress : Nat
  issued : Nat
  calls : List Call
  writeLock : Bool
  channelQueue : ManualQueues Nat Nat
  /-- the buffers that are allocated -/
  live : List Buffer
  /-- written to the mailbox and not answered -/
  sent : List Message
  /-- answers to be read -/
  inbox : List Message
  dpc : Dpc
  answered : List Buffer
  completions : List Completion

namespace Rpiq

/-! ### Completing requests -/

/-- `MmFreeContiguousMemory` -/
def free (s : Rpiq) (b : Buffer) : Rpiq := { s with live := s.live.filter (· ≠ b) }

/-- `WdfRequestComplete`, and `RpiqRequestContextCleanup` when the request is deleted. -/
def complete (s : Rpiq) (r : Nat) (status : Status) (copied : Option Buffer) : Rpiq :=
  { s.free (.request r) with
    completions :=
      s.completions ++ [⟨r, status, copied, decide (.request r ∈ s.answered)⟩] }

/-! ### `RpiqMailboxWrite` -/

/-- The call goes on to `next`. -/
def goOn (s : Rpiq) (c : Call) (next : List Call) : Rpiq :=
  { s with calls := advance s.calls c next }

/-- `RpiqMailboxWrite` fails, and so does its caller. -/
def failWrite (s : Rpiq) (c : Call) (w : Write) (status : Status) : Rpiq :=
  let s := { s.goOn c [] with writeLock := false }
  match w.writer with
  | .mac => { s.free .mac with mac := .done }
  | .property r => s.complete r status none
  | .vchiq => s

def acquire (s : Rpiq) (w : Write) : Rpiq :=
  { s.goOn (.acquire w) [.poll w 0] with writeLock := true }

/-- The loop that waits for room in the mailbox. -/
def poll (s : Rpiq) (w : Write) (count : Nat) (full : Bool) : Rpiq :=
  if full then
    if maxPoll < count then s.failWrite (.poll w count) w .ioTimeout
    else s.goOn (.poll w count) [.poll w (count + 1)]
  else s.goOn (.poll w count) [.forward w]

def forward (s : Rpiq) (w : Write) (success : Bool) : Rpiq :=
  match w.writer with
  | .property r =>
    if success then
      { s.goOn (.forward w) [.write w] with
        channelQueue := s.channelQueue.forward w.channel r }
    else s.failWrite (.forward w) w .unsuccessful
  | .mac | .vchiq => s.goOn (.forward w) [.write w]

def write (s : Rpiq) (w : Write) : Rpiq :=
  { s.goOn (.write w) [] with
    sent := s.sent ++ [⟨withoutChannel w.value ||| w.channel, w.buffer⟩]
    writeLock := false
    mac := if w.writer = .mac then .waiting 10 else s.mac }

/-! ### `RpiqProcessChannel` and `RpiqMailboxProperty` -/

def ioctlProperty (s : Rpiq) (i : PropertyIoctl) : Rpiq :=
  let s' := { s with issued := s.issued + 1 }
  if i.check = .success then { s' with calls := .allocate s.issued :: s.calls }
  else s'.complete s.issued i.check none

def ioctlVchiq (s : Rpiq) (channel value : Nat) : Rpiq :=
  { s with calls := .acquire ⟨.vchiq, channel, value⟩ :: s.calls }

/-- The context and the buffer of a request, when there is memory. -/
def allocate (s : Rpiq) (r : Nat) (memory : Option Nat) : Rpiq :=
  match memory with
  | some address =>
    { s.goOn (.allocate r) [.acquire ⟨.property r, channelPropertyArmVc, busAddress address⟩] with
      live := .request r :: s.live }
  | none => (s.goOn (.allocate r) []).complete r .insufficientResources none

/-! ### `RpiSetDeviceMacAddress` -/

def startMac (s : Rpiq) (memory : Option Nat) : Rpiq :=
  match memory with
  | some address =>
    { s with
      mac := .writing
      macAddress := address
      live := .mac :: s.live
      calls := .acquire ⟨.mac, channelPropertyArmVc, busAddress address⟩ :: s.calls }
  | none => { s with mac := .done }

/-- One round of the loop that waits for the answer. An empty mailbox reads as 0. -/
def pollMac (s : Rpiq) : Rpiq :=
  let read := s.inbox.head?.map Message.value
  let s' := { s with inbox := s.inbox.tail }
  if withoutChannel (read.getD 0) = busAddress s.macAddress then { s'.free .mac with mac := .done }
  else
    match s.mac with
    | .waiting (retries + 2) => { s' with mac := .waiting (retries + 1) }
    | _ => { s'.free .mac with mac := .done }

/-! ### The firmware and `RpiqMailboxDpc` -/

/-- The firmware answers a message with the same value. -/
def answer (s : Rpiq) (m : Message) : Rpiq :=
  { s with
    sent := advance s.sent m []
    inbox := s.inbox ++ [m]
    answered := s.answered ++ m.buffer.toList }

/-- The DPC reads the answer `m`. -/
def readDpc (s : Rpiq) (m : Message) : Rpiq :=
  { s with
    dpc := .read m
    inbox := s.inbox.tail }

/-- The request that the DPC takes for an answer, and the queues without it. -/
def nextRequest (s : Rpiq) (m : Message) : Option (Nat × ManualQueues Nat Nat) :=
  if channelMax ≤ m.channel then none else s.channelQueue.retrieveNext m.channel

def retrieveDpc (s : Rpiq) (m : Message) : Rpiq :=
  match s.nextRequest m with
  | some (r, rest) =>
    { s with
      dpc := .took r
      channelQueue := rest }
  | none => { s with dpc := .idle }

/-- The DPC completes the request, when `WdfRequestRetrieveOutputBuffer` succeeds with a copy of
its buffer. -/
def completeDpc (s : Rpiq) (r : Nat) (success : Bool) : Rpiq :=
  let s := { s with dpc := .idle }
  if success then s.complete r .success (some (.request r)) else s.complete r .bufferTooSmall none

/-- The framework cancels a request in a queue. -/
def cancel (s : Rpiq) (queue r : Nat) : Rpiq :=
  match s.channelQueue.retrieveFound queue r with
  | some (_, rest) => { s.complete r .cancelled none with channelQueue := rest }
  | none => s

/-- The device before it is started for the first time. -/
def start : Rpiq where
  mac := .notStarted
  macAddress := 0
  issued := 0
  calls := []
  writeLock := false
  channelQueue := []
  live := []
  sent := []
  inbox := []
  dpc := .idle
  answered := []
  completions := []

end Rpiq

/-! ## The machine -/

inductive RpiqAction
  | startMac (memory : Option Nat)
  | pollMac
  | ioctlProperty (i : PropertyIoctl)
  | ioctlVchiq (channel value : Nat)
  | allocate (r : Nat) (memory : Option Nat)
  | acquire (w : Write)
  | poll (w : Write) (count : Nat) (full : Bool)
  | forward (w : Write) (success : Bool)
  | write (w : Write)
  | answer (m : Message)
  | readDpc (m : Message)
  | retrieveDpc (m : Message)
  | completeDpc (r : Nat) (success : Bool)
  | cancel (queue r : Nat)

namespace Rpiq

/-- When a step can happen. Requests and the DPC come when the query is done; memory is of whole
pages of the low 1 GB. -/
def enabled (s : Rpiq) : RpiqAction → Prop
  | .startMac memory =>
    s.mac = .notStarted ∧ ∀ address ∈ memory, address % 4096 = 0 ∧ address < 0x40000000
  | .pollMac => s.mac ≠ .notStarted ∧ s.mac ≠ .writing ∧ s.mac ≠ .done
  | .ioctlProperty _ => s.mac = .done
  | .ioctlVchiq channel value => s.mac = .done ∧ channel < 0x100000000 ∧ value < 0x100000000
  | .allocate r _ => .allocate r ∈ s.calls
  | .acquire w => .acquire w ∈ s.calls ∧ s.writeLock = false
  | .poll w count _ => .poll w count ∈ s.calls
  | .forward w _ => .forward w ∈ s.calls
  | .write w => .write w ∈ s.calls
  | .answer m => m ∈ s.sent
  | .readDpc m => s.mac = .done ∧ s.dpc = .idle ∧ s.inbox.head? = some m
  | .retrieveDpc m => s.dpc = .read m
  | .completeDpc r _ => s.dpc = .took r
  | .cancel queue r => (queue, r) ∈ s.channelQueue

instance : ∀ (s : Rpiq) (a : RpiqAction), Decidable (s.enabled a)
  | _, .startMac _ | _, .acquire _ => inferInstanceAs (Decidable (_ ∧ _))
  | _, .pollMac | _, .ioctlVchiq .. | _, .readDpc _ => inferInstanceAs (Decidable (_ ∧ _ ∧ _))
  | _, .ioctlProperty _ | _, .retrieveDpc _ | _, .completeDpc .. =>
    inferInstanceAs (Decidable (_ = _))
  | _, .allocate .. | _, .poll .. | _, .forward .. | _, .write _ | _, .answer _ | _, .cancel .. =>
    inferInstanceAs (Decidable (_ ∈ _))

def effect (s : Rpiq) : RpiqAction → Rpiq
  | .startMac memory => s.startMac memory
  | .pollMac => s.pollMac
  | .ioctlProperty i => s.ioctlProperty i
  | .ioctlVchiq channel value => s.ioctlVchiq channel value
  | .allocate r memory => s.allocate r memory
  | .acquire w => s.acquire w
  | .poll w count full => s.poll w count full
  | .forward w success => s.forward w success
  | .write w => s.write w
  | .answer m => s.answer m
  | .readDpc m => s.readDpc m
  | .retrieveDpc m => s.retrieveDpc m
  | .completeDpc r success => s.completeDpc r success
  | .cancel queue r => s.cancel queue r

end Rpiq

/-- All interleavings. -/
def rpiqMachine : Machine Rpiq RpiqAction :=
  Machine.guarded (· = Rpiq.start) Rpiq.enabled Rpiq.effect

/-! ## The property and the condition -/

/-- Property requests are completed once, with success only with a copy of their own buffer that
the firmware has answered, and a buffer that the firmware still has is not freed. -/
structure PairingSound (s : Rpiq) : Prop where
  once : ∀ r, (s.completions.map Completion.request).count r ≤ 1
  paired : ∀ c ∈ s.completions, c.status = .success →
    c.copied = some (.request c.request) ∧ c.answered = true
  kept : ∀ m ∈ s.sent, ∀ b ∈ m.buffer, b ∈ s.live

/-- The request that is taken for an answer has been answered, a request is cancelled after it has
been answered, and the query gives up after it has been answered. -/
def InOrder (s : Rpiq) : RpiqAction → Prop
  | .retrieveDpc m => ∀ next ∈ s.nextRequest m, .request next.1 ∈ s.answered
  | .cancel _ r => .request r ∈ s.answered
  | .pollMac => s.mac = .waiting 1 → .mac ∈ s.answered
  | _ => True

instance : ∀ (s : Rpiq) (a : RpiqAction), Decidable (InOrder s a)
  | s, .retrieveDpc m => inferInstanceAs (Decidable (∀ next ∈ s.nextRequest m, _))
  | _, .cancel .. => inferInstanceAs (Decidable (_ ∈ _))
  | _, .pollMac => inferInstanceAs (Decidable (_ → _))
  | _, .startMac _ | _, .ioctlProperty _ | _, .ioctlVchiq .. | _, .allocate .. | _, .acquire _
  | _, .poll .. | _, .forward .. | _, .write _ | _, .answer _ | _, .readDpc _
  | _, .completeDpc .. =>
    inferInstanceAs (Decidable True)

end RpiDrivers.Mailbox
