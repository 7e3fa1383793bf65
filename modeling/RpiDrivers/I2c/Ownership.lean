import Mathlib.Data.List.Nodup
import RpiDrivers.Lib.Machine
import RpiDrivers.Lib.Pool

/-!
# Who owns an I2C request (`device.cpp`)

`OnRead`, `OnWrite` and `OnSequence` set up the interrupt context for a request, mark the request
cancelable and enable the interrupts, the last two under `CancelLock`. From then on the ISR works
on the transfer, its DPC takes the request over under `CancelLock` if it can unmark it, and the
cancel callback gives it up under both locks. A sequence whose write has one byte is different:
its last register write starts the read and enables the interrupts, so it comes before the mark.

Each access to a shared variable, a register or the framework is one atomic step, and so are
taking and releasing a lock. Requests are numbered from 1 as the framework presents them, the
next one when the last one is completed.

- `OwnershipSound`: no request is completed twice, every other one is owned by somebody who will
  complete it, and no interrupt or DPC has worked on a request that was not marked cancelable
  before or was completed already.
- `Undisturbed`: the condition, that the ISR does not find the transfer state of a request that
  is half set up, and that a DPC finds no other request than the one it was queued for.
- `ownershipSound_of_undisturbed`: runs that keep to the condition are sound.
- `unmarked_processed`: the interrupt of a sequence with one byte to write works on the request
  before it is marked; `dispatched_completed_twice`: and its DPC may complete it beside the dispatch
  routine.
-/

namespace RpiDrivers.I2c.Ownership

open RpiDrivers.Lib

/-- `TRANSFER_STATE`, without `INVALID` and the `ERROR_FLAG` -/
inductive TransferState
  | sending
  | sendingWaitForDone
  | receiving
  | receivingWaitForDone
  | sendingSequence
  | receivingSequence
  | receivingSequenceWaitForDone
  deriving DecidableEq

/-- What a request asks for. -/
inductive RequestKind
  | read
  /-- whether the first fill of the FIFO takes all bytes -/
  | write (allSent : Bool)
  /-- whether `BytesToWrite == 1` -/
  | sequence (oneByte : Bool)
  deriving DecidableEq

/-- The `State` that the dispatch routine stores. -/
def RequestKind.state : RequestKind → TransferState
  | read => .receiving
  | write allSent => if allSent then .sendingWaitForDone else .sending
  | sequence _ => .sendingSequence

/-- The writes of `ResetHardwareAndRequestContext`. -/
inductive ResetStep
  | state
  | request
  /-- the control register, which disables the interrupts -/
  | control
  deriving DecidableEq

def ResetStep.next : ResetStep → Option ResetStep
  | .state => some .request
  | .request => some .control
  | .control => none

/-- Where the dispatch routine stands. -/
inductive DispatchStep
  /-- check the request and its buffers -/
  | validate (kind : RequestKind)
  /-- `InitializeTransfer`, and start the transfer without interrupts -/
  | start (kind : RequestKind)
  /-- `SpbRequest = SpbRequest` -/
  | setRequest (kind : RequestKind)
  /-- `State` and the context of the transfer -/
  | setState (kind : RequestKind)
  /-- acquire `CancelLock` -/
  | acquire (kind : RequestKind)
  /-- one byte to write: `WaitForTransferActive` -/
  | waitActive
  /-- acquire the interrupt lock -/
  | acquireInterrupt
  /-- start the read with interrupts enabled, `State = RECEIVING_SEQUENCE` -/
  | enableEarly
  | releaseInterrupt
  /-- `WdfRequestMarkCancelableEx` -/
  | mark (kind : RequestKind)
  /-- the control register, which enables the interrupts -/
  | enable
  /-- release `CancelLock`, with success or not -/
  | release (success : Bool)
  | reset (p : ResetStep)
  /-- `SpbRequestComplete` with the failure -/
  | complete
  deriving DecidableEq

/-- Where `HandleInterrupt` stands. -/
inductive IsrStep
  /-- acquire the interrupt lock -/
  | acquire
  /-- read the status register and `State` -/
  | readState
  /-- go on with the transfer -/
  | handle (state : TransferState) (errorFlag : Bool)
  /-- disable the interrupts and queue the DPC -/
  | queue
  /-- return -/
  | release
  deriving DecidableEq

/-- Where an instance of `OnInterruptDpc` stands; `tag` is the request whose interrupt queued it,
`r` the one that it has found. -/
inductive DpcStep
  /-- acquire `CancelLock` -/
  | acquire (tag : Nat)
  /-- read `SpbRequest` -/
  | read (tag : Nat)
  /-- `WdfRequestUnmarkCancelable` -/
  | unmark (tag r : Nat)
  /-- `SpbRequest = WDF_NO_HANDLE` -/
  | claim (r : Nat)
  /-- release `CancelLock` -/
  | release (r : Nat)
  /-- `ProcessRequestCompletion` -/
  | process (r : Nat)
  | reset (r : Nat) (p : ResetStep)
  /-- `SpbRequestComplete` -/
  | complete (r : Nat)
  /-- no request, or `STATUS_CANCELLED`: release `CancelLock` and return -/
  | giveUp (tag : Nat)
  /-- any other status: `SpbRequest = WDF_NO_HANDLE` -/
  | fail (tag r : Nat)
  | releaseFailed (tag r : Nat)
  | completeFailed (tag r : Nat)
  deriving DecidableEq

/-- Where `OnRequestCancel` stands. -/
inductive CancelStep
  /-- acquire `CancelLock` -/
  | acquire
  /-- read `SpbRequest` -/
  | read
  /-- acquire the interrupt lock -/
  | acquireInterrupt
  | reset (p : ResetStep)
  | releaseInterrupt
  /-- release `CancelLock` -/
  | release
  /-- `SpbRequestComplete` -/
  | complete
  /-- no request: release `CancelLock` and return -/
  | giveUp
  deriving DecidableEq

/-- What the framework knows of the request. -/
inductive RequestState
  | unmarked
  | cancelable
  /-- the cancel callback has been called -/
  | cancelling
  /-- no longer cancelable -/
  | released
  | completed
  deriving DecidableEq

/-- The controller, the framework and the routines under way. `current` numbers the request that
the framework has presented last. `transferOf` is the request whose context is set up; `marked`
and `completed` log the requests that were marked cancelable and completed, and `processings`,
for each step that an ISR or DPC takes on a request, whether it was marked and completed. -/
structure Controller where
  spbRequest : Option Nat
  /-- `State` and its `ERROR_FLAG`; `none` is `INVALID` -/
  state : Option (TransferState × Bool)
  /-- the interrupt bits of the control register -/
  interruptsEnabled : Bool
  cancelLock : Bool
  interruptLock : Bool
  current : Nat
  request : RequestState
  /-- the request is cancelled before it is marked -/
  cancelRequested : Bool
  dispatch : Option DispatchStep
  isr : Option IsrStep
  dpcQueued : Option Nat
  dpcs : List DpcStep
  /-- the request of the cancel callback, and where it stands -/
  cancel : Option (Nat × CancelStep)
  transferOf : Nat
  marked : List Nat
  completed : List Nat
  processings : List (Bool × Bool)

namespace Controller

/-- Log a step of an ISR or DPC on a request. -/
def process (s : Controller) (r : Nat) : Controller :=
  { s with processings := s.processings ++ [(decide (r ∈ s.marked), decide (r ∈ s.completed))] }

/-- `SpbRequestComplete` -/
def spbRequestComplete (s : Controller) (r : Nat) : Controller :=
  { s with
    request := if r = s.current then .completed else s.request
    completed := s.completed ++ [r] }

/-- One write of `ResetHardwareAndRequestContext`. -/
def reset (s : Controller) : ResetStep → Controller
  | .state => { s with state := none }
  | .request => { s with spbRequest := none }
  | .control => { s with interruptsEnabled := false }

/-- The next step of the dispatch routine; `ok` is the outcome of a check or a wait. -/
def runDispatch (s : Controller) (ok : Bool) : DispatchStep → Controller
  | .validate kind =>
    { s with
      dispatch := some (if !ok then .complete
        else match kind with
        | .read | .write _ => .start kind
        | .sequence _ => .setRequest kind) }
  | .start kind =>
    { s with
      interruptsEnabled := false
      dispatch := some (match kind with
        | .read | .write _ => .setRequest kind
        | .sequence _ => .acquire kind) }
  | .setRequest kind =>
    { s with spbRequest := some s.current, dispatch := some (.setState kind) }
  | .setState kind =>
    { s with
      state := some (kind.state, false)
      transferOf := s.current
      dispatch := some (match kind with
        | .read | .write _ => .acquire kind
        | .sequence _ => .start kind) }
  | .acquire kind =>
    if s.cancelLock then s
    else
      { s with
        cancelLock := true
        dispatch := some (if kind = .sequence true then .waitActive else .mark kind) }
  | .waitActive =>
    { s with dispatch := some (if ok then .acquireInterrupt else .release false) }
  | .acquireInterrupt =>
    if s.interruptLock then s
    else { s with interruptLock := true, dispatch := some .enableEarly }
  | .enableEarly =>
    { s with
      interruptsEnabled := true
      state := some (.receivingSequence, false)
      dispatch := some .releaseInterrupt }
  | .releaseInterrupt =>
    { s with interruptLock := false, dispatch := some (.mark (.sequence true)) }
  | .mark kind =>
    if s.cancelRequested then { s with dispatch := some (.release false) }
    else
      { s with
        request := .cancelable
        marked := s.marked ++ [s.current]
        dispatch := some (if kind = .sequence true then .release true else .enable) }
  | .enable => { s with interruptsEnabled := true, dispatch := some (.release true) }
  | .release success =>
    { s with
      cancelLock := false
      dispatch := if success then none else some (.reset .state) }
  | .reset p =>
    { s.reset p with dispatch := some ((p.next.map .reset).getD .complete) }
  | .complete => { s.spbRequestComplete s.current with dispatch := none }

end Controller

/-- What an ISR reads: whether the status register shows an interrupt of this controller and an
error, whether `TA` stays set after `DONE` is acknowledged, and whether the FIFO takes or gives
all that is left of the present phase. -/
structure IsrReadings where
  claimed : Bool
  error : Bool
  taStays : Bool
  finished : Bool

namespace Controller

/-- `HandleInterrupt` past the check of `State`: the state it leaves, and whether it goes on to
queue the DPC. -/
def handleInterrupt (state : TransferState) (errorFlag : Bool) (readings : IsrReadings) :
    TransferState × Bool × Bool :=
  if errorFlag then (state, true, true)
  else if readings.error then (state, true, !readings.taStays)
  else match state with
    | .sending => (if readings.finished then .sendingWaitForDone else .sending, false, false)
    | .receiving => (if readings.finished then .receivingWaitForDone else .receiving, false, false)
    | .sendingSequence =>
      (if readings.finished then .receivingSequence else .sendingSequence, false, false)
    | .receivingSequence =>
      (if readings.finished then .receivingSequenceWaitForDone else .receivingSequence, false,
        false)
    | .sendingWaitForDone | .receivingWaitForDone | .receivingSequenceWaitForDone =>
      (state, false, true)

/-- Programming the read of a sequence writes the interrupt bits again. -/
def programsRead (state : TransferState) (errorFlag : Bool) (readings : IsrReadings) : Bool :=
  !errorFlag && !readings.error && decide (state = .sendingSequence) && readings.finished

/-- The next step of the ISR. -/
def runIsr (s : Controller) (readings : IsrReadings) : IsrStep → Controller
  | .acquire =>
    if s.interruptLock then s else { s with interruptLock := true, isr := some .readState }
  | .readState =>
    { s with
      isr := some (if readings.claimed then
        match s.state with
        | none => .release
        | some (state, errorFlag) => .handle state errorFlag
        else .release) }
  | .handle state errorFlag =>
    let result := handleInterrupt state errorFlag readings
    { s.process s.transferOf with
      state := some (result.1, result.2.1)
      interruptsEnabled := s.interruptsEnabled || programsRead state errorFlag readings
      isr := some (if result.2.2 then .queue else .release) }
  | .queue =>
    { s.process s.transferOf with
      interruptsEnabled := false
      dpcQueued := some s.transferOf
      isr := some .release }
  | .release => { s with interruptLock := false, isr := none }

/-- The DPC `d` goes on as `d'`, or returns. -/
def dpcGoOn (s : Controller) (d : DpcStep) (d' : Option DpcStep) : Controller :=
  { s with dpcs := advance s.dpcs d d'.toList }

/-- The next step of a DPC; `cancelled` tells what `WdfRequestUnmarkCancelable` answers for a
request that is not cancelable, `STATUS_CANCELLED` or another failure. -/
def runDpc (s : Controller) (cancelled : Bool) : DpcStep → Controller
  | .acquire tag =>
    if s.cancelLock then s
    else { s.dpcGoOn (.acquire tag) (some (.read tag)) with cancelLock := true }
  | .read tag =>
    s.dpcGoOn (.read tag) (some (match s.spbRequest with
      | none => .giveUp tag
      | some r => .unmark tag r))
  | .unmark tag r =>
    let s := s.process r
    if r = s.current ∧ s.request = .cancelable then
      { s.dpcGoOn (.unmark tag r) (some (.claim r)) with request := .released }
    else if r = s.current ∧ s.request = .cancelling ∨ cancelled then
      s.dpcGoOn (.unmark tag r) (some (.giveUp tag))
    else s.dpcGoOn (.unmark tag r) (some (.fail tag r))
  | .claim r => { s.dpcGoOn (.claim r) (some (.release r)) with spbRequest := none }
  | .release r => { s.dpcGoOn (.release r) (some (.process r)) with cancelLock := false }
  | .process r => (s.process r).dpcGoOn (.process r) (some (.reset r .state))
  | .reset r p =>
    (s.reset p).dpcGoOn (.reset r p) (some ((p.next.map (.reset r)).getD (.complete r)))
  | .complete r => (s.spbRequestComplete r).dpcGoOn (.complete r) none
  | .giveUp tag => { s.dpcGoOn (.giveUp tag) none with cancelLock := false }
  | .fail tag r => { s.dpcGoOn (.fail tag r) (some (.releaseFailed tag r)) with spbRequest := none }
  | .releaseFailed tag r =>
    { s.dpcGoOn (.releaseFailed tag r) (some (.completeFailed tag r)) with cancelLock := false }
  | .completeFailed tag r => (s.spbRequestComplete r).dpcGoOn (.completeFailed tag r) none

/-- The next step of the cancel callback of request `r`. -/
def runCancel (s : Controller) (r : Nat) : CancelStep → Controller
  | .acquire => if s.cancelLock then s else { s with cancelLock := true, cancel := some (r, .read) }
  | .read =>
    { s with
      cancel := some (r, if s.spbRequest = none then .giveUp else .acquireInterrupt) }
  | .acquireInterrupt =>
    if s.interruptLock then s
    else { s with interruptLock := true, cancel := some (r, .reset .state) }
  | .reset p =>
    { s.reset p with cancel := some (r, (p.next.map .reset).getD .releaseInterrupt) }
  | .releaseInterrupt => { s with interruptLock := false, cancel := some (r, .release) }
  | .release => { s with cancelLock := false, cancel := some (r, .complete) }
  | .complete => { s.spbRequestComplete r with cancel := none }
  | .giveUp => { s with cancelLock := false, cancel := none }

/-- Somebody cancels the request. -/
def cancelRequest (s : Controller) : Controller :=
  match s.request with
  | .unmarked => { s with cancelRequested := true }
  | .cancelable =>
    { s with request := .cancelling, cancel := some (s.current, .acquire) }
  | .cancelling | .released | .completed => s

end Controller

/-- What can happen next. -/
inductive Action
  /-- the framework presents a request, which may be cancelled already -/
  | present (kind : RequestKind) (cancelled : Bool)
  | dispatch (d : DispatchStep) (ok : Bool)
  /-- an interrupt is taken -/
  | interrupt
  | isr (p : IsrStep) (readings : IsrReadings)
  /-- the queued DPC is started -/
  | dpcStart (tag : Nat)
  | dpc (d : DpcStep) (cancelled : Bool)
  | cancelRequest
  | cancel (r : Nat) (p : CancelStep)

namespace Controller

def enabled (s : Controller) : Action → Prop
  | .present _ _ => s.request = .completed ∧ s.dispatch = none
  | .dispatch d _ => s.dispatch = some d
  | .interrupt => s.interruptsEnabled = true ∧ s.isr = none
  | .isr p _ => s.isr = some p
  | .dpcStart tag => s.dpcQueued = some tag
  | .dpc d _ => d ∈ s.dpcs
  | .cancelRequest => True
  | .cancel r p => s.cancel = some (r, p)

instance (s : Controller) (a : Action) : Decidable (s.enabled a) := by
  cases a <;> unfold enabled <;> infer_instance

def effect (s : Controller) : Action → Controller
  | .present kind cancelled =>
    { s with
      current := s.current + 1
      request := .unmarked
      cancelRequested := cancelled
      dispatch := some (.validate kind) }
  | .dispatch d ok => s.runDispatch ok d
  | .interrupt => { s with isr := some .acquire }
  | .isr p readings => s.runIsr readings p
  | .dpcStart tag => { s with dpcQueued := none, dpcs := .acquire tag :: s.dpcs }
  | .dpc d cancelled => s.runDpc cancelled d
  | .cancelRequest => s.cancelRequest
  | .cancel r p => s.runCancel r p

/-- Before the first request. -/
def start : Controller where
  spbRequest := none
  state := none
  interruptsEnabled := false
  cancelLock := false
  interruptLock := false
  current := 0
  request := .completed
  cancelRequested := false
  dispatch := none
  isr := none
  dpcQueued := none
  dpcs := []
  cancel := none
  transferOf := 0
  marked := []
  completed := []
  processings := []

end Controller

/-- The controller as an interleaving of atomic steps. -/
def i2cMachine : Machine Controller Action :=
  .guarded (· = Controller.start) Controller.enabled Controller.effect

/-! ## The property and the condition -/

/-- The dispatch routine has stored the transfer state, and the request is not marked or its
interrupts are not enabled. -/
def DispatchStep.halfSetUp : DispatchStep → Bool
  | .start (.sequence _) | .acquire _ | .waitActive | .acquireInterrupt | .enableEarly
  | .releaseInterrupt | .mark _ | .enable | .release false | .reset .state => true
  | _ => false

/-- The DPC has taken its request over. -/
def DpcStep.claims : DpcStep → Nat
  | .claim _ | .release _ | .process _ | .reset _ _ | .complete _ => 1
  | _ => 0

/-- The request whose interrupt queued the DPC. -/
def DpcStep.tag : DpcStep → Nat
  | .acquire tag | .read tag | .unmark tag _ | .giveUp tag | .fail tag _ | .releaseFailed tag _
  | .completeFailed tag _ => tag
  | .claim r | .release r | .process r | .reset r _ | .complete r => r

namespace Controller

/-- A DPC of the request is queued or under way. -/
def Tagged (s : Controller) (r : Nat) : Prop :=
  s.dpcQueued = some r ∨ ∃ d ∈ s.dpcs, d.tag = r

/-- Somebody will complete the current request: its dispatch routine, the interrupts and the DPC
while it is cancelable, its cancel callback, or a DPC that has taken it over. -/
inductive Owned (s : Controller) : Prop
  | dispatch (h : s.request = .unmarked ∧ s.dispatch ≠ none)
  | interrupts (h : s.request = .cancelable ∧ s.spbRequest = some s.current ∧ s.state ≠ none)
      (hway : s.dispatch = some .enable ∨ s.interruptsEnabled = true ∨ s.Tagged s.current)
  | cancel (h : s.request = .cancelling ∧ ∃ p, s.cancel = some (s.current, p) ∧ p ≠ .giveUp)
  | dpc (h : s.request = .released ∧ ∃ d ∈ s.dpcs, d.claims = 1 ∧ d.tag = s.current)

end Controller

/-- Every request is completed exactly once, and worked on only in between. -/
structure OwnershipSound (s : Controller) : Prop where
  atMostOnce : s.completed.Nodup
  owned : ∀ r, 1 ≤ r → r ≤ s.current → r ∈ s.completed ∨ r = s.current ∧ s.Owned
  /-- Whatever an ISR or a DPC worked on was marked cancelable before, and not completed. -/
  processings : ∀ p ∈ s.processings, p = (true, false)

/-- The ISR does not find a request that is half set up, and the DPC finds no request but the one
whose interrupt queued it. -/
def Undisturbed (s : Controller) : Action → Prop
  | .isr .readState readings =>
    readings.claimed = true → s.dispatch.elim false DispatchStep.halfSetUp = false
  | .dpc (.read tag) _ => s.spbRequest = none ∨ s.spbRequest = some tag
  | _ => True

/-! ## The invariant -/

/-- The dispatch routine has marked the request. -/
def DispatchStep.isMarked : DispatchStep → Bool
  | .enable | .release true => true
  | _ => false

/-- The dispatch routine holds `CancelLock`. -/
def DispatchStep.holds : DispatchStep → Nat
  | .waitActive | .acquireInterrupt | .enableEarly | .releaseInterrupt | .mark _ | .enable
  | .release _ => 1
  | _ => 0

/-- The dispatch routine holds the interrupt lock. -/
def DispatchStep.holdsInterrupt : DispatchStep → Nat
  | .enableEarly | .releaseInterrupt => 1
  | _ => 0

def IsrStep.holdsInterrupt : IsrStep → Nat
  | .acquire => 0
  | _ => 1

/-- The ISR works on a request. -/
def IsrStep.works : IsrStep → Bool
  | .handle _ _ | .queue => true
  | _ => false

def DpcStep.holds : DpcStep → Nat
  | .read _ | .unmark _ _ | .claim _ | .release _ | .giveUp _ | .fail _ _ | .releaseFailed _ _ => 1
  | _ => 0

/-- The DPC is about to clear `SpbRequest`. -/
def DpcStep.atClaim : DpcStep → Nat
  | .claim _ => 1
  | _ => 0

/-- The DPC has taken its request over, and not cleared `State` yet. -/
def DpcStep.keepsState : DpcStep → Nat
  | .claim _ | .release _ | .process _ | .reset _ .state => 1
  | _ => 0

theorem DpcStep.keepsState_le (d : DpcStep) : d.keepsState ≤ d.claims := by
  rcases d with _ | _ | _ | _ | _ | _ | ⟨_, p⟩ | _ | _ | _ | _ | _
  case reset => cases p <;> simp [keepsState, claims]
  all_goals simp [keepsState, claims]

theorem DpcStep.atClaim_le (d : DpcStep) : d.atClaim ≤ d.claims := by
  cases d <;> simp [atClaim, claims]

def CancelStep.holds : CancelStep → Nat
  | .acquire | .complete => 0
  | _ => 1

def CancelStep.holdsInterrupt : CancelStep → Nat
  | .reset _ | .releaseInterrupt => 1
  | _ => 0

/-- The cancel callback has not got the interrupt lock yet. -/
def CancelStep.waits : CancelStep → Bool
  | .acquire | .read | .acquireInterrupt => true
  | _ => false

/-- The cancel callback has cleared `SpbRequest`. -/
def CancelStep.late : CancelStep → Bool
  | .reset .control | .releaseInterrupt | .release | .complete => true
  | _ => false

/-- The request is in the hands of the interrupts or of its cancel callback. -/
def RequestState.isPending (request : RequestState) : Prop :=
  request = .cancelable ∨ request = .cancelling

/-- The interrupt context belongs to the current request. -/
structure IsLoaded (spbRequest : Option Nat) (state : Option (TransferState × Bool))
    (transferOf current : Nat) : Prop where
  spbRequest : spbRequest = some current
  state : state ≠ none
  transferOf : transferOf = current

abbrev Controller.Loaded (s : Controller) : Prop :=
  IsLoaded s.spbRequest s.state s.transferOf s.current

/-- What `SpbRequest` holds where the context is not loaded. -/
def DispatchStep.spbRequest (current : Nat) : DispatchStep → Option Nat
  | .setState _ | .reset .request => some current
  | _ => none

/-- The one byte sequence has enabled the interrupts. -/
def DispatchStep.enabledEarly : DispatchStep → Bool
  | .releaseInterrupt | .mark (.sequence true) => true
  | _ => false

theorem DispatchStep.halfSetUp_of_enabledEarly {d : DispatchStep} (h : d.enabledEarly = true) :
    d.halfSetUp = true := by
  cases d <;> first | rfl | cases h

/-- What the dispatch routine relies on. -/
structure DispatchOk (request : RequestState) (loaded : Prop) (spbRequest : Option Nat)
    (current : Nat) (interruptsEnabled : Bool) (d : DispatchStep) : Prop where
  request : if d.isMarked then request.isPending else request = .unmarked
  loaded : d.halfSetUp = true → loaded
  spbRequest : d.halfSetUp = false → d.isMarked = false → spbRequest = d.spbRequest current
  enabledEarly : d.enabledEarly = true → interruptsEnabled = true

/-- What the cancel callback of request `r` relies on. -/
structure CancelOk (current : Nat) (request : RequestState) (dispatch : Option DispatchStep)
    (loaded : Prop) (spbRequest : Option Nat) (r : Nat) (p : CancelStep) : Prop where
  current : r = current
  request : request = .cancelling
  notGiveUp : p ≠ .giveUp
  dispatch : p ≠ .acquire → dispatch = none
  early : p.waits = true ∨ p = .reset .state → loaded
  late : p.late = true → spbRequest = none

/-- What the DPC relies on. -/
def DpcOk (current : Nat) (request : RequestState) (cancel : Option (Nat × CancelStep)) :
    DpcStep → Prop
  | .acquire _ | .read _ => True
  | .unmark tag r =>
    tag = r ∧ r = current ∧ request.isPending ∧ ∀ c, cancel = some c → c.2 = .acquire
  | .claim r | .release r | .process r | .reset r _ | .complete r => r = current
  | .giveUp tag => tag = current → request ≠ .unmarked ∧ request ≠ .cancelable
  | .fail _ _ | .releaseFailed _ _ | .completeFailed _ _ => False

/-- What an ISR that works on a request relies on. -/
structure Working (request : RequestState) (half : Bool) (loaded : Prop)
    (cancel : Option (Nat × CancelStep)) : Prop where
  pending : request.isPending
  half : half = false
  loaded : loaded
  cancel : ∀ c, cancel = some c → c.2.waits = true

namespace Controller

def half (s : Controller) : Bool := s.dispatch.elim false DispatchStep.halfSetUp

/-- The invariant of the runs. -/
structure Inv (s : Controller) : Prop where
  cancelLock : s.cancelLock.toNat = s.dispatch.elim 0 DispatchStep.holds +
    total DpcStep.holds s.dpcs + s.cancel.elim 0 fun c => c.2.holds
  interruptLock : s.interruptLock.toNat = s.dispatch.elim 0 DispatchStep.holdsInterrupt +
    s.isr.elim 0 IsrStep.holdsInterrupt + s.cancel.elim 0 fun c => c.2.holdsInterrupt
  dispatch : ∀ d, s.dispatch = some d →
    DispatchOk s.request s.Loaded s.spbRequest s.current s.interruptsEnabled d
  dispatchSome : s.request = .unmarked → s.dispatch ≠ none
  cancel : ∀ r p, s.cancel = some (r, p) →
    CancelOk s.current s.request s.dispatch s.Loaded s.spbRequest r p
  cancelSome : s.request = .cancelling → s.cancel ≠ none
  cancelable : s.request = .cancelable → s.Loaded
  way : s.request = .cancelable →
    s.dispatch = some .enable ∨ s.interruptsEnabled = true ∨ s.Tagged s.current
  claims : total DpcStep.claims s.dpcs = if s.request = .released then 1 else 0
  dpc : ∀ d ∈ s.dpcs, DpcOk s.current s.request s.cancel d
  tags : ∀ r, s.Tagged r → r ≤ s.current
  tagged : s.Tagged s.current → s.interruptsEnabled = false ∧
    (∀ p, s.isr = some p → p = .release) ∧ s.request ≠ .unmarked ∧ s.half = false
  isr : ∀ p, s.isr = some p → p.works = true →
    Working s.request s.half s.Loaded s.cancel
  state : s.state ≠ none → s.half = true ∨ s.request = .cancelable ∨
    (∃ c, s.cancel = some c ∧ (c.2.waits = true ∨ c.2 = .reset .state)) ∨
      1 ≤ total DpcStep.keepsState s.dpcs
  spbRequest : ∀ r, s.spbRequest = some r → r = s.current ∧ s.request ≠ .completed ∧
    (s.request = .released → 1 ≤ total DpcStep.atClaim s.dpcs)
  nodup : s.completed.Nodup
  completed : ∀ r ∈ s.completed, r ≤ s.current ∧ (r = s.current → s.request = .completed)
  earlier : ∀ r, 1 ≤ r → r ≤ s.current → r ∈ s.completed ∨ r = s.current ∧ s.request ≠ .completed
  marked : s.request = .cancelable ∨ s.request = .cancelling ∨ s.request = .released →
    s.current ∈ s.marked
  processings : ∀ p ∈ s.processings, p = (true, false)

variable {s : Controller}

theorem inv_start : start.Inv where
  cancelLock := rfl
  interruptLock := rfl
  dispatch _ hd := by cases hd
  dispatchSome hr := by cases hr
  cancel _ _ hp := by cases hp
  cancelSome hr := by cases hr
  cancelable hr := by cases hr
  way hr := by cases hr
  claims := rfl
  dpc _ hd := by cases hd
  tags r h := by rcases h with h | ⟨d, hd, -⟩ <;> [cases h; cases hd]
  tagged h := by rcases h with h | ⟨d, hd, -⟩ <;> [cases h; cases hd]
  isr _ hp := by cases hp
  state h := absurd rfl h
  spbRequest _ hr := by cases hr
  nodup := List.nodup_nil
  completed _ hr := by cases hr
  earlier r hr hle := absurd (Nat.le_trans hr hle) (Nat.not_succ_le_zero 0)
  marked hr := by rcases hr with hr | hr | hr <;> cases hr
  processings _ hp := by cases hp

/-- A DPC that keeps the transfer state has taken the request over. -/
theorem Inv.released_of_keepsState (h : s.Inv) (hk : 1 ≤ total DpcStep.keepsState s.dpcs) :
    s.request = .released := by
  have hle := total_le_total DpcStep.keepsState_le s.dpcs
  have hclaims := h.claims
  by_contra hreq
  rw [if_neg hreq] at hclaims
  omega

/-! ### The dispatch routine -/

/-- No DPC of a request that is not marked. -/
theorem Inv.not_tagged (h : s.Inv) (hreq : s.request = .unmarked) : ¬s.Tagged s.current :=
  fun ht => (h.tagged ht).2.2.1 hreq

/-- The dispatch routine goes on before the mark, or after it has failed. -/
theorem Inv.prepare (h : s.Inv) (hreq : s.request = .unmarked) {d d' : DispatchStep}
    {spbRequest : Option Nat} {state : Option (TransferState × Bool)}
    {ints cancelLock interruptLock : Bool} {transferOf : Nat} (hd : s.dispatch = some d)
    (hlock : cancelLock.toNat + d.holds = s.cancelLock.toNat + d'.holds)
    (hint : interruptLock.toNat + d.holdsInterrupt = s.interruptLock.toNat + d'.holdsInterrupt)
    (hmarked : d'.isMarked = false)
    (hhalf : d'.halfSetUp = true →
      spbRequest = some s.current ∧ state ≠ none ∧ transferOf = s.current)
    (hnot : d'.halfSetUp = false → spbRequest = d'.spbRequest s.current ∧ state = none)
    (hearly : d'.enabledEarly = true → ints = true) :
    { s with
      spbRequest := spbRequest
      state := state
      interruptsEnabled := ints
      cancelLock := cancelLock
      interruptLock := interruptLock
      transferOf := transferOf
      dispatch := some d' }.Inv := by
  have hnotTagged := h.not_tagged hreq
  have hcancel : s.cancel = none := by
    rcases hc : s.cancel with _ | ⟨r, p⟩
    · rfl
    · cases hreq.symm.trans (h.cancel r p hc).request
  exact { h with
    cancelLock := by
      have := h.cancelLock
      rw [hd] at this
      simp only [Option.elim_some] at this ⊢
      omega
    interruptLock := by
      have := h.interruptLock
      rw [hd] at this
      simp only [Option.elim_some] at this ⊢
      omega
    dispatch := by
      intro e he
      obtain rfl := Option.some.inj he
      exact ⟨by rw [hmarked]; exact hreq,
        fun hh => ⟨(hhalf hh).1, (hhalf hh).2.1, (hhalf hh).2.2⟩, fun hh _ => (hnot hh).1, hearly⟩
    dispatchSome := fun _ => by simp
    cancel := by
      intro r p hp
      cases hcancel.symm.trans hp
    cancelable := fun hc => by cases hreq.symm.trans hc
    way := fun hc => by cases hreq.symm.trans hc
    tagged := fun ht => absurd ht hnotTagged
    isr := by
      intro p hp hw
      rcases (h.isr p hp hw).pending with hc | hc <;> cases hreq.symm.trans hc
    state := by
      intro hs
      refine .inl ?_
      rcases hh : d'.halfSetUp with _ | _
      · exact absurd (hnot hh).2 hs
      · exact hh
    spbRequest := by
      intro r hr
      -- only the current request is ever stored
      have hcurrent : r = s.current := by
        rcases hh : d'.halfSetUp with _ | _
        · have hspb := (hnot hh).1.symm.trans hr
          cases d' with
          | setState kind => exact (Option.some.inj hspb).symm
          | reset p => cases p <;> first | exact (Option.some.inj hspb).symm | cases hspb
          | _ => cases hspb
        · exact Option.some.inj (hr.symm.trans (hhalf hh).1)
      exact ⟨hcurrent, by simp [hreq], fun hr => by cases hreq.symm.trans hr⟩ }

/-- Nobody works on a request that is not marked, or whose interrupts are not enabled. -/
theorem Inv.not_works (h : s.Inv) (hs : s.request = .unmarked ∨ s.half = true) {p : IsrStep}
    (hp : s.isr = some p) : p.works = false := by
  rcases hw : p.works with _ | _
  · rfl
  · obtain ⟨hpending, hhalf, -, -⟩ := h.isr p hp hw
    rcases hs with hs | hs
    · rcases hpending with hc | hc <;> cases hs.symm.trans hc
    · cases hs.symm.trans hhalf

/-- The request of a dispatch routine before the mark has no cancel callback. -/
theorem Inv.cancel_none (h : s.Inv) (hreq : s.request ≠ .cancelling) : s.cancel = none := by
  rcases hc : s.cancel with _ | ⟨r, p⟩
  · rfl
  · exact absurd (h.cancel r p hc).request hreq

/-- The framework marks the request, and the dispatch routine goes on. -/
theorem Inv.markCancelable (h : s.Inv) (hreq : s.request = .unmarked) (hloaded : s.Loaded)
    {d d' : DispatchStep} (hd : s.dispatch = some d) (hlock : d.holds = d'.holds)
    (hint : d.holdsInterrupt = d'.holdsInterrupt) (hmarked : d'.isMarked = true)
    (hway : d' = .enable ∨ s.interruptsEnabled = true) :
    { s with
      request := .cancelable
      marked := s.marked ++ [s.current]
      dispatch := some d' }.Inv := by
  have hearly : d'.enabledEarly = false := by
    cases d' <;> first | rfl | cases hmarked
  have hcancel := h.cancel_none (by simp [hreq])
  exact { h with
    cancelLock := by
      have := h.cancelLock
      rw [hd] at this
      rw [this, Option.elim_some, Option.elim_some, hlock]
    interruptLock := by
      have := h.interruptLock
      rw [hd] at this
      rw [this, Option.elim_some, Option.elim_some, hint]
    dispatch := by
      intro e he
      obtain rfl := Option.some.inj he
      refine ⟨by rw [hmarked]; exact .inl rfl, fun _ => hloaded, fun _ hh => ?_, fun hh => ?_⟩
      · cases hmarked.symm.trans hh
      · cases hearly.symm.trans hh
    dispatchSome := fun hc => by cases hc
    cancel := fun r p hp => by cases hcancel.symm.trans hp
    cancelSome := fun hc => by cases hc
    cancelable := fun _ => hloaded
    way := fun _ => hway.imp (congrArg some) .inl
    claims := by
      have := h.claims
      rwa [hreq] at this
    dpc := by
      intro e he
      have hok := h.dpc e he
      cases e with
      | unmark tag r => rcases hok.2.2.1 with hc | hc <;> cases hreq.symm.trans hc
      | giveUp tag => exact fun htag => absurd hreq (hok htag).1
      | _ => exact hok
    tagged := fun ht => absurd ht (h.not_tagged hreq)
    isr := by
      intro p hp hw
      cases (h.not_works (.inl hreq) hp).symm.trans hw
    state := fun _ => .inr (.inl rfl)
    spbRequest := by
      intro r hr
      exact ⟨(h.spbRequest r hr).1, by simp, fun hc => by cases hc⟩
    completed := by
      intro r hr
      obtain ⟨hle, hcompleted⟩ := h.completed r hr
      exact ⟨hle, fun heq => by cases hreq.symm.trans (hcompleted heq)⟩
    earlier := by
      intro r hr hle
      exact (h.earlier r hr hle).imp_right fun hc => ⟨hc.1, by simp⟩
    marked := fun _ => List.mem_append_right _ (List.mem_singleton_self _) }

/-- `WdfRequestMarkCancelableEx` -/
theorem Inv.mark (h : s.Inv) {kind : RequestKind} (hd : s.dispatch = some (.mark kind))
    (ok : Bool) : (s.runDispatch ok (.mark kind)).Inv := by
  have hok := h.dispatch _ hd
  have hreq : s.request = .unmarked := hok.request
  have hloaded := hok.loaded rfl
  rw [runDispatch]
  split_ifs with hcancelled hone
  · exact h.prepare hreq hd rfl rfl rfl (fun _ => ⟨hloaded.1, hloaded.2, hloaded.3⟩)
      (fun hh => by cases hh) (fun hh => by cases hh)
  · subst hone
    exact h.markCancelable hreq hloaded hd rfl rfl rfl (.inr (hok.enabledEarly rfl))
  · exact h.markCancelable hreq hloaded hd rfl rfl rfl (.inl rfl)

/-- The dispatch routine enables the interrupts of the marked request. -/
theorem Inv.enable (h : s.Inv) (hd : s.dispatch = some .enable) (ok : Bool) :
    (s.runDispatch ok .enable).Inv := by
  have hok := h.dispatch _ hd
  have hpending : s.request.isPending := hok.request
  have hhalf : s.half = true := by rw [half, hd]; rfl
  have hnot : ¬s.Tagged s.current := fun ht => by cases hhalf.symm.trans (h.tagged ht).2.2.2
  exact { h with
    cancelLock := by
      have := h.cancelLock
      rwa [hd] at this
    interruptLock := by
      have := h.interruptLock
      rwa [hd] at this
    dispatch := by
      intro e he
      obtain rfl := Option.some.inj he
      exact ⟨hpending, fun hh => (by cases hh), fun _ hh => (by cases hh), fun hh => (by cases hh)⟩
    dispatchSome := fun _ hc => by cases hc
    cancel := by
      intro r p hp
      have hc := h.cancel r p hp
      exact { hc with dispatch := fun hne => by cases hd.symm.trans (hc.dispatch hne) }
    way := fun _ => .inr (.inl rfl)
    tagged := fun ht => absurd ht hnot
    isr := by
      intro p hp hw
      cases (h.not_works (.inr hhalf) hp).symm.trans hw
    state := by
      intro _
      rcases hpending with hc | hc
      · exact .inr (.inl hc)
      · obtain ⟨⟨r, p⟩, hp⟩ := Option.ne_none_iff_exists'.1 (h.cancelSome hc)
        have hacquire : p = .acquire := by
          by_contra hne
          cases hd.symm.trans ((h.cancel r p hp).dispatch hne)
        exact .inr (.inr (.inl ⟨_, hp, .inl (by rw [hacquire]; rfl)⟩)) }

/-- The dispatch routine is done with the marked request. -/
theorem Inv.releaseMarked (h : s.Inv) (hd : s.dispatch = some (.release true)) (ok : Bool) :
    (s.runDispatch ok (.release true)).Inv := by
  have hok := h.dispatch _ hd
  have hpending : s.request.isPending := hok.request
  have hhalf : s.half = false := by rw [half, hd]; rfl
  exact { h with
    cancelLock := by
      have hlock := h.cancelLock
      have hle := Bool.toNat_le s.cancelLock
      rw [hd] at hlock
      simp only [Option.elim_some, DispatchStep.holds] at hlock
      show 0 = 0 + total DpcStep.holds s.dpcs + s.cancel.elim 0 fun c => c.2.holds
      omega
    interruptLock := by
      have := h.interruptLock
      rwa [hd] at this
    dispatch := fun _ he => by cases he
    dispatchSome := fun hr => by rcases hpending with hc | hc <;> cases hr.symm.trans hc
    cancel := fun r p hp => { h.cancel r p hp with dispatch := fun _ => rfl }
    way := fun hc => .inr ((h.way hc).resolve_left fun hn => by cases hd.symm.trans hn)
    tagged := fun ht => ⟨(h.tagged ht).1, (h.tagged ht).2.1, (h.tagged ht).2.2.1, rfl⟩
    isr := by
      intro p hp hw
      exact { h.isr p hp hw with half := rfl }
    state := fun hs => .inr ((h.state hs).resolve_left fun hh => by cases hhalf.symm.trans hh) }

/-- What is true of the log once the current request is completed. -/
theorem Inv.completed_append (h : s.Inv) (hreq : s.request ≠ .completed) :
    (s.completed ++ [s.current]).Nodup ∧
      (∀ r ∈ s.completed ++ [s.current], r ≤ s.current) ∧
        ∀ r, 1 ≤ r → r ≤ s.current → r ∈ s.completed ++ [s.current] := by
  have hfresh : s.current ∉ s.completed := fun hr => hreq ((h.completed _ hr).2 rfl)
  refine ⟨List.nodup_append.2 ⟨h.nodup, List.nodup_singleton _, ?_⟩, fun r hr => ?_,
    fun r hr hle => ?_⟩
  · rintro a ha b hb rfl
    exact hfresh (List.mem_singleton.1 hb ▸ ha)
  · rcases List.mem_append.1 hr with hr | hr
    · exact (h.completed r hr).1
    · exact (List.mem_singleton.1 hr).le
  · rcases h.earlier r hr hle with hc | ⟨rfl, -⟩
    · exact List.mem_append_left _ hc
    · exact List.mem_append_right _ (List.mem_singleton_self _)

/-- The dispatch routine completes a request that it could not start. -/
theorem Inv.completeFailed (h : s.Inv) (hd : s.dispatch = some .complete) (ok : Bool) :
    (s.runDispatch ok .complete).Inv := by
  have hok := h.dispatch _ hd
  have hreq : s.request = .unmarked := hok.request
  have hspb : s.spbRequest = none := hok.spbRequest rfl rfl
  have hcancel := h.cancel_none (by simp [hreq])
  -- it has not been completed before
  obtain ⟨hnodup, hle, hall⟩ := h.completed_append (by simp [hreq])
  have hrun : s.runDispatch ok .complete = { s with
      request := .completed
      completed := s.completed ++ [s.current]
      dispatch := none } := by
    rw [runDispatch, spbRequestComplete, if_pos rfl]
  rw [hrun]
  exact { h with
    cancelLock := by
      have := h.cancelLock
      rwa [hd] at this
    interruptLock := by
      have := h.interruptLock
      rwa [hd] at this
    dispatch := fun _ he => by cases he
    dispatchSome := fun hr => by cases hr
    cancel := fun r p hp => by cases hcancel.symm.trans hp
    cancelSome := fun hr => by cases hr
    cancelable := fun hr => by cases hr
    way := fun hr => by cases hr
    claims := by
      have := h.claims
      rwa [hreq] at this
    dpc := by
      intro e he
      have hok := h.dpc e he
      cases e with
      | unmark tag r => rcases hok.2.2.1 with hc | hc <;> cases hreq.symm.trans hc
      | giveUp tag => exact fun htag => absurd hreq (hok htag).1
      | _ => exact hok
    tagged := fun ht => absurd ht (h.not_tagged hreq)
    isr := by
      intro p hp hw
      cases (h.not_works (.inl hreq) hp).symm.trans hw
    state := by
      intro hs
      rcases h.state hs with hc | hc | ⟨c, hc, -⟩ | hc
      · rw [half, hd] at hc
        cases hc
      · cases hreq.symm.trans hc
      · cases hcancel.symm.trans hc
      · cases hreq.symm.trans (h.released_of_keepsState hc)
    spbRequest := fun r hr => by cases hspb.symm.trans hr
    nodup := hnodup
    completed := fun r hr => ⟨hle r hr, fun _ => rfl⟩
    earlier := fun r hr hr' => .inl (hall r hr hr')
    marked := fun hr => by rcases hr with hr | hr | hr <;> cases hr }

/-- Where the context is not loaded, there is no transfer state. -/
theorem Inv.state_none (h : s.Inv) (hreq : s.request = .unmarked) {d : DispatchStep}
    (hd : s.dispatch = some d) (hhalf : d.halfSetUp = false) : s.state = none := by
  have hcancel := h.cancel_none (by simp [hreq])
  by_contra hs
  rcases h.state hs with hc | hc | ⟨c, hc, -⟩ | hc
  · rw [half, hd] at hc
    cases hhalf.symm.trans hc
  · cases hreq.symm.trans hc
  · cases hcancel.symm.trans hc
  · cases hreq.symm.trans (h.released_of_keepsState hc)

/-- A step between two places where the context is not loaded. -/
theorem Inv.prepareNone (h : s.Inv) (hreq : s.request = .unmarked) {d d' : DispatchStep}
    {ints : Bool} (hd : s.dispatch = some d) (hhalf : d.halfSetUp = false)
    (hhalf' : d'.halfSetUp = false) (hlock : d.holds = d'.holds)
    (hint : d.holdsInterrupt = d'.holdsInterrupt) (hmarked : d'.isMarked = false)
    (hspb : s.spbRequest = d'.spbRequest s.current) (hearly : d'.enabledEarly = false) :
    { s with interruptsEnabled := ints, dispatch := some d' }.Inv :=
  h.prepare hreq hd (by rw [hlock]) (by rw [hint]) hmarked
    (fun hh => by cases hhalf'.symm.trans hh)
    (fun _ => ⟨hspb, h.state_none hreq hd hhalf⟩) (fun hh => by cases hearly.symm.trans hh)

/-- A step between two places where the context is loaded. -/
theorem Inv.prepareLoaded (h : s.Inv) (hreq : s.request = .unmarked) {d d' : DispatchStep}
    {ints cancelLock interruptLock : Bool} (hd : s.dispatch = some d) (hloaded : s.Loaded)
    (hhalf' : d'.halfSetUp = true)
    (hlock : cancelLock.toNat + d.holds = s.cancelLock.toNat + d'.holds)
    (hint : interruptLock.toNat + d.holdsInterrupt = s.interruptLock.toNat + d'.holdsInterrupt)
    (hmarked : d'.isMarked = false) (hearly : d'.enabledEarly = true → ints = true) :
    { s with
      interruptsEnabled := ints
      cancelLock := cancelLock
      interruptLock := interruptLock
      dispatch := some d' }.Inv :=
  h.prepare hreq hd hlock hint hmarked (fun _ => ⟨hloaded.1, hloaded.2, hloaded.3⟩)
    (fun hh => by cases hhalf'.symm.trans hh) hearly

theorem Inv.acquire (h : s.Inv) {kind : RequestKind} (hd : s.dispatch = some (.acquire kind))
    (ok : Bool) : (s.runDispatch ok (.acquire kind)).Inv := by
  have hok := h.dispatch _ hd
  rw [runDispatch]
  split_ifs with hlock hone
  · exact h
  · exact h.prepareLoaded hok.request hd (hok.loaded rfl) rfl
      (by rw [Bool.eq_false_iff.2 hlock]; rfl) rfl rfl (fun hh => by cases hh)
  · have hearly : (DispatchStep.mark kind).enabledEarly = false := by
      cases kind with
      | sequence oneByte => cases oneByte <;> [rfl; exact absurd rfl hone]
      | _ => rfl
    exact h.prepareLoaded hok.request hd (hok.loaded rfl) rfl
      (by rw [Bool.eq_false_iff.2 hlock]; rfl) rfl rfl (fun hh => by cases hearly.symm.trans hh)

/-- Who holds `CancelLock` finds it taken. -/
theorem Inv.cancelLock_held (h : s.Inv) {d : DispatchStep} (hd : s.dispatch = some d)
    (hholds : d.holds = 1) : s.cancelLock = true := by
  have hlock := h.cancelLock
  rw [hd, Option.elim_some, hholds] at hlock
  cases hl : s.cancelLock with
  | true => rfl
  | false =>
    rw [hl, Bool.toNat_false] at hlock
    omega

theorem Inv.interruptLock_held (h : s.Inv) {d : DispatchStep} (hd : s.dispatch = some d)
    (hholds : d.holdsInterrupt = 1) : s.interruptLock = true := by
  have hlock := h.interruptLock
  rw [hd, Option.elim_some, hholds] at hlock
  cases hl : s.interruptLock with
  | true => rfl
  | false =>
    rw [hl, Bool.toNat_false] at hlock
    omega

/-- The dispatch routine clears the context of a request that it could not start. -/
theorem Inv.resetFailed (h : s.Inv) {p : ResetStep} (hd : s.dispatch = some (.reset p))
    (ok : Bool) : (s.runDispatch ok (.reset p)).Inv := by
  have hok := h.dispatch _ hd
  have hreq : s.request = .unmarked := by
    cases p <;> exact hok.request
  cases p with
  | state =>
    exact h.prepare hreq hd rfl rfl rfl (fun hh => by cases hh)
      (fun _ => ⟨(hok.loaded rfl).spbRequest, rfl⟩) (fun hh => by cases hh)
  | request =>
    exact h.prepare hreq hd rfl rfl rfl (fun hh => by cases hh)
      (fun _ => ⟨rfl, h.state_none hreq hd rfl⟩) (fun hh => by cases hh)
  | control => exact h.prepareNone hreq hd rfl rfl rfl rfl rfl (hok.spbRequest rfl rfl) rfl

/-- The steps of the dispatch routine. -/
theorem Inv.runDispatch (h : s.Inv) {d : DispatchStep} (hd : s.dispatch = some d) (ok : Bool) :
    (s.runDispatch ok d).Inv := by
  have hok := h.dispatch d hd
  cases d with
  | validate kind =>
    have hspb := hok.spbRequest rfl rfl
    cases ok with
    | false => exact h.prepareNone hok.request hd rfl rfl rfl rfl rfl hspb rfl
    | true => cases kind <;> exact h.prepareNone hok.request hd rfl rfl rfl rfl rfl hspb rfl
  | start kind =>
    cases kind with
    | sequence oneByte =>
      exact h.prepareLoaded hok.request hd (hok.loaded rfl) rfl rfl rfl rfl (fun hh => by cases hh)
    | read => exact h.prepareNone hok.request hd rfl rfl rfl rfl rfl (hok.spbRequest rfl rfl) rfl
    | write allSent =>
      exact h.prepareNone hok.request hd rfl rfl rfl rfl rfl (hok.spbRequest rfl rfl) rfl
  | setRequest kind =>
    exact h.prepare hok.request hd rfl rfl rfl (fun hh => by cases hh)
      (fun _ => ⟨rfl, h.state_none hok.request hd rfl⟩) (fun hh => by cases hh)
  | setState kind =>
    have hspb := hok.spbRequest rfl rfl
    cases kind <;>
      exact h.prepare hok.request hd rfl rfl rfl (fun _ => ⟨hspb, by simp, rfl⟩)
        (fun hh => by cases hh) (fun hh => by cases hh)
  | acquire kind => exact h.acquire hd ok
  | waitActive =>
    cases ok <;>
      exact h.prepareLoaded hok.request hd (hok.loaded rfl) rfl rfl rfl rfl (fun hh => by cases hh)
  | acquireInterrupt =>
    rw [Controller.runDispatch]
    split_ifs with hlock
    · exact h
    · exact h.prepareLoaded hok.request hd (hok.loaded rfl) rfl rfl
        (by rw [Bool.eq_false_iff.2 hlock]; rfl) rfl (fun hh => by cases hh)
  | enableEarly =>
    have hloaded := hok.loaded rfl
    exact h.prepare hok.request hd rfl rfl rfl (fun _ => ⟨hloaded.1, by simp, hloaded.3⟩)
      (fun hh => by cases hh) (fun _ => rfl)
  | releaseInterrupt =>
    exact h.prepareLoaded hok.request hd (hok.loaded rfl) rfl rfl
      (by rw [h.interruptLock_held hd rfl]; rfl) rfl (fun _ => hok.enabledEarly rfl)
  | mark kind => exact h.mark hd ok
  | enable => exact h.enable hd ok
  | release success =>
    cases success with
    | true => exact h.releaseMarked hd ok
    | false =>
      exact h.prepareLoaded hok.request hd (hok.loaded rfl) rfl
        (by rw [h.cancelLock_held hd rfl]; rfl) rfl rfl (fun hh => by cases hh)
  | reset p => exact h.resetFailed hd ok
  | complete => exact h.completeFailed hd ok

/-! ### The ISR -/

/-- The ISR goes on. -/
theorem Inv.isrMove (h : s.Inv) {isr : Option IsrStep} {lock : Bool}
    (hlock : lock.toNat + s.isr.elim 0 IsrStep.holdsInterrupt =
      s.interruptLock.toNat + isr.elim 0 IsrStep.holdsInterrupt)
    (hworks : ∀ p, isr = some p → p.works = true → Working s.request s.half s.Loaded s.cancel)
    (htagged : s.Tagged s.current → ∀ p, isr = some p → p = .release) :
    { s with isr := isr, interruptLock := lock }.Inv :=
  { h with
    interruptLock := by
      have := h.interruptLock
      simp only at this ⊢
      omega
    tagged := fun ht => ⟨(h.tagged ht).1, htagged ht, (h.tagged ht).2.2⟩
    isr := hworks }

/-- An ISR on its way finds no DPC of the request. -/
theorem Inv.not_tagged_of_isr (h : s.Inv) {p : IsrStep} (hp : s.isr = some p)
    (hne : p ≠ .release) : ¬s.Tagged s.current :=
  fun ht => hne ((h.tagged ht).2.1 p hp)

/-- A DPC that has taken its request over is the request's. -/
theorem Inv.tagged_of_released (h : s.Inv) (hreq : s.request = .released) :
    ∃ d ∈ s.dpcs, d.claims = 1 ∧ d.tag = s.current := by
  have hclaims := h.claims
  rw [if_pos hreq] at hclaims
  have hpos : 0 < total DpcStep.claims s.dpcs := by rw [hclaims]; exact Nat.one_pos
  obtain ⟨d, hd, hpos⟩ := exists_of_total_pos hpos
  refine ⟨d, hd, ?_, ?_⟩
  · cases d <;> first | rfl | cases hpos
  · have hok := h.dpc d hd
    cases d <;> first | exact hok | cases hpos

/-- What the ISR finds behind a valid transfer state. -/
theorem Inv.found (h : s.Inv) (hisr : s.isr = some .readState) (hstate : s.state ≠ none)
    (hhalf : s.half = false) : Working s.request s.half s.Loaded s.cancel := by
  rcases h.state hstate with hc | hc | ⟨⟨r, p⟩, hc, hp⟩ | hc
  · cases hhalf.symm.trans hc
  · refine ⟨.inl hc, hhalf, h.cancelable hc, fun c hcancel => ?_⟩
    cases (h.cancel_none (by simp [hc])).symm.trans hcancel
  · have hok := h.cancel r p hc
    refine ⟨.inr hok.request, hhalf, hok.early hp, fun c hcancel => ?_⟩
    obtain rfl := Option.some.inj (hc.symm.trans hcancel)
    rcases hp with hp | hp
    · exact hp
    · -- the cancel callback would hold the interrupt lock too
      have hlock := h.interruptLock
      have hle := Bool.toNat_le s.interruptLock
      change p = _ at hp
      rw [hisr, hc, hp] at hlock
      simp only [Option.elim_some, IsrStep.holdsInterrupt, CancelStep.holdsInterrupt] at hlock
      omega
  · obtain ⟨d, hd, -, htag⟩ := h.tagged_of_released (h.released_of_keepsState hc)
    exact absurd (.inr ⟨d, hd, htag⟩) (h.not_tagged_of_isr hisr (by simp))

theorem Inv.readState (h : s.Inv) (hisr : s.isr = some .readState) (readings : IsrReadings)
    (hok : readings.claimed = true → s.half = false) : (s.runIsr readings .readState).Inv := by
  have hnot := h.not_tagged_of_isr hisr (by simp)
  have hrelease : ({ s with isr := some .release } : Controller).Inv :=
    h.isrMove (by rw [hisr]; rfl) (fun p hp hw => by cases hp; cases hw) fun ht => absurd ht hnot
  by_cases hclaimed : readings.claimed = true
  · rcases hstate : s.state with _ | ⟨state, errorFlag⟩
    · have hrun : s.runIsr readings .readState = { s with isr := some .release } := by
        simp [runIsr, hclaimed, hstate]
      rw [hrun]
      exact hrelease
    · have hrun : s.runIsr readings .readState =
          { s with isr := some (.handle state errorFlag) } := by
        simp [runIsr, hclaimed, hstate]
      rw [hrun]
      exact h.isrMove (by rw [hisr]; rfl)
        (fun _ _ _ => h.found hisr (by simp [hstate]) (hok hclaimed)) fun ht => absurd ht hnot
  · have hrun : s.runIsr readings .readState = { s with isr := some .release } := by
      simp [runIsr, hclaimed]
    rw [hrun]
    exact hrelease

/-- A step of an ISR or DPC on a request that is marked and not completed. -/
theorem Inv.process (h : s.Inv) (hreq : s.request.isPending ∨ s.request = .released) :
    (s.process s.current).Inv := by
  have hmarked : s.current ∈ s.marked := h.marked (or_assoc.1 hreq)
  have hfresh : s.current ∉ s.completed := by
    intro hr
    have := (h.completed _ hr).2 rfl
    rcases hreq with (hc | hc) | hc <;> cases this.symm.trans hc
  exact { h with
    processings := by
      intro p hp
      rcases List.mem_append.1 hp with hp | hp
      · exact h.processings p hp
      · rw [List.mem_singleton.1 hp, decide_eq_true hmarked, decide_eq_false hfresh] }

/-- A pending request has a transfer state to go with. -/
theorem Inv.state_of_working (h : s.Inv)
    (hworking : Working s.request s.half s.Loaded s.cancel) :
    s.half = true ∨ s.request = .cancelable ∨
      (∃ c, s.cancel = some c ∧ (c.2.waits = true ∨ c.2 = .reset .state)) ∨
        1 ≤ total DpcStep.keepsState s.dpcs := by
  rcases hworking.pending with hc | hc
  · exact .inr (.inl hc)
  · obtain ⟨c, hcancel⟩ := Option.ne_none_iff_exists'.1 (h.cancelSome hc)
    exact .inr (.inr (.inl ⟨c, hcancel, .inl (hworking.cancel c hcancel)⟩))

/-- The ISR goes on with the transfer. -/
theorem Inv.handle (h : s.Inv) {state : TransferState} {errorFlag : Bool}
    (hisr : s.isr = some (.handle state errorFlag)) (readings : IsrReadings) :
    (s.runIsr readings (.handle state errorFlag)).Inv := by
  have hworking := h.isr _ hisr rfl
  have hprocess := h.process (.inl hworking.pending)
  rw [runIsr, hworking.loaded.transferOf]
  generalize handleInterrupt state errorFlag readings = result
  have hloaded : IsLoaded s.spbRequest (some (result.1, result.2.1)) s.transferOf s.current :=
    { hworking.loaded with state := by simp }
  exact { hprocess with
    interruptLock := by
      have := h.interruptLock
      rw [hisr] at this
      rw [Option.elim_some] at this ⊢
      split_ifs <;> exact this
    dispatch := by
      intro d hd
      have hok := h.dispatch d hd
      exact { hok with
        loaded := fun _ => hloaded
        enabledEarly := fun he => by simp [hok.enabledEarly he] }
    cancel := fun r p hp => { h.cancel r p hp with early := fun _ => hloaded }
    cancelable := fun _ => hloaded
    way := fun hc => (h.way hc).imp_right (Or.imp_left fun hi => by simp [hi])
    tagged := fun ht => absurd ht (h.not_tagged_of_isr hisr (by simp))
    isr := fun _ _ _ => { hworking with loaded := hloaded }
    state := fun _ => h.state_of_working hworking }

/-- The ISR disables the interrupts and queues the DPC. -/
theorem Inv.queue (h : s.Inv) (hisr : s.isr = some .queue) (readings : IsrReadings) :
    (s.runIsr readings .queue).Inv := by
  have hworking := h.isr _ hisr rfl
  have hprocess := h.process (.inl hworking.pending)
  rw [runIsr, hworking.loaded.transferOf]
  exact { hprocess with
    interruptLock := by
      have := h.interruptLock
      rwa [hisr] at this
    dispatch := by
      intro d hd
      have hhalf := hworking.half
      rw [half, show s.dispatch = some d from hd] at hhalf
      exact { h.dispatch d hd with
        enabledEarly := fun he => by
          cases (DispatchStep.halfSetUp_of_enabledEarly he).symm.trans hhalf }
    way := fun _ => .inr (.inr (.inl rfl))
    tags := by
      rintro r (hr | hr)
      · exact (Option.some.inj hr).ge
      · exact h.tags r (.inr hr)
    tagged := by
      refine fun _ => ⟨rfl, fun p hp => (Option.some.inj hp).symm, fun hc => ?_, hworking.half⟩
      rcases hworking.pending with hp | hp <;> cases hp.symm.trans hc
    isr := fun p hp hw => by cases hp; cases hw }

/-- The steps of the ISR. -/
theorem Inv.runIsr (h : s.Inv) {p : IsrStep} (hisr : s.isr = some p) (readings : IsrReadings)
    (hok : p = .readState → readings.claimed = true → s.half = false) :
    (s.runIsr readings p).Inv := by
  cases p with
  | acquire =>
    rw [Controller.runIsr]
    split_ifs with hlock
    · exact h
    · exact h.isrMove (by rw [hisr, Bool.eq_false_iff.2 hlock]; rfl)
        (fun p hp hw => by cases hp; cases hw)
        fun ht => absurd ht (h.not_tagged_of_isr hisr (by simp))
  | readState => exact h.readState hisr readings (hok rfl)
  | handle state errorFlag => exact h.handle hisr readings
  | queue => exact h.queue hisr readings
  | release =>
    refine h.isrMove ?_ (fun p hp => by cases hp) fun _ p hp => by cases hp
    have hlock := h.interruptLock
    have hle := Bool.toNat_le s.interruptLock
    rw [hisr] at hlock
    simp only [hisr, Option.elim_some, Option.elim_none, IsrStep.holdsInterrupt,
      Bool.toNat_false] at hlock ⊢
    omega

/-! ### The DPC -/

/-- A DPC that goes on is still a DPC of its request. -/
theorem tagged_goOn {d d' : DpcStep} (hd : d ∈ s.dpcs) (htag : d'.tag = d.tag) {r : Nat} :
    (s.dpcGoOn d (some d')).Tagged r ↔ s.Tagged r := by
  refine or_congr_right ⟨?_, ?_⟩
  · rintro ⟨e, he, hr⟩
    rcases mem_advance he with he | he
    · obtain rfl := List.mem_singleton.1 he
      exact ⟨d, hd, htag ▸ hr⟩
    · exact ⟨e, he, hr⟩
  · rintro ⟨e, he, hr⟩
    by_cases heq : e = d
    · exact ⟨d', List.mem_append_left _ (List.mem_singleton_self _), htag.trans (heq ▸ hr)⟩
    · exact ⟨e, mem_advance_of_ne he heq, hr⟩

/-- A DPC goes on, and only the lock knows. -/
theorem Inv.dpcMove (h : s.Inv) {d d' : DpcStep} {lock : Bool} (hd : d ∈ s.dpcs)
    (hlock : lock.toNat + d.holds = s.cancelLock.toNat + d'.holds)
    (hclaims : d'.claims = d.claims) (hclaim : s.spbRequest = none ∨ d'.atClaim = d.atClaim)
    (hkeeps : s.state = none ∨ d'.keepsState = d.keepsState) (htag : d'.tag = d.tag)
    (hok : DpcOk s.current s.request s.cancel d') :
    { s.dpcGoOn d (some d') with cancelLock := lock }.Inv := by
  have htagged : ∀ r, { s.dpcGoOn d (some d') with cancelLock := lock }.Tagged r ↔ s.Tagged r :=
    fun r => tagged_goOn hd htag
  have hsum (f : DpcStep → Nat) (hf : f d' = f d) :
      total f (advance s.dpcs d [d']) = total f s.dpcs := by
    have := sum_advance f hd [d']
    rw [total_cons, total_nil, hf] at this
    omega
  exact { h with
    cancelLock := by
      have hold := h.cancelLock
      have := sum_advance DpcStep.holds hd [d']
      rw [total_cons, total_nil] at this
      show lock.toNat = s.dispatch.elim 0 DispatchStep.holds +
        total DpcStep.holds (advance s.dpcs d [d']) + s.cancel.elim 0 fun c => c.2.holds
      omega
    way := fun hc => (h.way hc).imp_right (Or.imp_right (htagged _).2)
    claims := (hsum _ hclaims).trans h.claims
    dpc := by
      intro e he
      rcases mem_advance he with he | he
      · obtain rfl := List.mem_singleton.1 he
        exact hok
      · exact h.dpc e he
    tags := fun r hr => h.tags r ((htagged r).1 hr)
    tagged := fun hr => h.tagged ((htagged _).1 hr)
    state := by
      show s.state ≠ none → _ ∨ _ ∨ _ ∨ 1 ≤ total _ (advance s.dpcs d [d'])
      rcases hkeeps with hnone | hkeeps
      · exact fun hs => absurd hnone hs
      · rw [hsum _ hkeeps]
        exact h.state
    spbRequest := by
      show ∀ r, s.spbRequest = some r → _ ∧ _ ∧ (_ → 1 ≤ total _ (advance s.dpcs d [d']))
      rcases hclaim with hnone | hclaim
      · exact fun r hr => by cases hnone.symm.trans hr
      · rw [hsum _ hclaim]
        exact h.spbRequest }

/-- Another DPC than the one inside `CancelLock` is outside. -/
theorem Inv.holds_erase (h : s.Inv) {d e : DpcStep} (hd : d ∈ s.dpcs) (hholds : d.holds = 1)
    (he : e ∈ s.dpcs.erase d) : e.holds = 0 := by
  have hlock := h.cancelLock
  have hle := Bool.toNat_le s.cancelLock
  have hsum := sum_advance DpcStep.holds hd []
  have hmem := le_total DpcStep.holds he
  rw [advance, List.nil_append, total_nil] at hsum
  omega

/-- Inside `CancelLock`, a DPC is alone. -/
theorem Inv.alone (h : s.Inv) {d : DpcStep} (hd : d ∈ s.dpcs) (hholds : d.holds = 1) :
    s.dispatch.elim 0 DispatchStep.holds = 0 ∧ (s.cancel.elim 0 fun c => c.2.holds) = 0 := by
  have hlock := h.cancelLock
  have hle := Bool.toNat_le s.cancelLock
  have hmem := le_total DpcStep.holds hd
  omega

/-- A marked request whose lock is not held by its dispatch routine is not dispatched any more. -/
theorem Inv.dispatch_none (h : s.Inv) (hreq : s.request ≠ .unmarked)
    (hfree : s.request.isPending → s.dispatch.elim 0 DispatchStep.holds = 0) :
    s.dispatch = none := by
  rcases hd : s.dispatch with _ | d
  · rfl
  · have hok := (h.dispatch d hd).request
    rcases hm : d.isMarked with _ | _
    · rw [hm] at hok
      exact absurd hok hreq
    · rw [hm] at hok
      have := hfree hok
      rw [hd, Option.elim_some] at this
      cases d with
      | release success => cases this
      | enable => cases this
      | _ => cases hm

/-- What the DPC finds in `SpbRequest`. -/
theorem Inv.read (h : s.Inv) {tag : Nat} (hd : .read tag ∈ s.dpcs)
    (hok : s.spbRequest = none ∨ s.spbRequest = some tag) (cancelled : Bool) :
    (s.runDpc cancelled (.read tag)).Inv := by
  have halone := h.alone hd rfl
  rcases hok with hspb | hspb
  · have hrun : s.runDpc cancelled (.read tag) =
        s.dpcGoOn (.read tag) (some (.giveUp tag)) := by
      rw [runDpc, hspb]
    rw [hrun]
    refine h.dpcMove hd rfl rfl (.inr rfl) (.inr rfl) rfl fun htag => ⟨?_, fun hc => ?_⟩
    · exact (h.tagged (.inr ⟨_, hd, htag⟩)).2.2.1
    · cases hspb.symm.trans (h.cancelable hc).spbRequest
  · have hrun : s.runDpc cancelled (.read tag) =
        s.dpcGoOn (.read tag) (some (.unmark tag tag)) := by
      rw [runDpc, hspb]
    obtain ⟨htag, hne, hclaim⟩ := h.spbRequest tag hspb
    have hunmarked := (h.tagged (.inr ⟨_, hd, htag⟩)).2.2.1
    have hpending : s.request.isPending := by
      cases hreq : s.request with
      | unmarked => exact absurd hreq hunmarked
      | cancelable => exact .inl rfl
      | cancelling => exact .inr rfl
      | completed => exact absurd hreq hne
      | released =>
        -- whoever is about to clear `SpbRequest` would hold the lock too
        obtain ⟨e, he, hpos⟩ := exists_of_total_pos (hclaim hreq)
        cases e with
        | claim r =>
          cases h.holds_erase hd rfl ((List.mem_erase_of_ne (by simp)).2 he)
        | _ => cases hpos
    rw [hrun]
    refine h.dpcMove hd rfl rfl (.inr rfl) (.inr rfl) rfl ⟨rfl, htag, hpending, ?_⟩
    rintro ⟨r, p⟩ hc
    have hlate := (h.cancel r p hc).late
    have hholds := halone.2
    rw [hc] at hholds
    cases p with
    | acquire => rfl
    | complete => cases hspb.symm.trans (hlate rfl)
    | _ => cases hholds

/-- Nobody else has to do with a request that a DPC has taken over. -/
theorem Inv.of_released (h : s.Inv) (hreq : s.request = .released) :
    s.dispatch = none ∧ s.cancel = none ∧ s.interruptsEnabled = false ∧
      ∀ p, s.isr = some p → p.works = false := by
  obtain ⟨d, hd, -, htag⟩ := h.tagged_of_released hreq
  obtain ⟨hints, hisr, -⟩ := h.tagged (.inr ⟨d, hd, htag⟩)
  refine ⟨h.dispatch_none (by simp [hreq]) ?_, h.cancel_none (by simp [hreq]), hints, ?_⟩
  · rintro (hc | hc) <;> cases hreq.symm.trans hc
  · intro p hp
    rw [hisr p hp]
    rfl

/-- The DPC takes the request over. -/
theorem Inv.unmarkCancelable (h : s.Inv) {r : Nat} (hd : .unmark r r ∈ s.dpcs)
    (hreq : s.request = .cancelable) (hr : r = s.current) :
    { s.dpcGoOn (.unmark r r) (some (.claim r)) with request := .released }.Inv := by
  have halone := h.alone hd rfl
  have hdispatch := h.dispatch_none (by simp [hreq]) fun _ => halone.1
  have hcancel := h.cancel_none (by simp [hreq])
  -- the DPC has the tag of the request, so no ISR works for it
  have htagged := h.tagged (.inr ⟨_, hd, hr⟩)
  have hsum (f : DpcStep → Nat) := sum_advance f hd [.claim r]
  simp only [total_cons, total_nil] at hsum
  have hone (f : DpcStep → Nat) : f (.claim r) ≤ total f (advance s.dpcs (.unmark r r) [.claim r]) :=
    Lib.le_total f (List.mem_append_left _ (List.mem_singleton_self _))
  have htags : ∀ r', (s.dpcGoOn (.unmark r r) (some (.claim r))).Tagged r' ↔ s.Tagged r' :=
    fun _ => tagged_goOn hd (rfl : (DpcStep.claim r).tag = _)
  exact { h with
    cancelLock := by
      have hold := h.cancelLock
      have hnew := hsum DpcStep.holds
      rw [show (DpcStep.claim r).holds = (DpcStep.unmark r r).holds from rfl] at hnew
      show s.cancelLock.toNat = s.dispatch.elim 0 DispatchStep.holds +
        total DpcStep.holds (advance s.dpcs _ [.claim r]) + s.cancel.elim 0 fun c => c.2.holds
      omega
    dispatch := fun d hd' => by cases hdispatch.symm.trans hd'
    dispatchSome := fun hc => by cases hc
    cancel := fun r p hp => by cases hcancel.symm.trans hp
    cancelSome := fun hc => by cases hc
    cancelable := fun hc => by cases hc
    way := fun hc => by cases hc
    claims := by
      have hold := h.claims
      have hnew := hsum DpcStep.claims
      rw [hreq] at hold
      show total DpcStep.claims (advance s.dpcs _ [.claim r]) = 1
      simp only [DpcStep.claims, reduceCtorEq, if_false] at hold hnew ⊢
      omega
    dpc := by
      intro e he
      rcases List.mem_append.1 he with he | he
      · obtain rfl := List.mem_singleton.1 he
        exact hr
      · have hok := h.dpc e (List.mem_of_mem_erase he)
        have hout := h.holds_erase hd rfl he
        cases e with
        | unmark tag r => cases hout
        | giveUp tag => cases hout
        | _ => exact hok
    tags := fun r' hr' => h.tags r' ((htags r').1 hr')
    tagged := fun _ => ⟨htagged.1, htagged.2.1, by simp, htagged.2.2.2⟩
    isr := by
      intro p hp hw
      rw [htagged.2.1 p hp] at hw
      cases hw
    state := fun _ => .inr (.inr (.inr (hone DpcStep.keepsState)))
    spbRequest := fun r' hr' =>
      ⟨(h.spbRequest r' hr').1, by simp, fun _ => hone DpcStep.atClaim⟩
    completed := by
      intro r' hr'
      refine ⟨(h.completed r' hr').1, fun heq => ?_⟩
      cases hreq.symm.trans ((h.completed r' hr').2 heq)
    earlier := fun r' hr' hle => (h.earlier r' hr' hle).imp_right fun hc => ⟨hc.1, by simp⟩
    marked := fun _ => h.marked (.inl hreq) }

/-- `WdfRequestUnmarkCancelable` -/
theorem Inv.unmark (h : s.Inv) {tag r : Nat} (hd : .unmark tag r ∈ s.dpcs) (cancelled : Bool) :
    (s.runDpc cancelled (.unmark tag r)).Inv := by
  obtain ⟨rfl, rfl, hpending, -⟩ := h.dpc _ hd
  have hprocess := h.process (.inl hpending)
  rw [runDpc]
  split_ifs with hcancelable hcancelling
  · exact hprocess.unmarkCancelable hd hcancelable.2 rfl
  · refine hprocess.dpcMove hd rfl rfl (.inr rfl) (.inr rfl) rfl fun _ => ⟨fun hc => ?_, fun hc => ?_⟩
    · rcases hpending with hp | hp <;> cases hp.symm.trans hc
    · exact hcancelable ⟨rfl, hc⟩
  · rcases hpending with hp | hp
    · exact absurd ⟨rfl, hp⟩ hcancelable
    · exact absurd (.inl ⟨rfl, hp⟩) hcancelling

/-- A write to what only the owner of the request still looks at. -/
theorem Inv.resetReleased (h : s.Inv) (hreq : s.request = .released) (p : ResetStep) :
    (s.reset p).Inv := by
  obtain ⟨hdispatch, hcancel, hints, hisr⟩ := h.of_released hreq
  have hnot {q : RequestState} {a : Prop} (hc : s.request = q) (hne : q ≠ .released) : a :=
    absurd (hc.symm.trans hreq) hne
  cases p with
  | state =>
    exact { h with
      dispatch := fun d hd => by cases hdispatch.symm.trans hd
      cancel := fun r p hp => by cases hcancel.symm.trans hp
      cancelable := fun hc => hnot hc (by simp)
      isr := fun p hp hw => by cases (hisr p hp).symm.trans hw
      state := fun hs => absurd rfl hs }
  | request =>
    exact { h with
      dispatch := fun d hd => by cases hdispatch.symm.trans hd
      cancel := fun r p hp => by cases hcancel.symm.trans hp
      cancelable := fun hc => hnot hc (by simp)
      isr := fun p hp hw => by cases (hisr p hp).symm.trans hw
      spbRequest := fun r hr => by cases hr }
  | control =>
    exact { h with
      dispatch := fun d hd => by cases hdispatch.symm.trans hd
      way := fun hc => hnot hc (by simp)
      tagged := fun ht => ⟨rfl, (h.tagged ht).2⟩ }

/-- A DPC that has taken its request over. -/
theorem Inv.released_of_claims (h : s.Inv) {d : DpcStep} (hd : d ∈ s.dpcs) (hclaims : d.claims = 1) :
    s.request = .released := by
  have hold := h.claims
  have hle := le_total DpcStep.claims hd
  by_contra hreq
  rw [if_neg hreq] at hold
  omega

theorem Inv.claim (h : s.Inv) {r : Nat} (hd : .claim r ∈ s.dpcs) (cancelled : Bool) :
    (s.runDpc cancelled (.claim r)).Inv :=
  (h.resetReleased (h.released_of_claims hd rfl) .request).dpcMove hd rfl rfl (.inl rfl)
    (.inr rfl) rfl (h.dpc (.claim r) hd)

/-- Inside `CancelLock`, the lock is taken. -/
theorem Inv.cancelLock_dpc (h : s.Inv) {d : DpcStep} (hd : d ∈ s.dpcs) (hholds : d.holds = 1) :
    s.cancelLock = true := by
  have hlock := h.cancelLock
  have hmem := Lib.le_total DpcStep.holds hd
  cases hl : s.cancelLock with
  | true => rfl
  | false =>
    rw [hl, Bool.toNat_false] at hlock
    omega

theorem Inv.resetDpc (h : s.Inv) {r : Nat} {p : ResetStep} (hd : .reset r p ∈ s.dpcs)
    (cancelled : Bool) : (s.runDpc cancelled (.reset r p)).Inv := by
  have hreset := h.resetReleased (h.released_of_claims hd rfl) p
  have hok := h.dpc _ hd
  cases p with
  | state => exact hreset.dpcMove hd rfl rfl (.inr rfl) (.inl rfl) rfl hok
  | request => exact hreset.dpcMove hd rfl rfl (.inl rfl) (.inr rfl) rfl hok
  | control => exact hreset.dpcMove hd rfl rfl (.inr rfl) (.inr rfl) rfl hok

/-- A DPC that has returned is no DPC of a request any more. -/
theorem tagged_of_return {d : DpcStep} {r : Nat} (h : (s.dpcGoOn d none).Tagged r) :
    s.Tagged r :=
  h.imp_right fun ⟨e, he, hr⟩ => ⟨e, (mem_advance he).resolve_left List.not_mem_nil, hr⟩

/-- A DPC returns that has found no request, or one that is being cancelled. -/
theorem Inv.giveUp (h : s.Inv) {tag : Nat} (hd : .giveUp tag ∈ s.dpcs) (cancelled : Bool) :
    (s.runDpc cancelled (.giveUp tag)).Inv := by
  have hdpc := h.dpc _ hd
  have hheld := h.cancelLock_dpc hd rfl
  have hsum (f : DpcStep → Nat) := sum_advance f hd []
  have hsame (f : DpcStep → Nat) (hf : f (.giveUp tag) = 0) :
      total f (advance s.dpcs (.giveUp tag) []) = total f s.dpcs := by
    have := hsum f
    rw [hf, total_nil] at this
    omega
  exact { h with
    cancelLock := by
      have hold := h.cancelLock
      have hnew := hsum DpcStep.holds
      rw [hheld, Bool.toNat_true] at hold
      rw [total_nil, show (DpcStep.giveUp tag).holds = 1 from rfl] at hnew
      show 0 = s.dispatch.elim 0 DispatchStep.holds +
        total DpcStep.holds (advance s.dpcs (.giveUp tag) []) +
          s.cancel.elim 0 fun c => c.2.holds
      omega
    way := by
      intro hc
      refine (h.way hc).imp_right (Or.imp_right (Or.imp_right ?_))
      rintro ⟨e, he, hr⟩
      refine ⟨e, mem_advance_of_ne he ?_, hr⟩
      rintro rfl
      exact (hdpc hr).2 hc
    claims := (hsame _ rfl).trans h.claims
    dpc := fun e he => h.dpc e ((mem_advance he).resolve_left List.not_mem_nil)
    tags := fun r hr => h.tags r (tagged_of_return hr)
    tagged := fun hr => h.tagged (tagged_of_return hr)
    state := by
      show s.state ≠ none → _ ∨ _ ∨ _ ∨ 1 ≤ total _ (advance s.dpcs (.giveUp tag) [])
      rw [hsame _ rfl]
      exact h.state
    spbRequest := by
      show ∀ r, s.spbRequest = some r →
        _ ∧ _ ∧ (_ → 1 ≤ total _ (advance s.dpcs (.giveUp tag) []))
      rw [hsame _ rfl]
      exact h.spbRequest }

/-- The DPC completes its request. -/
theorem Inv.completeDpc (h : s.Inv) {r : Nat} (hd : .complete r ∈ s.dpcs) (cancelled : Bool) :
    (s.runDpc cancelled (.complete r)).Inv := by
  obtain rfl : r = s.current := h.dpc (.complete r) hd
  have hreq := h.released_of_claims hd rfl
  obtain ⟨hdispatch, hcancel, hints, hisr⟩ := h.of_released hreq
  obtain ⟨hnodup, hle, hall⟩ := h.completed_append (by simp [hreq])
  have hsum (f : DpcStep → Nat) := sum_advance f hd []
  have hclaims : total DpcStep.claims (advance s.dpcs (.complete s.current) []) = 0 := by
    have hold := h.claims
    have hnew := hsum DpcStep.claims
    rw [if_pos hreq] at hold
    rw [total_nil, show (DpcStep.complete s.current).claims = 1 from rfl] at hnew
    omega
  -- no other DPC has taken the request over
  have hnone (f : DpcStep → Nat) (hf : ∀ d, f d ≤ d.claims) (hf0 : f (.complete s.current) = 0) :
      total f s.dpcs = 0 := by
    have hnew := hsum f
    have := total_le_total hf (advance s.dpcs (.complete s.current) [])
    rw [total_nil] at hnew
    omega
  have hrun : s.runDpc cancelled (.complete s.current) = { s with
      request := .completed
      completed := s.completed ++ [s.current]
      dpcs := advance s.dpcs (.complete s.current) [] } := by
    rw [runDpc, spbRequestComplete, if_pos rfl]
    rfl
  rw [hrun]
  exact { h with
    cancelLock := by
      have hold := h.cancelLock
      have hnew := hsum DpcStep.holds
      rw [total_nil, show (DpcStep.complete s.current).holds = 0 from rfl] at hnew
      show s.cancelLock.toNat = s.dispatch.elim 0 DispatchStep.holds +
        total DpcStep.holds (advance s.dpcs (.complete s.current) []) +
          s.cancel.elim 0 fun c => c.2.holds
      omega
    dispatch := fun d hd => by cases hdispatch.symm.trans hd
    dispatchSome := fun hc => by cases hc
    cancel := fun r p hp => by cases hcancel.symm.trans hp
    cancelSome := fun hc => by cases hc
    cancelable := fun hc => by cases hc
    way := fun hc => by cases hc
    claims := hclaims
    dpc := by
      intro e he
      have hok := h.dpc e ((mem_advance he).resolve_left List.not_mem_nil)
      cases e with
      | unmark tag r => rcases hok.2.2.1 with hc | hc <;> cases hreq.symm.trans hc
      | giveUp tag => exact fun _ => ⟨by simp, by simp⟩
      | _ => exact hok
    tags := fun r hr => h.tags r (tagged_of_return hr)
    tagged := by
      intro hr
      obtain ⟨h1, h2, -, h4⟩ := h.tagged (tagged_of_return hr)
      exact ⟨h1, h2, by simp, h4⟩
    isr := fun p hp hw => by cases (hisr p hp).symm.trans hw
    state := by
      intro hs
      rcases h.state hs with hc | hc | ⟨c, hc, -⟩ | hc
      · rw [half, hdispatch] at hc
        cases hc
      · cases hreq.symm.trans hc
      · cases hcancel.symm.trans hc
      · rw [hnone _ DpcStep.keepsState_le rfl] at hc
        cases hc
    spbRequest := by
      intro r hr
      have hclaim := (h.spbRequest r hr).2.2 hreq
      rw [hnone _ DpcStep.atClaim_le rfl] at hclaim
      cases hclaim
    nodup := hnodup
    completed := fun r hr => ⟨hle r hr, fun _ => rfl⟩
    earlier := fun r hr hr' => .inl (hall r hr hr')
    marked := fun hr => by rcases hr with hr | hr | hr <;> cases hr }

/-- The steps of a DPC. -/
theorem Inv.runDpc (h : s.Inv) {d : DpcStep} (hd : d ∈ s.dpcs) (cancelled : Bool)
    (hok : ∀ tag, d = .read tag → s.spbRequest = none ∨ s.spbRequest = some tag) :
    (s.runDpc cancelled d).Inv := by
  have hdpc := h.dpc d hd
  cases d with
  | acquire tag =>
    rw [Controller.runDpc]
    split_ifs with hlock
    · exact h
    · exact h.dpcMove hd (by rw [Bool.eq_false_iff.2 hlock]; rfl) rfl (.inr rfl) (.inr rfl) rfl
        trivial
  | read tag => exact h.read hd (hok tag rfl) cancelled
  | unmark tag r => exact h.unmark hd cancelled
  | claim r => exact h.claim hd cancelled
  | release r =>
    exact h.dpcMove hd (by rw [h.cancelLock_dpc hd rfl]; rfl) rfl (.inr rfl) (.inr rfl) rfl hdpc
  | process r =>
    obtain rfl : r = s.current := hdpc
    exact (h.process (.inr (h.released_of_claims hd rfl))).dpcMove hd rfl rfl (.inr rfl) (.inr rfl)
      rfl rfl
  | reset r p => exact h.resetDpc hd cancelled
  | complete r => exact h.completeDpc hd cancelled
  | giveUp tag => exact h.giveUp hd cancelled
  | fail tag r => exact absurd hdpc id
  | releaseFailed tag r => exact absurd hdpc id
  | completeFailed tag r => exact absurd hdpc id

/-! ### The cancel callback -/

/-- The framework calls the cancel callback of a cancelable request. -/
theorem Inv.callCancel (h : s.Inv) (hreq : s.request = .cancelable) :
    { s with request := .cancelling, cancel := some (s.current, .acquire) }.Inv := by
  have hnone := h.cancel_none (by simp [hreq])
  -- a cancelable request is set up, so the callback finds its transfer
  have hloaded := h.cancelable hreq
  exact { h with
    cancelLock := by
      have := h.cancelLock
      rwa [hnone] at this
    interruptLock := by
      have := h.interruptLock
      rwa [hnone] at this
    dispatch := by
      intro d hd
      have hok := h.dispatch d hd
      refine { hok with request := ?_ }
      have hmarked := hok.request
      split_ifs at hmarked ⊢
      · exact .inr rfl
      · cases hreq.symm.trans hmarked
    dispatchSome := fun hc => by cases hc
    cancel := by
      intro r p hp
      cases hp
      exact ⟨rfl, rfl, by simp, fun hne => absurd rfl hne, fun _ => hloaded, fun hl => by cases hl⟩
    cancelSome := fun _ => by simp
    cancelable := fun hc => by cases hc
    way := fun hc => by cases hc
    claims := by
      have := h.claims
      rwa [hreq] at this
    dpc := by
      intro e he
      have hok := h.dpc e he
      cases e with
      | unmark tag r =>
        refine ⟨hok.1, hok.2.1, .inr rfl, fun c hc => ?_⟩
        cases hc
        rfl
      | giveUp tag => exact fun htag => absurd hreq (hok htag).2
      | _ => exact hok
    tagged := fun ht => ⟨(h.tagged ht).1, (h.tagged ht).2.1, by simp, (h.tagged ht).2.2.2⟩
    isr := by
      intro p hp hw
      refine { h.isr p hp hw with pending := .inr rfl, cancel := fun c hc => ?_ }
      cases hc
      rfl
    state := fun _ => .inr (.inr (.inl ⟨_, rfl, .inl rfl⟩))
    spbRequest := fun r hr => ⟨(h.spbRequest r hr).1, by simp, fun hc => by cases hc⟩
    completed := by
      intro r hr
      refine ⟨(h.completed r hr).1, fun heq => ?_⟩
      cases hreq.symm.trans ((h.completed r hr).2 heq)
    earlier := fun r hr hle => (h.earlier r hr hle).imp_right fun hc => ⟨hc.1, by simp⟩
    marked := fun _ => h.marked (.inl hreq) }

theorem Inv.cancelRequest (h : s.Inv) : s.cancelRequest.Inv := by
  rw [Controller.cancelRequest]
  split
  · exact { h with }
  · next hreq => exact h.callCancel hreq
  · exact h
  · exact h
  · exact h

/-- The cancel callback goes on, and gives back some of the context of its request. -/
theorem Inv.cancelMove (h : s.Inv) {r : Nat} {p p' : CancelStep} {spbRequest : Option Nat}
    {state : Option (TransferState × Bool)} {ints cancelLock interruptLock : Bool}
    (hc : s.cancel = some (r, p)) (hdispatch : s.dispatch = none)
    (hdpc : ∀ tag r, .unmark tag r ∉ s.dpcs)
    (hlock : cancelLock.toNat + p.holds = s.cancelLock.toNat + p'.holds)
    (hint : interruptLock.toNat + p.holdsInterrupt = s.interruptLock.toNat + p'.holdsInterrupt)
    (hgiveUp : p' ≠ .giveUp)
    (hearly : p'.waits = true ∨ p' = .reset .state →
      IsLoaded spbRequest state s.transferOf s.current)
    (hlate : p'.late = true → spbRequest = none)
    (hspb : spbRequest = s.spbRequest ∨ spbRequest = none)
    (hstate : state ≠ none → p'.waits = true ∨ p' = .reset .state)
    (hints : ints = s.interruptsEnabled ∨ ints = false)
    (hisr : p'.waits = true ∨ ∀ q, s.isr = some q → q.works = false) :
    { s with
      spbRequest := spbRequest
      state := state
      interruptsEnabled := ints
      cancelLock := cancelLock
      interruptLock := interruptLock
      cancel := some (r, p') }.Inv := by
  have hok := h.cancel r p hc
  have hreq := hok.request
  exact { h with
    cancelLock := by
      have := h.cancelLock
      rw [hc] at this
      simp only [Option.elim_some] at this ⊢
      omega
    interruptLock := by
      have := h.interruptLock
      rw [hc] at this
      simp only [Option.elim_some] at this ⊢
      omega
    dispatch := fun d hd => by cases hdispatch.symm.trans hd
    cancel := by
      intro r' q hq
      cases hq
      exact ⟨hok.current, hreq, hgiveUp, fun _ => hdispatch, hearly, hlate⟩
    cancelSome := fun _ => by simp
    cancelable := fun ha => by cases hreq.symm.trans ha
    way := fun ha => by cases hreq.symm.trans ha
    dpc := by
      intro e he
      have hok := h.dpc e he
      cases e with
      | unmark tag r => exact absurd he (hdpc tag r)
      | _ => exact hok
    tagged := by
      intro ht
      -- interrupts that are off stay off
      obtain ⟨h1, h2⟩ := h.tagged ht
      refine ⟨?_, h2⟩
      rcases hints with rfl | rfl
      · exact h1
      · rfl
    isr := by
      intro q hq hw
      rcases hisr with hwaits | hnot
      · refine { h.isr q hq hw with loaded := hearly (.inl hwaits), cancel := fun c hc => ?_ }
        cases hc
        exact hwaits
      · cases (hnot q hq).symm.trans hw
    state := fun hs => .inr (.inr (.inl ⟨_, rfl, hstate hs⟩))
    spbRequest := by
      intro r' hr'
      rcases hspb with rfl | rfl
      · exact h.spbRequest r' hr'
      · cases hr' }

/-- An ISR without the interrupt lock works on no request. -/
theorem not_works_of_holds (hholds : s.isr.elim 0 IsrStep.holdsInterrupt = 0) (q : IsrStep)
    (hq : s.isr = some q) : q.works = false := by
  rw [hq] at hholds
  cases q <;> first | rfl | cases hholds

/-- The cancel callback inside `CancelLock` finds no DPC there. -/
theorem Inv.not_unmark (h : s.Inv) {r : Nat} {p : CancelStep} (hc : s.cancel = some (r, p))
    (hne : p ≠ .acquire) (tag r' : Nat) : .unmark tag r' ∉ s.dpcs :=
  fun hd => hne ((h.dpc _ hd).2.2.2 _ hc)

/-- While the cancel callback has the interrupt lock, no ISR works. -/
theorem Inv.not_works_of_cancel (h : s.Inv) {r : Nat} {p : CancelStep}
    (hc : s.cancel = some (r, p)) (hholds : p.holdsInterrupt = 1) (q : IsrStep)
    (hq : s.isr = some q) : q.works = false := by
  refine not_works_of_holds ?_ q hq
  have hlock := h.interruptLock
  have hle := Bool.toNat_le s.interruptLock
  rw [hc, Option.elim_some, hholds] at hlock
  omega

theorem Inv.acquireCancel (h : s.Inv) {r : Nat} (hc : s.cancel = some (r, .acquire)) :
    (s.runCancel r .acquire).Inv := by
  have hok := h.cancel r _ hc
  have hloaded := hok.early (.inl rfl)
  rw [runCancel]
  split_ifs with hlock
  · exact h
  · have hfree := h.cancelLock
    rw [Bool.eq_false_iff.2 hlock, Bool.toNat_false] at hfree
    have hdispatch : s.dispatch = none :=
      h.dispatch_none (by simp [hok.request]) fun _ => by omega
    refine h.cancelMove hc hdispatch (fun tag r' hd => ?_)
      (by rw [Bool.eq_false_iff.2 hlock]; rfl) rfl (by simp) (fun _ => hloaded)
      (fun hl => by cases hl) (.inl rfl) (fun _ => .inl rfl) (.inl rfl) (.inl rfl)
    have hmem := Lib.le_total DpcStep.holds hd
    rw [show (DpcStep.unmark tag r').holds = 1 from rfl] at hmem
    omega

theorem Inv.acquireInterruptCancel (h : s.Inv) {r : Nat}
    (hc : s.cancel = some (r, .acquireInterrupt)) : (s.runCancel r .acquireInterrupt).Inv := by
  have hok := h.cancel r _ hc
  have hloaded := hok.early (.inl rfl)
  rw [runCancel]
  split_ifs with hlock
  · exact h
  · have hfree := h.interruptLock
    rw [Bool.eq_false_iff.2 hlock, Bool.toNat_false] at hfree
    exact h.cancelMove hc (hok.dispatch (by simp)) (h.not_unmark hc (by simp)) rfl
      (by rw [Bool.eq_false_iff.2 hlock]; rfl) (by simp) (fun _ => hloaded)
      (fun hl => by cases hl) (.inl rfl) (fun _ => .inr rfl) (.inl rfl)
      (.inr (not_works_of_holds (by omega)))

/-- Past its first write, the cancel callback has cleared `State`. -/
theorem Inv.state_none_of_cancel (h : s.Inv) {r : Nat} {p : CancelStep}
    (hc : s.cancel = some (r, p)) (hwaits : p.waits = false) (hne : p ≠ .reset .state) :
    s.state = none := by
  have hok := h.cancel r p hc
  have hdispatch : s.dispatch = none := by
    refine hok.dispatch ?_
    rintro rfl
    cases hwaits
  by_contra hs
  rcases h.state hs with ha | ha | ⟨c, ha, hp⟩ | ha
  · rw [half, hdispatch] at ha
    cases ha
  · cases hok.request.symm.trans ha
  · obtain rfl := Option.some.inj (hc.symm.trans ha)
    rcases hp with hp | hp
    · cases hwaits.symm.trans hp
    · exact hne hp
  · cases hok.request.symm.trans (h.released_of_keepsState ha)

/-- The cancel callback clears the context. -/
theorem Inv.resetCancel (h : s.Inv) {r : Nat} {p : ResetStep}
    (hc : s.cancel = some (r, .reset p)) : (s.runCancel r (.reset p)).Inv := by
  have hok := h.cancel r _ hc
  have hdispatch := hok.dispatch (by simp)
  have hdpc := h.not_unmark hc (by simp)
  have hisr := h.not_works_of_cancel hc rfl
  cases p with
  | state =>
    exact h.cancelMove hc hdispatch hdpc rfl rfl (by simp [ResetStep.next])
      (fun he => by rcases he with he | he <;> cases he) (fun hl => by cases hl) (.inl rfl)
      (fun hs => absurd rfl hs) (.inl rfl) (.inr hisr)
  | request =>
    have hstate := h.state_none_of_cancel hc rfl (by simp)
    exact h.cancelMove hc hdispatch hdpc rfl rfl (by simp [ResetStep.next])
      (fun he => by rcases he with he | he <;> cases he) (fun _ => rfl) (.inr rfl)
      (fun hs => absurd hstate hs) (.inl rfl) (.inr hisr)
  | control =>
    have hstate := h.state_none_of_cancel hc rfl (by simp)
    exact h.cancelMove hc hdispatch hdpc rfl rfl (by simp [ResetStep.next])
      (fun he => by rcases he with he | he <;> cases he) (fun _ => hok.late rfl) (.inl rfl)
      (fun hs => absurd hstate hs) (.inr rfl) (.inr hisr)

/-- The cancel callback completes its request. -/
theorem Inv.completeCancel (h : s.Inv) {r : Nat} (hc : s.cancel = some (r, .complete)) :
    (s.runCancel r .complete).Inv := by
  have hok := h.cancel r _ hc
  obtain rfl := hok.current
  have hreq := hok.request
  have hdispatch := hok.dispatch (by simp)
  have hdpc := h.not_unmark hc (by simp)
  have hstate := h.state_none_of_cancel hc rfl (by simp)
  have hspb := hok.late rfl
  -- a request that is being cancelled has not been completed
  obtain ⟨hnodup, hle, hall⟩ := h.completed_append (by simp [hreq])
  have hrun : s.runCancel s.current .complete = { s with
      request := .completed
      completed := s.completed ++ [s.current]
      cancel := none } := by
    rw [runCancel, spbRequestComplete, if_pos rfl]
  rw [hrun]
  exact { h with
    cancelLock := by
      have := h.cancelLock
      rwa [hc] at this
    interruptLock := by
      have := h.interruptLock
      rwa [hc] at this
    dispatch := fun d hd => by cases hdispatch.symm.trans hd
    dispatchSome := fun ha => by cases ha
    cancel := fun r p hp => by cases hp
    cancelSome := fun ha => by cases ha
    cancelable := fun ha => by cases ha
    way := fun ha => by cases ha
    claims := by
      have := h.claims
      rwa [hreq] at this
    dpc := by
      intro e he
      have hok := h.dpc e he
      cases e with
      | unmark tag r => exact absurd he (hdpc tag r)
      | giveUp tag => exact fun _ => ⟨by simp, by simp⟩
      | _ => exact hok
    tagged := fun ht => ⟨(h.tagged ht).1, (h.tagged ht).2.1, by simp, (h.tagged ht).2.2.2⟩
    isr := by
      intro q hq hw
      cases ((h.isr q hq hw).cancel _ hc)
    state := fun hs => absurd hstate hs
    spbRequest := fun r hr => by cases hspb.symm.trans hr
    nodup := hnodup
    completed := fun r hr => ⟨hle r hr, fun _ => rfl⟩
    earlier := fun r hr hr' => .inl (hall r hr hr')
    marked := fun ha => by rcases ha with ha | ha | ha <;> cases ha }

/-- The steps of the cancel callback. -/
theorem Inv.runCancel (h : s.Inv) {r : Nat} {p : CancelStep} (hc : s.cancel = some (r, p)) :
    (s.runCancel r p).Inv := by
  have hok := h.cancel r p hc
  cases p with
  | acquire => exact h.acquireCancel hc
  | read =>
    have hloaded := hok.early (.inl rfl)
    have hrun : s.runCancel r .read = { s with cancel := some (r, .acquireInterrupt) } := by
      rw [Controller.runCancel, if_neg (by simp [hloaded.spbRequest])]
    rw [hrun]
    exact h.cancelMove hc (hok.dispatch (by simp)) (h.not_unmark hc (by simp)) rfl rfl (by simp)
      (fun _ => hloaded) (fun hl => by cases hl) (.inl rfl) (fun _ => .inl rfl) (.inl rfl)
      (.inl rfl)
  | acquireInterrupt => exact h.acquireInterruptCancel hc
  | reset p => exact h.resetCancel hc
  | releaseInterrupt =>
    have hheld : s.interruptLock = true := by
      have hlock := h.interruptLock
      rw [hc, Option.elim_some, show CancelStep.releaseInterrupt.holdsInterrupt = 1 from rfl] at hlock
      cases hl : s.interruptLock with
      | true => rfl
      | false =>
        rw [hl, Bool.toNat_false] at hlock
        omega
    have hstate := h.state_none_of_cancel hc rfl (by simp)
    exact h.cancelMove hc (hok.dispatch (by simp)) (h.not_unmark hc (by simp)) rfl
      (by rw [hheld]; rfl) (by simp) (fun he => by rcases he with he | he <;> cases he)
      (fun _ => hok.late rfl) (.inl rfl) (fun hs => absurd hstate hs) (.inl rfl)
      (.inr (h.not_works_of_cancel hc rfl))
  | release =>
    have hheld : s.cancelLock = true := by
      have hlock := h.cancelLock
      rw [hc, Option.elim_some, show CancelStep.release.holds = 1 from rfl] at hlock
      cases hl : s.cancelLock with
      | true => rfl
      | false =>
        rw [hl, Bool.toNat_false] at hlock
        omega
    have hstate := h.state_none_of_cancel hc rfl (by simp)
    refine h.cancelMove hc (hok.dispatch (by simp)) (h.not_unmark hc (by simp))
      (by rw [hheld]; rfl) rfl (by simp) (fun he => by rcases he with he | he <;> cases he)
      (fun _ => hok.late rfl) (.inl rfl) (fun hs => absurd hstate hs) (.inl rfl) (.inr ?_)
    intro q hq
    rcases hw : q.works with _ | _
    · rfl
    · cases ((h.isr q hq hw).cancel _ hc)
  | complete => exact h.completeCancel hc
  | giveUp => exact absurd rfl hok.notGiveUp

/-! ### The other steps -/

/-- The framework presents the next request: nobody has to do with it yet. -/
theorem Inv.present (h : s.Inv) (hreq : s.request = .completed) (hdispatch : s.dispatch = none)
    (kind : RequestKind) (cancelled : Bool) :
    { s with
      current := s.current + 1
      request := .unmarked
      cancelRequested := cancelled
      dispatch := some (.validate kind) }.Inv := by
  have hcancel := h.cancel_none (by simp [hreq])
  have hspb : s.spbRequest = none := by
    rcases hr : s.spbRequest with _ | r
    · rfl
    · exact absurd hreq (h.spbRequest r hr).2.1
  have hstate : s.state = none := by
    by_contra hs
    rcases h.state hs with hc | hc | ⟨c, hc, -⟩ | hc
    · rw [half, hdispatch] at hc
      cases hc
    · cases hreq.symm.trans hc
    · cases hcancel.symm.trans hc
    · cases hreq.symm.trans (h.released_of_keepsState hc)
  -- the number of the new request is one that no DPC has
  have hnot : ¬s.Tagged (s.current + 1) := fun ht => Nat.not_succ_le_self _ (h.tags _ ht)
  exact { h with
    cancelLock := by
      have := h.cancelLock
      rwa [hdispatch] at this
    interruptLock := by
      have := h.interruptLock
      rwa [hdispatch] at this
    dispatch := by
      intro d hd
      obtain rfl := Option.some.inj hd
      exact ⟨rfl, fun hh => (by cases hh), fun _ _ => hspb, fun he => (by cases he)⟩
    dispatchSome := fun _ => by simp
    cancel := fun r p hp => by cases hcancel.symm.trans hp
    cancelSome := fun hc => by cases hc
    cancelable := fun hc => by cases hc
    way := fun hc => by cases hc
    claims := by
      have := h.claims
      rwa [hreq] at this
    dpc := by
      intro e he
      have hok := h.dpc e he
      have hclaims : e.claims ≠ 1 := fun hc => by
        cases hreq.symm.trans (h.released_of_claims he hc)
      cases e with
      | unmark tag r => rcases hok.2.2.1 with hc | hc <;> cases hreq.symm.trans hc
      | giveUp tag => exact fun htag => absurd (.inr ⟨_, he, htag⟩) hnot
      | acquire tag => trivial
      | read tag => trivial
      | claim r => exact absurd rfl hclaims
      | release r => exact absurd rfl hclaims
      | process r => exact absurd rfl hclaims
      | reset r p => exact absurd rfl hclaims
      | complete r => exact absurd rfl hclaims
      | fail tag r => exact hok
      | releaseFailed tag r => exact hok
      | completeFailed tag r => exact hok
    tags := fun r hr => Nat.le_succ_of_le (h.tags r hr)
    tagged := fun ht => absurd ht hnot
    isr := by
      intro p hp hw
      rcases (h.isr p hp hw).pending with hc | hc <;> cases hreq.symm.trans hc
    state := fun hs => absurd hstate hs
    spbRequest := fun r hr => by cases hspb.symm.trans hr
    completed := by
      intro r hr
      have hle := (h.completed r hr).1
      exact ⟨Nat.le_succ_of_le hle, fun heq => absurd (heq ▸ hle) (Nat.not_succ_le_self _)⟩
    earlier := by
      intro r hr hle
      rcases Nat.lt_or_eq_of_le hle with hlt | rfl
      · exact .inl ((h.earlier r hr (Nat.le_of_lt_succ hlt)).resolve_right fun hc => hc.2 hreq)
      · exact .inr ⟨rfl, by simp⟩
    marked := fun hc => by rcases hc with hc | hc | hc <;> cases hc }

/-- An interrupt is taken: no DPC of the request is on its way. -/
theorem Inv.interrupt (h : s.Inv) (hints : s.interruptsEnabled = true) (hisr : s.isr = none) :
    { s with isr := some .acquire }.Inv := by
  refine h.isrMove ?_ (fun p hp hw => ?_) fun ht => ?_
  · rw [hisr]
    rfl
  · cases hp
    cases hw
  · cases hints.symm.trans (h.tagged ht).1

/-- The queued DPC is started. -/
theorem Inv.dpcStart (h : s.Inv) {tag : Nat} (hq : s.dpcQueued = some tag) :
    { s with dpcQueued := none, dpcs := .acquire tag :: s.dpcs }.Inv := by
  have htags : ∀ r, { s with dpcQueued := none, dpcs := .acquire tag :: s.dpcs }.Tagged r ↔
      s.Tagged r := by
    intro r
    constructor
    · rintro (hr | ⟨d, hd, hr⟩)
      · cases hr
      · rcases List.mem_cons.1 hd with rfl | hd
        · exact .inl (hr ▸ hq)
        · exact .inr ⟨d, hd, hr⟩
    · rintro (hr | ⟨d, hd, hr⟩)
      · exact .inr ⟨_, List.mem_cons_self, Option.some.inj (hq.symm.trans hr)⟩
      · exact .inr ⟨d, List.mem_cons_of_mem _ hd, hr⟩
  have hsum (f : DpcStep → Nat) (hf : f (.acquire tag) = 0) :
      total f (.acquire tag :: s.dpcs) = total f s.dpcs := by
    rw [total_cons, hf, Nat.zero_add]
  exact { h with
    cancelLock := by
      show s.cancelLock.toNat = _ + total DpcStep.holds (.acquire tag :: s.dpcs) + _
      rw [hsum _ rfl]
      exact h.cancelLock
    way := fun hc => (h.way hc).imp_right (Or.imp_right (htags _).2)
    claims := (hsum _ rfl).trans h.claims
    dpc := by
      intro e he
      rcases List.mem_cons.1 he with rfl | he
      · trivial
      · exact h.dpc e he
    tags := fun r hr => h.tags r ((htags r).1 hr)
    tagged := fun hr => h.tagged ((htags _).1 hr)
    state := by
      show s.state ≠ none → _ ∨ _ ∨ _ ∨ 1 ≤ total _ (.acquire tag :: s.dpcs)
      rw [hsum _ rfl]
      exact h.state
    spbRequest := by
      show ∀ r, s.spbRequest = some r → _ ∧ _ ∧ (_ → 1 ≤ total _ (.acquire tag :: s.dpcs))
      rw [hsum _ rfl]
      exact h.spbRequest }

/-! ## Whole runs -/

/-- **The invariant of undisturbed runs.** -/
theorem inv_of_undisturbed (h : i2cMachine.Reach Undisturbed s) : s.Inv := by
  refine Machine.Reach.inv_guarded ?_ (fun s a hinv hok hen => ?_) h
  · rintro s rfl
    exact inv_start
  · cases a with
    | present kind cancelled => exact hinv.present hen.1 hen.2 kind cancelled
    | dispatch d ok => exact hinv.runDispatch hen ok
    | interrupt => exact hinv.interrupt hen.1 hen.2
    | isr p readings => exact hinv.runIsr hen readings (by rintro rfl; exact hok)
    | dpcStart tag => exact hinv.dpcStart hen
    | dpc d cancelled => exact hinv.runDpc hen cancelled (by rintro tag rfl; exact hok)
    | cancelRequest => exact hinv.cancelRequest
    | cancel r p => exact hinv.runCancel hen

/-- What the invariant says of the requests. -/
theorem Inv.sound (h : s.Inv) : OwnershipSound s where
  atMostOnce := h.nodup
  owned := by
    intro r hr hle
    refine (h.earlier r hr hle).imp_right fun ⟨heq, hne⟩ => ⟨heq, ?_⟩
    cases hreq : s.request with
    | unmarked => exact .dispatch ⟨hreq, h.dispatchSome hreq⟩
    | cancelable =>
      have hloaded := h.cancelable hreq
      exact .interrupts ⟨hreq, hloaded.spbRequest, hloaded.state⟩ (h.way hreq)
    | cancelling =>
      obtain ⟨⟨r', p⟩, hc⟩ := Option.ne_none_iff_exists'.1 (h.cancelSome hreq)
      have hok := h.cancel r' p hc
      obtain rfl := hok.current
      exact .cancel ⟨hreq, p, hc, hok.notGiveUp⟩
    | released => exact .dpc ⟨hreq, h.tagged_of_released hreq⟩
    | completed => exact absurd hreq hne
  processings := h.processings

end Controller

/-- **Every request is completed exactly once, and no interrupt or DPC works on it before it is
marked cancelable or after it is completed**, in every run in which the ISR finds no request that
is half set up and a DPC finds no request but its own. -/
theorem ownershipSound_of_undisturbed {s : Controller} (h : i2cMachine.Reach Undisturbed s) :
    OwnershipSound s :=
  (Controller.inv_of_undisturbed h).sound

instance (s : Controller) (a : Action) : Decidable (Undisturbed s a) := by
  rcases a with _ | _ | _ | ⟨p, readings⟩ | _ | ⟨d, cancelled⟩ | _ | _
  case isr => cases p <;> unfold Undisturbed <;> infer_instance
  case dpc => cases d <;> unfold Undisturbed <;> infer_instance
  all_goals exact inferInstanceAs (Decidable True)

/-- What the ISR reads when the phase is over. -/
def IsrReadings.done : IsrReadings := ⟨true, false, false, true⟩

/-- A read that is received by one interrupt and completed after a second one. -/
def readRun : List Action :=
  [DispatchStep.validate .read, .start .read, .setRequest .read, .setState .read, .acquire .read,
      .mark .read, .enable, .release true].map (Action.dispatch · true) ++
    [Action.interrupt, .isr .acquire .done, .isr .readState .done, .isr (.handle .receiving false) .done,
      .isr .release .done, .interrupt, .isr .acquire .done, .isr .readState .done,
      .isr (.handle .receivingWaitForDone false) .done, .isr .queue .done, .dpcStart 1,
      .isr .release .done] ++
    [DpcStep.acquire 1, .read 1, .unmark 1 1, .claim 1, .release 1, .process 1, .reset 1 .state,
      .reset 1 .request, .reset 1 .control, .complete 1].map (Action.dpc · false)

theorem ownershipSound_of_undisturbed_read :
    ∃ s, i2cMachine.Reach Undisturbed s ∧ s.completed = [1] ∧ s.processings.length = 5 ∧
      OwnershipSound s :=
  have h := Machine.reach_execOk_get i2cMachine Undisturbed (.present .read false :: readRun) rfl
    (by decide +kernel)
  ⟨_, h, by decide +kernel, by decide +kernel, ownershipSound_of_undisturbed h⟩

/-- A sequence with one byte to write, interrupted before it is marked. -/
def earlyRun : List Action :=
  [DispatchStep.validate (.sequence true), .setRequest (.sequence true),
      .setState (.sequence true), .start (.sequence true), .acquire (.sequence true), .waitActive,
      .acquireInterrupt, .enableEarly, .releaseInterrupt].map (Action.dispatch · true) ++
    [Action.interrupt, .isr .acquire .done, .isr .readState .done,
      .isr (.handle .receivingSequence false) .done]

/-- **The ISR works on a request that is not marked yet.** -/
theorem unmarked_processed : ¬∀ s, i2cMachine.Reachable s → OwnershipSound s := by
  intro h
  have hrun := Machine.reach_exec_get i2cMachine (.present (.sequence true) false :: earlyRun) rfl
    (by decide +kernel)
  exact absurd ((h _ hrun).processings (false, false) (by decide +kernel)) (by decide)

/-- **A request is completed twice.** It is cancelled before it is marked, but its interrupts have
queued the DPC, which waits for `CancelLock` and finds the request still there. -/
theorem dispatched_completed_twice :
    ∃ s, i2cMachine.Reachable s ∧ s.completed = [1, 1] :=
  ⟨_, Machine.reach_exec_get i2cMachine
    (.present (.sequence true) true :: earlyRun ++
      [Action.isr .release .done, .interrupt, .isr .acquire .done, .isr .readState .done,
        .isr (.handle .receivingSequenceWaitForDone false) .done, .isr .queue .done, .dpcStart 1,
        .dispatch (.mark (.sequence true)) true, .dispatch (.release false) true] ++
      [DpcStep.acquire 1, .read 1, .unmark 1 1, .fail 1 1, .releaseFailed 1 1,
        .completeFailed 1 1].map (Action.dpc · false) ++
      [DispatchStep.reset .state, .reset .request, .reset .control, .complete].map
        (Action.dispatch · true)) rfl
    (by decide +kernel), by decide +kernel⟩

end RpiDrivers.I2c.Ownership
