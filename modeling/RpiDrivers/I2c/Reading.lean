import RpiDrivers.I2c.SequenceWrite

/-!
# The reads of the I2C driver (`device.cpp` of the BCM2836 driver)

A single read goes to one buffer, the read of a sequence to a chain of MDLs. At each interrupt the
handler takes bytes from the FIFO as long as the status register shows one, and keeps its cursor for
the next interrupt. Bytes arrive in the FIFO between any two reads of a register.

- `handleInterrupt`, `onRead`, `onSequence`: the calls, with the stores that they make.
- `ReadSound`: the bytes that were taken are stored in their order, one behind the other, inside
  the buffers; the state is wait-for-done when all are stored, and not before.
- `readSound_run`: **every run is sound**.
-/

namespace RpiDrivers.I2c.Reading

/-- `2 ^ 64`, the range of a pointer -/
def pointerRange : Nat := 18446744073709551616

/-- The `MDL` of a buffer. Its byte count is not zero. -/
structure ReadMdl where
  mappedSystemVa : Nat
  byteCount : Nat
  byteCount_pos : 0 < byteCount

/-- The addresses of an MDL's buffer. -/
def ReadMdl.addresses (mdl : ReadMdl) : List Nat := List.range' mdl.mappedSystemVa mdl.byteCount

/-- The addresses of a chain of MDLs. -/
def chainAddresses (chain : List ReadMdl) : List Nat := chain.flatMap ReadMdl.addresses

/-- The buffer of a single read. -/
structure ReadBuffer where
  outputBufferPtr : Nat
  outputBufferLength : Nat
  fits : outputBufferPtr + outputBufferLength < pointerRange

/-- The FIFO, and what becomes of its bytes. -/
structure Rx where
  fifo : List UInt8
  /-- the bytes that have arrived -/
  received : List UInt8
  /-- the bytes that were read from the data register -/
  taken : List UInt8
  /-- the stores, with their addresses -/
  stored : List (Nat × UInt8)

/-- Bytes arrive. -/
def Rx.arrive (rx : Rx) (bytes : List UInt8) : Rx :=
  { rx with fifo := rx.fifo ++ bytes, received := rx.received ++ bytes }

/-- The data register is read, and its byte is stored. -/
def Rx.takeTo (rx : Rx) (address : Nat) : Rx :=
  { rx with
    fifo := rx.fifo.tail
    taken := rx.taken ++ rx.fifo.head?.toList
    stored := rx.stored ++ rx.fifo.head?.toList.map fun b => (address, b) }

/-- `ReadFifo`: the number of bytes read. Before the status register is read for the `i`-th time,
`arrivals i` arrive. -/
def readFifo : Nat → Nat → (Nat → List UInt8) → Rx → Nat × (Nat → List UInt8) × Rx
  | _, 0, arrivals, rx => (0, arrivals, rx)
  | bufferPtr, bufferSize + 1, arrivals, rx =>
    let rx := rx.arrive (arrivals 0)
    let arrivals := fun i => arrivals (i + 1)
    if rx.fifo = [] then (0, arrivals, rx)  -- `RXD` is clear
    else
      let (bytesRead, arrivals, rx) :=
        readFifo (bufferPtr + 1) bufferSize arrivals (rx.takeTo bufferPtr)
      (bytesRead + 1, arrivals, rx)

/-- The `TRANSFER_STATE`s of the two kinds of reads. -/
inductive TransferState
  | invalid
  | receiving
  | receivingWaitForDone
  | sendingSequence
  | receivingSequence
  | receivingSequenceWaitForDone
  deriving DecidableEq

/-- `READ_CONTEXT` -/
structure ReadContext where
  currentReadBufferPtr : Nat
  endPtr : Nat

/-- The read half of `SEQUENCE_CONTEXT`. A pointer to an MDL is the list of that MDL and its
successors. -/
structure SequenceContext where
  currentReadMdl : List ReadMdl
  currentReadMdlOffset : Nat
  bytesToRead : Nat
  bytesRead : Nat

/-- `BCM_I2C_INTERRUPT_CONTEXT`, with the FIFO. -/
structure InterruptContext where
  state : TransferState
  /-- `ERROR_FLAG` of the state -/
  errorFlag : Bool
  /-- `SpbRequest != WDF_NO_HANDLE` -/
  hasRequest : Bool
  readContext : ReadContext
  sequenceContext : SequenceContext
  dpcQueued : Bool
  rx : Rx

/-! ## The interrupt handler -/

/-- How often the body of a `do`/`while` loop runs that ends when `dataPtr` is at `endPtr`. -/
def turns (dataPtr endPtr : Nat) : Nat :=
  (endPtr + (pointerRange - 1 - dataPtr)) % pointerRange + 1

/-- The `do`/`while` loop of the state `RECEIVING`, with the turns that are left: whether it comes
to its end, and the pointer. -/
def receiveBytes : Nat → Nat → (Nat → List UInt8) → Rx → Bool × Nat × Rx
  | 0, dataPtr, _, rx => (true, dataPtr, rx)
  | turns + 1, dataPtr, arrivals, rx =>
    let rx := rx.arrive (arrivals 0)
    if rx.fifo = [] then (false, dataPtr, rx)
    else receiveBytes turns (dataPtr + 1) (fun i => arrivals (i + 1)) (rx.takeTo dataPtr)

/-- `HandleInterrupt` in the state `RECEIVING`. -/
def receive (c : InterruptContext) (arrivals : Nat → List UInt8) : InterruptContext :=
  let dataPtr := c.readContext.currentReadBufferPtr
  let (ended, dataPtr, rx) :=
    receiveBytes (turns dataPtr c.readContext.endPtr) dataPtr arrivals c.rx
  { c with
    state := if ended then .receivingWaitForDone else c.state
    readContext := { c.readContext with currentReadBufferPtr := dataPtr }
    rx := rx }

/-- The `do`/`while` loop of the state `RECEIVING_SEQUENCE`: the MDL it stops in (none when all
bytes were read), the offset, and the bytes read. -/
def receiveMdls : List ReadMdl → Nat → Nat → (Nat → List UInt8) → Rx →
    List ReadMdl × Nat × Nat × Rx
  | [], offset, bytesRead, _, rx => ([], offset, bytesRead, rx)
  | mdl :: next, offset, bytesRead, arrivals, rx =>
    let (n, arrivals, rx) :=
      readFifo (mdl.mappedSystemVa + offset) (mdl.byteCount - offset) arrivals rx
    if offset + n ≠ mdl.byteCount then (mdl :: next, offset + n, bytesRead + n, rx)
    else receiveMdls next 0 (bytesRead + n) arrivals rx

/-- `HandleInterrupt` in the state `RECEIVING_SEQUENCE`. -/
def receiveSequence (c : InterruptContext) (arrivals : Nat → List UInt8) : InterruptContext :=
  let s := c.sequenceContext
  let (mdl, offset, bytesRead, rx) :=
    receiveMdls s.currentReadMdl s.currentReadMdlOffset s.bytesRead arrivals c.rx
  { c with
    state := if mdl.isEmpty then .receivingSequenceWaitForDone else c.state
    sequenceContext := { s with
      currentReadMdl := mdl
      currentReadMdlOffset := offset
      bytesRead := bytesRead }
    rx := rx }

/-- What an interrupt meets: the first read of the status register, the bytes that arrive, whether
`TA` is still set after `DONE` was cleared, and whether the write half programs the read. -/
structure Interrupt where
  statusReg : Status
  arrivals : Nat → List UInt8
  ta : Bool
  readProgrammed : Bool

/-- `HandleInterrupt` -/
def handleInterrupt (c : InterruptContext) (i : Interrupt) : InterruptContext :=
  if !(i.statusReg.rxr || i.statusReg.txw || i.statusReg.done) then c
  else if c.state = .invalid then c
  else if c.errorFlag then { c with dpcQueued := true }
  else if i.statusReg.clkt || i.statusReg.err then
    if i.statusReg.done && i.ta then { c with errorFlag := true }
    else { c with errorFlag := true, dpcQueued := true }
  else
    match c.state with
    | .invalid => c
    | .receiving => receive c i.arrivals
    | .sendingSequence =>
      if i.readProgrammed then { c with state := .receivingSequence } else c
    | .receivingSequence => receiveSequence c i.arrivals
    | .receivingWaitForDone | .receivingSequenceWaitForDone => { c with dpcQueued := true }

/-! ## The other entry points -/

/-- `ResetHardwareAndRequestContext`; the FIFO is cleared. -/
def resetHardwareAndRequestContext (c : InterruptContext) : InterruptContext :=
  { c with
    state := .invalid
    errorFlag := false
    hasRequest := false
    rx := { c.rx with fifo := [] } }

/-- `OnRequestCancel` -/
def onRequestCancel (c : InterruptContext) : InterruptContext :=
  if c.hasRequest then resetHardwareAndRequestContext c else c

/-- `OnInterruptDpc` -/
def onInterruptDpc (c : InterruptContext) (unmark : Unmark) : InterruptContext :=
  if c.dpcQueued then
    let c := { c with dpcQueued := false }
    if c.hasRequest then
      match unmark with
      | .success => resetHardwareAndRequestContext c
      | .cancelled => c
      | .failed => { c with hasRequest := false }
    else c
  else c

/-- The context between two requests. -/
def InterruptContext.idle : InterruptContext where
  state := .invalid
  errorFlag := false
  hasRequest := false
  readContext := ⟨0, 0⟩
  sequenceContext := ⟨[], 0, 0, 0⟩
  dpcQueued := false
  rx := ⟨[], [], [], []⟩

/-- `OnRead`; `markCancelable` is whether `WdfRequestMarkCancelableEx` succeeds. -/
def onRead (buffer : ReadBuffer) (markCancelable : Bool) : InterruptContext :=
  let bytesToRead := buffer.outputBufferLength
  if bytesToRead < 1 then .idle  -- the `MinimumRequiredSize`
  else if bcmI2cMaxTransferLength < bytesToRead then .idle
  else
    let c := { InterruptContext.idle with
      state := .receiving
      hasRequest := true
      readContext := ⟨buffer.outputBufferPtr, buffer.outputBufferPtr + bytesToRead⟩ }
    if markCancelable then c else resetHardwareAndRequestContext c

/-- How a sequence is started. -/
structure SequenceStart where
  /-- the checks of the write, and `MmGetSystemAddressForMdlSafe` -/
  accepted : Bool
  /-- `StartSequenceWrite` succeeds -/
  started : Bool
  /-- it has programmed the read, of a write of one byte -/
  readProgrammed : Bool

/-- `OnSequence`, with a read chain that is not empty -/
def onSequence (readMdl : ReadMdl) (next : List ReadMdl) (start : SequenceStart) :
    InterruptContext :=
  let bytesToRead := ((readMdl :: next).map ReadMdl.byteCount).sum
  if bcmI2cMaxTransferLength < bytesToRead then .idle
  else if !start.accepted then .idle
  else
    let c := { InterruptContext.idle with
      state := if start.readProgrammed then .receivingSequence else .sendingSequence
      hasRequest := true
      sequenceContext := ⟨readMdl :: next, 0, bytesToRead, 0⟩ }
    if start.started then c else resetHardwareAndRequestContext c

/-- A read request. -/
inductive Request
  | read (buffer : ReadBuffer) (markCancelable : Bool)
  | sequence (readMdl : ReadMdl) (next : List ReadMdl) (start : SequenceStart)

/-- The addresses of the request's buffer, or of its chain. -/
def Request.addresses : Request → List Nat
  | .read buffer _ => List.range' buffer.outputBufferPtr buffer.outputBufferLength
  | .sequence readMdl next _ => chainAddresses (readMdl :: next)

def Request.start : Request → InterruptContext
  | .read buffer markCancelable => onRead buffer markCancelable
  | .sequence readMdl next start => onSequence readMdl next start

/-- What can happen to a request once it is started. -/
inductive Action
  | arrive (bytes : List UInt8)
  | interrupt (i : Interrupt)
  | dpc (unmark : Unmark)
  | cancel

def step (c : InterruptContext) : Action → InterruptContext
  | .arrive bytes => { c with rx := c.rx.arrive bytes }
  | .interrupt i => handleInterrupt c i
  | .dpc unmark => onInterruptDpc c unmark
  | .cancel => onRequestCancel c

/-- A whole run: the start of a request and the actions that follow. -/
def run (request : Request) (actions : List Action) : InterruptContext :=
  actions.foldl step request.start

/-! ## The property -/

/-- The state is one of those that wait for the end of a read. -/
def TransferState.isWaitForDone : TransferState → Bool
  | .receivingWaitForDone | .receivingSequenceWaitForDone => true
  | _ => false

/-- What was taken from the FIFO is stored in its order, one byte behind the other, in the buffer or
the chain of the request. While the request has a state, this is wait-for-done just when all bytes
are stored. -/
structure ReadSound (addresses : List Nat) (c : InterruptContext) : Prop where
  inOrder : c.rx.taken <+: c.rx.received
  stored : c.rx.stored.map Prod.snd = c.rx.taken
  contiguous : c.rx.stored.map Prod.fst = addresses.take c.rx.stored.length
  inBounds : c.rx.stored.length ≤ addresses.length
  waitForDone : c.state ≠ .invalid →
    (c.state.isWaitForDone = true ↔ c.rx.stored.length = addresses.length)

/-! ## Taking bytes from the FIFO -/

/-- From one state of the FIFO to another one, a byte was stored at each of the addresses. -/
structure Rx.Reads (addresses : List Nat) (rx rx' : Rx) : Prop where
  taken : ∃ bytes arrived, bytes.length = addresses.length ∧
    rx'.taken = rx.taken ++ bytes ∧ rx'.stored = rx.stored ++ addresses.zip bytes ∧
    rx'.received = rx.received ++ arrived ∧ bytes ++ rx'.fifo = rx.fifo ++ arrived

namespace Rx.Reads

variable {rx rx' rx'' : Rx} {addresses addresses' : List Nat}

theorem refl (rx : Rx) : Rx.Reads [] rx rx where
  taken := ⟨[], [], rfl, (List.append_nil _).symm, (List.append_nil _).symm,
    (List.append_nil _).symm, (List.append_nil _).symm⟩

theorem trans (h : Rx.Reads addresses rx rx') (h' : Rx.Reads addresses' rx' rx'') :
    Rx.Reads (addresses ++ addresses') rx rx'' where
  taken := by
    obtain ⟨bytes, arrived, hlen, htaken, hstored, hreceived, hfifo⟩ := h.taken
    obtain ⟨bytes', arrived', hlen', htaken', hstored', hreceived', hfifo'⟩ := h'.taken
    refine ⟨bytes ++ bytes', arrived ++ arrived', ?_, ?_, ?_, ?_, ?_⟩
    · rw [List.length_append, List.length_append, hlen, hlen']
    · rw [htaken', htaken, List.append_assoc]
    · rw [hstored', hstored, List.append_assoc, List.zip_append hlen.symm]
    · rw [hreceived', hreceived, List.append_assoc]
    · rw [List.append_assoc, hfifo', ← List.append_assoc, hfifo, List.append_assoc]

theorem arrive (rx : Rx) (bytes : List UInt8) : Rx.Reads [] rx (rx.arrive bytes) where
  taken := ⟨[], bytes, rfl, (List.append_nil _).symm, (List.append_nil _).symm, rfl, rfl⟩

/-- The status register shows a byte. -/
theorem takeTo (rx : Rx) (h : rx.fifo ≠ []) (address : Nat) :
    Rx.Reads [address] rx (rx.takeTo address) where
  taken := by
    obtain ⟨b, fifo, hfifo⟩ := List.exists_cons_of_ne_nil h
    refine ⟨[b], [], rfl, ?_, ?_, (List.append_nil _).symm, ?_⟩
    · show rx.taken ++ rx.fifo.head?.toList = _
      rw [hfifo]
      rfl
    · show rx.stored ++ rx.fifo.head?.toList.map _ = _
      rw [hfifo]
      rfl
    · show [b] ++ rx.fifo.tail = rx.fifo ++ []
      rw [hfifo, List.append_nil]
      rfl

end Rx.Reads

/-- `ReadFifo` stores at consecutive addresses, as many as there are bytes. -/
theorem readFifo_spec (bufferSize : Nat) : ∀ (bufferPtr : Nat) (arrivals : Nat → List UInt8)
    (rx : Rx), (readFifo bufferPtr bufferSize arrivals rx).1 ≤ bufferSize ∧
      Rx.Reads (List.range' bufferPtr (readFifo bufferPtr bufferSize arrivals rx).1) rx
        (readFifo bufferPtr bufferSize arrivals rx).2.2 := by
  induction bufferSize with
  | zero => exact fun _ _ rx => ⟨Nat.le_refl 0, .refl rx⟩
  | succ bufferSize ih =>
    intro bufferPtr arrivals rx
    rw [readFifo]
    split
    · exact ⟨Nat.zero_le _, .arrive rx _⟩
    · next hfifo =>
      obtain ⟨hle, hreads⟩ := ih (bufferPtr + 1) (fun i => arrivals (i + 1))
        ((rx.arrive (arrivals 0)).takeTo bufferPtr)
      exact ⟨Nat.succ_le_succ hle,
        ((Rx.Reads.arrive rx (arrivals 0)).trans (.takeTo _ hfifo bufferPtr)).trans hreads⟩

/-- The loop over one buffer comes to its end when it has stored in all its turns. -/
theorem receiveBytes_spec (turns : Nat) :
    ∀ (dataPtr : Nat) (arrivals : Nat → List UInt8) (rx : Rx),
    ∃ k ≤ turns, (receiveBytes turns dataPtr arrivals rx).2.1 = dataPtr + k ∧
      Rx.Reads (List.range' dataPtr k) rx (receiveBytes turns dataPtr arrivals rx).2.2 ∧
      ((receiveBytes turns dataPtr arrivals rx).1 = true ↔ k = turns) := by
  induction turns with
  | zero => exact fun _ _ rx => ⟨0, Nat.le_refl 0, rfl, .refl rx, iff_of_true rfl rfl⟩
  | succ turns ih =>
    intro dataPtr arrivals rx
    rw [receiveBytes]
    split
    · exact ⟨0, Nat.zero_le _, rfl, .arrive rx _,
        iff_of_false Bool.false_ne_true (Nat.succ_ne_zero turns).symm⟩
    · next hfifo =>
      obtain ⟨k, hk, hptr, hreads, hended⟩ := ih (dataPtr + 1) (fun i => arrivals (i + 1))
        ((rx.arrive (arrivals 0)).takeTo dataPtr)
      refine ⟨k + 1, Nat.succ_le_succ hk, ?_, ?_, hended.trans Nat.succ_inj.symm⟩
      · rw [hptr]
        omega
      · exact ((Rx.Reads.arrive rx (arrivals 0)).trans (.takeTo _ hfifo dataPtr)).trans hreads

/-- What is left of a chain behind an offset in its first MDL. -/
def restOfChain : List ReadMdl → Nat → List Nat
  | [], _ => []
  | mdl :: next, offset =>
    List.range' (mdl.mappedSystemVa + offset) (mdl.byteCount - offset) ++ chainAddresses next

theorem restOfChain_zero (chain : List ReadMdl) : restOfChain chain 0 = chainAddresses chain := by
  cases chain <;> rfl

/-- The cursor is inside of an MDL. -/
def CursorIn : List ReadMdl → Nat → Prop
  | [], _ => False
  | mdl :: _, offset => offset < mdl.byteCount

theorem restOfChain_ne_nil {chain : List ReadMdl} {offset : Nat} (h : CursorIn chain offset) :
    restOfChain chain offset ≠ [] := by
  cases chain with
  | nil => exact h.elim
  | cons mdl next =>
    have hlt : offset < mdl.byteCount := h
    intro hnil
    have hlen := congrArg List.length (List.append_eq_nil_iff.1 hnil).1
    rw [List.length_range', List.length_nil] at hlen
    omega

/-- The loop over a chain stores in the order of the chain. It comes to its end when nothing of the
chain is left; otherwise its cursor is inside of an MDL. -/
theorem receiveMdls_spec (chain : List ReadMdl) :
    ∀ (offset bytesRead : Nat) (arrivals : Nat → List UInt8) (rx : Rx),
      CursorIn chain offset ∨ chain = [] →
      let result := receiveMdls chain offset bytesRead arrivals rx
      ∃ addresses, restOfChain chain offset = addresses ++ restOfChain result.1 result.2.1 ∧
        result.2.2.1 = bytesRead + addresses.length ∧ Rx.Reads addresses rx result.2.2.2 ∧
        (CursorIn result.1 result.2.1 ∨ result.1 = []) := by
  induction chain with
  | nil => exact fun _ _ _ rx _ => ⟨[], rfl, rfl, .refl rx, .inr rfl⟩
  | cons mdl next ih =>
    intro offset bytesRead arrivals rx hcursor
    have hlt : offset < mdl.byteCount := hcursor.resolve_right (List.cons_ne_nil _ _)
    obtain ⟨hle, hreads⟩ := readFifo_spec (mdl.byteCount - offset) (mdl.mappedSystemVa + offset)
      arrivals rx
    simp only [receiveMdls]
    generalize readFifo (mdl.mappedSystemVa + offset) (mdl.byteCount - offset) arrivals rx = read
      at hle hreads
    obtain ⟨n, arrivals', rx'⟩ := read
    -- the bytes that were read, and those that are left of this MDL
    have hsplit : List.range' (mdl.mappedSystemVa + offset) (mdl.byteCount - offset) =
        List.range' (mdl.mappedSystemVa + offset) n ++
          List.range' (mdl.mappedSystemVa + (offset + n)) (mdl.byteCount - (offset + n)) := by
      rw [← Nat.add_assoc, List.range'_append_1]
      congr 1
      omega
    split
    · next hmore =>
      refine ⟨List.range' (mdl.mappedSystemVa + offset) n, ?_, ?_, hreads, .inl ?_⟩
      · rw [restOfChain, restOfChain, hsplit, List.append_assoc]
      · rw [List.length_range']
      · show offset + n < mdl.byteCount
        omega
    · next hend =>
      have hend : offset + n = mdl.byteCount := not_not.1 hend
      have hnext : CursorIn next 0 ∨ next = [] := by
        cases next with
        | nil => exact .inr rfl
        | cons mdl' next => exact .inl mdl'.byteCount_pos
      obtain ⟨addresses, hrest, hbytes, hreads', hcursor'⟩ :=
        ih 0 (bytesRead + n) arrivals' rx' hnext
      refine ⟨List.range' (mdl.mappedSystemVa + offset) n ++ addresses, ?_, ?_,
        hreads.trans hreads', hcursor'⟩
      · rw [restOfChain, hsplit, hend, Nat.sub_self, List.range'_zero, List.append_nil,
          ← restOfChain_zero, hrest, List.append_assoc]
      · rw [hbytes, List.length_append, List.length_range', Nat.add_assoc]

/-! ## What holds in every run -/

/-- The addresses that are still to be stored to. -/
def InterruptContext.remaining (c : InterruptContext) : List Nat :=
  match c.state with
  | .receiving => List.range' c.readContext.currentReadBufferPtr
      (c.readContext.endPtr - c.readContext.currentReadBufferPtr)
  | .sendingSequence | .receivingSequence =>
    restOfChain c.sequenceContext.currentReadMdl c.sequenceContext.currentReadMdlOffset
  | .invalid | .receivingWaitForDone | .receivingSequenceWaitForDone => []

/-- The cursor of a state that receives is not at its end. -/
def InterruptContext.InRange (c : InterruptContext) : Prop :=
  match c.state with
  | .receiving => c.readContext.currentReadBufferPtr < c.readContext.endPtr ∧
      c.readContext.endPtr < pointerRange
  | .sendingSequence | .receivingSequence =>
    CursorIn c.sequenceContext.currentReadMdl c.sequenceContext.currentReadMdlOffset
  | .invalid | .receivingWaitForDone | .receivingSequenceWaitForDone => True

/-- The stores so far and those to come are those of the request. -/
structure Inv (addresses : List Nat) (c : InterruptContext) : Prop where
  stored : c.rx.stored.map Prod.snd = c.rx.taken
  inOrder : c.rx.taken <+: c.rx.received
  before : c.rx.stored.map Prod.fst <+: addresses
  fifo : c.state ≠ .invalid → c.rx.taken ++ c.rx.fifo = c.rx.received
  cursor : c.state ≠ .invalid → c.rx.stored.map Prod.fst ++ c.remaining = addresses
  inRange : c.InRange

namespace Inv

variable {addresses : List Nat} {c c' : InterruptContext}

/-- The lengths of what is stored and of what remains. -/
theorem length_remaining (h : Inv addresses c) (hstate : c.state ≠ .invalid) :
    c.rx.stored.length + c.remaining.length = addresses.length := by
  have hlen := congrArg List.length (h.cursor hstate)
  rwa [List.length_append, List.length_map] at hlen

/-- Nothing remains in the states that wait for the end, and only there. -/
theorem remaining_eq_nil_iff (h : Inv addresses c) (hstate : c.state ≠ .invalid) :
    c.state.isWaitForDone = true ↔ c.remaining = [] := by
  have hrange := h.inRange
  unfold InterruptContext.InRange at hrange
  unfold InterruptContext.remaining TransferState.isWaitForDone
  cases hs : c.state with
  | invalid => exact absurd hs hstate
  | receiving =>
    rw [hs] at hrange
    have hlt := hrange.1
    refine iff_of_false Bool.false_ne_true fun hnil => ?_
    have hlen := congrArg List.length hnil
    rw [List.length_range', List.length_nil] at hlen
    omega
  | receivingWaitForDone => exact iff_of_true rfl rfl
  | sendingSequence =>
    rw [hs] at hrange
    exact iff_of_false Bool.false_ne_true (restOfChain_ne_nil hrange)
  | receivingSequence =>
    rw [hs] at hrange
    exact iff_of_false Bool.false_ne_true (restOfChain_ne_nil hrange)
  | receivingSequenceWaitForDone => exact iff_of_true rfl rfl

/-- The invariant gives the property. -/
theorem sound (h : Inv addresses c) : ReadSound addresses c where
  inOrder := h.inOrder
  stored := h.stored
  contiguous := by
    have htake := List.prefix_iff_eq_take.1 h.before
    rwa [List.length_map] at htake
  inBounds := by
    have hle := h.before.length_le
    rwa [List.length_map] at hle
  waitForDone hstate := by
    have hlen := h.length_remaining hstate
    rw [h.remaining_eq_nil_iff hstate, List.eq_nil_iff_length_eq_zero]
    omega

/-- Bytes are stored at the first of the addresses that remain. -/
theorem reads {read : List Nat} (h : Inv addresses c) (hstate : c.state ≠ .invalid)
    (hreads : Rx.Reads read c.rx c'.rx) (hrest : c.remaining = read ++ c'.remaining)
    (hrange : c'.InRange) : Inv addresses c' := by
  obtain ⟨bytes, arrived, hlen, htaken, hstored, hreceived, hfifo⟩ := hreads.taken
  have hfst : c'.rx.stored.map Prod.fst = c.rx.stored.map Prod.fst ++ read := by
    rw [hstored, List.map_append, List.map_fst_zip (Nat.le_of_eq hlen.symm)]
  have hcursor : c'.rx.stored.map Prod.fst ++ c'.remaining = addresses := by
    rw [hfst, List.append_assoc, ← hrest, h.cursor hstate]
  have hall : c'.rx.taken ++ c'.rx.fifo = c'.rx.received := by
    rw [htaken, List.append_assoc, hfifo, ← List.append_assoc, h.fifo hstate, hreceived]
  constructor
  · rw [hstored, List.map_append, List.map_snd_zip (Nat.le_of_eq hlen), h.stored, htaken]
  · exact ⟨_, hall⟩
  · exact ⟨_, hcursor⟩
  · exact fun _ => hall
  · exact fun _ => hcursor
  · exact hrange

/-- A request that has ended: nothing is stored any more. -/
theorem ended (h : Inv addresses c) (hstate : c'.state = .invalid)
    (hstored : c'.rx.stored = c.rx.stored) (htaken : c'.rx.taken = c.rx.taken)
    (hreceived : c.rx.received <+: c'.rx.received) : Inv addresses c' where
  stored := by rw [hstored, htaken, h.stored]
  inOrder := by
    rw [htaken]
    exact h.inOrder.trans hreceived
  before := by
    rw [hstored]
    exact h.before
  fifo hvalid := absurd hstate hvalid
  cursor hvalid := absurd hstate hvalid
  inRange := by
    rw [InterruptContext.InRange, hstate]
    trivial

/-- Bytes arrive in the FIFO. -/
theorem arrive (h : Inv addresses c) (bytes : List UInt8) :
    Inv addresses { c with rx := c.rx.arrive bytes } := by
  by_cases hstate : c.state = .invalid
  · exact h.ended hstate rfl rfl (List.prefix_append ..)
  · exact h.reads hstate (.arrive c.rx bytes) (List.nil_append _).symm h.inRange

/-- The request's state is given back. -/
theorem reset (h : Inv addresses c) : Inv addresses (resetHardwareAndRequestContext c) :=
  h.ended rfl rfl rfl (List.prefix_refl _)

end Inv

/-! ## The steps -/

/-- The loop over one buffer has as many turns as bytes are left. -/
theorem turns_eq {dataPtr endPtr : Nat} (h : dataPtr < endPtr) (hend : endPtr < pointerRange) :
    turns dataPtr endPtr = endPtr - dataPtr := by
  unfold turns pointerRange at *
  omega

variable {addresses : List Nat} {c : InterruptContext}

theorem inv_receive (h : Inv addresses c) (hstate : c.state = .receiving)
    (arrivals : Nat → List UInt8) : Inv addresses (receive c arrivals) := by
  have hrange := h.inRange
  rw [InterruptContext.InRange, hstate] at hrange
  obtain ⟨hlt, hend⟩ := hrange
  have hvalid : c.state ≠ .invalid := fun hinvalid => by simp [hstate] at hinvalid
  have hrest : c.remaining = List.range' c.readContext.currentReadBufferPtr
      (c.readContext.endPtr - c.readContext.currentReadBufferPtr) := by
    rw [InterruptContext.remaining, hstate]
  obtain ⟨k, hk, hptr, hreads, hended⟩ := receiveBytes_spec
    (turns c.readContext.currentReadBufferPtr c.readContext.endPtr)
    c.readContext.currentReadBufferPtr arrivals c.rx
  simp only [receive]
  generalize receiveBytes (turns c.readContext.currentReadBufferPtr c.readContext.endPtr)
    c.readContext.currentReadBufferPtr arrivals c.rx = result at hptr hreads hended
  obtain ⟨ended, dataPtr, rx⟩ := result
  dsimp only at hptr hreads hended ⊢
  rw [turns_eq hlt hend] at hk hended
  subst dataPtr
  -- the stores of this interrupt, and those that are left
  have hsplit : List.range' c.readContext.currentReadBufferPtr
      (c.readContext.endPtr - c.readContext.currentReadBufferPtr) =
      List.range' c.readContext.currentReadBufferPtr k ++
        List.range' (c.readContext.currentReadBufferPtr + k)
          (c.readContext.endPtr - (c.readContext.currentReadBufferPtr + k)) := by
    rw [List.range'_append_1]
    congr 1
    omega
  cases ended with
  | true =>
    have hall : k = c.readContext.endPtr - c.readContext.currentReadBufferPtr := hended.1 rfl
    refine h.reads hvalid hreads ?_ trivial
    rw [hrest, hall]
    exact (List.append_nil _).symm
  | false =>
    have hmore : k ≠ c.readContext.endPtr - c.readContext.currentReadBufferPtr :=
      fun hall => Bool.false_ne_true (hended.2 hall)
    refine h.reads hvalid hreads ?_ ?_
    · rw [hrest, hsplit]
      simp only [InterruptContext.remaining, Bool.false_eq_true, if_false, hstate]
    · simp only [InterruptContext.InRange, Bool.false_eq_true, if_false, hstate]
      omega

theorem inv_receiveSequence (h : Inv addresses c) (hstate : c.state = .receivingSequence)
    (arrivals : Nat → List UInt8) : Inv addresses (receiveSequence c arrivals) := by
  have hrange := h.inRange
  rw [InterruptContext.InRange, hstate] at hrange
  have hvalid : c.state ≠ .invalid := fun hinvalid => by simp [hstate] at hinvalid
  have hrest : c.remaining = restOfChain c.sequenceContext.currentReadMdl
      c.sequenceContext.currentReadMdlOffset := by
    rw [InterruptContext.remaining, hstate]
  obtain ⟨read, hsplit, -, hreads, hcursor⟩ := receiveMdls_spec c.sequenceContext.currentReadMdl
    c.sequenceContext.currentReadMdlOffset c.sequenceContext.bytesRead arrivals c.rx (.inl hrange)
  simp only [receiveSequence]
  generalize receiveMdls c.sequenceContext.currentReadMdl c.sequenceContext.currentReadMdlOffset
    c.sequenceContext.bytesRead arrivals c.rx = result at hsplit hreads hcursor
  obtain ⟨mdl, offset, bytesRead, rx⟩ := result
  dsimp only at hsplit hreads hcursor ⊢
  rw [hsplit] at hrest
  cases mdl with
  | nil => exact h.reads hvalid hreads hrest trivial
  | cons mdl next =>
    have hin : CursorIn (mdl :: next) offset := hcursor.resolve_right (List.cons_ne_nil _ _)
    refine h.reads hvalid hreads ?_ ?_
    · rw [hrest]
      simp only [InterruptContext.remaining, List.isEmpty_cons, Bool.false_eq_true, if_false,
        hstate]
    · simp only [InterruptContext.InRange, List.isEmpty_cons, Bool.false_eq_true, if_false, hstate]
      exact hin

theorem inv_handleInterrupt (h : Inv addresses c) (i : Interrupt) :
    Inv addresses (handleInterrupt c i) := by
  have hqueued : Inv addresses { c with dpcQueued := true } :=
    { h with fifo := h.fifo, cursor := h.cursor, inRange := h.inRange }
  have herror : Inv addresses { c with errorFlag := true } :=
    { h with fifo := h.fifo, cursor := h.cursor, inRange := h.inRange }
  rw [handleInterrupt]
  split
  · exact h
  · split
    · exact h
    · split
      · exact hqueued
      · split
        · split
          · exact herror
          · exact { herror with
              fifo := herror.fifo, cursor := herror.cursor, inRange := herror.inRange }
        · cases hstate : c.state with
          | invalid => exact h
          | receiving => exact inv_receive h hstate i.arrivals
          | sendingSequence =>
            dsimp only
            split
            · -- the chain of the read is still untouched
              have hin := h.inRange
              have hcursor := h.cursor
              have hfifo := h.fifo
              rw [InterruptContext.InRange, hstate] at hin
              rw [InterruptContext.remaining, hstate] at hcursor
              rw [hstate] at hfifo
              exact { h with
                fifo := fun _ => hfifo nofun
                cursor := fun _ => hcursor nofun
                inRange := hin }
            · exact h
          | receivingSequence => exact inv_receiveSequence h hstate i.arrivals
          | receivingWaitForDone =>
            rw [hstate] at hqueued
            exact hqueued
          | receivingSequenceWaitForDone =>
            rw [hstate] at hqueued
            exact hqueued

theorem inv_onRequestCancel (h : Inv addresses c) : Inv addresses (onRequestCancel c) := by
  rw [onRequestCancel]
  split
  · exact h.reset
  · exact h

theorem inv_onInterruptDpc (h : Inv addresses c) (unmark : Unmark) :
    Inv addresses (onInterruptDpc c unmark) := by
  have hserved : Inv addresses { c with dpcQueued := false } :=
    { h with fifo := h.fifo, cursor := h.cursor, inRange := h.inRange }
  rw [onInterruptDpc]
  split
  · dsimp only
    split
    · cases unmark with
      | success => exact hserved.reset
      | cancelled => exact hserved
      | failed =>
        exact { hserved with
          fifo := hserved.fifo, cursor := hserved.cursor, inRange := hserved.inRange }
    · exact hserved
  · exact h

theorem inv_step (h : Inv addresses c) (a : Action) : Inv addresses (step c a) := by
  cases a with
  | arrive bytes => exact h.arrive bytes
  | interrupt i => exact inv_handleInterrupt h i
  | dpc unmark => exact inv_onInterruptDpc h unmark
  | cancel => exact inv_onRequestCancel h

/-! ## The runs -/

/-- Nothing has arrived, and nothing is stored. -/
theorem inv_idle (addresses : List Nat) : Inv addresses .idle where
  stored := rfl
  inOrder := List.nil_prefix
  before := List.nil_prefix
  fifo hstate := absurd rfl hstate
  cursor hstate := absurd rfl hstate
  inRange := trivial

theorem inv_onRead (buffer : ReadBuffer) (markCancelable : Bool) :
    Inv (List.range' buffer.outputBufferPtr buffer.outputBufferLength)
      (onRead buffer markCancelable) := by
  have hfits := buffer.fits
  simp only [onRead]
  split
  · exact inv_idle _
  · split
    · exact inv_idle _
    · next hlen _ =>
      have hstart : Inv (List.range' buffer.outputBufferPtr buffer.outputBufferLength)
          { InterruptContext.idle with
            state := .receiving
            hasRequest := true
            readContext := ⟨buffer.outputBufferPtr,
              buffer.outputBufferPtr + buffer.outputBufferLength⟩ } :=
        { inv_idle _ with
          fifo := fun _ => rfl
          cursor := fun _ => by
            show List.range' _ (buffer.outputBufferPtr + buffer.outputBufferLength -
              buffer.outputBufferPtr) = _
            rw [Nat.add_sub_cancel_left]
          inRange := ⟨by show buffer.outputBufferPtr < _ + _; omega, hfits⟩ }
      split
      · exact hstart
      · exact hstart.reset

theorem inv_onSequence (readMdl : ReadMdl) (next : List ReadMdl) (start : SequenceStart) :
    Inv (chainAddresses (readMdl :: next)) (onSequence readMdl next start) := by
  simp only [onSequence]
  split
  · exact inv_idle _
  · split
    · exact inv_idle _
    · have hstart : Inv (chainAddresses (readMdl :: next))
          { InterruptContext.idle with
            state := if start.readProgrammed then .receivingSequence else .sendingSequence
            hasRequest := true
            sequenceContext :=
              ⟨readMdl :: next, 0, ((readMdl :: next).map ReadMdl.byteCount).sum, 0⟩ } := by
        cases start.readProgrammed <;>
        exact { inv_idle _ with
          fifo := fun _ => rfl
          cursor := fun _ => restOfChain_zero (readMdl :: next)
          inRange := readMdl.byteCount_pos }
      split
      · exact hstart
      · exact hstart.reset

theorem inv_start (request : Request) : Inv request.addresses request.start := by
  cases request with
  | read buffer markCancelable => exact inv_onRead buffer markCancelable
  | sequence readMdl next start => exact inv_onSequence readMdl next start

/-- A run keeps the invariant: induction on the actions. -/
theorem inv_foldl (actions : List Action) :
    ∀ {c : InterruptContext}, Inv addresses c → Inv addresses (actions.foldl step c) := by
  induction actions with
  | nil => exact id
  | cons a actions ih => exact fun h => ih (inv_step h a)

theorem inv_run (request : Request) (actions : List Action) :
    Inv request.addresses (run request actions) :=
  inv_foldl actions (inv_start request)

/-- **The reads are sound**: for every request and every run, the bytes from the FIFO are stored in
their order and one behind the other, inside the buffer or the chain of MDLs, and the state is
wait-for-done just when all of them are stored. -/
theorem readSound_run (request : Request) (actions : List Action) :
    ReadSound request.addresses (run request actions) :=
  (inv_run request actions).sound

end RpiDrivers.I2c.Reading
