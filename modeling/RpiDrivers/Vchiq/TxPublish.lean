import RpiDrivers.Vchiq.TxSpace

/-!
# Concurrent writers (`slots.c`)

A caller of `VchiqQueueMessageAsync` or `VchiqQueueMultiElementAsync` acquires space and copies
its message while it holds `TxSlotMutex`, then releases the mutex, reads `CurrentTxPos` and
stores what it read in the shared `Slave.TxPos`. Nothing protects the last two steps. Any number
of callers interleave, each acquisition, copy, read and store being one step.

Positions are also counted without reduction modulo `2 ^ 32` (`txTotal`, `pubTotal`), to say
which messages a published position covers and whether it moved backwards. Of each message its
start is kept, and whether all of it was in memory when its caller released the mutex.

- `PublishSound`: the published position covers no unwritten message and never moves backwards.
- `PublishExclusive`: the condition on a step.
- `publishSound_of_exclusive`: **runs that keep to it publish soundly**.
- `published_backwards`: two callers that read in one order and store in the other.
- `element_misplaced`: the second element of a message is copied to the wrong place.
-/

namespace RpiDrivers.Vchiq

open RpiDrivers.Lib

/-! ## Calls -/

/-- What a caller sends: the buffer of `VchiqQueueMessageAsync`, or the elements of
`VchiqQueueMultiElementAsync`. -/
inductive TxPayload
  | buffer (bytes : List UInt8)
  | elements (data : List (List UInt8))

/-- The bytes to send. -/
def TxPayload.bytes : TxPayload → List UInt8
  | .buffer bytes => bytes
  | .elements data => data.flatten

/-- A call. -/
structure TxCall where
  msgId : Nat
  payload : TxPayload

/-- What the memory has to hold for the call's message. -/
def TxCall.frameBytes (c : TxCall) : List UInt8 :=
  encode32 c.msgId ++ encode32 c.payload.bytes.length ++ c.payload.bytes

/-- The copying loop of `VchiqQueueMultiElementAsync`. The pointer is one to headers, so that adding
the size of an element moves it by that many headers. -/
def copyElements (m : ByteMemory) : Nat → List (List UInt8) → ByteMemory
  | _, [] => m
  | msgHeaderPtr, data :: rest =>
    if data.length = 0 then copyElements m msgHeaderPtr rest
    else copyElements (store m msgHeaderPtr data) (msgHeaderPtr + vchiqHeaderSize * data.length) rest

/-- The copy of either routine. -/
def copyPayload (m : ByteMemory) (msgHeaderPtr : Nat) : TxPayload → ByteMemory
  | .buffer bytes => store m msgHeaderPtr bytes
  | .elements data => copyElements m msgHeaderPtr data

/-! ## The machine -/

/-- The caller inside the section, after it has acquired its space. -/
structure Holder where
  call : TxCall
  /-- the address of the message's header -/
  header : Nat
  start : Nat

/-- A message whose section is over. -/
structure Sent where
  start : Nat
  full : Bool
  deriving DecidableEq

/-- A caller between its read of `CurrentTxPos` and its store of `Slave.TxPos`. -/
structure TxRead where
  pos : Nat
  total : Nat

structure PublishState where
  shared : SharedState
  tx : TxState
  /-- the caller that holds `TxSlotMutex` -/
  holder : Option Holder
  /-- the number of callers that have released the mutex but not read `CurrentTxPos` -/
  copied : Nat
  /-- the callers that have read `CurrentTxPos` but not stored it, in the order of their reads -/
  reads : List TxRead
  sent : List Sent
  txTotal : Nat
  pubTotal : Nat

/-- The atomic steps. -/
inductive PublishAction
  /-- acquire the mutex and `VchiqAcquireTxSpace`; the mutex is released when that fails -/
  | acquire (call : TxCall) (stopped : Bool)
  /-- write the header and the payload, release the mutex -/
  | copy
  /-- read `CurrentTxPos` -/
  | read
  /-- the `i`th of the callers that have read stores and signals -/
  | store (i : Nat)
  /-- VC recycles a slot -/
  | recycle (slot : Nat)
  /-- the recycle thread makes a slot available -/
  | replenish

/-- How far a position has moved. -/
def movedBy (old new : Nat) : Nat := (new + ulongSize - old) % ulongSize

/-- What is requested of `VchiqAcquireTxSpace`, a `ULONG`. Nothing compares it with a slot. -/
def TxCall.requestSize (call : TxCall) : Nat :=
  (vchiqHeaderSize + call.payload.bytes.length) % ulongSize

/-- The section up to the acquisition. -/
def acquireStep (s : PublishState) (call : TxCall) (stopped : Bool) : PublishState :=
  let (sh, tx, result) := vchiqAcquireTxSpace s.shared s.tx call.requestSize stopped
  let txTotal := s.txTotal + movedBy s.tx.currentTxPos tx.currentTxPos
  let length := vchiqGetSlotAlignSize call.requestSize
  { s with
    shared := sh
    tx := tx
    txTotal := txTotal
    holder := match result with
      | .ok header => some ⟨call, header, txTotal - length⟩
      | .error _ => none }

/-- The rest of the section. -/
def copyStep (s : PublishState) (h : Holder) : PublishState :=
  let memory := copyPayload (writeHeader s.shared.memory h.header h.call.msgId
    h.call.payload.bytes.length) (h.header + vchiqHeaderSize) h.call.payload
  { s with
    shared := { s.shared with memory := memory }
    holder := none
    copied := s.copied + 1
    sent := s.sent ++ [⟨h.start,
      load memory h.header h.call.frameBytes.length = h.call.frameBytes⟩] }

/-- One step. -/
def publishStep (s : PublishState) : PublishAction → Option PublishState
  | .acquire call stopped => if s.holder.isNone then some (acquireStep s call stopped) else none
  | .copy => s.holder.map (copyStep s)
  | .read =>
    if 0 < s.copied then
      some { s with
        copied := s.copied - 1
        reads := s.reads ++ [⟨s.tx.currentTxPos, s.txTotal⟩] }
    else none
  | .store i =>
    s.reads[i]?.map fun v =>
      { s with
        shared := { s.shared with txPos := v.pos }
        reads := s.reads.eraseIdx i
        pubTotal := v.total }
  | .recycle slot => some { s with shared := requeueSlot s.shared slot }
  | .replenish =>
    if s.tx.recycleTxSlotIndex ≠ s.shared.slotQueueRecycle then
      some { s with tx := vchiqRecycleTxSlot s.tx }
    else none

/-- No call is under way and the whole stream is published. -/
structure PublishState.Initial (s : PublishState) : Prop where
  txPos : s.tx.currentTxPos = s.txTotal % ulongSize
  published : s.shared.txPos = s.pubTotal % ulongSize
  pubTotal : s.pubTotal = s.txTotal
  holder : s.holder = none
  copied : s.copied = 0
  reads : s.reads = []
  sent : s.sent = []

/-- All interleavings of any number of callers. -/
def publishMachine : Machine PublishState PublishAction where
  init := PublishState.Initial
  step := publishStep

/-! ## The property and the condition -/

/-- The published position covers no byte of a message that is not written, and the next step
`s'` does not move it backwards. -/
structure PublishSound (s s' : PublishState) : Prop where
  published : s.shared.txPos = s.pubTotal % ulongSize
  written : ∀ m ∈ s.sent, m.start < s.pubTotal → m.full = true
  writing : ∀ h, s.holder = some h → s.pubTotal ≤ h.start
  forward : s.pubTotal ≤ s'.pubTotal

/-- At most one element is not empty. -/
def TxPayload.Simple : TxPayload → Prop
  | .buffer _ => True
  | .elements data => (data.filter (·.length ≠ 0)).length ≤ 1

/-- The condition: no caller reads `CurrentTxPos` while another holds the mutex, callers store
in the order in which they have read, and a message has at most `VCHIQ_MAX_MSG_SIZE` bytes, in at
most one element that is not empty. -/
def PublishExclusive (s : PublishState) : PublishAction → Prop
  | .acquire call _ => call.payload.bytes.length ≤ vchiqMaxMsgSize
  | .copy => ∀ h, s.holder = some h → h.call.payload.Simple
  | .read => s.holder = none
  | .store i => i = 0
  | _ => True

/-! ## Copying -/

/-- Elements that are all empty are not copied. -/
theorem copyElements_empty :
    ∀ {elements : List (List UInt8)} (m : ByteMemory) (ptr : Nat),
      (∀ e ∈ elements, e.length = 0) → copyElements m ptr elements = m
  | [], _, _, _ => rfl
  | e :: rest, m, ptr, h => by
    rw [copyElements, if_pos (h e (List.mem_cons_self ..))]
    exact copyElements_empty m ptr fun e' he' => h e' (List.mem_cons_of_mem _ he')

/-- **A single element is copied where it belongs.** -/
theorem copyElements_simple :
    ∀ {elements : List (List UInt8)} (m : ByteMemory) (ptr : Nat),
      (elements.filter (·.length ≠ 0)).length ≤ 1 →
        copyElements m ptr elements = store m ptr elements.flatten
  | [], m, ptr, _ => by
    funext x
    simp [copyElements, store]
  | e :: rest, m, ptr, h => by
    by_cases he : e.length = 0
    · rw [copyElements, if_pos he, List.flatten_cons, List.eq_nil_of_length_eq_zero he]
      exact copyElements_simple m ptr (by rwa [List.filter_cons_of_neg (by simpa using he)] at h)
    · have hnone : rest.filter (·.length ≠ 0) = [] := by
        rw [List.filter_cons_of_pos (by simpa using he), List.length_cons] at h
        exact List.eq_nil_of_length_eq_zero (by omega)
      have hrest : ∀ e' ∈ rest, e'.length = 0 := by
        simpa [List.filter_eq_nil_iff] using hnone
      have hflat : rest.flatten = [] :=
        List.flatten_eq_nil_iff.2 fun e' he' => List.eq_nil_of_length_eq_zero (hrest e' he')
      rw [copyElements, if_neg he, copyElements_empty _ _ hrest, List.flatten_cons, hflat,
        List.append_nil]

theorem copyPayload_simple {payload : TxPayload} (h : payload.Simple) (m : ByteMemory) (ptr : Nat) :
    copyPayload m ptr payload = store m ptr payload.bytes := by
  cases payload with
  | buffer bytes => rfl
  | elements data => exact copyElements_simple m ptr h

/-- **A simple message is fully written** when its caller releases the mutex. -/
theorem load_copyPayload {call : TxCall} (h : call.payload.Simple) (m : ByteMemory) (header : Nat) :
    load (copyPayload (writeHeader m header call.msgId call.payload.bytes.length)
      (header + vchiqHeaderSize) call.payload) header call.frameBytes.length = call.frameBytes := by
  have hstore : copyPayload (writeHeader m header call.msgId call.payload.bytes.length)
      (header + vchiqHeaderSize) call.payload = store m header call.frameBytes := by
    rw [copyPayload_simple h, writeHeader]
    exact (congrArg (store · _ _) (store_append m header (encode32 _) (encode32 _))).trans
      (store_append m header (encode32 _ ++ encode32 _) _)
  rw [hstore, load_store_same]

/-! ## Acquiring -/

theorem movedBy_add {old total n : Nat} (h : old = total % ulongSize) (hn : n < ulongSize) :
    movedBy old ((total + n) % ulongSize) = n := by
  simp only [movedBy, h, ulongSize] at *
  omega

/-- `VchiqAcquireTxSpace` moves the position by the padding, if any, and by the message. -/
theorem vchiqAcquireTxSpace_moves {sh : SharedState} {tx : TxState} {requestSize total : Nat}
    (stopped : Bool) (htx : tx.currentTxPos = total % ulongSize)
    (hsize : vchiqGetSlotAlignSize requestSize ≤ vchiqSlotSize) :
    ∃ n < ulongSize, (vchiqAcquireTxSpace sh tx requestSize stopped).2.1.currentTxPos =
        (total + n) % ulongSize ∧
      ((∃ header, (vchiqAcquireTxSpace sh tx requestSize stopped).2.2 = .ok header) →
        vchiqGetSlotAlignSize requestSize ≤ n) := by
  -- the padding
  obtain ⟨k, hk, hpad⟩ : ∃ k ≤ vchiqSlotSize,
      (padTxSlot sh tx (vchiqGetSlotAlignSize requestSize)).2.currentTxPos =
        (total + k) % ulongSize := by
    by_cases hfit : vchiqSlotSize - slotOffset tx.currentTxPos < vchiqGetSlotAlignSize requestSize
    · refine ⟨_, Nat.sub_le _ (slotOffset tx.currentTxPos), ?_⟩
      simp only [padTxSlot, if_pos hfit]
      rw [addPos, htx, Nat.mod_add_mod]
    · refine ⟨0, Nat.zero_le _, ?_⟩
      simp only [padTxSlot, if_neg hfit]
      exact htx
  simp only [vchiqSlotSize] at hk hsize
  simp only [vchiqAcquireTxSpace]
  generalize padTxSlot sh tx (vchiqGetSlotAlignSize requestSize) = padded at hpad
  cases hslot : nextTxSlot padded.1 padded.2 stopped with
  | error e =>
    refine ⟨k, by simp only [ulongSize]; omega, hpad, ?_⟩
    rintro ⟨header, hok⟩
    cases hok
  | ok tx' =>
    have hpos : tx'.currentTxPos = padded.2.currentTxPos := by
      unfold nextTxSlot at hslot
      split at hslot
      · split at hslot
        · cases hslot
        · obtain rfl := Except.ok.inj hslot
          rfl
      · obtain rfl := Except.ok.inj hslot
        rfl
    refine ⟨k + vchiqGetSlotAlignSize requestSize, by simp only [ulongSize]; omega, ?_,
      fun _ => Nat.le_add_left _ _⟩
    show addPos tx'.currentTxPos _ = _
    rw [addPos, hpos, hpad, Nat.mod_add_mod, Nat.add_assoc]

/-- Acquiring space publishes nothing. -/
theorem vchiqAcquireTxSpace_txPos (sh : SharedState) (tx : TxState) (requestSize : Nat)
    (stopped : Bool) : (vchiqAcquireTxSpace sh tx requestSize stopped).1.txPos = sh.txPos := by
  have hpad : (padTxSlot sh tx (vchiqGetSlotAlignSize requestSize)).1.txPos = sh.txPos := by
    simp only [padTxSlot]
    split <;> rfl
  simp only [vchiqAcquireTxSpace]
  split <;> exact hpad

theorem TxCall.alignSize_le {call : TxCall} (h : call.payload.bytes.length ≤ vchiqMaxMsgSize) :
    vchiqGetSlotAlignSize call.requestSize ≤ vchiqSlotSize := by
  have hsize : call.payload.bytes.length ≤ 4088 := h
  rw [requestSize, Nat.mod_eq_of_lt (show 8 + call.payload.bytes.length < 2 ^ 32 by omega),
    vchiqGetSlotAlignSize_eq (show 8 + call.payload.bytes.length + 7 < 2 ^ 32 by omega)]
  show (8 + call.payload.bytes.length + 7) / 8 * 8 ≤ 4096
  omega

/-! ## The invariant -/

/-- The published position, the positions read and the writer's position are in order, no message
that is being written starts before any of those, and all others are written. -/
structure PublishInv (s : PublishState) : Prop where
  txPos : s.tx.currentTxPos = s.txTotal % ulongSize
  published : s.shared.txPos = s.pubTotal % ulongSize
  readPos : ∀ v ∈ s.reads, v.pos = v.total % ulongSize
  ordered : (s.pubTotal :: s.reads.map TxRead.total).Pairwise (· ≤ ·)
  bounded : ∀ t ∈ s.pubTotal :: s.reads.map TxRead.total, t ≤ s.txTotal
  writing : ∀ h, s.holder = some h → ∀ t ∈ s.pubTotal :: s.reads.map TxRead.total, t ≤ h.start
  written : ∀ m ∈ s.sent, m.full = true

theorem publishInv_initial {s : PublishState} (h : s.Initial) : PublishInv s where
  txPos := h.txPos
  published := h.published
  readPos := by simp [h.reads]
  ordered := by simp [h.reads]
  bounded := by simp [h.reads, h.pubTotal]
  writing := by simp [h.holder]
  written := by simp [h.sent]

/-- **Acquiring space** leaves what is read and published behind the new message. -/
theorem PublishInv.acquire {s : PublishState} (h : PublishInv s) {call : TxCall}
    (hsize : call.payload.bytes.length ≤ vchiqMaxMsgSize) (stopped : Bool) :
    PublishInv (acquireStep s call stopped) := by
  obtain ⟨n, hn, hpos, hok⟩ :=
    @vchiqAcquireTxSpace_moves s.shared _ _ _ stopped h.txPos (TxCall.alignSize_le hsize)
  have hshared := vchiqAcquireTxSpace_txPos s.shared s.tx call.requestSize stopped
  unfold acquireStep
  generalize vchiqAcquireTxSpace s.shared s.tx call.requestSize stopped = acquired at *
  have hmoved : movedBy s.tx.currentTxPos acquired.2.1.currentTxPos = n := by
    rw [hpos, movedBy_add h.txPos hn]
  refine { h with
    txPos := by
      show acquired.2.1.currentTxPos = (s.txTotal + movedBy _ _) % ulongSize
      rw [hmoved, hpos]
    published := hshared.trans h.published
    bounded := fun t ht => ?_
    writing := fun holder hholder t ht => ?_ }
  · exact Nat.le_trans (h.bounded t ht) (Nat.le_add_right _ _)
  · have ht' := h.bounded t ht
    cases hresult : acquired.2.2 with
    | error e => simp [hresult] at hholder
    | ok header =>
      have hle := hok ⟨header, hresult⟩
      simp only [hresult, Option.some.injEq] at hholder
      subst hholder
      show t ≤ s.txTotal + movedBy _ _ - _
      rw [hmoved]
      omega

/-- **The end of a section** leaves a message that is fully written. -/
theorem PublishInv.copy {s : PublishState} (h : PublishInv s) {holder : Holder}
    (hsimple : holder.call.payload.Simple) : PublishInv (copyStep s holder) := by
  refine { h with
    writing := nofun
    written := fun m hm => ?_ }
  rcases List.mem_append.1 hm with hm | hm
  · exact h.written m hm
  · obtain rfl := List.mem_singleton.1 hm
    exact decide_eq_true (load_copyPayload hsimple _ _)

/-- **Reading** outside of any section gives the end of what is written. -/
theorem PublishInv.read {s : PublishState} (h : PublishInv s) (hfree : s.holder = none) :
    PublishInv { s with
      copied := s.copied - 1
      reads := s.reads ++ [⟨s.tx.currentTxPos, s.txTotal⟩] } where
  txPos := h.txPos
  published := h.published
  readPos := by
    intro v hv
    rcases List.mem_append.1 hv with hv | hv
    · exact h.readPos v hv
    · obtain rfl := List.mem_singleton.1 hv
      exact h.txPos
  ordered := by
    rw [List.map_append, ← List.cons_append, List.pairwise_append]
    refine ⟨h.ordered, List.pairwise_singleton .., fun t ht t' ht' => ?_⟩
    obtain rfl := List.mem_singleton.1 ht'
    exact h.bounded t ht
  bounded := by
    rw [List.map_append, ← List.cons_append]
    intro t ht
    rcases List.mem_append.1 ht with ht | ht
    · exact h.bounded t ht
    · exact Nat.le_of_eq (List.mem_singleton.1 ht)
  writing := by simp [hfree]
  written := h.written

/-- **Storing** the oldest read moves the published position forward. -/
theorem PublishInv.store {s : PublishState} (h : PublishInv s) {v : TxRead}
    (hv : s.reads[0]? = some v) :
    s.pubTotal ≤ v.total ∧ PublishInv { s with
      shared := { s.shared with txPos := v.pos }
      reads := s.reads.eraseIdx 0
      pubTotal := v.total } := by
  obtain ⟨vs, hreads⟩ : ∃ vs, s.reads = v :: vs := by
    cases hr : s.reads with
    | nil => simp [hr] at hv
    | cons v' vs =>
      obtain rfl : v' = v := by simpa [hr] using hv
      exact ⟨vs, rfl⟩
  obtain ⟨htxPos, hpublished, hreadPos, hordered, hbounded, hwriting, hwritten⟩ := h
  simp only [hreads, List.map_cons] at hreadPos hordered hbounded hwriting
  simp only [hreads, List.eraseIdx_cons_zero]
  obtain ⟨hfirst, hrest⟩ := List.pairwise_cons.1 hordered
  exact ⟨hfirst _ (List.mem_cons_self ..), {
    txPos := htxPos
    published := hreadPos v (List.mem_cons_self ..)
    readPos := fun v' hv' => hreadPos v' (List.mem_cons_of_mem _ hv')
    ordered := hrest
    bounded := fun t ht => hbounded t (List.mem_cons_of_mem _ ht)
    writing := fun holder hholder t ht => hwriting holder hholder t (List.mem_cons_of_mem _ ht)
    written := hwritten }⟩

/-! ## Runs -/

/-- **A step that meets the condition** keeps the invariant and does not move the published
position backwards. -/
theorem publishStep_inv {s s' : PublishState} {a : PublishAction} (h : PublishInv s)
    (hok : PublishExclusive s a) (hstep : publishStep s a = some s') :
    PublishInv s' ∧ s.pubTotal ≤ s'.pubTotal := by
  cases a with
  | acquire call stopped =>
    obtain ⟨-, rfl⟩ := by simpa [publishStep] using hstep
    exact ⟨h.acquire hok stopped, Nat.le_refl _⟩
  | copy =>
    obtain ⟨holder, hholder, rfl⟩ := Option.map_eq_some_iff.1 hstep
    exact ⟨h.copy (hok holder hholder), Nat.le_refl _⟩
  | read =>
    obtain ⟨-, rfl⟩ := by simpa [publishStep] using hstep
    exact ⟨h.read hok, Nat.le_refl _⟩
  | store i =>
    obtain rfl : i = 0 := hok
    obtain ⟨v, hv, rfl⟩ := Option.map_eq_some_iff.1 hstep
    exact (h.store hv).symm
  | recycle slot =>
    obtain rfl := Option.some.inj hstep
    exact ⟨{ h with }, Nat.le_refl _⟩
  | replenish =>
    obtain ⟨-, rfl⟩ := by simpa [publishStep] using hstep
    exact ⟨{ h with }, Nat.le_refl _⟩

/-- **Runs whose steps meet the condition publish soundly**, in every state they reach and at
the step after it. -/
theorem publishSound_of_exclusive {s s' : PublishState} {a : PublishAction}
    (h : publishMachine.Reach PublishExclusive s) (hok : PublishExclusive s a)
    (hstep : publishMachine.step s a = some s') : PublishSound s s' := by
  have hinv : PublishInv s := h.inv (fun _ => publishInv_initial)
    fun _ _ _ hinv hok hstep => (publishStep_inv hinv hok hstep).1
  exact {
    published := hinv.published
    written := fun m hm _ => hinv.written m hm
    writing := fun holder hholder => hinv.writing holder hholder _ (List.mem_cons_self ..)
    forward := (publishStep_inv hinv hok hstep).2 }

/-- The state after the driver's start, with 31 slots from slot 34 on. -/
def PublishState.start : PublishState where
  shared := ⟨fun _ => 0, fun i => 34 + i, 31, 0⟩
  tx := ⟨0, 0, 31, 31⟩
  holder := none
  copied := 0
  reads := []
  sent := []
  txTotal := 0
  pubTotal := 0

theorem PublishState.start_initial : PublishState.start.Initial :=
  ⟨rfl, rfl, rfl, rfl, rfl, rfl, rfl⟩

/-- A message without payload. -/
def emptyCall : TxCall := ⟨5 <<< 24, .buffer []⟩

/-- Messages of three bytes, from a buffer and from the second of two elements. -/
def bufferCall : TxCall := ⟨5 <<< 24, .buffer [1, 2, 3]⟩

def elementsCall : TxCall := ⟨5 <<< 24, .elements [[], [4, 5, 6]]⟩

/-- Two callers have copied their messages and read the position before either of them stores. -/
theorem publishSound_of_exclusive_two :
    ∃ s s', publishMachine.Reach PublishExclusive s ∧ s.reads.map TxRead.pos = [16, 32] ∧
      publishMachine.step s (.store 0) = some s' ∧ s'.shared.txPos = 16 ∧ PublishSound s s' := by
  have h0 : publishMachine.Reach PublishExclusive .start := .init PublishState.start_initial
  have h1 := Machine.Reach.step (a := .acquire bufferCall false) h0
    (by show bufferCall.payload.bytes.length ≤ vchiqMaxMsgSize; decide) rfl
  have h2 := Machine.Reach.step (a := .copy) h1 (by rintro _ ⟨⟩; trivial) rfl
  have h3 := Machine.Reach.step (a := .read) h2 (by rfl) rfl
  have h4 := Machine.Reach.step (a := .acquire elementsCall false) h3
    (by show elementsCall.payload.bytes.length ≤ vchiqMaxMsgSize; decide) rfl
  have h5 := Machine.Reach.step (a := .copy) h4 (by rintro _ ⟨⟩; exact Nat.le_refl 1) rfl
  have h6 := Machine.Reach.step (a := .read) h5 (by rfl) rfl
  exact ⟨_, _, h6, rfl, rfl, rfl, publishSound_of_exclusive (a := .store 0) h6 rfl rfl⟩

/-- **Two callers that read in one order and store in the other**: the second one's position 16 is
published first, and the first one's 8 then moves the published position backwards. -/
theorem published_backwards :
    ∃ s s', publishMachine.Reachable s ∧ publishMachine.step s (.store 0) = some s' ∧
      s.shared.txPos = 16 ∧ s'.shared.txPos = 8 ∧ ¬ PublishSound s s' := by
  refine ⟨_, _, publishMachine.reach_exec_get [.acquire emptyCall false, .copy, .read,
    .acquire emptyCall false, .copy, .read, .store 1] PublishState.start_initial (by rfl), rfl, rfl,
    rfl, fun h => absurd h.forward (by decide)⟩

/-- **The second element of a message is copied to the wrong place**: the message is published
while a byte of it was never written. -/
theorem element_misplaced :
    ((publishMachine.exec .start [.acquire ⟨5 <<< 24, .elements [[1], [2]]⟩ false,
      .copy, .read, .store 0]).map fun s => (s.shared.txPos, s.sent)) =
      some (16, [⟨0, false⟩]) := by
  decide +kernel

end RpiDrivers.Vchiq
