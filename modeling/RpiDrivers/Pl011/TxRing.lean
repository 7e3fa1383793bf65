import RpiDrivers.Lib.Machine
import RpiDrivers.Lib.SpscRing
import RpiDrivers.Lib.TryLock

/-!
# The PL011 TX buffer (`PL011tx.cpp`)

The write callback moves bytes from its caller to a small ring buffer, and
`PL011TxPioFifoCopy` moves them on to the TX FIFO. The ISR, the DPC and the write callback call
it; whoever finds `TxBufferLock` taken turns away. The two sides share nothing but
`TxBufferCount`. Each access to a shared variable, and each byte of a block copy, is one atomic
step, and the flags register may show a full FIFO at any time.

- `TxRing`: the ring, the calls of `PL011TxPioFifoCopy` inside the lock, and the write callback.
- `TxSound`: the bytes sent and the ring's contents are the bytes entered, in order, and what
  the write callback reports is what it has entered.
- `txSound_of_reachable`: **every run is sound**.
-/

namespace RpiDrivers.Pl011

open RpiDrivers.Lib

/-- `PL011_TX_BUFFER_SIZE_BYTES`, the depth of the FIFO -/
def pl011TxBufferSizeBytes : Nat := 16

/-- What `PL011TxPioFifoCopy` returns. -/
inductive TxCopyStatus
  | success
  /-- `STATUS_NO_MORE_FILES`: the buffer and the FIFO are full -/
  | noMoreFiles
  /-- `STATUS_DEVICE_BUSY` -/
  | deviceBusy
  deriving DecidableEq

/-- Where `PL011TxPioFifoCopy` stands while it holds the lock. -/
inductive TxCopyStep
  /-- `txOut = TxBufferOut` -/
  | load
  /-- is a byte pending? -/
  | test
  /-- read the flags register -/
  | flags
  /-- the FIFO is full: read the count for the status -/
  | full
  /-- write `TxBuffer[txOut]` to the data register -/
  | data
  | decrement
  /-- `TxBufferOut = txOut` -/
  | storeOut
  | unlock
  deriving DecidableEq

/-- A call of `PL011TxPioFifoCopy` that holds the lock. -/
structure TxCopy where
  step : TxCopyStep
  /-- Whether the write callback made the call. -/
  byWriter : Bool
  txOut : Nat
  charsTransferred : Nat
  status : TxCopyStatus
  deriving DecidableEq

/-- Where `PL011SerCx2EvtPioTransmitWriteBuffer` stands; `total` is its `totalBytesCopied`. -/
inductive WriteStep
  /-- `totalBytesCopied < Length`? -/
  | test (total : Nat)
  /-- `PL011pTxPioBufferCopy` reads the count and its own `TxBufferIn` -/
  | pending (total : Nat)
  /-- copy byte `i` of `bytesToCopy` -/
  | copy (total txIn bytesToCopy i : Nat)
  /-- `TxBufferIn = txIn` -/
  | storeIn (total txIn bytesCopied : Nat)
  /-- add to `TxBufferCount` -/
  | add (total bytesCopied : Nat)
  /-- call `PL011TxPioFifoCopy` -/
  | fifoCopy (total : Nat)
  /-- that call holds the lock -/
  | inFifoCopy (total : Nat)
  deriving DecidableEq

namespace WriteStep

/-- `totalBytesCopied` -/
def total : WriteStep → Nat
  | test total | pending total | copy total _ _ _ | storeIn total _ _ | add total _
  | fifoCopy total | inFifoCopy total => total

/-- The bytes that `TxBufferIn` shows and the count does not. -/
def notCounted : WriteStep → Nat
  | add _ bytesCopied => bytesCopied
  | _ => 0

/-- The bytes of the block copy under way that are in the ring. -/
def blockCopied : WriteStep → Nat
  | copy _ _ _ i => i
  | storeIn _ _ bytesCopied | add _ bytesCopied => bytesCopied
  | _ => 0

end WriteStep

/-- The transmit context, the calls that hold the lock, and the write callback with its caller's
buffer. `entered` logs the bytes stored in the ring, `sent` those written to the data register,
`accepted` those that the write callback has reported, and `reports`, for each of its calls, what
it has returned and how many bytes it had entered. -/
structure TxRing where
  txBuffer : Nat → UInt8
  txBufferIn : Nat
  txBufferOut : Nat
  /-- `TxBufferCount`, a `LONG` -/
  txBufferCount : Int
  txBufferLock : Bool
  copies : List TxCopy
  writer : Option WriteStep
  /-- the caller's buffer, of `Length` bytes -/
  buffer : List UInt8
  entered : List UInt8
  sent : List UInt8
  accepted : List UInt8
  /-- `entered.length` when the call under way began -/
  enteredBefore : Nat
  reports : List (Nat × Nat)

namespace TxRing

/-- `PL011TxPendingByteCount`: the count as a `ULONG` -/
def pl011TxPendingByteCount (s : TxRing) : Nat :=
  (s.txBufferCount % 4294967296).toNat

/-- The call `c` goes on as `c'`. -/
def goOn (s : TxRing) (c c' : TxCopy) : TxRing :=
  { s with copies := advance s.copies c [c'] }

/-- `InterlockedExchange(&TxBufferLock, 1)`: whether the lock was free, and then the call holds
it. -/
def tryLock (s : TxRing) (byWriter : Bool) : TxRing × Bool :=
  if s.txBufferLock then (s, false)
  else
    ({ s with
      txBufferLock := true
      copies := ⟨.load, byWriter, 0, 0, .success⟩ :: s.copies }, true)

/-- The write callback returns `totalBytesCopied`. -/
def report (s : TxRing) (total : Nat) : TxRing :=
  { s with
    writer := none
    accepted := s.accepted ++ s.buffer.take total
    reports := s.reports ++ [(total, s.entered.length - s.enteredBefore)] }

/-- The writer's call of `PL011TxPioFifoCopy` returns: the loop ends on a full FIFO. -/
def fifoCopyReturned (s : TxRing) (status : TxCopyStatus) : TxRing :=
  match s.writer with
  | some (.inFifoCopy total) =>
    if status = .noMoreFiles then s.report total
    else { s with writer := some (.test total) }
  | _ => s

/-- The next step of `PL011TxPioFifoCopy`; `txff` is the flag that it may read. -/
def runFifoCopy (s : TxRing) (c : TxCopy) (txff : Bool) : TxRing :=
  match c.step with
  | .load => s.goOn c { c with step := .test, txOut := s.txBufferOut }
  | .test =>
    s.goOn c { c with step := if 0 < s.pl011TxPendingByteCount then .flags else .storeOut }
  | .flags => s.goOn c { c with step := if txff then .full else .data }
  | .full =>
    s.goOn c { c with
      step := .storeOut
      status := if c.charsTransferred = 0 ∧ s.pl011TxPendingByteCount = pl011TxBufferSizeBytes
        then .noMoreFiles else .success }
  | .data =>
    { s.goOn c { c with step := .decrement, charsTransferred := c.charsTransferred + 1 } with
      sent := s.sent ++ [s.txBuffer c.txOut] }
  | .decrement =>
    { s.goOn c { c with step := .test, txOut := (c.txOut + 1) % pl011TxBufferSizeBytes } with
      txBufferCount := s.txBufferCount - 1 }
  | .storeOut => { s.goOn c { c with step := .unlock } with txBufferOut := c.txOut }
  | .unlock =>
    let s := { s with txBufferLock := false, copies := advance s.copies c [] }
    if c.byWriter then s.fifoCopyReturned c.status else s

/-- The next step of `PL011SerCx2EvtPioTransmitWriteBuffer`, and of `PL011pTxPioBufferCopy`
inside it; the free bytes are counted in `ULONG` arithmetic. -/
def runWriter (s : TxRing) : WriteStep → TxRing
  | .test total =>
    if total < s.buffer.length then { s with writer := some (.pending total) }
    else s.report total
  | .pending total =>
    let free := (pl011TxBufferSizeBytes + 4294967296 - s.pl011TxPendingByteCount) % 4294967296
    let bytesToCopy := min free (s.buffer.length - total)
    { s with
      writer := some (if bytesToCopy = 0 then .fifoCopy total
        else .copy total s.txBufferIn bytesToCopy 0) }
  | .copy total txIn bytesToCopy i =>
    { s with
      txBuffer := Function.update s.txBuffer
        (chunkIndex pl011TxBufferSizeBytes txIn bytesToCopy i) (s.buffer.getD (total + i) 0)
      entered := s.entered ++ [s.buffer.getD (total + i) 0]
      writer := some (if i + 1 < bytesToCopy then .copy total txIn bytesToCopy (i + 1)
        else .storeIn total (chunkEnd pl011TxBufferSizeBytes txIn bytesToCopy) bytesToCopy) }
  | .storeIn total txIn bytesCopied =>
    { s with txBufferIn := txIn, writer := some (.add total bytesCopied) }
  | .add total bytesCopied =>
    { s with
      txBufferCount := s.txBufferCount + bytesCopied
      writer := some (.fifoCopy (total + bytesCopied)) }
  | .fifoCopy total =>
    match s.tryLock true with
    | (s, true) => { s with writer := some (.inFifoCopy total) }
    | (s, false) => { s with writer := some (.test total) }  -- `STATUS_DEVICE_BUSY`
  | .inFifoCopy _ => s

end TxRing

/-- What can happen next. -/
inductive TxRingAction
  /-- the ISR or the DPC calls `PL011TxPioFifoCopy` -/
  | call
  | fifoCopy (c : TxCopy) (txff : Bool)
  /-- SerCx2 calls the write callback -/
  | writeBuffer (buffer : List UInt8)
  | write (w : WriteStep)

namespace TxRing

def enabled (s : TxRing) : TxRingAction → Prop
  | .call => True
  | .fifoCopy c _ => c ∈ s.copies
  | .writeBuffer _ => s.writer = none
  | .write w => s.writer = some w

instance (s : TxRing) (a : TxRingAction) : Decidable (s.enabled a) := by
  cases a <;> unfold enabled <;> infer_instance

def effect (s : TxRing) : TxRingAction → TxRing
  | .call => (s.tryLock false).1
  | .fifoCopy c txff => s.runFifoCopy c txff
  | .writeBuffer buffer =>
    { s with writer := some (.test 0), buffer := buffer, enteredBefore := s.entered.length }
  | .write w => s.runWriter w

/-- `PL011TxPioTransmitStart`: an empty buffer, whatever its memory holds. -/
def start (txBuffer : Nat → UInt8) : TxRing where
  txBuffer := txBuffer
  txBufferIn := 0
  txBufferOut := 0
  txBufferCount := 0
  txBufferLock := false
  copies := []
  writer := none
  buffer := []
  entered := []
  sent := []
  accepted := []
  enteredBefore := 0
  reports := []

end TxRing

/-- Any interleaving of the callers of `PL011TxPioFifoCopy` with one writer. -/
def txRingMachine : Machine TxRing TxRingAction :=
  .guarded (fun s => ∃ txBuffer, s = TxRing.start txBuffer) TxRing.enabled TxRing.effect

/-! ## Soundness -/

/-- Every byte accepted is sent once and in order, and what is reported is what was entered. -/
structure TxSound (s : TxRing) : Prop where
  /-- What the data register got are the bytes entered, in order. -/
  sent : s.sent <+: s.entered
  /-- What SerCx2 was told of are the bytes entered, but for the call under way. -/
  accepted : s.accepted <+: s.entered ∧ (s.writer = none → s.accepted = s.entered)
  /-- Nothing is lost or duplicated: the ring holds the rest. -/
  pending : s.txBufferLock = false → ∃ count ≤ pl011TxBufferSizeBytes,
    s.sent ++ ringContents pl011TxBufferSizeBytes s.txBuffer s.txBufferOut count = s.entered
  /-- Between two calls of the write callback the count tells how much. -/
  contents : s.txBufferLock = false → s.writer = none →
    s.sent ++ ringContents pl011TxBufferSizeBytes s.txBuffer s.txBufferOut
      s.txBufferCount.toNat = s.accepted
  /-- Each call of the write callback has returned the number of bytes that it had entered. -/
  reports : ∀ p ∈ s.reports, p.1 = p.2
  /-- The assertions of `PL011TxPendingByteCount` and `PL011pTxPioBufferCopy`. -/
  count : 0 ≤ s.txBufferCount ∧ s.txBufferCount ≤ pl011TxBufferSizeBytes

/-- The byte in the FIFO that a call still counts. -/
def TxCopy.stillCounted (c : TxCopy) : Nat :=
  if c.step = .decrement then 1 else 0

/-- A call inside the lock: its index, for `sent` bytes sent so far out of `counted`. -/
def TxCopyOk (txBufferOut sent counted : Nat) (c : TxCopy) : Prop :=
  match c.step with
  | .load | .unlock => txBufferOut = sent % pl011TxBufferSizeBytes
  | .test | .full | .storeOut => c.txOut = sent % pl011TxBufferSizeBytes
  | .flags | .data => c.txOut = sent % pl011TxBufferSizeBytes ∧ sent < counted
  | .decrement => (c.txOut + 1) % pl011TxBufferSizeBytes = sent % pl011TxBufferSizeBytes

theorem TxCopyOk.mono {txBufferOut sent counted counted' : Nat} {c : TxCopy}
    (h : TxCopyOk txBufferOut sent counted c) (hle : counted ≤ counted') :
    TxCopyOk txBufferOut sent counted' c := by
  rcases c with ⟨step, byWriter, txOut, charsTransferred, status⟩
  cases step with
  | flags => exact ⟨h.1, Nat.lt_of_lt_of_le h.2 hle⟩
  | data => exact ⟨h.1, Nat.lt_of_lt_of_le h.2 hle⟩
  | _ => exact h

/-- The write callback: its block fits the ring and lies within the caller's buffer. -/
def WriteOk (length accepted limit : Nat) : WriteStep → Prop
  | .test total | .fifoCopy total | .inFifoCopy total => total ≤ length
  | .pending total => total < length
  | .copy total txIn bytesToCopy i =>
    txIn = (accepted + total) % pl011TxBufferSizeBytes ∧ i < bytesToCopy ∧
      accepted + total + bytesToCopy ≤ limit ∧ total + bytesToCopy ≤ length
  | .storeIn total txIn bytesCopied =>
    txIn = (accepted + total + bytesCopied) % pl011TxBufferSizeBytes ∧ total + bytesCopied ≤ length
  | .add total bytesCopied => total + bytesCopied ≤ length

theorem WriteOk.mono {length accepted limit limit' : Nat} {w : WriteStep}
    (h : WriteOk length accepted limit w) (hle : limit ≤ limit') :
    WriteOk length accepted limit' w := by
  cases w with
  | copy => exact ⟨h.1, h.2.1, h.2.2.1.trans hle, h.2.2.2⟩
  | _ => exact h

namespace TxRing

/-- The writer's `totalBytesCopied`. -/
def writeTotal (s : TxRing) : Nat := s.writer.elim 0 WriteStep.total

/-- The bytes that `TxBufferIn` shows and the count does not. -/
def notCounted (s : TxRing) : Nat := s.writer.elim 0 WriteStep.notCounted

/-- The bytes of the caller's buffer in the ring, or through it. -/
def placed (s : TxRing) : Nat := s.writeTotal + s.writer.elim 0 WriteStep.blockCopied

/-- The bytes that the count has been raised by. -/
def counted (s : TxRing) : Nat := s.accepted.length + s.writeTotal

/-- The bytes that the count has been lowered by. -/
def removed (s : TxRing) : Nat := s.sent.length - total TxCopy.stillCounted s.copies

/-- The invariant of the runs. -/
structure Inv (s : TxRing) : Prop where
  excl : Exclusive s.txBufferLock s.copies
  holds : RingHolds pl011TxBufferSizeBytes s.txBuffer s.entered s.removed
  stillCounted : total TxCopy.stillCounted s.copies ≤ s.sent.length
  le : s.sent.length ≤ s.counted
  count : s.txBufferCount = (s.counted : Int) - s.removed
  inIndex : s.txBufferIn = (s.counted + s.notCounted) % pl011TxBufferSizeBytes
  index : s.txBufferLock = false → s.txBufferOut = s.sent.length % pl011TxBufferSizeBytes
  copy : ∀ c ∈ s.copies, TxCopyOk s.txBufferOut s.sent.length s.counted c
  write : ∀ w, s.writer = some w →
    WriteOk s.buffer.length s.accepted.length (s.removed + pl011TxBufferSizeBytes) w
  sent : s.sent <+: s.entered
  entered : s.entered = s.accepted ++ s.buffer.take s.placed
  fits : s.placed ≤ s.buffer.length
  before : s.writer ≠ none → s.enteredBefore = s.accepted.length
  reports : ∀ p ∈ s.reports, p.1 = p.2

variable {s : TxRing}

theorem inv_start (txBuffer : Nat → UInt8) : (start txBuffer).Inv where
  excl := rfl
  holds := RingHolds.nil _ _
  stillCounted := Nat.zero_le _
  le := Nat.zero_le _
  count := rfl
  inIndex := rfl
  index _ := rfl
  copy _ hc := by cases hc
  write _ hw := by cases hw
  sent := List.prefix_refl _
  entered := rfl
  fits := Nat.zero_le _
  before h := absurd rfl h
  reports _ hp := by cases hp

/-- Everything that is counted is in the ring. -/
theorem Inv.entered_length (h : s.Inv) :
    s.entered.length = s.counted + s.writer.elim 0 WriteStep.blockCopied := by
  rw [h.entered, List.length_append, List.length_take, Nat.min_eq_left h.fits, placed, counted,
    Nat.add_assoc]

/-- Between two calls of the write callback, it has reported everything. -/
theorem Inv.entered_of_idle (h : s.Inv) (hnone : s.writer = none) : s.entered = s.accepted := by
  have hentered := h.entered
  simp only [placed, writeTotal, hnone, Option.elim_none] at hentered
  rwa [List.take_zero, List.append_nil] at hentered

theorem Inv.counted_le (h : s.Inv) : s.counted ≤ s.removed + pl011TxBufferSizeBytes := by
  have hroom := h.holds.room
  have hlength := h.entered_length
  omega

/-- The count is what is counted and not removed. -/
theorem Inv.pendingByteCount (h : s.Inv) :
    s.removed + s.pl011TxPendingByteCount = s.counted := by
  have hle : s.removed ≤ s.counted := (Nat.sub_le _ _).trans h.le
  have hcounted := h.counted_le
  rw [pl011TxPendingByteCount, h.count]
  rw [pl011TxBufferSizeBytes] at hcounted
  omega

/-! ### The calls inside the lock -/

/-- The calls inside the lock change, and `TxBufferOut` with them; no byte moves. -/
theorem Inv.relock (h : s.Inv) {lock : Bool} {copies : List TxCopy} {txOut : Nat}
    (hexcl : Exclusive lock copies)
    (hsum : total TxCopy.stillCounted copies = total TxCopy.stillCounted s.copies)
    (hindex : lock = false → txOut = s.sent.length % pl011TxBufferSizeBytes)
    (hcopy : ∀ c ∈ copies, TxCopyOk txOut s.sent.length s.counted c) :
    { s with txBufferLock := lock, copies := copies, txBufferOut := txOut }.Inv := by
  have hremoved : removed { s with txBufferLock := lock, copies := copies, txBufferOut := txOut } =
      s.removed := by
    rw [removed, removed, hsum]
  exact { h with
    excl := hexcl
    holds := by rw [hremoved]; exact h.holds
    stillCounted := by rw [hsum]; exact h.stillCounted
    count := by rw [hremoved]; exact h.count
    index := hindex
    copy := hcopy
    write := by rw [hremoved]; exact h.write }

/-- A call goes on, and stores no more than `TxBufferOut`. -/
theorem Inv.goOn (h : s.Inv) {c c' : TxCopy} {txOut : Nat} (hc : c ∈ s.copies)
    (hu : c'.stillCounted = c.stillCounted)
    (hok : TxCopyOk txOut s.sent.length s.counted c') :
    { s.goOn c c' with txBufferOut := txOut }.Inv := by
  obtain ⟨hlock, hcopies⟩ := h.excl.eq_single hc
  have hgo : s.goOn c c' = { s with txBufferLock := true, copies := [c'] } := by
    rw [TxRing.goOn, hcopies, advance_single, ← hlock]
  rw [hgo]
  refine h.relock rfl ?_ (fun hfree => by cases hfree) ?_
  · rw [hcopies, total_cons, total_cons, hu]
  · intro d hd
    obtain rfl := List.mem_singleton.1 hd
    exact hok

/-- Who finds the lock free enters. -/
theorem Inv.tryLock (h : s.Inv) (byWriter : Bool) : (s.tryLock byWriter).1.Inv := by
  rw [TxRing.tryLock]
  split_ifs with hlock
  · exact h
  · have hfree : s.txBufferLock = false := Bool.eq_false_iff.2 hlock
    have hcopies : s.copies = [] := by
      have := h.excl
      rw [hfree] at this
      exact this.eq_nil
    rw [hcopies]
    refine h.relock rfl ?_ (fun hfree => by cases hfree) ?_
    · rw [hcopies]; rfl
    · intro d hd
      obtain rfl := List.mem_singleton.1 hd
      exact h.index hfree

/-- The call leaves the lock. -/
theorem Inv.unlock (h : s.Inv) {c : TxCopy} (hc : c ∈ s.copies) (hstep : c.step = .unlock) :
    { s with txBufferLock := false, copies := advance s.copies c [] }.Inv := by
  obtain ⟨-, hcopies⟩ := h.excl.eq_single hc
  have hok := h.copy c hc
  simp only [TxCopyOk, hstep] at hok
  rw [hcopies, advance_single]
  refine h.relock rfl ?_ (fun _ => hok) (fun d hd => by cases hd)
  simp [hcopies, TxCopy.stillCounted, hstep]

/-- The call sends the next byte. -/
theorem Inv.data (h : s.Inv) {c : TxCopy} (hc : c ∈ s.copies) (hstep : c.step = .data)
    (txff : Bool) : (s.runFifoCopy c txff).Inv := by
  obtain ⟨hlock, hcopies⟩ := h.excl.eq_single hc
  have hok := h.copy c hc
  simp only [TxCopyOk, hstep] at hok
  obtain ⟨hout, hlt⟩ := hok
  have hsum : total TxCopy.stillCounted s.copies = 0 := by
    simp [hcopies, TxCopy.stillCounted, hstep]
  have hrun : s.runFifoCopy c txff = { s with
      copies := [{ c with step := .decrement, charsTransferred := c.charsTransferred + 1 }]
      sent := s.sent ++ [s.txBuffer (s.sent.length % pl011TxBufferSizeBytes)] } := by
    simp only [runFifoCopy, hstep, TxRing.goOn, hcopies, advance_single, hout]
  have hremoved : (s.runFifoCopy c txff).removed = s.removed := by
    rw [hrun, removed, removed, hsum]
    simp [TxCopy.stillCounted]
  have hlength := h.entered_length
  have hget := h.holds.getElem? (p := s.sent.length) (Nat.sub_le _ _) (by omega)
  rw [hrun] at hremoved ⊢
  exact { h with
    excl := by rw [hlock]; rfl
    holds := by rw [hremoved]; exact h.holds
    stillCounted := by simp [TxCopy.stillCounted]
    le := by rw [List.length_append]; exact hlt
    count := by rw [hremoved]; exact h.count
    index := fun hfree => by cases hlock.symm.trans hfree
    copy := by
      intro d hd
      obtain rfl := List.mem_singleton.1 hd
      simp only [TxCopyOk, hout, List.length_append, List.length_singleton, Nat.mod_add_mod]
    write := by rw [hremoved]; exact h.write
    sent := by
      have htake := List.take_add_one (l := s.entered) (i := s.sent.length)
      rw [hget, ← List.prefix_iff_eq_take.1 h.sent, Option.toList_some] at htake
      rw [← htake]
      exact List.take_prefix _ _ }

/-- The count shows that the byte is sent. -/
theorem Inv.decrement (h : s.Inv) {c : TxCopy} (hc : c ∈ s.copies) (hstep : c.step = .decrement)
    (txff : Bool) : (s.runFifoCopy c txff).Inv := by
  obtain ⟨hlock, hcopies⟩ := h.excl.eq_single hc
  have hok := h.copy c hc
  simp only [TxCopyOk, hstep] at hok
  have hsum : total TxCopy.stillCounted s.copies = 1 := by
    simp [hcopies, TxCopy.stillCounted, hstep]
  have hrun : s.runFifoCopy c txff = { s with
      copies := [{ c with step := .test, txOut := (c.txOut + 1) % pl011TxBufferSizeBytes }]
      txBufferCount := s.txBufferCount - 1 } := by
    simp only [runFifoCopy, hstep, TxRing.goOn, hcopies, advance_single]
  have hremoved : (s.runFifoCopy c txff).removed = s.removed + 1 := by
    have := h.stillCounted
    rw [hrun]
    simp only [removed, hsum, total_cons, total_nil, TxCopy.stillCounted, reduceCtorEq, if_false]
    omega
  have hle : s.removed + 1 ≤ s.entered.length := by
    have := h.stillCounted
    have := h.sent.length_le
    simp only [removed]
    omega
  rw [hrun] at hremoved ⊢
  exact { h with
    excl := by rw [hlock]; rfl
    holds := by
      rw [hremoved]
      exact h.holds.remove (Nat.le_succ _) hle
    stillCounted := by simp [TxCopy.stillCounted]
    count := by
      rw [hremoved]
      show s.txBufferCount - 1 = (s.counted : Int) - ((s.removed + 1 : Nat) : Int)
      rw [h.count]
      omega
    index := fun hfree => by cases hlock.symm.trans hfree
    copy := by
      intro d hd
      obtain rfl := List.mem_singleton.1 hd
      exact hok
    write := by
      intro w hw
      rw [hremoved]
      exact (h.write w hw).mono (by omega) }

/-! ### The write callback -/

/-- The writer goes on, and only it knows. -/
theorem Inv.writing (h : s.Inv) {w w' : WriteStep} (hw : s.writer = some w)
    (htotal : w'.total = w.total) (hnot : w'.notCounted = w.notCounted)
    (hblock : w'.blockCopied = w.blockCopied)
    (hok : WriteOk s.buffer.length s.accepted.length (s.removed + pl011TxBufferSizeBytes) w') :
    { s with writer := some w' }.Inv := by
  have hwriteTotal : writeTotal { s with writer := some w' } = s.writeTotal := by
    rw [writeTotal, writeTotal, hw]; exact htotal
  have hcounted : counted { s with writer := some w' } = s.counted := by
    rw [counted, counted, hwriteTotal]
  have hnotCounted : notCounted { s with writer := some w' } = s.notCounted := by
    rw [notCounted, notCounted, hw]; exact hnot
  have hplaced : placed { s with writer := some w' } = s.placed := by
    rw [placed, placed, hwriteTotal, hw]
    exact congrArg (s.writeTotal + ·) hblock
  exact { h with
    le := by rw [hcounted]; exact h.le
    count := by rw [hcounted]; exact h.count
    inIndex := by rw [hcounted, hnotCounted]; exact h.inIndex
    copy := by rw [hcounted]; exact h.copy
    write := by
      intro v hv
      obtain rfl := Option.some.inj hv
      exact hok
    entered := by rw [hplaced]; exact h.entered
    fits := by rw [hplaced]; exact h.fits
    before := fun _ => h.before (by simp [hw]) }

/-- The write callback returns the number of bytes that it has entered. -/
theorem Inv.report (h : s.Inv) {w : WriteStep} (hw : s.writer = some w)
    (hnot : w.notCounted = 0) (hblock : w.blockCopied = 0) : (s.report w.total).Inv := by
  have hwriteTotal : s.writeTotal = w.total := by rw [writeTotal, hw]; rfl
  have hplaced : s.placed = w.total := by
    rw [placed, hwriteTotal, hw]; exact congrArg (w.total + ·) hblock
  have hentered := h.entered
  have hfits := h.fits
  rw [hplaced] at hentered hfits
  have hcounted : (s.report w.total).counted = s.counted := by
    simp [counted, writeTotal, TxRing.report, hw, Nat.min_eq_left hfits]
  have hbefore : s.entered.length - s.enteredBefore = w.total := by
    rw [h.before (by simp [hw]), hentered, List.length_append, List.length_take,
      Nat.min_eq_left hfits, Nat.add_sub_cancel_left]
  have hin := h.inIndex
  rw [notCounted, hw, Option.elim_some, hnot] at hin
  exact { h with
    le := by rw [hcounted]; exact h.le
    count := by rw [hcounted]; exact h.count
    inIndex := by rw [hcounted]; exact hin
    copy := by rw [hcounted]; exact h.copy
    write := fun _ hv => by cases hv
    entered := hentered.trans (List.append_nil _).symm
    fits := Nat.zero_le _
    before := fun hv => absurd rfl hv
    reports := by
      intro p hp
      rcases List.mem_append.1 hp with hp | hp
      · exact h.reports p hp
      · rw [List.mem_singleton.1 hp]
        exact hbefore.symm }

/-- The next byte of the caller's buffer reaches the ring. -/
theorem Inv.place (h : s.Inv) {w w' : WriteStep} (hw : s.writer = some w)
    (htotal : w'.total = w.total) (hnot : w'.notCounted = w.notCounted)
    (hblock : w'.blockCopied = w.blockCopied + 1)
    (hroom : s.entered.length < s.removed + pl011TxBufferSizeBytes)
    (hlt : s.placed < s.buffer.length)
    (hok : WriteOk s.buffer.length s.accepted.length (s.removed + pl011TxBufferSizeBytes) w') :
    { s with
      txBuffer := Function.update s.txBuffer (s.entered.length % pl011TxBufferSizeBytes)
        (s.buffer.getD s.placed 0)
      entered := s.entered ++ [s.buffer.getD s.placed 0]
      writer := some w' }.Inv := by
  have hwriteTotal : s.writeTotal = w.total := by rw [writeTotal, hw]; rfl
  have hcounted : s.accepted.length + w'.total = s.counted := by rw [counted, hwriteTotal, htotal]
  have hnotCounted : w'.notCounted = s.notCounted := by rw [notCounted, hw]; exact hnot
  have hplaced : w'.total + w'.blockCopied = s.placed + 1 := by
    rw [placed, hwriteTotal, hw, htotal, hblock]
    rfl
  have hget : s.buffer[s.placed]? = some (s.buffer.getD s.placed 0) := by
    rw [List.getD_eq_getElem?_getD, List.getElem?_eq_getElem hlt]
    rfl
  exact { h with
    holds := h.holds.store hroom _
    le := by
      show s.sent.length ≤ s.accepted.length + w'.total
      rw [hcounted]; exact h.le
    count := by
      show s.txBufferCount = ((s.accepted.length + w'.total : Nat) : Int) - s.removed
      rw [hcounted]; exact h.count
    inIndex := by
      show s.txBufferIn = (s.accepted.length + w'.total + w'.notCounted) % _
      rw [hcounted, hnotCounted]; exact h.inIndex
    copy := by
      show ∀ c ∈ s.copies, TxCopyOk _ _ (s.accepted.length + w'.total) c
      rw [hcounted]; exact h.copy
    write := by
      intro v hv
      obtain rfl := Option.some.inj hv
      exact hok
    sent := h.sent.trans (List.prefix_append _ _)
    entered := by
      show _ = s.accepted ++ s.buffer.take (w'.total + w'.blockCopied)
      rw [hplaced, List.take_add_one, ← List.append_assoc, ← h.entered, hget, Option.toList_some]
    fits := by
      show w'.total + w'.blockCopied ≤ _
      rw [hplaced]; exact hlt
    before := fun _ => h.before (by simp [hw]) }

/-- One byte of a block copy. -/
theorem Inv.copyByte (h : s.Inv) {total txIn bytesToCopy i : Nat}
    (hw : s.writer = some (.copy total txIn bytesToCopy i)) :
    (s.runWriter (.copy total txIn bytesToCopy i)).Inv := by
  obtain ⟨rfl, hi, hroom, hfits⟩ := h.write _ hw
  have hcounted : s.counted = s.accepted.length + total := by rw [counted, writeTotal, hw]; rfl
  have hplaced : s.placed = total + i := by rw [placed, writeTotal, hw]; rfl
  have hlength : s.entered.length = s.counted + i := by rw [h.entered_length, hw]; rfl
  have hblock : bytesToCopy ≤ pl011TxBufferSizeBytes := by
    have : s.removed ≤ s.counted := (Nat.sub_le _ _).trans h.le
    omega
  have hindex : chunkIndex pl011TxBufferSizeBytes
      ((s.accepted.length + total) % pl011TxBufferSizeBytes) bytesToCopy i =
      s.entered.length % pl011TxBufferSizeBytes := by
    rw [chunkIndex_eq hi hblock, hlength, hcounted]
  rw [runWriter, hindex, ← hplaced]
  split_ifs with hmore
  · exact h.place hw rfl rfl rfl (by omega) (by omega) ⟨rfl, hmore, hroom, hfits⟩
  · obtain rfl : i + 1 = bytesToCopy := by omega
    exact h.place hw rfl rfl rfl (by omega) (by omega) ⟨chunkEnd_eq (by decide) hblock, hfits⟩

/-- `TxBufferIn` shows the block, but the count does not yet. -/
theorem Inv.storeIn (h : s.Inv) {total txIn bytesCopied : Nat}
    (hw : s.writer = some (.storeIn total txIn bytesCopied)) :
    (s.runWriter (.storeIn total txIn bytesCopied)).Inv := by
  obtain ⟨rfl, hfits⟩ := h.write _ hw
  have hcounted : s.counted = s.accepted.length + total := by rw [counted, writeTotal, hw]; rfl
  have hplaced : s.placed = total + bytesCopied := by rw [placed, writeTotal, hw]; rfl
  exact { h with
    le := by have := h.le; rwa [hcounted] at this
    count := by have := h.count; rwa [hcounted] at this
    inIndex := rfl
    copy := by have := h.copy; rwa [hcounted] at this
    write := by
      intro v hv
      obtain rfl := Option.some.inj hv
      exact hfits
    entered := by have := h.entered; rwa [hplaced] at this
    fits := hfits
    before := fun _ => h.before (by simp [hw]) }

/-- The count shows the block. -/
theorem Inv.add (h : s.Inv) {total bytesCopied : Nat}
    (hw : s.writer = some (.add total bytesCopied)) :
    (s.runWriter (.add total bytesCopied)).Inv := by
  have hfits : total + bytesCopied ≤ s.buffer.length := h.write _ hw
  have hcounted : s.counted = s.accepted.length + total := by rw [counted, writeTotal, hw]; rfl
  have hplaced : s.placed = total + bytesCopied := by rw [placed, writeTotal, hw]; rfl
  have hcounted' : counted (s.runWriter (.add total bytesCopied)) = s.counted + bytesCopied := by
    rw [hcounted, Nat.add_assoc]; rfl
  have hin : s.txBufferIn = (s.counted + bytesCopied) % pl011TxBufferSizeBytes := by
    have := h.inIndex
    rwa [notCounted, hw] at this
  rw [runWriter] at hcounted' ⊢
  exact { h with
    le := by rw [hcounted']; exact h.le.trans (Nat.le_add_right _ _)
    count := by
      have hcount := h.count
      rw [hcounted']
      show s.txBufferCount + (bytesCopied : Int) = ((s.counted + bytesCopied : Nat) : Int) - s.removed
      omega
    inIndex := by rw [hcounted']; exact hin
    copy := by
      intro c hc
      rw [hcounted']
      exact (h.copy c hc).mono (Nat.le_add_right _ _)
    write := by
      intro v hv
      obtain rfl := Option.some.inj hv
      exact hfits
    entered := by have := h.entered; rwa [hplaced] at this
    fits := hfits
    before := fun _ => h.before (by simp [hw]) }

/-! ### The steps and the runs -/

/-- The writer's call of `PL011TxPioFifoCopy` is over. -/
theorem Inv.fifoCopyReturned (h : s.Inv) (status : TxCopyStatus) :
    (s.fifoCopyReturned status).Inv := by
  rw [TxRing.fifoCopyReturned]
  split
  · next total hw =>
    split_ifs
    · exact h.report hw rfl rfl
    · exact h.writing hw rfl rfl rfl (h.write (.inFifoCopy total) hw)
  · exact h

theorem Inv.fifoCopy (h : s.Inv) {c : TxCopy} (hc : c ∈ s.copies) (txff : Bool) :
    (s.runFifoCopy c txff).Inv := by
  have hok := h.copy c hc
  rcases hstep : c.step with _ | _ | _ | _ | _ | _ | _ | _ <;>
    simp only [TxCopyOk, hstep] at hok
  case load =>
    simp only [runFifoCopy, hstep]
    exact h.goOn hc (by simp [TxCopy.stillCounted, hstep]) hok
  case test =>
    simp only [runFifoCopy, hstep]
    split_ifs with hsome
    · have hpending := h.pendingByteCount
      have hall : s.removed = s.sent.length := by
        simp [removed, (h.excl.eq_single hc).2, TxCopy.stillCounted, hstep]
      exact h.goOn hc (by simp [TxCopy.stillCounted, hstep]) ⟨hok, by omega⟩
    · exact h.goOn hc (by simp [TxCopy.stillCounted, hstep]) hok
  case flags =>
    simp only [runFifoCopy, hstep]
    split_ifs
    · exact h.goOn hc (by simp [TxCopy.stillCounted, hstep]) hok.1
    · exact h.goOn hc (by simp [TxCopy.stillCounted, hstep]) hok
  case full =>
    simp only [runFifoCopy, hstep]
    exact h.goOn hc (by simp [TxCopy.stillCounted, hstep]) hok
  case data => exact h.data hc hstep txff
  case decrement => exact h.decrement hc hstep txff
  case storeOut =>
    simp only [runFifoCopy, hstep]
    exact h.goOn hc (by simp [TxCopy.stillCounted, hstep]) hok
  case unlock =>
    simp only [runFifoCopy, hstep]
    split_ifs
    · exact (h.unlock hc hstep).fifoCopyReturned _
    · exact h.unlock hc hstep

/-- The free bytes, in `ULONG` arithmetic. -/
theorem Inv.free (h : s.Inv) :
    s.counted + (pl011TxBufferSizeBytes + 4294967296 - s.pl011TxPendingByteCount) % 4294967296 =
      s.removed + pl011TxBufferSizeBytes := by
  have hpending := h.pendingByteCount
  have hcounted := h.counted_le
  rw [pl011TxBufferSizeBytes] at hcounted ⊢
  omega

theorem Inv.runWriter (h : s.Inv) {w : WriteStep} (hw : s.writer = some w) :
    (s.runWriter w).Inv := by
  have hok := h.write w hw
  cases w with
  | test total =>
    rw [TxRing.runWriter]
    split_ifs with hmore
    · exact h.writing hw rfl rfl rfl hmore
    · exact h.report hw rfl rfl
  | pending total =>
    rw [TxRing.runWriter]
    split_ifs with hnone
    · exact h.writing hw rfl rfl rfl (Nat.le_of_lt hok)
    · have hcounted : s.counted = s.accepted.length + total := by
        rw [counted, writeTotal, hw]; rfl
      have hfree := h.free
      have hin : s.txBufferIn = (s.accepted.length + total) % pl011TxBufferSizeBytes := by
        have := h.inIndex
        rwa [notCounted, hw, hcounted] at this
      refine h.writing hw rfl rfl rfl ⟨hin, Nat.pos_of_ne_zero hnone, ?_, ?_⟩
      · omega
      · omega
  | copy total txIn bytesToCopy i => exact h.copyByte hw
  | storeIn total txIn bytesCopied => exact h.storeIn hw
  | add total bytesCopied => exact h.add hw
  | fifoCopy total =>
    by_cases hlock : s.txBufferLock = true
    · have hbusy : s.runWriter (.fifoCopy total) = { s with writer := some (.test total) } := by
        simp [TxRing.runWriter, TxRing.tryLock, hlock]
      rw [hbusy]
      exact h.writing hw rfl rfl rfl hok
    · have henter : s.runWriter (.fifoCopy total) =
          ({ s with writer := some (.inFifoCopy total) }.tryLock true).1 := by
        simp [TxRing.runWriter, TxRing.tryLock, hlock]
      rw [henter]
      have hwait : ({ s with writer := some (.inFifoCopy total) } : TxRing).Inv :=
        h.writing hw rfl rfl rfl hok
      exact hwait.tryLock true
  | inFifoCopy total => exact h

/-- **The invariant of the runs.** -/
theorem inv_of_reachable (h : txRingMachine.Reachable s) : s.Inv := by
  refine Machine.Reach.inv_guarded ?_ (fun s a hinv _ hen => ?_) h
  · rintro s ⟨txBuffer, rfl⟩
    exact inv_start txBuffer
  · cases a with
    | call => exact hinv.tryLock false
    | fifoCopy c txff => exact hinv.fifoCopy hen txff
    | writeBuffer buffer =>
      have hnone : s.writer = none := hen
      have hcounted : s.counted = s.accepted.length := by rw [counted, writeTotal, hnone]; rfl
      have hentered := hinv.entered_of_idle hnone
      exact { hinv with
        le := by have := hinv.le; rwa [hcounted] at this
        count := by have := hinv.count; rwa [hcounted] at this
        inIndex := by have := hinv.inIndex; rwa [hcounted, notCounted, hnone] at this
        copy := by have := hinv.copy; rwa [hcounted] at this
        write := by
          intro w hw
          obtain rfl := Option.some.inj hw
          exact Nat.zero_le _
        entered := hentered.trans (List.append_nil _).symm
        fits := Nat.zero_le _
        before := fun _ => congrArg List.length hentered }
    | write w => exact hinv.runWriter hen

/-- While the lock is free, every byte sent is off the count, and the ring holds the rest. -/
theorem Inv.pending (h : s.Inv) (hfree : s.txBufferLock = false) :
    s.removed = s.sent.length ∧
      s.sent ++ ringContents pl011TxBufferSizeBytes s.txBuffer s.txBufferOut
        (s.entered.length - s.sent.length) = s.entered := by
  have hexcl := h.excl
  rw [hfree] at hexcl
  have hremoved : s.removed = s.sent.length := by
    rw [removed, hexcl.eq_nil, total_nil, Nat.sub_zero]
  have hcontents := h.holds.append_contents
  rw [hremoved, ← List.prefix_iff_eq_take.1 h.sent] at hcontents
  rw [h.index hfree]
  exact ⟨hremoved, hcontents⟩

/-- What the invariant says of the bytes. -/
theorem Inv.sound (h : s.Inv) : TxSound s where
  sent := h.sent
  accepted := ⟨⟨_, h.entered.symm⟩, fun hnone => (h.entered_of_idle hnone).symm⟩
  pending hfree := by
    obtain ⟨hremoved, hcontents⟩ := h.pending hfree
    exact ⟨_, by have := h.holds.room; omega, hcontents⟩
  contents hfree hnone := by
    obtain ⟨hremoved, hcontents⟩ := h.pending hfree
    have hentered := h.entered_of_idle hnone
    have hcounted : s.counted = s.accepted.length := by rw [counted, writeTotal, hnone]; rfl
    have hcount : s.txBufferCount.toNat = s.entered.length - s.sent.length := by
      rw [h.count, hcounted, hremoved, hentered]
      omega
    rw [hcount, hcontents, hentered]
  reports := h.reports
  count := by
    have hle : s.removed ≤ s.counted := (Nat.sub_le _ _).trans h.le
    have hcounted := h.counted_le
    have hcount := h.count
    omega

end TxRing

/-- **Every byte accepted from SerCx2 is sent once and in order, and every call of the write
callback reports what it has entered**, in any interleaving of the callers of
`PL011TxPioFifoCopy` with the writer. -/
theorem txSound_of_reachable {s : TxRing} (h : txRingMachine.Reachable s) : TxSound s :=
  (TxRing.inv_of_reachable h).sound

/-- A call of the write callback with so many bytes, up to where it has counted them. -/
def enterRun (buffer : List UInt8) (txIn : Nat) : List TxRingAction :=
  let n := buffer.length
  [TxRingAction.writeBuffer buffer, .write (.test 0), .write (.pending 0)] ++
    (List.range n).map (fun i => .write (.copy 0 txIn n i)) ++
    [.write (.storeIn 0 ((txIn + n) % pl011TxBufferSizeBytes) n), .write (.add 0 n)]

/-- A call of `PL011TxPioFifoCopy` that moves so many bytes, which are all. -/
def moveRun (byWriter : Bool) (txOut n : Nat) : List TxRingAction :=
  let next (step : TxCopyStep) (i chars : Nat) : TxRingAction :=
    .fifoCopy ⟨step, byWriter, (txOut + i) % pl011TxBufferSizeBytes, chars, .success⟩ false
  .fifoCopy ⟨.load, byWriter, 0, 0, .success⟩ false ::
    (List.range n).flatMap (fun i =>
      [next .test i i, next .flags i i, next .data i i, next .decrement i (i + 1)]) ++
    [next .test n n, next .storeOut n n, next .unlock n n]

/-- Twelve bytes are written, and the writer moves them to the FIFO. Eight more go around the end of
the ring, and the ISR moves them while the writer finds the lock taken. -/
def txWrapRun : List TxRingAction :=
  enterRun [1, 2, 3, 4, 5, 6, 7, 8, 9, 10, 11, 12] 0 ++ [.write (.fifoCopy 12)] ++
    moveRun true 0 12 ++ [.write (.test 12)] ++ enterRun [13, 14, 15, 16, 17, 18, 19, 20] 12 ++
    [.call, .write (.fifoCopy 8), .write (.test 8)] ++ moveRun false 12 8

theorem txSound_of_reachable_wrap :
    ∃ s, txRingMachine.Reachable s ∧ s.txBufferOut = 4 ∧
      s.sent = (List.range' 1 20).map UInt8.ofNat ∧ s.accepted = s.sent ∧
      s.reports = [(12, 12), (8, 8)] ∧ TxSound s := by
  obtain ⟨s, hr, hs⟩ := txRingMachine.reach_exec_any txWrapRun (s := TxRing.start fun _ => 0)
    (p := fun s => s.txBufferOut = 4 ∧ s.sent = (List.range' 1 20).map UInt8.ofNat ∧
      s.accepted = s.sent ∧ s.reports = [(12, 12), (8, 8)]) ⟨_, rfl⟩ (by decide +kernel)
  obtain ⟨hout, hsent, haccepted, hreports⟩ := of_decide_eq_true hs
  exact ⟨s, hr, hout, hsent, haccepted, hreports, txSound_of_reachable hr⟩

end RpiDrivers.Pl011
