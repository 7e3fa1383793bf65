import RpiDrivers.Lib.SpscRing
import RpiDrivers.Lib.TryLock
import RpiDrivers.Pl011.RxNotify

/-!
# The PL011 RX buffer (`pl011rx.cpp`)

`PL011RxPioFifoCopy` moves bytes from the RX FIFO to a ring buffer. The ISR, the DPC and the
read callback call it; whoever finds `RxBufferLock` taken turns away. The read callback alone
moves bytes on to the caller. The two sides share nothing but `RxBufferCount`. Each access to a
shared variable, and each byte of a block copy, is one atomic step.

- `RxRing`: the ring, the calls of `PL011RxPioFifoCopy` inside the lock, and the read callback.
- `RxSound`: the bytes handed on and the ring's contents are the bytes taken from the FIFO, in
  order, and the indices agree with the count whenever the lock is free.
- `rxSound_of_reachable`: **every run is sound**.
- `ring_equation_broken`: the reader stores `RxBufferOut` before it corrects the count, so
  between the two the indices differ by the bytes it is about to subtract.
-/

namespace RpiDrivers.Pl011

open RpiDrivers.Lib

/-- What `PL011RxPioFifoCopy` returns. -/
inductive RxCopyStatus
  | success
  /-- `STATUS_NO_MORE_FILES` -/
  | noMoreFiles
  /-- `STATUS_DEVICE_BUSY` -/
  | deviceBusy
  /-- `STATUS_BUFFER_OVERFLOW` -/
  | bufferOverflow
  deriving DecidableEq

/-- Where `PL011RxPioFifoCopy` stands while it holds the lock. -/
inductive RxCopyStep
  /-- `rxIn = RxBufferIn` -/
  | load
  /-- is there room in the buffer? -/
  | test
  /-- read the flags register -/
  | flags
  /-- the FIFO is empty: read the count for the status -/
  | empty
  /-- read the data register into `RxBuffer[rxIn]` -/
  | data
  | increment
  /-- `RxBufferIn = rxIn` -/
  | storeIn
  | overflow
  | unlock
  deriving DecidableEq

/-- A call of `PL011RxPioFifoCopy` that holds the lock. -/
structure RxCopy where
  step : RxCopyStep
  /-- Whether the read callback made the call. -/
  byReader : Bool
  rxIn : Nat
  charsTransferred : Nat
  status : RxCopyStatus
  deriving DecidableEq

/-- Where `PL011SerCx2EvtPioReceiveReadBuffer` stands; `total` is its `totalBytesCopied`. -/
inductive ReadStep
  /-- `totalBytesCopied < Length`? -/
  | test (total : Nat)
  /-- `PL011pRxPioBufferCopy` reads the count and its own `RxBufferOut` -/
  | pending (total : Nat)
  /-- copy byte `i` of `bytesToCopy` -/
  | copy (total rxOut bytesToCopy i : Nat)
  /-- `RxBufferOut = rxOut` -/
  | storeOut (total rxOut bytesCopied : Nat)
  /-- subtract from `RxBufferCount` -/
  | subtract (total bytesCopied : Nat)
  /-- call `PL011RxPioFifoCopy` -/
  | fifoCopy (total : Nat)
  /-- that call holds the lock -/
  | inFifoCopy (total : Nat)
  deriving DecidableEq

namespace ReadStep

/-- `totalBytesCopied` -/
def total : ReadStep → Nat
  | test total | pending total | copy total _ _ _ | storeOut total _ _ | subtract total _
  | fifoCopy total | inFifoCopy total => total

/-- The bytes that are out of the ring and still counted. -/
def stillCounted : ReadStep → Nat
  | subtract _ bytesCopied => bytesCopied
  | _ => 0

/-- The bytes of the block copy under way that are in the caller's buffer. -/
def blockCopied : ReadStep → Nat
  | copy _ _ _ i => i
  | storeOut _ _ bytesCopied | subtract _ bytesCopied => bytesCopied
  | _ => 0

end ReadStep

/-- The receive context, the RX FIFO, the calls that hold the lock, and the read callback with
its caller's buffer. `taken` logs the bytes taken from the FIFO, `handed` those that the read
callback has returned. -/
structure RxRing where
  fifo : List UInt8
  rxBuffer : Nat → UInt8
  rxBufferIn : Nat
  rxBufferOut : Nat
  /-- `RxBufferCount`, a `LONG` -/
  rxBufferCount : Int
  rxBufferLock : Bool
  copies : List RxCopy
  reader : Option ReadStep
  callerBuffer : Nat → UInt8
  /-- the caller's `Length` -/
  length : Nat
  taken : List UInt8
  handed : List UInt8

namespace RxRing

/-- `PL011RxPendingByteCount`: the count as a `ULONG` -/
def pl011RxPendingByteCount (s : RxRing) : Nat :=
  (s.rxBufferCount % 4294967296).toNat

/-- The call `c` goes on as `c'`. -/
def goOn (s : RxRing) (c c' : RxCopy) : RxRing :=
  { s with copies := advance s.copies c [c'] }

/-- `InterlockedExchange(&RxBufferLock, 1)`: whether the lock was free, and then the call holds
it. -/
def tryLock (s : RxRing) (byReader : Bool) : RxRing × Bool :=
  if s.rxBufferLock then (s, false)
  else
    ({ s with
      rxBufferLock := true
      copies := ⟨.load, byReader, 0, 0, .success⟩ :: s.copies }, true)

/-- The reader's call of `PL011RxPioFifoCopy` returns: the loop ends on an empty FIFO. -/
def fifoCopyReturned (s : RxRing) (status : RxCopyStatus) : RxRing :=
  match s.reader with
  | some (.inFifoCopy total) =>
    if status = .noMoreFiles then
      { s with reader := none, handed := s.handed ++ (List.range total).map s.callerBuffer }
    else { s with reader := some (.test total) }
  | _ => s

/-- The next step of `PL011RxPioFifoCopy`. -/
def runFifoCopy (s : RxRing) (c : RxCopy) : RxRing :=
  match c.step with
  | .load => s.goOn c { c with step := .test, rxIn := s.rxBufferIn }
  | .test =>
    s.goOn c { c with
      step := if s.pl011RxPendingByteCount < pl011RxBufferSizeBytes then .flags else .storeIn }
  | .flags => s.goOn c { c with step := if s.fifo = [] then .empty else .data }
  | .empty =>
    s.goOn c { c with
      step := .storeIn
      status := if c.charsTransferred = 0 ∧ s.pl011RxPendingByteCount = 0 then .noMoreFiles
        else .success }
  | .data =>
    { s.goOn c { c with step := .increment, charsTransferred := c.charsTransferred + 1 } with
      rxBuffer := Function.update s.rxBuffer c.rxIn (s.fifo.headD 0)
      fifo := s.fifo.tail
      taken := s.taken ++ s.fifo.head?.toList }
  | .increment =>
    { s.goOn c { c with step := .test, rxIn := (c.rxIn + 1) % pl011RxBufferSizeBytes } with
      rxBufferCount := s.rxBufferCount + 1 }
  | .storeIn => { s.goOn c { c with step := .overflow } with rxBufferIn := c.rxIn }
  | .overflow =>
    s.goOn c { c with
      step := .unlock
      status := if pl011RxBufferSizeBytes ≤ s.pl011RxPendingByteCount then .bufferOverflow
        else c.status }
  | .unlock =>
    let s := { s with rxBufferLock := false, copies := advance s.copies c [] }
    if c.byReader then s.fifoCopyReturned c.status else s

/-- The next step of `PL011SerCx2EvtPioReceiveReadBuffer`, and of `PL011pRxPioBufferCopy` inside
it. -/
def runReader (s : RxRing) : ReadStep → RxRing
  | .test total =>
    if total < s.length then { s with reader := some (.pending total) }
    else { s with reader := none, handed := s.handed ++ (List.range total).map s.callerBuffer }
  | .pending total =>
    let bytesToCopy := min s.pl011RxPendingByteCount (s.length - total)
    { s with
      reader := some (if bytesToCopy = 0 then .fifoCopy total
        else .copy total s.rxBufferOut bytesToCopy 0) }
  | .copy total rxOut bytesToCopy i =>
    { s with
      callerBuffer := Function.update s.callerBuffer (total + i)
        (s.rxBuffer (chunkIndex pl011RxBufferSizeBytes rxOut bytesToCopy i))
      reader := some (if i + 1 < bytesToCopy then .copy total rxOut bytesToCopy (i + 1)
        else .storeOut total (chunkEnd pl011RxBufferSizeBytes rxOut bytesToCopy) bytesToCopy) }
  | .storeOut total rxOut bytesCopied =>
    { s with rxBufferOut := rxOut, reader := some (.subtract total bytesCopied) }
  | .subtract total bytesCopied =>
    { s with
      rxBufferCount := s.rxBufferCount - bytesCopied
      reader := some (.fifoCopy (total + bytesCopied)) }
  | .fifoCopy total =>
    match s.tryLock true with
    | (s, true) => { s with reader := some (.inFifoCopy total) }
    | (s, false) => { s with reader := some (.test total) }  -- `STATUS_DEVICE_BUSY`
  | .inFifoCopy _ => s

end RxRing

/-- What can happen next. -/
inductive RxRingAction
  /-- a byte arrives in the RX FIFO -/
  | receive (b : UInt8)
  /-- the ISR or the DPC calls `PL011RxPioFifoCopy` -/
  | call
  | fifoCopy (c : RxCopy)
  /-- SerCx2 calls the read callback -/
  | readBuffer (length : Nat) (buffer : Nat → UInt8)
  | read (r : ReadStep)

namespace RxRing

def enabled (s : RxRing) : RxRingAction → Prop
  | .receive _ | .call => True
  | .fifoCopy c => c ∈ s.copies
  | .readBuffer _ _ => s.reader = none
  | .read r => s.reader = some r

instance (s : RxRing) (a : RxRingAction) : Decidable (s.enabled a) := by
  cases a <;> unfold enabled <;> infer_instance

def effect (s : RxRing) : RxRingAction → RxRing
  | .receive b => { s with fifo := s.fifo ++ [b] }
  | .call => (s.tryLock false).1
  | .fifoCopy c => s.runFifoCopy c
  | .readBuffer length buffer =>
    { s with reader := some (.test 0), length := length, callerBuffer := buffer }
  | .read r => s.runReader r

/-- `PL011RxPioReceiveStart`: an empty buffer, whatever its memory holds. -/
def start (fifo : List UInt8) (rxBuffer : Nat → UInt8) : RxRing where
  fifo := fifo
  rxBuffer := rxBuffer
  rxBufferIn := 0
  rxBufferOut := 0
  rxBufferCount := 0
  rxBufferLock := false
  copies := []
  reader := none
  callerBuffer := fun _ => 0
  length := 0
  taken := []
  handed := []

end RxRing

/-- Any interleaving of the callers of `PL011RxPioFifoCopy` with one reader. -/
def rxRingMachine : Machine RxRing RxRingAction :=
  .guarded (fun s => ∃ fifo rxBuffer, s = RxRing.start fifo rxBuffer) RxRing.enabled RxRing.effect

/-! ## Soundness -/

namespace RxRing

/-- The reader's `totalBytesCopied`. -/
def readTotal (s : RxRing) : Nat := s.reader.elim 0 ReadStep.total

/-- The bytes out of the ring that the count still includes. -/
def stillCounted (s : RxRing) : Nat := s.reader.elim 0 ReadStep.stillCounted

/-- The bytes handed to SerCx2, with those that the read call under way has moved out of the
ring. -/
def delivered (s : RxRing) : List UInt8 :=
  s.handed ++ (List.range (s.readTotal + s.stillCounted)).map s.callerBuffer

end RxRing

/-- Every byte taken from the FIFO is handed on once and in order. -/
structure RxSound (s : RxRing) : Prop where
  /-- What the read callback has returned are the bytes taken from the FIFO, in order. -/
  handed : s.handed <+: s.taken
  /-- Nothing is lost or duplicated: the ring holds the rest. -/
  pending : ∃ count ≤ pl011RxBufferSizeBytes,
    s.delivered ++ ringContents pl011RxBufferSizeBytes s.rxBuffer s.rxBufferOut count = s.taken
  /-- While the lock is free, the count tells how much. -/
  contents : s.rxBufferLock = false →
    s.delivered ++ ringContents pl011RxBufferSizeBytes s.rxBuffer s.rxBufferOut
      (s.rxBufferCount - s.stillCounted).toNat = s.taken
  count : (s.stillCounted : Int) ≤ s.rxBufferCount ∧ s.rxBufferCount ≤ pl011RxBufferSizeBytes
  /-- The ring equation, for the count without the bytes about to be subtracted. -/
  ring : s.rxBufferLock = false →
    (s.rxBufferIn : Int) =
      (s.rxBufferOut + (s.rxBufferCount - s.stillCounted)) % pl011RxBufferSizeBytes
  /-- The assertion of the read callback. -/
  fits : s.readTotal + s.stillCounted ≤ s.length

/-- The byte in the buffer that a call has not counted yet. -/
def RxCopy.uncounted (c : RxCopy) : Nat :=
  if c.step = .increment then 1 else 0

/-- A call inside the lock: its index, for `taken` bytes taken so far and room up to `limit`. -/
def RxCopyOk (fifo : List UInt8) (rxBufferIn taken limit : Nat) (c : RxCopy) : Prop :=
  match c.step with
  | .load | .overflow | .unlock => rxBufferIn = taken % pl011RxBufferSizeBytes
  | .test | .empty | .storeIn => c.rxIn = taken % pl011RxBufferSizeBytes
  | .flags => c.rxIn = taken % pl011RxBufferSizeBytes ∧ taken < limit
  | .data => c.rxIn = taken % pl011RxBufferSizeBytes ∧ taken < limit ∧ fifo ≠ []
  | .increment => (c.rxIn + 1) % pl011RxBufferSizeBytes = taken % pl011RxBufferSizeBytes

theorem RxCopyOk.mono {fifo fifo' : List UInt8} {rxBufferIn taken limit limit' : Nat} {c : RxCopy}
    (h : RxCopyOk fifo rxBufferIn taken limit c) (hfifo : fifo ≠ [] → fifo' ≠ [])
    (hlimit : limit ≤ limit') : RxCopyOk fifo' rxBufferIn taken limit' c := by
  rcases c with ⟨step, byReader, rxIn, charsTransferred, status⟩
  cases step with
  | flags => exact ⟨h.1, Nat.lt_of_lt_of_le h.2 hlimit⟩
  | data => exact ⟨h.1, Nat.lt_of_lt_of_le h.2.1 hlimit, hfifo h.2.2⟩
  | _ => exact h

/-- The read callback: its block lies within the `counted` bytes and fits the caller's buffer. -/
def ReadOk (length handed counted : Nat) : ReadStep → Prop
  | .test total | .fifoCopy total | .inFifoCopy total => total ≤ length
  | .pending total => total < length
  | .copy total rxOut bytesToCopy i =>
    rxOut = (handed + total) % pl011RxBufferSizeBytes ∧ i < bytesToCopy ∧
      handed + total + bytesToCopy ≤ counted ∧ total + bytesToCopy ≤ length
  | .storeOut total rxOut bytesCopied =>
    rxOut = (handed + total + bytesCopied) % pl011RxBufferSizeBytes ∧
      handed + total + bytesCopied ≤ counted ∧ total + bytesCopied ≤ length
  | .subtract total bytesCopied =>
    handed + total + bytesCopied ≤ counted ∧ total + bytesCopied ≤ length

theorem ReadOk.mono {length handed counted counted' : Nat} {r : ReadStep}
    (h : ReadOk length handed counted r) (hle : counted ≤ counted') :
    ReadOk length handed counted' r := by
  cases r with
  | copy => exact ⟨h.1, h.2.1, h.2.2.1.trans hle, h.2.2.2⟩
  | storeOut => exact ⟨h.1, h.2.1.trans hle, h.2.2⟩
  | subtract => exact ⟨h.1.trans hle, h.2⟩
  | _ => exact h

theorem ReadOk.stillCounted_le {length handed counted : Nat} {r : ReadStep}
    (h : ReadOk length handed counted r) (hle : handed + r.total ≤ counted) :
    handed + (r.total + r.stillCounted) ≤ counted := by
  cases r with
  | subtract total bytesCopied => exact (Nat.add_assoc _ _ _).symm.trans_le h.1
  | _ => exact hle

theorem ReadOk.fits {length handed counted : Nat} {r : ReadStep}
    (h : ReadOk length handed counted r) : r.total + r.stillCounted ≤ length := by
  cases r with
  | pending total => exact Nat.le_of_lt h
  | copy total rxOut bytesToCopy i => exact Nat.le_of_add_right_le h.2.2.2
  | storeOut total rxOut bytesCopied => exact Nat.le_of_add_right_le h.2.2
  | subtract total bytesCopied => exact h.2
  | _ => exact h

namespace RxRing

/-- The bytes whose removal the count shows. -/
def removed (s : RxRing) : Nat := s.handed.length + s.readTotal

/-- The bytes in the caller's buffer. -/
def placed (s : RxRing) : Nat := s.readTotal + s.reader.elim 0 ReadStep.blockCopied

/-- The bytes taken that have been counted: all but the one that the call inside the lock is
about to count. -/
def counted (s : RxRing) : Nat := s.taken.length - total RxCopy.uncounted s.copies

/-- The invariant of the runs. -/
structure Inv (s : RxRing) : Prop where
  excl : Exclusive s.rxBufferLock s.copies
  holds : RingHolds pl011RxBufferSizeBytes s.rxBuffer s.taken s.removed
  uncounted : total RxCopy.uncounted s.copies ≤ s.taken.length
  le : s.removed ≤ s.counted
  count : s.rxBufferCount = (s.counted : Int) - s.removed
  out : s.rxBufferOut = (s.removed + s.stillCounted) % pl011RxBufferSizeBytes
  index : s.rxBufferLock = false → s.rxBufferIn = s.taken.length % pl011RxBufferSizeBytes
  copy : ∀ c ∈ s.copies,
    RxCopyOk s.fifo s.rxBufferIn s.taken.length (s.removed + pl011RxBufferSizeBytes) c
  read : ∀ r, s.reader = some r → ReadOk s.length s.handed.length s.counted r
  inOrder : s.handed ++ (List.range s.placed).map s.callerBuffer =
    s.taken.take (s.handed.length + s.placed)

variable {s : RxRing}

theorem pl011RxBufferSizeBytes_pos : 0 < pl011RxBufferSizeBytes := by decide

theorem Inv.counted_le (h : s.Inv) : s.counted ≤ s.removed + pl011RxBufferSizeBytes := by
  have := h.holds.room
  simp only [counted]
  omega

/-- The count is what is counted and not removed. -/
theorem Inv.pendingByteCount (h : s.Inv) :
    s.removed + s.pl011RxPendingByteCount = s.counted := by
  have hle := h.le
  have hcounted := h.counted_le
  rw [pl011RxPendingByteCount, h.count]
  rw [pl011RxBufferSizeBytes] at hcounted
  omega

theorem inv_start (fifo : List UInt8) (rxBuffer : Nat → UInt8) : (start fifo rxBuffer).Inv where
  excl := rfl
  holds := RingHolds.nil _ _
  uncounted := Nat.zero_le _
  le := Nat.zero_le _
  count := rfl
  out := rfl
  index _ := rfl
  copy _ hc := by cases hc
  read _ hr := by cases hr
  inOrder := rfl

/-! ### The calls inside the lock -/

/-- The calls inside the lock change, and `RxBufferIn` with them; no byte moves. -/
theorem Inv.relock (h : s.Inv) {lock : Bool} {copies : List RxCopy} {rxIn : Nat}
    (hexcl : Exclusive lock copies)
    (hsum : total RxCopy.uncounted copies = total RxCopy.uncounted s.copies)
    (hindex : lock = false → rxIn = s.taken.length % pl011RxBufferSizeBytes)
    (hcopy : ∀ c ∈ copies,
      RxCopyOk s.fifo rxIn s.taken.length (s.removed + pl011RxBufferSizeBytes) c) :
    { s with rxBufferLock := lock, copies := copies, rxBufferIn := rxIn }.Inv := by
  have hcounted : counted { s with rxBufferLock := lock, copies := copies, rxBufferIn := rxIn } =
      s.counted := by
    rw [counted, counted, hsum]
  exact { h with
    excl := hexcl
    uncounted := by rw [hsum]; exact h.uncounted
    le := by rw [hcounted]; exact h.le
    count := by rw [hcounted]; exact h.count
    index := hindex
    copy := hcopy
    read := by rw [hcounted]; exact h.read }

/-- A call goes on, and stores no more than `RxBufferIn`. -/
theorem Inv.goOn (h : s.Inv) {c c' : RxCopy} {rxIn : Nat} (hc : c ∈ s.copies)
    (hu : c'.uncounted = c.uncounted)
    (hok : RxCopyOk s.fifo rxIn s.taken.length (s.removed + pl011RxBufferSizeBytes) c') :
    { s.goOn c c' with rxBufferIn := rxIn }.Inv := by
  obtain ⟨hlock, hcopies⟩ := h.excl.eq_single hc
  have hgo : s.goOn c c' = { s with rxBufferLock := true, copies := [c'] } := by
    rw [RxRing.goOn, hcopies, advance_single, ← hlock]
  rw [hgo]
  refine h.relock rfl ?_ (fun hfree => by cases hfree) ?_
  · rw [hcopies, total_cons, total_cons, hu]
  · intro d hd
    obtain rfl := List.mem_singleton.1 hd
    exact hok

/-- Who finds the lock free enters. -/
theorem Inv.tryLock (h : s.Inv) (byReader : Bool) : (s.tryLock byReader).1.Inv := by
  rw [RxRing.tryLock]
  split_ifs with hlock
  · exact h
  · have hfree : s.rxBufferLock = false := Bool.eq_false_iff.2 hlock
    have hcopies : s.copies = [] := by
      have := h.excl
      rw [hfree] at this
      exact this.eq_nil
    rw [hcopies]
    refine h.relock rfl ?_ (fun hfree => by cases hfree) ?_
    · rw [hcopies]; rfl
    · intro d hd
      obtain rfl := List.mem_singleton.1 hd
      exact h.index hfree

/-- The call leaves the lock. -/
theorem Inv.unlock (h : s.Inv) {c : RxCopy} (hc : c ∈ s.copies) (hstep : c.step = .unlock) :
    { s with rxBufferLock := false, copies := advance s.copies c [] }.Inv := by
  obtain ⟨-, hcopies⟩ := h.excl.eq_single hc
  have hok := h.copy c hc
  simp only [RxCopyOk, hstep] at hok
  rw [hcopies, advance_single]
  refine h.relock rfl ?_ (fun _ => hok) (fun d hd => by cases hd)
  simp [hcopies, RxCopy.uncounted, hstep]

/-- The call reads a byte from the FIFO into the buffer. -/
theorem Inv.data (h : s.Inv) {c : RxCopy} (hc : c ∈ s.copies) (hstep : c.step = .data) :
    (s.runFifoCopy c).Inv := by
  obtain ⟨hlock, hcopies⟩ := h.excl.eq_single hc
  have hok := h.copy c hc
  simp only [RxCopyOk, hstep] at hok
  obtain ⟨hin, hroom, hfifo⟩ := hok
  obtain ⟨b, fifo, hb⟩ := List.exists_cons_of_ne_nil hfifo
  have hsum : total RxCopy.uncounted s.copies = 0 := by simp [hcopies, RxCopy.uncounted, hstep]
  have hrun : s.runFifoCopy c = { s with
      copies := [{ c with step := .increment, charsTransferred := c.charsTransferred + 1 }]
      rxBuffer := Function.update s.rxBuffer (s.taken.length % pl011RxBufferSizeBytes) b
      fifo := fifo
      taken := s.taken ++ [b] } := by
    simp only [runFifoCopy, hstep, RxRing.goOn, hcopies, advance_single, hin, hb, List.headD_cons,
      List.tail_cons, List.head?_cons, Option.toList_some]
  have hcounted : (s.runFifoCopy c).counted = s.counted := by
    rw [hrun, counted, counted, hsum]
    simp [RxCopy.uncounted]
  have hlen : s.handed.length + s.placed ≤ s.taken.length := by
    have := congrArg List.length h.inOrder
    simp only [List.length_append, List.length_map, List.length_range, List.length_take] at this
    omega
  rw [hrun] at hcounted ⊢
  exact { h with
    excl := by rw [hlock]; rfl
    holds := h.holds.store hroom b
    uncounted := by simp [RxCopy.uncounted]
    le := by rw [hcounted]; exact h.le
    count := by rw [hcounted]; exact h.count
    index := fun hfree => by cases hlock.symm.trans hfree
    copy := by
      intro d hd
      obtain rfl := List.mem_singleton.1 hd
      simp only [RxCopyOk, hin, List.length_append, List.length_singleton, Nat.mod_add_mod]
    read := by rw [hcounted]; exact h.read
    inOrder := h.inOrder.trans (List.take_append_of_le_length hlen).symm }

/-- The call counts the byte. -/
theorem Inv.increment (h : s.Inv) {c : RxCopy} (hc : c ∈ s.copies) (hstep : c.step = .increment) :
    (s.runFifoCopy c).Inv := by
  obtain ⟨hlock, hcopies⟩ := h.excl.eq_single hc
  have hok := h.copy c hc
  simp only [RxCopyOk, hstep] at hok
  have hsum : total RxCopy.uncounted s.copies = 1 := by simp [hcopies, RxCopy.uncounted, hstep]
  have hrun : s.runFifoCopy c = { s with
      copies := [{ c with step := .test, rxIn := (c.rxIn + 1) % pl011RxBufferSizeBytes }]
      rxBufferCount := s.rxBufferCount + 1 } := by
    simp only [runFifoCopy, hstep, RxRing.goOn, hcopies, advance_single]
  have hcounted : (s.runFifoCopy c).counted = s.counted + 1 := by
    have := h.uncounted
    rw [hrun]
    simp only [counted, hsum, total_cons, total_nil, RxCopy.uncounted, reduceCtorEq, if_false]
    omega
  have hle := h.le
  rw [hrun] at hcounted ⊢
  exact { h with
    excl := by rw [hlock]; rfl
    uncounted := by simp [RxCopy.uncounted]
    le := by rw [hcounted]; exact Nat.le_succ_of_le hle
    count := by
      rw [hcounted]
      show s.rxBufferCount + 1 = _ - (s.removed : Int)
      rw [h.count]
      omega
    copy := by
      intro d hd
      obtain rfl := List.mem_singleton.1 hd
      exact hok
    read := by
      intro r hr
      rw [hcounted]
      exact (h.read r hr).mono (Nat.le_succ _) }

/-! ### The read callback -/

/-- The reader goes on, and only it knows. -/
theorem Inv.reading (h : s.Inv) {r r' : ReadStep} (hr : s.reader = some r)
    (htotal : r'.total = r.total) (hstill : r'.stillCounted = r.stillCounted)
    (hblock : r'.blockCopied = r.blockCopied)
    (hok : ReadOk s.length s.handed.length s.counted r') :
    { s with reader := some r' }.Inv := by
  have hreadTotal : readTotal { s with reader := some r' } = s.readTotal := by
    rw [readTotal, readTotal, hr]; exact htotal
  have hremoved : removed { s with reader := some r' } = s.removed := by
    rw [removed, removed, hreadTotal]
  have hstillCounted : stillCounted { s with reader := some r' } = s.stillCounted := by
    rw [stillCounted, stillCounted, hr]; exact hstill
  have hplaced : placed { s with reader := some r' } = s.placed := by
    rw [placed, placed, hreadTotal, hr]
    exact congrArg (s.readTotal + ·) hblock
  exact { h with
    holds := by rw [hremoved]; exact h.holds
    le := by rw [hremoved]; exact h.le
    count := by rw [hremoved]; exact h.count
    out := by rw [hremoved, hstillCounted]; exact h.out
    copy := by rw [hremoved]; exact h.copy
    read := by
      intro q hq
      obtain rfl := Option.some.inj hq
      exact hok
    inOrder := by rw [hplaced]; exact h.inOrder }

/-- The read callback returns the bytes that it has copied. -/
theorem Inv.returned (h : s.Inv) {r : ReadStep} (hr : s.reader = some r)
    (hstill : r.stillCounted = 0) (hblock : r.blockCopied = 0) :
    { s with
      reader := none
      handed := s.handed ++ (List.range r.total).map s.callerBuffer }.Inv := by
  have hreadTotal : s.readTotal = r.total := by rw [readTotal, hr]; rfl
  have hstillCounted : s.stillCounted = 0 := by rw [stillCounted, hr]; exact hstill
  have hplaced : s.placed = r.total := by
    rw [placed, hreadTotal, hr]; exact congrArg (r.total + ·) hblock
  have hremoved : removed { s with
      reader := none
      handed := s.handed ++ (List.range r.total).map s.callerBuffer } = s.removed := by
    simp [removed, readTotal, hr]
  have hout := h.out
  rw [hstillCounted] at hout
  have hh := h.inOrder
  rw [hplaced] at hh
  exact { h with
    holds := by rw [hremoved]; exact h.holds
    le := by rw [hremoved]; exact h.le
    count := by rw [hremoved]; exact h.count
    out := by rw [hremoved]; exact hout
    copy := by rw [hremoved]; exact h.copy
    read := fun _ hq => by cases hq
    inOrder := by
      simp only [placed, readTotal, Option.elim_none, Nat.add_zero, List.range_zero,
        List.map_nil, List.append_nil, List.length_append, List.length_map, List.length_range]
      exact hh }

/-- The next byte of the stream reaches the caller's buffer. -/
theorem Inv.place (h : s.Inv) {r r' : ReadStep} {b : UInt8} (hr : s.reader = some r)
    (htotal : r'.total = r.total) (hstill : r'.stillCounted = r.stillCounted)
    (hblock : r'.blockCopied = r.blockCopied + 1)
    (hb : s.taken[s.handed.length + s.placed]? = some b)
    (hok : ReadOk s.length s.handed.length s.counted r') :
    { s with
      callerBuffer := Function.update s.callerBuffer s.placed b
      reader := some r' }.Inv := by
  have hreadTotal : s.readTotal = r.total := by rw [readTotal, hr]; rfl
  have hplaced : s.placed = r.total + r.blockCopied := by rw [placed, readTotal, hr]; rfl
  have hremoved : s.handed.length + r'.total = s.removed := by rw [removed, hreadTotal, htotal]
  have hstillCounted : r'.stillCounted = s.stillCounted := by
    rw [stillCounted, hr]; exact hstill
  exact { h with
    holds := by
      show RingHolds _ _ _ (s.handed.length + r'.total)
      rw [hremoved]; exact h.holds
    le := by
      show s.handed.length + r'.total ≤ s.counted
      rw [hremoved]; exact h.le
    count := by
      show s.rxBufferCount = s.counted - ((s.handed.length + r'.total : Nat) : Int)
      rw [hremoved]; exact h.count
    out := by
      show s.rxBufferOut = (s.handed.length + r'.total + r'.stillCounted) % _
      rw [hremoved, hstillCounted]; exact h.out
    copy := by
      show ∀ c ∈ s.copies, RxCopyOk _ _ _ (s.handed.length + r'.total + _) c
      rw [hremoved]; exact h.copy
    read := by
      intro q hq
      obtain rfl := Option.some.inj hq
      exact hok
    inOrder := by
      have hnext : placed { s with
          callerBuffer := Function.update s.callerBuffer s.placed b
          reader := some r' } = s.placed + 1 := by
        rw [hplaced, Nat.add_assoc, ← hblock, ← htotal]; rfl
      have hold : (List.range s.placed).map (Function.update s.callerBuffer s.placed b) =
          (List.range s.placed).map s.callerBuffer :=
        List.map_congr_left fun x hx =>
          Function.update_of_ne (Nat.ne_of_lt (List.mem_range.1 hx)) _ _
      rw [hnext, List.range_succ, List.map_append, hold, ← List.append_assoc, h.inOrder,
        ← Nat.add_assoc, List.take_add_one, hb]
      simp }

/-- One byte of a block copy. -/
theorem Inv.copyByte (h : s.Inv) {total rxOut bytesToCopy i : Nat}
    (hr : s.reader = some (.copy total rxOut bytesToCopy i)) :
    (s.runReader (.copy total rxOut bytesToCopy i)).Inv := by
  obtain ⟨rfl, hi, hcounted, hfits⟩ := h.read _ hr
  have hremoved : s.removed = s.handed.length + total := by rw [removed, readTotal, hr]; rfl
  have hplaced : s.placed = total + i := by rw [placed, readTotal, hr]; rfl
  have hblock : bytesToCopy ≤ pl011RxBufferSizeBytes := by
    have := h.counted_le
    omega
  have hlt : s.handed.length + s.placed < s.taken.length := by
    have : s.counted ≤ s.taken.length := Nat.sub_le _ _
    omega
  have hget := h.holds.getElem? (p := s.handed.length + s.placed) (by omega) hlt
  have hindex : (s.handed.length + s.placed) % pl011RxBufferSizeBytes =
      chunkIndex pl011RxBufferSizeBytes ((s.handed.length + total) % pl011RxBufferSizeBytes)
        bytesToCopy i := by
    rw [chunkIndex_eq hi hblock, hplaced, Nat.add_assoc]
  rw [hindex] at hget
  rw [runReader, ← hplaced]
  split_ifs with hmore
  · exact h.place hr rfl rfl rfl hget ⟨rfl, hmore, hcounted, hfits⟩
  · obtain rfl : i + 1 = bytesToCopy := by omega
    exact h.place hr rfl rfl rfl hget
      ⟨chunkEnd_eq pl011RxBufferSizeBytes_pos hblock, hcounted, hfits⟩

/-- The block is out of the ring, but the count does not show it yet. -/
theorem Inv.storeOut (h : s.Inv) {total rxOut bytesCopied : Nat}
    (hr : s.reader = some (.storeOut total rxOut bytesCopied)) :
    (s.runReader (.storeOut total rxOut bytesCopied)).Inv := by
  obtain ⟨rfl, hcounted, hfits⟩ := h.read _ hr
  have hremoved : s.removed = s.handed.length + total := by rw [removed, readTotal, hr]; rfl
  have hplaced : s.placed = total + bytesCopied := by rw [placed, readTotal, hr]; rfl
  exact { h with
    holds := by have := h.holds; rwa [hremoved] at this
    le := by have := h.le; rwa [hremoved] at this
    count := by have := h.count; rwa [hremoved] at this
    out := rfl
    copy := by have := h.copy; rwa [hremoved] at this
    read := by
      intro q hq
      obtain rfl := Option.some.inj hq
      exact ⟨hcounted, hfits⟩
    inOrder := by have := h.inOrder; rwa [hplaced] at this }

/-- The count shows the removal of the block. -/
theorem Inv.subtract (h : s.Inv) {total bytesCopied : Nat}
    (hr : s.reader = some (.subtract total bytesCopied)) :
    (s.runReader (.subtract total bytesCopied)).Inv := by
  obtain ⟨hcounted, hfits⟩ := h.read _ hr
  have hremoved : s.removed = s.handed.length + total := by rw [removed, readTotal, hr]; rfl
  have hplaced : s.placed = total + bytesCopied := by rw [placed, readTotal, hr]; rfl
  have hremoved' : removed (s.runReader (.subtract total bytesCopied)) = s.removed + bytesCopied := by
    rw [hremoved, Nat.add_assoc]; rfl
  have hout : s.rxBufferOut = (s.removed + bytesCopied) % pl011RxBufferSizeBytes := by
    have := h.out
    rwa [stillCounted, hr] at this
  have hle : s.counted ≤ s.taken.length := Nat.sub_le _ _
  rw [runReader] at hremoved' ⊢
  exact { h with
    holds := by
      rw [hremoved']
      exact h.holds.remove (Nat.le_add_right _ _) (by omega)
    le := by rw [hremoved']; exact hremoved ▸ hcounted
    count := by
      have hcount := h.count
      rw [hremoved']
      show s.rxBufferCount - (bytesCopied : Int) = s.counted - ((s.removed + bytesCopied : Nat) : Int)
      omega
    out := by rw [hremoved']; exact hout
    copy := by
      intro c hc
      rw [hremoved']
      exact (h.copy c hc).mono id (by omega)
    read := by
      intro q hq
      obtain rfl := Option.some.inj hq
      exact hfits
    inOrder := by have := h.inOrder; rwa [hplaced] at this }

/-! ### The steps and the runs -/

/-- The reader's call of `PL011RxPioFifoCopy` is over. -/
theorem Inv.fifoCopyReturned (h : s.Inv) (status : RxCopyStatus) :
    (s.fifoCopyReturned status).Inv := by
  rw [RxRing.fifoCopyReturned]
  split
  · next total hr =>
    split_ifs
    · exact h.returned hr rfl rfl
    · exact h.reading hr rfl rfl rfl (h.read (.inFifoCopy total) hr)
  · exact h

theorem Inv.fifoCopy (h : s.Inv) {c : RxCopy} (hc : c ∈ s.copies) : (s.runFifoCopy c).Inv := by
  have hok := h.copy c hc
  rcases hstep : c.step with _ | _ | _ | _ | _ | _ | _ | _ | _ <;>
    simp only [RxCopyOk, hstep] at hok
  case load =>
    simp only [runFifoCopy, hstep]
    exact h.goOn hc (by simp [RxCopy.uncounted, hstep]) hok
  case test =>
    simp only [runFifoCopy, hstep]
    split_ifs with hroom
    · have hpending := h.pendingByteCount
      have hall : s.counted = s.taken.length := by
        simp [counted, (h.excl.eq_single hc).2, RxCopy.uncounted, hstep]
      exact h.goOn hc (by simp [RxCopy.uncounted, hstep]) ⟨hok, by omega⟩
    · exact h.goOn hc (by simp [RxCopy.uncounted, hstep]) hok
  case flags =>
    simp only [runFifoCopy, hstep]
    split_ifs with hfifo
    · exact h.goOn hc (by simp [RxCopy.uncounted, hstep]) hok.1
    · exact h.goOn hc (by simp [RxCopy.uncounted, hstep]) ⟨hok.1, hok.2, hfifo⟩
  case empty =>
    simp only [runFifoCopy, hstep]
    exact h.goOn hc (by simp [RxCopy.uncounted, hstep]) hok
  case data => exact h.data hc hstep
  case increment => exact h.increment hc hstep
  case storeIn =>
    simp only [runFifoCopy, hstep]
    exact h.goOn hc (by simp [RxCopy.uncounted, hstep]) hok
  case overflow =>
    simp only [runFifoCopy, hstep]
    exact h.goOn hc (by simp [RxCopy.uncounted, hstep]) hok
  case unlock =>
    simp only [runFifoCopy, hstep]
    split_ifs
    · exact (h.unlock hc hstep).fifoCopyReturned _
    · exact h.unlock hc hstep

theorem Inv.runReader (h : s.Inv) {r : ReadStep} (hr : s.reader = some r) :
    (s.runReader r).Inv := by
  have hok := h.read r hr
  cases r with
  | test total =>
    rw [RxRing.runReader]
    split_ifs with hmore
    · exact h.reading hr rfl rfl rfl hmore
    · exact h.returned hr rfl rfl
  | pending total =>
    rw [RxRing.runReader]
    split_ifs with hnone
    · exact h.reading hr rfl rfl rfl (Nat.le_of_lt hok)
    · have hremoved : s.removed = s.handed.length + total := by rw [removed, readTotal, hr]; rfl
      have hpending := h.pendingByteCount
      have hout : s.rxBufferOut = (s.handed.length + total) % pl011RxBufferSizeBytes := by
        have := h.out
        rwa [stillCounted, hr, hremoved] at this
      refine h.reading hr rfl rfl rfl ⟨hout, Nat.pos_of_ne_zero hnone, ?_, ?_⟩
      · omega
      · omega
  | copy total rxOut bytesToCopy i => exact h.copyByte hr
  | storeOut total rxOut bytesCopied => exact h.storeOut hr
  | subtract total bytesCopied => exact h.subtract hr
  | fifoCopy total =>
    by_cases hlock : s.rxBufferLock = true
    · have hbusy : s.runReader (.fifoCopy total) = { s with reader := some (.test total) } := by
        simp [RxRing.runReader, RxRing.tryLock, hlock]
      rw [hbusy]
      exact h.reading hr rfl rfl rfl hok
    · have henter : s.runReader (.fifoCopy total) =
          ({ s with reader := some (.inFifoCopy total) }.tryLock true).1 := by
        simp [RxRing.runReader, RxRing.tryLock, hlock]
      rw [henter]
      have hwait : ({ s with reader := some (.inFifoCopy total) } : RxRing).Inv :=
        h.reading hr rfl rfl rfl hok
      exact hwait.tryLock true
  | inFifoCopy total => exact h

/-- **The invariant of the runs.** -/
theorem inv_of_reachable (h : rxRingMachine.Reachable s) : s.Inv := by
  refine Machine.Reach.inv_guarded ?_ (fun s a hinv _ hen => ?_) h
  · rintro s ⟨fifo, rxBuffer, rfl⟩
    exact inv_start fifo rxBuffer
  · cases a with
    | receive b =>
      exact { hinv with
        copy := fun c hc => (hinv.copy c hc).mono (by simp [effect]) (Nat.le_refl _) }
    | call => exact hinv.tryLock false
    | fifoCopy c => exact hinv.fifoCopy hen
    | readBuffer length buffer =>
      have hnone : s.reader = none := hen
      have hremoved : s.removed = s.handed.length := by rw [removed, readTotal, hnone]; rfl
      exact { hinv with
        holds := by have := hinv.holds; rwa [hremoved] at this
        le := by have := hinv.le; rwa [hremoved] at this
        count := by have := hinv.count; rwa [hremoved] at this
        out := by have := hinv.out; rwa [hremoved, stillCounted, hnone] at this
        copy := by have := hinv.copy; rwa [hremoved] at this
        read := by
          intro r hr
          obtain rfl := Option.some.inj hr
          exact Nat.zero_le _
        inOrder := by
          have := hinv.inOrder
          rwa [placed, readTotal, hnone] at this }
    | read r => exact hinv.runReader hen

/-! ### What the invariant says of the bytes -/

/-- The bytes that are out of the ring are counted. -/
theorem Inv.moved_le (h : s.Inv) : s.removed + s.stillCounted ≤ s.counted := by
  have hle := h.le
  rcases hr : s.reader with _ | r
  · simpa [stillCounted, hr] using hle
  · have hok := h.read r hr
    simp only [removed, readTotal, stillCounted, hr, Option.elim_some] at hle ⊢
    rw [Nat.add_assoc]
    exact hok.stillCounted_le hle

theorem stillCounted_le_placed : s.readTotal + s.stillCounted ≤ s.placed := by
  rw [placed]
  refine Nat.add_le_add_left ?_ _
  rw [stillCounted]
  rcases s.reader with _ | r
  · exact Nat.le_refl 0
  · cases r <;> first | exact Nat.zero_le _ | exact Nat.le_refl _

theorem Inv.delivered (h : s.Inv) :
    s.delivered = s.taken.take (s.removed + s.stillCounted) := by
  have hplaced := stillCounted_le_placed (s := s)
  have htake := congrArg (List.take (s.handed.length + (s.readTotal + s.stillCounted))) h.inOrder
  rw [List.take_length_add_append, ← List.map_take, List.take_range, List.take_take,
    Nat.min_eq_left hplaced, Nat.min_eq_left (by omega), ← Nat.add_assoc] at htake
  exact htake

/-- The ring holds what is not delivered. -/
theorem Inv.pending (h : s.Inv) :
    s.delivered ++ ringContents pl011RxBufferSizeBytes s.rxBuffer s.rxBufferOut
      (s.taken.length - (s.removed + s.stillCounted)) = s.taken := by
  have hle : s.counted ≤ s.taken.length := Nat.sub_le _ _
  rw [h.delivered, h.out]
  exact (h.holds.remove (Nat.le_add_right _ _) (h.moved_le.trans hle)).append_contents

/-- While the lock is free, every byte is counted. -/
theorem Inv.counted_of_free (h : s.Inv) (hfree : s.rxBufferLock = false) :
    s.counted = s.taken.length := by
  have hexcl := h.excl
  rw [hfree] at hexcl
  rw [counted, hexcl.eq_nil, total_nil, Nat.sub_zero]

theorem Inv.sound (h : s.Inv) : RxSound s where
  handed := by
    have hdelivered : s.delivered <+: s.taken := by
      rw [h.delivered]
      exact List.take_prefix _ _
    exact (List.prefix_append s.handed _).trans hdelivered
  pending := ⟨_, by have := h.holds.room; omega, h.pending⟩
  contents hfree := by
    have hcounted := h.counted_of_free hfree
    have hmoved := h.moved_le
    have hcount := h.count
    have hnat : (s.rxBufferCount - s.stillCounted).toNat =
        s.taken.length - (s.removed + s.stillCounted) := by omega
    rw [hnat]
    exact h.pending
  count := by
    have hmoved := h.moved_le
    have hcount := h.count
    have hle := h.counted_le
    omega
  ring hfree := by
    have hcounted := h.counted_of_free hfree
    have hcount := h.count
    rw [h.index hfree, h.out, Int.natCast_emod, Int.natCast_emod, Int.emod_add_emod]
    congr 1
    omega
  fits := by
    rw [readTotal, stillCounted]
    rcases hr : s.reader with _ | r
    · exact Nat.zero_le _
    · exact (h.read r hr).fits

end RxRing

/-- **Every byte taken from the FIFO reaches SerCx2 once and in order**, in any interleaving of
the callers of `PL011RxPioFifoCopy` with the reader. -/
theorem rxSound_of_reachable {s : RxRing} (h : rxRingMachine.Reachable s) : RxSound s :=
  (RxRing.inv_of_reachable h).sound

/-- Steps of a call of `PL011RxPioFifoCopy` that keep its variables. -/
def copyRun (c : RxCopy) (steps : List RxCopyStep) : List RxRingAction :=
  steps.map fun step => .fifoCopy { c with step := step }

/-- A call of the ISR that takes `n` bytes, and finds the FIFO empty then. -/
def takeRun (rxIn n : Nat) : List RxRingAction :=
  let place (k : Nat) : Nat := (rxIn + k) % pl011RxBufferSizeBytes
  .call :: copyRun ⟨.load, false, 0, 0, .success⟩ [.load] ++
    (List.range n).flatMap (fun k =>
      copyRun ⟨.load, false, place k, k, .success⟩ [.test, .flags, .data] ++
      copyRun ⟨.load, false, place k, k + 1, .success⟩ [.increment]) ++
    copyRun ⟨.load, false, place n, n, .success⟩
      [.test, .flags, .empty, .storeIn, .overflow, .unlock]

/-- The ISR takes one byte, and the reader copies it and stores `RxBufferOut`. -/
def storeOutRun : List RxRingAction :=
  takeRun 0 1 ++ [.readBuffer 1 fun _ => 0, .read (.test 0), .read (.pending 0),
    .read (.copy 0 0 1 0), .read (.storeOut 0 1 1)]

/-- **The indices disagree with the count** after the reader has stored `RxBufferOut` and before
it subtracts from the count, though the lock is free. -/
theorem ring_equation_broken :
    ∃ s, rxRingMachine.Reachable s ∧ s.rxBufferLock = false ∧
      (s.rxBufferIn : Int) ≠ (s.rxBufferOut + s.rxBufferCount) % pl011RxBufferSizeBytes :=
  ⟨_, Machine.reach_exec_get rxRingMachine storeOutRun ⟨[7], fun _ => 0, rfl⟩ (by decide +kernel),
    by decide +kernel, by decide +kernel⟩

/-! ### Around the end of the ring -/

/-- The ISR is in a call that has taken `m` bytes, before it looks whether there is room. -/
def taking (rxBuffer : Nat → UInt8) (m : Nat) : RxRing :=
  { RxRing.start [] rxBuffer with
    rxBufferCount := m
    rxBufferLock := true
    copies := [⟨.test, false, m % pl011RxBufferSizeBytes, m, .success⟩]
    taken := List.replicate m 0 }

/-- The reader is about to copy byte `i` of 8190. -/
def reading (rxBuffer callerBuffer : Nat → UInt8) (taken : List UInt8) (i : Nat) : RxRing :=
  { RxRing.start [] rxBuffer with
    rxBufferIn := 8190
    rxBufferCount := 8190
    reader := some (.copy 0 0 8190 i)
    callerBuffer := callerBuffer
    length := 8190
    taken := taken }

/-- A byte arrives, and the ISR takes it. -/
def takeByte (m : Nat) : List RxRingAction :=
  let place := m % pl011RxBufferSizeBytes
  .receive 0 :: copyRun ⟨.test, false, place, m, .success⟩ [.test, .flags, .data] ++
    copyRun ⟨.test, false, place, m + 1, .success⟩ [.increment]

/-- One byte after the other arrives and is taken, as long as there is room. -/
theorem reachable_taking {m : Nat} (hm : m ≤ pl011RxBufferSizeBytes) :
    ∃ rxBuffer, rxRingMachine.Reachable (taking rxBuffer m) := by
  induction m with
  | zero =>
    exact ⟨fun _ => 0, Machine.reach_exec_get rxRingMachine
      (.call :: copyRun ⟨.load, false, 0, 0, .success⟩ [.load]) ⟨[], fun _ => 0, rfl⟩ (by rfl)⟩
  | succ m ih =>
    obtain ⟨rxBuffer, h⟩ := ih (Nat.le_of_succ_le hm)
    have hroom : (m : Int) % 4294967296 < 8192 := by
      have hlt : m < 8192 := hm
      omega
    have hexec : rxRingMachine.exec (taking rxBuffer m) (takeByte m) =
        some (taking (Function.update rxBuffer (m % pl011RxBufferSizeBytes) 0) (m + 1)) := by
      simp [takeByte, copyRun, taking, Machine.exec, rxRingMachine, Machine.guarded,
        RxRing.enabled, RxRing.effect, RxRing.runFifoCopy, RxRing.goOn, advance, RxRing.start,
        RxRing.pl011RxPendingByteCount, pl011RxBufferSizeBytes, hroom, List.replicate_succ']
    exact ⟨_, h.exec (rxRingMachine.allOk_true _ _) hexec⟩

/-- The reader copies one byte after the other of the 8190 that have been taken. -/
theorem reachable_reading {i : Nat} (hi : i < 8190) :
    ∃ rxBuffer callerBuffer taken, taken.length = 8190 ∧
      rxRingMachine.Reachable (reading rxBuffer callerBuffer taken i) := by
  induction i with
  | zero =>
    obtain ⟨rxBuffer, h⟩ := reachable_taking (show 8190 ≤ pl011RxBufferSizeBytes by decide)
    have hexec : rxRingMachine.exec (taking rxBuffer 8190)
        (copyRun ⟨.test, false, 8190, 8190, .success⟩
          [.test, .flags, .empty, .storeIn, .overflow, .unlock] ++
        [.readBuffer 8190 fun _ => 0, .read (.test 0), .read (.pending 0)]) =
          some (reading rxBuffer (fun _ => 0) (.replicate 8190 0) 0) := rfl
    exact ⟨rxBuffer, fun _ => 0, List.replicate 8190 0, List.length_replicate,
      h.exec (rxRingMachine.allOk_true _ _) hexec⟩
  | succ i ih =>
    obtain ⟨rxBuffer, callerBuffer, taken, htaken, h⟩ := ih (Nat.lt_of_succ_lt hi)
    have hcopy := h.step (a := .read (.copy 0 0 8190 i)) trivial (by exact if_pos rfl)
    exact ⟨rxBuffer, Function.update callerBuffer i
      (rxBuffer (chunkIndex pl011RxBufferSizeBytes 0 8190 i)), taken, htaken, by
        simpa [reading, RxRing.start, RxRing.effect, RxRing.runReader, hi] using hcopy⟩

/-- The end of a call of the read callback, which has copied `n` bytes and finds the FIFO empty. -/
def returnRun (rxOut n : Nat) : List RxRingAction :=
  [.read (.storeOut 0 rxOut n), .read (.subtract 0 n), .read (.fifoCopy n)] ++
    copyRun ⟨.load, true, 0, 0, .success⟩ [.load] ++
    copyRun ⟨.load, true, rxOut, 0, .success⟩ [.test, .flags, .empty] ++
    copyRun ⟨.load, true, rxOut, 0, .noMoreFiles⟩ [.storeIn, .overflow, .unlock]

/-- The reader returns those bytes. Four more go around the end of the ring. -/
def rxWrapRun : List RxRingAction :=
  .read (.copy 0 0 8190 8189) :: returnRun 8190 8190 ++
    [.receive 1, .receive 2, .receive 3, .receive 4] ++ takeRun 8190 4 ++
    [.readBuffer 4 fun _ => 0, .read (.test 0), .read (.pending 0)] ++
    (List.range 4).map (fun i => .read (.copy 0 8190 4 i)) ++ returnRun 2 4

theorem rxSound_of_reachable_wrap :
    ∃ s, rxRingMachine.Reachable s ∧ s.rxBufferOut = 2 ∧ s.taken.length = 8194 ∧
      s.handed = s.taken ∧ RxSound s := by
  obtain ⟨rxBuffer, callerBuffer, taken, hlength, h⟩ :=
    reachable_reading (show 8189 < 8190 by decide)
  have hexec : (rxRingMachine.exec (reading rxBuffer callerBuffer taken 8189) rxWrapRun).map
      (fun s => (s.rxBufferOut, s.rxBufferCount, s.rxBufferLock, s.reader, s.taken)) =
        some (2, 0, false, none, taken ++ [1] ++ [2] ++ [3] ++ [4]) := by
    rfl
  obtain ⟨s, hs, hstate⟩ := Option.map_eq_some_iff.1 hexec
  obtain ⟨hout, hcount, hlock, hreader, htaken⟩ := by simpa only [Prod.mk.injEq] using hstate
  have hr := h.exec (rxRingMachine.allOk_true _ _) hs
  have hsound := rxSound_of_reachable hr
  refine ⟨s, hr, hout, ?_, ?_, hsound⟩
  · rw [htaken]
    simp only [List.length_append, hlength, List.length_singleton]
  · have hcontents := hsound.contents hlock
    rw [RxRing.delivered, RxRing.readTotal, RxRing.stillCounted, hreader, hcount] at hcontents
    simpa [ringContents] using hcontents

end RpiDrivers.Pl011
