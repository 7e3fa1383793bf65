import RpiDrivers.Genet.RxBuffers

/-!
# The frames that GENET receives (`bcmgenet/driver.c`)

`GenetRxQueueAdvance` goes over the descriptors that the controller has filled, and stops when one
of the two rings is full or no buffer is free. A descriptor with a whole frame goes to the OS, with
its buffer, and gets another one; any other one is skipped and keeps its buffer. The 2 bytes before
a frame are taken off its length, whatever that is.

- `RxQueue.Returns`: the call alone, in the steps of `rxMachine`.
- `GoesOver`: what a call does that goes over a number of descriptors.
- `AdvanceSound`: just the whole frames go to the OS, in order, and no length underflows.
- `advanceSound_iff`: **a call is sound exactly when each whole frame that it goes over has at least
  2 bytes**.
- `empty_frame`: a frame of no bytes gets a length below 0.
-/

namespace RpiDrivers.Genet

open RpiDrivers.Lib

namespace RxQueue

/-! ## The call alone -/

section Call

variable (r : Rings) (buffers : Nat → GenetRxBuffer) (s : RxQueue)

/-- What the call of the queue does next. -/
def callAction : RxAction :=
  match s.accesses with
  | [] => .turn
  | a :: _ => .access a

/-- The call of the queue goes on, for `n` steps or until it returns. -/
def runCall : Nat → RxQueue → RxQueue
  | 0, s => s
  | n + 1, s => if s.call = .idle then s else runCall n (s.effect r buffers s.callAction)

/-- `GenetRxQueueAdvance` is called, and returns. -/
def Returns (s' : RxQueue) : Prop :=
  ∃ n, runCall r buffers n s.genetRxQueueAdvance = s' ∧ s'.call = .idle

/-! ## The descriptors and the frames -/

/-- How many descriptors the controller has filled since the last call. -/
def pending : Nat := (s.consReg + 0x10000 - s.consIndex) % 0x10000

/-- The `k`th of them. -/
def descAt (k : Nat) : Nat := (s.consIndex + k) % numDescs

/-- It has a whole frame. -/
def whole (k : Nat) : Bool := wholePacket (s.bds (s.descAt k)).lengthStatus

/-- The length that the controller has written. -/
def hardwareLength (k : Nat) : Nat := (s.bds (s.descAt k)).lengthStatus / 0x10000

/-- Those of the first `n` that have a whole frame. -/
def frames (n : Nat) : List Nat := (List.range n).filter s.whole

/-- The fragment of a frame. -/
def frame (k : Nat) : RxFragment where
  capacity := genetRxBufferSize
  validLength := (s.hardwareLength k : Int) - 2
  offset := 2
  virtualAddress := (s.descBuffers (s.descAt k)).elim 0 fun b => (buffers b).virtualAddress
  returnContext := s.descBuffers (s.descAt k)

end Call

end RxQueue

/-- How many places of a ring the driver may fill. -/
def ringRoom (n : Nat) (ring : NetRing) : Nat := (ring.endIndex + n - ring.beginIndex) % n

namespace RxQueue

/-- How many frames the call can give to the OS. -/
def room (r : Rings) (s : RxQueue) : Nat :=
  min (min (ringRoom r.fragments s.fragmentRing) (ringRoom r.packets s.packetRing)) s.curFreeBuffer

/-- A descriptor has a buffer, whose address it holds. -/
def HasBuffer (buffers : Nat → GenetRxBuffer) (s : RxQueue) (desc : Nat) : Prop :=
  ∃ b, s.descBuffers desc = some b ∧ HasAddress buffers (s.bds desc) (some b)

end RxQueue

/-! ## The property -/

/-- The `i`th packet that goes to the OS is the frame of the `k`th descriptor. -/
structure Indicated (r : Rings) (buffers : Nat → GenetRxBuffer) (s : RxQueue) (i k : Nat)
    (s' : RxQueue) : Prop where
  fragmentIndex : (s'.packets ((s.packetRing.beginIndex + i) % r.packets)).fragmentIndex =
    (s.fragmentRing.beginIndex + i) % r.fragments
  fragmentCount : (s'.packets ((s.packetRing.beginIndex + i) % r.packets)).fragmentCount = 1
  fragment : s'.fragments ((s.fragmentRing.beginIndex + i) % r.fragments) = s.frame buffers k

/-- The call goes over `n` descriptors. -/
structure GoesOver (r : Rings) (buffers : Nat → GenetRxBuffer) (s : RxQueue) (n : Nat)
    (s' : RxQueue) : Prop where
  le : n ≤ s.pending
  room : (s.frames n).length ≤ s.room r
  /-- the others wait for room, or for a buffer -/
  stops : n < s.pending → (s.frames n).length = s.room r
  fragmentBegin : s'.fragmentRing.beginIndex =
    (s.fragmentRing.beginIndex + (s.frames n).length) % r.fragments
  packetBegin : s'.packetRing.beginIndex =
    (s.packetRing.beginIndex + (s.frames n).length) % r.packets
  indicated : ∀ i k, (s.frames n)[i]? = some k → Indicated r buffers s i k s'
  consIndex : s'.consIndex = (s.consIndex + n) % 0x10000
  /-- the controller may fill the descriptors again -/
  prodReg : 0 < n → s'.prodReg = s'.consIndex
  attached : ∀ desc < numDescs, s'.HasBuffer buffers desc
  /-- the skipped descriptors keep their buffers, as do those that are not gone over -/
  kept : ∀ k < numDescs, n ≤ k ∨ s.whole k = false →
    s'.descBuffers (s.descAt k) = s.descBuffers (s.descAt k) ∧
      s'.bds (s.descAt k) = s.bds (s.descAt k)

/-- After a cancel the descriptors stay as they are, and what goes to the OS are free buffers, in
fragments of length 0. -/
structure HandsBack (r : Rings) (s s' : RxQueue) : Prop where
  consIndex : s'.consIndex = s.consIndex
  prodReg : s'.prodReg = s.prodReg
  descBuffers : s'.descBuffers = s.descBuffers
  bds : s'.bds = s.bds
  fragmentBegin : s'.fragmentRing.beginIndex =
    (s.fragmentRing.beginIndex + s.room r) % r.fragments
  packetBegin : s'.packetRing.beginIndex = (s.packetRing.beginIndex + s.room r) % r.packets
  empty : ∀ i < s.room r,
    (s'.fragments ((s.fragmentRing.beginIndex + i) % r.fragments)).validLength = 0

/-- **The property.** -/
structure AdvanceSound (r : Rings) (buffers : Nat → GenetRxBuffer) (s s' : RxQueue) : Prop where
  asserted : s'.asserted = true
  received : s.canceled = false → ∃ n, GoesOver r buffers s n s' ∧
    ∀ i < (s.frames n).length,
      0 ≤ (s'.fragments ((s.fragmentRing.beginIndex + i) % r.fragments)).validLength
  canceled : s.canceled = true → HandsBack r s s'

/-- The condition: each whole frame has at least 2 bytes, as far as there is room for the frames. -/
def LengthsHold (r : Rings) (s : RxQueue) : Prop :=
  s.canceled = false → ∀ k < s.pending, s.whole k = true → (s.frames k).length < s.room r →
    2 ≤ s.hardwareLength k

/-- What holds of a started queue between its calls. -/
structure Ready (r : Rings) (buffers : Nat → GenetRxBuffer) (s : RxQueue) : Prop where
  idle : s.call = .idle
  quiet : s.accesses = []
  asserted : s.asserted = true
  consIndex : s.consIndex < 0x10000
  consReg : s.consReg < 0x10000
  pending : s.pending ≤ numDescs
  fragmentBegin : s.fragmentRing.beginIndex < r.fragments
  fragmentEnd : s.fragmentRing.endIndex < r.fragments
  packetBegin : s.packetRing.beginIndex < r.packets
  packetEnd : s.packetRing.endIndex < r.packets
  top : s.curFreeBuffer < 0x100000000
  free : ∀ i < s.curFreeBuffer, ∃ b, s.freeBuffers i = some b
  attached : ∀ desc < numDescs, s.HasBuffer buffers desc

/-! ## The steps of the call -/

namespace RxQueue

variable {r : Rings} {buffers : Nat → GenetRxBuffer} {s t u : RxQueue} {l : RxAdvance} {n : Nat}

/-- Each step of the call alone is one of the machine. -/
theorem enabled_callAction (hcall : s.call ≠ .idle) : s.Enabled r s.callAction := by
  rw [callAction]
  split
  · exact hcall
  · next a as haccesses =>
    show a ∈ s.accesses
    rw [haccesses]
    exact List.mem_cons_self

/-- So what a call ends in is a state of the machine. -/
theorem Returns.reachable (h : s.Returns r buffers t) (hs : (rxMachine r buffers).Reachable s)
    (hidle : s.call = .idle) (hstarted : s.started = true) :
    (rxMachine r buffers).Reachable t := by
  obtain ⟨n, rfl, -⟩ := h
  have henabled : s.Enabled r .advance := ⟨hidle, hstarted⟩
  have hadvance : (rxMachine r buffers).Reachable s.genetRxQueueAdvance :=
    hs.step trivial (Machine.guarded_step.2 ⟨henabled, rfl⟩)
  generalize s.genetRxQueueAdvance = t at hadvance ⊢
  induction n generalizing t with
  | zero => exact hadvance
  | succ n ih =>
    rw [runCall]
    split
    · exact hadvance
    · next hcall =>
      exact ih _ (hadvance.step trivial
        (Machine.guarded_step.2 ⟨enabled_callAction hcall, rfl⟩))

theorem runCall_add (n m : Nat) (s : RxQueue) :
    runCall r buffers (n + m) s = runCall r buffers m (runCall r buffers n s) := by
  induction n generalizing s with
  | zero => rw [Nat.zero_add, runCall]
  | succ n ih =>
    rw [Nat.add_right_comm, runCall, runCall]
    split
    · next hidle => cases m <;> simp only [runCall, hidle, if_true]
    · exact ih _

theorem runCall_idle (hidle : s.call = .idle) : runCall r buffers n s = s := by
  cases n with
  | zero => rfl
  | succ n => rw [runCall, if_pos hidle]

/-- A call ends in one state only. -/
theorem Returns.unique (ht : s.Returns r buffers t) (hu : s.Returns r buffers u) : t = u := by
  obtain ⟨n, rfl, hn⟩ := ht
  obtain ⟨m, rfl, hm⟩ := hu
  rw [← runCall_idle hn (n := m), ← runCall_add, Nat.add_comm, runCall_add, runCall_idle hm]

/-- Some steps of the call lead from `s` to `t`. -/
def Leads (r : Rings) (buffers : Nat → GenetRxBuffer) (s t : RxQueue) : Prop :=
  ∃ n, runCall r buffers n s = t

theorem Leads.trans (hst : s.Leads r buffers t) (htu : t.Leads r buffers u) :
    s.Leads r buffers u := by
  obtain ⟨n, rfl⟩ := hst
  obtain ⟨m, rfl⟩ := htu
  exact ⟨n + m, runCall_add n m s⟩

theorem leads_turn (hcall : s.call ≠ .idle) (hquiet : s.accesses = []) :
    s.Leads r buffers (s.turn buffers) := by
  refine ⟨1, ?_⟩
  rw [runCall, if_neg hcall, callAction, hquiet]
  rfl

/-- `GenetGetRxBuffer`, with no one else at the stack. -/
theorem leads_pop (hcall : s.call = .advanceGet l) (haccesses : s.accesses = [⟨.get, .check⟩])
    (hpos : s.curFreeBuffer ≠ 0) (htop : s.curFreeBuffer < 0x100000000) :
    s.Leads r buffers (gotRxBuffer r buffers
      { s with accesses := [], curFreeBuffer := s.curFreeBuffer - 1 }
      (s.freeBuffers (s.curFreeBuffer - 1))) := by
  have hadvance : ∀ step step', Lib.advance [Access.mk .get step] ⟨.get, step⟩
      [⟨.get, step'⟩] = [⟨.get, step'⟩] := fun step step' => by
    simp [Lib.advance]
  have hdone : ∀ step, Lib.advance [Access.mk .get step] ⟨.get, step⟩ [] = [] := fun step => by
    simp [Lib.advance]
  have hindex : (s.curFreeBuffer + 0xffffffff) % 0x100000000 = s.curFreeBuffer - 1 := by omega
  have hasserted : (s.asserted && decide (0 < s.curFreeBuffer)) = s.asserted := by
    rw [decide_eq_true (Nat.pos_of_ne_zero hpos), Bool.and_true]
  refine ⟨4, ?_⟩
  simp only [runCall, callAction, effect, runAccess, genetGetRxBuffer, goOn, hcall, haccesses,
    hadvance, hdone, hindex, hasserted, reduceCtorEq, if_false]

theorem gotRxBuffer_advance (u : RxQueue) (p : GenetRxBufferPtr) (hcall : u.call = .advanceGet l) :
    u.gotRxBuffer r buffers p =
      if u.canceled then (u.setFragment buffers l.fragmentIndex p).nextFragment r l
      else (u.genetFillRxDesc buffers l.fragmentDesc p).nextFragment r l := by
  rw [gotRxBuffer, hcall]

/-- The descriptor that the loop has gone over gets a buffer. -/
theorem leads_refill (hcall : s.call = .advanceGet l) (hcanceled : s.canceled = false)
    (haccesses : s.accesses = [⟨.get, .check⟩]) (hpos : s.curFreeBuffer ≠ 0)
    (htop : s.curFreeBuffer < 0x100000000) :
    s.Leads r buffers (nextFragment r (genetFillRxDesc buffers
      { s with accesses := [], curFreeBuffer := s.curFreeBuffer - 1 } l.fragmentDesc
      (s.freeBuffers (s.curFreeBuffer - 1))) l) := by
  have hpop : s.Leads r buffers _ := leads_pop hcall haccesses hpos htop
  rwa [gotRxBuffer_advance { s with accesses := [], curFreeBuffer := s.curFreeBuffer - 1 } _ hcall,
    if_neg (Bool.eq_false_iff.1 hcanceled)] at hpop

/-- After a cancel the buffer goes to the OS. -/
theorem leads_handBack (hcall : s.call = .advanceGet l) (hcanceled : s.canceled = true)
    (haccesses : s.accesses = [⟨.get, .check⟩]) (hpos : s.curFreeBuffer ≠ 0)
    (htop : s.curFreeBuffer < 0x100000000) :
    s.Leads r buffers (nextFragment r (setFragment buffers
      { s with accesses := [], curFreeBuffer := s.curFreeBuffer - 1 } l.fragmentIndex
      (s.freeBuffers (s.curFreeBuffer - 1))) l) := by
  have hpop : s.Leads r buffers _ := leads_pop hcall haccesses hpos htop
  rwa [gotRxBuffer_advance { s with accesses := [], curFreeBuffer := s.curFreeBuffer - 1 } _ hcall,
    if_pos hcanceled] at hpop

/-! ## The loop -/

/-- At the head of the loop, when `m` packets go to the OS. -/
structure AtLoop (r : Rings) (s : RxQueue) (m : Nat) (t : RxQueue) (l : RxAdvance) : Prop where
  call : t.call = .advance l
  quiet : t.accesses = []
  asserted : t.asserted = true
  fragmentRing : t.fragmentRing = s.fragmentRing
  packetRing : t.packetRing = s.packetRing
  freeBuffers : t.freeBuffers = s.freeBuffers
  top : t.curFreeBuffer + m = s.curFreeBuffer
  fragmentIndex : l.fragmentIndex = (s.fragmentRing.beginIndex + m) % r.fragments
  packetIndex : l.packetIndex = (s.packetRing.beginIndex + m) % r.packets
  room : m ≤ s.room r

namespace AtLoop

variable {m : Nat}

/-- The loop begins. -/
theorem begin (hready : Ready r buffers s) (hcall : t.call = .advance l) (hquiet : t.accesses = [])
    (hasserted : t.asserted = true) (hfragmentRing : t.fragmentRing = s.fragmentRing)
    (hpacketRing : t.packetRing = s.packetRing) (hfree : t.freeBuffers = s.freeBuffers)
    (htop : t.curFreeBuffer = s.curFreeBuffer)
    (hfragment : l.fragmentIndex = s.fragmentRing.beginIndex)
    (hpacket : l.packetIndex = s.packetRing.beginIndex) : AtLoop r s 0 t l where
  call := hcall
  quiet := hquiet
  asserted := hasserted
  fragmentRing := hfragmentRing
  packetRing := hpacketRing
  freeBuffers := hfree
  top := htop
  fragmentIndex := hfragment.trans (Nat.mod_eq_of_lt hready.fragmentBegin).symm
  packetIndex := hpacket.trans (Nat.mod_eq_of_lt hready.packetBegin).symm
  room := Nat.zero_le _

/-- The test of the loop, as far as it is about room. -/
theorem room_iff (h : AtLoop r s m t l) (hready : Ready r buffers s) :
    (l.fragmentIndex ≠ t.fragmentRing.endIndex ∧ l.packetIndex ≠ t.packetRing.endIndex ∧
      t.curFreeBuffer ≠ 0) ↔ m < s.room r := by
  have hroom := h.room
  have htop := h.top
  rw [RxQueue.room, ringRoom, ringRoom] at hroom ⊢
  have hfragment := add_mod_eq_iff (m := m) hready.fragmentEnd hready.fragmentBegin (by omega)
  have hpacket := add_mod_eq_iff (m := m) hready.packetEnd hready.packetBegin (by omega)
  rw [h.fragmentIndex, h.packetIndex, h.fragmentRing, h.packetRing, ne_eq, ne_eq, ne_eq, hfragment,
    hpacket]
  omega

/-- What has been given to the OS is at other places of the rings. -/
theorem place_ne (h : AtLoop r s m t l) (hroom : m < s.room r) {i : Nat} (hi : i < m) :
    (s.fragmentRing.beginIndex + i) % r.fragments ≠ l.fragmentIndex ∧
      (s.packetRing.beginIndex + i) % r.packets ≠ l.packetIndex := by
  have hfragments := Nat.mod_lt (s.fragmentRing.endIndex + r.fragments - s.fragmentRing.beginIndex)
    r.fragments_pos
  have hpackets := Nat.mod_lt (s.packetRing.endIndex + r.packets - s.packetRing.beginIndex)
    r.packets_pos
  rw [RxQueue.room, ringRoom, ringRoom] at hroom
  rw [h.fragmentIndex, h.packetIndex]
  exact ⟨mod_ne_of_ne (d := s.fragmentRing.beginIndex) (by omega) (by omega) (by omega) (by omega)
    (by omega), mod_ne_of_ne (d := s.packetRing.beginIndex) (by omega) (by omega) (by omega)
    (by omega) (by omega)⟩

/-- One more packet goes to the OS. -/
theorem next (h : AtLoop r s m t l) (hroom : m < s.room r) {l' : RxAdvance}
    (hcall : u.call = .advance l') (hquiet : u.accesses = []) (hasserted : u.asserted = true)
    (hfragmentRing : u.fragmentRing = t.fragmentRing) (hpacketRing : u.packetRing = t.packetRing)
    (hfree : u.freeBuffers = t.freeBuffers) (htop : u.curFreeBuffer = t.curFreeBuffer - 1)
    (hfragment : l'.fragmentIndex = netRingIncrementIndex r.fragments l.fragmentIndex)
    (hpacket : l'.packetIndex = netRingIncrementIndex r.packets l.packetIndex) :
    AtLoop r s (m + 1) u l' where
  call := hcall
  quiet := hquiet
  asserted := hasserted
  fragmentRing := hfragmentRing.trans h.fragmentRing
  packetRing := hpacketRing.trans h.packetRing
  freeBuffers := hfree.trans h.freeBuffers
  top := by
    have hold := h.top
    rw [RxQueue.room] at hroom
    omega
  fragmentIndex := by
    rw [hfragment, h.fragmentIndex, netRingIncrementIndex_mod r.fragments_pos r.fragments_le]
    rfl
  packetIndex := by
    rw [hpacket, h.packetIndex, netRingIncrementIndex_mod r.packets_pos r.packets_le]
    rfl
  room := hroom

/-- The buffer that is popped is one of the queue. -/
theorem free (h : AtLoop r s m t l) (hready : Ready r buffers s) (hroom : m < s.room r) :
    t.curFreeBuffer ≠ 0 ∧ t.curFreeBuffer < 0x100000000 ∧
      ∃ b, t.freeBuffers (t.curFreeBuffer - 1) = some b := by
  have hold := h.top
  have htop := hready.top
  rw [RxQueue.room] at hroom
  obtain ⟨b, hb⟩ := hready.free (t.curFreeBuffer - 1) (by omega)
  rw [← h.freeBuffers] at hb
  exact ⟨by omega, by omega, b, hb⟩

end AtLoop

/-- The call has gone over `n` descriptors. -/
structure GoneOver (r : Rings) (buffers : Nat → GenetRxBuffer) (s : RxQueue) (n : Nat)
    (t : RxQueue) (l : RxAdvance) : Prop extends AtLoop r s (s.frames n).length t l where
  canceled : t.canceled = false
  prodIndex : t.prodIndex = s.consReg
  consIndex : t.consIndex = (s.consIndex + n) % 0x10000
  remaining : l.descsRemaining = true ↔ n ≠ s.pending
  posted : l.postedDescs = true ↔ 0 < n
  le : n ≤ s.pending
  indicated : ∀ i k, (s.frames n)[i]? = some k → Indicated r buffers s i k t
  attached : ∀ desc < numDescs, t.HasBuffer buffers desc
  kept : ∀ k < numDescs, n ≤ k ∨ s.whole k = false →
    t.descBuffers (s.descAt k) = s.descBuffers (s.descAt k) ∧
      t.bds (s.descAt k) = s.bds (s.descAt k)

theorem frames_succ (s : RxQueue) (n : Nat) :
    s.frames (n + 1) = s.frames n ++ if s.whole n then [n] else [] := by
  rw [frames, List.range_succ, List.filter_append]
  cases hwhole : s.whole n <;> simp [frames, hwhole]

namespace GoneOver

/-- The test of the loop. -/
theorem go_iff (h : GoneOver r buffers s n t l) (hready : Ready r buffers s) :
    (l.descsRemaining = true ∧ l.fragmentIndex ≠ t.fragmentRing.endIndex ∧
      l.packetIndex ≠ t.packetRing.endIndex ∧ t.curFreeBuffer ≠ 0) ↔
      n < s.pending ∧ (s.frames n).length < s.room r := by
  have hle := h.le
  rw [h.toAtLoop.room_iff hready, h.remaining]
  exact and_congr_left fun _ => ⟨Nat.lt_of_le_of_ne hle, Nat.ne_of_lt⟩

/-- The next descriptor. -/
theorem desc (h : GoneOver r buffers s n t l) (hready : Ready r buffers s) (hn : n < s.pending) :
    t.consIndex % numDescs = s.descAt n ∧
      (t.consIndex + 1) % 0x10000 = (s.consIndex + (n + 1)) % 0x10000 ∧
      (((t.consIndex + 1) % 0x10000 != t.prodIndex) = true ↔ n + 1 ≠ s.pending) := by
  have hcons := hready.consIndex
  have hreg := hready.consReg
  rw [h.consIndex, h.prodIndex, bne_iff_ne, descAt, numDescs]
  rw [pending] at hn ⊢
  refine ⟨by omega, by omega, ?_⟩
  omega

theorem turn_eq (h : GoneOver r buffers s n t l) (hready : Ready r buffers s)
    (hn : n < s.pending) (hroom : (s.frames n).length < s.room r) :
    t.turn buffers = (t.preparePacket l).consumeDesc buffers l := by
  rw [turn, h.call]
  show t.advanceFragment buffers l = _
  rw [advanceFragment, if_pos ((h.go_iff hready).2 ⟨hn, hroom⟩),
    if_neg (Bool.eq_false_iff.1 h.canceled)]

/-- One turn of the loop looks whether its descriptor has a whole packet. -/
theorem leads_consume (h : GoneOver r buffers s n t l) (hready : Ready r buffers s)
    (hn : n < s.pending) (hroom : (s.frames n).length < s.room r) :
    t.Leads r buffers ((t.preparePacket l).consumeDesc buffers l) ∧
      wholePacket ((t.preparePacket l).bds
        ((t.preparePacket l).consIndex % numDescs)).lengthStatus = s.whole n := by
  have hlead : t.Leads r buffers (t.turn buffers) := leads_turn
    (by rw [h.call]; exact RxCall.noConfusion) h.quiet
  rw [h.turn_eq hready hn hroom] at hlead
  refine ⟨hlead, ?_⟩
  show wholePacket (t.bds (t.consIndex % numDescs)).lengthStatus = s.whole n
  rw [(h.desc hready hn).1,
    (h.kept n (Nat.lt_of_lt_of_le hn hready.pending) (.inl (Nat.le_refl n))).2]
  rfl

/-- What the loop has given to the OS stays when other places are written. -/
theorem indicated_of_ne (h : GoneOver r buffers s n t l)
    (hroom : (s.frames n).length < s.room r)
    (hfragments : ∀ i, i ≠ l.fragmentIndex → u.fragments i = t.fragments i)
    (hpackets : ∀ i, i ≠ l.packetIndex → u.packets i = t.packets i) {i k : Nat}
    (hk : (s.frames n)[i]? = some k) : Indicated r buffers s i k u := by
  obtain ⟨hi, -⟩ := List.getElem?_eq_some_iff.1 hk
  obtain ⟨hfragment, hpacket⟩ := h.toAtLoop.place_ne hroom hi
  obtain ⟨hindex, hcount, hframe⟩ := h.indicated i k hk
  rw [← hpackets _ hpacket] at hindex hcount
  rw [← hfragments _ hfragment] at hframe
  exact ⟨hindex, hcount, hframe⟩

/-- A descriptor without a whole frame is skipped. -/
theorem skip (h : GoneOver r buffers s n t l) (hready : Ready r buffers s) (hn : n < s.pending)
    (hroom : (s.frames n).length < s.room r) (hwhole : s.whole n = false) :
    ∃ u l', t.Leads r buffers u ∧ GoneOver r buffers s (n + 1) u l' := by
  obtain ⟨-, hcons, hremaining⟩ := h.desc hready hn
  obtain ⟨hlead, hstatus⟩ := h.leads_consume hready hn hroom
  rw [consumeDesc, if_neg (by rw [hstatus, hwhole]; decide)] at hlead
  have hframes : s.frames (n + 1) = s.frames n := by
    rw [frames_succ, hwhole]
    exact List.append_nil _
  refine ⟨_, { l with
    postedDescs := true
    fragmentDesc := t.consIndex % numDescs
    descsRemaining := (t.consIndex + 1) % 0x10000 != t.prodIndex }, hlead, ?_⟩
  constructor
  case toAtLoop =>
    rw [hframes]
    exact { h.toAtLoop with call := rfl }
  case remaining => exact hremaining
  case posted => exact ⟨fun _ => Nat.succ_pos n, fun _ => rfl⟩
  case consIndex => exact hcons
  case le => exact hn
  case indicated =>
    rw [hframes]
    exact fun i k hk => h.indicated_of_ne hroom (fun i hi => Function.update_of_ne hi ..)
      (fun i hi => Function.update_of_ne hi ..) hk
  case kept =>
    intro k hk hor
    exact h.kept k hk (hor.imp (fun hle => Nat.le_of_succ_le hle) id)
  case canceled => exact h.canceled
  case prodIndex => exact h.prodIndex
  case attached => exact h.attached

/-- A whole frame goes to the OS, and its descriptor gets a buffer of the stack. -/
theorem handOver (h : GoneOver r buffers s n t l) (hready : Ready r buffers s)
    (hn : n < s.pending) (hroom : (s.frames n).length < s.room r) (hwhole : s.whole n = true) :
    ∃ u l', t.Leads r buffers u ∧ GoneOver r buffers s (n + 1) u l' := by
  obtain ⟨hdesc, hcons, hremaining⟩ := h.desc hready hn
  obtain ⟨hbuffer, hbd⟩ :=
    h.kept n (Nat.lt_of_lt_of_le hn hready.pending) (.inl (Nat.le_refl n))
  obtain ⟨hpos, htop, b, hb⟩ := h.toAtLoop.free hready hroom
  -- one turn of the loop consumes the descriptor, which has a whole packet
  obtain ⟨hlead, hstatus⟩ := h.leads_consume hready hn hroom
  rw [consumeDesc, if_pos (hstatus.trans hwhole)] at hlead
  -- there is a free buffer to refill it with
  have hpop := hlead.trans (leads_refill rfl h.canceled (by
    show Access.mk .get .check :: t.accesses = _
    rw [h.quiet]) hpos htop)
  have hframes : s.frames (n + 1) = s.frames n ++ [n] := by
    rw [frames_succ, hwhole]
    rfl
  have hlength : (s.frames (n + 1)).length = (s.frames n).length + 1 := by
    rw [hframes, List.length_append, List.length_singleton]
  refine ⟨_, { l with
    postedDescs := true
    fragmentDesc := t.consIndex % numDescs
    descsRemaining := (t.consIndex + 1) % 0x10000 != t.prodIndex
    fragmentIndex := netRingIncrementIndex r.fragments l.fragmentIndex
    packetIndex := netRingIncrementIndex r.packets l.packetIndex }, hpop, ?_⟩
  constructor
  case toAtLoop =>
    rw [hlength]
    refine h.toAtLoop.next hroom rfl rfl ?_ rfl rfl rfl rfl rfl rfl
    show (t.asserted && decide (t.consIndex % numDescs < numDescs)) = true
    rw [h.asserted, decide_eq_true (Nat.mod_lt _ (by decide))]
    rfl
  case remaining => exact hremaining
  case posted => exact ⟨fun _ => Nat.succ_pos n, fun _ => rfl⟩
  case consIndex => exact hcons
  case le => exact hn
  case canceled => exact h.canceled
  case prodIndex => exact h.prodIndex
  case indicated =>
    intro i k hk
    rw [hframes] at hk
    -- the packets before stay, and the last one is the frame of this descriptor
    rcases Nat.lt_or_ge i (s.frames n).length with hlt | hge
    · rw [List.getElem?_append_left hlt] at hk
      exact h.indicated_of_ne hroom
        (fun i hi => ((Function.update_of_ne hi ..).trans (Function.update_of_ne hi ..)).trans
          (Function.update_of_ne hi ..)) (fun i hi => Function.update_of_ne hi ..) hk
    · obtain rfl : i = (s.frames n).length := by
        have hlt := (List.getElem?_eq_some_iff.1 hk).1
        rw [List.length_append, List.length_singleton] at hlt
        omega
      rw [List.getElem?_concat_length] at hk
      obtain rfl := Option.some.inj hk
      have hpacket : ∀ packet, Function.update t.packets l.packetIndex packet
          ((s.packetRing.beginIndex + (s.frames n).length) % r.packets) = packet := fun packet => by
        rw [← h.packetIndex, Function.update_self]
      constructor
      case fragmentIndex =>
        exact (congrArg NetPacket.fragmentIndex (hpacket _)).trans h.fragmentIndex
      case fragmentCount => exact congrArg NetPacket.fragmentCount (hpacket _)
      case fragment =>
        rw [← h.fragmentIndex, frame, hardwareLength, ← hbd, ← hbuffer, ← hdesc]
        simp only [nextFragment, genetFillRxDesc, beginGet, setFragment, setLength, preparePacket,
          Function.update_self]
        rfl
  case attached =>
    intro desc hlt
    by_cases heq : desc = t.consIndex % numDescs
    · subst heq
      refine ⟨b, (Function.update_self ..).trans hb, ?_⟩
      show HasAddress buffers (Function.update t.bds (t.consIndex % numDescs) _ _) (some b)
      rw [Function.update_self, ← hb]
      exact ⟨rfl, rfl⟩
    · obtain ⟨b', hb', haddress⟩ := h.attached desc hlt
      refine ⟨b', (Function.update_of_ne heq ..).trans hb', ?_⟩
      show HasAddress buffers (Function.update t.bds (t.consIndex % numDescs) _ desc) (some b')
      rw [Function.update_of_ne heq]
      exact haddress
  case kept =>
    intro k hk hor
    have hkn : k ≠ n := by
      rintro rfl
      rcases hor with hle | hskipped
      · exact Nat.not_succ_le_self k hle
      · exact Bool.noConfusion (hwhole.symm.trans hskipped)
    -- fewer descriptors are pending than the ring has, so the others are elsewhere
    have hne : s.descAt k ≠ t.consIndex % numDescs := by
      have hpending := Nat.lt_of_lt_of_le hn hready.pending
      rw [hdesc, descAt, descAt]
      exact mod_ne_of_ne (d := s.consIndex) (by omega) (by omega) (by omega) (by omega) (by omega)
    obtain ⟨hbuffer', hbd'⟩ := h.kept k hk (hor.imp (fun hle => Nat.le_of_succ_le hle) id)
    exact ⟨(Function.update_of_ne hne ..).trans hbuffer', (Function.update_of_ne hne ..).trans hbd'⟩

/-- The call begins. -/
theorem start (hready : Ready r buffers s) (hcanceled : s.canceled = false) :
    ∃ l, GoneOver r buffers s 0 s.genetRxQueueAdvance l := by
  rw [genetRxQueueAdvance, if_neg (Bool.eq_false_iff.1 hcanceled)]
  refine ⟨⟨s.fragmentRing.beginIndex, s.packetRing.beginIndex, s.consIndex != s.consReg, false, 0⟩,
    ?_⟩
  constructor
  case toAtLoop => exact .begin hready rfl hready.quiet hready.asserted rfl rfl rfl rfl rfl rfl
  case canceled => exact hcanceled
  case prodIndex => rfl
  case consIndex => exact (Nat.mod_eq_of_lt hready.consIndex).symm
  case remaining =>
    have hcons := hready.consIndex
    have hreg := hready.consReg
    show (s.consIndex != s.consReg) = true ↔ _
    rw [bne_iff_ne, pending]
    omega
  case posted => exact ⟨fun h => Bool.noConfusion h, fun h => absurd h (Nat.lt_irrefl 0)⟩
  case le => exact Nat.zero_le _
  case indicated => exact fun i k hk => by cases hk
  case attached => exact hready.attached
  case kept => exact fun _ _ _ => ⟨rfl, rfl⟩

/-- What the call leaves when its loop has ended. -/
theorem goesOver (h : GoneOver r buffers s n t l)
    (hstop : ¬ (n < s.pending ∧ (s.frames n).length < s.room r))
    (hfragmentBegin : u.fragmentRing.beginIndex = l.fragmentIndex)
    (hpacketBegin : u.packetRing.beginIndex = l.packetIndex) (hpackets : u.packets = t.packets)
    (hfragments : u.fragments = t.fragments) (hbuffers : u.descBuffers = t.descBuffers)
    (hbds : u.bds = t.bds) (hcons : u.consIndex = t.consIndex)
    (hprod : l.postedDescs = true → u.prodReg = u.consIndex) : GoesOver r buffers s n u where
  le := h.le
  room := h.room
  stops hn := Nat.le_antisymm h.room (Nat.le_of_not_lt fun hroom => hstop ⟨hn, hroom⟩)
  fragmentBegin := hfragmentBegin.trans h.fragmentIndex
  packetBegin := hpacketBegin.trans h.packetIndex
  indicated i k hk := by
    obtain ⟨hindex, hcount, hframe⟩ := h.indicated i k hk
    rw [← hpackets] at hindex hcount
    rw [← hfragments] at hframe
    exact ⟨hindex, hcount, hframe⟩
  consIndex := hcons.trans h.consIndex
  prodReg hn := hprod (h.posted.2 hn)
  attached desc hdesc := by
    rw [HasBuffer, hbuffers, hbds]
    exact h.attached desc hdesc
  kept k hk hor := by
    rw [hbuffers, hbds]
    exact h.kept k hk hor

/-- The loop ends, and the call returns. -/
theorem finish (h : GoneOver r buffers s n t l) (hready : Ready r buffers s)
    (hstop : ¬ (n < s.pending ∧ (s.frames n).length < s.room r)) :
    ∃ u, t.Leads r buffers u ∧ u.call = .idle ∧ u.asserted = true ∧ GoesOver r buffers s n u := by
  have hlead : t.Leads r buffers (t.turn buffers) := leads_turn
    (by rw [h.call]; exact RxCall.noConfusion) h.quiet
  rw [turn, h.call] at hlead
  dsimp only at hlead
  rw [advanceFragment, if_neg (fun hgo => hstop ((h.go_iff hready).1 hgo))] at hlead
  have hpublish := hlead.trans (leads_turn (by exact RxCall.noConfusion) h.quiet)
  rw [turn] at hpublish
  dsimp only at hpublish
  rw [publish] at hpublish
  cases hposted : l.postedDescs with
  | false =>
    rw [hposted, if_neg (by decide)] at hpublish
    exact ⟨_, hpublish, rfl, h.asserted, h.goesOver hstop rfl rfl rfl rfl rfl rfl rfl
      fun htrue => Bool.noConfusion (hposted.symm.trans htrue)⟩
  | true =>
    rw [hposted, if_pos rfl] at hpublish
    exact ⟨_, hpublish, rfl, h.asserted, h.goesOver hstop rfl rfl rfl rfl rfl rfl rfl
      fun _ => rfl⟩

/-- **The call goes over descriptors until it runs out of them, of room or of buffers.** -/
theorem run (h : GoneOver r buffers s n t l) (hready : Ready r buffers s) :
    ∃ u m, t.Leads r buffers u ∧ u.call = .idle ∧ u.asserted = true ∧
      GoesOver r buffers s m u := by
  obtain ⟨rest, hrest⟩ : ∃ rest, n + rest = s.pending := ⟨_, Nat.add_sub_of_le h.le⟩
  -- by induction on the descriptors that are left
  induction rest generalizing n t l with
  | zero =>
    obtain ⟨u, hu⟩ := h.finish hready (fun hgo => by omega)
    exact ⟨u, n, hu⟩
  | succ rest ih =>
    by_cases hroom : (s.frames n).length < s.room r
    · have hn : n < s.pending := by omega
      obtain ⟨u, l', hlead, hnext⟩ : ∃ u l', t.Leads r buffers u ∧
          GoneOver r buffers s (n + 1) u l' := by
        cases hwhole : s.whole n with
        | false => exact h.skip hready hn hroom hwhole
        | true => exact h.handOver hready hn hroom hwhole
      obtain ⟨v, m, hv, hrun⟩ := ih hnext (by omega)
      exact ⟨v, m, hlead.trans hv, hrun⟩
    · obtain ⟨u, hu⟩ := h.finish hready (fun hgo => hroom hgo.2)
      exact ⟨u, n, hu⟩

end GoneOver

/-! ## The loop after a cancel -/

/-- `m` free buffers go to the OS. -/
structure HandingBack (r : Rings) (s : RxQueue) (m : Nat) (t : RxQueue) (l : RxAdvance) : Prop
    extends AtLoop r s m t l where
  canceled : t.canceled = true
  remaining : l.descsRemaining = true
  posted : l.postedDescs = false
  consIndex : t.consIndex = s.consIndex
  prodReg : t.prodReg = s.prodReg
  descBuffers : t.descBuffers = s.descBuffers
  bds : t.bds = s.bds
  empty : ∀ i < m, (t.fragments ((s.fragmentRing.beginIndex + i) % r.fragments)).validLength = 0

namespace HandingBack

variable {m : Nat}

theorem start (hready : Ready r buffers s) (hcanceled : s.canceled = true) :
    ∃ l, HandingBack r s 0 s.genetRxQueueAdvance l := by
  rw [genetRxQueueAdvance, if_pos hcanceled]
  refine ⟨⟨s.fragmentRing.beginIndex, s.packetRing.beginIndex, true, false, 0⟩, ?_⟩
  exact
    { toAtLoop := .begin hready rfl hready.quiet hready.asserted rfl rfl rfl rfl rfl rfl
      canceled := hcanceled
      remaining := rfl
      posted := rfl
      consIndex := rfl
      prodReg := rfl
      descBuffers := rfl
      bds := rfl
      empty := fun i hi => absurd hi (Nat.not_lt_zero i) }

theorem step (h : HandingBack r s m t l) (hready : Ready r buffers s) (hroom : m < s.room r) :
    ∃ u l', t.Leads r buffers u ∧ HandingBack r s (m + 1) u l' := by
  obtain ⟨hpos, htop, -⟩ := h.toAtLoop.free hready hroom
  have hlead : t.Leads r buffers (t.turn buffers) := leads_turn
    (by rw [h.call]; exact RxCall.noConfusion) h.quiet
  rw [turn, h.call] at hlead
  dsimp only at hlead
  rw [advanceFragment, if_pos ⟨h.remaining, (h.toAtLoop.room_iff hready).2 hroom⟩,
    if_pos h.canceled] at hlead
  have hpop := hlead.trans (leads_handBack rfl h.canceled (by
    show Access.mk .get .check :: t.accesses = _
    rw [h.quiet]) hpos htop)
  refine ⟨_, { l with
    fragmentIndex := netRingIncrementIndex r.fragments l.fragmentIndex
    packetIndex := netRingIncrementIndex r.packets l.packetIndex }, hpop, ?_⟩
  constructor
  case toAtLoop => exact h.toAtLoop.next hroom rfl rfl h.asserted rfl rfl rfl rfl rfl rfl
  case canceled => exact h.canceled
  case remaining => exact h.remaining
  case posted => exact h.posted
  case consIndex => exact h.consIndex
  case prodReg => exact h.prodReg
  case descBuffers => exact h.descBuffers
  case bds => exact h.bds
  case empty =>
    intro i hi
    rcases Nat.lt_succ_iff_lt_or_eq.1 hi with hlt | rfl
    · have hne := (h.toAtLoop.place_ne hroom hlt).1
      exact (congrArg RxFragment.validLength (((Function.update_of_ne hne ..).trans
        (Function.update_of_ne hne ..)).trans (Function.update_of_ne hne ..))).trans (h.empty i hlt)
    · rw [← h.fragmentIndex]
      simp only [nextFragment, setFragment, beginGet, setLength, preparePacket,
        Function.update_self]

theorem finish (h : HandingBack r s m t l) (hready : Ready r buffers s)
    (hstop : ¬ m < s.room r) :
    ∃ u, t.Leads r buffers u ∧ u.call = .idle ∧ u.asserted = true ∧ HandsBack r s u := by
  have hlead : t.Leads r buffers (t.turn buffers) := leads_turn
    (by rw [h.call]; exact RxCall.noConfusion) h.quiet
  rw [turn, h.call] at hlead
  dsimp only at hlead
  rw [advanceFragment, if_neg (fun hgo => hstop ((h.toAtLoop.room_iff hready).1 hgo.2))] at hlead
  have hpublish := hlead.trans (leads_turn (by exact RxCall.noConfusion) h.quiet)
  rw [turn] at hpublish
  dsimp only at hpublish
  rw [publish, h.posted, if_neg (by decide)] at hpublish
  obtain rfl : m = s.room r := Nat.le_antisymm h.room (Nat.le_of_not_lt hstop)
  exact ⟨_, hpublish, rfl, h.asserted, h.consIndex, h.prodReg, h.descBuffers, h.bds,
    h.fragmentIndex, h.packetIndex, h.empty⟩

theorem run (h : HandingBack r s m t l) (hready : Ready r buffers s) :
    ∃ u, t.Leads r buffers u ∧ u.call = .idle ∧ u.asserted = true ∧ HandsBack r s u := by
  obtain ⟨rest, hrest⟩ : ∃ rest, m + rest = s.room r := ⟨_, Nat.add_sub_of_le h.room⟩
  induction rest generalizing m t l with
  | zero => exact h.finish hready (by omega)
  | succ rest ih =>
    obtain ⟨u, l', hlead, hnext⟩ := h.step hready (by omega)
    obtain ⟨v, hv, hrun⟩ := ih hnext (by omega)
    exact ⟨v, hlead.trans hv, hrun⟩

end HandingBack

end RxQueue

/-! ## The condition -/

section Condition

variable {r : Rings} {buffers : Nat → GenetRxBuffer} {s s' : RxQueue} {n : Nat}

theorem length_frames_le (s : RxQueue) {k : Nat} (h : k ≤ n) :
    (s.frames k).length ≤ (s.frames n).length :=
  ((List.range_sublist.2 h).filter s.whole).length_le

theorem mem_frames {k : Nat} : k ∈ s.frames n ↔ k < n ∧ s.whole k = true := by
  rw [RxQueue.frames, List.mem_filter, List.mem_range]

/-- The lengths that a call writes. -/
theorem GoesOver.noUnderflow_iff (h : GoesOver r buffers s n s') :
    (∀ i < (s.frames n).length,
      0 ≤ (s'.fragments ((s.fragmentRing.beginIndex + i) % r.fragments)).validLength) ↔
      ∀ k < s.pending, s.whole k = true → (s.frames k).length < s.room r →
        2 ≤ s.hardwareLength k := by
  have hvalid : ∀ i k, (s.frames n)[i]? = some k →
      (s'.fragments ((s.fragmentRing.beginIndex + i) % r.fragments)).validLength =
        (s.hardwareLength k : Int) - 2 := fun i k hk => by
    rw [(h.indicated i k hk).fragment]
    rfl
  constructor
  · intro hnonneg k hk hwhole hroom
    have hkn : k < n := by
      by_contra hnk
      have hle := length_frames_le s (Nat.le_of_not_lt hnk)
      have hstops := h.stops (by omega)
      omega
    obtain ⟨i, hi⟩ := List.mem_iff_getElem?.1 (mem_frames.2 ⟨hkn, hwhole⟩)
    have hlength := hnonneg i (List.getElem?_eq_some_iff.1 hi).1
    rw [hvalid i k hi] at hlength
    omega
  · intro hlong i hi
    obtain ⟨k, hk⟩ : ∃ k, (s.frames n)[i]? = some k := ⟨_, List.getElem?_eq_getElem hi⟩
    obtain ⟨hkn, hwhole⟩ := mem_frames.1 (List.mem_of_getElem? hk)
    have hle := length_frames_le s (Nat.succ_le_of_lt hkn)
    rw [RxQueue.frames_succ, if_pos hwhole, List.length_append, List.length_singleton] at hle
    have hroom := h.room
    have htwo := hlong k (Nat.lt_of_lt_of_le hkn h.le) hwhole (by omega)
    rw [hvalid i k hk]
    omega

/-- **A call goes over the filled descriptors and gives the whole frames to the OS; it is sound
exactly when each whole frame that there is room for has at least 2 bytes.** -/
theorem advanceSound_iff (hready : Ready r buffers s) :
    (∃ s', s.Returns r buffers s') ∧
      ∀ s', s.Returns r buffers s' → (AdvanceSound r buffers s s' ↔ LengthsHold r s) := by
  cases hcanceled : s.canceled with
  | false =>
    obtain ⟨l, hstart⟩ := RxQueue.GoneOver.start hready hcanceled
    obtain ⟨u, n, ⟨steps, rfl⟩, hidle, hasserted, hgoes⟩ := hstart.run hready
    refine ⟨⟨_, steps, rfl, hidle⟩, fun s' hs' => ?_⟩
    obtain rfl := hs'.unique ⟨steps, rfl, hidle⟩
    constructor
    · intro hsound _
      obtain ⟨m, hm, hnonneg⟩ := hsound.received hcanceled
      exact hm.noUnderflow_iff.1 hnonneg
    · intro hlong
      exact ⟨hasserted, fun _ => ⟨n, hgoes, hgoes.noUnderflow_iff.2 (hlong hcanceled)⟩,
        fun hnot => Bool.noConfusion (hcanceled.symm.trans hnot)⟩
  | true =>
    obtain ⟨l, hstart⟩ := RxQueue.HandingBack.start hready hcanceled
    obtain ⟨u, ⟨steps, rfl⟩, hidle, hasserted, hback⟩ := hstart.run hready
    refine ⟨⟨_, steps, rfl, hidle⟩, fun s' hs' => ?_⟩
    obtain rfl := hs'.unique ⟨steps, rfl, hidle⟩
    exact ⟨fun _ hnot => Bool.noConfusion (hcanceled.symm.trans hnot),
      fun _ => ⟨hasserted, fun hnot => Bool.noConfusion (hcanceled.symm.trans hnot),
        fun _ => hback⟩⟩

/-- What a call finds in a run in which no access to the stack is disturbed. -/
theorem ready_of_undisturbed (h : (rxMachine r buffers).Reach Undisturbed s)
    (hidle : s.call = .idle) (hstarted : s.started = true) (hquiet : s.accesses = []) :
    Ready r buffers s := by
  have hinv := RxQueue.inv_of_undisturbed h
  obtain ⟨hcons, -, hprodReg, hconsReg, hrefilled, hconsumed, hseen, hreceived⟩ := hinv.counters
  have hrings := hinv.rings
  have hwindows : s.windows = [] := by rw [RxQueue.windows, hquiet]; rfl
  have hfree : s.freeList = stackEntries s.freeBuffers s.curFreeBuffer := by
    rw [RxQueue.freeList, hwindows]
    rfl
  constructor
  case idle => exact hidle
  case quiet => exact hquiet
  case asserted => exact hinv.asserted
  case consIndex => exact hcons ▸ Nat.mod_lt _ (by decide)
  case consReg => exact hconsReg ▸ Nat.mod_lt _ (by decide)
  case pending =>
    rw [numDescs] at hreceived
    rw [RxQueue.pending, hcons, hconsReg, numDescs]
    omega
  case fragmentBegin => exact hrings.fragmentBegin ▸ Nat.mod_lt _ r.fragments_pos
  case fragmentEnd => exact hrings.fragmentEnd ▸ Nat.mod_lt _ r.fragments_pos
  case packetBegin => exact hrings.packetBegin ▸ Nat.mod_lt _ r.packets_pos
  case packetEnd => exact hrings.packetEnd ▸ Nat.mod_lt _ r.packets_pos
  case top =>
    have hle := hinv.entryCount_le
    rw [hwindows] at hle
    exact Nat.lt_of_le_of_lt hle (Nat.lt_of_succ_lt (numBuffers_lt r))
  case free =>
    intro i hi
    have hmem : s.freeBuffers i ∈ s.freeList :=
      hfree ▸ List.mem_map_of_mem (List.mem_range.2 hi)
    obtain ⟨b, -, hb⟩ := mem_allBuffers.1 (hinv.places.perm.mem_iff.1
      (List.mem_append_left _ (List.mem_append_left _ hmem)))
    exact ⟨b, hb⟩
  case attached =>
    intro desc hdesc
    obtain ⟨b, -, hb, haddress, -⟩ := hinv.sound.filled hstarted desc hdesc
    exact ⟨b, hb, haddress⟩

end Condition

/-! ## A call that the condition allows, and one that it does not -/

/-- The queue is started, and has room for three packets. -/
def roomRun : List RxAction :=
  startRun ++ [RxAction.addFragment, .addFragment, .addFragment, .addPacket, .addPacket, .addPacket]

def isTwoFrames (s : RxQueue) : Bool :=
  s.call == .idle && s.started && s.accesses == [] && s.frames s.pending == [0, 2]

def isEmptyFrame (s : RxQueue) : Bool :=
  let s' := RxQueue.runCall smallRings smallBuffers 8 s.genetRxQueueAdvance
  s.call == .idle && s.started && s.accesses == [] && !s.canceled &&
    s.fragmentRing.beginIndex == 0 && s'.call == .idle && s'.fragmentRing.beginIndex == 1 &&
    (s'.fragments 0).validLength == -2

def isRoom (s : RxQueue) : Bool :=
  let run := (rxMachine smallRings smallBuffers).execOk Undisturbed s
  (run [.receive 0x406000, .receive 0x406001, .receive 0x406000]).any isTwoFrames &&
    (run [.receive 0x6000]).any isEmptyFrame

-- one evaluation of the start for both
theorem frames_reached :
    (∃ s, (rxMachine smallRings smallBuffers).Reach Undisturbed s ∧ isTwoFrames s = true) ∧
      ∃ s, (rxMachine smallRings smallBuffers).Reach Undisturbed s ∧ isEmptyFrame s = true := by
  obtain ⟨t, ht, hroom⟩ := Machine.reach_execOk_any (rxMachine smallRings smallBuffers) Undisturbed
    roomRun (p := isRoom) createdRxQueue_init (by decide +kernel)
  rw [isRoom, Bool.and_eq_true, Option.any_eq_true, Option.any_eq_true] at hroom
  obtain ⟨⟨s, hs, hp⟩, s', hs', hp'⟩ := hroom
  exact ⟨⟨s, ht.execOk hs, hp⟩, s', ht.execOk hs', hp'⟩

/-- Two frames, and a descriptor with an error between them. -/
theorem advanceSound_iff_twoFrames : ∃ s, (rxMachine smallRings smallBuffers).Reach Undisturbed s ∧
    s.frames s.pending = [0, 2] ∧
    (∃ s', s.Returns smallRings smallBuffers s') ∧
      ∀ s', s.Returns smallRings smallBuffers s' →
        (AdvanceSound smallRings smallBuffers s s' ↔ LengthsHold smallRings s) := by
  obtain ⟨s, hs, hp⟩ := frames_reached.1
  simp only [isTwoFrames, Bool.and_eq_true, beq_iff_eq] at hp
  obtain ⟨⟨⟨hidle, hstarted⟩, hquiet⟩, hframes⟩ := hp
  exact ⟨s, hs, hframes, advanceSound_iff (ready_of_undisturbed hs hidle hstarted hquiet)⟩

/-- A whole frame of no bytes is given to the OS with a length of -2. -/
theorem empty_frame : ¬ ∀ s, (rxMachine smallRings smallBuffers).Reach Undisturbed s →
    s.call = .idle → s.started = true → s.accesses = [] →
      ∀ s', s.Returns smallRings smallBuffers s' →
        AdvanceSound smallRings smallBuffers s s' := by
  intro h
  obtain ⟨s, hs, hp⟩ := frames_reached.2
  simp only [isEmptyFrame, Bool.and_eq_true, beq_iff_eq, Bool.not_eq_true'] at hp
  obtain ⟨⟨⟨⟨⟨⟨⟨hidle, hstarted⟩, hquiet⟩, hcanceled⟩, hbegin⟩, hreturned⟩, hbegin'⟩, hlength⟩ := hp
  have hsound := h s hs hidle hstarted hquiet _ ⟨8, rfl, hreturned⟩
  obtain ⟨n, hgoes, hnonneg⟩ := hsound.received hcanceled
  have hone := hgoes.fragmentBegin
  rw [hbegin', hbegin] at hone
  have hpos : 0 < (s.frames n).length := by
    by_contra hzero
    rw [Nat.eq_zero_of_not_pos hzero] at hone
    exact absurd hone (by decide)
  have hzero := hnonneg 0 hpos
  rw [hbegin, show (0 + 0) % smallRings.fragments = 0 from rfl, hlength] at hzero
  exact absurd hzero (by decide)

end RpiDrivers.Genet
