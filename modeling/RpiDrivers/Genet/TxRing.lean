import RpiDrivers.Lib.Machine
import RpiDrivers.Lib.Ring
import Mathlib.Data.List.Count
import Mathlib.Data.List.GetD

/-!
# The transmit ring of GENET (`bcmgenet/driver.c`)

`GenetTxQueueAdvance` goes over the packets that the OS has added, writes one descriptor for each
fragment, and tells the controller its producer index. Then it reads the consumer index and goes
over the packets that it has posted, until one has a descriptor that is not consumed. The OS has two
rings, and the controller has 16-bit indices over 256 descriptors.

- `txMachine`: the calls, turn by turn, with the controller in between.
- `TxRingSound`: no descriptor is overwritten, and the packets are returned in their order.
- `txRingSound_of_reachable`: **every run is sound**.
-/

namespace RpiDrivers.Genet

open RpiDrivers.Lib

/-- `BG_NUM_BDS`, the `numDescs` of the queue -/
def numDescs : Nat := 256

/-- The sizes of the two rings of the OS. Their indices and sums of two indices are `ULONG`s. -/
structure Rings where
  packets : Nat
  fragments : Nat
  packets_pos : 0 < packets
  packets_le : packets ≤ 0x80000000
  fragments_pos : 0 < fragments
  fragments_le : fragments ≤ 0x80000000

/-- `NetRingIncrementIndex` -/
def netRingIncrementIndex (numberOfElements index : Nat) : Nat :=
  (index + 1) % 0x100000000 % numberOfElements

/-- `(a - b) % txQueue->numDescs` -/
def descDistance (a b : Nat) : Nat := (a + 0x100000000 - b) % 0x100000000 % numDescs

/-- `NET_PACKET` -/
structure NetPacket where
  ignore : Bool
  fragmentIndex : Nat
  fragmentCount : Nat

/-- `NET_FRAGMENT`, with its extension `NET_FRAGMENT_LOGICAL_ADDRESS`. -/
structure NetFragment where
  validLength : Nat
  offset : Nat
  logicalAddress : Nat

/-- `NET_RING` -/
structure NetRing where
  beginIndex : Nat
  nextIndex : Nat
  endIndex : Nat

structure GenetTxPacket where
  lastDesc : Nat
  endFragment : Nat

/-- `BG_DMA_DESC` -/
structure DmaDesc where
  lengthStatus : Nat
  addressLo : Nat
  addressHi : Nat

/-- `length_status`: `QTAG`, `SOP` with `TX_CRC` on the first fragment, and `EOP` on the last one. -/
def lengthStatus (fragment : NetFragment) (packetDescNum fragmentCount : Nat) : Nat :=
  (fragment.validLength % 0x10000) <<< 16 ||| 0x3f <<< 7 |||
    (if packetDescNum = 0 then 1 <<< 13 ||| 1 <<< 6 else 0) |||
    (if packetDescNum + 1 = fragmentCount then 1 <<< 14 else 0)

def fragmentAddress (fragment : NetFragment) : Nat :=
  (fragment.logicalAddress + fragment.offset) % 0x10000000000000000

/-- The three words that are written for a fragment. -/
def dmaDesc (fragment : NetFragment) (packetDescNum fragmentCount : Nat) : DmaDesc where
  lengthStatus := lengthStatus fragment packetDescNum fragmentCount
  addressLo := fragmentAddress fragment % 0x100000000
  addressHi := fragmentAddress fragment / 0x100000000

/-- Where `GenetTxQueueAdvance` is. -/
inductive Advance
  | idle
  /-- at the head of the loop over the packets that are to be posted -/
  | packet (packetIndex freeDescs : Nat) (postedDescs : Bool)
  /-- at the head of the loop over the fragments of a packet -/
  | fragment (packetIndex freeDescs fragmentIndex fragmentEndIndex packetDescNum : Nat)
      (postedDescs : Bool)
  /-- `NextIndex` is stored, the producer index is to be written -/
  | publish (postedDescs : Bool)
  | readConsIndex
  /-- at the head of the loop over the packets that are posted -/
  | complete (packetIndex fragmentIndex hwDescs : Nat)
  deriving DecidableEq

/-- `GenetTxQueue`, the rings and the controller. -/
structure TxQueue where
  packetRing : NetRing
  packets : Nat → NetPacket
  fragmentRing : NetRing
  fragments : Nat → NetFragment
  packetContexts : Nat → GenetTxPacket
  prodIndex : Nat
  consIndex : Nat
  bds : Nat → DmaDesc
  /-- `TDMA_Prod_Index` -/
  prodReg : Nat
  /-- `TDMA_Cons_Index` -/
  consReg : Nat
  call : Advance
  /-- no assertion has failed -/
  asserted : Bool
  /-- the packets that the OS has added; their indices are the numbers of the packets -/
  added : List NetPacket
  /-- the number of the packet in a slot -/
  numbers : Nat → Nat
  /-- the packet of each descriptor that was written -/
  descs : List Nat
  /-- the descriptor in a place -/
  written : Nat → Option Nat
  /-- how many packets the first loop has passed -/
  next : Nat
  /-- how many descriptors the controller has been told of -/
  published : Nat
  /-- how many descriptors it has consumed -/
  consumed : Nat
  /-- how many of them the driver knows of -/
  seen : Nat
  /-- the packets that the second loop has passed, and what was consumed then -/
  returned : List (Nat × Nat)
  /-- the descriptors that were written over before they were consumed -/
  overwritten : List Nat

namespace TxQueue

variable (r : Rings) (s : TxQueue)

def prodDesc : Nat := s.prodIndex % numDescs

/-- The fragments of a packet are put into their ring. -/
def writeFragments (fragmentIndex : Nat) (fragments : List NetFragment) : Nat → NetFragment :=
  fun i => (fragments[(i + r.fragments - fragmentIndex) % r.fragments]?).getD (s.fragments i)

/-- The OS adds a packet. -/
def addPacket (ignore : Bool) (fragmentIndex : Nat) (fragments : List NetFragment) : TxQueue :=
  let packet : NetPacket := ⟨ignore, fragmentIndex, fragments.length⟩
  let i := s.packetRing.endIndex
  { s with
    packets := fun j => if j = i then packet else s.packets j
    fragments := s.writeFragments r fragmentIndex fragments
    packetRing := { s.packetRing with endIndex := netRingIncrementIndex r.packets i }
    added := s.added ++ [packet]
    numbers := fun j => if j = i then s.added.length else s.numbers j }

/-- `GenetTxQueueAdvance` is called. -/
def advance : TxQueue :=
  let hwDescs := descDistance s.prodDesc (s.consIndex % numDescs)
  { s with call := .packet s.packetRing.nextIndex (numDescs - hwDescs - 1) false }

/-- The first loop goes on to the next packet. -/
def nextPacket (packetIndex freeDescs : Nat) (postedDescs : Bool) : TxQueue :=
  { s with
    call := .packet (netRingIncrementIndex r.packets packetIndex) freeDescs postedDescs
    next := s.next + 1 }

/-- The first loop ends. -/
def endPost (packetIndex : Nat) (postedDescs : Bool) : TxQueue :=
  { s with
    packetRing := { s.packetRing with nextIndex := packetIndex }
    call := .publish postedDescs }

/-- One turn of the first loop, up to the loop over the fragments. -/
def postPacket (packetIndex freeDescs : Nat) (postedDescs : Bool) : TxQueue :=
  let packet := s.packets packetIndex
  if packetIndex = s.packetRing.endIndex then s.endPost packetIndex postedDescs
  else if packet.ignore then s.nextPacket r packetIndex freeDescs postedDescs
  else if freeDescs < packet.fragmentCount then s.endPost packetIndex postedDescs
  else
    let fragmentEndIndex := netRingIncrementIndex r.fragments
      ((packet.fragmentIndex + packet.fragmentCount + 0xffffffff) % 0x100000000)
    { s with
      call := .fragment packetIndex freeDescs packet.fragmentIndex fragmentEndIndex 0 postedDescs }

/-- A descriptor is written. -/
def writeDesc (packetIndex : Nat) (bd : DmaDesc) : TxQueue :=
  let i := s.prodDesc
  { s with
    bds := fun j => if j = i then bd else s.bds j
    packetContexts := fun j =>
      if j = packetIndex then { s.packetContexts j with lastDesc := i } else s.packetContexts j
    prodIndex := (s.prodIndex + 1) % 0x10000
    descs := s.descs ++ [s.numbers packetIndex]
    written := fun j => if j = i then some s.descs.length else s.written j
    overwritten := s.overwritten ++ (s.written i).toList.filter fun n => s.consumed ≤ n }

/-- The loop over the fragments has ended. -/
def endPacket (packetIndex freeDescs fragmentIndex packetDescNum : Nat) (postedDescs : Bool) :
    TxQueue :=
  let packet := s.packets packetIndex
  { s.nextPacket r packetIndex (freeDescs - packet.fragmentCount) postedDescs with
    asserted := s.asserted && decide (packetDescNum = packet.fragmentCount)
    packetContexts := fun j =>
      if j = packetIndex then { s.packetContexts j with endFragment := fragmentIndex }
      else s.packetContexts j
    fragmentRing := { s.fragmentRing with nextIndex := fragmentIndex } }

/-- One turn of the loop over the fragments. -/
def postFragment (packetIndex freeDescs fragmentIndex fragmentEndIndex packetDescNum : Nat)
    (postedDescs : Bool) : TxQueue :=
  if fragmentIndex = fragmentEndIndex then
    s.endPacket r packetIndex freeDescs fragmentIndex packetDescNum postedDescs
  else
    let bd := dmaDesc (s.fragments fragmentIndex) packetDescNum (s.packets packetIndex).fragmentCount
    { s.writeDesc packetIndex bd with
      call := .fragment packetIndex freeDescs (netRingIncrementIndex r.fragments fragmentIndex)
        fragmentEndIndex (packetDescNum + 1) true }

def publish (postedDescs : Bool) : TxQueue :=
  if postedDescs then
    { s with call := .readConsIndex, prodReg := s.prodIndex, published := s.descs.length }
  else { s with call := .readConsIndex }

def readConsIndex : TxQueue :=
  let hwDescs := descDistance s.prodDesc (s.consReg % numDescs)
  { s with
    call := .complete s.packetRing.beginIndex s.fragmentRing.beginIndex hwDescs
    consIndex := s.consReg
    seen := s.consumed }

/-- The second loop goes on to the next packet. -/
def returnPacket (packetIndex fragmentIndex hwDescs : Nat) : TxQueue :=
  { s with
    call := .complete (netRingIncrementIndex r.packets packetIndex) fragmentIndex hwDescs
    returned := s.returned ++ [(s.numbers packetIndex, s.consumed)] }

/-- The second loop ends. -/
def endComplete (packetIndex fragmentIndex : Nat) : TxQueue :=
  { s with
    packetRing := { s.packetRing with beginIndex := packetIndex }
    fragmentRing := { s.fragmentRing with beginIndex := fragmentIndex }
    call := .idle }

/-- One turn of the second loop. -/
def completePacket (packetIndex fragmentIndex hwDescs : Nat) : TxQueue :=
  let txPacket := s.packetContexts packetIndex
  if packetIndex = s.packetRing.nextIndex then s.endComplete packetIndex fragmentIndex
  else if (s.packets packetIndex).ignore then s.returnPacket r packetIndex fragmentIndex hwDescs
  else if descDistance s.prodDesc txPacket.lastDesc ≤ hwDescs then
    s.endComplete packetIndex fragmentIndex
  else s.returnPacket r packetIndex txPacket.endFragment hwDescs

/-- The call goes on. -/
def turn : TxQueue :=
  match s.call with
  | .idle => s
  | .packet packetIndex freeDescs postedDescs => s.postPacket r packetIndex freeDescs postedDescs
  | .fragment packetIndex freeDescs fragmentIndex fragmentEndIndex packetDescNum postedDescs =>
    s.postFragment r packetIndex freeDescs fragmentIndex fragmentEndIndex packetDescNum postedDescs
  | .publish postedDescs => s.publish postedDescs
  | .readConsIndex => s.readConsIndex
  | .complete packetIndex fragmentIndex hwDescs =>
    s.completePacket r packetIndex fragmentIndex hwDescs

/-- The controller has sent the next `k` descriptors. -/
def consume (k : Nat) : TxQueue :=
  { s with consReg := (s.consReg + k) % 0x10000, consumed := s.consumed + k }

/-- `GenetTxQueueStart`, with new rings. What is in memory is arbitrary. -/
def genetTxQueueStart (packets : Nat → NetPacket) (fragments : Nat → NetFragment)
    (packetContexts : Nat → GenetTxPacket) (bds : Nat → DmaDesc) (numbers : Nat → Nat) :
    TxQueue where
  packetRing := ⟨0, 0, 0⟩
  packets := packets
  fragmentRing := ⟨0, 0, 0⟩
  fragments := fragments
  packetContexts := packetContexts
  prodIndex := 0
  consIndex := 0
  bds := bds
  prodReg := 0
  consReg := 0
  call := .idle
  asserted := true
  added := []
  numbers := numbers
  descs := []
  written := fun _ => none
  next := 0
  published := 0
  consumed := 0
  seen := 0
  returned := []
  overwritten := []

end TxQueue

inductive TxAction
  | addPacket (ignore : Bool) (fragmentIndex : Nat) (fragments : List NetFragment)
  | advance
  | turn
  | consume (k : Nat)

namespace TxQueue

/-- When a step can happen. The OS adds packets between the calls, when the ring has a free slot; a
packet that is not to be ignored has its fragments in the fragment ring. The controller consumes up
to the producer index. -/
def enabled (r : Rings) (s : TxQueue) : TxAction → Prop
  | .addPacket ignore fragmentIndex fragments =>
    s.call = .idle ∧
      netRingIncrementIndex r.packets s.packetRing.endIndex ≠ s.packetRing.beginIndex ∧
      (ignore = true ∨ fragmentIndex < r.fragments ∧ fragments.length < r.fragments)
  | .advance => s.call = .idle
  | .turn => s.call ≠ .idle
  | .consume k => k ≤ (s.prodReg + 0x10000 - s.consReg) % 0x10000

instance (r : Rings) : ∀ (s : TxQueue) (a : TxAction), Decidable (s.enabled r a)
  | _, .addPacket .. => inferInstanceAs (Decidable (_ ∧ _ ∧ _))
  | _, .advance => inferInstanceAs (Decidable (_ = _))
  | _, .turn => inferInstanceAs (Decidable (_ ≠ _))
  | _, .consume _ => inferInstanceAs (Decidable (_ ≤ _))

def effect (r : Rings) (s : TxQueue) : TxAction → TxQueue
  | .addPacket ignore fragmentIndex fragments => s.addPacket r ignore fragmentIndex fragments
  | .advance => s.advance
  | .turn => s.turn r
  | .consume k => s.consume k

end TxQueue

/-- All runs on rings of the sizes `r`. -/
def txMachine (r : Rings) : Machine TxQueue TxAction :=
  Machine.guarded
    (fun s => ∃ packets fragments packetContexts bds numbers,
      s = TxQueue.genetTxQueueStart packets fragments packetContexts bds numbers)
    (TxQueue.enabled r) (TxQueue.effect r)

/-! ## The property -/

/-- How many descriptors a packet has. -/
def NetPacket.descs (p : NetPacket) : Nat := if p.ignore then 0 else p.fragmentCount

/-- The packets are returned in their order, each once, when all their descriptors are consumed; no
descriptor is written over before it is consumed, and the controller finds each one in its place;
the assertion does not fail. When a call is done with posting, the next packet does not fit; and
when it is done, the first packet that is posted and not returned has a descriptor that was not
consumed when the driver looked. -/
structure TxRingSound (r : Rings) (s : TxQueue) : Prop where
  notOverwritten : s.overwritten = []
  inPlace : ∀ n, s.consumed ≤ n → n < s.descs.length → s.written (n % numDescs) = some n
  outstanding : s.descs.length ≤ s.consumed + numDescs
  inOrder : s.returned.map Prod.fst = List.range s.returned.length
  returned : ∀ t ∈ s.returned, t.2 ≤ s.consumed ∧ (∀ n, s.descs[n]? = some t.1 → n < t.2) ∧
    ∃ p, s.added[t.1]? = some p ∧ s.descs.count t.1 = p.descs
  beginIndex : s.call = .idle → s.packetRing.beginIndex = s.returned.length % r.packets
  asserted : s.asserted = true
  posted : ∀ postedDescs, s.call = .publish postedDescs →
    s.packetRing.nextIndex = s.packetRing.endIndex ∨ ∃ p, s.added[s.next]? = some p ∧
      p.ignore = false ∧ s.seen + numDescs ≤ s.descs.length + p.fragmentCount
  prompt : (∀ p ∈ s.added, p.ignore = true ∨ 0 < p.fragmentCount) → s.call = .idle →
    s.packetRing.beginIndex ≠ s.packetRing.nextIndex →
    ∃ n, s.seen ≤ n ∧ s.descs[n]? = some s.returned.length

/-! ## What holds in every turn -/

namespace TxQueue

variable {r : Rings} {s : TxQueue}

/-- Every packet that is posted and not returned has a descriptor from `bound` on. -/
def Late (s : TxQueue) (bound : Nat) : Prop :=
  (∀ p ∈ s.added, p.ignore = true ∨ 0 < p.fragmentCount) → ∀ k p, s.returned.length ≤ k →
    k < s.next → s.added[k]? = some p → p.ignore = false → ∃ n, bound ≤ n ∧ s.descs[n]? = some k

/-- The second loop is not running. -/
structure Posting (r : Rings) (s : TxQueue) : Prop where
  beginIndex : s.packetRing.beginIndex = s.returned.length % r.packets
  late : s.Late s.seen

/-- The loop over the fragments has written `packetDescNum` descriptors of the packet `p`. -/
structure InPacket (r : Rings) (s : TxQueue) (p : NetPacket)
    (packetIndex freeDescs fragmentIndex fragmentEndIndex packetDescNum : Nat) : Prop where
  packet : s.added[s.next]? = some p
  notIgnored : p.ignore = false
  packetIndex : packetIndex = s.next % r.packets
  fragmentIndex : fragmentIndex = (p.fragmentIndex + packetDescNum) % r.fragments
  fragmentEndIndex : fragmentEndIndex = (p.fragmentIndex + p.fragmentCount) % r.fragments
  count : s.descs.count s.next = packetDescNum
  le : packetDescNum ≤ p.fragmentCount
  room : p.fragmentCount ≤ freeDescs
  free : s.descs.length + freeDescs + 1 = s.seen + packetDescNum + numDescs
  seen : ∀ n, s.descs[n]? = some s.next → s.seen ≤ n

/-- What holds where `GenetTxQueueAdvance` is. -/
def CallOk (r : Rings) (s : TxQueue) : Advance → Prop
  | .idle => s.Posting r ∧ s.descs.count s.next = 0 ∧
      s.packetRing.nextIndex = s.next % r.packets ∧
      (s.returned.length < s.next → ∃ p, s.added[s.returned.length]? = some p ∧ p.ignore = false)
  | .packet packetIndex freeDescs _ => s.Posting r ∧ s.descs.count s.next = 0 ∧
      packetIndex = s.next % r.packets ∧ s.descs.length + freeDescs + 1 = s.seen + numDescs
  | .fragment packetIndex freeDescs fragmentIndex fragmentEndIndex packetDescNum _ =>
      s.Posting r ∧
        ∃ p, s.InPacket r p packetIndex freeDescs fragmentIndex fragmentEndIndex packetDescNum
  | .publish _ => s.Posting r ∧ s.descs.count s.next = 0 ∧
      s.packetRing.nextIndex = s.next % r.packets ∧
      (s.next = s.added.length ∨ ∃ p, s.added[s.next]? = some p ∧
        p.ignore = false ∧ s.seen + numDescs ≤ s.descs.length + p.fragmentCount)
  | .readConsIndex => s.Posting r ∧ s.descs.count s.next = 0 ∧
      s.packetRing.nextIndex = s.next % r.packets
  | .complete packetIndex _ hwDescs => s.descs.count s.next = 0 ∧
      s.packetRing.nextIndex = s.next % r.packets ∧
      packetIndex = s.returned.length % r.packets ∧ s.descs.length = s.seen + hwDescs ∧
      s.Late (s.descs.length + 1 - numDescs)

/-- What holds before and after every turn. -/
structure Inv (r : Rings) (s : TxQueue) : Prop where
  slots : ∀ k, s.returned.length ≤ k → k < s.added.length →
    s.numbers (k % r.packets) = k ∧ s.added[k]? = some (s.packets (k % r.packets))
  endIndex : s.packetRing.endIndex = s.added.length % r.packets
  room : s.added.length < s.returned.length + r.packets
  next : s.returned.length ≤ s.next ∧ s.next ≤ s.added.length
  fits : ∀ p ∈ s.added, p.ignore = true ∨ p.fragmentIndex < r.fragments ∧
    p.fragmentCount < r.fragments
  prodIndex : s.prodIndex = s.descs.length % 0x10000
  consIndex : s.consIndex = s.seen % 0x10000
  prodReg : s.prodReg = s.published % 0x10000
  consReg : s.consReg = s.consumed % 0x10000
  order : s.seen ≤ s.consumed ∧ s.consumed ≤ s.published ∧ s.published ≤ s.descs.length ∧
    s.descs.length < s.seen + numDescs
  inPlace : ∀ n, n < s.descs.length → s.descs.length ≤ n + numDescs →
    s.written (n % numDescs) = some n
  written : ∀ i n, s.written i = some n → n < s.descs.length ∧ n % numDescs = i
  notOverwritten : s.overwritten = []
  counts : ∀ k p, k < s.next → s.added[k]? = some p → s.descs.count k = p.descs
  beyond : ∀ k, s.next < k → s.descs.count k = 0
  sorted : ∀ (i j a b : Nat), s.descs[i]? = some a → s.descs[j]? = some b → a < b → i < j
  last : ∀ k n, s.descs[n]? = some k → s.returned.length ≤ k → ∃ l, n ≤ l ∧
    s.descs[l]? = some k ∧ (s.packetContexts (k % r.packets)).lastDesc = l % numDescs ∧
    ∀ n', s.descs[n']? = some k → n' ≤ l
  inOrder : s.returned.map Prod.fst = List.range s.returned.length
  returned : ∀ t ∈ s.returned, t.2 ≤ s.consumed ∧ t.1 < s.next ∧
    ∀ n, s.descs[n]? = some t.1 → n < t.2
  asserted : s.asserted = true
  call : s.CallOk r s.call

end TxQueue

/-! ## Indices and places -/

/-- The place after that of `p`, in a ring of `n` places. -/
theorem netRingIncrementIndex_mod {n : Nat} (hn : 0 < n) (hle : n ≤ 0x80000000) (p : Nat) :
    netRingIncrementIndex n (p % n) = (p + 1) % n := by
  have hlt := Nat.mod_lt p hn
  rw [netRingIncrementIndex, Nat.mod_eq_of_lt (show p % n + 1 < 0x100000000 by omega),
    Nat.mod_add_mod]

/-- The end of a packet's fragments, also when it has none. -/
theorem netRingIncrementIndex_end {n i c : Nat} (hle : n ≤ 0x80000000) (hi : i < n) (hc : c < n) :
    netRingIncrementIndex n ((i + c + 0xffffffff) % 0x100000000) = (i + c) % n := by
  have hsum : ((i + c + 0xffffffff) % 0x100000000 + 1) % 0x100000000 = i + c := by omega
  rw [netRingIncrementIndex, hsum]

/-- The distance of two descriptors from their places. -/
theorem descDistance_mod {p q : Nat} (hle : q ≤ p) (hlt : p < q + numDescs) :
    descDistance (p % numDescs) (q % numDescs) = p - q := by
  rw [numDescs] at hlt
  rw [descDistance, numDescs]
  omega

theorem mod_numDescs (n : Nat) : n % 0x10000 % numDescs = n % numDescs := by
  rw [numDescs]
  omega

/-- What is appended comes last. -/
theorem getElem?_append_singleton {l : List Nat} {a k n : Nat}
    (h : (l ++ [a])[n]? = some k) : l[n]? = some k ∨ n = l.length ∧ k = a := by
  rcases Nat.lt_or_ge n l.length with hlt | hge
  · rw [List.getElem?_append_left hlt] at h
    exact .inl h
  · rw [List.getElem?_append_right hge] at h
    have hlast := List.getElem?_eq_some_iff.1 h
    obtain ⟨hn, hk⟩ := hlast
    rw [List.length_singleton] at hn
    have hzero : n - l.length = 0 := by omega
    simp only [hzero, List.getElem_cons_zero] at hk
    exact .inr ⟨by omega, hk.symm⟩

/-- What was in a list is in its extension. -/
theorem getElem?_append_of_some {α : Type} {l : List α} {k : α} {n : Nat} (h : l[n]? = some k)
    (l' : List α) :
    (l ++ l')[n]? = some k := by
  obtain ⟨hn, -⟩ := List.getElem?_eq_some_iff.1 h
  rw [List.getElem?_append_left hn, h]

/-! ## Every turn keeps it -/

namespace TxQueue

variable {r : Rings} {s : TxQueue}

namespace Inv

/-- The first loop has reached the end of the ring when it has passed all packets. -/
theorem next_eq_iff (h : Inv r s) :
    s.next % r.packets = s.packetRing.endIndex ↔ s.next = s.added.length := by
  have hnext := h.next
  have hroom := h.room
  rw [h.endIndex]
  exact ⟨fun heq => Lib.eq_of_mod_eq heq hnext.1 (by omega) (by omega) hroom,
    fun heq => by rw [heq]⟩

theorem prodDesc (h : Inv r s) : s.prodDesc = s.descs.length % numDescs := by
  rw [TxQueue.prodDesc, h.prodIndex, mod_numDescs]

/-- The descriptors are those of packets that the first loop has reached. -/
theorem desc_le (h : Inv r s) {n k : Nat} (hn : s.descs[n]? = some k) : k ≤ s.next := by
  rcases Nat.lt_or_ge s.next k with hlt | hle
  · have hzero := h.beyond k hlt
    exact absurd (List.mem_of_getElem? hn) (List.count_eq_zero.1 hzero)
  · exact hle

theorem addPacket (h : Inv r s) (hidle : s.call = .idle)
    (hroom : netRingIncrementIndex r.packets s.packetRing.endIndex ≠ s.packetRing.beginIndex)
    {ignore : Bool} {fragmentIndex : Nat} {fragments : List NetFragment}
    (hfits : ignore = true ∨ fragmentIndex < r.fragments ∧ fragments.length < r.fragments) :
    Inv r (s.addPacket r ignore fragmentIndex fragments) := by
  have hcall := h.call
  rw [hidle] at hcall
  obtain ⟨⟨hbegin, hlate⟩, hnone, hindex, hhead⟩ := hcall
  have hr := h.room
  have hnext := h.next
  have hinc : netRingIncrementIndex r.packets s.packetRing.endIndex =
      (s.added.length + 1) % r.packets := by
    rw [h.endIndex, netRingIncrementIndex_mod r.packets_pos r.packets_le]
  -- the ring is not full, so the slots of its packets stay apart
  have hless : s.added.length + 1 < s.returned.length + r.packets := by
    refine Nat.lt_of_le_of_ne hr fun heq => hroom ?_
    rw [hinc, heq, Nat.add_mod_right, hbegin]
  have hlength : (s.addPacket r ignore fragmentIndex fragments).added.length = s.added.length + 1 :=
    List.length_append
  have hold : ∀ {k p}, k < s.added.length →
      (s.added ++ [(⟨ignore, fragmentIndex, fragments.length⟩ : NetPacket)])[k]? = some p →
      s.added[k]? = some p := fun hk hp => by
    rw [List.getElem?_append_left hk] at hp
    exact hp
  refine { h with
    slots := fun k hk hlt => ?_
    endIndex := ?_
    room := ?_
    next := ?_
    fits := fun p hp => ?_
    counts := fun k p hk hp => h.counts k p hk (hold (Nat.lt_of_lt_of_le hk hnext.2) hp)
    call := ?_ }
  · have hk : s.returned.length ≤ k := hk
    rw [hlength] at hlt
    show (if k % r.packets = s.packetRing.endIndex then s.added.length else _) = k ∧
      (s.added ++ [_])[k]? = some (if k % r.packets = s.packetRing.endIndex then _ else _)
    rcases Nat.lt_succ_iff_lt_or_eq.1 hlt with hlt | rfl
    · have hne := mod_ne_of_ne (Nat.ne_of_lt hlt) hk (by omega) (by omega) hr
      rw [h.endIndex, if_neg hne, if_neg hne, List.getElem?_append_left hlt]
      exact h.slots k hk hlt
    · rw [h.endIndex, if_pos rfl, if_pos rfl, List.getElem?_concat_length]
      exact ⟨rfl, rfl⟩
  · rw [hlength]
    exact hinc
  · rw [hlength]
    exact hless
  · rw [hlength]
    exact ⟨hnext.1, Nat.le_succ_of_le hnext.2⟩
  · rcases List.mem_append.1 hp with hs | hnew
    · exact h.fits p hs
    · rw [List.mem_singleton.1 hnew]
      exact hfits
  · show CallOk r _ s.call
    rw [hidle]
    refine ⟨⟨hbegin, fun hne k p hk hkn hp hp' => ?_⟩, hnone, hindex, fun hlt => ?_⟩
    · have hold := hold (Nat.lt_of_lt_of_le hkn hnext.2) hp
      exact hlate (fun p hp => hne p (List.mem_append_left _ hp)) k p hk hkn hold hp'
    · obtain ⟨p, hp, hp'⟩ := hhead hlt
      exact ⟨p, getElem?_append_of_some hp _, hp'⟩

theorem advance (h : Inv r s) (hidle : s.call = .idle) : Inv r s.advance := by
  have hcall := h.call
  rw [hidle] at hcall
  obtain ⟨hposting, hnone, hindex, -⟩ := hcall
  refine { h with call := ⟨⟨hposting.beginIndex, hposting.late⟩, hnone, hindex, ?_⟩ }
  have horder := h.order
  show s.descs.length + (numDescs - descDistance s.prodDesc (s.consIndex % numDescs) - 1) + 1 =
    s.seen + numDescs
  rw [h.prodDesc, h.consIndex, mod_numDescs, descDistance_mod (by omega) horder.2.2.2]
  omega

/-- The first loop passes a packet, all of whose descriptors are written. -/
theorem nextPacket (h : Inv r s) (hlt : s.next < s.added.length) {p : NetPacket}
    (hp : s.added[s.next]? = some p) (hcount : s.descs.count s.next = p.descs)
    (hbegin : s.packetRing.beginIndex = s.returned.length % r.packets) (hlate : s.Late s.seen)
    (hlast : p.ignore = false → 0 < p.fragmentCount →
      ∃ n, s.seen ≤ n ∧ s.descs[n]? = some s.next)
    {freeDescs : Nat} (hfree : s.descs.length + freeDescs + 1 = s.seen + numDescs)
    (postedDescs : Bool) : Inv r (s.nextPacket r (s.next % r.packets) freeDescs postedDescs) := by
  have hnext := h.next
  refine { h with
    next := ⟨Nat.le_succ_of_le hnext.1, hlt⟩
    counts := fun k q hk hq => ?_
    beyond := fun k hk => h.beyond k (Nat.lt_of_succ_lt hk)
    returned := fun t ht => ⟨(h.returned t ht).1, Nat.lt_succ_of_lt (h.returned t ht).2.1,
      (h.returned t ht).2.2⟩
    call := ⟨⟨hbegin, fun hne k q hk hkn hq hq' => ?_⟩, h.beyond _ (Nat.lt_succ_self _),
      netRingIncrementIndex_mod r.packets_pos r.packets_le s.next, hfree⟩ }
  · rcases Nat.lt_succ_iff_lt_or_eq.1 hk with hk | rfl
    · exact h.counts k q hk hq
    · exact hcount.trans (by rw [Option.some.inj (hp.symm.trans hq)])
  · rcases Nat.lt_succ_iff_lt_or_eq.1 hkn with hkn | rfl
    · exact hlate hne k q hk hkn hq hq'
    · obtain rfl : p = q := Option.some.inj (hp.symm.trans hq)
      rcases hne p (List.mem_of_getElem? hp) with hig | hpos
      · exact Bool.noConfusion (hig.symm.trans hq')
      · exact hlast hq' hpos

theorem endPost (h : Inv r s) (hposting : s.Posting r) (hnone : s.descs.count s.next = 0)
    (hposted : s.next = s.added.length ∨ ∃ p, s.added[s.next]? = some p ∧
      p.ignore = false ∧ s.seen + numDescs ≤ s.descs.length + p.fragmentCount)
    (postedDescs : Bool) : Inv r (s.endPost (s.next % r.packets) postedDescs) :=
  { h with call := ⟨⟨hposting.beginIndex, hposting.late⟩, hnone, rfl, hposted⟩ }

theorem postPacket (h : Inv r s) {packetIndex freeDescs : Nat} {postedDescs : Bool}
    (hcall : s.call = .packet packetIndex freeDescs postedDescs) :
    Inv r (s.postPacket r packetIndex freeDescs postedDescs) := by
  have hok := h.call
  rw [hcall] at hok
  obtain ⟨hposting, hnone, rfl, hfree⟩ := hok
  have hnext := h.next
  rw [TxQueue.postPacket]
  split_ifs with hend hignore hfit
  · exact h.endPost hposting hnone (.inl (h.next_eq_iff.1 hend)) postedDescs
  · have hlt := Nat.lt_of_le_of_ne hnext.2 (mt h.next_eq_iff.2 hend)
    obtain ⟨-, hp⟩ := h.slots s.next hnext.1 hlt
    refine h.nextPacket hlt hp ?_ hposting.beginIndex hposting.late (fun hnot => ?_) hfree
      postedDescs
    · rw [hnone, NetPacket.descs, if_pos hignore]
    · exact Bool.noConfusion (hignore.symm.trans hnot)
  · have hlt := Nat.lt_of_le_of_ne hnext.2 (mt h.next_eq_iff.2 hend)
    obtain ⟨-, hp⟩ := h.slots s.next hnext.1 hlt
    refine h.endPost hposting hnone (.inr ⟨_, hp, Bool.eq_false_iff.2 hignore, ?_⟩) postedDescs
    omega
  · have hlt := Nat.lt_of_le_of_ne hnext.2 (mt h.next_eq_iff.2 hend)
    obtain ⟨-, hp⟩ := h.slots s.next hnext.1 hlt
    have hignore := Bool.eq_false_iff.2 hignore
    rcases h.fits _ (List.mem_of_getElem? hp) with hig | ⟨hfrag, hcount⟩
    · exact Bool.noConfusion (hig.symm.trans hignore)
    refine { h with call := ⟨⟨hposting.beginIndex, hposting.late⟩, _, ⟨hp, hignore, rfl, ?_, ?_,
      hnone, Nat.zero_le _, Nat.le_of_not_lt hfit, hfree, fun n hn => ?_⟩⟩ }
    · exact (Nat.mod_eq_of_lt hfrag).symm
    · exact netRingIncrementIndex_end r.fragments_le hfrag hcount
    · exact absurd (List.mem_of_getElem? hn) (List.count_eq_zero.1 hnone)

/-- The descriptor that is written is one of the packet at hand. -/
theorem descs_writeDesc (h : Inv r s) (hlt : s.next < s.added.length) (bd : DmaDesc) :
    (s.writeDesc (s.next % r.packets) bd).descs = s.descs ++ [s.next] := by
  show s.descs ++ [s.numbers (s.next % r.packets)] = _
  rw [(h.slots s.next h.next.1 hlt).1]

theorem getElem?_writeDesc (h : Inv r s) (hlt : s.next < s.added.length) {bd : DmaDesc} {n k : Nat}
    (hn : (s.writeDesc (s.next % r.packets) bd).descs[n]? = some k) :
    s.descs[n]? = some k ∨ n = s.descs.length ∧ k = s.next := by
  rw [h.descs_writeDesc hlt] at hn
  exact getElem?_append_singleton hn

theorem count_writeDesc (h : Inv r s) (hlt : s.next < s.added.length) (bd : DmaDesc) {k : Nat}
    (hk : k ≠ s.next) :
    (s.writeDesc (s.next % r.packets) bd).descs.count k = s.descs.count k := by
  rw [h.descs_writeDesc hlt, List.count_append, List.count_singleton,
    if_neg (fun heq => hk (beq_iff_eq.1 heq).symm), Nat.add_zero]

/-- What is in the place of the next descriptor was written a ring before. -/
theorem written_before (h : Inv r s) {n : Nat} (hn : s.written s.prodDesc = some n) :
    n + numDescs ≤ s.descs.length := by
  obtain ⟨hlt, hplace⟩ := h.written _ n hn
  rw [h.prodDesc] at hplace
  exact Nat.le_of_not_lt fun hnear =>
    Nat.ne_of_lt hlt (Lib.eq_of_mod_eq hplace (Nat.le_refl n) (by omega) (Nat.le_of_lt hlt) hnear)

theorem inPlace_writeDesc (h : Inv r s) (packetIndex : Nat) (bd : DmaDesc) {n : Nat}
    (hn : n < s.descs.length + 1) (hle : s.descs.length + 1 ≤ n + numDescs) :
    (s.writeDesc packetIndex bd).written (n % numDescs) = some n := by
  show (if n % numDescs = s.prodDesc then _ else _) = _
  rw [h.prodDesc]
  rcases Nat.lt_succ_iff_lt_or_eq.1 hn with hn | rfl
  · have hne : n % numDescs ≠ s.descs.length % numDescs :=
      mod_ne_of_ne (d := n) (Nat.ne_of_lt hn) (Nat.le_refl n) (by omega) (by omega) (by omega)
    rw [if_neg hne]
    exact h.inPlace n hn (by omega)
  · rw [if_pos rfl]

theorem sorted_writeDesc (h : Inv r s) (hlt : s.next < s.added.length) (bd : DmaDesc)
    {i j a b : Nat} (hi : (s.writeDesc (s.next % r.packets) bd).descs[i]? = some a)
    (hj : (s.writeDesc (s.next % r.packets) bd).descs[j]? = some b) (hab : a < b) : i < j := by
  rcases h.getElem?_writeDesc hlt hi with hi | ⟨rfl, rfl⟩
  · rcases h.getElem?_writeDesc hlt hj with hj | ⟨rfl, -⟩
    · exact h.sorted i j a b hi hj hab
    · exact (List.getElem?_eq_some_iff.1 hi).1
  · rcases h.getElem?_writeDesc hlt hj with hj | ⟨-, rfl⟩
    · exact absurd (h.desc_le hj) (Nat.not_le_of_lt hab)
    · exact absurd hab (Nat.lt_irrefl _)

/-- The last descriptors of the packets before, and the new one of the packet at hand. -/
theorem last_writeDesc (h : Inv r s) (hlt : s.next < s.added.length) (bd : DmaDesc) {k n : Nat}
    (hn : (s.writeDesc (s.next % r.packets) bd).descs[n]? = some k)
    (hk : s.returned.length ≤ k) : ∃ l, n ≤ l ∧
      (s.writeDesc (s.next % r.packets) bd).descs[l]? = some k ∧
      ((s.writeDesc (s.next % r.packets) bd).packetContexts (k % r.packets)).lastDesc =
        l % numDescs ∧
      ∀ n', (s.writeDesc (s.next % r.packets) bd).descs[n']? = some k → n' ≤ l := by
  have hroom := h.room
  have hdescs := h.descs_writeDesc hlt bd
  show ∃ l, n ≤ l ∧ (s.writeDesc (s.next % r.packets) bd).descs[l]? = some k ∧
    (if k % r.packets = s.next % r.packets then
      { s.packetContexts (k % r.packets) with lastDesc := s.prodDesc }
      else s.packetContexts (k % r.packets)).lastDesc = l % numDescs ∧
    ∀ n', (s.writeDesc (s.next % r.packets) bd).descs[n']? = some k → n' ≤ l
  by_cases hkn : k = s.next
  · have hmax : ∀ n', (s.writeDesc (s.next % r.packets) bd).descs[n']? = some k →
        n' ≤ s.descs.length := fun n' hn' => by
      obtain ⟨hlt', -⟩ := List.getElem?_eq_some_iff.1 hn'
      rw [hdescs, List.length_append] at hlt'
      exact Nat.lt_succ_iff.1 hlt'
    refine ⟨s.descs.length, hmax n hn, ?_, ?_, hmax⟩
    · rw [hdescs, hkn]
      exact List.getElem?_concat_length
    · rw [hkn, if_pos rfl]
      exact h.prodDesc
  · have hold : ∀ {n}, (s.writeDesc (s.next % r.packets) bd).descs[n]? = some k →
        s.descs[n]? = some k := fun hn =>
      (h.getElem?_writeDesc hlt hn).resolve_right fun heq => hkn heq.2
    have hle := h.desc_le (hold hn)
    obtain ⟨l, hnl, hl, hdesc, hmax⟩ := h.last k n (hold hn) hk
    rw [if_neg (mod_ne_of_ne hkn hk (by omega) h.next.1 (by omega))]
    refine ⟨l, hnl, ?_, hdesc, fun n' hn' => hmax n' (hold hn')⟩
    rw [hdescs]
    exact getElem?_append_of_some hl _

/-- One more descriptor of the packet at hand. -/
theorem writeDesc (h : Inv r s) (hlt : s.next < s.added.length)
    (hfree : s.descs.length + 1 < s.seen + numDescs) (bd : DmaDesc) {call : Advance}
    (hcall : CallOk r { s.writeDesc (s.next % r.packets) bd with call := call } call) :
    Inv r { s.writeDesc (s.next % r.packets) bd with call := call } := by
  have horder := h.order
  have hlength : (s.writeDesc (s.next % r.packets) bd).descs.length = s.descs.length + 1 :=
    List.length_append
  refine { h with
    prodIndex := ?_
    order := ⟨horder.1, horder.2.1, Nat.le_trans horder.2.2.1 ?_, ?_⟩
    inPlace := fun n hn hle =>
      h.inPlace_writeDesc (s.next % r.packets) bd (hlength ▸ hn) (hlength ▸ hle)
    written := fun i n hi => ?_
    notOverwritten := ?_
    counts := fun k p hk hp => (h.count_writeDesc hlt bd (Nat.ne_of_lt hk)).trans (h.counts k p hk hp)
    beyond := fun k hk => (h.count_writeDesc hlt bd (Nat.ne_of_gt hk)).trans (h.beyond k hk)
    sorted := fun i j a b hi hj hab => h.sorted_writeDesc hlt bd hi hj hab
    last := fun k n hn hk => h.last_writeDesc hlt bd hn hk
    returned := fun t ht => ⟨(h.returned t ht).1, (h.returned t ht).2.1, fun n hn => ?_⟩
    call := hcall }
  · show (s.prodIndex + 1) % 0x10000 = (s.writeDesc (s.next % r.packets) bd).descs.length % 0x10000
    rw [hlength, h.prodIndex, Nat.mod_add_mod]
  · show s.descs.length ≤ (s.writeDesc (s.next % r.packets) bd).descs.length
    rw [hlength]
    exact Nat.le_succ _
  · show (s.writeDesc (s.next % r.packets) bd).descs.length < s.seen + numDescs
    rw [hlength]
    exact hfree
  · have hi : (if i = s.prodDesc then some s.descs.length else s.written i) = some n := hi
    show n < (s.writeDesc (s.next % r.packets) bd).descs.length ∧ n % numDescs = i
    rw [hlength]
    split at hi
    · next heq =>
      rw [← Option.some.inj hi, heq, h.prodDesc]
      exact ⟨Nat.lt_succ_self _, rfl⟩
    · obtain ⟨hn, hni⟩ := h.written i n hi
      exact ⟨Nat.lt_succ_of_lt hn, hni⟩
  · show s.overwritten ++ (s.written s.prodDesc).toList.filter (fun n => s.consumed ≤ n) = []
    rw [h.notOverwritten, List.nil_append, List.filter_eq_nil_iff]
    intro n hn
    -- what the descriptor held has been consumed
    have hbefore := h.written_before (Option.mem_toList.1 hn)
    rw [decide_eq_true_eq]
    omega
  · have ht := h.returned t ht
    have hn : (s.writeDesc (s.next % r.packets) bd).descs[n]? = some t.1 := hn
    rcases h.getElem?_writeDesc hlt hn with hn | ⟨-, heq⟩
    · exact ht.2.2 n hn
    · exact absurd ht.2.1 (heq ▸ Nat.lt_irrefl _)

theorem endPacket (h : Inv r s) (hposting : s.Posting r) {p : NetPacket}
    {packetIndex freeDescs fragmentIndex fragmentEndIndex packetDescNum : Nat}
    (hin : s.InPacket r p packetIndex freeDescs fragmentIndex fragmentEndIndex packetDescNum)
    (hend : packetDescNum = p.fragmentCount) (postedDescs : Bool) :
    Inv r (s.endPacket r packetIndex freeDescs fragmentIndex packetDescNum postedDescs) := by
  have hlt : s.next < s.added.length := (List.getElem?_eq_some_iff.1 hin.packet).1
  have hslot := (h.slots s.next h.next.1 hlt).2
  have hp : s.packets packetIndex = p := by
    rw [hin.packetIndex]
    exact (Option.some.inj (hin.packet.symm.trans hslot)).symm
  have hcount : s.descs.count s.next = p.descs := by
    rw [hin.count, hend, NetPacket.descs, hin.notIgnored]
    rfl
  have hfree : s.descs.length + (freeDescs - p.fragmentCount) + 1 = s.seen + numDescs := by
    have hfree := hin.free
    have hroom := hin.room
    omega
  have hgo := h.nextPacket hlt hin.packet hcount hposting.beginIndex hposting.late
    (fun _ hpos => by
      have hmem : s.next ∈ s.descs := List.count_pos_iff.1 (by rw [hin.count, hend]; exact hpos)
      obtain ⟨n, hn⟩ := List.getElem?_of_mem hmem
      exact ⟨n, hin.seen n hn, hn⟩) hfree postedDescs
  rw [TxQueue.endPacket, hp, hin.packetIndex]
  refine { hgo with
    last := fun k n hn hk => ?_
    asserted := ?_
    call := ⟨⟨hgo.call.1.beginIndex, hgo.call.1.late⟩, hgo.call.2⟩ }
  · obtain ⟨l, hnl, hl, hdesc, hmax⟩ := hgo.last k n hn hk
    refine ⟨l, hnl, hl, Eq.trans ?_ hdesc, hmax⟩
    show (if k % r.packets = s.next % r.packets then
      { s.packetContexts (k % r.packets) with endFragment := fragmentIndex }
      else s.packetContexts (k % r.packets)).lastDesc = (s.packetContexts (k % r.packets)).lastDesc
    split <;> rfl
  · show (s.asserted && decide (packetDescNum = p.fragmentCount)) = true
    rw [h.asserted, decide_eq_true hend]
    rfl

theorem postFragment (h : Inv r s)
    {packetIndex freeDescs fragmentIndex fragmentEndIndex packetDescNum : Nat} {postedDescs : Bool}
    (hcall : s.call = .fragment packetIndex freeDescs fragmentIndex fragmentEndIndex packetDescNum
      postedDescs) :
    Inv r (s.postFragment r packetIndex freeDescs fragmentIndex fragmentEndIndex packetDescNum
      postedDescs) := by
  have hok := h.call
  rw [hcall] at hok
  obtain ⟨hposting, p, hin⟩ := hok
  have hle := hin.le
  have hlt : s.next < s.added.length := (List.getElem?_eq_some_iff.1 hin.packet).1
  have hfits : p.fragmentCount < r.fragments := by
    rcases h.fits p (List.mem_of_getElem? hin.packet) with hig | hfits
    · exact Bool.noConfusion (hig.symm.trans hin.notIgnored)
    · exact hfits.2
  rw [TxQueue.postFragment]
  -- a packet has fewer fragments than the ring, so equal indices mean its end
  split_ifs with hend
  · refine h.endPacket hposting hin ?_ postedDescs
    rw [hin.fragmentIndex, hin.fragmentEndIndex] at hend
    have heq := Lib.eq_of_mod_eq hend (Nat.le_add_right _ _) (by omega) (Nat.le_add_right _ _)
      (by omega)
    exact Nat.add_left_cancel heq
  · have hless : packetDescNum < p.fragmentCount := by
      refine Nat.lt_of_le_of_ne hle fun heq => hend ?_
      rw [hin.fragmentIndex, hin.fragmentEndIndex, heq]
    have hfree := hin.free
    have hroom := hin.room
    have horder := h.order
    rw [hin.packetIndex]
    refine h.writeDesc hlt (by omega) _ ?_
    refine ⟨⟨hposting.beginIndex, fun hne k q hk hkn hq hq' => ?_⟩, p, ?_⟩
    · obtain ⟨n, hn, hget⟩ := hposting.late hne k q hk hkn hq hq'
      exact ⟨n, hn, getElem?_append_of_some hget _⟩
    · refine ⟨hin.packet, hin.notIgnored, rfl, ?_, hin.fragmentEndIndex, ?_, hless, hroom, ?_,
        fun n hn => ?_⟩
      · rw [hin.fragmentIndex, netRingIncrementIndex_mod r.fragments_pos r.fragments_le,
          Nat.add_assoc]
      · show (s.descs ++ [s.numbers (s.next % r.packets)]).count s.next = packetDescNum + 1
        rw [(h.slots s.next h.next.1 hlt).1, List.count_append, hin.count, List.count_singleton_self]
      · show (s.descs ++ [s.numbers (s.next % r.packets)]).length + freeDescs + 1 =
          s.seen + (packetDescNum + 1) + numDescs
        rw [List.length_append, List.length_singleton]
        omega
      · have hn : (s.descs ++ [s.numbers (s.next % r.packets)])[n]? = some s.next := hn
        show s.seen ≤ n
        rcases getElem?_append_singleton hn with hn | ⟨rfl, -⟩
        · exact hin.seen n hn
        · omega

theorem publish (h : Inv r s) {postedDescs : Bool} (hcall : s.call = .publish postedDescs) :
    Inv r (s.publish postedDescs) := by
  have hok := h.call
  rw [hcall] at hok
  obtain ⟨hposting, hnone, hindex, -⟩ := hok
  have horder := h.order
  rw [TxQueue.publish]
  split
  · exact { h with
      prodReg := h.prodIndex
      order := ⟨horder.1, Nat.le_trans horder.2.1 horder.2.2.1, Nat.le_refl _, horder.2.2.2⟩
      call := ⟨⟨hposting.beginIndex, hposting.late⟩, hnone, hindex⟩ }
  · exact { h with call := ⟨⟨hposting.beginIndex, hposting.late⟩, hnone, hindex⟩ }

theorem readConsIndex (h : Inv r s) (hcall : s.call = .readConsIndex) :
    Inv r s.readConsIndex := by
  have hok := h.call
  rw [hcall] at hok
  obtain ⟨hposting, hnone, hindex⟩ := hok
  have horder := h.order
  refine { h with
    consIndex := h.consReg
    order := ⟨Nat.le_refl _, horder.2.1, horder.2.2.1, ?_⟩
    call := ⟨hnone, hindex, hposting.beginIndex, ?_, fun hne k p hk hkn hp hp' => ?_⟩ }
  · show s.descs.length < s.consumed + numDescs
    omega
  · show s.descs.length = s.consumed + descDistance s.prodDesc (s.consReg % numDescs)
    rw [h.prodDesc, h.consReg, mod_numDescs, descDistance_mod (by omega) (by omega)]
    omega
  · obtain ⟨n, hn, hget⟩ := hposting.late hne k p hk hkn hp hp'
    refine ⟨n, ?_, hget⟩
    show s.descs.length + 1 - numDescs ≤ n
    omega

/-- The second loop passes a packet, all of whose descriptors are consumed. -/
theorem returnPacket (h : Inv r s) (hlt : s.returned.length < s.next)
    (hnone : s.descs.count s.next = 0) (hindex : s.packetRing.nextIndex = s.next % r.packets)
    {hwDescs : Nat} (hhw : s.descs.length = s.seen + hwDescs)
    (hlate : s.Late (s.descs.length + 1 - numDescs))
    (hconsumed : ∀ n, s.descs[n]? = some s.returned.length → n < s.consumed)
    (fragmentIndex : Nat) :
    Inv r (s.returnPacket r (s.returned.length % r.packets) fragmentIndex hwDescs) := by
  have hnext := h.next
  have hnumber := (h.slots s.returned.length (Nat.le_refl _) (by omega)).1
  have hroom := h.room
  have hlength : (s.returnPacket r (s.returned.length % r.packets) fragmentIndex hwDescs).returned =
      s.returned ++ [(s.returned.length, s.consumed)] := by
    show s.returned ++ [(s.numbers (s.returned.length % r.packets), s.consumed)] = _
    rw [hnumber]
  have hle : s.returned.length + 1 =
      (s.returnPacket r (s.returned.length % r.packets) fragmentIndex hwDescs).returned.length := by
    rw [hlength, List.length_append]
    rfl
  refine { h with
    slots := fun k hk => h.slots k (by omega)
    room := ?_
    next := ?_
    last := fun k n hn hk => h.last k n hn (by omega)
    inOrder := ?_
    returned := fun t ht => ?_
    call := ⟨hnone, hindex, ?_, hhw, fun hne k p hk => hlate hne k p (by omega)⟩ }
  · rw [← hle]
    show s.added.length < _
    omega
  · rw [← hle]
    exact ⟨hlt, hnext.2⟩
  · rw [hlength, List.map_append, h.inOrder, List.length_append]
    exact List.range_succ.symm
  · rw [hlength] at ht
    rcases List.mem_append.1 ht with hs | hnew
    · exact h.returned t hs
    · rw [List.mem_singleton.1 hnew]
      exact ⟨Nat.le_refl _, hlt, hconsumed⟩
  · rw [← hle]
    exact netRingIncrementIndex_mod r.packets_pos r.packets_le _

theorem endComplete (h : Inv r s) (hnone : s.descs.count s.next = 0)
    (hindex : s.packetRing.nextIndex = s.next % r.packets) (hlate : s.Late s.seen)
    (hhead : s.returned.length < s.next →
      ∃ p, s.added[s.returned.length]? = some p ∧ p.ignore = false) (fragmentIndex : Nat) :
    Inv r (s.endComplete (s.returned.length % r.packets) fragmentIndex) :=
  { h with call := ⟨⟨rfl, hlate⟩, hnone, hindex, hhead⟩ }

/-- The last descriptor of the first packet that is not returned, and whether it is consumed. -/
theorem distance_last (h : Inv r s) {hwDescs l : Nat} (hhw : s.descs.length = s.seen + hwDescs)
    (hl : s.descs[l]? = some s.returned.length) (hnear : s.descs.length < l + numDescs) :
    descDistance s.prodDesc (l % numDescs) ≤ hwDescs ↔ s.seen ≤ l := by
  have hlt := (List.getElem?_eq_some_iff.1 hl).1
  rw [h.prodDesc, descDistance_mod (by omega) hnear]
  omega

/-- The packets after one that has a descriptor from the consumer index on have one, too. -/
theorem late_of_head (h : Inv r s) {p : NetPacket}
    (hp : s.added[s.returned.length]? = some p) (hignore : p.ignore = false)
    (hlt : s.returned.length < s.next) {hwDescs : Nat}
    (hhw : s.descs.length = s.seen + hwDescs) (hlate : s.Late (s.descs.length + 1 - numDescs))
    (hle : descDistance s.prodDesc
      (s.packetContexts (s.returned.length % r.packets)).lastDesc ≤ hwDescs) : s.Late s.seen := by
  intro hne k q hk hkn hq hq'
  obtain ⟨n, hn, hget⟩ := hlate hne _ p (Nat.le_refl _) hlt hp hignore
  obtain ⟨l, hnl, hl, hdesc, -⟩ := h.last _ n hget (Nat.le_refl _)
  rw [hdesc, h.distance_last hhw hl (by omega)] at hle
  rcases Nat.lt_or_eq_of_le hk with hk' | rfl
  · obtain ⟨n', -, hget'⟩ := hlate hne k q hk hkn hq hq'
    have hless := h.sorted l n' _ _ hl hget' hk'
    exact ⟨n', by omega, hget'⟩
  · exact ⟨l, hle, hl⟩

theorem completePacket (h : Inv r s) {packetIndex fragmentIndex hwDescs : Nat}
    (hcall : s.call = .complete packetIndex fragmentIndex hwDescs) :
    Inv r (s.completePacket r packetIndex fragmentIndex hwDescs) := by
  have hok := h.call
  rw [hcall] at hok
  obtain ⟨hnone, hindex, rfl, hhw, hlate⟩ := hok
  have hnext := h.next
  have hroom := h.room
  have horder := h.order
  have hend_iff : s.returned.length % r.packets = s.packetRing.nextIndex ↔
      s.returned.length = s.next := by
    rw [hindex]
    exact ⟨fun heq => Lib.eq_of_mod_eq heq (Nat.le_refl _) (by omega) hnext.1 (by omega),
      fun heq => by rw [heq]⟩
  rw [TxQueue.completePacket]
  split_ifs with hend hignore hle
  · have heq := hend_iff.1 hend
    refine h.endComplete hnone hindex (fun _ k _ hk hkn => ?_) (fun hlt => ?_) _
    · exact absurd (heq ▸ hk) (Nat.not_le_of_lt hkn)
    · exact absurd heq (Nat.ne_of_lt hlt)
  · have hlt := Nat.lt_of_le_of_ne hnext.1 (mt hend_iff.2 hend)
    obtain ⟨-, hp⟩ := h.slots _ (Nat.le_refl _) (Nat.lt_of_lt_of_le hlt hnext.2)
    refine h.returnPacket hlt hnone hindex hhw hlate (fun n hn => ?_) _
    have hcount := h.counts _ _ hlt hp
    rw [NetPacket.descs, if_pos hignore] at hcount
    exact absurd (List.mem_of_getElem? hn) (List.count_eq_zero.1 hcount)
  · have hlt := Nat.lt_of_le_of_ne hnext.1 (mt hend_iff.2 hend)
    obtain ⟨-, hp⟩ := h.slots _ (Nat.le_refl _) (Nat.lt_of_lt_of_le hlt hnext.2)
    have hignore := Bool.eq_false_iff.2 hignore
    exact h.endComplete hnone hindex (h.late_of_head hp hignore hlt hhw hlate hle)
      (fun _ => ⟨_, hp, hignore⟩) _
  · have hlt := Nat.lt_of_le_of_ne hnext.1 (mt hend_iff.2 hend)
    refine h.returnPacket hlt hnone hindex hhw hlate (fun n hn => ?_) _
    obtain ⟨l, hnl, hl, hdesc, -⟩ := h.last _ n hn (Nat.le_refl _)
    rcases Nat.lt_or_ge s.descs.length (l + numDescs) with hnear | hfar
    · rw [hdesc, h.distance_last hhw hl hnear] at hle
      omega
    · omega

theorem consume (h : Inv r s) {k : Nat} (hk : k ≤ (s.prodReg + 0x10000 - s.consReg) % 0x10000) :
    Inv r (s.consume k) := by
  have horder := h.order
  rw [h.prodReg, h.consReg] at hk
  rw [numDescs] at horder
  have hle : s.consumed + k ≤ s.published := by omega
  refine { h with
    consReg := ?_
    order := ⟨Nat.le_trans horder.1 (Nat.le_add_right _ _), hle, horder.2.2⟩
    returned := fun t ht => ⟨Nat.le_trans (h.returned t ht).1 (Nat.le_add_right _ _),
      (h.returned t ht).2⟩
    call := ?_ }
  · show (s.consReg + k) % 0x10000 = (s.consumed + k) % 0x10000
    rw [h.consReg, Nat.mod_add_mod]
  · have hok := h.call
    show CallOk r (s.consume k) s.call
    cases hcall : s.call with
    | idle | packet | publish | readConsIndex =>
      rw [hcall] at hok
      exact ⟨⟨hok.1.beginIndex, hok.1.late⟩, hok.2⟩
    | fragment =>
      rw [hcall] at hok
      obtain ⟨hposting, p, hin⟩ := hok
      exact ⟨⟨hposting.beginIndex, hposting.late⟩, p, { hin with }⟩
    | complete =>
      rw [hcall] at hok
      exact hok

theorem turn (h : Inv r s) : Inv r (s.turn r) := by
  rw [TxQueue.turn]
  split
  · exact h
  · next hcall => exact h.postPacket hcall
  · next hcall => exact h.postFragment hcall
  · next hcall => exact h.publish hcall
  · next hcall => exact h.readConsIndex hcall
  · next hcall => exact h.completePacket hcall

end Inv

theorem inv_start (packets : Nat → NetPacket) (fragments : Nat → NetFragment)
    (packetContexts : Nat → GenetTxPacket) (bds : Nat → DmaDesc) (numbers : Nat → Nat) :
    Inv r (genetTxQueueStart packets fragments packetContexts bds numbers) where
  slots _ _ hk := nomatch hk
  endIndex := (Nat.zero_mod _).symm
  room := by
    show 0 < 0 + r.packets
    rw [Nat.zero_add]
    exact r.packets_pos
  next := ⟨Nat.le_refl _, Nat.le_refl _⟩
  fits _ hp := nomatch hp
  prodIndex := rfl
  consIndex := rfl
  prodReg := rfl
  consReg := rfl
  order := ⟨Nat.le_refl _, Nat.le_refl _, Nat.le_refl _, (by decide : 0 < 0 + numDescs)⟩
  inPlace _ hn := nomatch hn
  written _ _ hi := nomatch hi
  notOverwritten := rfl
  counts _ _ hk := nomatch hk
  beyond _ _ := rfl
  sorted _ _ _ _ hi := nomatch hi
  last _ _ hn := nomatch hn
  inOrder := rfl
  returned _ ht := nomatch ht
  asserted := rfl
  call := ⟨⟨(Nat.zero_mod _).symm, fun _ _ _ _ hk => nomatch hk⟩, rfl, (Nat.zero_mod _).symm,
    fun hlt => nomatch hlt⟩

end TxQueue

/-- **Every run is sound**: for rings of any sizes, also when the indices wrap. -/
theorem txRingSound_of_reachable {r : Rings} {s : TxQueue} (h : (txMachine r).Reachable s) :
    TxRingSound r s := by
  have hinv : TxQueue.Inv r s := by
    refine Machine.Reach.inv_guarded (fun s hs => ?_) (fun s a hinv _ hen => ?_) h
    · obtain ⟨packets, fragments, packetContexts, bds, numbers, rfl⟩ := hs
      exact TxQueue.inv_start packets fragments packetContexts bds numbers
    · cases a with
      | addPacket ignore fragmentIndex fragments => exact hinv.addPacket hen.1 hen.2.1 hen.2.2
      | advance => exact hinv.advance hen
      | turn => exact hinv.turn
      | consume k => exact hinv.consume hen
  have horder := hinv.order
  refine ⟨hinv.notOverwritten, fun n hn hlt => hinv.inPlace n hlt (by omega), by omega,
    hinv.inOrder, fun t ht => ?_, fun hidle => ?_, hinv.asserted, fun postedDescs hcall => ?_,
    fun hne hidle hbegin => ?_⟩
  · obtain ⟨hle, hlt, hconsumed⟩ := hinv.returned t ht
    have hp := List.getElem?_eq_getElem (Nat.lt_of_lt_of_le hlt hinv.next.2)
    exact ⟨hle, hconsumed, _, hp, hinv.counts _ _ hlt hp⟩
  · have hok := hinv.call
    rw [hidle] at hok
    exact hok.1.beginIndex
  · have hok := hinv.call
    rw [hcall] at hok
    obtain ⟨-, -, hindex, hend | hfull⟩ := hok
    · exact .inl (hindex.trans (hinv.next_eq_iff.2 hend))
    · exact .inr hfull
  · have hok := hinv.call
    rw [hidle] at hok
    obtain ⟨hposting, -, hindex, hhead⟩ := hok
    have hlt : s.returned.length < s.next := Nat.lt_of_le_of_ne hinv.next.1 fun heq => hbegin (by
      rw [hposting.beginIndex, hindex, heq])
    obtain ⟨p, hp, hignore⟩ := hhead hlt
    exact hposting.late hne _ p (Nat.le_refl _) hlt hp hignore

def smallRings : Rings := ⟨4, 8, by decide, by decide, by decide, by decide⟩

/-- A packet of two fragments, one that is ignored and one of a single fragment; two descriptors are
consumed before the driver looks. -/
def ignoredRun : List TxAction :=
  [TxAction.addPacket false 0 [⟨60, 0, 0x1000⟩, ⟨100, 4, 0x2000⟩], .addPacket true 0 [],
    .addPacket false 2 [⟨1500, 0, 0x3000⟩], .advance] ++ List.replicate 10 .turn ++
  .consume 2 :: List.replicate 4 .turn

theorem txRingSound_of_reachable_ignored :
    ∃ s, (txMachine smallRings).Reachable s ∧ s.returned = [(0, 2), (1, 2)] ∧ s.call = .idle ∧
      TxRingSound smallRings s :=
  have h := (txMachine smallRings).reach_exec_get ignoredRun
    (s := TxQueue.genetTxQueueStart (fun _ => ⟨false, 0, 0⟩) (fun _ => ⟨0, 0, 0⟩) (fun _ => ⟨0, 0⟩)
      (fun _ => ⟨0, 0, 0⟩) id) ⟨_, _, _, _, _, rfl⟩ (by rfl)
  ⟨_, h, by rfl, by rfl, txRingSound_of_reachable h⟩

end RpiDrivers.Genet
