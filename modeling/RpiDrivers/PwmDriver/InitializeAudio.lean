import Mathlib.Tactic.SplitIfs
import RpiDrivers.Lib.Calc
import RpiDrivers.PwmDriver.Ioctl

/-!
# The control blocks of the PWM audio (`InitializeAudio` in `dma.cpp`)

`InitializeAudio` cuts the DMA buffer into packets of the size that the audio driver asks for, and
writes two control blocks and a link for each packet. The sizes come from divisions of what the
client sends, which only debug assertions guard.

- `DeviceContext`: the context with the control page.
- `DeviceContext.initializeAudio`: the call, with the divisions and subtractions as they are.
- `Built`: **what the control blocks and the links are to be**.
- `initialized_iff`: **exactly when the call fails without a trace, or builds them**.
- `initializeAudio_pwm`: to the registers it does what `Context.initializeAudio` says.
- `packetCb_config`: the control blocks are those that `PwmAudio` starts from.
-/

namespace RpiDrivers.PwmDriver

open RpiDrivers.Lib
open RpiDrivers.PwmAudio (dmaBufferSize audioPacketLastChunkSize dmaCbSize)

/-! ## The control page -/

/-- `DMA_CB` -/
structure ControlBlock where
  ti : Nat
  sourceAd : Nat
  destAd : Nat
  txfrLen : Nat
  stride : Nat
  nextConbk : Nat
  deriving DecidableEq

/-- `BCM_PWM_PACKET_LINK_INFO`; the pointer is to the `NEXTCONBK` of this control block. -/
structure LinkInfo where
  linkPtr : Nat
  linkValue : Nat
  deriving DecidableEq

/-- `dmaControlDataSize`, a page -/
def dmaControlDataSize : Nat := 4096

/-- The context after `AllocateDmaBuffer`. -/
structure DeviceContext where
  pwm : Context
  dmaCbPa : Nat
  dmaBufferPa : Nat
  memUncachedOffset : UInt32
  pwmRegsBusPa : UInt32
  dmaDreq : Nat
  /-- `sizeof(BCM_PWM_PACKET_LINK_INFO)` -/
  linkInfoSize : Nat
  dmaCb : Nat → ControlBlock
  dmaPacketLinkInfo : Nat → LinkInfo
  dmaPacketsToPrimePreset : Nat
  dmaPacketsToPrime : Nat
  dmaCbPa_le : dmaCbPa + dmaControlDataSize ≤ 2 ^ 32
  dmaBufferPa_le : dmaBufferPa + dmaBufferSize ≤ 2 ^ 32
  /-- with pointers of 32 or 64 bits -/
  linkInfoSize_eq : linkInfoSize = 8 ∨ linkInfoSize = 16
  dmaMaxPackets_eq : pwm.dmaMaxPackets = dmaControlDataSize / (2 * dmaCbSize + linkInfoSize)

namespace DeviceContext

variable (s : DeviceContext)

/-- The bus address of a physical address -/
def busAddress (pa : Nat) : Nat := (pa + s.memUncachedOffset.toNat) % 2 ^ 32

/-- `DMA_TI_SRC_INC | DMA_TI_SRC_DREQ | (dmaDreq << DMA_TI_PERMAP_SHIFT) | DMA_TI_BURST_LENGTH_0` -/
def ti : Nat := 0x500 ||| s.dmaDreq <<< 16

/-- `dmaPacketLinkInfo`, as an offset in the page -/
def linkInfoOffset : Nat := 2 * s.pwm.dmaMaxPackets * dmaCbSize

/-! ## `InitializeAudio` -/

/-- The first control block of a packet -/
def firstCb (packetSize txfrLen packetIndex : Nat) : ControlBlock where
  ti := s.ti
  sourceAd := (s.dmaBufferPa + packetIndex * packetSize + s.memUncachedOffset.toNat) % 2 ^ 32
  destAd := (s.pwmRegsBusPa.toNat + 0x18) % 2 ^ 32
  txfrLen
  stride := 0
  nextConbk := s.busAddress (s.dmaCbPa + (2 * packetIndex + 1) * dmaCbSize)

/-- The second control block of a packet, which raises an interrupt -/
def secondCb (packetSize packetFirstChunkSize packetIndex : Nat) : ControlBlock where
  ti := s.ti ||| 1
  sourceAd := (s.dmaBufferPa + packetIndex * packetSize + packetFirstChunkSize +
    s.memUncachedOffset.toNat) % 2 ^ 32
  destAd := (s.pwmRegsBusPa.toNat + 0x18) % 2 ^ 32
  txfrLen := audioPacketLastChunkSize
  stride := 0
  nextConbk := 0

/-- What is computed from the request. -/
structure Sizes where
  packetSize : Nat
  packetFirstChunkSize : Nat
  correctionDropPacketIndex : Nat

/-- `TXFR_LEN` of the first control block, with the drift correction -/
def firstTxfrLen (z : Sizes) (packetIndex : Nat) : Calc Nat :=
  if packetIndex = z.correctionDropPacketIndex then Calc.sub 32 z.packetFirstChunkSize 8
  else pure z.packetFirstChunkSize

/-- The packet whose second control block links the packet -/
def previousPacket (packetIndex : Nat) : Calc Nat :=
  if packetIndex = 0 then Calc.sub 32 s.pwm.dmaNumPackets 1 else Calc.sub 32 packetIndex 1

/-- The loop of `InitializeAudio`, for one packet -/
def buildPacket (z : Sizes) (packetIndex : Nat) : Calc DeviceContext := do
  let txfrLen ← firstTxfrLen z packetIndex
  let previous ← s.previousPacket packetIndex
  pure { s with
    dmaCb := fun j =>
      if j = 2 * packetIndex then s.firstCb z.packetSize txfrLen packetIndex
      else if j = 2 * packetIndex + 1 then
        s.secondCb z.packetSize z.packetFirstChunkSize packetIndex
      else s.dmaCb j
    dmaPacketLinkInfo := fun i =>
      if i = packetIndex then
        ⟨2 * previous + 1, (s.dmaCbPa + packetIndex * 2 * dmaCbSize) % 2 ^ 32⟩
      else s.dmaPacketLinkInfo i }

/-- The loop, for the packets that are left. -/
def buildPackets (z : Sizes) : Nat → Nat → DeviceContext → Calc DeviceContext
  | 0, _, s => pure s
  | left + 1, packetIndex, s => do
    let s ← s.buildPacket z packetIndex
    buildPackets z left (packetIndex + 1) s

/-- The packet that is shorter by a sample, to correct the drift -/
def dropPacketIndex (packetSize : Nat) : Calc Nat := do
  let samplesPerPacket := packetSize / 8
  let correctionDropPacketCount ← Calc.div 5320 samplesPerPacket
  if s.pwm.dmaNumPackets < correctionDropPacketCount then Calc.sub 32 s.pwm.dmaNumPackets 1
  else Calc.sub 32 correctionDropPacketCount 1

/-- `InitializeAudio`, after its checks -/
def buildControlBlocks (c : AudioConfig) (packetSize packetFirstChunkSize : Nat) :
    Calc DeviceContext := do
  let s := { s with pwm := { s.pwm.takeAudioConfig c.pwmRange with dmaCb := some packetSize } }
  let correctionDropPacketIndex ← s.dropPacketIndex packetSize
  let s := { s with
    dmaPacketsToPrimePreset := s.pwm.dmaNumPackets / 4
    dmaPacketsToPrime := s.pwm.dmaNumPackets / 4 }
  buildPackets ⟨packetSize, packetFirstChunkSize, correctionDropPacketIndex⟩ s.pwm.dmaNumPackets 0 s

/-- `InitializeAudio`; a request may have no input or no output buffer. -/
def initializeAudio (input : Option AudioConfig) (output : Bool) :
    Calc (Status × DeviceContext) :=
  match input with
  | none => pure (.bufferTooSmall, s)
  | some c =>
    if dmaBufferSize < c.requestedBufferSize.toNat then pure (.unsuccessful, s)
    else do
      let packetSize ← Calc.div c.requestedBufferSize.toNat c.notificationsPerBuffer.toNat
      let packetFirstChunkSize ← Calc.sub 32 packetSize audioPacketLastChunkSize
      let dmaNumPackets ← Calc.div dmaBufferSize packetSize
      let s := { s with pwm := { s.pwm with dmaNumPackets := dmaNumPackets } }
      if s.pwm.dmaMaxPackets < s.pwm.dmaNumPackets then pure (.unsuccessful, s)
      else if !output then pure (.bufferTooSmall, s)
      else if s.pwm.channel1IsRunning || s.pwm.channel2IsRunning then
        pure (.operationInProgress, s)
      else do
        let s ← s.buildControlBlocks c packetSize packetFirstChunkSize
        pure (.success, s)

/-! ## The property -/

/-- The audio driver links a packet. -/
def linkPacket (dmaCb : Nat → ControlBlock) (link : LinkInfo) : Nat → ControlBlock := fun j =>
  if j = link.linkPtr then { dmaCb j with nextConbk := link.linkValue } else dmaCb j

/-- The packets before packet `n` are linked in turn. -/
def linkPackets : Nat → Nat → ControlBlock
  | 0 => s.dmaCb
  | n + 1 => linkPacket (linkPackets n) (s.dmaPacketLinkInfo n)

/-- A control block transfers the bytes from `a` to `b` of the DMA buffer. -/
def Spans (cb : ControlBlock) (a b : Nat) : Prop :=
  a < b ∧ b ≤ dmaBufferSize ∧ cb.sourceAd = s.busAddress (s.dmaBufferPa + a) ∧ cb.txfrLen = b - a

end DeviceContext

/-- **What `InitializeAudio` is to build.** -/
structure Built (s : DeviceContext) (packetSize : Nat) : Prop where
  numPackets : s.pwm.dmaNumPackets = dmaBufferSize / packetSize
  /-- the control blocks lie before the links, and these in the page -/
  fits : 2 * s.pwm.dmaNumPackets * dmaCbSize ≤ s.linkInfoOffset ∧
    s.linkInfoOffset + s.pwm.dmaNumPackets * s.linkInfoSize ≤ dmaControlDataSize
  /-- the two blocks of a packet meet at `m`, but for the packet that is one sample shorter -/
  covers : ∃ short < s.pwm.dmaNumPackets, ∀ i < s.pwm.dmaNumPackets, ∃ m,
    s.Spans (s.dmaCb (2 * i)) (i * packetSize) (if i = short then m - 8 else m) ∧
      s.Spans (s.dmaCb (2 * i + 1)) m ((i + 1) * packetSize)
  /-- one cycle through all control blocks -/
  chain : ∀ j < 2 * s.pwm.dmaNumPackets, (s.linkPackets s.pwm.dmaNumPackets j).nextConbk =
    s.busAddress (s.dmaCbPa + (j + 1) % (2 * s.pwm.dmaNumPackets) * dmaCbSize)

def AudioConfig.packetSize (c : AudioConfig) : Nat :=
  c.requestedBufferSize.toNat / c.notificationsPerBuffer.toNat

/-- The packet size of a request that has an input buffer -/
def packetSizeOf (input : Option AudioConfig) : Nat := input.elim 0 AudioConfig.packetSize

/-- **The property.** The call fails and leaves the context as it is, or it builds the control
blocks, with no subtraction that wraps. -/
def Initialized (s : DeviceContext) (input : Option AudioConfig) (output : Bool) : Prop :=
  (∃ status ≠ .success, (s.initializeAudio input output).value = some (status, s)) ∨
    ∃ s', (s.initializeAudio input output).Exactly (.success, s') ∧ Built s' (packetSizeOf input)

/-- The call fails after it has stored the number of packets. -/
def FailsLate (s : DeviceContext) (c : AudioConfig) (output : Bool) : Prop :=
  s.pwm.dmaMaxPackets < dmaBufferSize / c.packetSize ∨ output = false ∨ s.pwm.isRunning = true

/-- **The condition.** -/
def Initializable (s : DeviceContext) (output : Bool) : Option AudioConfig → Prop
  | none => True
  | some c => dmaBufferSize < c.requestedBufferSize.toNat ∨
    c.packetSize ≠ 0 ∧
      (FailsLate s c output → s.pwm.dmaNumPackets = dmaBufferSize / c.packetSize) ∧
      (¬ FailsLate s c output → c.packetSize / 8 ≤ 5320 ∧ s.memUncachedOffset = 0)

/-! ## The loop -/

namespace DeviceContext

variable (s : DeviceContext)

/-- The control blocks and the links are replaced. -/
def setPage (dmaCb : Nat → ControlBlock) (dmaPacketLinkInfo : Nat → LinkInfo) : DeviceContext :=
  { s with dmaCb, dmaPacketLinkInfo }

/-- What the loop writes to a control block -/
def packetCb (z : Sizes) (j : Nat) : ControlBlock :=
  if j % 2 = 0 then
    s.firstCb z.packetSize (if j / 2 = z.correctionDropPacketIndex then z.packetFirstChunkSize - 8
      else z.packetFirstChunkSize) (j / 2)
  else s.secondCb z.packetSize z.packetFirstChunkSize (j / 2)

/-- What the loop writes to a link -/
def packetLink (i : Nat) : LinkInfo where
  linkPtr := if i = 0 then 2 * (s.pwm.dmaNumPackets - 1) + 1 else 2 * (i - 1) + 1
  linkValue := (s.dmaCbPa + i * 2 * dmaCbSize) % 2 ^ 32

/-- The page after the packets from `i` on. -/
def withPackets (z : Sizes) (i n : Nat) : DeviceContext :=
  s.setPage (fun j => if 2 * i ≤ j ∧ j < 2 * (i + n) then s.packetCb z j else s.dmaCb j)
    fun k => if i ≤ k ∧ k < i + n then s.packetLink k else s.dmaPacketLinkInfo k

theorem withPackets_zero (z : Sizes) (i : Nat) : s.withPackets z i 0 = s := by
  have hcb : (fun j => if 2 * i ≤ j ∧ j < 2 * (i + 0) then s.packetCb z j else s.dmaCb j) =
      s.dmaCb := funext fun j => if_neg (by omega)
  have hlink : (fun k => if i ≤ k ∧ k < i + 0 then s.packetLink k else s.dmaPacketLinkInfo k) =
      s.dmaPacketLinkInfo := funext fun k => if_neg (by omega)
  rw [withPackets, hcb, hlink]
  rfl

/-- Packets after packets. -/
theorem withPackets_append (z : Sizes) (i m n : Nat) :
    (s.withPackets z i m).withPackets z (i + m) n = s.withPackets z i (m + n) := by
  refine congrArg₂ s.setPage (funext fun j => ?_) (funext fun k => ?_)
  · show (if 2 * (i + m) ≤ j ∧ j < 2 * (i + m + n) then s.packetCb z j
      else if 2 * i ≤ j ∧ j < 2 * (i + m) then s.packetCb z j else s.dmaCb j) = _
    split_ifs <;> first | rfl | omega
  · show (if i + m ≤ k ∧ k < i + m + n then s.packetLink k
      else if i ≤ k ∧ k < i + m then s.packetLink k else s.dmaPacketLinkInfo k) = _
    split_ifs <;> first | rfl | omega

/-- One packet. -/
theorem buildPacket_exactly {z : Sizes} {i : Nat} (hchunk : 8 ≤ z.packetFirstChunkSize)
    (hlt : z.packetFirstChunkSize < 2 ^ 32) (hpos : 0 < s.pwm.dmaNumPackets)
    (hnum : s.pwm.dmaNumPackets < 2 ^ 32) (hi : i < 2 ^ 32) :
    (s.buildPacket z i).Exactly (s.withPackets z i 1) := by
  have hpage : s.withPackets z i 1 = s.setPage
      (fun j => if j = 2 * i then s.packetCb z (2 * i)
        else if j = 2 * i + 1 then s.packetCb z (2 * i + 1) else s.dmaCb j)
      (fun k => if k = i then s.packetLink i else s.dmaPacketLinkInfo k) := by
    refine congrArg₂ s.setPage (funext fun j => ?_) (funext fun k => ?_)
    · split_ifs <;> first | rfl | omega | simp_all
    · split_ifs <;> first | rfl | omega | simp_all
  have htxfr : (firstTxfrLen z i).Exactly (if i = z.correctionDropPacketIndex then
      z.packetFirstChunkSize - 8 else z.packetFirstChunkSize) := by
    unfold firstTxfrLen
    split_ifs
    · exact (Calc.exactly_sub hlt).2 ⟨hchunk, rfl⟩
    · exact Calc.exactly_pure.2 rfl
  have hprevious : (s.previousPacket i).Exactly
      (if i = 0 then s.pwm.dmaNumPackets - 1 else i - 1) := by
    unfold previousPacket
    split_ifs with h
    · exact (Calc.exactly_sub hnum).2 ⟨hpos, rfl⟩
    · exact (Calc.exactly_sub hi).2 ⟨Nat.pos_of_ne_zero h, rfl⟩
  have heven : s.packetCb z (2 * i) = s.firstCb z.packetSize
      (if i = z.correctionDropPacketIndex then z.packetFirstChunkSize - 8
        else z.packetFirstChunkSize) i := by
    rw [packetCb, if_pos (by omega), show 2 * i / 2 = i by omega]
  have hodd : s.packetCb z (2 * i + 1) = s.secondCb z.packetSize z.packetFirstChunkSize i := by
    rw [packetCb, if_neg (by omega), show (2 * i + 1) / 2 = i by omega]
  have hlink : s.packetLink i = ⟨2 * (if i = 0 then s.pwm.dmaNumPackets - 1 else i - 1) + 1,
      (s.dmaCbPa + i * 2 * dmaCbSize) % 2 ^ 32⟩ := by
    unfold packetLink
    split_ifs <;> rfl
  refine Calc.exactly_bind.2 ⟨_, htxfr, Calc.exactly_bind.2 ⟨_, hprevious, ?_⟩⟩
  rw [hpage, heven, hodd, hlink]
  exact Calc.exactly_pure.2 rfl

/-- **The loop is exact**, and writes all packets. -/
theorem buildPackets_exactly {z : Sizes} (hchunk : 8 ≤ z.packetFirstChunkSize)
    (hlt : z.packetFirstChunkSize < 2 ^ 32) (n : Nat) : ∀ (i : Nat) (s : DeviceContext),
      0 < s.pwm.dmaNumPackets → s.pwm.dmaNumPackets < 2 ^ 32 → i + n < 2 ^ 32 →
      (buildPackets z n i s).Exactly (s.withPackets z i n) := by
  induction n with
  | zero =>
    intro i s _ _ _
    exact Calc.exactly_pure.2 (s.withPackets_zero z i).symm
  | succ n ih =>
    intro i s hpos hnum hi
    refine Calc.exactly_bind.2 ⟨s.withPackets z i 1,
      s.buildPacket_exactly hchunk hlt hpos hnum (by omega), ?_⟩
    rw [Nat.add_comm n 1, ← withPackets_append]
    exact ih (i + 1) (s.withPackets z i 1) hpos hnum (by omega)

/-! ## Linking the packets -/

theorem linkPackets_of_ne {n j : Nat} (h : ∀ k < n, (s.dmaPacketLinkInfo k).linkPtr ≠ j) :
    s.linkPackets n j = s.dmaCb j := by
  induction n with
  | zero => rfl
  | succ n ih =>
    rw [linkPackets, linkPacket, if_neg (Ne.symm (h n n.lt_succ_self)),
      ih fun k hk => h k (by omega)]

/-- Links with different pointers do not disturb each other. -/
theorem linkPackets_of_link {n i : Nat} (hi : i < n)
    (h : ∀ k < n, (s.dmaPacketLinkInfo k).linkPtr = (s.dmaPacketLinkInfo i).linkPtr → k = i) :
    (s.linkPackets n (s.dmaPacketLinkInfo i).linkPtr).nextConbk =
      (s.dmaPacketLinkInfo i).linkValue := by
  induction n with
  | zero => exact absurd hi i.not_lt_zero
  | succ n ih =>
    rw [linkPackets, linkPacket]
    split_ifs with heq
    · rw [h n n.lt_succ_self heq.symm]
    · refine ih ?_ fun k hk => h k (by omega)
      exact Nat.lt_of_le_of_ne (by omega) fun hin => heq (by rw [hin])

theorem withPackets_link {z : Sizes} {k : Nat} (hk : k < s.pwm.dmaNumPackets) :
    (s.withPackets z 0 s.pwm.dmaNumPackets).dmaPacketLinkInfo k = s.packetLink k :=
  if_pos (by omega)

theorem withPackets_cb {z : Sizes} {j : Nat} (hj : j < 2 * s.pwm.dmaNumPackets) :
    (s.withPackets z 0 s.pwm.dmaNumPackets).dmaCb j = s.packetCb z j :=
  if_pos (by omega)

/-- The packets have pointers of their own. -/
theorem packetLink_injective {i k : Nat} (hi : i < s.pwm.dmaNumPackets)
    (hk : k < s.pwm.dmaNumPackets) (h : (s.packetLink k).linkPtr = (s.packetLink i).linkPtr) :
    k = i := by
  simp only [packetLink] at h
  split_ifs at h <;> omega

/-- **Each control block is linked to the next one**, once the packets are linked: the first one of
a packet by its bus address, the second one to the physical address in the link. -/
theorem linkPackets_withPackets (z : Sizes) {j : Nat} (hj : j < 2 * s.pwm.dmaNumPackets) :
    ((s.withPackets z 0 s.pwm.dmaNumPackets).linkPackets s.pwm.dmaNumPackets j).nextConbk =
      if j % 2 = 0 then s.busAddress (s.dmaCbPa + (j + 1) % (2 * s.pwm.dmaNumPackets) * dmaCbSize)
      else (s.dmaCbPa + (j + 1) % (2 * s.pwm.dmaNumPackets) * dmaCbSize) % 2 ^ 32 := by
  split_ifs with hodd
  · rw [linkPackets_of_ne, withPackets_cb s hj, packetCb, if_pos hodd,
      Nat.mod_eq_of_lt (show j + 1 < 2 * s.pwm.dmaNumPackets by omega)]
    · rw [firstCb, show 2 * (j / 2) + 1 = j + 1 by omega]
    · intro k hk
      rw [withPackets_link s hk, packetLink]
      simp only
      split_ifs <;> omega
  · obtain ⟨i, hi, hptr, hnext⟩ : ∃ i < s.pwm.dmaNumPackets, (s.packetLink i).linkPtr = j ∧
        (j + 1) % (2 * s.pwm.dmaNumPackets) = 2 * i := by
      by_cases hlast : j + 1 = 2 * s.pwm.dmaNumPackets
      · refine ⟨0, by omega, ?_, ?_⟩
        · rw [packetLink]
          simp only [if_true]
          omega
        · rw [hlast, Nat.mod_self]
      · refine ⟨(j + 1) / 2, by omega, ?_, ?_⟩
        · rw [packetLink]
          simp only
          rw [if_neg (by omega)]
          omega
        · rw [Nat.mod_eq_of_lt (by omega)]
          omega
    have hlink := withPackets_link s (z := z) hi
    have hvalue := (s.withPackets z 0 s.pwm.dmaNumPackets).linkPackets_of_link hi
        fun k hk hkeq => by
      rw [withPackets_link s hk, hlink] at hkeq
      exact s.packetLink_injective hi hk hkeq
    rw [hlink, hptr] at hvalue
    rw [hvalue, hnext, packetLink, Nat.mul_comm 2 i]

/-- **The control blocks are linked in one cycle** exactly when physical addresses are bus
addresses. -/
theorem chain_iff (z : Sizes) (hpos : 0 < s.pwm.dmaNumPackets) :
    (∀ j < 2 * s.pwm.dmaNumPackets,
      ((s.withPackets z 0 s.pwm.dmaNumPackets).linkPackets s.pwm.dmaNumPackets j).nextConbk =
        s.busAddress (s.dmaCbPa + (j + 1) % (2 * s.pwm.dmaNumPackets) * dmaCbSize)) ↔
      s.memUncachedOffset = 0 := by
  constructor
  · intro h
    have hlast := h (2 * s.pwm.dmaNumPackets - 1) (by omega)
    rw [linkPackets_withPackets s z (by omega), if_neg (by omega)] at hlast
    have hoffset := s.memUncachedOffset.toNat_lt
    rw [busAddress] at hlast
    apply UInt32.toNat_inj.1
    show s.memUncachedOffset.toNat = 0
    omega
  · intro h j hj
    rw [linkPackets_withPackets s z hj]
    split_ifs
    · rfl
    · rw [busAddress, h]
      rfl

/-! ## The blocks of a packet -/

/-- The control page has room for 51 or 56 packets. -/
theorem dmaMaxPackets_cases : s.pwm.dmaMaxPackets = 56 ∧ s.linkInfoSize = 8 ∨
    s.pwm.dmaMaxPackets = 51 ∧ s.linkInfoSize = 16 := by
  rw [s.dmaMaxPackets_eq]
  rcases s.linkInfoSize_eq with h | h
  · exact .inl ⟨by rw [h]; rfl, h⟩
  · exact .inr ⟨by rw [h]; rfl, h⟩

/-- So the packets that fit are not small. -/
theorem le_packetSize {packetSize : Nat} (hpos : packetSize ≠ 0)
    (hnum : dmaBufferSize / packetSize ≤ s.pwm.dmaMaxPackets) : 1150 ≤ packetSize := by
  have hlt : dmaBufferSize / packetSize < 57 := by
    rcases s.dmaMaxPackets_cases with ⟨h, -⟩ | ⟨h, -⟩ <;> omega
  have := (Nat.div_lt_iff_lt_mul (Nat.pos_of_ne_zero hpos)).1 hlt
  rw [dmaBufferSize] at this
  omega

theorem fits (hnum : s.pwm.dmaNumPackets ≤ s.pwm.dmaMaxPackets) :
    2 * s.pwm.dmaNumPackets * dmaCbSize ≤ s.linkInfoOffset ∧
      s.linkInfoOffset + s.pwm.dmaNumPackets * s.linkInfoSize ≤ dmaControlDataSize := by
  unfold linkInfoOffset dmaCbSize dmaControlDataSize
  rcases s.dmaMaxPackets_cases with ⟨h, hsize⟩ | ⟨h, hsize⟩ <;>
  · rw [h] at hnum ⊢
    rw [hsize]
    omega

/-- **The two blocks of a packet** cover it, but for the sample that is dropped. -/
theorem covers {packetSize i : Nat} (drop : Nat) (hsize : 1150 ≤ packetSize)
    (hi : i < dmaBufferSize / packetSize) :
    let z : Sizes := ⟨packetSize, packetSize - audioPacketLastChunkSize, drop⟩
    ∃ m, s.Spans (s.packetCb z (2 * i)) (i * packetSize) (if i = drop then m - 8 else m) ∧
      s.Spans (s.packetCb z (2 * i + 1)) m ((i + 1) * packetSize) := by
  have hend : (i + 1) * packetSize ≤ dmaBufferSize :=
    Nat.le_trans (Nat.mul_le_mul_right packetSize hi) (Nat.div_mul_le_self dmaBufferSize packetSize)
  have hnext : (i + 1) * packetSize = i * packetSize + packetSize := Nat.succ_mul i packetSize
  have hchunk : audioPacketLastChunkSize = 32 := rfl
  refine ⟨i * packetSize + (packetSize - audioPacketLastChunkSize), ⟨?_, ?_, ?_, ?_⟩,
    ⟨by omega, hend, ?_, ?_⟩⟩
  · split_ifs <;> omega
  · split_ifs <;> omega
  · rw [packetCb, if_pos (by omega), show 2 * i / 2 = i by omega]
    rfl
  · rw [packetCb, if_pos (by omega), show 2 * i / 2 = i by omega]
    simp only [firstCb]
    split_ifs <;> omega
  · rw [packetCb, if_neg (by omega), show (2 * i + 1) / 2 = i by omega]
    simp only [secondCb, busAddress, Nat.add_assoc]
  · rw [packetCb, if_neg (by omega), show (2 * i + 1) / 2 = i by omega]
    show audioPacketLastChunkSize = _
    omega

/-- **The control blocks are right** exactly when physical addresses are bus addresses. -/
theorem built_iff {packetSize drop : Nat} (hsize : 1150 ≤ packetSize)
    (hnumPackets : s.pwm.dmaNumPackets = dmaBufferSize / packetSize)
    (hmax : s.pwm.dmaNumPackets ≤ s.pwm.dmaMaxPackets) (hdrop : drop < s.pwm.dmaNumPackets) :
    Built (s.withPackets ⟨packetSize, packetSize - audioPacketLastChunkSize, drop⟩ 0
      s.pwm.dmaNumPackets) packetSize ↔ s.memUncachedOffset = 0 := by
  have hpos : 0 < s.pwm.dmaNumPackets := by omega
  rw [← s.chain_iff ⟨packetSize, packetSize - audioPacketLastChunkSize, drop⟩ hpos]
  constructor
  · exact fun h => h.chain
  · intro h
    refine ⟨hnumPackets, s.fits hmax, ⟨drop, hdrop, fun i hi => ?_⟩, h⟩
    have hi : i < s.pwm.dmaNumPackets := hi
    obtain ⟨m, hfirst, hsecond⟩ := s.covers drop hsize (hnumPackets ▸ hi)
    rw [withPackets_cb s (by omega), withPackets_cb s (by omega)]
    exact ⟨m, hfirst, hsecond⟩

/-! ## The call -/

/-- The drift correction drops a sample of some packet when there are not too many samples in a
packet. -/
theorem dropPacketIndex_of_le {packetSize : Nat} (hsize : 8 ≤ packetSize)
    (hle : packetSize / 8 ≤ 5320) (hpos : 0 < s.pwm.dmaNumPackets)
    (hnum : s.pwm.dmaNumPackets < 2 ^ 32) :
    ∃ drop < s.pwm.dmaNumPackets, (s.dropPacketIndex packetSize).Exactly drop := by
  have hcount : 1 ≤ 5320 / (packetSize / 8) := Nat.div_pos hle (by omega)
  have hlt : 5320 / (packetSize / 8) < 2 ^ 32 :=
    Nat.lt_of_le_of_lt (Nat.div_le_self ..) (by decide)
  unfold dropPacketIndex
  simp only [Calc.exactly_bind, Calc.exactly_div, Calc.exactly_ite]
  by_cases h : s.pwm.dmaNumPackets < 5320 / (packetSize / 8)
  · refine ⟨s.pwm.dmaNumPackets - 1, by omega, _, ⟨by omega, rfl⟩, ?_⟩
    rw [if_pos h]
    exact (Calc.exactly_sub hnum).2 ⟨hpos, rfl⟩
  · refine ⟨5320 / (packetSize / 8) - 1, by omega, _, ⟨by omega, rfl⟩, ?_⟩
    rw [if_neg h]
    exact (Calc.exactly_sub hlt).2 ⟨hcount, rfl⟩

/-- Otherwise the subtraction wraps. -/
theorem le_of_dropPacketIndex {packetSize drop : Nat} (hpos : 0 < s.pwm.dmaNumPackets)
    (h : (s.dropPacketIndex packetSize).Exactly drop) : packetSize / 8 ≤ 5320 := by
  obtain ⟨count, hdiv, hsub⟩ := Calc.exactly_bind.1 h
  obtain ⟨hne, rfl⟩ := Calc.exactly_div.1 hdiv
  have hlt : 5320 / (packetSize / 8) < 2 ^ 32 :=
    Nat.lt_of_le_of_lt (Nat.div_le_self ..) (by decide)
  refine (Nat.div_pos_iff.1 ?_).2
  rw [Calc.exactly_ite] at hsub
  split_ifs at hsub with hmany
  · omega
  · exact ((Calc.exactly_sub hlt).1 hsub).1

/-- The context when the control blocks are written -/
def taken (c : AudioConfig) : DeviceContext :=
  { s with
    pwm := { { s.pwm with dmaNumPackets := dmaBufferSize / c.packetSize }.takeAudioConfig
      c.pwmRange with dmaCb := some c.packetSize }
    dmaPacketsToPrimePreset := dmaBufferSize / c.packetSize / 4
    dmaPacketsToPrime := dmaBufferSize / c.packetSize / 4 }

/-- The number of packets is stored. -/
def numbered (c : AudioConfig) : DeviceContext :=
  { s with pwm := { s.pwm with dmaNumPackets := dmaBufferSize / c.packetSize } }

section Call

variable {c : AudioConfig} {output : Bool}

theorem notificationsPerBuffer_ne_zero (h : c.packetSize ≠ 0) :
    c.notificationsPerBuffer.toNat ≠ 0 := by
  intro hzero
  rw [AudioConfig.packetSize, hzero, Nat.div_zero] at h
  exact h rfl

/-- The call divides by zero. -/
theorem initializeAudio_divByZero (output : Bool)
    (hreq : ¬ dmaBufferSize < c.requestedBufferSize.toNat)
    (h : c.packetSize = 0) : (s.initializeAudio (some c) output).value = none := by
  rw [initializeAudio]
  simp only [if_neg hreq, Calc.value_bind, Calc.value_div, Calc.value_sub]
  by_cases hzero : c.notificationsPerBuffer.toNat = 0
  · rw [if_pos hzero]
    rfl
  · have hsize : c.requestedBufferSize.toNat / c.notificationsPerBuffer.toNat = 0 := h
    rw [if_neg hzero]
    simp only [Option.bind_some, if_pos hsize]
    rfl

/-- The call fails after it has stored the number of packets. -/
theorem initializeAudio_of_failsLate (hreq : ¬ dmaBufferSize < c.requestedBufferSize.toNat)
    (hsize : c.packetSize ≠ 0) (h : FailsLate s c output) :
    ∃ status ≠ .success,
      (s.initializeAudio (some c) output).value = some (status, s.numbered c) := by
  have hnot := notificationsPerBuffer_ne_zero hsize
  have hsize' : c.requestedBufferSize.toNat / c.notificationsPerBuffer.toNat ≠ 0 := hsize
  rw [initializeAudio]
  simp only [if_neg hreq, Calc.value_bind, Calc.value_div, Calc.value_sub, if_neg hnot,
    Option.bind_some, if_neg hsize', Calc.value_ite, Calc.value_pure]
  split_ifs with hmax houtput hrunning
  · exact ⟨.unsuccessful, Status.noConfusion, rfl⟩
  · exact ⟨.bufferTooSmall, Status.noConfusion, rfl⟩
  · exact ⟨.operationInProgress, Status.noConfusion, rfl⟩
  · refine absurd h (not_or.2 ⟨hmax, not_or.2 ⟨?_, ?_⟩⟩)
    · simpa using houtput
    · exact hrunning

/-- The call goes on to write the control blocks. -/
theorem initializeAudio_of_not_failsLate
    (hreq : ¬ dmaBufferSize < c.requestedBufferSize.toNat) (hsize : 32 ≤ c.packetSize)
    (h : ¬ FailsLate s c output) : s.initializeAudio (some c) output = (do
      let s ← (s.numbered c).buildControlBlocks c c.packetSize
        (c.packetSize - audioPacketLastChunkSize)
      pure (.success, s)) := by
  have hdiv : (Calc.div c.requestedBufferSize.toNat c.notificationsPerBuffer.toNat).Exactly
      c.packetSize :=
    Calc.exactly_div.2 ⟨notificationsPerBuffer_ne_zero (by omega), rfl⟩
  have hlt : c.packetSize < 2 ^ 32 := by
    have := Nat.div_le_self c.requestedBufferSize.toNat c.notificationsPerBuffer.toNat
    have := c.requestedBufferSize.toNat_lt
    rw [AudioConfig.packetSize]
    omega
  have hchunk : (Calc.sub 32 c.packetSize audioPacketLastChunkSize).Exactly
      (c.packetSize - audioPacketLastChunkSize) :=
    (Calc.exactly_sub hlt).2 ⟨hsize, rfl⟩
  have hnum : (Calc.div dmaBufferSize c.packetSize).Exactly (dmaBufferSize / c.packetSize) :=
    Calc.exactly_div.2 ⟨by omega, rfl⟩
  obtain ⟨hmax, houtput, hrunning⟩ := not_or.1 h |>.imp_right not_or.1
  have houtput : ¬ (!output) = true := by simpa using houtput
  rw [initializeAudio]
  simp only [if_neg hreq]
  rw [hdiv.bind_eq, hchunk.bind_eq, hnum.bind_eq]
  exact (if_neg hmax).trans ((if_neg houtput).trans (if_neg hrunning))

/-- **The control blocks are written exactly** when no subtraction wraps, and are what the loop
writes. -/
theorem buildControlBlocks_exactly_iff {s' : DeviceContext} (hsize : 1150 ≤ c.packetSize)
    (hpos : 0 < dmaBufferSize / c.packetSize) :
    ((s.numbered c).buildControlBlocks c c.packetSize
      (c.packetSize - audioPacketLastChunkSize)).Exactly s' ↔
      c.packetSize / 8 ≤ 5320 ∧ ∃ drop < dmaBufferSize / c.packetSize,
        ((s.taken c).dropPacketIndex c.packetSize).Exactly drop ∧
          s' = (s.taken c).withPackets ⟨c.packetSize, c.packetSize - audioPacketLastChunkSize, drop⟩
            0 (dmaBufferSize / c.packetSize) := by
  have hnum : dmaBufferSize / c.packetSize < 2 ^ 32 :=
    Nat.lt_of_le_of_lt (Nat.div_le_self ..) (by decide)
  have hchunk : c.packetSize - audioPacketLastChunkSize < 2 ^ 32 := by
    have := Nat.div_le_self c.requestedBufferSize.toNat c.notificationsPerBuffer.toNat
    have := c.requestedBufferSize.toNat_lt
    rw [AudioConfig.packetSize]
    omega
  have hloop : ∀ drop, (buildPackets ⟨c.packetSize, c.packetSize - audioPacketLastChunkSize, drop⟩
      (dmaBufferSize / c.packetSize) 0 (s.taken c)).Exactly ((s.taken c).withPackets
        ⟨c.packetSize, c.packetSize - audioPacketLastChunkSize, drop⟩ 0
        (dmaBufferSize / c.packetSize)) := fun drop =>
    buildPackets_exactly (z := ⟨c.packetSize, c.packetSize - audioPacketLastChunkSize, drop⟩)
      (by show 8 ≤ c.packetSize - 32; omega) hchunk _ 0 (s.taken c) hpos hnum (by omega)
  have hbind : ((s.numbered c).buildControlBlocks c c.packetSize
      (c.packetSize - audioPacketLastChunkSize)).Exactly s' ↔
      ∃ drop, ((s.taken c).dropPacketIndex c.packetSize).Exactly drop ∧
        (buildPackets ⟨c.packetSize, c.packetSize - audioPacketLastChunkSize, drop⟩
          (dmaBufferSize / c.packetSize) 0 (s.taken c)).Exactly s' := Calc.exactly_bind
  rw [hbind]
  constructor
  · rintro ⟨drop, hdrop, hbuild⟩
    have hle := (s.taken c).le_of_dropPacketIndex hpos hdrop
    obtain ⟨drop', hlt, hdrop'⟩ :=
      (s.taken c).dropPacketIndex_of_le (by omega : 8 ≤ c.packetSize) hle hpos hnum
    obtain rfl := hdrop.unique hdrop'
    exact ⟨hle, drop, hlt, hdrop, hbuild.unique (hloop drop)⟩
  · rintro ⟨-, drop, -, hdrop, rfl⟩
    exact ⟨drop, hdrop, hloop drop⟩

end Call

end DeviceContext

section Property

variable {s : DeviceContext} {c : AudioConfig} {output : Bool}

theorem not_initialized_of_packetSize_eq_zero
    (hreq : ¬ dmaBufferSize < c.requestedBufferSize.toNat) (hzero : c.packetSize = 0) :
    ¬ Initialized s (some c) output := by
  have hvalue := s.initializeAudio_divByZero output hreq hzero
  rintro (⟨status, -, h⟩ | ⟨s', h, -⟩)
  · rw [hvalue] at h
    cases h
  · rw [h.value_eq] at hvalue
    cases hvalue

/-- A late failure leaves a trace, unless the number of packets is the same as before. -/
theorem initialized_iff_of_failsLate (hreq : ¬ dmaBufferSize < c.requestedBufferSize.toNat)
    (hsize : c.packetSize ≠ 0) (hlate : FailsLate s c output) :
    Initialized s (some c) output ↔ s.pwm.dmaNumPackets = dmaBufferSize / c.packetSize := by
  obtain ⟨status, hne, hvalue⟩ := s.initializeAudio_of_failsLate hreq hsize hlate
  constructor
  · rintro (⟨status', -, h⟩ | ⟨s', h, -⟩)
    · rw [hvalue] at h
      have hsame : s.numbered c = s := (Prod.mk.inj (Option.some.inj h)).2
      exact (congrArg (fun s => s.pwm.dmaNumPackets) hsame).symm
    · rw [h.value_eq] at hvalue
      exact absurd (Prod.mk.inj (Option.some.inj hvalue)).1.symm hne
  · intro h
    refine .inl ⟨status, hne, ?_⟩
    rw [hvalue, DeviceContext.numbered, ← h]

/-- A call that does not fail is right when the packets are not too large for the drift correction,
and physical addresses are bus addresses. -/
theorem initialized_iff_of_not_failsLate (hreq : ¬ dmaBufferSize < c.requestedBufferSize.toNat)
    (hzero : c.packetSize ≠ 0) (hlate : ¬ FailsLate s c output) :
    Initialized s (some c) output ↔ c.packetSize / 8 ≤ 5320 ∧ s.memUncachedOffset = 0 := by
  have hmax : dmaBufferSize / c.packetSize ≤ s.pwm.dmaMaxPackets :=
    Nat.le_of_not_lt fun h => hlate (.inl h)
  have hsize := s.le_packetSize hzero hmax
  have hpos : 0 < dmaBufferSize / c.packetSize := by
    refine Nat.div_pos ?_ (by omega)
    exact Nat.le_trans (Nat.div_le_self ..) (Nat.le_of_not_lt hreq)
  have hbuilt : ∀ drop < dmaBufferSize / c.packetSize, Built ((s.taken c).withPackets
      ⟨c.packetSize, c.packetSize - audioPacketLastChunkSize, drop⟩ 0
      (dmaBufferSize / c.packetSize)) c.packetSize ↔ s.memUncachedOffset = 0 := fun drop hdrop =>
    (s.taken c).built_iff hsize rfl hmax hdrop
  rw [Initialized, s.initializeAudio_of_not_failsLate hreq (by omega : 32 ≤ c.packetSize) hlate]
  constructor
  · rintro (⟨status, hne, h⟩ | ⟨s', h, hs'⟩)
    · rw [Calc.value_bind] at h
      obtain ⟨t, -, h⟩ := Option.bind_eq_some_iff.1 h
      exact absurd (Prod.mk.inj (Option.some.inj h)).1.symm hne
    · obtain ⟨t, ht, h⟩ := Calc.exactly_bind.1 h
      obtain rfl : t = s' := (Prod.mk.inj (Calc.exactly_pure.1 h)).2
      obtain ⟨hle, drop, hdrop, -, rfl⟩ := (s.buildControlBlocks_exactly_iff hsize hpos).1 ht
      exact ⟨hle, (hbuilt drop hdrop).1 hs'⟩
  · rintro ⟨hle, hoffset⟩
    obtain ⟨drop, hdrop, hexact⟩ := (s.taken c).dropPacketIndex_of_le
      (by omega : 8 ≤ c.packetSize) hle hpos
      (Nat.lt_of_le_of_lt (Nat.div_le_self ..) (by decide))
    refine .inr ⟨_, Calc.exactly_bind.2 ⟨_, ?_, Calc.exactly_pure.2 rfl⟩,
      (hbuilt drop hdrop).2 hoffset⟩
    exact (s.buildControlBlocks_exactly_iff hsize hpos).2 ⟨hle, drop, hdrop, hexact, rfl⟩

end Property

/-- **Exactly when the call leaves no trace of a failure, or builds the control blocks.** -/
theorem initialized_iff (s : DeviceContext) (input : Option AudioConfig) (output : Bool) :
    Initialized s input output ↔ Initializable s output input := by
  cases input with
  | none => exact iff_of_true (.inl ⟨.bufferTooSmall, Status.noConfusion, rfl⟩) trivial
  | some c =>
    by_cases hreq : dmaBufferSize < c.requestedBufferSize.toNat
    · refine iff_of_true (.inl ⟨.unsuccessful, Status.noConfusion, ?_⟩) (.inl hreq)
      rw [DeviceContext.initializeAudio]
      simp only [if_pos hreq]
      rfl
    by_cases hzero : c.packetSize = 0
    · refine iff_of_false (not_initialized_of_packetSize_eq_zero hreq hzero) ?_
      rintro (h | ⟨h, -⟩)
      · exact hreq h
      · exact h hzero
    simp only [Initializable, hreq, false_or, ne_eq, hzero, not_false_eq_true, true_and]
    by_cases hlate : FailsLate s c output
    · simp only [hlate, true_imp_iff, not_true_eq_false, false_imp_iff, and_true]
      exact initialized_iff_of_failsLate hreq hzero hlate
    · simp only [hlate, false_imp_iff, not_false_eq_true, true_imp_iff, true_and]
      exact initialized_iff_of_not_failsLate hreq hzero hlate

/-! ## Other models of the call -/

namespace DeviceContext

theorem buildPackets_pwm {z : Sizes} (n : Nat) : ∀ (i : Nat) {s s' : DeviceContext},
    (buildPackets z n i s).value = some s' → s'.pwm = s.pwm := by
  induction n with
  | zero =>
    intro i s s' h
    rw [← Option.some.inj h]
  | succ n ih =>
    intro i s s' h
    rw [buildPackets, Calc.value_bind] at h
    obtain ⟨t, ht, h⟩ := Option.bind_eq_some_iff.1 h
    rw [ih (i + 1) h]
    unfold buildPacket at ht
    simp only [Calc.value_bind, Option.bind_eq_some_iff, Calc.value_pure] at ht
    obtain ⟨_, -, _, -, ht⟩ := ht
    rw [← Option.some.inj ht]

/-- **The registers and the configurations** are those of `Context.initializeAudio`. -/
theorem initializeAudio_pwm {s s' : DeviceContext} {c : AudioConfig} {output : Bool}
    {status : Status} (h : (s.initializeAudio (some c) output).value = some (status, s')) :
    s.pwm.initializeAudio c output = (s'.pwm, status) := by
  by_cases hreq : dmaBufferSize < c.requestedBufferSize.toNat
  · rw [initializeAudio] at h
    simp only [if_pos hreq] at h
    obtain ⟨rfl, rfl⟩ := Prod.mk.inj (Option.some.inj h)
    exact if_pos hreq
  by_cases hzero : c.packetSize = 0
  · rw [s.initializeAudio_divByZero output hreq hzero] at h
    cases h
  have hnot := notificationsPerBuffer_ne_zero hzero
  have hsize : c.requestedBufferSize.toNat / c.notificationsPerBuffer.toNat ≠ 0 := hzero
  rw [initializeAudio] at h
  simp only [if_neg hreq, Calc.value_bind, Calc.value_div, Calc.value_sub, if_neg hnot,
    Option.bind_some, if_neg hsize, Calc.value_ite, Calc.value_pure] at h
  rw [Context.initializeAudio, if_neg hreq]
  split_ifs at h with hmax houtput hrunning
  · obtain ⟨rfl, rfl⟩ := Prod.mk.inj (Option.some.inj h)
    exact if_pos hmax
  · obtain ⟨rfl, rfl⟩ := Prod.mk.inj (Option.some.inj h)
    exact (if_neg hmax).trans (if_pos houtput)
  · obtain ⟨rfl, rfl⟩ := Prod.mk.inj (Option.some.inj h)
    exact (if_neg hmax).trans ((if_neg houtput).trans (if_pos hrunning))
  · obtain ⟨t, ht, h⟩ := Option.bind_eq_some_iff.1 h
    obtain ⟨rfl, rfl⟩ := Prod.mk.inj (Option.some.inj h)
    rw [buildControlBlocks, Calc.value_bind] at ht
    obtain ⟨drop, -, ht⟩ := Option.bind_eq_some_iff.1 ht
    rw [buildPackets_pwm _ _ ht]
    exact (if_neg hmax).trans ((if_neg houtput).trans (if_neg hrunning))

/-- The configuration of `PwmAudio`, for packets that fit -/
def config (s : DeviceContext) (packetSize : Nat) (hlt : audioPacketLastChunkSize < packetSize)
    (hle : packetSize ≤ dmaBufferSize)
    (hnum : dmaBufferSize / packetSize ≤ s.pwm.dmaMaxPackets) : PwmAudio.Config where
  dmaCbPa := s.dmaCbPa
  dmaBufferPa := s.dmaBufferPa
  memUncachedOffset := s.memUncachedOffset.toNat
  packetSize
  linkInfoSize := s.linkInfoSize
  dmaCbPa_le := s.dmaCbPa_le
  dmaBufferPa_le := s.dmaBufferPa_le
  memUncachedOffset_lt := s.memUncachedOffset.toNat_lt
  lt_packetSize := hlt
  packetSize_le := hle
  numPackets_le := s.dmaMaxPackets_eq ▸ hnum

section Config

variable {s : DeviceContext} {packetSize : Nat} {hlt : audioPacketLastChunkSize < packetSize}
  {hle : packetSize ≤ dmaBufferSize} {hnum : dmaBufferSize / packetSize ≤ s.pwm.dmaMaxPackets}

/-- The packet whose sample is dropped is that of the configuration. -/
theorem dropPacketIndex_config {drop : Nat}
    (hnumPackets : s.pwm.dmaNumPackets = dmaBufferSize / packetSize)
    (h : (s.dropPacketIndex packetSize).Exactly drop) :
    drop = (s.config packetSize hlt hle hnum).correctionDropPacketIndex := by
  obtain ⟨count, hdiv, hsub⟩ := Calc.exactly_bind.1 h
  obtain ⟨-, rfl⟩ := Calc.exactly_div.1 hdiv
  have hcount : 5320 / (packetSize / 8) ≤ 5320 := Nat.div_le_self ..
  have hpackets : dmaBufferSize / packetSize ≤ 65536 := Nat.div_le_self ..
  unfold PwmAudio.Config.correctionDropPacketIndex
  show drop = if dmaBufferSize / packetSize < 5320 / (packetSize / 8) then
    dmaBufferSize / packetSize - 1 else (5320 / (packetSize / 8) + 0xFFFFFFFF) % 0x100000000
  rw [Calc.exactly_ite, hnumPackets] at hsub
  split_ifs at hsub ⊢
  · exact ((Calc.exactly_sub (by omega)).1 hsub).2.symm
  · obtain ⟨hle, rfl⟩ := (Calc.exactly_sub (by omega)).1 hsub
    omega

/-- **The control blocks are those that `PwmAudio` starts from.** -/
theorem packetCb_config (j : Nat) :
    let cfg := s.config packetSize hlt hle hnum
    let cb := s.packetCb ⟨packetSize, cfg.packetFirstChunkSize, cfg.correctionDropPacketIndex⟩ j
    cb.sourceAd = (cfg.controlBlocks j).sourceAd ∧ cb.txfrLen = (cfg.controlBlocks j).txfrLen ∧
      cb.nextConbk = (cfg.controlBlocks j).nextConbk.address := by
  unfold packetCb PwmAudio.Config.controlBlocks
  split_ifs <;> exact ⟨rfl, rfl, rfl⟩

end Config

end DeviceContext

/-! ## Four failures -/

/-- A driver that is ready for audio -/
def prepared (memUncachedOffset : UInt32) : DeviceContext where
  pwm := Context.prepared 56 ⟨0, 0⟩
    ⟨⟨false, false, false, false, false, false, false⟩,
      ⟨false, false, false, false, false, false, false⟩, 0, 0, 0, 0⟩
  dmaCbPa := 0x10000
  dmaBufferPa := 0x20000
  memUncachedOffset
  pwmRegsBusPa := 0x7E20C000
  dmaDreq := 5
  linkInfoSize := 8
  dmaCb _ := ⟨0, 0, 0, 0, 0, 0⟩
  dmaPacketLinkInfo _ := ⟨0, 0⟩
  dmaPacketsToPrimePreset := 0
  dmaPacketsToPrime := 0
  dmaCbPa_le := by decide
  dmaBufferPa_le := by decide
  linkInfoSize_eq := .inl rfl
  dmaMaxPackets_eq := rfl

/-- **No notifications are a division by zero**; packets of 1000 bytes are too many, and their
number stays; a packet of 65536 bytes has no sample to drop; and with an offset between physical and
bus addresses the chain leaves the control blocks. -/
theorem initializeAudio_wrong :
    (prepared 0).initializeAudio (some ⟨4096, 0, 2268⟩) true = .divByZero ∧
    ¬ Initialized (prepared 0) (some ⟨4096, 0, 2268⟩) true ∧
    ¬ Initialized (prepared 0) (some ⟨4000, 4, 2268⟩) true ∧
    ¬ Initialized (prepared 0) (some ⟨65536, 1, 2268⟩) true ∧
    ¬ Initialized (prepared 0xC0000000) (some ⟨16384, 4, 2268⟩) true := by
  refine ⟨rfl, ?_, ?_, ?_, ?_⟩
  · exact not_initialized_of_packetSize_eq_zero (by decide) (by decide)
  · rw [initialized_iff_of_failsLate (by decide) (by decide) (.inl (by decide))]
    decide
  · rw [initialized_iff_of_not_failsLate (by decide) (by decide) (by unfold FailsLate; decide)]
    decide
  · rw [initialized_iff_of_not_failsLate (by decide) (by decide) (by unfold FailsLate; decide)]
    decide

end RpiDrivers.PwmDriver
