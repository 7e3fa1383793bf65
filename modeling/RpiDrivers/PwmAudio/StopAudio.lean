import RpiDrivers.PwmAudio.PacketCount

/-!
# Stopping the audio (`dma.cpp`, `dmaInterrupt.cpp`)

`StopAudio` stops the DMA engine and clears the counters of packets. It holds `pwmLock`, which the
interrupt and its DPC do not take, and it waits for neither of them.

- `Underflow`, `Isr`, `Dpc`, `Control`: `HandleUnderflow`, `DmaIsr`, `DmaDpc` and the requests of
  the audio driver, each by what it is about to do to a register or to a counter.
- `machine`: all of them and the DMA engine, interleaved.
- `reach_cleared`: **the counters stay clear until a packet is linked** in every run in which
  `StopAudio` clears them while neither the interrupt nor a DPC counts, and no DPC finds the engine
  stopped from then on.
- `late_dpc`: the DPC of the last packet runs after the stop, and reports an underflow.
-/

namespace RpiDrivers.PwmAudio.Stop

open RpiDrivers.Lib

/-! ## Registers and counters -/

/-- What a read of `CS` tells. -/
structure Cs where
  active : Bool
  int : Bool
  error : Bool
  deriving DecidableEq

/-- The registers of the DMA channel and the counters of the device context. -/
structure Context where
  conblkAd : Nat
  sourceAd : Nat
  cs : Cs
  dmaPacketsInUse : Nat
  dmaPacketsToPrime : Nat
  dmaPacketsToPrimePreset : Nat
  dmaPacketsProcessed : Nat
  dmaLastKnownCompletedPacket : Nat
  dmaUnderflowErrorCount : Nat
  dmaRestartRequired : Bool

/-- A write to `CS`. The engine is active only with a control block, and `INT` is cleared by
writing it. -/
def Context.writeCs (c : Context) (active int : Bool) : Context :=
  { c with cs := ⟨active && c.conblkAd != 0, c.cs.int && !int, c.cs.error⟩ }

/-- `InterlockedAdd`, of a counter of 32 bits. -/
def interlockedAdd (counter n : Nat) : Nat := (counter + n) % 0x100000000

/-- `InterlockedAdd` of `-1L * (LONG)n` -/
def interlockedSub (counter n : Nat) : Nat :=
  interlockedAdd counter (0x100000000 - n % 0x100000000)

/-! ## `HandleUnderflow` -/

/-- What `HandleUnderflow` is about to do. -/
inductive Underflow
  /-- read `CONBLK_AD` -/
  | conblk
  /-- read `SOURCE_AD` -/
  | source
  /-- read `dmaLastKnownCompletedPacket`, and compute the packets -/
  | last (sourceAd : Nat)
  /-- set `dmaPacketsInUse` to 0 -/
  | exchange (processedPackets : Nat)
  /-- add to `dmaPacketsProcessed` -/
  | add (processedPackets : Nat)
  /-- read `dmaUnderflowErrorCount` -/
  | count
  /-- write it -/
  | store (dmaUnderflowErrorCount : Nat)
  /-- `ClearDmaErrorAndRequestRestart` -/
  | restart
  deriving DecidableEq

/-- The packets processed, as `SOURCE_AD` tells. -/
def underflowPackets (cfg : Config) (sourceAd lastKnownCompletedPacket : Nat) : Nat :=
  let currentPacket :=
    scanPackets (fun i => (cfg.firstCb i).sourceAd) sourceAd 0 cfg.dmaNumPackets
  getNumberOfProcessedPackets (previousPacketIndex currentPacket cfg.dmaNumPackets)
    lastKnownCompletedPacket cfg.dmaNumPackets

/-- `HandleUnderflow`, to its next access; `none` when it returns. -/
def Underflow.step (cfg : Config) (c : Context) : Underflow → Context × Option Underflow
  -- a pause
  | conblk => (c, if c.conblkAd = 0 then some .source else none)
  | source => (c, some (.last c.sourceAd))
  | last sourceAd =>
    (c, some (.exchange (underflowPackets cfg sourceAd c.dmaLastKnownCompletedPacket)))
  | exchange n => ({ c with dmaPacketsInUse := 0 }, some (.add n))
  | add n =>
    ({ c with dmaPacketsProcessed := interlockedAdd c.dmaPacketsProcessed n }, some .count)
  | count => (c, some (.store ((c.dmaUnderflowErrorCount + 1) % 0x100000000)))
  | store n => ({ c with dmaUnderflowErrorCount := n }, some .restart)
  | restart => ({ c with dmaRestartRequired := true }, none)

/-! ## `DmaIsr` -/

/-- What `DmaIsr` is about to do. -/
inductive Isr
  | idle
  /-- read `CONBLK_AD` -/
  | conblk
  /-- read `CS` -/
  | readCs (conblkAd : Nat)
  /-- write `CS`, and see whether the interrupt is from the DMA -/
  | acknowledge (conblkAd : Nat) (cs : Cs)
  /-- `ClearDmaErrorAndRequestRestart` -/
  | clearError
  | underflow (u : Underflow)
  /-- request more packets when few are in use -/
  | prime (conblkAd : Nat)
  /-- read `dmaLastKnownCompletedPacket`, and compute the packets -/
  | last (conblkAd : Nat)
  /-- write it -/
  | setLast (completedPacket processedPackets : Nat)
  /-- subtract from `dmaPacketsInUse` -/
  | subtract (processedPackets : Nat)
  /-- add to `dmaPacketsProcessed` -/
  | add (processedPackets : Nat)
  | queueDpc
  deriving DecidableEq

/-- The branches of the interrupt. -/
def Isr.branch (conblkAd : Nat) (cs : Cs) : Isr :=
  if !cs.int then .idle
  else if cs.error then .clearError
  else if !cs.active then .underflow .conblk
  else .prime conblkAd

/-- `dmaPacketsToPrime` after the test that packets are to be requested. -/
def Context.primed (cfg : Config) (c : Context) : Nat :=
  let free := (cfg.dmaNumPackets + 0x100000000 - c.dmaPacketsToPrimePreset) % 0x100000000
  if c.dmaPacketsInUse < free && c.dmaPacketsToPrime < c.dmaPacketsToPrimePreset then
    c.dmaPacketsToPrimePreset
  else c.dmaPacketsToPrime

/-- The packet that has been completed, as `CONBLK_AD` tells. -/
def completedPacket (cfg : Config) (conblkAd : Nat) : Nat :=
  previousPacketIndex (scanPackets cfg.firstCbAddress conblkAd 0 cfg.dmaNumPackets)
    cfg.dmaNumPackets

/-- `DmaIsr`, to its next access. -/
def Isr.step (cfg : Config) (c : Context) : Isr → Context × Isr
  | idle => (c, .idle)
  | conblk => (c, .readCs c.conblkAd)
  | readCs conblkAd => (c, .acknowledge conblkAd c.cs)
  | acknowledge conblkAd cs => (c.writeCs cs.active cs.int, .branch conblkAd cs)
  | clearError => ({ c with dmaRestartRequired := true }, .queueDpc)
  | underflow u => ((u.step cfg c).1, (u.step cfg c).2.elim .queueDpc .underflow)
  | prime conblkAd => ({ c with dmaPacketsToPrime := c.primed cfg }, .last conblkAd)
  | last conblkAd =>
    (c, .setLast (completedPacket cfg conblkAd)
      (getNumberOfProcessedPackets (completedPacket cfg conblkAd) c.dmaLastKnownCompletedPacket
        cfg.dmaNumPackets))
  | setLast completed n => ({ c with dmaLastKnownCompletedPacket := completed }, .subtract n)
  | subtract n =>
    ({ c with dmaPacketsInUse := interlockedSub c.dmaPacketsInUse n }, .add n)
  | add n =>
    ({ c with dmaPacketsProcessed := interlockedAdd c.dmaPacketsProcessed n }, .queueDpc)
  | queueDpc => (c, .idle)

/-! ## `DmaDpc` -/

/-- What `DmaDpc` is about to do. -/
inductive Dpc
  /-- read `CS` -/
  | readCs
  /-- read `dmaRestartRequired`, unless the engine is active -/
  | test (active : Bool)
  | underflow (u : Underflow)
  deriving DecidableEq

/-- `DmaDpc`, to its next access; `none` when it goes on to the listeners. -/
def Dpc.step (cfg : Config) (c : Context) : Dpc → Context × Option Dpc
  | readCs => (c, some (.test c.cs.active))
  | test active =>
    (c, if !active && !c.dmaRestartRequired then some (.underflow .conblk) else none)
  | underflow u => ((u.step cfg c).1, (u.step cfg c).2.map .underflow)

/-! ## `StartAudio` and `StopAudio` -/

/-- The counters that `StopAudio` clears, in their order. -/
inductive Cleared
  | underflowErrorCount
  | lastKnownCompletedPacket
  | packetsInUse
  | packetsToPrime
  | packetsProcessed
  | restartRequired
  deriving DecidableEq

namespace Cleared

def rank : Cleared → Nat
  | underflowErrorCount => 0
  | lastKnownCompletedPacket => 1
  | packetsInUse => 2
  | packetsToPrime => 3
  | packetsProcessed => 4
  | restartRequired => 5

def next : Cleared → Option Cleared
  | underflowErrorCount => some lastKnownCompletedPacket
  | lastKnownCompletedPacket => some packetsInUse
  | packetsInUse => some packetsToPrime
  | packetsToPrime => some packetsProcessed
  | packetsProcessed => some restartRequired
  | restartRequired => none

def clear (c : Context) : Cleared → Context
  | underflowErrorCount => { c with dmaUnderflowErrorCount := 0 }
  | lastKnownCompletedPacket => { c with dmaLastKnownCompletedPacket := noLastCompletedPacket }
  | packetsInUse => { c with dmaPacketsInUse := 0 }
  | packetsToPrime => { c with dmaPacketsToPrime := c.dmaPacketsToPrimePreset }
  | packetsProcessed => { c with dmaPacketsProcessed := 0 }
  | restartRequired => { c with dmaRestartRequired := false }

end Cleared

/-- What the audio driver and its requests are about to do. A request holds `pwmLock`, and the
PWM is in audio mode. -/
inductive Control
  | idle
  /-- a packet is linked, and `dmaPacketsInUse` not yet incremented -/
  | increment
  /-- `StartAudio`: clear `dmaLastKnownCompletedPacket` -/
  | startLast
  /-- clear `dmaRestartRequired` -/
  | startRestart
  /-- `StartDma`: write `CONBLK_AD` -/
  | startConblk
  /-- write `CS` -/
  | startCs
  /-- `StopDma`: read `CS` -/
  | stopRead
  /-- write it without `ACTIVE` -/
  | stopActive (cs : Cs)
  /-- write 0 to `CONBLK_AD` -/
  | stopConblk
  /-- read `CS`, and write it with `RESET` -/
  | stopReset
  /-- `StopAudio`: clear a counter -/
  | stopClear (f : Cleared)
  deriving DecidableEq

/-- The driver, the DMA engine and the audio driver. -/
structure State where
  context : Context
  control : Control
  isr : Isr
  dpcQueued : Bool
  dpcs : List Dpc
  /-- no packet has been linked since `StopAudio` returned, or since the beginning -/
  stopped : Bool

namespace State

variable (s : State)

/-- The device after `InitializeAudio`. -/
def start (dmaPacketsToPrimePreset : Nat) : State where
  context := ⟨0, 0, ⟨false, false, false⟩, 0, dmaPacketsToPrimePreset, dmaPacketsToPrimePreset, 0,
    noLastCompletedPacket, 0, false⟩
  control := .idle
  isr := .idle
  dpcQueued := false
  dpcs := []
  stopped := true

/-- The audio driver and its requests go on. -/
def advance (cfg : Config) : State :=
  let c := s.context
  match s.control with
  | .idle => s
  | .increment =>
    { s with
      context := { c with dmaPacketsInUse := interlockedAdd c.dmaPacketsInUse 1 }
      control := .idle }
  | .startLast =>
    { s with
      context := { c with dmaLastKnownCompletedPacket := noLastCompletedPacket }
      control := .startRestart }
  | .startRestart =>
    { s with context := { c with dmaRestartRequired := false }, control := .startConblk }
  | .startConblk =>
    { s with
      context := { c with conblkAd := cfg.startPointer.address }
      control := .startCs }
  | .startCs => { s with context := c.writeCs true true, control := .idle }
  | .stopRead => { s with control := .stopActive c.cs }
  | .stopActive cs => { s with context := c.writeCs false cs.int, control := .stopConblk }
  | .stopConblk => { s with context := { c with conblkAd := 0 }, control := .stopReset }
  | .stopReset =>
    { s with
      context := { c with conblkAd := 0, cs := ⟨false, false, false⟩ }
      control := .stopClear .underflowErrorCount }
  | .stopClear f =>
    { s with
      context := f.clear c
      control := f.next.elim .idle .stopClear
      stopped := s.stopped || f.next.isNone }

/-- The interrupt goes on. -/
def isrStep (cfg : Config) : State :=
  { s with
    context := (s.isr.step cfg s.context).1
    isr := (s.isr.step cfg s.context).2
    dpcQueued := s.dpcQueued || s.isr = .queueDpc }

/-- A DPC goes on. -/
def dpcStep (cfg : Config) (i : Nat) (d : Dpc) : State :=
  { s with
    context := (d.step cfg s.context).1
    dpcs := (d.step cfg s.context).2.elim (s.dpcs.eraseIdx i) (s.dpcs.set i) }

end State

/-- An action of a party. -/
inductive Action
  /-- the audio driver links a packet -/
  | link
  /-- the audio driver starts the audio, after a packet has been linked -/
  | startAudio
  | stopAudio
  /-- the next access of the audio driver -/
  | advance
  /-- the interrupt is delivered, also when it is of another device on the line -/
  | interrupt
  | isr
  /-- a DPC that is queued begins to run -/
  | dpc
  | dpcStep (i : Nat)
  /-- the engine, while it is active, goes on, completes packets, stops or fails -/
  | engine (conblkAd sourceAd : Nat) (cs : Cs)

def enabled (s : State) : Action → Prop
  | .link | .stopAudio => s.control = .idle
  | .startAudio => s.control = .idle ∧ s.stopped = false
  | .advance => s.control ≠ .idle
  | .interrupt => s.isr = .idle
  | .isr => s.isr ≠ .idle
  | .dpc => s.dpcQueued = true
  | .dpcStep i => i < s.dpcs.length
  | .engine _ _ _ => s.context.cs.active = true

instance (s : State) : ∀ a : Action, Decidable (enabled s a)
  | .link | .stopAudio => inferInstanceAs (Decidable (s.control = .idle))
  | .startAudio => inferInstanceAs (Decidable (_ ∧ _))
  | .advance => inferInstanceAs (Decidable (s.control ≠ .idle))
  | .interrupt => inferInstanceAs (Decidable (s.isr = .idle))
  | .isr => inferInstanceAs (Decidable (s.isr ≠ .idle))
  | .dpc => inferInstanceAs (Decidable (s.dpcQueued = true))
  | .dpcStep i => inferInstanceAs (Decidable (i < s.dpcs.length))
  | .engine _ _ _ => inferInstanceAs (Decidable (s.context.cs.active = true))

def effect (cfg : Config) (s : State) : Action → State
  | .link => { s with control := .increment, stopped := false }
  | .startAudio => { s with control := .startLast }
  | .stopAudio => { s with control := .stopRead }
  | .advance => s.advance cfg
  | .interrupt => { s with isr := .conblk }
  | .isr => s.isrStep cfg
  | .dpc => { s with dpcQueued := false, dpcs := s.dpcs ++ [.readCs] }
  | .dpcStep i => (s.dpcs[i]?).elim s (s.dpcStep cfg i)
  | .engine conblkAd sourceAd cs =>
    { s with
      context := { s.context with
        conblkAd := conblkAd
        sourceAd := sourceAd
        cs := { cs with int := s.context.cs.int || cs.int } } }

/-- The parties, interleaved. -/
def machine (cfg : Config) (dmaPacketsToPrimePreset : Nat) : Machine State Action :=
  .guarded (· = .start dmaPacketsToPrimePreset) enabled (effect cfg)

/-! ## The property and the condition -/

/-- **The property**: until a packet is linked the counters are clear, no restart is requested and
no underflow reported. -/
def StaysCleared (s : State) : Prop :=
  s.stopped = true →
    s.context.dmaPacketsInUse = 0 ∧ s.context.dmaPacketsProcessed = 0 ∧
      s.context.dmaRestartRequired = false ∧ s.context.dmaUnderflowErrorCount = 0

/-- The interrupt has found that it is from the DMA, and is going to count or to request a
restart. -/
def Isr.counts : Isr → Bool
  | idle | conblk | readCs _ | queueDpc => false
  | acknowledge _ cs => cs.int
  | clearError | underflow _ | prime _ | last _ | setLast _ _ | subtract _ | add _ => true

/-- The DPC is in `HandleUnderflow`. -/
def Dpc.counts : Dpc → Bool
  | readCs | test _ => false
  | underflow _ => true

/-- How many counters are clear, from the first one on, and are to stay so. -/
def State.cleared (s : State) : Nat :=
  if s.stopped then 6
  else
    match s.control with
    | .stopClear f => f.rank
    | _ => 0

/-- **The condition**: when `StopAudio` begins to clear the counters, neither the interrupt nor a
DPC is counting; and while they are being cleared, or are to stay so, no DPC finds the engine
stopped with no restart requested. -/
def Ok (s : State) : Action → Prop
  | .advance =>
    s.control = .stopClear .underflowErrorCount →
      s.isr.counts = false ∧ ∀ d ∈ s.dpcs, d.counts = false
  | .dpcStep i =>
    0 < s.cleared → s.dpcs[i]? = some (.test false) → s.context.dmaRestartRequired = true
  | _ => True

instance (s : State) : ∀ a : Action, Decidable (Ok s a)
  | .advance => inferInstanceAs (Decidable (_ → _))
  | .dpcStep _ => inferInstanceAs (Decidable (_ → _))
  | .link | .startAudio | .stopAudio | .interrupt | .isr | .dpc | .engine _ _ _ =>
    inferInstanceAs (Decidable True)

/-! ## A channel that is off -/

/-- The channel is off: there is no control block, and no interrupt is pending. -/
structure Context.Off (c : Context) : Prop where
  conblkAd_eq : c.conblkAd = 0
  active_eq : c.cs.active = false
  int_eq : c.cs.int = false

/-- The first `k` counters are clear. -/
structure Context.Clear (c : Context) (k : Nat) : Prop where
  underflowErrorCount : 0 < k → c.dmaUnderflowErrorCount = 0
  packetsInUse : 2 < k → c.dmaPacketsInUse = 0
  packetsProcessed : 4 < k → c.dmaPacketsProcessed = 0
  restartRequired : 5 < k → c.dmaRestartRequired = false

variable {cfg : Config} {c : Context}

/-- A write of `CS` does not turn it on again. -/
theorem Context.Off.writeCs (h : c.Off) (active int : Bool) : c.writeCs active int = c := by
  obtain ⟨conblkAd, _, ⟨a, i, e⟩⟩ := c
  obtain ⟨rfl, rfl, rfl⟩ := h
  simp [Context.writeCs]

theorem Context.Off.setPacketsToPrime (h : c.Off) (n : Nat) :
    Context.Off { c with dmaPacketsToPrime := n } :=
  ⟨h.conblkAd_eq, h.active_eq, h.int_eq⟩

theorem Underflow.step_off (h : c.Off) (u : Underflow) : (u.step cfg c).1.Off := by
  cases u <;> exact ⟨h.conblkAd_eq, h.active_eq, h.int_eq⟩

/-- The interrupt leaves it off. -/
theorem Isr.step_off (h : c.Off) (i : Isr) : (i.step cfg c).1.Off := by
  cases i with
  | acknowledge conblkAd cs =>
    show (c.writeCs cs.active cs.int).Off
    rw [h.writeCs]
    exact h
  | underflow u => exact u.step_off h
  | prime => exact h.setPacketsToPrime _
  | _ => exact ⟨h.conblkAd_eq, h.active_eq, h.int_eq⟩

theorem Dpc.step_off (h : c.Off) (d : Dpc) : (d.step cfg c).1.Off := by
  cases d with
  | underflow u => exact u.step_off h
  | readCs | test => exact h

/-- **An interrupt that does not count goes on without counting**, and changes nothing. -/
theorem Isr.step_still (cfg : Config) (h : c.Off) {i : Isr} (hi : i.counts = false) :
    (i.step cfg c).1 = c ∧ (i.step cfg c).2.counts = false := by
  cases i with
  | idle | conblk | queueDpc => exact ⟨rfl, rfl⟩
  | readCs conblkAd => exact ⟨rfl, h.int_eq⟩
  | acknowledge conblkAd cs =>
    have hint : cs.int = false := hi
    refine ⟨h.writeCs _ _, ?_⟩
    show (branch conblkAd cs).counts = false
    rw [branch, hint]
    rfl
  | clearError | underflow | prime | last | setLast | subtract | add => cases hi

/-- **A DPC that is not in `HandleUnderflow`** does not come there unless it finds the engine
stopped with no restart requested. -/
theorem Dpc.step_still (cfg : Config) {d : Dpc} (hd : d.counts = false)
    (hok : d = .test false → c.dmaRestartRequired = true) :
    (d.step cfg c).1 = c ∧ ∀ d' ∈ (d.step cfg c).2, d'.counts = false := by
  cases d with
  | readCs =>
    refine ⟨rfl, fun d' hd' => ?_⟩
    obtain rfl := Option.some.inj hd'
    rfl
  | test active =>
    refine ⟨rfl, fun d' hd' => ?_⟩
    cases active with
    | true => cases hd'
    | false =>
      rw [step, hok rfl] at hd'
      cases hd'
  | underflow => cases hd

/-! ## The invariant -/

/-- A packet has been linked, and the audio may be started. -/
def Control.starts : Control → Bool
  | increment | startLast | startRestart | startConblk | startCs => true
  | idle | stopRead | stopActive _ | stopConblk | stopReset | stopClear _ => false

structure Inv (s : State) : Prop where
  off : s.stopped = true ∨ (∃ f, s.control = .stopClear f) → s.context.Off
  still : 0 < s.cleared → s.isr.counts = false ∧ ∀ d ∈ s.dpcs, d.counts = false
  clear : s.context.Clear s.cleared
  linked : s.stopped = true → s.control.starts = false

theorem inv_start (n : Nat) : Inv (.start n) where
  off _ := ⟨rfl, rfl, rfl⟩
  still _ := ⟨rfl, fun _ hd => nomatch hd⟩
  clear := ⟨fun _ => rfl, fun _ => rfl, fun _ => rfl, fun _ => rfl⟩
  linked _ := rfl

variable {s : State}

/-- Counters are cleared, or stay so, only with the channel off. -/
theorem Inv.off_of_cleared (h : Inv s) (hpos : 0 < s.cleared) : s.context.Off := by
  apply h.off
  unfold State.cleared at hpos
  split at hpos
  next hstopped => exact .inl hstopped
  next =>
    split at hpos
    next f hf => exact .inr ⟨f, hf⟩
    next => exact absurd hpos (Nat.lt_irrefl 0)

/-- Nothing is to stay clear. -/
theorem Inv.of_not_stopped (hstopped : s.stopped = false)
    (hcontrol : ∀ f, s.control ≠ .stopClear f) : Inv s := by
  have hzero : s.cleared = 0 := by
    rw [State.cleared, hstopped]
    cases hc : s.control with
    | stopClear f => exact absurd hc (hcontrol f)
    | _ => rfl
  refine ⟨fun h => ?_, fun h => ?_, ?_, fun h => ?_⟩
  · rcases h with h | ⟨f, hf⟩
    · rw [hstopped] at h
      cases h
    · exact absurd hf (hcontrol f)
  · rw [hzero] at h
    exact absurd h (Nat.lt_irrefl 0)
  · rw [hzero]
    exact ⟨nofun, nofun, nofun, nofun⟩
  · rw [hstopped] at h
    cases h

/-! ### Steps of the handlers -/

/-- A step that changes neither the audio driver nor the counters that are clear. -/
theorem Inv.of_handlers (h : Inv s) {t : State} (hcontrol : t.control = s.control)
    (hstopped : t.stopped = s.stopped) (hoff : s.context.Off → t.context.Off)
    (hstill : 0 < s.cleared → t.context = s.context ∧ t.isr.counts = false ∧
      ∀ d ∈ t.dpcs, d.counts = false) : Inv t := by
  have hcleared : t.cleared = s.cleared := by rw [State.cleared, State.cleared, hcontrol, hstopped]
  refine ⟨fun ht => ?_, fun hpos => ?_, ?_, fun ht => ?_⟩
  · rw [hcontrol, hstopped] at ht
    exact hoff (h.off ht)
  · rw [hcleared] at hpos
    exact (hstill hpos).2
  · rw [hcleared]
    rcases Nat.eq_zero_or_pos s.cleared with hzero | hpos
    · rw [hzero]
      exact ⟨nofun, nofun, nofun, nofun⟩
    · rw [(hstill hpos).1]
      exact h.clear
  · rw [hcontrol]
    exact h.linked (hstopped ▸ ht)

theorem Inv.isrStep (h : Inv s) : Inv (s.isrStep cfg) := by
  refine h.of_handlers rfl rfl (Isr.step_off · s.isr) fun hpos => ?_
  obtain ⟨hisr, hdpcs⟩ := h.still hpos
  obtain ⟨hcontext, hcounts⟩ := Isr.step_still cfg (h.off_of_cleared hpos) hisr
  exact ⟨hcontext, hcounts, hdpcs⟩

theorem Inv.dpcStep (h : Inv s) {i : Nat} {d : Dpc} (hd : s.dpcs[i]? = some d)
    (hok : Ok s (.dpcStep i)) : Inv (s.dpcStep cfg i d) := by
  refine h.of_handlers rfl rfl (Dpc.step_off · d) fun hpos => ?_
  obtain ⟨hisr, hdpcs⟩ := h.still hpos
  have hcounts : d.counts = false := hdpcs d (List.mem_of_getElem? hd)
  obtain ⟨hcontext, hnext⟩ := Dpc.step_still cfg (c := s.context) hcounts
    fun htest => hok hpos (htest ▸ hd)
  refine ⟨hcontext, hisr, fun e he => ?_⟩
  unfold State.dpcStep at he
  dsimp only at he
  cases hstep : (d.step cfg s.context).2 with
  | none =>
    rw [hstep] at he
    exact hdpcs e (List.mem_of_mem_eraseIdx he)
  | some d' =>
    rw [hstep] at he
    rcases List.mem_or_eq_of_mem_set he with hmem | rfl
    · exact hdpcs e hmem
    · exact hnext e hstep

/-! ### Steps of the audio driver -/

namespace Cleared

theorem clear_off (h : c.Off) (f : Cleared) : (f.clear c).Off := by
  cases f <;> exact ⟨h.conblkAd_eq, h.active_eq, h.int_eq⟩

/-- Clearing a counter once more. -/
theorem clear_again {k : Nat} (h : c.Clear k) (f : Cleared) : (f.clear c).Clear k := by
  obtain ⟨hcount, hinUse, hprocessed, hrestart⟩ := h
  cases f with
  | underflowErrorCount => exact ⟨fun _ => rfl, hinUse, hprocessed, hrestart⟩
  | packetsInUse => exact ⟨hcount, fun _ => rfl, hprocessed, hrestart⟩
  | packetsProcessed => exact ⟨hcount, hinUse, fun _ => rfl, hrestart⟩
  | restartRequired => exact ⟨hcount, hinUse, hprocessed, fun _ => rfl⟩
  | lastKnownCompletedPacket | packetsToPrime => exact ⟨hcount, hinUse, hprocessed, hrestart⟩

/-- Clearing the next counter. -/
theorem clear_rank {f : Cleared} (h : c.Clear f.rank) : (f.clear c).Clear (f.rank + 1) := by
  obtain ⟨hcount, hinUse, hprocessed, hrestart⟩ := h
  cases f with
  | underflowErrorCount => exact ⟨fun _ => rfl, nofun, nofun, nofun⟩
  | lastKnownCompletedPacket => exact ⟨fun _ => hcount (by decide), nofun, nofun, nofun⟩
  | packetsInUse => exact ⟨fun _ => hcount (by decide), fun _ => rfl, nofun, nofun⟩
  | packetsToPrime =>
    exact ⟨fun _ => hcount (by decide), fun _ => hinUse (by decide), nofun, nofun⟩
  | packetsProcessed =>
    exact ⟨fun _ => hcount (by decide), fun _ => hinUse (by decide), fun _ => rfl, nofun⟩
  | restartRequired =>
    exact ⟨fun _ => hcount (by decide), fun _ => hinUse (by decide),
      fun _ => hprocessed (by decide), fun _ => rfl⟩

end Cleared

/-- A step of the audio driver before the counters are cleared changes nothing when they are clear
already. -/
theorem Inv.of_stop (h : Inv s) {t : State} (hstopped : t.stopped = s.stopped)
    (hisr : t.isr = s.isr) (hdpcs : t.dpcs = s.dpcs)
    (hcontext : s.context.Off → t.context = s.context) (hcontrol : ∀ f, t.control ≠ .stopClear f)
    (hstarts : t.control.starts = false) : Inv t := by
  cases hs : s.stopped with
  | false => exact .of_not_stopped (hstopped.trans hs) hcontrol
  | true =>
    have hcleared : s.cleared = 6 := if_pos hs
    have hcleared' : t.cleared = 6 := if_pos (hstopped.trans hs)
    have hsame := hcontext (h.off (.inl hs))
    refine ⟨fun _ => ?_, fun _ => ?_, ?_, fun _ => hstarts⟩
    · rw [hsame]
      exact h.off (.inl hs)
    · rw [hisr, hdpcs]
      exact h.still (by omega)
    · rw [hsame, hcleared', ← hcleared]
      exact h.clear

/-- After the reset the channel is off. -/
theorem Inv.stopReset (h : Inv s) (hc : s.control = .stopReset) : Inv (s.advance cfg) := by
  have hoff (c : Context) : Context.Off { c with conblkAd := 0, cs := ⟨false, false, false⟩ } :=
    ⟨rfl, rfl, rfl⟩
  unfold State.advance
  rw [hc]
  dsimp only
  cases hs : s.stopped with
  | false =>
    refine ⟨fun _ => hoff _, fun hpos => ?_, ⟨nofun, nofun, nofun, nofun⟩, fun ht => nomatch ht⟩
    exact absurd hpos (Nat.lt_irrefl 0)
  | true =>
    have hcleared : s.cleared = 6 := if_pos hs
    have hclear := h.clear
    rw [hcleared] at hclear
    obtain ⟨hcount, hinUse, hprocessed, hrestart⟩ := hclear
    exact ⟨fun _ => hoff _, fun _ => h.still (by omega), ⟨hcount, hinUse, hprocessed, hrestart⟩,
      fun _ => rfl⟩

/-- **A counter is cleared**: no handler counts, so that those before it are clear still. -/
theorem Inv.stopClear (h : Inv s) (hok : Ok s .advance) {f : Cleared}
    (hc : s.control = .stopClear f) : Inv (s.advance cfg) := by
  have hoff : s.context.Off := h.off (.inr ⟨f, hc⟩)
  have hstill : s.isr.counts = false ∧ ∀ d ∈ s.dpcs, d.counts = false := by
    cases hs : s.stopped with
    | true => exact h.still (by rw [State.cleared, if_pos hs]; decide)
    | false =>
      by_cases hfirst : f = .underflowErrorCount
      · exact hok (hfirst ▸ hc)
      · have hcleared : s.cleared = f.rank := by
          rw [State.cleared, hs, hc]
          rfl
        refine h.still ?_
        rw [hcleared]
        cases f with
        | underflowErrorCount => exact absurd rfl hfirst
        | _ => exact Nat.succ_pos _
  have hclear : (f.clear s.context).Clear (s.advance cfg).cleared := by
    cases hs : s.stopped with
    | true =>
      have hcleared : s.cleared = 6 := if_pos hs
      have hcleared' : (s.advance cfg).cleared = 6 := by
        unfold State.advance
        rw [hc, hs]
        rfl
      rw [hcleared', ← hcleared]
      exact Cleared.clear_again h.clear f
    | false =>
      have hcleared : s.cleared = f.rank := by
        rw [State.cleared, hs, hc]
        rfl
      have hcleared' : (s.advance cfg).cleared = f.rank + 1 := by
        unfold State.advance
        rw [hc, hs]
        cases f <;> rfl
      rw [hcleared']
      exact Cleared.clear_rank (hcleared ▸ h.clear)
  unfold State.advance at hclear ⊢
  rw [hc] at hclear ⊢
  refine ⟨fun _ => f.clear_off hoff, fun _ => hstill, hclear, fun _ => ?_⟩
  cases f <;> rfl

/-- **The audio driver keeps the invariant.** -/
theorem Inv.advance (h : Inv s) (hok : Ok s .advance) : Inv (s.advance cfg) := by
  cases hc : s.control with
  | idle =>
    unfold State.advance
    rw [hc]
    exact h
  | increment | startLast | startRestart | startConblk | startCs =>
    have hstopped : s.stopped = false := by
      by_contra hs
      have hstarts := h.linked (Bool.not_eq_false _ ▸ hs)
      rw [hc] at hstarts
      cases hstarts
    unfold State.advance
    rw [hc]
    exact .of_not_stopped hstopped nofun
  | stopRead =>
    unfold State.advance
    rw [hc]
    exact h.of_stop rfl rfl rfl (fun _ => rfl) nofun rfl
  | stopActive cs =>
    unfold State.advance
    rw [hc]
    exact h.of_stop rfl rfl rfl (fun hoff => hoff.writeCs _ _) nofun rfl
  | stopConblk =>
    unfold State.advance
    rw [hc]
    refine h.of_stop rfl rfl rfl (fun hoff => ?_) nofun rfl
    rw [← hoff.conblkAd_eq]
  | stopReset => exact h.stopReset hc
  | stopClear f => exact h.stopClear hok hc

/-! ## Runs -/

/-- **The step lemma.** -/
theorem Inv.effect {a : Action} (h : Inv s) (hok : Ok s a) (hen : enabled s a) :
    Inv (effect cfg s a) := by
  cases a with
  | link => exact .of_not_stopped rfl nofun
  | startAudio => exact .of_not_stopped hen.2 nofun
  | stopAudio => exact h.of_stop rfl rfl rfl (fun _ => rfl) nofun rfl
  | advance => exact h.advance hok
  | interrupt =>
    exact h.of_handlers rfl rfl (fun hoff => hoff) fun hpos => ⟨rfl, rfl, (h.still hpos).2⟩
  | isr => exact h.isrStep
  | dpc =>
    refine h.of_handlers rfl rfl (fun hoff => hoff) fun hpos =>
      ⟨rfl, (h.still hpos).1, fun d hd => ?_⟩
    rcases List.mem_append.1 hd with hmem | hmem
    · exact (h.still hpos).2 d hmem
    · rw [List.mem_singleton.1 hmem]
      rfl
  | dpcStep i =>
    show Inv ((s.dpcs[i]?).elim s (s.dpcStep cfg i))
    cases hd : s.dpcs[i]? with
    | none => exact h
    | some d => exact h.dpcStep hd hok
  | engine conblkAd sourceAd cs =>
    -- the engine is not off
    have hnot : ¬ s.context.Off := by
      intro hoff
      have hactive : s.context.cs.active = true := hen
      rw [hoff.active_eq] at hactive
      cases hactive
    refine h.of_handlers rfl rfl (fun hoff => absurd hoff hnot) fun hpos => ?_
    exact absurd (h.off_of_cleared hpos) hnot

/-- **The counters stay clear** in every run whose steps meet the condition. -/
theorem reach_cleared {cfg : Config} {dmaPacketsToPrimePreset : Nat} {s : State}
    (h : (machine cfg dmaPacketsToPrimePreset).Reach Ok s) : StaysCleared s := by
  have hinv : Inv s :=
    h.inv_guarded (fun _ hs => hs ▸ inv_start _) fun _ _ hinv hok hen => hinv.effect hok hen
  intro hstopped
  have hclear := hinv.clear
  rw [State.cleared, if_pos hstopped] at hclear
  exact ⟨hclear.packetsInUse (by decide), hclear.packetsProcessed (by decide),
    hclear.restartRequired (by decide), hclear.underflowErrorCount (by decide)⟩

/-- A packet is linked and started, and completes with an interrupt while the next one plays. -/
def play : List Action :=
  [.link, .advance, .link, .advance, .startAudio, .advance, .advance, .advance, .advance,
    .engine 0x10040 0xC0028000 ⟨true, true, false⟩,
    .interrupt, .isr, .isr, .isr, .isr, .isr, .isr, .isr, .isr, .isr]

/-- `StopAudio` -/
def stop : List Action :=
  [.stopAudio, .advance, .advance, .advance, .advance, .advance, .advance, .advance, .advance,
    .advance, .advance]

/-- The DPC of the packet runs before the stop. -/
theorem reach_cleared_play : ∃ s, (machine twoPackets 1).Reach Ok s ∧ StaysCleared s ∧
    s.stopped = true := by
  obtain ⟨s, hreach, hs⟩ := (machine twoPackets 1).reach_execOk_any Ok
    (play ++ [.dpc, .dpcStep 0, .dpcStep 0] ++ stop) (s := .start 1) (p := fun s => s.stopped)
    rfl (by decide +kernel)
  exact ⟨s, hreach, reach_cleared hreach, hs⟩

/-- **The DPC of the packet runs after the stop**, and takes it for an underflow. -/
theorem late_dpc : ¬ ∀ s, (machine twoPackets 1).Reachable s → StaysCleared s := by
  intro h
  obtain ⟨s, hreach, hs⟩ := (machine twoPackets 1).reach_exec_any
    (play ++ stop ++ [.dpc] ++ List.replicate 10 (.dpcStep 0)) (s := .start 1)
    (p := fun s => s.stopped && s.context.dmaRestartRequired) rfl (by decide +kernel)
  rw [Bool.and_eq_true] at hs
  have hclear := (h s hreach hs.1).2.2.1
  rw [hs.2] at hclear
  exact Bool.noConfusion hclear

end RpiDrivers.PwmAudio.Stop
