import RpiDrivers.PwmAudio.WritePacket

/-!
# The slots of written packets

Packet `p` since the last restart is in slot `p % n`. Those that have been played and not counted
are still linked, and so a call finds room only when its slot has been played (`WriteInv.room`).
After an underflow the slots are counted at once, and at most one call is on its way that has not
seen it (`WriteInv.late`).

- `writeSound_of_fitting`: **runs that meet the condition are sound**.
- `first_packet_too_large`: a first packet number beyond the ring.
-/

namespace RpiDrivers.PwmAudio

open RpiDrivers.Lib

/-! ## The invariant -/

/-- A slot is reserved for the packet that is about to be linked. -/
def WritePc.reserved : WritePc → Bool
  | .primed .. | .copy _ | .copied _ => true
  | _ => false

/-- A packet is linked and has not been added to `DmaPacketsInUse`. -/
def WritePc.linking : WritePc → Bool
  | .primeLinked .. | .linked _ => true
  | _ => false

/-- The call has found no restart request, and may link a packet. -/
def WritePc.ahead : WritePc → Bool
  | .checkRoom _ | .copy _ | .copied _ => true
  | _ => false

theorem WritePc.ahead_linking (pc : WritePc) : pc.ahead.toNat + pc.linking.toNat ≤ 1 := by
  cases pc <;> exact Nat.le_of_ble_eq_true rfl

/-- An underflow has been counted, and no call has processed it. -/
def WriteStream.drained (s : WriteStream) : Bool := s.dmaRestartRequired && s.running

/-- The last packet is that of the call. -/
def WriteStream.Added (s : WriteStream) : Prop :=
  ∃ packet, s.packets.getLast? = some packet ∧ packet.call = some s.call

/-- A number that ends the silence in front of it. -/
def FirstNumber (layout : Layout) (packetNumber : Nat) : Prop :=
  packetNumber < layout.numPackets ∨ packetNumber % layout.numPackets = layout.numPackets - 1

/-- What the call has done so far. -/
def PcInv (layout : Layout) (s : WriteStream) : Prop :=
  match s.pc with
  | .idle => (s.running = false → s.packets = []) ∧
      (∀ r ∈ s.result, r.2 = .queued → s.Added) ∧
      ∀ r ∈ s.result, r.2.rejected = true → s.touched = false
  | .entered => (s.running = false → s.packets = []) ∧ s.touched = false
  | .checkRoom d => (s.running = false → s.packets = []) ∧ s.touched = false ∧
      d = s.relative s.call
  | .prime d k => s.running = false ∧ s.packets.length = k ∧ k ≤ d ∧ k ≤ layout.numPackets - 1 ∧
      d = s.relative s.call ∧ FirstNumber layout d
  | .primed d k => s.running = false ∧ s.packets.length = k ∧ k < d ∧ k < layout.numPackets - 1 ∧
      d = s.relative s.call ∧ FirstNumber layout d ∧
      slice s.dmaBuffer (k % layout.numPackets * layout.samplesPerPacket)
        layout.samplesPerPacket = List.replicate layout.samplesPerPacket silence
  | .primeLinked d k => s.running = false ∧ s.packets.length = k + 1 ∧ k < d ∧
      k < layout.numPackets - 1 ∧ d = s.relative s.call ∧ FirstNumber layout d
  | .copy d => d % layout.numPackets = s.packets.length % layout.numPackets ∧
      d = s.relative s.call
  | .copied d => d % layout.numPackets = s.packets.length % layout.numPackets ∧
      d = s.relative s.call ∧
      slice s.dmaBuffer (d % layout.numPackets * layout.samplesPerPacket)
        layout.samplesPerPacket = s.call.samples layout
  | .linked _ => s.Added
  | .start => s.running = false ∧ s.Added

structure WriteInv (layout : Layout) (s : WriteStream) : Prop where
  outside : s.outside = false
  clash : s.clash = false
  counted : s.counted ≤ s.completed
  completed : s.completed ≤ s.packets.length
  /-- the ring has room for the packet that is about to be linked -/
  room : s.packets.length + s.pc.reserved.toNat ≤ s.counted + layout.numPackets
  ring : s.drained = false →
    ∃ owner, Ring layout.cfg s.dmaCb owner s.counted s.packets.length
  chain : ∀ p, s.completed ≤ p → p < s.packets.length →
    (s.dmaCb (layout.cfg.linkPtr (p % layout.numPackets))).nextConbk =
      layout.cfg.linkValue (p % layout.numPackets)
  slots : ∀ p packet, s.packets[p]? = some packet → packet.slot = p % layout.numPackets
  numbers : ∀ packet ∈ s.packets, ∀ call, packet.call = some call →
    packet.slot = s.relative call % layout.numPackets
  samples : ∀ p packet, s.completed ≤ p → s.packets[p]? = some packet →
    slice s.dmaBuffer (p % layout.numPackets * layout.samplesPerPacket) layout.samplesPerPacket =
      packet.samples layout
  inUse : s.drained = false →
    s.dmaPacketsInUse + s.counted + s.pc.linking.toNat = s.packets.length
  late : s.drained = true → s.counted = s.completed ∧
    s.dmaPacketsInUse + s.pc.ahead.toNat + s.pc.linking.toNat ≤ 1 ∧
      s.packets.length + s.pc.ahead.toNat ≤ s.counted + layout.numPackets
  /-- the engine is on a packet that is linked -/
  engine : s.active = true → s.running = true ∧ s.dmaRestartRequired = false ∧
    s.playing = s.completed % layout.numPackets ∧ s.completed < s.packets.length
  /-- the packet before an underflow has not been counted -/
  stopped : s.running = true → s.active = false → s.drained = false → s.counted < s.completed
  stop : s.running = false → s.completed = 0
  restart : s.restartInProgress = true → s.running = false
  fits : s.pc ≠ .idle → s.call.sampleCount layout ≤ layout.samplesPerPacket
  pc : PcInv layout s

variable {layout : Layout} {s : WriteStream}

theorem numPackets_pos (layout : Layout) : 0 < layout.numPackets := layout.cfg.dmaNumPackets_pos

/-! ## Writing to the DMA buffer -/

namespace WriteInv

/-- A packet that has not been played, by its number. -/
theorem of_mem_pending (h : WriteInv layout s) {packet : Packet} (hp : packet ∈ s.pending) :
    ∃ p, s.completed ≤ p ∧ p < s.packets.length ∧ s.packets[p]? = some packet ∧
      packet.slot = p % layout.numPackets := by
  obtain ⟨i, hi⟩ := List.mem_iff_getElem?.1 hp
  rw [WriteStream.pending, List.getElem?_drop] at hi
  have hlt := (List.getElem?_eq_some_iff.1 hi).1
  exact ⟨s.completed + i, Nat.le_add_right _ _, hlt, hi, h.slots _ _ hi⟩

/-- The slot of the next packet is not that of a packet that has not been played. -/
theorem slot_ne (h : WriteInv layout s)
    (hroom : s.packets.length < s.counted + layout.numPackets) {p : Nat} (hp : s.completed ≤ p)
    (hlt : p < s.packets.length) :
    p % layout.numPackets ≠ s.packets.length % layout.numPackets := by
  have hcounted := h.counted
  have hcompleted := h.completed
  exact mod_ne_of_ne (Nat.ne_of_lt hlt) hp (by omega) hcompleted (by omega)

/-- A part of that slot is inside the DMA buffer. -/
theorem part_inside (p : Nat) {offset n : Nat} (hn : offset + n ≤ layout.samplesPerPacket) :
    p % layout.numPackets * layout.samplesPerPacket + offset + n ≤ Layout.dmaSamples := by
  have hslot : p % layout.numPackets * layout.samplesPerPacket + layout.samplesPerPacket ≤
      layout.numPackets * layout.samplesPerPacket :=
    slot_inside (Nat.mod_lt p (numPackets_pos layout))
  have hall := layout.slots_le_dmaSamples
  omega

/-- A write to a part of that slot, while the packets stay as they are. -/
theorem write_eq (h : WriteInv layout s)
    (hroom : s.packets.length < s.counted + layout.numPackets) {offset n : Nat}
    (hn : offset + n ≤ layout.samplesPerPacket) (t : WriteStream) (ht : t.pending = s.pending)
    (dmaBuffer : Nat → PwmSample) :
    t.write layout
        (s.packets.length % layout.numPackets * layout.samplesPerPacket + offset) n dmaBuffer =
      { t with
        dmaBuffer := dmaBuffer
        touched := true } := by
  have hinside := part_inside s.packets.length hn
  have hfree : (t.pending.any fun packet =>
      !decide ((slot layout.samplesPerPacket packet.slot).Disjoint
        ⟨s.packets.length % layout.numPackets * layout.samplesPerPacket + offset, n⟩) &&
          decide (n ≠ 0)) = false := by
    refine List.any_eq_false.2 fun packet hp => ?_
    rw [ht] at hp
    obtain ⟨p, hle, hlt, -, hslot⟩ := h.of_mem_pending hp
    have hne := h.slot_ne hroom hle hlt
    rw [← hslot] at hne
    rw [decide_eq_true (part_disjoint hne hn)]
    simp
  rw [WriteStream.write, hfree, decide_eq_false (by omega), Bool.or_false, Bool.or_false]

/-- What has not been played stays. -/
theorem samples_put (h : WriteInv layout s)
    (hroom : s.packets.length < s.counted + layout.numPackets) {vs : List PwmSample}
    (hvs : vs.length = layout.samplesPerPacket) {p : Nat} (hp : s.completed ≤ p)
    (hlt : p < s.packets.length) :
    slice (put s.dmaBuffer (s.packets.length % layout.numPackets * layout.samplesPerPacket) vs)
        (p % layout.numPackets * layout.samplesPerPacket) layout.samplesPerPacket =
      slice s.dmaBuffer (p % layout.numPackets * layout.samplesPerPacket)
        layout.samplesPerPacket := by
  have hdisjoint : (slot layout.samplesPerPacket (p % layout.numPackets)).Disjoint
      (slot layout.samplesPerPacket (s.packets.length % layout.numPackets)) :=
    slot_disjoint (h.slot_ne hroom hp hlt)
  refine slice_put_of_disjoint _ ?_
  rw [hvs]
  exact hdisjoint

/-- **A packet is copied**: its samples, and silence behind them, are put into the free slot. -/
theorem copyPacket_eq (h : WriteInv layout s)
    (hroom : s.packets.length < s.counted + layout.numPackets)
    (hfits : s.call.sampleCount layout ≤ layout.samplesPerPacket) {d : Nat}
    (hd : d % layout.numPackets = s.packets.length % layout.numPackets) :
    s.copyPacket layout d = { s with
      dmaBuffer := put s.dmaBuffer
        (s.packets.length % layout.numPackets * layout.samplesPerPacket) (s.call.samples layout)
      touched := true } := by
  -- the read is inside the audio buffer
  have hread : decide (layout.audioSamples <
      s.call.packetBaseIndex layout + s.call.sampleCount layout) = false := by
    have hslot : s.call.packetNumber % layout.notificationsPerBuffer * layout.samplesPerPacket +
        layout.samplesPerPacket ≤ layout.notificationsPerBuffer * layout.samplesPerPacket :=
      slot_inside (Nat.mod_lt _ layout.notificationsPerBuffer_pos)
    have hall := layout.packets_le_audioSamples
    rw [WriteCall.packetBaseIndex]
    exact decide_eq_false (by omega)
  have hcopy := h.write_eq hroom
    (show 0 + s.call.sampleCount layout ≤ layout.samplesPerPacket by omega)
    { s with outside := s.outside || decide (layout.audioSamples <
      s.call.packetBaseIndex layout + s.call.sampleCount layout) } rfl
    (convertPCMToPWM s.call.dataBuffer s.dmaBuffer (s.call.packetBaseIndex layout)
      (s.packets.length % layout.numPackets * layout.samplesPerPacket)
      (s.call.sampleCount layout))
  unfold WriteStream.copyPacket
  dsimp only
  rw [Nat.add_zero, convertPCMToPWM_eq] at hcopy
  rw [hd, convertPCMToPWM_eq, hcopy, hread, Bool.or_false]
  split_ifs with hpad
  · -- silence fills the rest
    refine (h.write_eq hroom (by omega) _ (by rfl) _).trans ?_
    have hlength : ((slice s.call.dataBuffer (s.call.packetBaseIndex layout)
        (s.call.sampleCount layout)).map pcmToPwm).length = s.call.sampleCount layout := by simp
    rw [silenceToPWM_eq]
    dsimp only
    rw [WriteCall.samples, ← put_append, hlength]
  · have hfull : layout.samplesPerPacket - s.call.sampleCount layout = 0 := by
      by_contra hne
      rw [Bool.and_eq_true, decide_eq_true_eq] at hpad
      refine hpad ⟨?_, by omega⟩
      by_contra hend
      exact hne (by rw [WriteCall.sampleCount, if_neg hend, Nat.sub_self])
    rw [WriteCall.samples, hfull, List.replicate_zero, List.append_nil]

/-- A packet of samples is put into the free slot. -/
theorem fill (h : WriteInv layout s)
    (hroom : s.packets.length < s.counted + layout.numPackets) {vs : List PwmSample}
    (hvs : vs.length = layout.samplesPerPacket) {pc : WritePc}
    (hlinking : pc.linking = s.pc.linking) (hahead : pc.ahead = s.pc.ahead) (hpc : s.pc ≠ .idle)
    (hinv : PcInv layout { s with
      dmaBuffer :=
        put s.dmaBuffer (s.packets.length % layout.numPackets * layout.samplesPerPacket) vs
      touched := true
      pc := pc }) :
    WriteInv layout { s with
      dmaBuffer :=
        put s.dmaBuffer (s.packets.length % layout.numPackets * layout.samplesPerPacket) vs
      touched := true
      pc := pc } where
  outside := h.outside
  clash := h.clash
  counted := h.counted
  completed := h.completed
  room := by
    have hbit := Bool.toNat_le pc.reserved
    show s.packets.length + pc.reserved.toNat ≤ s.counted + layout.numPackets
    omega
  ring := h.ring
  chain := h.chain
  slots := h.slots
  numbers := h.numbers
  samples p packet hp hget := by
    have hlt := (List.getElem?_eq_some_iff.1 hget).1
    rw [← h.samples p packet hp hget]
    exact h.samples_put hroom hvs hp hlt
  inUse := by
    rw [hlinking]
    exact h.inUse
  late := by
    rw [hlinking, hahead]
    exact h.late
  engine := h.engine
  stopped := h.stopped
  stop := h.stop
  restart := h.restart
  fits _ := h.fits hpc
  pc := hinv

/-- The next packet is linked. -/
theorem link (h : WriteInv layout s) {d : Nat}
    (hd : d % layout.numPackets = s.packets.length % layout.numPackets) {call : Option WriteCall}
    (hnumber : ∀ c, call = some c → d % layout.numPackets = s.relative c % layout.numPackets)
    (hsamples : slice s.dmaBuffer (d % layout.numPackets * layout.samplesPerPacket)
      layout.samplesPerPacket = (Packet.mk (d % layout.numPackets) call).samples layout)
    {pc : WritePc} (hreserved : s.pc.reserved = true) (hlinking : s.pc.linking = false)
    (hahead : s.drained = true → s.pc.ahead = true)
    (hbits : pc.reserved = false ∧ pc.linking = true ∧ pc.ahead = false)
    (hinv : PcInv layout { s.link layout d call with pc := pc }) :
    WriteInv layout { s.link layout d call with pc := pc } := by
  have hcounted := h.counted
  have hcompleted := h.completed
  have hroom := h.room
  rw [hreserved] at hroom
  have hroom : s.packets.length < s.counted + layout.numPackets := hroom
  have hslot := Nat.mod_lt s.packets.length (numPackets_pos layout)
  have hlength : (s.packets ++ [Packet.mk (d % layout.numPackets) call]).length =
      s.packets.length + 1 := by simp
  -- a packet is an older one, or the one that is linked
  have hget : ∀ p packet,
      (s.packets ++ [Packet.mk (d % layout.numPackets) call])[p]? = some packet →
        p < s.packets.length ∧ s.packets[p]? = some packet ∨
          p = s.packets.length ∧ packet = ⟨d % layout.numPackets, call⟩ := by
    intro p packet hp
    have hlt := (List.getElem?_eq_some_iff.1 hp).1
    rw [hlength] at hlt
    rcases Nat.lt_or_ge p s.packets.length with hold | hnew
    · rw [List.getElem?_append_left hold] at hp
      exact .inl ⟨hold, hp⟩
    · obtain rfl : p = s.packets.length := by omega
      rw [List.getElem?_concat_length] at hp
      exact .inr ⟨rfl, (Option.some.inj hp).symm⟩
  constructor
  case outside => exact h.outside
  case clash => exact h.clash
  case counted => exact hcounted
  case completed => exact hlength ▸ Nat.le_succ_of_le hcompleted
  case room =>
    show (s.packets ++ [_]).length + pc.reserved.toNat ≤ _
    rw [hlength, hbits.1]
    exact hroom
  case ring =>
    intro hdrained
    obtain ⟨owner, hring⟩ := h.ring hdrained
    show ∃ owner, Ring layout.cfg
      (Pwm.setLink layout.cfg s.dmaCb (d % layout.numPackets)
        (layout.cfg.linkValue (d % layout.numPackets))) owner s.counted
      (s.packets ++ [Packet.mk (d % layout.numPackets) call]).length
    rw [hlength, hd]
    exact ⟨_, hring.link (hcounted.trans hcompleted) hroom⟩
  case chain =>
    intro p hp hlt
    have hlt : p < (s.packets ++ [Packet.mk (d % layout.numPackets) call]).length := hlt
    rw [hlength] at hlt
    have hindex : p % layout.numPackets < layout.cfg.dmaNumPackets :=
      Nat.mod_lt p (numPackets_pos layout)
    show (Pwm.setLink layout.cfg s.dmaCb (d % layout.numPackets) _ _).nextConbk = _
    rw [hd, nextConbk_setLink hslot hindex]
    by_cases hlast : p = s.packets.length
    · rw [if_pos (by rw [hlast]), hlast]
    · have hold : p < s.packets.length := by omega
      rw [if_neg (h.slot_ne hroom hp hold)]
      exact h.chain p hp hold
  case slots =>
    intro p packet hp
    rcases hget p packet hp with ⟨-, hold⟩ | ⟨rfl, rfl⟩
    · exact h.slots p packet hold
    · exact hd
  case numbers =>
    intro packet hp c hc
    rcases List.mem_append.1 hp with hold | hnew
    · exact h.numbers packet hold c hc
    · obtain rfl := List.mem_singleton.1 hnew
      exact hnumber c hc
  case samples =>
    intro p packet hle hp
    rcases hget p packet hp with ⟨-, hold⟩ | ⟨rfl, rfl⟩
    · exact h.samples p packet hle hold
    · rw [← hd]
      exact hsamples
  case inUse =>
    intro hdrained
    have hinUse := h.inUse hdrained
    rw [hlinking] at hinUse
    have hinUse : s.dmaPacketsInUse + s.counted = s.packets.length := hinUse
    show s.dmaPacketsInUse + s.counted + pc.linking.toNat = (s.packets ++ [_]).length
    rw [hlength, hbits.2.1, hinUse]
    rfl
  case late =>
    intro hdrained
    obtain ⟨heq, hone, hfull⟩ := h.late hdrained
    rw [hahead hdrained, hlinking] at hone
    rw [hahead hdrained] at hfull
    refine ⟨heq, ?_, ?_⟩
    · rw [hbits.2.1, hbits.2.2]
      exact hone
    · show (s.packets ++ [_]).length + pc.ahead.toNat ≤ _
      rw [hlength, hbits.2.2]
      exact hfull
  case engine =>
    intro hactive
    obtain ⟨hrunning, hrequired, hplaying, hlt⟩ := h.engine hactive
    exact ⟨hrunning, hrequired, hplaying, hlength ▸ Nat.lt_succ_of_lt hlt⟩
  case stopped => exact h.stopped
  case stop => exact h.stop
  case restart => exact h.restart
  case fits =>
    intro _
    refine h.fits fun hidle => ?_
    rw [hidle] at hreserved
    cases hreserved
  case pc => exact hinv

/-- The packet that was linked is counted in. -/
theorem increment (h : WriteInv layout s) (hlinking : s.pc.linking = true) {pc : WritePc}
    (hbits : pc.reserved = false ∧ pc.linking = false ∧ pc.ahead = false)
    {result : Option (Nat × Outcome)}
    (hinv : PcInv layout { s.increment with
      pc := pc
      result := result }) :
    WriteInv layout { s.increment with
      pc := pc
      result := result } := by
  have hroom : s.packets.length ≤ s.counted + layout.numPackets :=
    (Nat.le_add_right _ _).trans h.room
  have hmax : layout.numPackets ≤ 65536 := layout.cfg.dmaNumPackets_le
  -- the packets in use are no more than there are, so the count does not wrap
  have hstep : (s.dmaPacketsInUse + 1) % 0x100000000 = s.dmaPacketsInUse + 1 := by
    refine Nat.mod_eq_of_lt ?_
    by_cases hdrained : s.drained = true
    · have hone := (h.late hdrained).2.1
      omega
    · have hinUse := h.inUse (eq_false_of_ne_true hdrained)
      omega
  constructor
  case outside => exact h.outside
  case clash => exact h.clash
  case counted => exact h.counted
  case completed => exact h.completed
  case room =>
    rw [hbits.1]
    exact hroom
  case ring => exact h.ring
  case chain => exact h.chain
  case slots => exact h.slots
  case numbers => exact h.numbers
  case samples => exact h.samples
  case inUse =>
    intro hdrained
    have hinUse := h.inUse hdrained
    rw [hlinking] at hinUse
    show (s.dmaPacketsInUse + 1) % 0x100000000 + s.counted + pc.linking.toNat = s.packets.length
    rw [hstep, hbits.2.1, ← hinUse]
    show s.dmaPacketsInUse + 1 + s.counted + 0 = s.dmaPacketsInUse + s.counted + 1
    omega
  case late =>
    intro hdrained
    obtain ⟨heq, hone, hfull⟩ := h.late hdrained
    rw [hlinking] at hone
    refine ⟨heq, ?_, ?_⟩
    · show (s.dmaPacketsInUse + 1) % 0x100000000 + pc.ahead.toNat + pc.linking.toNat ≤ 1
      rw [hstep, hbits.2.1, hbits.2.2]
      have hone : s.dmaPacketsInUse + s.pc.ahead.toNat + 1 ≤ 1 := hone
      show s.dmaPacketsInUse + 1 + 0 + 0 ≤ 1
      omega
    · rw [hbits.2.2]
      exact (Nat.le_add_right _ _).trans hfull
  case engine => exact h.engine
  case stopped => exact h.stopped
  case stop => exact h.stop
  case restart => exact h.restart
  case fits =>
    intro _
    refine h.fits fun hidle => ?_
    rw [hidle] at hlinking
    cases hlinking
  case pc => exact hinv

/-! ## The steps around the calls -/

theorem inUse_le (h : WriteInv layout s) : s.dmaPacketsInUse ≤ layout.numPackets := by
  have hroom := h.room
  have hpos := numPackets_pos layout
  by_cases hdrained : s.drained = true
  · have hone := (h.late hdrained).2.1
    omega
  · have hinUse := h.inUse (eq_false_of_ne_true hdrained)
    omega

/-- **A packet is played.** The engine follows a link to a packet, for the link behind the last one
is null. -/
theorem complete (h : WriteInv layout s) (hactive : s.active = true)
    (hok : s.completed + 1 = s.packets.length → s.packets.length < s.counted + layout.numPackets) :
    WriteInv layout s.complete := by
  obtain ⟨hrunning, hrequired, hplaying, hlt⟩ := h.engine hactive
  have hdrained : s.drained = false := by rw [WriteStream.drained, hrequired, Bool.false_and]
  have hcounted := h.counted
  have hnext : 2 * s.playing + 1 =
      layout.cfg.linkPtr ((s.completed + 1) % layout.numPackets) := by
    rw [hplaying]
    exact (layout.cfg.linkPtr_succ s.completed).symm
  unfold WriteStream.complete
  dsimp only
  rw [hnext]
  split_ifs with haddress
  · exact { h with
      counted := Nat.le_succ_of_le hcounted
      completed := hlt
      chain := fun p hp => h.chain p (Nat.le_of_succ_le hp)
      samples := fun p packet hp => h.samples p packet (Nat.le_of_succ_le hp)
      late := fun hd => absurd (hdrained.symm.trans hd) (by decide)
      engine := fun ha => absurd ha Bool.false_ne_true
      stopped := fun _ _ _ => Nat.lt_succ_of_le hcounted
      stop := fun hr => absurd (hrunning.symm.trans hr) (by decide) }
  · have hnotLast : s.completed + 1 < s.packets.length := by
      by_contra hge
      have hlast : s.completed + 1 = s.packets.length := by omega
      obtain ⟨owner, hring⟩ := h.ring hdrained
      have hroom : s.packets.length < s.counted + layout.cfg.dmaNumPackets := hok hlast
      have hslot := Nat.mod_lt s.packets.length layout.cfg.dmaNumPackets_pos
      -- no packet is in the slot behind the last one
      have hfree : (owner (s.packets.length % layout.cfg.dmaNumPackets)).isSome = false := by
        rw [Option.isSome_eq_false_iff, Option.isNone_iff_eq_none,
          Option.eq_none_iff_forall_ne_some]
        intro p hp
        obtain ⟨hle, hold, hmod⟩ := (hring.packets _ hslot p).1 hp
        exact mod_ne_of_ne (Nat.ne_of_lt hold) hle (by omega) (by omega) hroom hmod
      have hnull := hring.links _ hslot
      rw [hfree, if_neg (by decide)] at hnull
      refine haddress ?_
      rw [hlast]
      show (s.dmaCb
        (layout.cfg.linkPtr (s.packets.length % layout.cfg.dmaNumPackets))).nextConbk.address = 0
      rw [hnull]
      rfl
    have hlink := h.chain _ (Nat.le_succ _) hnotLast
    exact { h with
      counted := Nat.le_succ_of_le hcounted
      completed := hlt
      chain := fun p hp => h.chain p (Nat.le_of_succ_le hp)
      samples := fun p packet hp => h.samples p packet (Nat.le_of_succ_le hp)
      late := fun hd => absurd (hdrained.symm.trans hd) (by decide)
      engine := fun _ => by
        refine ⟨hrunning, hrequired, ?_, hnotLast⟩
        show _ / 2 = _
        rw [hlink]
        exact Nat.mul_div_cancel_left _ (by decide)
      stopped := fun _ hidle => absurd (hactive.symm.trans hidle) (by decide)
      stop := fun hr => absurd (hrunning.symm.trans hr) (by decide) }

/-- **Packets are counted** and unlinked: they have been played. -/
theorem countPackets (h : WriteInv layout s) {m : Nat} (hm : 0 < m)
    (hplayed : s.counted + m + (if s.active then 0 else 1) ≤ s.completed) :
    WriteInv layout (s.countPackets layout m) := by
  have hdrained : s.drained = false := by
    by_contra hd
    have heq := (h.late (eq_true_of_ne_false hd)).1
    omega
  have hcompleted := h.completed
  have hinUse := h.inUse hdrained
  have hroom := h.room
  have hmax : layout.numPackets ≤ 65536 := layout.cfg.dmaNumPackets_le
  have hlinked : s.counted + m < s.packets.length := by
    by_cases hactive : s.active = true
    · have hlt := (h.engine hactive).2.2.2
      omega
    · rw [if_neg hactive] at hplayed
      omega
  have hbit := Bool.toNat_le s.pc.linking
  have hstep : (s.dmaPacketsInUse + (0x100000000 - m)) % 0x100000000 = s.dmaPacketsInUse - m := by
    omega
  -- what is unlinked are the places of the packets that are counted now
  have hunlink : ∀ i, i ∈ packetsToUnlink layout.numPackets
      ((s.counted + m - 1) % layout.numPackets) m ↔
        ∃ p, s.counted ≤ p ∧ p < s.counted + m ∧ p % layout.numPackets = i := by
    intro i
    rw [mem_packetsToUnlink (numPackets_pos layout) (fun _ => rfl) (Nat.le_add_left _ _),
      Nat.add_sub_cancel]
  constructor
  case outside => exact h.outside
  case clash => exact h.clash
  case counted => exact (Nat.le_add_right _ _).trans hplayed
  case completed => exact hcompleted
  case room =>
    show s.packets.length + s.pc.reserved.toNat ≤ s.counted + m + layout.numPackets
    omega
  case ring =>
    intro _
    obtain ⟨owner, hring⟩ := h.ring hdrained
    exact ⟨_, hring.unlink (Nat.le_add_right _ _) ((Nat.le_add_right _ _).trans hroom) hunlink⟩
  case chain =>
    intro p hp hlt
    have hp : s.completed ≤ p := hp
    have hlt : p < s.packets.length := hlt
    have hindex : p % layout.numPackets < layout.cfg.dmaNumPackets :=
      Nat.mod_lt p (numPackets_pos layout)
    show (Pwm.unlink layout.cfg s.dmaCb _ _).nextConbk = _
    rw [nextConbk_unlink hindex, if_neg]
    · exact h.chain p hp hlt
    · intro hmem
      -- a packet that is linked and not complete is less than a round ahead of them
      obtain ⟨q, hle, hq, hmod⟩ := (hunlink _).1 hmem
      exact mod_ne_of_ne (by omega) (d := s.counted) (by omega) (by omega) hle (by omega) hmod.symm
    · intro i hi
      obtain ⟨q, -, -, hq⟩ := (hunlink i).1 hi
      rw [← hq]
      exact Nat.mod_lt q (numPackets_pos layout)
  case slots => exact h.slots
  case numbers => exact h.numbers
  case samples => exact h.samples
  case inUse =>
    intro _
    show (s.dmaPacketsInUse + (0x100000000 - m)) % 0x100000000 + (s.counted + m) +
      s.pc.linking.toNat = s.packets.length
    omega
  case late => exact fun hd => absurd (hdrained.symm.trans hd) (by decide)
  case engine => exact h.engine
  case stopped =>
    intro _ hidle _
    have hidle : s.active = false := hidle
    rw [hidle] at hplayed
    exact hplayed
  case stop => exact h.stop
  case restart => exact h.restart
  case fits => exact h.fits
  case pc => exact h.pc

/-- **An underflow is handled**: all packets that have been played are counted. -/
theorem handleUnderflow (h : WriteInv layout s) (hidle : s.active = false)
    (hok : s.running = false → s.packets.length = 0) : WriteInv layout s.handleUnderflow := by
  have hcounted := h.counted
  have hroom := h.room
  -- where no packet has been linked, none has been counted
  have hstopped : s.handleUnderflow.drained = false →
      s.drained = false ∧ s.completed = s.counted ∧ s.packets.length = 0 := by
    intro hdrained
    have hrunning : s.running = false := hdrained
    have hcompleted := h.stop hrunning
    refine ⟨by rw [WriteStream.drained, hrunning, Bool.and_false], by omega, hok hrunning⟩
  constructor
  case outside => exact h.outside
  case clash => exact h.clash
  case counted => exact le_refl s.completed
  case completed => exact h.completed
  case room => exact hroom.trans (Nat.add_le_add_right hcounted _)
  case ring =>
    intro hdrained
    obtain ⟨hnot, heq, -⟩ := hstopped hdrained
    show ∃ owner, Ring layout.cfg s.dmaCb owner s.completed s.packets.length
    rw [heq]
    exact h.ring hnot
  case chain => exact h.chain
  case slots => exact h.slots
  case numbers => exact h.numbers
  case samples => exact h.samples
  case inUse =>
    intro hdrained
    obtain ⟨hnot, heq, hnone⟩ := hstopped hdrained
    have hinUse := h.inUse hnot
    show 0 + s.completed + s.pc.linking.toNat = s.packets.length
    omega
  case late =>
    intro hdrained
    have hrunning : s.running = true := hdrained
    have hahead := s.pc.ahead_linking
    refine ⟨rfl, ?_, ?_⟩
    · show 0 + s.pc.ahead.toNat + s.pc.linking.toNat ≤ 1
      omega
    · show s.packets.length + s.pc.ahead.toNat ≤ s.completed + layout.numPackets
      by_cases hagain : s.drained = true
      · obtain ⟨heq, -, hfull⟩ := h.late hagain
        omega
      · have hplayed := h.stopped hrunning hidle (eq_false_of_ne_true hagain)
        omega
  case engine => exact fun ha => absurd (hidle.symm.trans ha) Bool.false_ne_true
  case stopped => exact fun hrunning _ hdrained => absurd (hdrained.symm.trans hrunning) (by decide)
  case stop => exact h.stop
  case restart => exact h.restart
  case fits => exact h.fits
  case pc => exact h.pc

/-! ## The steps of a call -/

/-- **A restart is begun**: all slots are unlinked. -/
theorem processRestart (h : WriteInv layout s)
    (hrequired : s.dmaRestartRequired = true) :
    WriteInv layout ((s.restart layout).ret .restarted) := by
  have hidle : s.active = false := by
    by_contra hactive
    have hnot := (h.engine (eq_true_of_ne_false hactive)).2.1
    rw [hrequired] at hnot
    cases hnot
  have hunlink : ∀ i ∈ List.range layout.numPackets, i < layout.cfg.dmaNumPackets :=
    fun i hi => List.mem_range.1 hi
  constructor
  case outside => exact h.outside
  case clash => exact h.clash
  case counted => exact le_refl 0
  case completed => exact le_refl 0
  case room => exact Nat.zero_le _
  case ring =>
    intro _
    refine ⟨fun _ => none, fun i _ p => ?_, fun i hi => ?_⟩
    · constructor
      · exact fun hnone => by cases hnone
      · rintro ⟨-, hlt, -⟩
        exact absurd hlt (Nat.not_lt_zero p)
    · have hmem : i ∈ List.range layout.numPackets := List.mem_range.2 hi
      show (Pwm.unlink layout.cfg s.dmaCb _ _).nextConbk = _
      rw [nextConbk_unlink hi _ _ hunlink, if_pos hmem]
      rfl
  case chain => exact fun p _ hp => absurd hp (Nat.not_lt_zero p)
  case slots => exact fun p packet hp => by cases hp
  case numbers => exact fun packet hp => by cases hp
  case samples => exact fun p packet _ hp => by cases hp
  case inUse => exact fun _ => rfl
  case late => exact fun hd => absurd ((Bool.and_false _).symm.trans hd) Bool.false_ne_true
  case engine => exact fun ha => absurd (hidle.symm.trans ha) Bool.false_ne_true
  case stopped => exact fun hrunning => absurd hrunning Bool.false_ne_true
  case stop => exact fun _ => rfl
  case restart => exact fun _ => rfl
  case fits => exact fun hne => absurd rfl hne
  case pc =>
    refine ⟨fun _ => rfl, fun r hr => ?_, fun r hr => ?_⟩
    · obtain rfl := Option.some.inj hr
      exact fun hqueued => by cases hqueued
    · obtain rfl := Option.some.inj hr
      exact fun hrejected => by cases hrejected

/-- **The DMA is started** at slot 0, and a packet is linked there. -/
theorem start (h : WriteInv layout s) (hpc : s.pc = .start) :
    WriteInv layout (s.advance layout true) := by
  have hinv := h.pc
  rw [PcInv, hpc] at hinv
  obtain ⟨hrunning, hadded⟩ := hinv
  have hdrained : s.drained = false := by rw [WriteStream.drained, hrunning, Bool.and_false]
  have hcompleted := h.stop hrunning
  have hpackets : 0 < s.packets.length := by
    obtain ⟨packet, hlast, -⟩ := hadded
    exact List.length_pos_of_mem (List.mem_of_getLast? hlast)
  have hroom := h.room
  have hinUse := h.inUse hdrained
  rw [hpc] at hroom hinUse
  unfold WriteStream.advance
  rw [hpc]
  dsimp only
  rw [if_pos rfl]
  constructor
  case outside => exact h.outside
  case clash => exact h.clash
  case counted => exact h.counted
  case completed => exact h.completed
  case room => exact hroom
  case ring => exact fun _ => h.ring hdrained
  case chain => exact h.chain
  case slots => exact h.slots
  case numbers => exact h.numbers
  case samples => exact h.samples
  case inUse => exact fun _ => hinUse
  case late => exact fun hd => absurd hd Bool.false_ne_true
  case engine =>
    refine fun _ => ⟨rfl, rfl, ?_, ?_⟩
    · show 0 = s.completed % layout.numPackets
      rw [hcompleted, Nat.zero_mod]
    · show s.completed < s.packets.length
      omega
  case stopped => exact fun _ hidle => absurd hidle.symm Bool.false_ne_true
  case stop => exact fun hr => absurd hr.symm Bool.false_ne_true
  case restart => exact fun hr => absurd hr Bool.false_ne_true
  case fits => exact fun hne => absurd rfl hne
  case pc =>
    refine ⟨fun hr => absurd hr.symm Bool.false_ne_true, fun r _ _ => hadded, fun r hr => ?_⟩
    obtain rfl := Option.some.inj hr
    exact fun hrejected => by cases hrejected

theorem entered (h : WriteInv layout s) (hpc : s.pc = .entered) (startSucceeds : Bool) :
    WriteInv layout (s.advance layout startSucceeds) := by
  have hroom := h.room
  have hinUse := h.inUse
  have hinv := h.pc
  rw [hpc] at hroom hinUse
  rw [PcInv, hpc] at hinv
  have hfits := h.fits (hpc ▸ WritePc.noConfusion)
  unfold WriteStream.advance
  rw [hpc]
  dsimp only
  split_ifs with hrequest
  · exact h.processRestart hrequest.2
  · -- an underflow that has been counted is a request
    have hnot : s.drained ≠ true := by
      intro hdrained
      obtain ⟨hrequired, hrunning⟩ := (Bool.and_eq_true_iff).1 hdrained
      refine hrequest ⟨?_, hrequired⟩
      by_contra hprogress
      have hstopped := h.restart (eq_true_of_ne_false hprogress)
      rw [hrunning] at hstopped
      cases hstopped
    exact { h with
      room := hroom
      inUse := hinUse
      late := fun hdrained => absurd hdrained hnot
      fits := fun _ => hfits
      pc := ⟨hinv.1, hinv.2, rfl⟩ }

theorem checkRoom (h : WriteInv layout s) {d : Nat} (hpc : s.pc = .checkRoom d)
    {startSucceeds : Bool} (hok : Fitting layout s (.advance startSucceeds)) :
    WriteInv layout (s.advance layout startSucceeds) := by
  have hroom := h.room
  have hinUse := h.inUse
  have hlate := h.late
  have hinv := h.pc
  rw [hpc] at hroom hinUse hlate
  rw [PcInv, hpc] at hinv
  rw [Fitting, hpc] at hok
  have hfits := h.fits (hpc ▸ WritePc.noConfusion)
  obtain ⟨hempty, huntouched, hd⟩ := hinv
  unfold WriteStream.advance
  rw [hpc]
  dsimp only
  -- no room, an engine that runs, or one that is started
  split_ifs with hfull hrunning
  · exact { h with
      room := hroom
      inUse := hinUse
      late := fun hdrained => by
        obtain ⟨heq, hone, hle⟩ := hlate hdrained
        exact ⟨heq, (Nat.le_add_right _ _).trans hone, (Nat.le_add_right _ _).trans hle⟩
      fits := fun hne => absurd rfl hne
      pc := by
        refine ⟨hempty, fun r hr => ?_, fun _ _ _ => huntouched⟩
        obtain rfl := Option.some.inj hr
        exact fun hqueued => by cases hqueued }
  · have hnumber := hok hfull
    rw [if_pos hrunning] at hnumber
    exact { h with
      room := by
        show s.packets.length + 1 ≤ s.counted + layout.numPackets
        by_cases hdrained : s.drained = true
        · exact (hlate hdrained).2.2
        · have hlength := hinUse (eq_false_of_ne_true hdrained)
          have hlength : s.dmaPacketsInUse + s.counted = s.packets.length := hlength
          have hroom : s.packets.length ≤ s.counted + layout.numPackets := hroom
          omega
      inUse := hinUse
      late := hlate
      fits := fun _ => hfits
      pc := ⟨hnumber, hd⟩ }
  · have hstopped : s.running = false := eq_false_of_ne_true hrunning
    have hnumber := hok hfull
    rw [if_neg hrunning] at hnumber
    have hdrained : s.drained = false := by rw [WriteStream.drained, hstopped, Bool.and_false]
    exact { h with
      room := hroom
      inUse := hinUse
      late := fun hd => absurd (hdrained.symm.trans hd) Bool.false_ne_true
      fits := fun _ => hfits
      pc := by
        refine ⟨hstopped, ?_, Nat.zero_le _, Nat.zero_le _, hd, hnumber⟩
        rw [hempty hstopped]
        rfl }

theorem prime (h : WriteInv layout s) {d k : Nat} (hpc : s.pc = .prime d k)
    (startSucceeds : Bool) : WriteInv layout (s.advance layout startSucceeds) := by
  have hinUse := h.inUse
  have hinv := h.pc
  rw [hpc] at hinUse
  rw [PcInv, hpc] at hinv
  have hne : s.pc ≠ .idle := hpc ▸ WritePc.noConfusion
  have hfits := h.fits hne
  obtain ⟨hstopped, rfl, hkd, hkn, hd, hnumber⟩ := hinv
  have hpos := numPackets_pos layout
  have hdrained : s.drained = false := by rw [WriteStream.drained, hstopped, Bool.and_false]
  unfold WriteStream.advance
  rw [hpc]
  dsimp only
  split_ifs with hmore
  · have hroom : s.packets.length < s.counted + layout.numPackets := by omega
    have hlength : (List.replicate layout.samplesPerPacket silence).length =
        layout.samplesPerPacket := List.length_replicate
    have hwrite := h.write_eq hroom
      (show 0 + layout.samplesPerPacket ≤ layout.samplesPerPacket by omega) s rfl
      (silenceToPWM s.dmaBuffer
        (s.packets.length % layout.numPackets * layout.samplesPerPacket) layout.samplesPerPacket)
    rw [Nat.add_zero, silenceToPWM_eq] at hwrite
    rw [silenceToPWM_eq, hwrite]
    refine h.fill hroom hlength (by rw [hpc]; rfl) (by rw [hpc]; rfl) hne ?_
    refine ⟨hstopped, rfl, hmore.1, hmore.2, hd, hnumber, ?_⟩
    have hread := slice_put s.dmaBuffer
      (s.packets.length % layout.numPackets * layout.samplesPerPacket)
      (List.replicate layout.samplesPerPacket silence)
    rw [hlength] at hread
    exact hread
  · exact { h with
      room := by
        show s.packets.length + 1 ≤ s.counted + layout.numPackets
        omega
      inUse := hinUse
      late := fun hd => absurd (hdrained.symm.trans hd) Bool.false_ne_true
      fits := fun _ => hfits
      pc := by
        refine ⟨?_, hd⟩
        show d % layout.numPackets = s.packets.length % layout.numPackets
        by_cases hall : s.packets.length = d
        · rw [hall]
        · -- the silence ends in front of the last slot
          have hlast : s.packets.length = layout.numPackets - 1 := by omega
          rcases hnumber with hlt | hmod
          · omega
          · rw [hmod, hlast, Nat.mod_eq_of_lt (by omega)] }

theorem primed (h : WriteInv layout s) {d k : Nat} (hpc : s.pc = .primed d k)
    (startSucceeds : Bool) : WriteInv layout (s.advance layout startSucceeds) := by
  have hinv := h.pc
  rw [PcInv, hpc] at hinv
  obtain ⟨hstopped, hlength, hkd, hkn, hd, hnumber, hsilence⟩ := hinv
  have hdrained : s.drained = false := by rw [WriteStream.drained, hstopped, Bool.and_false]
  unfold WriteStream.advance
  rw [hpc]
  refine h.link (by rw [hlength]) (fun c hc => by cases hc) hsilence (by rw [hpc]; rfl)
    (by rw [hpc]; rfl) (fun hd => absurd (hdrained.symm.trans hd) Bool.false_ne_true)
    ⟨rfl, rfl, rfl⟩ ?_
  refine ⟨hstopped, ?_, hkd, hkn, hd, hnumber⟩
  show (s.packets ++ [_]).length = k + 1
  rw [List.length_append, hlength]
  rfl

theorem primeLinked (h : WriteInv layout s) {d k : Nat} (hpc : s.pc = .primeLinked d k)
    (startSucceeds : Bool) : WriteInv layout (s.advance layout startSucceeds) := by
  have hinv := h.pc
  rw [PcInv, hpc] at hinv
  obtain ⟨hstopped, hlength, hkd, hkn, hd, hnumber⟩ := hinv
  unfold WriteStream.advance
  rw [hpc]
  refine h.increment (by rw [hpc]; rfl) ⟨rfl, rfl, rfl⟩ ?_
  exact ⟨hstopped, hlength, hkd, Nat.succ_le_of_lt hkn, hd, hnumber⟩

theorem copy (h : WriteInv layout s) {d : Nat} (hpc : s.pc = .copy d)
    (startSucceeds : Bool) : WriteInv layout (s.advance layout startSucceeds) := by
  have hroom := h.room
  have hinv := h.pc
  rw [hpc] at hroom
  rw [PcInv, hpc] at hinv
  obtain ⟨hslot, hd⟩ := hinv
  have hne : s.pc ≠ .idle := hpc ▸ WritePc.noConfusion
  have hfits := h.fits hne
  have hlength : (s.call.samples layout).length = layout.samplesPerPacket := by
    rw [WriteCall.samples, List.length_append, List.length_map, length_slice,
      List.length_replicate]
    omega
  unfold WriteStream.advance
  rw [hpc]
  dsimp only
  rw [h.copyPacket_eq hroom hfits hslot]
  refine h.fill hroom hlength (by rw [hpc]; rfl) (by rw [hpc]; rfl) hne ?_
  refine ⟨hslot, hd, ?_⟩
  have hread := slice_put s.dmaBuffer
    (s.packets.length % layout.numPackets * layout.samplesPerPacket) (s.call.samples layout)
  rw [hlength] at hread
  rw [hslot]
  exact hread

theorem copied (h : WriteInv layout s) {d : Nat} (hpc : s.pc = .copied d)
    (startSucceeds : Bool) : WriteInv layout (s.advance layout startSucceeds) := by
  have hinv := h.pc
  rw [PcInv, hpc] at hinv
  obtain ⟨hslot, hd, hsamples⟩ := hinv
  have hsamples : slice s.dmaBuffer (d % layout.numPackets * layout.samplesPerPacket)
      layout.samplesPerPacket =
        (Packet.mk (d % layout.numPackets) (some s.call)).samples layout := hsamples
  unfold WriteStream.advance
  rw [hpc]
  refine h.link hslot (fun c hc => ?_) hsamples (by rw [hpc]; rfl) (by rw [hpc]; rfl)
    (fun _ => by rw [hpc]; rfl) ⟨rfl, rfl, rfl⟩ ?_
  · obtain rfl := Option.some.inj hc
    rw [hd]
  · exact ⟨_, List.getLast?_concat, rfl⟩

theorem linked (h : WriteInv layout s) {d : Nat} (hpc : s.pc = .linked d)
    (startSucceeds : Bool) : WriteInv layout (s.advance layout startSucceeds) := by
  have hadded := h.pc
  rw [PcInv, hpc] at hadded
  unfold WriteStream.advance
  rw [hpc]
  dsimp only
  split_ifs with hrunning
  · refine h.increment (by rw [hpc]; rfl) ⟨rfl, rfl, rfl⟩ ?_
    refine ⟨fun hr => absurd (hr.symm.trans hrunning) Bool.false_ne_true,
      fun r _ _ => hadded, fun r hr => ?_⟩
    obtain rfl := Option.some.inj hr
    exact fun hrejected => by cases hrejected
  · refine h.increment (by rw [hpc]; rfl) ⟨rfl, rfl, rfl⟩ ?_
    exact ⟨eq_false_of_ne_true hrunning, hadded⟩

/-- **A step of a call.** -/
theorem advance (h : WriteInv layout s) (hne : s.pc ≠ .idle) {startSucceeds : Bool}
    (hok : Fitting layout s (.advance startSucceeds)) :
    WriteInv layout (s.advance layout startSucceeds) := by
  cases hpc : s.pc with
  | idle => exact absurd hpc hne
  | entered => exact h.entered hpc startSucceeds
  | checkRoom d => exact h.checkRoom hpc hok
  | prime d k => exact h.prime hpc startSucceeds
  | primed d k => exact h.primed hpc startSucceeds
  | primeLinked d k => exact h.primeLinked hpc startSucceeds
  | copy d => exact h.copy hpc startSucceeds
  | copied d => exact h.copied hpc startSucceeds
  | linked d => exact h.linked hpc startSucceeds
  | start =>
    rw [Fitting, hpc] at hok
    obtain rfl : startSucceeds = true := hok
    exact h.start hpc

/-- A call is made. -/
theorem call (h : WriteInv layout s) (hpc : s.pc = .idle) {call : WriteCall}
    (hfits : call.sampleCount layout ≤ layout.samplesPerPacket) :
    WriteInv layout (s.effect layout (.call call)) := by
  have hroom := h.room
  have hinUse := h.inUse
  have hlate := h.late
  have hinv := h.pc
  rw [hpc] at hroom hinUse hlate
  rw [PcInv, hpc] at hinv
  exact { h with
    room := hroom
    inUse := hinUse
    late := hlate
    fits := fun _ => hfits
    pc := ⟨hinv.1, rfl⟩ }

/-- **One step.** -/
theorem step (h : WriteInv layout s) {a : WriteAction} (hok : Fitting layout s a)
    (hen : s.enabled a) : WriteInv layout (s.effect layout a) := by
  cases a with
  | call call => exact h.call hen.1 hok
  | advance startSucceeds => exact h.advance hen hok
  | complete => exact h.complete hen hok
  | count processedPackets => exact h.countPackets hen.1 hen.2
  | underflow => exact h.handleUnderflow hen hok

/-- The slots are as they are claimed to be. -/
theorem sound (h : WriteInv layout s) : WriteSound layout s where
  outside := h.outside
  clash := h.clash
  slots := h.slots
  numbers := h.numbers
  samples packet hp := by
    obtain ⟨p, hle, -, hget, hslot⟩ := h.of_mem_pending hp
    rw [hslot]
    exact h.samples p packet hle hget
  chain packet hp := by
    obtain ⟨p, hle, hlt, -, hslot⟩ := h.of_mem_pending hp
    rw [hslot]
    exact h.chain p hle hlt
  inUse := h.inUse_le
  queued hpc r hr hqueued := by
    have hinv := h.pc
    rw [PcInv, hpc] at hinv
    exact hinv.2.1 r hr hqueued
  rejected hpc r hr hrejected := by
    have hinv := h.pc
    rw [PcInv, hpc] at hinv
    exact hinv.2.2 r hr hrejected

end WriteInv

theorem writeInv_init (h : s.Initial layout) : WriteInv layout s where
  outside := h.outside
  clash := h.clash
  counted := by rw [h.counted, h.completed]
  completed := by
    rw [h.completed]
    exact Nat.zero_le _
  room := by
    rw [h.packets, h.pc]
    exact Nat.zero_le _
  ring _ := by
    refine ⟨fun _ => none, fun i _ p => ?_, fun i _ => ?_⟩
    · rw [h.packets]
      constructor
      · exact fun hnone => by cases hnone
      · rintro ⟨-, hlt, -⟩
        exact absurd hlt (Nat.not_lt_zero p)
    · have hodd := layout.cfg.linkPtr_odd i
      rw [h.dmaCb, Config.controlBlocks, if_neg (by omega)]
      rfl
  chain p _ hlt := by
    rw [h.packets] at hlt
    exact absurd hlt (Nat.not_lt_zero p)
  slots p packet hp := by
    rw [h.packets] at hp
    cases hp
  numbers packet hp := by
    rw [h.packets] at hp
    cases hp
  samples p packet _ hp := by
    rw [h.packets] at hp
    cases hp
  inUse _ := by
    rw [h.dmaPacketsInUse, h.counted, h.pc, h.packets]
    rfl
  late hdrained := by
    rw [WriteStream.drained, h.running, Bool.and_false] at hdrained
    cases hdrained
  engine hactive := by
    rw [h.active] at hactive
    cases hactive
  stopped hrunning := by
    rw [h.running] at hrunning
    cases hrunning
  stop _ := h.completed
  restart hprogress := by
    rw [h.restartInProgress] at hprogress
    cases hprogress
  fits hne := absurd h.pc hne
  pc := by
    rw [PcInv, h.pc]
    refine ⟨fun _ => h.packets, fun r hr => ?_, fun r hr => ?_⟩
    · rw [h.result] at hr
      cases hr
    · rw [h.result] at hr
      cases hr

/-! ## Runs -/

/-- **Runs that meet the condition are sound**: every packet is in its slot and linked, and stays
there until it has been played. -/
theorem writeSound_of_fitting (h : (writeMachine layout).Reach (Fitting layout) s) :
    WriteSound layout s := by
  have hinv : WriteInv layout s :=
    h.inv_guarded (fun _ hs => writeInv_init hs) fun _ _ hs hok hen => hs.step hok hen
  exact hinv.sound

/-- A ring of four packets, and two packets in the audio buffer. -/
def fourPackets : Layout where
  cfg :=
    { dmaCbPa := 0x12000
      dmaBufferPa := 0x24000
      memUncachedOffset := 0x40000000
      packetSize := 16384
      linkInfoSize := 8
      dmaCbPa_le := by decide
      dmaBufferPa_le := by decide
      memUncachedOffset_lt := by decide
      lt_packetSize := by decide
      packetSize_le := by decide
      numPackets_le := by decide }
  bufferSize := 16384
  notificationsPerBuffer := 2
  notificationsPerBuffer_pos := by decide
  packetSize_eq := by decide

/-- A call for a full packet. -/
def fullPacket (packetNumber : Nat) : WriteCall := ⟨packetNumber, false, 0, fun _ => 0⟩

/-- The stream before the first call. -/
def notWritten (layout : Layout) : WriteStream where
  dmaBuffer _ := 0
  dmaCb := layout.cfg.controlBlocks
  dmaPacketsInUse := 0
  dmaRestartRequired := false
  active := false
  playing := 0
  running := false
  restartPacketNumber := 0
  restartInProgress := false
  pc := .idle
  call := fullPacket 0
  result := none
  packets := []
  completed := 0
  counted := 0
  touched := false
  outside := false
  clash := false

theorem notWritten_initial (layout : Layout) : (notWritten layout).Initial layout :=
  ⟨rfl, rfl, rfl, rfl, rfl, rfl, rfl, rfl, rfl, rfl, rfl, rfl, rfl⟩

/-- A call, and its steps. -/
def callSteps (call : WriteCall) (steps : Nat) : List WriteAction :=
  .call call :: List.replicate steps (.advance true)

/-- The first packet is packet 1, the second ends the stream, and all are played. The call after the
underflow begins a restart, and the one after that is the first again. -/
def underflowCalls : List WriteAction :=
  callSteps (fullPacket 1) 10 ++ [WriteAction.complete, .count 1] ++
    callSteps ⟨2, true, 100, fun _ => 0⟩ 5 ++ [WriteAction.complete, .complete, .underflow] ++
    callSteps (fullPacket 3) 1 ++ callSteps (fullPacket 4) 10

theorem writeSound_of_fitting_underflow :
    ∃ s, (writeMachine fourPackets).Reach (Fitting fourPackets) s ∧
      (s.packets.length = 2 ∧ s.result = some (4, .queued) ∧ s.active = true) ∧
        WriteSound fourPackets s := by
  obtain ⟨s, hrun, hs⟩ := (writeMachine fourPackets).reach_execOk_any (Fitting fourPackets)
    underflowCalls (s := notWritten fourPackets)
    (p := fun s => decide (s.packets.length = 2 ∧ s.result = some (4, .queued) ∧ s.active = true))
    (notWritten_initial fourPackets) (by decide +kernel)
  exact ⟨s, hrun, of_decide_eq_true hs, writeSound_of_fitting hrun⟩

/-- **The first packet overwrites the silence**: its number is the size of the ring, and so it is in
slot 0, which has been linked. -/
theorem first_packet_too_large :
    ¬ ∀ (layout : Layout) (s : WriteStream), (writeMachine layout).Reachable s →
      WriteSound layout s := by
  intro h
  obtain ⟨s, hrun, hs⟩ := (writeMachine fourPackets).reach_exec_any
    (callSteps (fullPacket 4) 16) (s := notWritten fourPackets)
    (p := fun s => s.clash && decide (s.result = some (4, .queued)))
    (notWritten_initial fourPackets) (by decide +kernel)
  have hclash := (h _ s hrun).clash
  rw [(Bool.and_eq_true_iff.1 hs).1] at hclash
  cases hclash

end RpiDrivers.PwmAudio
