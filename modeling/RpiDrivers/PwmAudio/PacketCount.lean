import RpiDrivers.PwmAudio.PacketRing

/-!
# Counting audio packets

Between the packets that have been counted and those that have been linked there are never more than
the ring holds (`Inv.room`), so that the registers tell how many have completed.

- `accountingSound_of_accounted`: **runs that meet the condition are sound**.
- `second_control_block`: the interrupt is late, and counts the packet in progress.
-/

namespace RpiDrivers.PwmAudio

open RpiDrivers.Lib

/-! ## The invariant -/

/-- What the interrupt has read. -/
def Isr.read : Isr → Option (Nat × Nat)
  | .idle => none
  | .conblk conblkAd upTo | .cs conblkAd upTo _ _ | .acknowledged conblkAd upTo _ =>
    some (conblkAd, upTo)

/-- An underflow has been counted, and the audio driver has not processed it. -/
def Pwm.drained (s : Pwm) : Bool := s.dmaRestartRequired && !s.restartInProgress

structure Inv (cfg : Config) (s : Pwm) : Prop where
  blocks : Blocks cfg s.dmaCb
  counts : ∀ c ∈ s.counts, c.added = c.completed
  unlinked : ∀ c ∈ s.counts, ∀ p ∈ c.unlinked, p < c.engine
  processed : s.dmaPacketsProcessed = (s.before + s.counted) % 0x100000000
  inUse : s.dmaPacketsInUse + s.counted = s.added
  asserted : s.asserted = true
  counted : s.counted ≤ s.completed
  completed : s.completed ≤ s.linked
  linked : s.linked = if s.audio = .linked then s.added + 1 else s.added
  /-- the ring has room for the packet that is about to be linked -/
  room : s.linked + (if s.audio = .checked then 1 else 0) ≤ s.counted + cfg.dmaNumPackets
  active : s.active = true → s.conblkAd.address ≠ 0
  /-- the engine is on a packet that is linked -/
  engine : s.conblkAd.address ≠ 0 →
    s.conblkAd.cb / 2 = s.completed % cfg.dmaNumPackets ∧ s.completed < s.linked ∧
      s.running = true ∧ s.drained = false
  stopped : s.running = false → s.conblkAd.address = 0 ∧ s.completed = 0
  starting : s.audio = .starting →
    s.running = false ∧ 0 < s.linked ∧ s.dmaRestartRequired = false ∧ s.restartInProgress = false
  restart : s.restartInProgress = true → s.running = false
  ring : s.drained = false → Ring cfg s.dmaCb s.owner s.counted s.linked
  last : s.drained = false → s.running = true →
    s.dmaLastKnownCompletedPacket = lastKnown cfg.dmaNumPackets s.counted
  drained : s.drained = true → s.running = true ∧ s.counted = s.completed
  isr : ∀ r ∈ s.isr.read,
    r.2 ≤ s.before + s.completed ∧ (r.1 ≠ 0 → r.2 ≤ s.before + s.added)

namespace Inv

variable {cfg : Config} {s : Pwm}

/-- There is a completed packet that has not been counted, so that the engine has run and no
underflow has been counted. -/
theorem of_uncounted (h : Inv cfg s) (hlt : s.counted < s.completed) :
    s.running = true ∧ s.restartInProgress = false ∧ s.drained = false := by
  have hrunning : s.running = true := by
    by_contra hstopped
    have hzero := (h.stopped (Bool.not_eq_true _ ▸ hstopped)).2
    omega
  have hrestart : s.restartInProgress = false := by
    by_contra hrestart
    have hstopped := h.restart (Bool.not_eq_false _ ▸ hrestart)
    rw [hrunning] at hstopped
    exact Bool.noConfusion hstopped
  refine ⟨hrunning, hrestart, ?_⟩
  by_contra hdrained
  have heq := (h.drained (Bool.not_eq_false _ ▸ hdrained)).2
  omega

/-- No more packets are in use than the ring holds. -/
theorem inUse_le (h : Inv cfg s) : s.dmaPacketsInUse ≤ 65536 := by
  have hroom := h.room
  have hlinked := h.linked
  have hinUse := h.inUse
  have hmax := cfg.dmaNumPackets_le
  split_ifs at hlinked <;> omega

/-! ### The audio driver -/

/-- There is room for a packet. -/
theorem checked (h : Inv cfg s) (haudio : s.audio = .idle)
    (hroom : s.linked < s.counted + cfg.dmaNumPackets) :
    Inv cfg { s with audio := .checked } := by
  have hlinked := h.linked
  rw [if_neg (by rw [haudio]; decide)] at hlinked
  exact { h with linked := hlinked, room := hroom, starting := fun hs => (nomatch hs) }

theorem check (h : Inv cfg s) (hen : s.enabled cfg .check) :
    Inv cfg { s with audio := .checked } := by
  obtain ⟨haudio, -, hfree⟩ := hen
  have hlinked := h.linked
  rw [if_neg (by rw [haudio]; decide)] at hlinked
  refine h.checked haudio ?_
  have hroom := h.room
  have hinUse := h.inUse
  have hcounted := h.counted
  by_cases hrunning : s.running = true
  · rw [if_pos hrunning] at hfree
    omega
  · have hzero := (h.stopped (Bool.not_eq_true _ ▸ hrunning)).2
    rw [if_neg hrunning] at hfree
    omega

theorem link (h : Inv cfg s) (hen : s.enabled cfg .link) : Inv cfg (s.link cfg) := by
  have haudio : s.audio = .checked := hen
  have hlinked := h.linked
  have hroom := h.room
  have hcounted := h.counted
  have hcompleted := h.completed
  rw [if_neg (by rw [haudio]; decide)] at hlinked
  rw [if_pos haudio] at hroom
  exact { h with
    blocks := h.blocks.setLink _ _
    completed := Nat.le_succ_of_le h.completed
    linked := congrArg (· + 1) hlinked
    room := hroom
    engine := fun hne => by
      obtain ⟨hcb, hlt, hrest⟩ := h.engine hne
      exact ⟨hcb, Nat.lt_succ_of_lt hlt, hrest⟩
    starting := fun hs => (nomatch hs)
    ring := fun hd => (h.ring hd).link (by omega) (by omega) }

theorem increment (h : Inv cfg s) (hen : s.enabled cfg .increment) : Inv cfg s.increment := by
  have haudio : s.audio = .linked := hen
  have hlinked := h.linked
  have hroom := h.room
  have hinUse := h.inUse
  have hmax := h.inUse_le
  rw [if_pos haudio] at hlinked
  rw [if_neg (by rw [haudio]; decide)] at hroom
  refine { h with inUse := ?_, linked := hlinked, room := hroom, starting := fun hs => (nomatch hs),
                  isr := fun r hr => ?_ }
  · show (s.dmaPacketsInUse + 1) % 0x100000000 + s.counted = s.added + 1
    omega
  · obtain ⟨hle, hadded⟩ := h.isr r hr
    refine ⟨hle, fun hne => ?_⟩
    have hlt := hadded hne
    show r.2 ≤ s.before + (s.added + 1)
    omega

theorem restart_step (h : Inv cfg s) (hen : s.enabled cfg .restart) : Inv cfg (s.restart cfg) := by
  obtain ⟨haudio, hprogress, hrequired⟩ := hen
  have hdrained : s.drained = true := by rw [Pwm.drained, hrequired, hprogress]; rfl
  have hstopped : s.conblkAd.address = 0 := by
    by_contra hne
    have hnot := (h.engine hne).2.2.2
    rw [hdrained] at hnot
    exact Bool.noConfusion hnot
  have hcounted := (h.drained hdrained).2
  have hactive : s.active = true → False := fun ha => h.active ha hstopped
  exact { h with
    blocks := h.blocks.unlink _
    processed := by
      have hprocessed := h.processed
      rw [hcounted] at hprocessed
      exact hprocessed
    inUse := rfl
    counted := le_refl _
    completed := le_refl _
    linked := by simp [Pwm.restart, haudio]
    room := by simp [Pwm.restart, haudio]
    active := fun ha => (hactive ha).elim
    engine := fun hne => absurd hstopped hne
    stopped := fun _ => ⟨hstopped, rfl⟩
    starting := fun hs => by
      rw [show s.audio = .starting from hs] at haudio
      exact nomatch haudio
    restart := fun _ => rfl
    ring := fun _ => by
      refine ⟨fun i hi p => ?_, fun i hi => ?_⟩
      · constructor
        · exact fun hnone => nomatch hnone
        · rintro ⟨-, hlt, -⟩
          exact absurd hlt (Nat.not_lt_zero _)
      · exact (nextConbk_unlink hi _ _ fun j hj => List.mem_range.1 hj).trans
          (if_pos (List.mem_range.2 hi))
    last := fun _ hr => nomatch hr
    drained := fun hd => by
      have hnot : (s.restart cfg).drained = false := by simp [Pwm.drained, Pwm.restart]
      rw [hnot] at hd
      exact Bool.noConfusion hd
    isr := fun r hr => by
      obtain ⟨hle, -⟩ := h.isr r hr
      exact ⟨hle, fun _ => hle⟩ }

theorem clearRestart (h : Inv cfg s) (hen : s.enabled cfg .clearRestart) :
    Inv cfg s.clearRestart := by
  obtain ⟨haudio, hrunning, hpos⟩ := hen
  have hlinked := h.linked
  have hroom := h.room
  rw [if_neg (by rw [haudio]; decide)] at hlinked hroom
  have hnot : s.drained = false := by
    by_contra hd
    have hrun := (h.drained (Bool.not_eq_false _ ▸ hd)).1
    rw [hrunning] at hrun
    exact Bool.noConfusion hrun
  have hnot' : s.clearRestart.drained = false := by
    simpa [Pwm.drained, Pwm.clearRestart] using hnot
  exact { h with
    linked := hlinked
    room := hroom
    engine := fun hne => absurd (h.stopped hrunning).1 hne
    starting := fun _ => ⟨hrunning, hpos, hnot, rfl⟩
    restart := fun hr => nomatch hr
    ring := fun _ => h.ring hnot
    last := fun _ => h.last hnot
    drained := fun hd => by
      rw [hnot'] at hd
      exact Bool.noConfusion hd }

theorem startAudio (h : Inv cfg s) (hen : s.enabled cfg .startAudio) :
    Inv cfg (s.startAudio cfg) := by
  have haudio : s.audio = .starting := hen
  obtain ⟨hrunning, hpos, hrequired, hprogress⟩ := h.starting haudio
  have hlinked := h.linked
  have hroom := h.room
  rw [if_neg (by rw [haudio]; decide)] at hlinked hroom
  have hnot : s.drained = false := by rw [Pwm.drained, hrequired]; rfl
  have hzero := (h.stopped hrunning).2
  have hcounted := h.counted
  have hdrained : (s.startAudio cfg).drained = false := rfl
  exact { h with
    linked := hlinked
    room := hroom
    active := fun ha => by
      have hne : cfg.startPointer.address ≠ 0 := of_decide_eq_true ha
      simp only [Pwm.startAudio, if_neg hne]
      exact hne
    engine := fun _ => by
      refine ⟨?_, by rw [show (s.startAudio cfg).completed = 0 from hzero]; exact hpos, rfl,
        hdrained⟩
      have hcb : (s.startAudio cfg).conblkAd.cb = 0 := by
        simp only [Pwm.startAudio]
        split_ifs <;> rfl
      rw [hcb, show (s.startAudio cfg).completed = 0 from hzero, Nat.zero_mod]
    stopped := fun hs => nomatch hs
    starting := fun hs => (nomatch hs)
    restart := fun hr => by
      rw [show (s.startAudio cfg).restartInProgress = false from hprogress] at hr
      exact Bool.noConfusion hr
    ring := fun _ => h.ring hnot
    last := fun _ _ => by
      have hc : (s.startAudio cfg).counted = 0 := by
        show s.counted = 0
        omega
      rw [hc]
      rfl
    drained := fun hd => by
      rw [hdrained] at hd
      exact Bool.noConfusion hd }

/-! ### The DMA engine -/

/-- The second control block is linked to the packet after the one in progress, or to none. -/
theorem next_packet (h : Inv cfg s) (hactive : s.active = true) (hodd : s.conblkAd.cb % 2 = 1)
    (hok : s.completed + 1 = s.linked → s.linked < s.counted + cfg.dmaNumPackets)
    (hne : (s.dmaCb s.conblkAd.cb).nextConbk.address ≠ 0) :
    (s.dmaCb s.conblkAd.cb).nextConbk.cb / 2 = (s.completed + 1) % cfg.dmaNumPackets ∧
      s.completed + 1 < s.linked := by
  obtain ⟨hcb, hlt, hrunning, hnot⟩ := h.engine (h.active hactive)
  have hring := h.ring hnot
  have hslot := Nat.mod_lt (s.completed + 1) cfg.dmaNumPackets_pos
  have hptr : cfg.linkPtr ((s.completed + 1) % cfg.dmaNumPackets) = s.conblkAd.cb := by
    rw [cfg.linkPtr_succ]
    omega
  have hlink := hring.links _ hslot
  rw [hptr] at hlink
  cases howner : s.owner ((s.completed + 1) % cfg.dmaNumPackets) with
  | none =>
    rw [howner] at hlink
    rw [hlink] at hne
    exact absurd rfl hne
  | some p =>
    rw [howner] at hlink
    rw [hlink]
    refine ⟨Nat.mul_div_cancel_left _ (by decide), ?_⟩
    by_contra hlast
    -- the link is an old one, of the packet that is a ring before the next
    obtain ⟨hp, hpl, hmod⟩ := (hring.packets _ hslot p).1 howner
    have hcounted := h.counted
    have heq := eq_of_mod_eq hmod hp (by omega) (by omega) (hok (by omega) |> fun hr => by omega)
    omega

/-- The engine loads a control block when `k` packets have been completed. -/
theorem load (h : Inv cfg s) {cb : DmaCb} {k : Nat} (hle : s.completed ≤ k) (hk : k ≤ s.linked)
    (hrunning : s.running = true) (hnot : s.drained = false)
    (hnext : cb.nextConbk.address ≠ 0 →
      cb.nextConbk.cb / 2 = k % cfg.dmaNumPackets ∧ k < s.linked) (int : Bool) :
    Inv cfg ({ s with int := int, completed := k }.load cb) := by
  have hcounted := h.counted
  have hisr : ∀ r ∈ s.isr.read,
      r.2 ≤ s.before + k ∧ (r.1 ≠ 0 → r.2 ≤ s.before + s.added) := fun r hr => by
    obtain ⟨hread, hadded⟩ := h.isr r hr
    exact ⟨by omega, hadded⟩
  have hstopped : s.running = false → False := fun hs => by
    rw [hrunning] at hs
    exact Bool.noConfusion hs
  have hdrained : s.drained = true → False := fun hd => by
    rw [hnot] at hd
    exact Bool.noConfusion hd
  rw [Pwm.load]
  split_ifs with hzero
  · exact { h with
      counted := by
        show s.counted ≤ k
        omega
      completed := hk
      active := fun ha => nomatch ha
      engine := fun hne => absurd rfl hne
      stopped := fun hs => (hstopped hs).elim
      drained := fun hd => (hdrained hd).elim
      isr := hisr }
  · exact { h with
      counted := by
        show s.counted ≤ k
        omega
      completed := hk
      active := fun _ => hzero
      engine := fun _ => ⟨(hnext hzero).1, (hnext hzero).2, hrunning, hnot⟩
      stopped := fun hs => (hstopped hs).elim
      drained := fun hd => (hdrained hd).elim
      isr := hisr }

theorem finish (h : Inv cfg s) (hen : s.enabled cfg .finish) (hok : Accounted cfg s .finish) :
    Inv cfg s.finish := by
  obtain ⟨hcb, hlt, hrunning, hnot⟩ := h.engine (h.active hen)
  rcases Nat.mod_two_eq_zero_or_one s.conblkAd.cb with heven | hodd
  · -- the first control block, whose link does not change
    have hfirst : s.dmaCb s.conblkAd.cb = cfg.firstCb (s.conblkAd.cb / 2) := by
      rw [← h.blocks.first]
      congr 1
      omega
    have hinten : (s.dmaCb s.conblkAd.cb).inten = false := by
      rw [hfirst]
      rfl
    rw [Pwm.finish, if_neg (by rw [hinten]; decide)]
    refine h.load (le_refl _) (Nat.le_of_lt hlt) hrunning hnot (fun _ => ⟨?_, hlt⟩) s.int
    have hsecond : (s.dmaCb s.conblkAd.cb).nextConbk.cb = 2 * (s.conblkAd.cb / 2) + 1 := by
      rw [hfirst]
      rfl
    rw [hsecond, ← hcb]
    omega
  · -- the second control block, and the packet
    have hinten : (s.dmaCb s.conblkAd.cb).inten = true := by
      have hsecond := h.blocks.second (s.conblkAd.cb / 2)
      rwa [show 2 * (s.conblkAd.cb / 2) + 1 = s.conblkAd.cb by omega] at hsecond
    rw [Pwm.finish, if_pos hinten]
    exact h.load (Nat.le_succ _) hlt hrunning hnot
      (fun hne => h.next_packet hen hodd (hok hinten) hne) true

/-! ### The interrupt and its DPCs -/

/-- The register marks the packet after the last one of `c`, so that those since `counted` are
counted. -/
theorem processed_eq (h : Inv cfg s) {address : Nat → Nat} {value c : Nat}
    (hnot : s.drained = false) (hrunning : s.running = true) (hlt : s.counted < c)
    (hc : c ≤ s.completed) (hm : Marks address cfg.dmaNumPackets value (c % cfg.dmaNumPackets)) :
    previousPacketIndex (scanPackets address value 0 cfg.dmaNumPackets) cfg.dmaNumPackets =
        (c - 1) % cfg.dmaNumPackets ∧
      getNumberOfProcessedPackets ((c - 1) % cfg.dmaNumPackets) s.dmaLastKnownCompletedPacket
        cfg.dmaNumPackets = c - s.counted ∧ c - s.counted ≤ cfg.dmaNumPackets := by
  have hn := cfg.dmaNumPackets_pos
  have hcompleted := h.completed
  have hroom := h.room
  have hsucc : c - 1 + 1 = c := by omega
  refine ⟨?_, ?_, by omega⟩
  · rw [← hsucc] at hm
    exact previousPacketIndex_scan hn hm
  · rw [h.last hnot hrunning,
      getNumberOfProcessedPackets_eq hn cfg.dmaNumPackets_le (by omega) (by omega), hsucc]

theorem packetAsserted_eq {c k : Nat} (hk : 0 < k) (hle : k ≤ cfg.dmaNumPackets) :
    Pwm.packetAsserted cfg (c % cfg.dmaNumPackets) k = true := by
  have hlt := Nat.mod_lt c cfg.dmaNumPackets_pos
  simp only [Pwm.packetAsserted, Bool.and_eq_true, decide_eq_true_eq]
  omega

/-- All packets that have been added are counted, and no more can be until a restart. -/
theorem underflow (h : Inv cfg s) (hstopped : s.conblkAd.address = 0)
    (hlt : s.counted < s.completed) (hadded : s.added = s.completed) (hsource : s.sourceAd ≠ 0)
    (hle : s.completed - s.counted ≤ cfg.dmaNumPackets) :
    Inv cfg
      (s.underflow cfg ((s.completed - 1) % cfg.dmaNumPackets) (s.completed - s.counted)) := by
  obtain ⟨hrunning, hprogress, hnot⟩ := h.of_uncounted hlt
  have hlinked := h.linked
  have hn := cfg.dmaNumPackets_pos
  -- the engine has drained, so the ring need not be right any more
  have hdrained : (s.underflow cfg ((s.completed - 1) % cfg.dmaNumPackets)
      (s.completed - s.counted)).drained = true := by
    simp [Pwm.drained, Pwm.underflow, hprogress]
  exact { h with
    counts := fun c hc => by
      rcases List.mem_append.1 hc with hs | hnew
      · exact h.counts c hs
      · rw [List.mem_singleton.1 hnew]
    unlinked := fun c hc p hp => by
      rcases List.mem_append.1 hc with hs | hnew
      · exact h.unlinked c hs p hp
      · rw [List.mem_singleton.1 hnew] at hp
        exact nomatch hp
    processed := by
      have hprocessed := h.processed
      show (s.dmaPacketsProcessed + (s.completed - s.counted)) % 0x100000000 =
        (s.before + s.completed) % 0x100000000
      omega
    inUse := by
      show 0 + s.completed = s.added
      omega
    asserted := by
      show (s.asserted && decide (s.sourceAd ≠ 0) && Pwm.packetAsserted cfg _ _) = true
      rw [h.asserted, decide_eq_true hsource, packetAsserted_eq (by omega) hle]
      rfl
    counted := le_refl _
    room := by
      show s.linked + (if s.audio = .checked then 1 else 0) ≤ s.completed + cfg.dmaNumPackets
      cases haudio : s.audio <;> rw [haudio] at hlinked <;> simp at hlinked ⊢ <;> omega
    engine := fun hne => absurd hstopped hne
    starting := fun hs => by
      have hstart := (h.starting hs).1
      rw [hrunning] at hstart
      exact Bool.noConfusion hstart
    ring := fun hd => by
      rw [hdrained] at hd
      exact Bool.noConfusion hd
    last := fun hd => by
      rw [hdrained] at hd
      exact Bool.noConfusion hd
    drained := fun _ => ⟨hrunning, rfl⟩ }

theorem handleUnderflow (h : Inv cfg s) (hok : s.conblkAd.address = 0 → UnderflowAccounted cfg s) :
    Inv cfg (s.handleUnderflow cfg) := by
  by_cases hstopped : s.conblkAd.address = 0
  · obtain ⟨hlt, hadded, hsource, hm⟩ := hok hstopped
    obtain ⟨hrunning, _, hnot⟩ := h.of_uncounted hlt
    obtain ⟨hpacket, hcount, hle⟩ := h.processed_eq hnot hrunning hlt (le_refl _) hm
    have hunderflow := h.underflow hstopped hlt hadded hsource hle
    rw [← hcount, ← hpacket] at hunderflow
    rw [Pwm.handleUnderflow, if_neg (not_not.2 hstopped)]
    exact hunderflow
  · rw [Pwm.handleUnderflow, if_pos hstopped]
    exact h

/-- The packets up to `c` are unlinked. -/
theorem unlinkPackets (h : Inv cfg s) {conblkAd c : Nat} (hne : conblkAd ≠ 0)
    (hnot : s.drained = false) (hlt : s.counted < c) (hle : c ≤ s.completed) (hadded : c ≤ s.added)
    (hmax : c - s.counted ≤ cfg.dmaNumPackets) :
    Inv cfg (s.unlinkPackets cfg conblkAd (s.before + c) ((c - 1) % cfg.dmaNumPackets)
      (c - s.counted)) := by
  have hring := h.ring hnot
  have hcompleted := h.completed
  have hroom := h.room
  have hinUse := h.inUse
  have hbound := h.inUse_le
  have hdrop : s.before + c - s.before = c := Nat.add_sub_cancel_left _ _
  -- the indices are those of the packets that are counted now
  have hmem : ∀ i, i ∈ packetsToUnlink cfg.dmaNumPackets ((c - 1) % cfg.dmaNumPackets)
      (c - s.counted) ↔ ∃ p, s.counted ≤ p ∧ p < c ∧ p % cfg.dmaNumPackets = i := by
    have hsub : c - (c - s.counted) = s.counted := by omega
    intro i
    rw [mem_packetsToUnlink cfg.dmaNumPackets_pos (fun _ => rfl) (Nat.sub_le _ _), hsub]
  have hlinked : s.linked ≤ s.counted + cfg.dmaNumPackets := by omega
  rw [Pwm.unlinkPackets, hdrop]
  exact { h with
    blocks := h.blocks.unlink _
    counts := fun e he => by
      rcases List.mem_append.1 he with hs | hnew
      · exact h.counts e hs
      · rw [List.mem_singleton.1 hnew]
        show c - s.counted = s.before + c - (s.before + s.counted)
        omega
    unlinked := fun e he p hp => by
      rcases List.mem_append.1 he with hs | hnew
      · exact h.unlinked e hs p hp
      · rw [List.mem_singleton.1 hnew] at hp ⊢
        have hpc := hring.owner_lt (Nat.le_trans hle hcompleted) hlinked hmem p hp
        exact Nat.lt_of_lt_of_le hpc hle
    processed := by
      have hprocessed := h.processed
      show (s.dmaPacketsProcessed + (c - s.counted)) % 0x100000000 =
        (s.before + c) % 0x100000000
      omega
    inUse := by
      have hmax' := cfg.dmaNumPackets_le
      show (s.dmaPacketsInUse + (0x100000000 - (c - s.counted))) % 0x100000000 + c = s.added
      omega
    asserted := by
      show (s.asserted && decide (conblkAd ≠ 0) && Pwm.packetAsserted cfg _ _) = true
      rw [h.asserted, decide_eq_true hne, packetAsserted_eq (by omega) hmax]
      rfl
    counted := hle
    room := by
      show s.linked + (if s.audio = .checked then 1 else 0) ≤ c + cfg.dmaNumPackets
      omega
    ring := fun _ => hring.unlink (Nat.le_of_lt hlt) hlinked hmem
    last := fun _ _ => by
      show (c - 1) % cfg.dmaNumPackets = lastKnown cfg.dmaNumPackets c
      rw [lastKnown, if_neg (by omega)]
    drained := fun hd => by
      have hdrained : s.drained = true := hd
      rw [hnot] at hdrained
      exact Bool.noConfusion hdrained }

/-- The interrupt counts the packets that had completed when it read `CONBLK_AD`. -/
theorem countPackets (h : Inv cfg s) {conblkAd upTo : Nat} {active : Bool}
    (hisr : s.isr = .acknowledged conblkAd upTo active) (hne : conblkAd ≠ 0)
    (hlt : s.before + s.counted < upTo)
    (hm : Marks cfg.firstCbAddress cfg.dmaNumPackets conblkAd
      ((upTo - s.before) % cfg.dmaNumPackets)) : Inv cfg (s.countPackets cfg conblkAd upTo) := by
  have hread : (conblkAd, upTo) ∈ s.isr.read := by
    rw [hisr]
    rfl
  obtain ⟨hcompleted, hadded⟩ := h.isr _ hread
  have hadded := hadded hne
  obtain ⟨c, rfl⟩ : ∃ c, upTo = s.before + c := ⟨upTo - s.before, by omega⟩
  rw [Nat.add_sub_cancel_left] at hm
  have hlt := Nat.lt_of_add_lt_add_left hlt
  have hcompleted : c ≤ s.completed := Nat.le_of_add_le_add_left hcompleted
  have hadded : c ≤ s.added := Nat.le_of_add_le_add_left hadded
  obtain ⟨hrunning, _, hnot⟩ := h.of_uncounted (Nat.lt_of_lt_of_le hlt hcompleted)
  obtain ⟨hpacket, hcount, hmax⟩ := h.processed_eq hnot hrunning hlt hcompleted hm
  have hunlink := h.unlinkPackets hne hnot hlt hcompleted hadded hmax
  rw [← hcount, ← hpacket] at hunlink
  exact hunlink

theorem processInterrupt (h : Inv cfg s) {conblkAd upTo : Nat} {active : Bool}
    (hen : s.enabled cfg (.processInterrupt conblkAd upTo active))
    (hok : Accounted cfg s (.processInterrupt conblkAd upTo active)) :
    Inv cfg (s.processInterrupt cfg conblkAd upTo active) := by
  cases active with
  | true =>
    obtain ⟨hne, hlt, hm⟩ := hok
    have hcount := h.countPackets hen hne hlt hm
    exact { hcount with isr := fun r hr => (nomatch hr) }
  | false =>
    obtain ⟨hzero, hunderflow⟩ := hok
    have hasserted : Inv cfg { s with asserted := s.asserted && decide (conblkAd = 0) } :=
      { h with
        asserted := by
          show (s.asserted && decide (conblkAd = 0)) = true
          rw [h.asserted, decide_eq_true hzero]
          rfl }
    have hhandled := hasserted.handleUnderflow hunderflow
    exact { hhandled with isr := fun r hr => (nomatch hr) }

theorem effect (h : Inv cfg s) {a : PwmAction} (hen : s.enabled cfg a) (hok : Accounted cfg s a) :
    Inv cfg (s.effect cfg a) := by
  cases a with
  | progress x => exact { h with }
  | finish => exact h.finish hen hok
  | check => exact h.check hen
  | link => exact h.link hen
  | increment => exact h.increment hen
  | restart => exact h.restart_step hen
  | clearRestart => exact h.clearRestart hen
  | startAudio => exact h.startAudio hen
  | readConblk =>
    refine { h with isr := fun r hr => ?_ }
    obtain rfl := Option.some.inj hr
    refine ⟨le_refl _, fun hne => ?_⟩
    have hlt := (h.engine hne).2.1
    have hlinked := h.linked
    show s.before + s.completed ≤ s.before + s.added
    split_ifs at hlinked <;> omega
  | readCs conblkAd upTo =>
    have hisr : s.isr = .conblk conblkAd upTo := hen
    exact { h with isr := fun r hr => h.isr r (by rw [hisr]; exact hr) }
  | acknowledge conblkAd upTo int active =>
    have hisr : s.isr = .cs conblkAd upTo int active := hen
    refine { h with active := fun ha => ?_, isr := fun r hr => ?_ }
    · exact of_decide_eq_true (Bool.and_eq_true _ _ ▸ ha).2
    · cases int with
      | false => exact nomatch hr
      | true => exact h.isr r (by rw [hisr]; exact hr)
  | processInterrupt conblkAd upTo active => exact h.processInterrupt hen hok
  | readDpc => exact { h with }
  | handleUnderflow =>
    have hhandled := h.handleUnderflow hok
    exact { hhandled with }

end Inv

theorem inv_start (cfg : Config) : Inv cfg (Pwm.start cfg) := by
  have hblocks : Blocks cfg cfg.controlBlocks := by
    refine ⟨fun i => ?_, fun i => ?_⟩
    · rw [Config.controlBlocks, if_pos (by omega), Nat.mul_div_cancel_left i (by decide)]
    · rw [Config.controlBlocks, if_neg (by omega)]
      rfl
  have hring : Ring cfg cfg.controlBlocks (fun _ => none) 0 0 := by
    refine ⟨fun i _ p => ?_, fun i _ => ?_⟩
    · constructor
      · exact fun hnone => nomatch hnone
      · rintro ⟨-, hlt, -⟩
        exact absurd hlt (Nat.not_lt_zero p)
    · have hodd := cfg.linkPtr_odd i
      rw [Config.controlBlocks, if_neg (by omega)]
      rfl
  exact {
    blocks := hblocks
    counts := fun c hc => nomatch hc
    unlinked := fun c hc => nomatch hc
    processed := rfl
    inUse := rfl
    asserted := rfl
    counted := le_refl _
    completed := le_refl _
    linked := rfl
    room := Nat.zero_le _
    active := fun ha => nomatch ha
    engine := fun hne => absurd rfl hne
    stopped := fun _ => ⟨rfl, rfl⟩
    starting := fun hs => nomatch hs
    restart := fun hr => nomatch hr
    ring := fun _ => hring
    last := fun _ hr => nomatch hr
    drained := fun hd => nomatch hd
    isr := fun r hr => nomatch hr }

/-! ## Runs -/

/-- **Runs that meet the condition are sound**. -/
theorem accountingSound_of_accounted {cfg : Config} {s : Pwm}
    (h : (pwmMachine cfg).Reach (Accounted cfg) s) : AccountingSound s := by
  have hinv : Inv cfg s := by
    refine Machine.Reach.inv_guarded (fun s hs => ?_) (fun s a hinv hok hen => ?_) h
    · rw [hs]
      exact inv_start cfg
    · exact hinv.effect hen hok
  exact ⟨hinv.counts, hinv.unlinked, hinv.processed, hinv.inUse, hinv.asserted⟩

/-- A ring of two packets, with the bus addresses of a Raspberry Pi 2. -/
def twoPackets : Config where
  dmaCbPa := 0x10000
  dmaBufferPa := 0x20000
  memUncachedOffset := 0xC0000000
  packetSize := 32768
  linkInfoSize := 8
  dmaCbPa_le := by decide
  dmaBufferPa_le := by decide
  memUncachedOffset_lt := by decide
  lt_packetSize := by decide
  packetSize_le := by decide
  numPackets_le := by decide

/-- A packet is added. -/
def addPacket : List PwmAction := [.check, .link, .increment]

/-- Two packets are added, and the DMA is started. -/
def startTwo : List PwmAction := addPacket ++ addPacket ++ [PwmAction.clearRestart, .startAudio]

/-- The interrupt, when it reads these values. -/
def interrupt (conblkAd upTo : Nat) (active : Bool) : List PwmAction :=
  [.readConblk, .readCs conblkAd upTo, .acknowledge conblkAd upTo true active,
    .processInterrupt conblkAd upTo active, .readDpc]

/-- The interrupt counts packet 0, the DMA stops after packet 1, and is restarted. -/
def underflowRun : List PwmAction :=
  startTwo ++ [PwmAction.finish, .finish] ++ interrupt 0x10040 1 true ++
    [PwmAction.progress 16, .finish, .finish] ++ interrupt 0 2 false ++
    [PwmAction.restart] ++ startTwo

theorem accountingSound_of_accounted_underflow :
    ∃ s, (pwmMachine twoPackets).Reach (Accounted twoPackets) s ∧
      s.counts = [⟨1, 1, [0], 1⟩, ⟨1, 1, [], 2⟩] ∧ AccountingSound s :=
  have h := (pwmMachine twoPackets).reach_execOk_get (Accounted twoPackets) underflowRun
    (s := Pwm.start twoPackets) rfl (by rfl)
  ⟨_, h, by rfl, accountingSound_of_accounted h⟩

/-- **The packet in progress is counted**: the interrupt is late, and `CONBLK_AD` is at the second
control block of packet 1. -/
theorem second_control_block :
    ¬ ∀ s, (pwmMachine twoPackets).Reachable s → AccountingSound s := by
  intro h
  have hrun := (pwmMachine twoPackets).reach_exec_get
    (startTwo ++ [.finish, .finish, .finish] ++ interrupt 0xC0010060 1 true)
    (s := Pwm.start twoPackets) rfl (by rfl)
  exact absurd (h _ hrun).counts (by decide)

end RpiDrivers.PwmAudio
