import RpiDrivers.PwmAudio.Playback

/-!
# The play position

The packets that have been linked are at most one more than those the client has written
(`PlayInv.linked`): the silence before the first packet. A restart drops a packet for its own.

- `positionSound_of_regular`: **runs that meet the condition report the right position**.
- `position_ahead`: the interrupt is late, and the position is ahead by a packet.
- `position_lt`: every position has 32 bits, so that it is wrong from `2 ^ 32` bytes on
  (`not_positionSound_of_le`). `positionInBlocks_eq`: the position in blocks does not overflow.
-/

namespace RpiDrivers.PwmAudio

open RpiDrivers.Lib

/-! ## What the DMA and its interrupt change -/

/-- What is the audio driver's is the same. -/
structure Pwm.SameDriver (s t : Pwm) : Prop where
  running : t.running = s.running
  linked : t.linked = s.linked
  before : t.before = s.before
  audio : t.audio = s.audio

namespace Pwm

variable {cfg : Config}

theorem sameDriver_load (s : Pwm) (cb : DmaCb) : s.SameDriver (s.load cb) := by
  unfold Pwm.load
  split <;> exact ⟨rfl, rfl, rfl, rfl⟩

theorem counted_load (s : Pwm) (cb : DmaCb) : (s.load cb).counted = s.counted := by
  unfold Pwm.load
  split <;> rfl

theorem sameDriver_handleUnderflow (cfg : Config) (s : Pwm) :
    s.SameDriver (s.handleUnderflow cfg) := by
  unfold Pwm.handleUnderflow
  split <;> exact ⟨rfl, rfl, rfl, rfl⟩

theorem counted_le_handleUnderflow {s : Pwm} (h : s.counted ≤ s.completed) :
    s.counted ≤ (s.handleUnderflow cfg).counted := by
  unfold Pwm.handleUnderflow
  split
  · exact le_refl _
  · exact h

/-- The DMA and its interrupt link no packet, and do not start or restart. -/
theorem sameDriver_effect (cfg : Config) (s : Pwm) {a : PwmAction} (ha : a.isAudio = false) :
    s.SameDriver (s.effect cfg a) := by
  cases a with
  | check | link | increment | restart | clearRestart | startAudio => exact Bool.noConfusion ha
  | progress x => exact ⟨rfl, rfl, rfl, rfl⟩
  | finish =>
    show s.SameDriver s.finish
    unfold Pwm.finish
    dsimp only
    split
    · obtain ⟨hrunning, hlinked, hbefore, haudio⟩ := sameDriver_load
        { s with int := true, completed := s.completed + 1 } (s.dmaCb s.conblkAd.cb)
      exact ⟨hrunning, hlinked, hbefore, haudio⟩
    · exact sameDriver_load _ _
  | readConblk | readDpc => exact ⟨rfl, rfl, rfl, rfl⟩
  | readCs conblkAd upTo => exact ⟨rfl, rfl, rfl, rfl⟩
  | acknowledge conblkAd upTo int active => exact ⟨rfl, rfl, rfl, rfl⟩
  | processInterrupt conblkAd upTo active =>
    cases active with
    | true => exact ⟨rfl, rfl, rfl, rfl⟩
    | false =>
      obtain ⟨hrunning, hlinked, hbefore, haudio⟩ := sameDriver_handleUnderflow cfg
        { s with asserted := s.asserted && decide (conblkAd = 0) }
      exact ⟨hrunning, hlinked, hbefore, haudio⟩
  | handleUnderflow =>
    obtain ⟨hrunning, hlinked, hbefore, haudio⟩ := sameDriver_handleUnderflow cfg s
    exact ⟨hrunning, hlinked, hbefore, haudio⟩

/-- What has been counted stays counted. -/
theorem counted_le_effect {s : Pwm} (h : Inv cfg s) {a : PwmAction} (ha : a.isAudio = false)
    (hok : Accounted cfg s a) : s.counted ≤ (s.effect cfg a).counted := by
  cases a with
  | check | link | increment | restart | clearRestart | startAudio => exact Bool.noConfusion ha
  | progress x => exact le_refl _
  | finish =>
    show s.counted ≤ s.finish.counted
    unfold Pwm.finish
    dsimp only
    split
    · exact Nat.le_of_eq
        (counted_load { s with int := true, completed := s.completed + 1 } _).symm
    · exact Nat.le_of_eq (counted_load _ _).symm
  | readConblk | readDpc => exact le_refl _
  | readCs conblkAd upTo => exact le_refl _
  | acknowledge conblkAd upTo int active => exact le_refl _
  | processInterrupt conblkAd upTo active =>
    cases active with
    | true =>
      obtain ⟨-, hlt, -⟩ := hok
      show s.counted ≤ upTo - s.before
      omega
    | false =>
      exact counted_le_handleUnderflow
        (s := { s with asserted := s.asserted && decide (conblkAd = 0) }) h.counted
  | handleUnderflow => exact counted_le_handleUnderflow h.counted

end Pwm

namespace Inv

variable {cfg : Config} {s : Pwm}

/-- `START_AUDIO` has failed. -/
theorem notStarted (h : Inv cfg s) (hstarting : s.audio = .starting) :
    Inv cfg { s with audio := .idle } := by
  have hlinked := h.linked
  have hroom := h.room
  rw [if_neg (by rw [hstarting]; decide)] at hlinked hroom
  exact { h with linked := hlinked, room := hroom, starting := fun hs => nomatch hs }

/-- `PauseDma` and `ResumeDma` -/
theorem writeCs (h : Inv cfg s) (active : Bool) :
    Inv cfg { s with active := active && decide (s.conblkAd.address ≠ 0), int := false } :=
  { h with active := fun ha => of_decide_eq_true (Bool.and_eq_true _ _ ▸ ha).2 }

end Inv

namespace Play

/-! ## The invariant -/

/-- The packets that a call has yet to link. -/
def Client.pending : Client → List Nat
  | .adding _ packetNumbers => packetNumbers
  | _ => []

/-- The call has found room for its packets, and has not returned. -/
def Client.adds : Client → Bool
  | .adding .. => true
  | _ => false

/-- The client is in `SetWritePacket`. -/
def Client.writes : Client → Bool
  | .updated .. | .tested .. | .adding .. => true
  | _ => false

/-- The packets go to the slots after the first `k`, one after the other. -/
def Consecutive (numPackets : Nat) : Nat → List Nat → Prop
  | _, [] => True
  | k, p :: ps => p % numPackets = k % numPackets ∧ Consecutive numPackets (k + 1) ps

structure PlayInv (cfg : Config) (bytesPerPacket : Nat) (s : State) : Prop where
  pwm : Inv cfg s.pwm
  audio : s.client.adds = false → s.pwm.audio = .idle
  stopped : s.pwmState = .stop → s.pwm.running = false
  /-- when the DMA stands, no packet is linked -/
  fresh : s.pwmState = .stop → s.client.adds = false →
    s.pwm.linked = 0 ∧ s.pwm.before ≤ s.accepted
  playing : s.ksState = .run → s.pwmState ≠ .pause
  writes : s.client.writes = true → s.ksState = .run
  consecutive : Consecutive cfg.dmaNumPackets s.pwm.linked s.client.pending
  room : s.pwm.linked + s.client.pending.length ≤ s.pwm.counted + cfg.dmaNumPackets
  /-- one packet of silence, for each start -/
  linked : s.pwm.before + s.pwm.linked + s.client.pending.length ≤
    s.accepted + 1 + s.client.adds.toNat
  written : s.ended = false → s.accepted * bytesPerPacket ≤ s.written
  position : s.ullPlayPosition ≤ (s.pwm.before + s.pwm.counted) * bytesPerPacket
  completed : ∀ u ∈ s.updates, u.position = u.completed * bytesPerPacket
  exceeds : ∀ u ∈ s.updates, u.position ≤ u.written
  last : ∀ u ∈ s.updates, u.position ≤ s.ullPlayPosition
  monotone : s.updates.Pairwise fun later u => u.position ≤ later.position
  reported : s.ullPlayPosition = (s.updates.head?.elim 0 fun u => u.position)

theorem consecutive_packetsToAdd {numPackets packetNumber k : Nat} {pwmState : KsState}
    (hpos : 0 < numPackets) (hstop : pwmState = .stop → k = 0 ∧ packetNumber ≤ 1)
    (hnext : pwmState ≠ .stop → packetNumber % numPackets = k % numPackets) :
    Consecutive numPackets k (packetsToAdd numPackets pwmState packetNumber) := by
  unfold packetsToAdd
  split
  · next hs =>
    obtain ⟨rfl, hle⟩ := hstop hs
    obtain rfl | rfl : packetNumber = 0 ∨ packetNumber = 1 := by omega
    · rw [Nat.zero_min]
      exact ⟨rfl, trivial⟩
    · by_cases hone : numPackets = 1
      · -- a ring of a single packet has no room for silence
        subst hone
        exact ⟨rfl, trivial⟩
      · rw [show min 1 (numPackets - 1) = 1 by omega]
        exact ⟨rfl, rfl, trivial⟩
  · next hs => exact ⟨hnext hs, trivial⟩

namespace PlayInv

variable {cfg : Config} {bytesPerPacket : Nat} {s : State}

/-! ### The DMA and its interrupt -/

/-- The PWM driver has gone on, and no packet has been linked. -/
theorem withPwm (h : PlayInv cfg bytesPerPacket s) {pwm : Pwm} (hpwm : Inv cfg pwm)
    (hlinked : pwm.linked = s.pwm.linked) (hbefore : pwm.before = s.pwm.before)
    (hcounted : s.pwm.counted ≤ pwm.counted) (haudio : s.client.adds = false → pwm.audio = .idle)
    (hstopped : s.pwmState = .stop → pwm.running = false) :
    PlayInv cfg bytesPerPacket { s with pwm := pwm } := by
  exact { h with
    pwm := hpwm
    audio := haudio
    stopped := hstopped
    fresh := fun hs hc => by
      show pwm.linked = 0 ∧ pwm.before ≤ s.accepted
      rw [hlinked, hbefore]
      exact h.fresh hs hc
    consecutive := by
      show Consecutive _ pwm.linked _
      rw [hlinked]
      exact h.consecutive
    room := by
      have hroom := h.room
      show pwm.linked + s.client.pending.length ≤ pwm.counted + cfg.dmaNumPackets
      omega
    linked := by
      show pwm.before + pwm.linked + _ ≤ _
      rw [hlinked, hbefore]
      exact h.linked
    position := by
      show s.ullPlayPosition ≤ (pwm.before + pwm.counted) * bytesPerPacket
      exact le_trans h.position (Nat.mul_le_mul_right _ (by omega)) }

theorem dma (h : PlayInv cfg bytesPerPacket s) {a : PwmAction} (ha : a.isAudio = false)
    (hen : s.pwm.enabled cfg a) (hok : Accounted cfg s.pwm a) :
    PlayInv cfg bytesPerPacket { s with pwm := s.pwm.effect cfg a } := by
  obtain ⟨hrunning, hlinked, hbefore, haudio⟩ := Pwm.sameDriver_effect cfg s.pwm ha
  refine h.withPwm (h.pwm.effect hen hok) hlinked hbefore ?_ ?_ ?_
  · exact Pwm.counted_le_effect h.pwm ha hok
  · exact fun hc => haudio.trans (h.audio hc)
  · exact fun hs => hrunning.trans (h.stopped hs)

/-! ### `SetWritePacket` -/

/-- The client has gone on, and is to link the same packets. -/
theorem withClient (h : PlayInv cfg bytesPerPacket s) {client : Client}
    (hpending : client.pending = s.client.pending) (hadds : client.adds = s.client.adds)
    (hwrites : client.writes = true → s.ksState = .run) :
    PlayInv cfg bytesPerPacket { s with client := client } := by
  exact { h with
    audio := fun hc => h.audio (hadds.symm.trans hc)
    fresh := fun hs hc => h.fresh hs (hadds.symm.trans hc)
    writes := hwrites
    consecutive := by
      show Consecutive _ _ client.pending
      rw [hpending]
      exact h.consecutive
    room := by
      show s.pwm.linked + client.pending.length ≤ _
      rw [hpending]
      exact h.room
    linked := by
      show s.pwm.before + s.pwm.linked + client.pending.length ≤ _ + client.adds.toNat
      rw [hpending, hadds]
      exact h.linked }

/-- The packets of the calls that have returned are full, unless one of them was shorter. -/
theorem written_accept (h : PlayInv cfg bytesPerPacket s) {length : Nat}
    (hended : (s.ended || decide (length < bytesPerPacket)) = false) :
    (s.accepted + 1) * bytesPerPacket ≤ s.written + length := by
  obtain ⟨hended, hfull⟩ := Bool.or_eq_false_iff.1 hended
  have hwritten := h.written hended
  have hfull := of_decide_eq_false hfull
  rw [Nat.succ_mul]
  omega

/-- The counter gives the position when it counts what has completed, without a wrap. -/
theorem position_eq (h : PlayInv cfg bytesPerPacket s) (hcounted : s.pwm.counted = s.pwm.completed)
    (hlt : (s.pwm.before + s.pwm.completed) * bytesPerPacket < 0x100000000) :
    s.pwm.dmaPacketsProcessed * bytesPerPacket % 0x100000000 =
      (s.pwm.before + s.pwm.completed) * bytesPerPacket := by
  rw [h.pwm.processed, hcounted, Nat.mod_mul_mod, Nat.mod_eq_of_lt hlt]

/-- What has completed has been written: the packet of the call makes up for the silence. -/
theorem completed_le_written (h : PlayInv cfg bytesPerPacket s) (hidle : s.client = .idle)
    (hended : s.ended = false) {length : Nat}
    (hshort : length < bytesPerPacket →
      s.pwm.completed < s.pwm.linked ∨ s.pwm.before + s.pwm.linked ≤ s.accepted) :
    (s.pwm.before + s.pwm.completed) * bytesPerPacket ≤ s.written + length := by
  have hwritten := h.written hended
  have hcompleted := h.pwm.completed
  have hlinked := h.linked
  rw [hidle] at hlinked
  have hlinked : s.pwm.before + s.pwm.linked ≤ s.accepted + 1 := hlinked
  by_cases hlength : length < bytesPerPacket
  · have hle : s.pwm.before + s.pwm.completed ≤ s.accepted := by
      rcases hshort hlength with hlt | hle <;> omega
    calc (s.pwm.before + s.pwm.completed) * bytesPerPacket
        ≤ s.accepted * bytesPerPacket := Nat.mul_le_mul_right _ hle
      _ ≤ s.written + length := Nat.le_add_right_of_le hwritten
  · have hfull : (s.ended || decide (length < bytesPerPacket)) = false := by
      rw [hended, decide_eq_false hlength]
      rfl
    calc (s.pwm.before + s.pwm.completed) * bytesPerPacket
        ≤ (s.accepted + 1) * bytesPerPacket := Nat.mul_le_mul_right _ (by omega)
      _ ≤ s.written + length := h.written_accept hfull

theorem call (h : PlayInv cfg bytesPerPacket s) {packetNumber length : Nat}
    (hen : s.enabled cfg (.call packetNumber length))
    (hok : Regular cfg bytesPerPacket s (.call packetNumber length)) :
    PlayInv cfg bytesPerPacket (s.call bytesPerPacket packetNumber length) := by
  obtain ⟨hidle, hksState⟩ := hen
  have hclient : PlayInv cfg bytesPerPacket { s with client := .updated packetNumber length } :=
    h.withClient (by rw [hidle]; rfl) (by rw [hidle]; rfl) fun _ => hksState
  unfold State.call State.updatePosition
  split
  · next hrun =>
    obtain ⟨hcounted, hlt, hended, hshort⟩ := hok hrun
    have hposition := h.position_eq hcounted hlt
    have hexceeds := h.completed_le_written hidle hended hshort
    have hlast : s.ullPlayPosition ≤ s.pwm.dmaPacketsProcessed * bytesPerPacket % 0x100000000 := by
      rw [hposition, ← hcounted]
      exact h.position
    exact { hclient with
      position := by
        show s.pwm.dmaPacketsProcessed * bytesPerPacket % 0x100000000 ≤ _
        rw [hposition, ← hcounted]
      completed := by
        intro u hu
        rcases List.mem_cons.1 hu with rfl | hu
        · exact hposition
        · exact h.completed u hu
      exceeds := by
        intro u hu
        rcases List.mem_cons.1 hu with rfl | hu
        · exact le_of_eq_of_le hposition hexceeds
        · exact h.exceeds u hu
      last := by
        intro u hu
        rcases List.mem_cons.1 hu with rfl | hu
        · exact le_refl _
        · exact le_trans (h.last u hu) hlast
      monotone := List.pairwise_cons.2 ⟨fun u hu => le_trans (h.last u hu) hlast, h.monotone⟩
      reported := rfl }
  · exact hclient

/-- A call that has added its packets returns. -/
theorem accept (h : PlayInv cfg bytesPerPacket s) {length : Nat}
    (hclient : s.client = .adding length []) (haudio : s.pwm.audio = .idle)
    (hrun : s.pwmState = .run) : PlayInv cfg bytesPerPacket (s.accept bytesPerPacket length) := by
  have hlinked := h.linked
  have hroom := h.room
  rw [hclient] at hlinked hroom
  exact { h with
    audio := fun _ => haudio
    fresh := fun hs _ => absurd (hrun.symm.trans hs) (by decide)
    writes := fun hw => nomatch hw
    consecutive := trivial
    room := hroom
    linked := hlinked
    written := fun he => h.written_accept he }

theorem restart (h : PlayInv cfg bytesPerPacket s) {packetNumber length : Nat}
    (hen : s.enabled cfg (.restart packetNumber length)) :
    PlayInv cfg bytesPerPacket (s.restart cfg bytesPerPacket packetNumber length) := by
  obtain ⟨hclient, hrestart⟩ := hen
  have hksState := h.writes (by rw [hclient]; rfl)
  have hcounted := h.pwm.counted
  have hcompleted := h.pwm.completed
  have hlinked := h.linked
  rw [hclient] at hlinked
  have hlinked : s.pwm.before + s.pwm.linked ≤ s.accepted + 1 := hlinked
  have hbefore : s.pwm.before + s.pwm.completed ≤ s.accepted + 1 := by omega
  exact { h with
    pwm := h.pwm.restart_step hrestart
    audio := fun _ => hrestart.1
    stopped := fun _ => rfl
    fresh := fun _ _ => ⟨rfl, hbefore⟩
    playing := fun _ hpause => nomatch hpause
    writes := fun hw => nomatch hw
    consecutive := trivial
    room := Nat.zero_le _
    linked := by
      show s.pwm.before + s.pwm.completed + 0 + 0 ≤ s.accepted + 1 + 1 + 0
      omega
    written := fun he => h.written_accept he
    position := le_trans h.position (Nat.mul_le_mul_right _ (Nat.add_le_add_left hcounted _)) }

theorem add (h : PlayInv cfg bytesPerPacket s) {packetNumber length : Nat}
    (hen : s.enabled cfg (.add packetNumber length))
    (hok : Regular cfg bytesPerPacket s (.add packetNumber length)) :
    PlayInv cfg bytesPerPacket (s.add cfg packetNumber length) := by
  obtain ⟨hclient, hfree⟩ := hen
  have hksState := h.writes (by rw [hclient]; rfl)
  have haudio := h.audio (by rw [hclient]; rfl)
  have hfresh := fun hs => h.fresh hs (by rw [hclient]; rfl)
  have hpos := cfg.dmaNumPackets_pos
  have hroom : s.pwm.linked < s.pwm.counted + cfg.dmaNumPackets := by
    have hroom := h.pwm.room
    have hlinked := h.pwm.linked
    have hinUse := h.pwm.inUse
    rw [if_neg (by rw [haudio]; decide)] at hlinked hroom
    omega
  have hlinked := h.linked
  rw [hclient] at hlinked
  have hlinked : s.pwm.before + s.pwm.linked ≤ s.accepted + 1 := hlinked
  have hlength : s.pwm.linked +
        (packetsToAdd cfg.dmaNumPackets s.pwmState (s.packetNumber packetNumber)).length ≤
          s.pwm.counted + cfg.dmaNumPackets ∧
      s.pwm.before + s.pwm.linked +
        (packetsToAdd cfg.dmaNumPackets s.pwmState (s.packetNumber packetNumber)).length ≤
          s.accepted + 1 + 1 := by
    -- before the start the packets up to this one are added, then this one only
    unfold packetsToAdd
    split
    · next hs =>
      obtain ⟨hzero, hbefore⟩ := hfresh hs
      have hle : s.packetNumber packetNumber ≤ 1 := by
        rw [Regular, if_pos hs] at hok
        exact hok
      rw [List.length_append, List.length_range, List.length_singleton]
      omega
    · rw [List.length_singleton]
      omega
  exact { h with
    pwm := h.pwm.checked haudio hroom
    audio := fun hc => nomatch hc
    fresh := fun _ hc => nomatch hc
    writes := fun _ => hksState
    consecutive := by
      refine consecutive_packetsToAdd hpos (fun hs => ?_) (fun hs => ?_)
      · rw [Regular, if_pos hs] at hok
        exact ⟨(hfresh hs).1, hok⟩
      · rw [Regular, if_neg hs] at hok
        exact hok
    room := hlength.1
    linked := hlength.2 }

theorem link (h : PlayInv cfg bytesPerPacket s) {length packetNumber : Nat} {rest : List Nat}
    (hen : s.enabled cfg (.link length packetNumber rest)) :
    PlayInv cfg bytesPerPacket (s.link cfg length packetNumber rest) := by
  obtain ⟨hclient, haudio⟩ := hen
  have hksState := h.writes (by rw [hclient]; rfl)
  have hconsecutive := h.consecutive
  have hroom := h.room
  have hlinked := h.linked
  rw [hclient] at hconsecutive hroom hlinked
  obtain ⟨hslot, hconsecutive⟩ := hconsecutive
  have hpwm : (s.link cfg length packetNumber rest).pwm = s.pwm.link cfg := by
    unfold State.link Pwm.link
    rw [hslot]
  exact { h with
    pwm := by
      rw [hpwm]
      exact h.pwm.link haudio
    audio := fun hc => nomatch hc
    fresh := fun _ hc => nomatch hc
    writes := fun _ => hksState
    consecutive := hconsecutive
    room := by
      have hroom : s.pwm.linked + (rest.length + 1) ≤ s.pwm.counted + cfg.dmaNumPackets := hroom
      show s.pwm.linked + 1 + rest.length ≤ s.pwm.counted + cfg.dmaNumPackets
      omega
    linked := by
      have hlinked : s.pwm.before + s.pwm.linked + (rest.length + 1) ≤ s.accepted + 1 + 1 := hlinked
      show s.pwm.before + (s.pwm.linked + 1) + rest.length ≤ s.accepted + 1 + 1
      omega }

theorem increment (h : PlayInv cfg bytesPerPacket s) {length : Nat} {rest : List Nat}
    (hen : s.enabled cfg (.increment length rest)) :
    PlayInv cfg bytesPerPacket (s.increment rest) := by
  obtain ⟨hclient, haudio⟩ := hen
  have hincrement := h.pwm.increment haudio
  have hroom := h.room
  rw [hclient] at hroom
  exact { h with
    pwm := by
      unfold State.increment
      dsimp only
      split
      · exact hincrement
      · next hrest =>
        have hpos := List.length_pos_iff.2 hrest
        have hroom : s.pwm.linked + rest.length ≤ s.pwm.counted + cfg.dmaNumPackets := hroom
        refine hincrement.checked rfl ?_
        show s.pwm.linked < s.pwm.counted + cfg.dmaNumPackets
        omega
    audio := fun hc => by
      have hc : s.client.adds = false := hc
      rw [hclient] at hc
      exact nomatch hc }

theorem clearRestart (h : PlayInv cfg bytesPerPacket s) {length : Nat}
    (hen : s.enabled cfg (.clearRestart length)) :
    PlayInv cfg bytesPerPacket { s with pwm := s.pwm.clearRestart } := by
  obtain ⟨hclient, -, hclear⟩ := hen
  refine h.withPwm (h.pwm.clearRestart hclear) rfl rfl (le_refl _) (fun hc => ?_) h.stopped
  rw [hclient] at hc
  exact nomatch hc

theorem startAudio (h : PlayInv cfg bytesPerPacket s) {length : Nat} {fails : Bool}
    (hen : s.enabled cfg (.startAudio length fails)) :
    PlayInv cfg bytesPerPacket (s.startAudio cfg bytesPerPacket length fails) := by
  obtain ⟨hclient, hstarting⟩ := hen
  have hadds : ∀ pwm : Pwm, s.client.adds = false → pwm.audio = .idle := by
    intro pwm hc
    rw [hclient] at hc
    exact nomatch hc
  have hrun : PlayInv cfg bytesPerPacket { s with pwmState := .run } :=
    { h with
      stopped := fun hs => nomatch hs
      fresh := fun hs => nomatch hs
      playing := fun _ hpause => nomatch hpause }
  cases fails with
  | true =>
    have hpwm := hrun.withPwm (h.pwm.notStarted hstarting) rfl rfl (le_refl _) (hadds _)
      (fun hs => nomatch hs)
    exact hpwm.accept hclient rfl rfl
  | false =>
    have hpwm := hrun.withPwm (h.pwm.startAudio hstarting) rfl rfl (le_refl _) (hadds _)
      (fun hs => nomatch hs)
    exact hpwm.accept hclient rfl rfl

/-! ### `SetState` -/

/-- The stream pauses or goes on when the client is not in `SetWritePacket`. -/
theorem withStates (h : PlayInv cfg bytesPerPacket s) {ksState pwmState : KsState}
    (hwrites : s.client.writes = false) (hstop : pwmState ≠ .stop)
    (hplaying : ksState = .run → pwmState ≠ .pause) :
    PlayInv cfg bytesPerPacket { s with ksState := ksState, pwmState := pwmState } := by
  exact { h with
    stopped := fun hs => absurd hs hstop
    fresh := fun hs => absurd hs hstop
    playing := hplaying
    writes := fun hw => by
      have hw : s.client.writes = true := hw
      rw [hwrites] at hw
      exact nomatch hw }

theorem pause (h : PlayInv cfg bytesPerPacket s) (hen : s.enabled cfg .pause) :
    PlayInv cfg bytesPerPacket s.pause := by
  obtain ⟨hidle, -⟩ := hen
  unfold State.pause
  split
  · exact h.withClient (by rw [hidle]; rfl) (by rw [hidle]; rfl) fun hw => nomatch hw
  · exact { h with
      playing := fun hk => nomatch hk
      writes := fun hw => by
        have hw : s.client.writes = true := hw
        rw [hidle] at hw
        exact nomatch hw }

theorem pauseDma (h : PlayInv cfg bytesPerPacket s) {active : Bool}
    (hen : s.enabled cfg (.pauseDma active)) : PlayInv cfg bytesPerPacket (s.pauseDma active) := by
  have hclient : s.client = .pausing active := hen
  have hidle : PlayInv cfg bytesPerPacket { s with client := .idle } :=
    h.withClient (by rw [hclient]; rfl) (by rw [hclient]; rfl) fun hw => nomatch hw
  cases active with
  | true =>
    have hpwm := hidle.withPwm (h.pwm.writeCs false) rfl rfl (le_refl _) hidle.audio h.stopped
    exact hpwm.withStates rfl (by decide) fun hk => nomatch hk
  | false => exact hidle.withStates rfl (by decide) fun hk => nomatch hk

theorem resume (h : PlayInv cfg bytesPerPacket s) (hen : s.enabled cfg .resume) :
    PlayInv cfg bytesPerPacket s.resume := by
  obtain ⟨hidle, -⟩ := hen
  unfold State.resume
  split
  · exact h.withClient (by rw [hidle]; rfl) (by rw [hidle]; rfl) fun hw => nomatch hw
  · next hpause =>
    exact { h with
      playing := fun _ => hpause
      writes := fun _ => rfl }

theorem resumeDma (h : PlayInv cfg bytesPerPacket s) {active : Bool}
    (hen : s.enabled cfg (.resumeDma active)) :
    PlayInv cfg bytesPerPacket (s.resumeDma active) := by
  have hclient : s.client = .resuming active := hen
  have hidle : PlayInv cfg bytesPerPacket { s with client := .idle } :=
    h.withClient (by rw [hclient]; rfl) (by rw [hclient]; rfl) fun hw => nomatch hw
  cases active with
  | true => exact hidle.withStates rfl (by decide) fun _ => by decide
  | false =>
    have hpwm := hidle.withPwm (h.pwm.writeCs true) rfl rfl (le_refl _) hidle.audio h.stopped
    exact hpwm.withStates rfl (by decide) fun _ => by decide

/-- **The invariant is kept** by every step that meets the condition. -/
theorem effect (h : PlayInv cfg bytesPerPacket s) {a : Action} (hen : s.enabled cfg a)
    (hok : Regular cfg bytesPerPacket s a) :
    PlayInv cfg bytesPerPacket (s.effect cfg bytesPerPacket a) := by
  cases a with
  | dma a => exact h.dma hen.1 hen.2 hok
  | call packetNumber length => exact h.call hen hok
  | restart packetNumber length => exact h.restart hen
  | test packetNumber length =>
    obtain ⟨hclient, -⟩ := hen
    have hksState := h.writes (by rw [hclient]; rfl)
    exact h.withClient (by rw [hclient]; rfl) (by rw [hclient]; rfl) fun _ => hksState
  | overrun packetNumber length =>
    obtain ⟨hclient, -⟩ := hen
    exact h.withClient (by rw [hclient]; rfl) (by rw [hclient]; rfl) fun hw => nomatch hw
  | add packetNumber length => exact h.add hen hok
  | link length packetNumber rest => exact h.link hen
  | increment length rest => exact h.increment hen
  | clearRestart length => exact h.clearRestart hen
  | startAudio length fails => exact h.startAudio hen
  | accept length => exact h.accept hen.1 hen.2.1 hen.2.2
  | pause => exact h.pause hen
  | pauseDma active => exact h.pauseDma hen
  | resume => exact h.resume hen
  | resumeDma active => exact h.resumeDma hen

end PlayInv

theorem playInv_start (cfg : Config) (bytesPerPacket : Nat) :
    PlayInv cfg bytesPerPacket (State.start cfg) where
  pwm := inv_start cfg
  audio := fun _ => rfl
  stopped := fun _ => rfl
  fresh := fun _ _ => ⟨rfl, le_refl _⟩
  playing := fun _ hpause => nomatch hpause
  writes := fun _ => rfl
  consecutive := trivial
  room := Nat.zero_le _
  linked := Nat.zero_le _
  written := fun _ => Nat.le_of_eq (Nat.zero_mul _)
  position := Nat.zero_le _
  completed := fun _ hu => nomatch hu
  exceeds := fun _ hu => nomatch hu
  last := fun _ hu => nomatch hu
  monotone := .nil
  reported := rfl

/-! ## Runs -/

/-- **Runs that meet the condition report the right position**. -/
theorem positionSound_of_regular {cfg : Config} {bytesPerPacket : Nat} {s : State}
    (h : (playMachine cfg bytesPerPacket).Reach (Regular cfg bytesPerPacket) s) :
    PositionSound bytesPerPacket s := by
  have hinv : PlayInv cfg bytesPerPacket s := by
    refine Machine.Reach.inv_guarded (fun s hs => ?_) (fun s a hinv hok hen => ?_) h
    · rw [hs]
      exact playInv_start cfg bytesPerPacket
    · exact hinv.effect hen hok
  exact ⟨hinv.completed, hinv.exceeds, hinv.monotone, hinv.reported⟩

/-- A call that starts the DMA of a ring of two packets. -/
def firstCall (packetNumber : Nat) : List Action :=
  [.call packetNumber 16384, .test packetNumber 16384, .add packetNumber 16384,
    .link 16384 0 [1], .increment 16384 [1], .link 16384 1 [], .increment 16384 [],
    .clearRestart 16384, .startAudio 16384 false]

/-- A call that adds its packet while the DMA runs. -/
def nextCall (packetNumber index : Nat) : List Action :=
  [.call packetNumber 16384, .test packetNumber 16384, .add packetNumber 16384,
    .link 16384 index [], .increment 16384 [], .accept 16384]

/-- The DMA completes the silence, is paused and resumed, and runs dry after packets 1 and 2. The
restart drops packet 3, and packet 4 starts the DMA again. -/
def restartRun : List Action :=
  firstCall 1 ++ ([PwmAction.finish, .finish] ++ interrupt 0x10040 1 true).map .dma ++
    nextCall 2 2 ++ [Action.pause, .pauseDma true, .resume, .resumeDma false] ++
    ([PwmAction.finish, .finish] ++ interrupt 0x10000 2 true).map .dma ++
    ([PwmAction.progress 16, .finish, .finish] ++ interrupt 0 3 false).map .dma ++
    [Action.call 3 16384, .restart 3 16384] ++ firstCall 4 ++
    ([PwmAction.finish, .finish] ++ interrupt 0x10040 4 true).map .dma ++ nextCall 5 2

theorem positionSound_of_regular_restart :
    ∃ s, (playMachine twoPackets 16384).Reach (Regular twoPackets 16384) s ∧
      s.updates = [⟨65536, 4, 81920⟩, ⟨49152, 3, 49152⟩, ⟨16384, 1, 32768⟩] ∧
      PositionSound 16384 s :=
  have h := (playMachine twoPackets 16384).reach_execOk_get (Regular twoPackets 16384) restartRun
    (s := State.start twoPackets) rfl (by decide +kernel)
  ⟨_, h, by decide +kernel, positionSound_of_regular h⟩

/-- **The position is ahead by a packet**: the interrupt is late, finds `CONBLK_AD` at the second
control block of packet 1, and counts that packet, too. -/
theorem position_ahead :
    ¬ ∀ s, (playMachine twoPackets 16384).Reachable s → PositionSound 16384 s := by
  intro h
  have hrun := (playMachine twoPackets 16384).reach_exec_get
    (firstCall 1 ++
      ([PwmAction.finish, .finish, .finish] ++ interrupt 0xC0010060 1 true).map .dma ++
      [Action.call 2 16384]) (s := State.start twoPackets) rfl (by decide +kernel)
  exact absurd (h _ hrun).completed (by decide +kernel)

/-! ## Positions from `2 ^ 32` bytes on -/

/-- **Every position has 32 bits**, in every run. -/
theorem position_lt {cfg : Config} {bytesPerPacket : Nat} {s : State}
    (h : (playMachine cfg bytesPerPacket).Reachable s) :
    s.ullPlayPosition < 0x100000000 ∧ ∀ u ∈ s.updates, u.position < 0x100000000 := by
  refine Machine.Reach.inv_guarded
    (P := fun s => s.ullPlayPosition < 0x100000000 ∧ ∀ u ∈ s.updates, u.position < 0x100000000)
    (fun s hs => ?_) (fun s a hinv _ _ => ?_) h
  · rw [hs]
    exact ⟨(by decide : 0 < 0x100000000), fun _ hu => nomatch hu⟩
  · obtain ⟨hlast, hupdates⟩ := hinv
    cases a with
    | call packetNumber length =>
      have hlt := Nat.mod_lt (s.pwm.dmaPacketsProcessed * bytesPerPacket)
        (show 0x100000000 > 0 by decide)
      unfold State.effect State.call State.updatePosition
      dsimp only
      split
      · refine ⟨hlt, fun u hu => ?_⟩
        rcases List.mem_cons.1 hu with rfl | hu
        · exact hlt
        · exact hupdates u hu
      · exact ⟨hlast, hupdates⟩
    | pause =>
      unfold State.effect State.pause
      dsimp only
      split <;> exact ⟨hlast, hupdates⟩
    | resume =>
      unfold State.effect State.resume
      dsimp only
      split <;> exact ⟨hlast, hupdates⟩
    | _ => exact ⟨hlast, hupdates⟩

/-- Once the packets that have completed have `2 ^ 32` bytes, the position is wrong. -/
theorem not_positionSound_of_le {cfg : Config} {bytesPerPacket : Nat} {s : State}
    (h : (playMachine cfg bytesPerPacket).Reachable s) {u : Update} (hu : u ∈ s.updates)
    (hle : 0x100000000 ≤ u.completed * bytesPerPacket) : ¬ PositionSound bytesPerPacket s := by
  intro hsound
  have hlt := (position_lt h).2 u hu
  rw [hsound.completed u hu] at hlt
  omega

/-- The position in blocks is that in bytes, divided by the bytes of a block. -/
theorem positionInBlocks_eq {cfg : Config} {bytesPerPacket : Nat} {s : State}
    (h : (playMachine cfg bytesPerPacket).Reachable s) {samplesPerSec avgBytesPerSec : UInt32}
    {blockAlign : Nat} (hpos : 0 < samplesPerSec.toNat)
    (hformat : avgBytesPerSec.toNat = blockAlign * samplesPerSec.toNat) :
    s.positionInBlocks samplesPerSec avgBytesPerSec = s.ullPlayPosition / blockAlign := by
  have hlt : s.ullPlayPosition * samplesPerSec.toNat < 0x10000000000000000 := by
    have hmul := Nat.mul_lt_mul'' (position_lt h).1 samplesPerSec.toNat_lt
    exact hmul
  rw [State.positionInBlocks, Nat.mod_eq_of_lt hlt, hformat, Nat.mul_div_mul_right _ _ hpos]

end Play

end RpiDrivers.PwmAudio
