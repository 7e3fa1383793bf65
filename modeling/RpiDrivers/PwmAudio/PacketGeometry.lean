import RpiDrivers.PwmAudio.WritePacket
import RpiDrivers.PwmDriver.InitializeAudio

/-!
# The packets of the two audio drivers (`minwavertstream.cpp`, `dma.cpp`)

`AllocateBufferWithNotification` tests that the size of the audio buffer is a multiple of the number
of notifications, and then rounds it down to whole blocks of the format. The audio driver divides
what is left into packets, and the PWM driver divides twice as much, since a sample of 16 bits
becomes a word.

- `allocateBufferWithNotification`, `runConfig`: the audio buffer, and what `SetState` sends.
- `LayoutsAgree`: **the packets of both drivers are the same**, of whole stereo samples.
- `Rounds`: the condition. `layoutsAgree_iff`: **exactly when they are**.
- `WaveStream.slot_eq_packet`: then the slots of `SetWritePacket` are the packets of the DMA.
- `layouts_differ`: two packets that share a block, and two sizes that do not double.
-/

namespace RpiDrivers.PwmAudio

open RpiDrivers.Lib
open RpiDrivers.PwmDriver (AudioConfig)

/-! ## The audio buffer -/

inductive AllocationStatus
  | success
  | unsuccessful
  | invalidParameter
  | insufficientResources
  deriving DecidableEq

/-- The fields of `CMiniportWaveRTStream` that describe the audio buffer. -/
structure WaveStream where
  /-- `m_pWfExt->Format.nBlockAlign` -/
  blockAlign : UInt16
  /-- `m_ulDmaBufferSize` -/
  bufferSize : Nat
  notificationsPerBuffer : Nat
  bytesPerPacket : Nat
  samplesPerPacket : Nat
  deriving DecidableEq

namespace WaveStream

variable (s : WaveStream)

/-- `AllocateBufferWithNotification`; the pages are allocated and mapped, or not. -/
def allocateBufferWithNotification (notificationCount requestedSize : UInt32)
    (pages mapped : Bool) : Calc (AllocationStatus × WaveStream) :=
  if requestedSize = 0 ∨ requestedSize.toNat < s.blockAlign.toNat then pure (.unsuccessful, s)
  else if notificationCount = 0 ∨ requestedSize.toNat % notificationCount.toNat ≠ 0 then
    pure (.invalidParameter, s)
  else do
    let rest ← Calc.rem requestedSize.toNat s.blockAlign.toNat
    let bufferSize ← Calc.sub 32 requestedSize.toNat rest
    if !pages then pure (.unsuccessful, s)
    else if !mapped then pure (.insufficientResources, s)
    else do
      let bytesPerPacket ← Calc.div bufferSize notificationCount.toNat
      pure (.success, { s with
        bufferSize
        notificationsPerBuffer := notificationCount.toNat
        bytesPerPacket
        samplesPerPacket := bytesPerPacket / pcmBytesPerSample })

/-- What `SetState(KSSTATE_RUN)` sends to the PWM driver -/
def runConfig : Calc AudioConfig := do
  let requestedBufferSize ← Calc.mul 32 s.bufferSize 2
  pure ⟨.ofNat requestedBufferSize, .ofNat s.notificationsPerBuffer, .ofNat pwmRange⟩

/-- **The property**: the doubling is exact, the PWM driver has a word for each sample of a packet,
the packets are in the audio buffer, and they consist of stereo samples. -/
structure LayoutsAgree : Prop where
  packetSize : ∃ config, s.runConfig.Exactly config ∧ config.packetSize = 4 * s.samplesPerPacket
  inside : ∀ i < s.notificationsPerBuffer, (i + 1) * s.bytesPerPacket ≤ s.bufferSize
  stereo : s.bytesPerPacket % (2 * pcmBytesPerSample) = 0

end WaveStream

/-- **The condition**, for a request that is a multiple of the number of notifications. The rounding
takes `lost` bytes from each packet, or almost: what it takes less is not half a byte of each. -/
def Rounds (notificationCount requestedSize blockAlign : Nat) : Prop :=
  requestedSize - requestedSize % blockAlign < 2 ^ 31 ∧
    ∃ lost, requestedSize % blockAlign ≤ lost * notificationCount ∧
      2 * (lost * notificationCount - requestedSize % blockAlign) < notificationCount ∧
      requestedSize / notificationCount % 4 = lost % 4

/-! ## Two divisions -/

section Divisions

variable {m n : Nat}

/-- Twice as much, divided. -/
theorem two_mul_div (hn : 0 < n) : m * 2 / n = 2 * (m / n) + if 2 * (m % n) < n then 0 else 1 := by
  have hm := Nat.div_add_mod m n
  have hr := Nat.mod_lt m hn
  have hmul : ∀ c, (2 * (m / n) + c) * n = 2 * (n * (m / n)) + c * n := by
    intro c
    rw [Nat.add_mul, Nat.mul_assoc, Nat.mul_comm (m / n) n]
  refine Nat.div_eq_of_lt_le ?_ ?_
  · rw [hmul]
    split_ifs <;> omega
  · rw [Nat.add_assoc, hmul]
    split_ifs <;> omega

/-- The two divisions agree, on whole stereo samples. -/
theorem divisions_iff (hn : 0 < n) : m * 2 / n = 4 * (m / n / 2) ∧ m / n % 4 = 0 ↔
    2 * (m % n) < n ∧ m / n % 4 = 0 := by
  rw [two_mul_div hn]
  split_ifs <;> omega

/-- What is left of a multiple, when some of it is taken. -/
theorem rest_iff {d k : Nat} (hn : 0 < n) (hd : d ≤ n * k) :
    2 * ((n * k - d) % n) < n ∧ (n * k - d) / n % 4 = 0 ↔
      ∃ lost, d ≤ lost * n ∧ 2 * (lost * n - d) < n ∧ k % 4 = lost % 4 := by
  constructor
  · rintro ⟨hround, hstereo⟩
    have hm := Nat.div_add_mod (n * k - d) n
    have hle : (n * k - d) / n ≤ k := by
      refine Nat.div_le_of_le_mul ?_
      omega
    obtain ⟨lost, hlost⟩ := Nat.exists_eq_add_of_le hle
    have hk : n * k = n * ((n * k - d) / n) + n * lost := by
      rw [← Nat.mul_add, ← hlost]
    refine ⟨lost, ?_, ?_, ?_⟩
    · rw [Nat.mul_comm lost n]
      omega
    · rw [Nat.mul_comm lost n]
      omega
    · omega
  · rintro ⟨lost, hle, hround, hmod⟩
    have hlost : lost ≤ k := by
      by_contra h
      obtain ⟨t, rfl⟩ := Nat.exists_eq_add_of_lt (Nat.lt_of_not_le h)
      have : (k + t + 1) * n = n * k + t * n + n := by
        rw [Nat.add_mul, Nat.add_mul, Nat.one_mul, Nat.mul_comm k n]
      omega
    obtain ⟨q, rfl⟩ := Nat.exists_eq_add_of_le hlost
    have hsplit : n * (lost + q) - d = n * q + (lost * n - d) := by
      rw [Nat.mul_add, Nat.mul_comm n lost]
      omega
    have hsmall : lost * n - d < n := by omega
    rw [hsplit, Nat.mul_add_mod, Nat.mod_eq_of_lt hsmall, Nat.mul_add_div hn,
      Nat.div_eq_of_lt hsmall]
    omega

end Divisions

/-! ## The two drivers agree -/

namespace WaveStream

variable {s s' : WaveStream} {notificationCount requestedSize : UInt32} {pages mapped : Bool}

/-- What is accepted, and what is allocated. -/
theorem allocate_eq (h : (s.allocateBufferWithNotification notificationCount requestedSize pages
      mapped).value = some (.success, s')) :
    0 < notificationCount.toNat ∧ requestedSize.toNat % notificationCount.toNat = 0 ∧
      s' = { s with
        bufferSize := requestedSize.toNat - requestedSize.toNat % s.blockAlign.toNat
        notificationsPerBuffer := notificationCount.toNat
        bytesPerPacket := (requestedSize.toNat - requestedSize.toNat % s.blockAlign.toNat) /
          notificationCount.toNat
        samplesPerPacket := (requestedSize.toNat - requestedSize.toNat % s.blockAlign.toNat) /
          notificationCount.toNat / pcmBytesPerSample } := by
  unfold allocateBufferWithNotification at h
  by_cases hsize : requestedSize = 0 ∨ requestedSize.toNat < s.blockAlign.toNat
  · rw [if_pos hsize] at h
    cases h
  by_cases hcount :
    notificationCount = 0 ∨ requestedSize.toNat % notificationCount.toNat ≠ 0
  · rw [if_neg hsize, if_pos hcount] at h
    cases h
  rw [if_neg hsize, if_neg hcount] at h
  obtain ⟨hzero, hmod⟩ := not_or.1 hcount
  have hpos : 0 < notificationCount.toNat :=
    Nat.pos_of_ne_zero fun h => hzero (UInt32.toNat_inj.1 h)
  refine ⟨hpos, not_not.1 hmod, ?_⟩
  simp only [Calc.value_bind, Calc.value_rem, Option.bind_eq_some_iff] at h
  obtain ⟨rest, hrest, bufferSize, hsub, h⟩ := h
  obtain ⟨hblock, hrest⟩ := Option.ite_none_left_eq_some.1 hrest
  obtain rfl := Option.some.inj hrest
  have hle : requestedSize.toNat % s.blockAlign.toNat ≤ requestedSize.toNat := Nat.mod_le ..
  have hlt := requestedSize.toNat_lt
  have hbuffer : bufferSize = requestedSize.toNat - requestedSize.toNat % s.blockAlign.toNat := by
    rw [Calc.value_sub] at hsub
    have := Option.some.inj hsub
    omega
  subst hbuffer
  simp only [Calc.value_ite, Calc.value_bind, Calc.value_div, Calc.value_pure] at h
  rw [if_neg (Nat.ne_of_gt hpos)] at h
  split_ifs at h
  · cases h
  · cases h
  · exact (Prod.mk.inj (Option.some.inj h)).2.symm

/-- What is sent, when the doubling is exact. -/
theorem runConfig_packetSize {config : AudioConfig} (hn : s.notificationsPerBuffer < 2 ^ 32)
    (h : s.runConfig.Exactly config) :
    config.packetSize = s.bufferSize * 2 / s.notificationsPerBuffer := by
  obtain ⟨size, hsize, h⟩ := Calc.exactly_bind.1 h
  obtain ⟨hlt, rfl⟩ := Calc.exactly_mul.1 hsize
  obtain rfl := Calc.exactly_pure.1 h
  rw [AudioConfig.packetSize, UInt32.toNat_ofNat_of_lt' hlt, UInt32.toNat_ofNat_of_lt' hn]

/-- The packets of an audio buffer. -/
theorem layoutsAgree_iff_divides (hpos : 0 < s.notificationsPerBuffer)
    (hn : s.notificationsPerBuffer < 2 ^ 32)
    (hbytes : s.bytesPerPacket = s.bufferSize / s.notificationsPerBuffer)
    (hsamples : s.samplesPerPacket = s.bytesPerPacket / pcmBytesPerSample) :
    s.LayoutsAgree ↔ s.bufferSize < 2 ^ 31 ∧
      2 * (s.bufferSize % s.notificationsPerBuffer) < s.notificationsPerBuffer ∧
      s.bufferSize / s.notificationsPerBuffer % 4 = 0 := by
  have hfour : 4 * s.samplesPerPacket = 4 * (s.bufferSize / s.notificationsPerBuffer / 2) := by
    rw [hsamples, hbytes]
    rfl
  rw [← divisions_iff hpos, ← hfour]
  constructor
  · rintro ⟨⟨config, hconfig, hsize⟩, -, hstereo⟩
    obtain ⟨_, hmul, -⟩ := Calc.exactly_bind.1 hconfig
    obtain ⟨hlt, -⟩ := Calc.exactly_mul.1 hmul
    rw [runConfig_packetSize hn hconfig] at hsize
    rw [hbytes] at hstereo
    exact ⟨by omega, hsize, hstereo⟩
  · rintro ⟨hlt, hsize, hstereo⟩
    have hconfig : s.runConfig.Exactly
        ⟨.ofNat (s.bufferSize * 2), .ofNat s.notificationsPerBuffer, .ofNat pwmRange⟩ :=
      Calc.exactly_bind.2 ⟨_, Calc.exactly_mul.2 ⟨by omega, rfl⟩, Calc.exactly_pure.2 rfl⟩
    refine ⟨⟨_, hconfig, ?_⟩, fun i hi => ?_, ?_⟩
    · rw [runConfig_packetSize hn hconfig, hsize]
    · rw [hbytes]
      exact Nat.le_trans (Nat.mul_le_mul_right _ hi) (Nat.mul_div_le ..)
    · rw [hbytes]
      exact hstereo

/-- **The packets of the two drivers are the same** exactly when the rounding allows it. -/
theorem layoutsAgree_iff (h : (s.allocateBufferWithNotification notificationCount requestedSize
      pages mapped).value = some (.success, s')) :
    s'.LayoutsAgree ↔
      Rounds notificationCount.toNat requestedSize.toNat s.blockAlign.toNat := by
  obtain ⟨hn, hmod, rfl⟩ := allocate_eq h
  rw [layoutsAgree_iff_divides hn notificationCount.toNat_lt rfl rfl, Rounds]
  refine and_congr Iff.rfl ?_
  have hsize : requestedSize.toNat =
      notificationCount.toNat * (requestedSize.toNat / notificationCount.toNat) :=
    (Nat.mul_div_cancel' (Nat.dvd_of_mod_eq_zero hmod)).symm
  have hle : requestedSize.toNat % s.blockAlign.toNat ≤
      notificationCount.toNat * (requestedSize.toNat / notificationCount.toNat) :=
    hsize ▸ Nat.mod_le ..
  have hrest := rest_iff hn hle
  rwa [← hsize] at hrest

/-- An audio buffer of 7056 samples, for two notifications -/
theorem layoutsAgree_stereo : ∃ s' : WaveStream,
    ((⟨4, 0, 0, 0, 0⟩ : WaveStream).allocateBufferWithNotification 2 14112 true true).value =
      some (.success, s') ∧ s'.LayoutsAgree := by
  have h : ((⟨4, 0, 0, 0, 0⟩ : WaveStream).allocateBufferWithNotification 2 14112 true true).value =
      some (.success, ⟨4, 14112, 2, 7056, 3528⟩) := by decide
  exact ⟨_, h, (layoutsAgree_iff h).2 ⟨by decide, 0, by decide, by decide, by decide⟩⟩

/-- The buffers of `SetWritePacket`, with the packets of `config` -/
def layout (s : WaveStream) (cfg : Config) (hpos : 0 < s.notificationsPerBuffer)
    (hn : s.notificationsPerBuffer < 2 ^ 32) {config : AudioConfig} (h : s.runConfig.Exactly config)
    (hcfg : cfg.packetSize = config.packetSize) : Layout where
  cfg
  bufferSize := s.bufferSize
  notificationsPerBuffer := s.notificationsPerBuffer
  notificationsPerBuffer_pos := hpos
  packetSize_eq := hcfg.trans (runConfig_packetSize hn h)

/-- **A slot that `SetWritePacket` fills is a packet of the DMA**, when the layouts agree. -/
theorem slot_eq_packet {cfg : Config} (hpos : 0 < s.notificationsPerBuffer)
    (hn : s.notificationsPerBuffer < 2 ^ 32)
    (hbytes : s.bytesPerPacket = s.bufferSize / s.notificationsPerBuffer)
    (hsamples : s.samplesPerPacket = s.bytesPerPacket / pcmBytesPerSample) {config : AudioConfig}
    (h : s.runConfig.Exactly config) (hcfg : cfg.packetSize = config.packetSize)
    (hagree : s.LayoutsAgree) (i : Nat) :
    4 * (i * (s.layout cfg hpos hn h hcfg).samplesPerPacket) = i * cfg.packetSize := by
  obtain ⟨⟨config', h', hsize⟩, -, -⟩ := hagree
  have hlayout : (s.layout cfg hpos hn h hcfg).samplesPerPacket = s.samplesPerPacket := by
    rw [hsamples, hbytes]
    rfl
  obtain rfl := h.unique h'
  rw [hcfg, hsize, hlayout, Nat.mul_left_comm]

end WaveStream

/-- **Two packets of three samples** begin with a left and a right channel. A buffer of 4430 bytes
for five notifications is rounded to 4428, and the PWM driver has packets of 1771 bytes for 442
samples. A buffer of 2 GB is doubled to eight bytes. -/
theorem layouts_differ :
    ((⟨4, 0, 0, 0, 0⟩ : WaveStream).allocateBufferWithNotification 2 12 true true).Exactly
        (.success, ⟨4, 12, 2, 6, 3⟩) ∧
      ¬ (⟨4, 12, 2, 6, 3⟩ : WaveStream).LayoutsAgree ∧
    ((⟨4, 0, 0, 0, 0⟩ : WaveStream).allocateBufferWithNotification 5 4430 true true).Exactly
        (.success, ⟨4, 4428, 5, 885, 442⟩) ∧
      ¬ (⟨4, 4428, 5, 885, 442⟩ : WaveStream).LayoutsAgree ∧
    ((⟨4, 0, 0, 0, 0⟩ : WaveStream).allocateBufferWithNotification 1 0x80000004 true true).Exactly
        (.success, ⟨4, 0x80000004, 1, 0x80000004, 0x40000002⟩) ∧
      ¬ (⟨4, 0x80000004, 1, 0x80000004, 0x40000002⟩ : WaveStream).LayoutsAgree := by
  refine ⟨by decide, ?_, by decide, ?_, by decide, ?_⟩
  · rw [WaveStream.layoutsAgree_iff_divides (by decide) (by decide) rfl rfl]
    decide
  · rw [WaveStream.layoutsAgree_iff_divides (by decide) (by decide) rfl rfl]
    decide
  · rw [WaveStream.layoutsAgree_iff_divides (by decide) (by decide) rfl rfl]
    decide

end RpiDrivers.PwmAudio
