import RpiDrivers.PwmAudio.PacketDma
import RpiDrivers.Lib.Ring

/-!
# The ring of audio packets

Packets are numbered, and the index of a packet is its number modulo the ring. Packets that are not
further apart than the ring are told by their indices.

- `previousPacketIndex_scan`: the packet that the registers tell, when they mark the one after it.
- `getNumberOfProcessedPackets_eq`: the number of packets from the indices of the last ones.
- `Ring`: the packets that are linked. `Ring.link`, `Ring.unlink`: packets are linked and unlinked.
-/

namespace RpiDrivers.PwmAudio

open RpiDrivers.Lib

/-! ## Packets and indices -/

theorem previousPacketIndex_mod {n : Nat} (hn : 0 < n) (p : Nat) :
    previousPacketIndex ((p + 1) % n) n = p % n := by
  rw [succ_mod hn p, previousPacketIndex]
  split_ifs with hlast hzero <;> omega

/-- The loop ends at the first packet whose address is not below the value. -/
theorem scanPackets_eq {address : Nat → Nat} {value k : Nat} (hk : value ≤ address k) :
    ∀ {left i : Nat}, (∀ j, i ≤ j → j < k → address j < value) → i ≤ k → k < i + left →
      scanPackets address value i left = k
  | 0, i, _, hi, hlt => by omega
  | left + 1, i, hbelow, hi, hlt => by
    rw [scanPackets]
    split_ifs with hvalue
    · have hne : i ≠ k := by
        rintro rfl
        omega
      exact scanPackets_eq hk (fun j hj => hbelow j (by omega)) (by omega) (by omega)
    · by_contra hne
      exact hvalue (hbelow i (le_refl i) (by omega))

/-- The loop ends behind the last packet when all addresses are below the value. -/
theorem scanPackets_all {address : Nat → Nat} {value : Nat} :
    ∀ {left i : Nat}, (∀ j, i ≤ j → j < i + left → address j < value) →
      scanPackets address value i left = i + left
  | 0, i, _ => rfl
  | left + 1, i, hbelow => by
    rw [scanPackets, if_pos (hbelow i (le_refl i) (by omega)),
      scanPackets_all fun j hj hlt => hbelow j (by omega) (by omega)]
    omega

/-- When the packet after `p` is marked, `p` is found. -/
theorem previousPacketIndex_scan {address : Nat → Nat} {n value p : Nat} (hn : 0 < n)
    (hm : Marks address n value ((p + 1) % n)) :
    previousPacketIndex (scanPackets address value 0 n) n = p % n := by
  rcases hm with ⟨hbelow, hle⟩ | ⟨hzero, hbelow⟩
  · have hlt := Nat.mod_lt (p + 1) hn
    rw [scanPackets_eq hle (fun j _ hj => hbelow j hj) (Nat.zero_le _) (by omega),
      previousPacketIndex_mod hn]
  · have hscan : scanPackets address value 0 n = n := by
      rw [scanPackets_all fun j _ hj => hbelow j (by omega)]
      omega
    have hindex := previousPacketIndex_mod hn p
    rw [hzero, previousPacketIndex, if_neg (by omega)] at hindex
    rw [hscan, previousPacketIndex, if_pos (by omega), hindex]

/-- The last packet that is known to be completed, when `d` have been counted. -/
def lastKnown (n d : Nat) : Nat := if d = 0 then noLastCompletedPacket else (d - 1) % n

/-- **The number of packets**: the difference of two indices, when at most a ring lies between. -/
theorem getNumberOfProcessedPackets_eq {n d p : Nat} (hn : 0 < n) (hmax : n ≤ 65536) (hd : d ≤ p)
    (hp : p < d + n) : getNumberOfProcessedPackets (p % n) (lastKnown n d) n = p + 1 - d := by
  rcases Nat.eq_zero_or_pos d with rfl | hpos
  · rw [getNumberOfProcessedPackets, lastKnown, if_pos rfl, if_pos rfl,
      Nat.mod_eq_of_lt (by omega)]
    omega
  · have hlt := Nat.mod_lt (d - 1) hn
    have hlast : (d - 1) % n ≠ noLastCompletedPacket := by
      unfold noLastCompletedPacket
      omega
    have hmod : p % n = ((d - 1) % n + (p + 1 - d)) % n := by
      rw [Nat.mod_add_mod]
      congr 1
      omega
    rw [lastKnown, if_neg (by omega), getNumberOfProcessedPackets, if_neg hlast, hmod]
    generalize (d - 1) % n = r at hlt
    have hm : 0 < p + 1 - d ∧ p + 1 - d ≤ n := by omega
    generalize p + 1 - d = m at hm
    rcases Nat.lt_or_ge (r + m) n with hring | hring
    · rw [Nat.mod_eq_of_lt hring]
      split_ifs <;> omega
    · have hwrap : (r + m) % n = r + m - n := by
        rw [Nat.mod_eq_sub_mod hring, Nat.mod_eq_of_lt (by omega)]
      rw [hwrap]
      split_ifs <;> omega

/-- The indices that are unlinked are those of the last packets. -/
theorem mem_packetsToUnlink {n : Nat} (hn : 0 < n) {i : Nat} :
    ∀ {left c start : Nat}, (0 < left → start = (c - 1) % n) → left ≤ c →
      (i ∈ packetsToUnlink n start left ↔ ∃ p, c - left ≤ p ∧ p < c ∧ p % n = i)
  | 0, c, start, _, _ => by
    constructor
    · exact fun h => nomatch h
    · rintro ⟨p, hle, hlt, -⟩
      omega
  | left + 1, c, start, hstart, hleft => by
    have hprevious : 0 < left → previousPacketIndex start n = (c - 1 - 1) % n := by
      intro hpos
      have hc : c - 1 = c - 1 - 1 + 1 := by omega
      rw [hstart (by omega), hc, previousPacketIndex_mod hn]
      rfl
    rw [packetsToUnlink, List.mem_cons, mem_packetsToUnlink hn hprevious (by omega),
      hstart (by omega)]
    constructor
    · rintro (rfl | ⟨p, hle, hlt, hp⟩)
      · exact ⟨c - 1, by omega, by omega, rfl⟩
      · exact ⟨p, by omega, by omega, hp⟩
    · rintro ⟨p, hle, hlt, hp⟩
      by_cases hlast : p = c - 1
      · exact .inl (by rw [← hp, hlast])
      · exact .inr ⟨p, by omega, by omega, hp⟩

/-! ## Control blocks and links -/

namespace Config

variable (cfg : Config)

theorem dmaNumPackets_pos : 0 < cfg.dmaNumPackets :=
  Nat.div_pos cfg.packetSize_le (Nat.lt_of_le_of_lt (Nat.zero_le _) cfg.lt_packetSize)

theorem dmaNumPackets_le : cfg.dmaNumPackets ≤ 65536 := Nat.div_le_self _ _

/-- The ring is closed: packet `p` is linked to the one after it. -/
theorem linkPtr_succ (p : Nat) :
    cfg.linkPtr ((p + 1) % cfg.dmaNumPackets) = 2 * (p % cfg.dmaNumPackets) + 1 := by
  have hindex := previousPacketIndex_mod cfg.dmaNumPackets_pos p
  rw [previousPacketIndex] at hindex
  rw [linkPtr]
  split_ifs at hindex ⊢ <;> omega

theorem linkPtr_odd (i : Nat) : cfg.linkPtr i % 2 = 1 := by
  rw [linkPtr]
  split_ifs <;> omega

theorem linkPtr_inj {i j : Nat} (hi : i < cfg.dmaNumPackets) (hj : j < cfg.dmaNumPackets)
    (h : cfg.linkPtr i = cfg.linkPtr j) : i = j := by
  rw [linkPtr, linkPtr] at h
  split_ifs at h <;> omega

end Config

section Links

variable {cfg : Config} {dmaCb : Nat → DmaCb}

theorem setLink_even (i : Nat) (value : BusPointer) (k : Nat) :
    Pwm.setLink cfg dmaCb i value (2 * k) = dmaCb (2 * k) := by
  have hodd := cfg.linkPtr_odd i
  exact if_neg (by omega)

theorem inten_setLink (i : Nat) (value : BusPointer) (j : Nat) :
    (Pwm.setLink cfg dmaCb i value j).inten = (dmaCb j).inten := by
  rw [Pwm.setLink]
  split_ifs <;> rfl

/-- A link is written, and the others stay. -/
theorem nextConbk_setLink {i j : Nat} (hi : i < cfg.dmaNumPackets) (hj : j < cfg.dmaNumPackets)
    (value : BusPointer) :
    (Pwm.setLink cfg dmaCb i value (cfg.linkPtr j)).nextConbk =
      if j = i then value else (dmaCb (cfg.linkPtr j)).nextConbk := by
  rw [Pwm.setLink]
  by_cases h : j = i
  · rw [if_pos (by rw [h]), if_pos h]
  · rw [if_neg fun hptr => h (cfg.linkPtr_inj hj hi hptr), if_neg h]

theorem unlink_even : ∀ (is : List Nat) (dmaCb : Nat → DmaCb) (k : Nat),
    Pwm.unlink cfg dmaCb is (2 * k) = dmaCb (2 * k)
  | [], _, _ => rfl
  | i :: is, dmaCb, k => by
    rw [Pwm.unlink, unlink_even is]
    exact setLink_even i .null k

theorem inten_unlink : ∀ (is : List Nat) (dmaCb : Nat → DmaCb) (j : Nat),
    (Pwm.unlink cfg dmaCb is j).inten = (dmaCb j).inten
  | [], _, _ => rfl
  | i :: is, dmaCb, j => by
    rw [Pwm.unlink, inten_unlink is]
    exact inten_setLink i .null j

theorem nextConbk_unlink {j : Nat} (hj : j < cfg.dmaNumPackets) :
    ∀ (is : List Nat) (dmaCb : Nat → DmaCb), (∀ i ∈ is, i < cfg.dmaNumPackets) →
      (Pwm.unlink cfg dmaCb is (cfg.linkPtr j)).nextConbk =
        if j ∈ is then .null else (dmaCb (cfg.linkPtr j)).nextConbk
  | [], dmaCb, _ => by simp [Pwm.unlink]
  | i :: is, dmaCb, his => by
    rw [Pwm.unlink, nextConbk_unlink hj is _ fun i hi => his i (List.mem_cons_of_mem _ hi),
      nextConbk_setLink (his i List.mem_cons_self) hj]
    by_cases hmem : j ∈ is
    · simp [hmem]
    · by_cases hji : j = i <;> simp [hmem, hji]

end Links

/-! ## The packets that are linked -/

/-- The packets that are linked are those that have not been counted. -/
structure Ring (cfg : Config) (dmaCb : Nat → DmaCb) (owner : Nat → Option Nat)
    (counted linked : Nat) : Prop where
  packets : ∀ i < cfg.dmaNumPackets, ∀ p,
    owner i = some p ↔ counted ≤ p ∧ p < linked ∧ p % cfg.dmaNumPackets = i
  links : ∀ i < cfg.dmaNumPackets,
    (dmaCb (cfg.linkPtr i)).nextConbk = if (owner i).isSome then cfg.linkValue i else .null

/-- The control blocks, but for the links. -/
structure Blocks (cfg : Config) (dmaCb : Nat → DmaCb) : Prop where
  first : ∀ i, dmaCb (2 * i) = cfg.firstCb i
  second : ∀ i, (dmaCb (2 * i + 1)).inten = true

section Links

variable {cfg : Config} {dmaCb : Nat → DmaCb} {owner : Nat → Option Nat} {counted linked : Nat}

theorem Blocks.setLink (h : Blocks cfg dmaCb) (i : Nat) (value : BusPointer) :
    Blocks cfg (Pwm.setLink cfg dmaCb i value) := by
  refine ⟨fun k => ?_, fun k => ?_⟩
  · rw [setLink_even]
    exact h.first k
  · rw [inten_setLink]
    exact h.second k

theorem Blocks.unlink (h : Blocks cfg dmaCb) (is : List Nat) :
    Blocks cfg (Pwm.unlink cfg dmaCb is) := by
  refine ⟨fun k => ?_, fun k => ?_⟩
  · rw [unlink_even]
    exact h.first k
  · rw [inten_unlink]
    exact h.second k

/-- A packet is linked when there is room for it. -/
theorem Ring.link (h : Ring cfg dmaCb owner counted linked) (hle : counted ≤ linked)
    (hroom : linked < counted + cfg.dmaNumPackets) :
    Ring cfg
      (Pwm.setLink cfg dmaCb (linked % cfg.dmaNumPackets)
        (cfg.linkValue (linked % cfg.dmaNumPackets)))
      (fun i => if i = linked % cfg.dmaNumPackets then some linked else owner i)
      counted (linked + 1) := by
  have hslot := Nat.mod_lt linked cfg.dmaNumPackets_pos
  refine ⟨fun i hi p => ?_, fun i hi => ?_⟩
  · by_cases hi' : i = linked % cfg.dmaNumPackets
    · rw [if_pos hi', Option.some_inj]
      constructor
      · rintro rfl
        exact ⟨hle, Nat.lt_succ_self _, hi'.symm⟩
      · rintro ⟨hp, hlt, hmod⟩
        exact (eq_of_mod_eq (hmod.trans hi') hp (by omega) hle hroom).symm
    · rw [if_neg hi', h.packets i hi p]
      constructor
      · rintro ⟨hp, hlt, hmod⟩
        exact ⟨hp, by omega, hmod⟩
      · rintro ⟨hp, hlt, hmod⟩
        refine ⟨hp, ?_, hmod⟩
        by_contra hge
        have heq : p = linked := by omega
        exact hi' (by rw [← hmod, heq])
  · rw [nextConbk_setLink hslot hi]
    by_cases hi' : i = linked % cfg.dmaNumPackets
    · rw [if_pos hi', if_pos hi', Option.isSome_some, if_pos rfl, hi']
    · rw [if_neg hi', if_neg hi']
      exact h.links i hi

/-- The first of the packets are unlinked. -/
theorem Ring.unlink (h : Ring cfg dmaCb owner counted linked) {is : List Nat} {upTo : Nat}
    (hle : counted ≤ upTo) (hroom : linked ≤ counted + cfg.dmaNumPackets)
    (his : ∀ i, i ∈ is ↔ ∃ p, counted ≤ p ∧ p < upTo ∧ p % cfg.dmaNumPackets = i) :
    Ring cfg (Pwm.unlink cfg dmaCb is) (fun i => if i ∈ is then none else owner i) upTo linked := by
  refine ⟨fun i hi p => ?_, fun i hi => ?_⟩
  · by_cases hmem : i ∈ is
    · obtain ⟨q, hq, hlt, hmod⟩ := (his i).1 hmem
      rw [if_pos hmem]
      constructor
      · exact fun hnone => nomatch hnone
      · rintro ⟨hp, hpl, hpm⟩
        have heq := eq_of_mod_eq (hpm.trans hmod.symm) (by omega) (by omega) hq (by omega)
        omega
    · rw [if_neg hmem, h.packets i hi p]
      constructor
      · rintro ⟨hp, hpl, hpm⟩
        refine ⟨?_, hpl, hpm⟩
        by_contra hge
        exact hmem ((his i).2 ⟨p, hp, by omega, hpm⟩)
      · rintro ⟨hp, hpl, hpm⟩
        exact ⟨by omega, hpl, hpm⟩
  · have hindex : ∀ j ∈ is, j < cfg.dmaNumPackets := fun j hj => by
      obtain ⟨q, -, -, hq⟩ := (his j).1 hj
      rw [← hq]
      exact Nat.mod_lt _ cfg.dmaNumPackets_pos
    rw [nextConbk_unlink hi is dmaCb hindex]
    by_cases hmem : i ∈ is
    · rw [if_pos hmem, if_pos hmem]
      rfl
    · rw [if_neg hmem, if_neg hmem]
      exact h.links i hi

/-- What is unlinked has been completed. -/
theorem Ring.owner_lt (h : Ring cfg dmaCb owner counted linked) {is : List Nat} {upTo : Nat}
    (hlinked : upTo ≤ linked) (hroom : linked ≤ counted + cfg.dmaNumPackets)
    (his : ∀ i, i ∈ is ↔ ∃ p, counted ≤ p ∧ p < upTo ∧ p % cfg.dmaNumPackets = i) :
    ∀ p ∈ is.filterMap owner, p < upTo := by
  intro p hp
  obtain ⟨i, hi, howner⟩ := List.mem_filterMap.1 hp
  obtain ⟨q, hq, hlt, hmod⟩ := (his i).1 hi
  have hindex : i < cfg.dmaNumPackets := by
    rw [← hmod]
    exact Nat.mod_lt _ cfg.dmaNumPackets_pos
  obtain ⟨hp, hpl, hpm⟩ := (h.packets i hindex p).1 howner
  have heq := eq_of_mod_eq (hpm.trans hmod.symm) hp (by omega) hq (by omega)
  omega

end Links

end RpiDrivers.PwmAudio
