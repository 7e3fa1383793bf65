import Mathlib.Algebra.Order.Field.Rat
import Mathlib.Tactic.FieldSimp
import Mathlib.Tactic.Linarith
import Mathlib.Tactic.Ring

/-!
# Clock dividers

A divider register makes a slow clock of a fast one. A driver that divides the source clock by the
requested rate rounds towards the smaller divisor, and so towards the faster clock.

- `rate`: the rate that a divisor gives.
- `requested_le_rate`: **rounding the divisor down never gives a slower clock**.
- `rate_div_le_iff`: it gives no faster one exactly when the requested rate divides the source.
- `abs_rate_div_sub`, `abs_rate_div_sub_le_iff`: how far the rate is off.
- `abs_rate_sub_le_iff`: a rate that is off by a percentage, without fractions.
- `exists_near_iff`: **among the divisors up to a bound one is near enough exactly when one of the
  two next to the quotient is**.
- `ClockDivider.Right`: a field that fits, is legal and is the fastest that is not too fast.
- `ClockDivider.right_iff`: when a divisor that is rounded to a multiple is right.
- `ClockDivider.Fastest`: the fastest of the clocks that are not too fast.
- `ClockDivider.fastest_iff`: it is enough to look at the next smaller divisor.
-/

namespace RpiDrivers.Lib

/-- The rate of a source clock divided by `divisor`. -/
def rate (source divisor : Nat) : ℚ := source / divisor

variable {source requested d : Nat}

theorem rate_le_iff (hd : 0 < d) : rate source d ≤ requested ↔ source ≤ requested * d := by
  rw [rate, div_le_iff₀ (by exact_mod_cast hd)]
  norm_cast

theorem le_rate_iff (hd : 0 < d) : requested ≤ rate source d ↔ requested * d ≤ source := by
  rw [rate, le_div_iff₀ (by exact_mod_cast hd)]
  norm_cast

/-- **Rounding the divisor down never gives a slower clock.** -/
theorem requested_le_rate (hd : 0 < d) (h : d ≤ source / requested) :
    requested ≤ rate source d := by
  rw [le_rate_iff hd, Nat.mul_comm]
  exact (Nat.mul_le_mul_right _ h).trans (Nat.div_mul_le_self ..)

/-- The rounded divisor gives no faster clock exactly when nothing was rounded off. -/
theorem rate_div_le_iff (hd : 0 < source / requested) :
    rate source (source / requested) ≤ requested ↔ requested ∣ source := by
  rw [rate_le_iff hd]
  constructor
  · exact fun h => ⟨_, h.antisymm (Nat.mul_div_le ..)⟩
  · exact fun h => (Nat.mul_div_cancel' h).ge

/-- How far the rate of the rounded divisor is off. -/
theorem abs_rate_div_sub (hd : 0 < source / requested) :
    |rate source (source / requested) - requested| =
      (source % requested : Nat) / (source / requested : Nat) := by
  have hd' : ((source / requested : Nat) : ℚ) ≠ 0 := by exact_mod_cast hd.ne'
  have h : (source : ℚ) = requested * (source / requested : Nat) + (source % requested : Nat) := by
    exact_mod_cast (Nat.div_add_mod source requested).symm
  rw [abs_of_nonneg (sub_nonneg.2 (requested_le_rate hd le_rfl)), rate, eq_div_iff hd', sub_mul,
    div_mul_cancel₀ _ hd']
  linarith

/-- The rate is off by at most so many percent when what is rounded off is small. -/
theorem abs_rate_div_sub_le_iff (hd : 0 < source / requested) (percent : Nat) :
    |rate source (source / requested) - requested| ≤ requested * percent / 100 ↔
      (100 + percent) * (source % requested) ≤ percent * source := by
  have hd' : (0 : ℚ) < (source / requested : Nat) := by exact_mod_cast hd
  have h := Nat.div_add_mod source requested
  rw [abs_rate_div_sub hd, div_le_div_iff₀ hd' (by norm_num)]
  have hs : percent * source = requested * percent * (source / requested) +
      percent * (source % requested) := by
    conv_lhs => rw [← h]
    ring
  rw [hs, Nat.add_mul, Nat.add_le_add_iff_right, Nat.mul_comm 100]
  norm_cast

/-- The integer part of a rate is off by what is rounded off, divided by the divisor. -/
theorem div_div_self_eq (hd : 0 < source / requested) :
    source / (source / requested) =
      requested + source % requested / (source / requested) := by
  have h : source / requested * requested + source % requested = source :=
    (Nat.mul_comm ..).symm ▸ Nat.div_add_mod ..
  calc source / (source / requested)
      = (source / requested * requested + source % requested) / (source / requested) := by rw [h]
    _ = requested + source % requested / (source / requested) := Nat.mul_add_div hd ..

/-! ## Divisors that are near -/

/-- A rate that is off by at most so many percent. -/
theorem abs_rate_sub_le_iff (hd : 0 < d) {percent : Nat} (hp : percent ≤ 100) :
    |rate source d - requested| ≤ requested * percent / 100 ↔
      (100 - percent) * (requested * d) ≤ 100 * source ∧
        100 * source ≤ (100 + percent) * (requested * d) := by
  have hd' : (0 : ℚ) < d := by exact_mod_cast hd
  have hsource : (source : ℚ) = rate source d * d := (div_mul_cancel₀ _ hd'.ne').symm
  have hlow : (100 - percent) * (requested * d) ≤ 100 * source ↔
      (100 - percent : ℚ) * requested ≤ 100 * rate source d := by
    rw [← mul_le_mul_iff_left₀ hd', mul_assoc, mul_assoc, ← hsource, ← Nat.cast_le (α := ℚ)]
    push_cast [Nat.cast_sub hp]
    rfl
  have hhigh : 100 * source ≤ (100 + percent) * (requested * d) ↔
      100 * rate source d ≤ (100 + percent : ℚ) * requested := by
    rw [← mul_le_mul_iff_left₀ hd', mul_assoc, mul_assoc, ← hsource, ← Nat.cast_le (α := ℚ)]
    push_cast
    rfl
  rw [hlow, hhigh, abs_le]
  constructor
  · rintro ⟨h, h'⟩
    constructor <;> linarith
  · rintro ⟨h, h'⟩
    constructor <;> linarith

/-- **The two divisors next to the quotient are enough**: when a divisor up to the bound is near,
the quotient is, as far as the bound allows, or the next one. -/
theorem exists_near_iff {a b c n bound : Nat} (hac : a ≤ c) (hcb : c ≤ b) (hn : 0 < n) :
    (∃ k, 0 < k ∧ k ≤ bound ∧ a * (n * k) ≤ c * source ∧ c * source ≤ b * (n * k)) ↔
      (0 < min (source / n) bound ∧ c * source ≤ b * (n * min (source / n) bound)) ∨
      (source / n < bound ∧ a * (n * (source / n + 1)) ≤ c * source) := by
  constructor
  · rintro ⟨k, hk, hbound, hlow, hhigh⟩
    rcases Nat.lt_or_ge (source / n) k with hlt | hge
    · refine .inr ⟨by omega, (Nat.mul_le_mul_left a (Nat.mul_le_mul_left n hlt)).trans hlow⟩
    · have hmin : k ≤ min (source / n) bound := le_min hge hbound
      exact .inl ⟨by omega, hhigh.trans (Nat.mul_le_mul_left b (Nat.mul_le_mul_left n hmin))⟩
  · rintro (⟨hpos, hhigh⟩ | ⟨hlt, hlow⟩)
    · refine ⟨_, hpos, min_le_right _ _, ?_, hhigh⟩
      -- the quotient is too small rather than too large
      calc a * (n * min (source / n) bound) ≤ c * (n * (source / n)) :=
            Nat.mul_le_mul hac (Nat.mul_le_mul_left n (min_le_left _ _))
        _ ≤ c * source := Nat.mul_le_mul_left c (Nat.mul_div_le ..)
    · refine ⟨_, Nat.succ_pos _, hlt, hlow, ?_⟩
      calc c * source ≤ c * (n * (source / n + 1)) :=
            Nat.mul_le_mul_left c (Nat.lt_mul_div_succ source hn).le
        _ ≤ b * (n * (source / n + 1)) := Nat.mul_le_mul_right _ hcb

/-- A divider register: how wide its field is, which values the hardware takes, and what the
source clock is divided by. -/
structure ClockDivider where
  width : Nat
  Legal : Nat → Prop
  divisor : Nat → Nat

namespace ClockDivider

variable (c : ClockDivider)

/-- A field that fits, is legal, and makes the fastest clock that is not faster than what was
requested, or one that is a step slower. -/
structure Right (source requested field : Nat) : Prop where
  fits : field < 2 ^ c.width
  legal : c.Legal field
  notFaster : rate source (c.divisor field) ≤ requested
  near : ∀ f, f < 2 ^ c.width → c.Legal f → c.divisor f < c.divisor field →
    requested ≤ rate source (c.divisor f)

variable {c} {field : Nat}

/-- A clock of exactly the requested rate is right. -/
theorem Right.of_rate_eq (hfits : field < 2 ^ c.width) (hlegal : c.Legal field)
    (hpos : ∀ f, c.Legal f → 0 < c.divisor f)
    (h : rate source (c.divisor field) = requested) : c.Right source requested field where
  fits := hfits
  legal := hlegal
  notFaster := h.le
  near f _ hf hlt := by
    rw [← h, rate, rate]
    exact div_le_div_of_nonneg_left (by positivity) (by exact_mod_cast hpos f hf)
      (by exact_mod_cast hlt.le)

/-- **A divisor that is rounded down to a multiple of `m` is right exactly when nothing is rounded
off.** -/
theorem right_iff {m : Nat} (hfits : field < 2 ^ c.width) (hlegal : c.Legal field)
    (hpos : ∀ f, c.Legal f → 0 < c.divisor f) (hquot : 0 < source / (m * requested))
    (hd : c.divisor field = m * (source / (m * requested))) :
    c.Right source requested field ↔ m * requested ∣ source := by
  have hiff : rate source (c.divisor field) ≤ requested ↔ m * requested ∣ source := by
    rw [rate_le_iff (hpos field hlegal), ← rate_div_le_iff hquot, rate_le_iff hquot, hd,
      ← Nat.mul_assoc, Nat.mul_comm requested]
  refine ⟨fun h => hiff.1 h.notFaster, fun h => .of_rate_eq hfits hlegal hpos ?_⟩
  refine (hiff.2 h).antisymm (requested_le_rate (hpos field hlegal) ?_)
  rw [hd, ← Nat.div_div_eq_div_mul, Nat.div_right_comm]
  exact (Nat.mul_div_le ..)

/-! ## The fastest clock -/

variable (c) in
/-- A field that fits, is legal, and makes the fastest of the clocks that are not faster than what
was requested. -/
structure Fastest (source requested field : Nat) : Prop where
  fits : field < 2 ^ c.width
  legal : c.Legal field
  notFaster : rate source (c.divisor field) ≤ requested
  fastest : ∀ f, f < 2 ^ c.width → c.Legal f → rate source (c.divisor f) ≤ requested →
    rate source (c.divisor f) ≤ rate source (c.divisor field)

theorem rate_le_rate {d d' : Nat} (hd : 0 < d) (h : d ≤ d') : rate source d' ≤ rate source d :=
  div_le_div_of_nonneg_left (by positivity) (by exact_mod_cast hd) (by exact_mod_cast h)

theorem rate_lt_rate {d d' : Nat} (hsource : 0 < source) (hd : 0 < d) (h : d < d') :
    rate source d' < rate source d :=
  div_lt_div_of_pos_left (by exact_mod_cast hsource) (by exact_mod_cast hd) (by exact_mod_cast h)

/-- A clock of exactly the requested rate is the fastest. -/
theorem Fastest.of_rate_eq (hfits : field < 2 ^ c.width) (hlegal : c.Legal field)
    (h : rate source (c.divisor field) = requested) : c.Fastest source requested field where
  fits := hfits
  legal := hlegal
  notFaster := h.le
  fastest _ _ _ hf := h ▸ hf

/-- With the smallest divisor there is, it is enough not to be too fast. -/
theorem fastest_smallest_iff (hfits : field < 2 ^ c.width) (hlegal : c.Legal field)
    (hpos : 0 < c.divisor field) (hmin : ∀ f, c.Legal f → c.divisor field ≤ c.divisor f) :
    c.Fastest source requested field ↔ source ≤ requested * c.divisor field := by
  rw [← rate_le_iff hpos]
  refine ⟨Fastest.notFaster, fun h => ⟨hfits, hlegal, h, ?_⟩⟩
  intro f _ hf _
  exact rate_le_rate hpos (hmin f hf)

/-- **A clock is the fastest exactly when it is not too fast and the next smaller divisor makes
one that is.** -/
theorem fastest_iff {prev : Nat} (hfits : field < 2 ^ c.width) (hlegal : c.Legal field)
    (hprevFits : prev < 2 ^ c.width) (hprevLegal : c.Legal prev)
    (hpos : ∀ f, c.Legal f → 0 < c.divisor f) (hlt : c.divisor prev < c.divisor field)
    (hnext : ∀ f, c.Legal f → c.divisor f < c.divisor field → c.divisor f ≤ c.divisor prev)
    (hsource : 0 < source) :
    c.Fastest source requested field ↔
      source ≤ requested * c.divisor field ∧ requested * c.divisor prev < source := by
  have hfield := hpos field hlegal
  have hprev := hpos prev hprevLegal
  constructor
  · intro h
    refine ⟨(rate_le_iff hfield).1 h.notFaster, ?_⟩
    by_contra hnot
    have hle := h.fastest prev hprevFits hprevLegal ((rate_le_iff hprev).2 (Nat.not_lt.1 hnot))
    exact absurd (rate_lt_rate hsource hprev hlt) hle.not_gt
  · rintro ⟨hle, htoo⟩
    refine ⟨hfits, hlegal, (rate_le_iff hfield).2 hle, ?_⟩
    intro f _ hf hslow
    refine rate_le_rate hfield (Nat.le_of_not_lt fun hless => ?_)
    -- a smaller divisor is at most the next smaller one, and that is too fast
    have hsmall := Nat.mul_le_mul_left requested (hnext f hf hless)
    have hf' := (rate_le_iff (hpos f hf)).1 hslow
    omega

end ClockDivider

end RpiDrivers.Lib
