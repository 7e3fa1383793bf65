import Mathlib.Logic.Basic

/-!
# Status registers that are cleared by writing ones

The hardware sets the bits of a status register. An interrupt routine reads it, reports what it
has read, and writes ones to clear the bits. What the hardware sets between the read and the write
is at risk.

- `StatusRegister`: the register, with the bits that still have to be reported.
- `StatusRegister.Lost`: a bit that was set is neither reported nor in the register any more.
- `StatusRegister.Held`: the bits that a routine has read stay set until it clears them.
- `StatusRegister.Held.lost_clear`: **clearing what was read loses nothing.**
- `StatusRegister.lost_clear`: clearing anything else loses what is owed of it.
-/

namespace RpiDrivers.Lib

/-- A status register of `w` bits. -/
structure StatusRegister (w : Nat) where
  status : BitVec w
  /-- ghost: set by the hardware, and not read since by a routine that reports it -/
  owed : Nat → Bool
  /-- ghost: read by the routine that is running, and not reported yet -/
  taken : Nat → Bool

namespace StatusRegister

variable {w : Nat}

def start : StatusRegister w := ⟨0, fun _ => false, fun _ => false⟩

/-- The hardware sets bits; a bit that is set already is not set again. -/
def raise (bits : BitVec w) (r : StatusRegister w) : StatusRegister w :=
  { r with
    status := r.status ||| bits
    owed := fun i => r.owed i || (bits.getLsbD i && !r.status.getLsbD i) }

/-- A routine reads the register, and is to report what it reads. -/
def read (r : StatusRegister w) : StatusRegister w :=
  { r with
    owed := fun i => r.owed i && !r.status.getLsbD i
    taken := fun i => r.taken i || (r.owed i && r.status.getLsbD i) }

/-- The ones that are written clear their bits. -/
def clear (bits : BitVec w) (r : StatusRegister w) : StatusRegister w :=
  { r with status := r.status &&& ~~~bits }

/-- The routine returns. What it has read and does not tell is owed again. -/
def report (told : Nat → Bool) (r : StatusRegister w) : StatusRegister w :=
  { r with
    owed := fun i => r.owed i || (r.taken i && !told i)
    taken := fun _ => false }

/-- A bit was set, and is neither reported nor pending. -/
def Lost (r : StatusRegister w) (i : Nat) : Prop := r.owed i = true ∧ r.status.getLsbD i = false

instance (r : StatusRegister w) (i : Nat) : Decidable (r.Lost i) :=
  inferInstanceAs (Decidable (_ ∧ _))

/-- What has been read is still set, and has not been set once more. -/
def Held (read : BitVec w) (r : StatusRegister w) : Prop :=
  ∀ i, read.getLsbD i = true → r.status.getLsbD i = true ∧ r.owed i = false

/-- What the routine has taken is among what it has read. -/
def TakenOf (read : BitVec w) (r : StatusRegister w) : Prop :=
  ∀ i, r.taken i = true → read.getLsbD i = true

variable {r : StatusRegister w} {i : Nat} {v bits : BitVec w} {told : Nat → Bool}

theorem not_lost_start : ¬ (start : StatusRegister w).Lost i := fun h => Bool.noConfusion h.1

/-! ## Setting bits -/

theorem lost_raise (h : (r.raise bits).Lost i) : r.Lost i := by
  obtain ⟨howed, hstatus⟩ := h
  simp only [raise, BitVec.getLsbD_or, Bool.or_eq_false_iff] at hstatus
  simp only [raise, hstatus.2, Bool.false_and, Bool.or_false] at howed
  exact ⟨howed, hstatus.1⟩

theorem Held.raise (h : Held v r) : Held v (r.raise bits) := by
  intro i hi
  obtain ⟨hstatus, howed⟩ := h i hi
  simp [StatusRegister.raise, hstatus, howed]

/-! ## Reading -/

theorem lost_read (h : r.read.Lost i) : r.Lost i := by
  obtain ⟨howed, hstatus⟩ := h
  exact ⟨(Bool.and_eq_true_iff.1 howed).1, hstatus⟩

/-- After the read nothing is owed but what was lost before. -/
theorem lost_of_owed_read (h : r.read.owed i = true) : r.Lost i := by
  obtain ⟨howed, hstatus⟩ := Bool.and_eq_true_iff.1 h
  exact ⟨howed, by simpa using hstatus⟩

theorem held_read (r : StatusRegister w) : Held r.status r.read := by
  intro i hi
  refine ⟨hi, ?_⟩
  simp [read, hi]

theorem takenOf_read (h : ∀ i, r.taken i = false) : TakenOf r.status r.read := by
  intro i hi
  simp only [read, h i, Bool.false_or, Bool.and_eq_true] at hi
  exact hi.2

/-! ## Clearing -/

/-- Clearing loses what is owed of the bits. -/
theorem lost_clear (h : (r.clear bits).Lost i) :
    r.Lost i ∨ r.owed i = true ∧ bits.getLsbD i = true := by
  obtain ⟨howed, hstatus⟩ := h
  by_cases hset : r.status.getLsbD i = true
  · have hlt := BitVec.lt_of_getLsbD hset
    simp only [clear, BitVec.getLsbD_and, BitVec.getLsbD_not, hset, hlt, decide_true,
      Bool.true_and, Bool.not_eq_false'] at hstatus
    exact .inr ⟨howed, hstatus⟩
  · exact .inl ⟨howed, Bool.not_eq_true _ ▸ hset⟩

/-- **Clearing what was read loses nothing.** -/
theorem Held.lost_clear (h : Held v r) (hbits : bits.getLsbD i = true → v.getLsbD i = true)
    (hlost : (r.clear bits).Lost i) : r.Lost i := by
  rcases StatusRegister.lost_clear hlost with hlost | ⟨howed, hset⟩
  · exact hlost
  · rw [(h i (hbits hset)).2] at howed
    cases howed

/-! ## Reporting -/

/-- What was taken and is not told is lost, unless it is still set. -/
theorem lost_report (h : (r.report told).Lost i) :
    r.Lost i ∨ r.taken i = true ∧ told i = false := by
  obtain ⟨howed, hstatus⟩ := h
  rcases Bool.or_eq_true_iff.1 howed with howed | htaken
  · exact .inl ⟨howed, hstatus⟩
  · obtain ⟨htaken, htold⟩ := Bool.and_eq_true_iff.1 htaken
    exact .inr ⟨htaken, by simpa using htold⟩

end StatusRegister

end RpiDrivers.Lib
