import Mathlib.Logic.Basic

/-!
# A hold with two marks

A buffer that fills and drains stops its source when the level comes up to the high mark, and lets
it go on when the level is down to the low mark. Between the marks either may be the case. Where the
low mark is not below the high one, the levels from the one to the other are left open.

- `Agrees`: **what the level says about the hold**, for a hold that is `held` or `freed`; a hold
  that takes a while to end is both in the meantime.
- `Agrees.fill`: what a step up has to do to the hold.
- `agrees_reduced_iff`: what is asked for when a hold is freed from the low mark down.
-/

namespace RpiDrivers.Lib.Watermark

/-- The two marks. -/
structure Marks where
  high : Nat
  low : Nat

variable {m : Marks} {level : Nat} {held freed held' freed' : Prop}

/-- **From the high mark on it is held, and down to the low mark it is freed.** -/
structure Agrees (m : Marks) (level : Nat) (held freed : Prop) : Prop where
  held : m.high ≤ level → m.low < level → held
  freed : level ≤ m.low → level < m.high → freed

/-- A hold that is looked at above the high mark only agrees when it is held there, and freed
elsewhere. -/
theorem agrees_of_level (hheld : m.high ≤ level → held) (hfreed : level < m.high → freed) :
    Agrees m level held freed :=
  ⟨fun h _ => hheld h, fun _ => hfreed⟩

/-- **A step up holds from the high mark on**, and below it what is free stays so. -/
theorem Agrees.fill (h : Agrees m level held freed) (hheld : m.high ≤ level + 1 → held')
    (hfreed : level + 1 < m.high → freed → freed') : Agrees m (level + 1) held' freed' := by
  refine ⟨fun hhigh _ => hheld hhigh, fun hlow hhigh => hfreed hhigh (h.freed ?_ ?_)⟩
  · exact Nat.le_of_succ_le hlow
  · exact Nat.lt_of_succ_lt hhigh

/-- **When what comes down to the low mark is freed**, all that is asked for is a hold above both
marks. -/
theorem agrees_reduced_iff (hfreed : level ≤ m.low → freed')
    (hsame : m.low < level → (held' ↔ held)) :
    Agrees m level held' freed' ↔ (m.high ≤ level → m.low < level → held) := by
  constructor
  · intro h hhigh hlow
    exact (hsame hlow).1 (h.held hhigh hlow)
  · intro h
    exact ⟨fun hhigh hlow => (hsame hlow).2 (h hhigh hlow), fun hlow _ => hfreed hlow⟩

end RpiDrivers.Lib.Watermark
