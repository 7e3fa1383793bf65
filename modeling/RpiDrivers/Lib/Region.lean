import Mathlib.Data.Nat.Basic

/-!
# Regions of addresses

A region is a start and a length in bytes.

- `Region.Disjoint`: one of them ends before the other one starts.
- `Region.not_disjoint_of_contains`: regions that share an address are not disjoint.
-/

namespace RpiDrivers.Lib

/-- The addresses from `start` on, `length` of them. -/
structure Region where
  start : Nat
  length : Nat
  deriving DecidableEq

namespace Region

variable {a b c : Region} {p : Nat}

/-- The address after the last one. -/
def stop (a : Region) : Nat := a.start + a.length

def Contains (a : Region) (p : Nat) : Prop := a.start ≤ p ∧ p < a.stop

def Disjoint (a b : Region) : Prop := a.stop ≤ b.start ∨ b.stop ≤ a.start

def Inside (a b : Region) : Prop := b.start ≤ a.start ∧ a.stop ≤ b.stop

instance (a b : Region) : Decidable (Disjoint a b) := inferInstanceAs (Decidable (_ ∨ _))

instance (a b : Region) : Decidable (Inside a b) := inferInstanceAs (Decidable (_ ∧ _))

/-- Regions that share an address are not disjoint. -/
theorem not_disjoint_of_contains (ha : a.Contains p) (hb : b.Contains p) : ¬ Disjoint a b := by
  rintro (h | h)
  · exact absurd (Nat.lt_of_lt_of_le ha.2 h) (Nat.not_lt_of_le hb.1)
  · exact absurd (Nat.lt_of_lt_of_le hb.2 h) (Nat.not_lt_of_le ha.1)

end Region

end RpiDrivers.Lib
