import Mathlib.Algebra.Ring.Nat

/-!
# Numbers and their places in a ring

A ring of `n` places holds the numbers of a window that is not longer than `n`, each at its
remainder. A place then tells its number.

- `eq_of_mod_eq`: numbers of one window are told by their places.
- `succ_mod`: the place after another one.
- `add_mod_eq_iff`: when a walk from one place comes to another one.
-/

namespace RpiDrivers.Lib

/-- **A place tells its number**, in a window that starts at `d`. -/
theorem eq_of_mod_eq {n d p q : Nat} (h : p % n = q % n) (hp : d ≤ p) (hpn : p < d + n)
    (hq : d ≤ q) (hqn : q < d + n) : p = q := by
  rcases Nat.le_total p q with hle | hle
  · have hzero : (q - p) % n = 0 := Nat.sub_mod_eq_zero_of_mod_eq h.symm
    rw [Nat.mod_eq_of_lt (by omega)] at hzero
    omega
  · have hzero : (p - q) % n = 0 := Nat.sub_mod_eq_zero_of_mod_eq h
    rw [Nat.mod_eq_of_lt (by omega)] at hzero
    omega

/-- Different numbers of one window have different places. -/
theorem mod_ne_of_ne {n d p q : Nat} (hne : p ≠ q) (hp : d ≤ p) (hpn : p < d + n)
    (hq : d ≤ q) (hqn : q < d + n) : p % n ≠ q % n :=
  fun h => hne (eq_of_mod_eq h hp hpn hq hqn)

/-- The place after that of `p`. -/
theorem succ_mod {n : Nat} (hn : 0 < n) (p : Nat) :
    (p + 1) % n = if p % n + 1 = n then 0 else p % n + 1 := by
  have hlt := Nat.mod_lt p hn
  rw [← Nat.mod_add_mod]
  split_ifs with hlast
  · rw [hlast, Nat.mod_self]
  · exact Nat.mod_eq_of_lt (by omega)

/-- A walk from the place `b` comes to the place `e` after the distance between them. -/
theorem add_mod_eq_iff {n b e m : Nat} (he : e < n) (hb : b < n) (hm : m ≤ (e + n - b) % n) :
    (b + m) % n = e ↔ m = (e + n - b) % n := by
  have hlt := Nat.mod_lt (e + n - b) (Nat.zero_lt_of_lt he)
  have hend : (b + (e + n - b) % n) % n = e := by
    rw [Nat.add_mod_mod, show b + (e + n - b) = e + n by omega, Nat.add_mod_right,
      Nat.mod_eq_of_lt he]
  constructor
  · intro heq
    have hsame : b + m = b + (e + n - b) % n :=
      eq_of_mod_eq (d := b) (heq.trans hend.symm) (by omega) (by omega) (by omega) (by omega)
    omega
  · rintro rfl
    exact hend

end RpiDrivers.Lib
