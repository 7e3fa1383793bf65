import Mathlib.Data.List.Range
import Mathlib.Tactic.SplitIfs

/-!
# The bits of a word, lowest first

A word is scanned by shifting it right and looking for its lowest set bit, then going on behind the
bit that was found. A shift by the width of the word or more is not defined.

- `bitScanForward`: the lowest set bit.
- `bitScan`: the bits that the scan visits, `none` when it needs a shift that is not defined.
- `bitScan_eq`: **the scan visits the set bits, each once and in order, unless the top bit is set**.
-/

namespace RpiDrivers.Lib

variable {w : Nat}

/-- The index of the lowest set bit. -/
def bitScanForward (m : BitVec w) : Option Nat := (List.range w).find? m.getLsbD

/-- The scan from the index `i` on; the fuel bounds the number of bits. -/
def bitScanFrom (m : BitVec w) : Nat → Nat → Option (List Nat)
  | 0, _ => none
  | fuel + 1, i =>
    if i < w then
      match bitScanForward (m >>> i) with
      | none => some []
      | some firstSetIndex =>
        (bitScanFrom m fuel (i + firstSetIndex + 1)).map ((i + firstSetIndex) :: ·)
    else none

def bitScan (m : BitVec w) : Option (List Nat) := bitScanFrom m w 0

/-- The set bits. -/
def setBits (m : BitVec w) : List Nat := (List.range w).filter m.getLsbD

/-- Those from `i` on. -/
def setBitsFrom (m : BitVec w) (i : Nat) : List Nat := (List.range' i (w - i)).filter m.getLsbD

/-- The first set bit from `i` on. -/
theorem setBitsFrom_eq_cons (m : BitVec w) {i k : Nat} (hk : i + k < w)
    (hset : m.getLsbD (i + k) = true) (hclear : ∀ j < k, m.getLsbD (i + j) = false) :
    setBitsFrom m i = (i + k) :: setBitsFrom m (i + k + 1) := by
  have hsplit : List.range' i (w - i) =
      List.range' i k ++ (i + k) :: List.range' (i + k + 1) (w - (i + k + 1)) := by
    rw [show w - i = k + (1 + (w - (i + k + 1))) by omega, ← List.range'_append_1,
      ← List.range'_append_1]
    rfl
  have hnone : (List.range' i k).filter m.getLsbD = [] := by
    rw [List.filter_eq_nil_iff]
    intro j hj
    obtain ⟨hle, hlt⟩ := List.mem_range'_1.1 hj
    have hj := hclear (j - i) (by omega)
    rw [Nat.add_sub_cancel' hle] at hj
    rw [hj]
    decide
  rw [setBitsFrom, hsplit, List.filter_append, hnone, List.nil_append,
    List.filter_cons_of_pos hset]
  rfl

theorem bitScanFrom_eq (m : BitVec w) : ∀ {fuel i : Nat}, i < w → w ≤ i + fuel →
    bitScanFrom m fuel i = if m.getLsbD (w - 1) then none else some (setBitsFrom m i)
  | 0, i, hi, hfuel => absurd hfuel (by omega)
  | fuel + 1, i, hi, hfuel => by
    rw [bitScanFrom, if_pos hi]
    cases hscan : bitScanForward (m >>> i) with
    | none =>
      have hclear : ∀ j, i ≤ j → j < w → m.getLsbD j = false := fun j hle hlt => by
        have hnone := List.find?_eq_none.1 hscan (j - i) (List.mem_range.2 (by omega))
        rw [BitVec.getLsbD_ushiftRight, Nat.add_sub_cancel' hle] at hnone
        exact Bool.eq_false_iff.2 hnone
      rw [hclear (w - 1) (by omega) (by omega), if_neg (by decide), setBitsFrom,
        List.filter_eq_nil_iff.2]
      intro j hj
      obtain ⟨hle, hlt⟩ := List.mem_range'_1.1 hj
      rw [hclear j hle (by omega)]
      decide
    | some k =>
      obtain ⟨hset, -, hbefore⟩ := List.find?_range_eq_some.1 hscan
      rw [BitVec.getLsbD_ushiftRight] at hset
      have hclear : ∀ j < k, m.getLsbD (i + j) = false := fun j hj => by
        have hj := hbefore j hj
        rw [BitVec.getLsbD_ushiftRight] at hj
        exact Bool.not_eq_true' _ ▸ hj
      have hk : i + k < w := BitVec.lt_of_getLsbD hset
      dsimp only
      rw [setBitsFrom_eq_cons m hk hset hclear]
      rcases Nat.lt_or_ge (i + k + 1) w with hlt | hge
      · rw [bitScanFrom_eq m hlt (by omega)]
        split_ifs <;> rfl
      · -- the bit is the top one, and the next shift is by the width
        have htop : w - 1 = i + k := by omega
        rw [htop, hset, if_pos rfl]
        cases fuel with
        | zero => rfl
        | succ fuel =>
          rw [bitScanFrom, if_neg (Nat.not_lt.2 hge)]
          rfl

/-- **The scan visits the set bits, each once and in order, unless the top bit is set.** -/
theorem bitScan_eq (hw : 0 < w) (m : BitVec w) :
    bitScan m = if m.getLsbD (w - 1) then none else some (setBits m) := by
  rw [bitScan, bitScanFrom_eq m hw (Nat.le_add_left ..), setBits, List.range_eq_range']
  rfl

end RpiDrivers.Lib
