import Mathlib.Algebra.Ring.Nat
import Mathlib.Logic.Function.Basic

/-!
# Arrays of fields packed into words

An array of fields of `b` bits is stored in words of `w` bits, `w / b` fields to a word; the bits
of a word that are left over belong to no field.

- `fieldGet_fieldSet_self`, `fieldGet_fieldSet_of_ne`: a field that is set reads back, and **every
  other field reads as before**.
- `getLsbD_fieldSet_word`: what a word has, bit by bit, after one of its fields is set.
- `setBit`, `clearBit`, `hasBit`: a word as a set of bits, with the same lemmas.
-/

namespace RpiDrivers.Lib

variable {w b : Nat}

/-- The word of field `i`. -/
def fieldWord (w b i : Nat) : Nat := i / (w / b)

/-- The position of field `i` in its word. -/
def fieldPos (w b i : Nat) : Nat := i % (w / b) * b

/-- The bits of a field, at position 0. -/
def fieldMask (w b : Nat) : BitVec w := BitVec.ofNat w (2 ^ b - 1)

def fieldGet (b : Nat) (a : Nat → BitVec w) (i : Nat) : BitVec w :=
  (a (fieldWord w b i) >>> fieldPos w b i) &&& fieldMask w b

def fieldSet (b : Nat) (a : Nat → BitVec w) (i : Nat) (v : BitVec w) : Nat → BitVec w :=
  Function.update a (fieldWord w b i)
    ((a (fieldWord w b i) &&& ~~~ (fieldMask w b <<< fieldPos w b i)) |||
      ((v &&& fieldMask w b) <<< fieldPos w b i))

/-! ## Bit by bit -/

@[simp] theorem getLsbD_fieldMask (w b k : Nat) :
    (fieldMask w b).getLsbD k = (decide (k < w) && decide (k < b)) := by
  rw [fieldMask, BitVec.getLsbD_ofNat, Nat.testBit_two_pow_sub_one]

theorem getLsbD_fieldGet (a : Nat → BitVec w) (i k : Nat) :
    (fieldGet b a i).getLsbD k =
      (decide (k < w) && decide (k < b) &&
        (a (fieldWord w b i)).getLsbD (fieldPos w b i + k)) := by
  rw [fieldGet, BitVec.getLsbD_and, BitVec.getLsbD_ushiftRight, getLsbD_fieldMask, Bool.and_comm]

/-- What the word of the field has after the field is set. -/
theorem getLsbD_fieldSet_word (a : Nat → BitVec w) (i k : Nat) (v : BitVec w) :
    (fieldSet b a i v (fieldWord w b i)).getLsbD k =
      if fieldPos w b i ≤ k ∧ k < fieldPos w b i + b then
        decide (k < w) && v.getLsbD (k - fieldPos w b i)
      else (a (fieldWord w b i)).getLsbD k := by
  rw [fieldSet, Function.update_self]
  simp only [BitVec.getLsbD_or, BitVec.getLsbD_and, BitVec.getLsbD_not, BitVec.getLsbD_shiftLeft,
    getLsbD_fieldMask]
  by_cases hk : k < w
  · have hkw : k - fieldPos w b i < w := by omega
    split
    next h =>
      have hlow : ¬ k < fieldPos w b i := by omega
      have hin : k - fieldPos w b i < b := by omega
      simp [hk, hkw, hlow, hin]
    next h =>
      by_cases hlow : k < fieldPos w b i
      · simp [hk, hlow]
      · have hout : ¬ k - fieldPos w b i < b := by omega
        simp [hk, hkw, hout]
  · have hge : w ≤ k := Nat.not_lt.1 hk
    simp [hk, BitVec.getLsbD_of_ge _ _ hge]

/-- A field lies within its word. -/
theorem fieldPos_add_le (hb : 0 < b) (hbw : b ≤ w) (i : Nat) : fieldPos w b i + b ≤ w := by
  have hper : 0 < w / b := Nat.div_pos hbw hb
  have hlt : i % (w / b) + 1 ≤ w / b := Nat.mod_lt i hper
  calc
    fieldPos w b i + b = (i % (w / b) + 1) * b := (Nat.succ_mul _ _).symm
    _ ≤ w / b * b := Nat.mul_le_mul_right b hlt
    _ ≤ w := Nat.div_mul_le_self w b

/-- **Two fields of one word do not overlap.** -/
theorem fieldPos_disjoint {i j : Nat} (hne : i ≠ j) (hword : fieldWord w b i = fieldWord w b j) :
    fieldPos w b i + b ≤ fieldPos w b j ∨ fieldPos w b j + b ≤ fieldPos w b i := by
  have hmod : i % (w / b) ≠ j % (w / b) := by
    intro hmod
    have hword : i / (w / b) = j / (w / b) := hword
    apply hne
    rw [← Nat.div_add_mod i (w / b), ← Nat.div_add_mod j (w / b), hword, hmod]
  have hle {m n : Nat} (h : m < n) : m * b + b ≤ n * b := by
    rw [← Nat.succ_mul]
    exact Nat.mul_le_mul_right b h
  exact (Nat.lt_or_gt_of_ne hmod).imp hle hle

/-! ## Reading a field back -/

/-- A field that is set reads back, as far as it has bits. -/
theorem fieldGet_fieldSet_self (hb : 0 < b) (hbw : b ≤ w) (a : Nat → BitVec w) (i : Nat)
    (v : BitVec w) : fieldGet b (fieldSet b a i v) i = v &&& fieldMask w b := by
  apply BitVec.eq_of_getLsbD_eq
  intro k hk
  rw [getLsbD_fieldGet, getLsbD_fieldSet_word, BitVec.getLsbD_and, getLsbD_fieldMask]
  have hle := fieldPos_add_le hb hbw i
  by_cases hkb : k < b
  · have hin : fieldPos w b i ≤ fieldPos w b i + k ∧ fieldPos w b i + k < fieldPos w b i + b := by
      omega
    have hkw : fieldPos w b i + k < w := by omega
    rw [if_pos hin, Nat.add_sub_cancel_left]
    simp [hk, hkb, hkw]
  · simp [hkb]

/-- **Every other field reads as before.** -/
theorem fieldGet_fieldSet_of_ne (a : Nat → BitVec w) {i j : Nat} (hne : i ≠ j) (v : BitVec w) :
    fieldGet b (fieldSet b a i v) j = fieldGet b a j := by
  by_cases hword : fieldWord w b i = fieldWord w b j
  · apply BitVec.eq_of_getLsbD_eq
    intro k _
    rw [getLsbD_fieldGet, getLsbD_fieldGet, ← hword, getLsbD_fieldSet_word]
    have hdisjoint := fieldPos_disjoint hne hword
    by_cases hkb : k < b
    · rw [if_neg (by omega)]
    · simp [hkb]
  · rw [fieldGet, fieldGet, fieldSet, Function.update_of_ne (Ne.symm hword)]

/-- The bits of a word that no field has are never written. -/
theorem getLsbD_fieldSet_spare (hb : 0 < b) (hbw : b ≤ w) (a : Nat → BitVec w) (i : Nat)
    (v : BitVec w) (word : Nat) {k : Nat} (hk : w / b * b ≤ k) :
    (fieldSet b a i v word).getLsbD k = (a word).getLsbD k := by
  by_cases hword : word = fieldWord w b i
  · have hlt : i % (w / b) + 1 ≤ w / b := Nat.mod_lt i (Nat.div_pos hbw hb)
    have hle : fieldPos w b i + b ≤ w / b * b := by
      rw [fieldPos, ← Nat.succ_mul]
      exact Nat.mul_le_mul_right b hlt
    rw [hword, getLsbD_fieldSet_word, if_neg (by omega)]
  · rw [fieldSet, Function.update_of_ne hword]

/-- **Every other bit is a bit of a field.** -/
theorem exists_field (hb : 0 < b) (word : Nat) {k : Nat} (hk : k < w / b * b) :
    ∃ i j, fieldWord w b i = word ∧ j < b ∧ k = fieldPos w b i + j := by
  have hlt : k / b < w / b := Nat.div_lt_of_lt_mul (by rwa [Nat.mul_comm] at hk)
  refine ⟨word * (w / b) + k / b, k % b, ?_, Nat.mod_lt k hb, ?_⟩
  · rw [fieldWord, Nat.mul_comm, Nat.mul_add_div (Nat.zero_lt_of_lt hlt),
      Nat.div_eq_of_lt hlt, Nat.add_zero]
  · rw [fieldPos, Nat.mul_comm word, Nat.mul_add_mod, Nat.mod_eq_of_lt hlt, Nat.mul_comm]
    exact (Nat.div_add_mod k b).symm

/-- Fields that are equal have equal bits. -/
theorem getLsbD_of_fieldGet_eq {a a' : Nat → BitVec w} {i j : Nat}
    (h : fieldGet b a i = fieldGet b a' i) (hj : j < b) (hbw : b ≤ w) :
    (a (fieldWord w b i)).getLsbD (fieldPos w b i + j) =
      (a' (fieldWord w b i)).getLsbD (fieldPos w b i + j) := by
  have hbit := congrArg (BitVec.getLsbD · j) h
  have hjw : j < w := Nat.lt_of_lt_of_le hj hbw
  simpa only [getLsbD_fieldGet, hj, hjw, decide_true, Bool.true_and] using hbit

/-- Fields with equal bits are equal. -/
theorem fieldGet_congr {a a' : Nat → BitVec w} {i : Nat}
    (h : ∀ j < b, (a (fieldWord w b i)).getLsbD (fieldPos w b i + j) =
      (a' (fieldWord w b i)).getLsbD (fieldPos w b i + j)) : fieldGet b a i = fieldGet b a' i := by
  apply BitVec.eq_of_getLsbD_eq
  intro j _
  rw [getLsbD_fieldGet, getLsbD_fieldGet]
  by_cases hj : j < b
  · rw [h j hj]
  · simp [hj]

/-- A field has no more bits than it is made of. -/
theorem fieldGet_and_mask (a : Nat → BitVec w) (i : Nat) :
    fieldGet b a i &&& fieldMask w b = fieldGet b a i := by
  rw [fieldGet, BitVec.and_assoc, BitVec.and_self]

/-- **Writing the word of a field brings a copy up to date.** -/
theorem update_fieldSet (a : Nat → BitVec w) (i : Nat) (v : BitVec w) :
    Function.update a (fieldWord w b i) (fieldSet b a i v (fieldWord w b i)) =
      fieldSet b a i v := by
  rw [fieldSet, Function.update_self]

/-! ## Sets of bits -/

def setBit (x : BitVec w) (k : Nat) : BitVec w := x ||| 1#w <<< k

def clearBit (x : BitVec w) (k : Nat) : BitVec w := x &&& ~~~ (1#w <<< k)

def hasBit (x : BitVec w) (k : Nat) : Bool := x &&& 1#w <<< k != 0#w

theorem one_shiftLeft (k : Nat) : 1#w <<< k = BitVec.twoPow w k := by
  rw [BitVec.twoPow_eq]

theorem hasBit_eq {x : BitVec w} {k : Nat} (hk : k < w) : hasBit x k = x.getLsbD k := by
  rw [hasBit, one_shiftLeft, BitVec.and_twoPow]
  have hne : BitVec.twoPow w k ≠ 0#w := by
    intro h
    have hbit := congrArg (BitVec.getLsbD · k) h
    simp [hk] at hbit
  cases x.getLsbD k with
  | false => simp
  | true => simp [hne]

@[simp] theorem hasBit_zero (k : Nat) : hasBit 0#w k = false := by
  simp [hasBit]

theorem hasBit_setBit {x : BitVec w} {k l : Nat} (hl : l < w) :
    hasBit (setBit x k) l = (decide (l = k) || hasBit x l) := by
  rw [hasBit_eq hl, hasBit_eq hl, setBit, one_shiftLeft, BitVec.getLsbD_or, BitVec.getLsbD_twoPow]
  by_cases h : l = k
  · subst h
    simp [hl]
  · simp [h, Ne.symm h]

theorem hasBit_clearBit {x : BitVec w} {k l : Nat} (hl : l < w) :
    hasBit (clearBit x k) l = (!decide (l = k) && hasBit x l) := by
  rw [hasBit_eq hl, hasBit_eq hl, clearBit, one_shiftLeft, BitVec.getLsbD_and, BitVec.getLsbD_not,
    BitVec.getLsbD_twoPow]
  by_cases h : l = k
  · subst h
    simp [hl]
  · simp [h, Ne.symm h, hl]

end RpiDrivers.Lib
