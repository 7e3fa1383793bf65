import Mathlib.Tactic.ByContra
import RpiDrivers.Lib.PackedFields

/-!
# The array of bit fields (`BITFIELD_ARRAY` in `BcmUtility.hpp`)

A template for an array of small values in words of a storage type; the GPIO driver shadows the
function select registers with it. The mask of a value is calculated as an `int`, whatever the
storage type.

- `Template`: the arguments of the template that its assertions let pass, with a width of an element
  that is not above that of the storage type.
- `Template.get`, `Template.set`: the accesses; without a result where the behaviour is undefined or
  the access is outside the array.
- `Represents`: **the template is an array**.
- `Mirrored`: what is written to the register that an index names changes the function of that pin
  only.
- `bitfieldArray_iff`: **exactly when it is an array**, and what is written is right.
-/

namespace RpiDrivers.Gpio.BitfieldArray

open RpiDrivers.Lib

/-! ## The arithmetic of `int` -/

/-- `x << n`: undefined for a negative `x`, for 32 places and more, and when the value does not fit
32 bits. -/
def intShiftLeft (x : BitVec 32) (n : Nat) : Option (BitVec 32) :=
  if n < 32 ∧ x.msb = false ∧ x.toNat * 2 ^ n < 2 ^ 32 then some (x <<< n) else none

/-- `x - y`: undefined when it overflows. -/
def intSub (x y : BitVec 32) : Option (BitVec 32) := if x.ssubOverflow y then none else some (x - y)

/-- `x << n` for an unsigned type of `w` bits, which is promoted to `int` when it is narrower. -/
def unsignedShiftLeft {w : Nat} (x : BitVec w) (n : Nat) : Option (BitVec w) :=
  if w < 32 then (intShiftLeft (x.setWidth 32) n).map (·.setWidth w)
  else if n < w then some (x <<< n)
  else none

/-! ## The template -/

/-- `T_STORAGE_TYPE` -/
inductive StorageType
  | uchar
  | ushort
  | ulong
  | ulonglong
  deriving DecidableEq

/-- `_BITS_PER_STORAGE_ELEM` -/
def StorageType.bits : StorageType → Nat
  | uchar => 8
  | ushort => 16
  | ulong => 32
  | ulonglong => 64

theorem StorageType.bits_le (t : StorageType) : t.bits ≤ 64 := by
  cases t <;> decide

theorem StorageType.bits_eq {t : StorageType} (h : 32 < t.bits) : t.bits = 64 := by
  revert h
  cases t <;> decide

/-- `BITFIELD_ARRAY` -/
structure Template where
  elemCount : Nat
  bitsPerElement : Nat
  storageType : StorageType
  elemCount_lt : elemCount < 2 ^ 32
  elemCount_pos : 0 < elemCount
  bitsPerElement_pos : 0 < bitsPerElement
  bitsPerElement_le : bitsPerElement ≤ storageType.bits

/-- `_ELEM_INDEX` -/
structure Index where
  storageIndex : Nat
  bitPosition : Nat

/-- `_VALUE_MASK` -/
def valueMask (bitsPerElement : Nat) : Option (BitVec 32) :=
  (intShiftLeft 1 bitsPerElement).bind fun x => intSub x 1

namespace Template

variable (p : Template)

/-- The width of a word -/
abbrev w : Nat := p.storageType.bits

/-- `_ELEMS_PER_STORAGE` -/
def elemsPerStorage : Nat := p.w / p.bitsPerElement

/-- `_STORAGE_ELEM_COUNT`. The sum is an `unsigned int`. -/
def storageElemCount : Nat :=
  (p.elemCount + p.elemsPerStorage - 1) % 2 ^ 32 / p.elemsPerStorage

/-- `storage` -/
abbrev Storage : Type := Vector (BitVec p.w) p.storageElemCount

/-- `MakeIndex` -/
def makeIndex (index : Nat) : Index :=
  ⟨index / p.elemsPerStorage, index % p.elemsPerStorage * p.bitsPerElement⟩

/-- `Get` -/
def get (storage : p.Storage) (index : Nat) : Option (BitVec p.w) := do
  let i := p.makeIndex index
  let x ← storage[i.storageIndex]?
  let mask ← valueMask p.bitsPerElement
  some (x >>> i.bitPosition &&& mask.signExtend p.w)

/-- `Set`. The complement of the mask is an `int` as well, and sign-extended to a wider word. -/
def set (storage : p.Storage) (index : Nat) (newValue : BitVec p.w) : Option p.Storage := do
  let i := p.makeIndex index
  let value ← storage[i.storageIndex]?
  let mask ← valueMask p.bitsPerElement
  let field ← intShiftLeft mask i.bitPosition
  let value := value &&& (~~~field).signExtend p.w
  let bits ← unsignedShiftLeft (newValue &&& mask.signExtend p.w) i.bitPosition
  some (storage.setIfInBounds i.storageIndex (value ||| bits))

end Template

/-! ## The function select registers -/

/-- `gpfsel` -/
def gpfsel : Template := ⟨54, 3, .ulong, by decide, by decide, by decide, by decide⟩

/-- The end of `setDriveMode`: the word that has the pin is written to the register of the same
index. -/
def writeFunction (shadow : gpfsel.Storage) (registers : Nat → BitVec 32) (pin : Nat)
    (function : BitVec 32) : Option (gpfsel.Storage × (Nat → BitVec 32)) := do
  let shadow ← gpfsel.set shadow pin function
  let index := gpfsel.makeIndex pin
  let word ← shadow[index.storageIndex]?
  some (shadow, Function.update registers index.storageIndex word)

/-- What the hardware takes for the function of a pin: each register has ten pins. -/
def hardwareFunction (registers : Nat → BitVec 32) (pin : Nat) : BitVec 3 :=
  (registers (pin / 10)).extractLsb' (pin % 10 * 3) 3

/-! ## The property -/

/-- **An array**: a value that is set reads back, every other element reads as before, and it is
stored in the word and from the position on that the index names. -/
def Represents (p : Template) : Prop :=
  ∀ (storage : p.Storage) (i : Nat) (v : BitVec p.w),
    i < p.elemCount → v.toNat < 2 ^ p.bitsPerElement →
    ∃ storage' word, p.set storage i v = some storage' ∧
      p.get storage' i = some v ∧
      (∀ j < p.elemCount, j ≠ i → ∃ x, p.get storage j = some x ∧ p.get storage' j = some x) ∧
      (∀ k ≠ (p.makeIndex i).storageIndex, storage'[k]? = storage[k]?) ∧
      storage'[(p.makeIndex i).storageIndex]? = some word ∧
      (p.makeIndex i).bitPosition + p.bitsPerElement ≤ p.w ∧
      word.extractLsb' (p.makeIndex i).bitPosition p.bitsPerElement =
        v.setWidth p.bitsPerElement

/-- **A word that is written changes the function of one pin**, and the shadow stays a copy of the
registers. -/
def Mirrored : Prop :=
  ∀ (shadow : gpfsel.Storage) (registers : Nat → BitVec 32) (pin : Nat) (function : BitVec 32),
    (∀ k < 6, shadow[k]? = some (registers k)) → pin < 54 → function.toNat < 8 →
    ∃ shadow' registers', writeFunction shadow registers pin function =
        some (shadow', registers') ∧
      (∀ k < 6, shadow'[k]? = some (registers' k)) ∧
      hardwareFunction registers' pin = function.setWidth 3 ∧
      ∀ pin' < 54, pin' ≠ pin →
        hardwareFunction registers' pin' = hardwareFunction registers pin'

/-! ## The condition -/

/-- The mask is an `int`, in a wider word no element is beyond its 32 bits, and the number of words
does not overflow. -/
def Fits (p : Template) : Prop :=
  p.bitsPerElement ≤ 30 ∧ p.elemCount + p.elemsPerStorage ≤ 2 ^ 32 ∧
    (p.w ≤ 32 ∨ p.elemCount ≤ 32 / p.bitsPerElement)

instance (p : Template) : Decidable (Fits p) := inferInstanceAs (Decidable (_ ∧ _ ∧ _))

/-! ## Masks -/

section Masks

variable {w b pos : Nat}

/-- The mask is defined up to 30 bits: `1 << 31` is negative. -/
theorem valueMask_eq (b : Nat) : valueMask b = if b ≤ 30 then some (fieldMask 32 b) else none := by
  rcases Nat.lt_or_ge b 32 with hb | hb
  · revert b
    decide
  · have hshift : intShiftLeft 1 b = none := if_neg fun h => absurd h.1 (Nat.not_lt.2 hb)
    rw [valueMask, hshift, if_neg (by omega)]
    rfl

theorem toNat_fieldMask (hbw : b ≤ w) : (fieldMask w b).toNat = 2 ^ b - 1 := by
  have hpow := Nat.pow_le_pow_right (show 0 < 2 by decide) hbw
  have hpos := Nat.two_pow_pos b
  rw [fieldMask, BitVec.toNat_ofNat, Nat.mod_eq_of_lt (by omega)]

/-- A value of `b` bits may be shifted within 32 bits. -/
theorem intShiftLeft_of_lt {x : BitVec 32} (hx : x.toNat < 2 ^ b) (hb : 0 < b) (hb31 : b ≤ 31)
    (hfit : pos + b ≤ 32) : intShiftLeft x pos = some (x <<< pos) := by
  have hmsb : x.msb = false := by
    have hle : 2 ^ b ≤ 2 ^ 31 := Nat.pow_le_pow_right (by decide) hb31
    rw [BitVec.msb_eq_false_iff_two_mul_lt]
    omega
  have hvalue : x.toNat * 2 ^ pos < 2 ^ 32 := by
    calc x.toNat * 2 ^ pos < 2 ^ b * 2 ^ pos :=
          Nat.mul_lt_mul_of_pos_right hx (Nat.two_pow_pos pos)
      _ = 2 ^ (pos + b) := by rw [Nat.add_comm, Nat.pow_add]
      _ ≤ 2 ^ 32 := Nat.pow_le_pow_right (by decide) hfit
  exact if_pos ⟨by omega, hmsb, hvalue⟩

/-- The mask that is shifted is defined within 32 bits only. -/
theorem intShiftLeft_mask (hb : 0 < b) (hb30 : b ≤ 30) (pos : Nat) :
    intShiftLeft (fieldMask 32 b) pos =
      if pos + b ≤ 32 then some (fieldMask 32 b <<< pos) else none := by
  have hvalue := toNat_fieldMask (w := 32) (b := b) (by omega)
  have hpos := Nat.two_pow_pos b
  by_cases hfit : pos + b ≤ 32
  · rw [if_pos hfit]
    exact intShiftLeft_of_lt (by omega) hb (by omega) hfit
  · refine (if_neg fun h => ?_).trans (if_neg hfit).symm
    -- the highest bit of the mask is moved out
    have hhalf : 2 ^ (b - 1) ≤ 2 ^ b - 1 := by
      have hdouble : 2 ^ b = 2 ^ (b - 1) * 2 := by
        rw [← Nat.pow_succ, Nat.succ_eq_add_one, Nat.sub_add_cancel hb]
      have hpos := Nat.two_pow_pos (b - 1)
      omega
    have hge : 2 ^ 32 ≤ (2 ^ b - 1) * 2 ^ pos := by
      calc 2 ^ 32 ≤ 2 ^ (b - 1 + pos) := Nat.pow_le_pow_right (by decide) (by omega)
        _ = 2 ^ (b - 1) * 2 ^ pos := Nat.pow_add ..
        _ ≤ (2 ^ b - 1) * 2 ^ pos := Nat.mul_le_mul_right _ hhalf
    exact absurd h.2.2 (Nat.not_lt.2 (by rw [hvalue]; exact hge))

/-- The mask is positive, so that it is extended by zeros. -/
theorem signExtend_mask (hb : b ≤ 30) : (fieldMask 32 b).signExtend w = fieldMask w b := by
  have hmsb : (fieldMask 32 b).msb = false := by
    rw [BitVec.msb_eq_getLsbD_last, getLsbD_fieldMask]
    simp
    omega
  apply BitVec.eq_of_getLsbD_eq
  intro k hk
  rw [BitVec.getLsbD_signExtend, hmsb, getLsbD_fieldMask, getLsbD_fieldMask]
  by_cases hk32 : k < 32
  · simp [hk32, hk]
  · have hkb : ¬k < b := by omega
    simp [hk32, hkb]

/-- Below 32 bits the complement of the mask has everything but the field. -/
theorem getLsbD_clearMask {k : Nat} (hk : k < w) (hk32 : k < 32) :
    ((~~~(fieldMask 32 b <<< pos)).signExtend w).getLsbD k = !decide (pos ≤ k ∧ k < pos + b) := by
  rw [BitVec.getLsbD_signExtend, if_pos hk32, BitVec.getLsbD_not, BitVec.getLsbD_shiftLeft,
    getLsbD_fieldMask]
  by_cases hlow : k < pos
  · have hnot : ¬(pos ≤ k ∧ k < pos + b) := by omega
    simp [hk, hk32, hlow, hnot]
  · by_cases hin : k < pos + b
    · have hkb : k - pos < b := by omega
      have hk' : k - pos < 32 := by omega
      simp [hk, hk32, hlow, hin, hkb, hk', Nat.not_lt.1 hlow]
    · have hkb : ¬k - pos < b := by omega
      simp [hk, hk32, hlow, hin, hkb]

/-- The bits of a value are moved to the field. -/
theorem unsignedShiftLeft_field (hb : 0 < b) (hfit : pos + b ≤ w) (v : BitVec w) :
    unsignedShiftLeft (v &&& fieldMask w b) pos = some ((v &&& fieldMask w b) <<< pos) := by
  have hlt : (v &&& fieldMask w b).toNat < 2 ^ b := by
    have hpos := Nat.two_pow_pos b
    rw [BitVec.toNat_and, toNat_fieldMask (Nat.le_trans (Nat.le_add_left b pos) hfit)]
    exact Nat.lt_of_le_of_lt Nat.and_le_right (by omega)
  rw [unsignedShiftLeft]
  by_cases hw : w < 32
  · -- the promoted value has no more bits
    have hbound : ((v &&& fieldMask w b).setWidth 32).toNat < 2 ^ b := by
      have hle : 2 ^ b ≤ 2 ^ 32 := Nat.pow_le_pow_right (by decide) (by omega)
      rw [BitVec.toNat_setWidth, Nat.mod_eq_of_lt (Nat.lt_of_lt_of_le hlt hle)]
      exact hlt
    have hshift := intShiftLeft_of_lt hbound hb (by omega) (show pos + b ≤ 32 by omega)
    rw [if_pos hw, hshift, Option.map_some]
    congr 1
    apply BitVec.eq_of_getLsbD_eq
    intro k hk
    have hk32 : k < 32 := Nat.lt_trans hk hw
    simp only [BitVec.getLsbD_setWidth, BitVec.getLsbD_shiftLeft, hk, hk32]
    by_cases hlow : k < pos
    · simp [hlow]
    · have hsub : k - pos < 32 := by omega
      simp [hlow, hsub]
  · rw [if_neg hw, if_pos (by omega)]

end Masks

/-! ## The accesses are those of an array of fields -/

namespace Template

variable {p : Template} {storage storage' : p.Storage} {i j : Nat} {v x : BitVec p.w}

/-- The words of the array, and zeros after them. -/
def words (p : Template) (storage : p.Storage) (k : Nat) : BitVec p.w := storage[k]?.getD 0

theorem getElem?_eq_words {k : Nat} (hk : k < p.storageElemCount) :
    storage[k]? = some (p.words storage k) := by
  rw [words, Vector.getElem?_eq_getElem hk, Option.getD_some]

theorem words_setIfInBounds {k : Nat} (hk : k < p.storageElemCount) (word : BitVec p.w) :
    p.words (storage.setIfInBounds k word) = Function.update (p.words storage) k word := by
  funext l
  by_cases hl : l = k
  · subst hl
    rw [Function.update_self, words, Vector.getElem?_setIfInBounds_self_of_lt hk, Option.getD_some]
  · rw [Function.update_of_ne hl, words, Vector.getElem?_setIfInBounds_ne (Ne.symm hl), words]

theorem elemsPerStorage_pos : 0 < p.elemsPerStorage :=
  Nat.div_pos p.bitsPerElement_le p.bitsPerElement_pos

/-- **No access leaves the array.** -/
theorem storageIndex_lt (hcount : p.elemCount + p.elemsPerStorage ≤ 2 ^ 32)
    (hi : i < p.elemCount) : (p.makeIndex i).storageIndex < p.storageElemCount := by
  have hper := p.elemsPerStorage_pos
  have hsum : (p.elemCount + p.elemsPerStorage - 1) % 2 ^ 32 =
      p.elemCount + p.elemsPerStorage - 1 := Nat.mod_eq_of_lt (by omega)
  rw [storageElemCount, hsum]
  calc i / p.elemsPerStorage < i / p.elemsPerStorage + 1 := Nat.lt_succ_self _
    _ = (i + p.elemsPerStorage) / p.elemsPerStorage := (Nat.add_div_right i hper).symm
    _ ≤ (p.elemCount + p.elemsPerStorage - 1) / p.elemsPerStorage :=
        Nat.div_le_div_right (by omega)

/-- There is no word when the sum overflows. -/
theorem storageElemCount_eq_zero (hcount : 2 ^ 32 < p.elemCount + p.elemsPerStorage) :
    p.storageElemCount = 0 := by
  have hlt := p.elemCount_lt
  have hle : p.elemsPerStorage ≤ 64 :=
    Nat.le_trans (Nat.div_le_self _ _) p.storageType.bits_le
  rw [storageElemCount, Nat.div_eq_of_lt (by omega)]

theorem get_eq (hb : p.bitsPerElement ≤ 30)
    (hk : (p.makeIndex i).storageIndex < p.storageElemCount) :
    p.get storage i = some (fieldGet p.bitsPerElement (p.words storage) i) := by
  rw [get, getElem?_eq_words hk, valueMask_eq, if_pos hb]
  show some (_ &&& (fieldMask 32 p.bitsPerElement).signExtend p.w) = _
  rw [signExtend_mask hb]
  rfl

/-- An element is the part of its word that the index names. -/
theorem extract_of_get (hb : p.bitsPerElement ≤ 30)
    (hk : (p.makeIndex i).storageIndex < p.storageElemCount) (hget : p.get storage i = some x) :
    (p.words storage (p.makeIndex i).storageIndex).extractLsb' (p.makeIndex i).bitPosition
      p.bitsPerElement = x.setWidth p.bitsPerElement := by
  rw [get_eq hb hk, Option.some.injEq] at hget
  apply BitVec.eq_of_getLsbD_eq
  intro n hn
  have hnw : n < p.w := Nat.lt_of_lt_of_le hn p.bitsPerElement_le
  rw [BitVec.getLsbD_extractLsb', BitVec.getLsbD_setWidth, ← hget, getLsbD_fieldGet]
  simp only [hn, hnw, decide_true, Bool.true_and]
  rfl

/-- The word that `Set` stores. -/
def wordSet {w : Nat} (b pos : Nat) (value newValue : BitVec w) : BitVec w :=
  value &&& (~~~(fieldMask 32 b <<< pos)).signExtend w ||| (newValue &&& fieldMask w b) <<< pos

/-- Below 32 bits the word has what the array of fields has. -/
theorem getLsbD_wordSet {w b n : Nat} (a : Nat → BitVec w) (i : Nat) (v : BitVec w)
    (hn : n < 32) :
    (wordSet b (fieldPos w b i) (a (fieldWord w b i)) v).getLsbD n =
      (fieldSet b a i v (fieldWord w b i)).getLsbD n := by
  rw [getLsbD_fieldSet_word, wordSet, BitVec.getLsbD_or, BitVec.getLsbD_and]
  by_cases hnw : n < w
  · rw [getLsbD_clearMask hnw hn, BitVec.getLsbD_shiftLeft, BitVec.getLsbD_and, getLsbD_fieldMask]
    by_cases hin : fieldPos w b i ≤ n ∧ n < fieldPos w b i + b
    · have hlow : ¬n < fieldPos w b i := by omega
      have hsub : n - fieldPos w b i < b := by omega
      have hsubw : n - fieldPos w b i < w := by omega
      simp [hin, hnw, hlow, hsub, hsubw]
    · by_cases hlow : n < fieldPos w b i
      · simp [hin, hlow]
      · have hsub : ¬n - fieldPos w b i < b := by omega
        simp [hin, hsub]
  · have hge : w ≤ n := Nat.not_lt.1 hnw
    simp [BitVec.getLsbD_of_ge _ _ hge, hnw]

theorem set_eq (storage : p.Storage) (v : BitVec p.w) (hb : p.bitsPerElement ≤ 30)
    (hk : (p.makeIndex i).storageIndex < p.storageElemCount)
    (hfit : (p.makeIndex i).bitPosition + p.bitsPerElement ≤ 32) :
    p.set storage i v = some (storage.setIfInBounds (p.makeIndex i).storageIndex
      (wordSet p.bitsPerElement (p.makeIndex i).bitPosition
        (p.words storage (p.makeIndex i).storageIndex) v)) := by
  have hpos := p.bitsPerElement_pos
  have hword := fieldPos_add_le hpos p.bitsPerElement_le i
  rw [set, getElem?_eq_words hk, valueMask_eq, if_pos hb]
  show (intShiftLeft (fieldMask 32 p.bitsPerElement) _).bind _ = _
  rw [intShiftLeft_mask hpos hb, if_pos hfit]
  show (unsignedShiftLeft (v &&& (fieldMask 32 p.bitsPerElement).signExtend p.w) _).bind _ = _
  rw [signExtend_mask hb]
  exact congrArg (Option.bind · _) (unsignedShiftLeft_field hpos hword v)

/-- **`Set` is defined only where its mask is**, in a word of the array. -/
theorem fits_of_set (h : p.set storage i v = some storage') :
    (p.makeIndex i).storageIndex < p.storageElemCount ∧ p.bitsPerElement ≤ 30 ∧
      (p.makeIndex i).bitPosition + p.bitsPerElement ≤ 32 := by
  obtain ⟨value, hvalue, h⟩ := Option.bind_eq_some_iff.1 h
  obtain ⟨mask, hmask, h⟩ := Option.bind_eq_some_iff.1 h
  obtain ⟨field, hfield, -⟩ := Option.bind_eq_some_iff.1 h
  have hk : (p.makeIndex i).storageIndex < p.storageElemCount := by
    by_contra hk
    rw [Vector.getElem?_eq_none (Nat.not_lt.1 hk)] at hvalue
    cases hvalue
  rw [valueMask_eq] at hmask
  split at hmask
  next hb =>
    cases hmask
    rw [intShiftLeft_mask p.bitsPerElement_pos hb] at hfield
    split at hfield
    next hfit => exact ⟨hk, hb, hfit⟩
    next => cases hfield
  next => cases hmask

/-- Where every element is in the low 32 bits, an element is read back and the others are kept. -/
theorem get_set (hb : p.bitsPerElement ≤ 30)
    (hki : (p.makeIndex i).storageIndex < p.storageElemCount)
    (hkj : (p.makeIndex j).storageIndex < p.storageElemCount)
    (hi : (p.makeIndex i).bitPosition + p.bitsPerElement ≤ 32)
    (hj : (p.makeIndex j).bitPosition + p.bitsPerElement ≤ 32)
    (h : p.set storage i v = some storage') :
    p.get storage' j =
      some (fieldGet p.bitsPerElement (fieldSet p.bitsPerElement (p.words storage) i v) j) := by
  rw [set_eq storage v hb hki hi, Option.some.injEq] at h
  subst h
  rw [get_eq hb hkj, words_setIfInBounds hki]
  refine congrArg some (fieldGet_congr fun n hn => ?_)
  have hn32 : fieldPos p.w p.bitsPerElement j + n < 32 :=
    Nat.lt_of_lt_of_le (Nat.add_lt_add_left hn _) hj
  by_cases hword : fieldWord p.w p.bitsPerElement j = fieldWord p.w p.bitsPerElement i
  · have hupdate (word : BitVec p.w) : Function.update (p.words storage)
        (p.makeIndex i).storageIndex word (fieldWord p.w p.bitsPerElement i) = word := by
      show Function.update _ (fieldWord p.w p.bitsPerElement i) _ _ = _
      exact Function.update_self ..
    rw [hword, hupdate]
    exact getLsbD_wordSet (p.words storage) i v hn32
  · exact congrArg (BitVec.getLsbD · _) ((Function.update_of_ne hword ..).trans
      (Function.update_of_ne hword ..).symm)

end Template

/-! ## Exactly when it is an array -/

/-- In a word of 64 bits the first `32 / b` elements are within its low 32 bits. -/
theorem Fits.bitPosition_le {p : Template} (h : Fits p) {i : Nat} (hi : i < p.elemCount) :
    (p.makeIndex i).bitPosition + p.bitsPerElement ≤ 32 := by
  have hword := fieldPos_add_le p.bitsPerElement_pos p.bitsPerElement_le i
  obtain ⟨-, -, hw | hcount⟩ := h
  · exact Nat.le_trans hword hw
  · calc (p.makeIndex i).bitPosition + p.bitsPerElement
        ≤ i * p.bitsPerElement + p.bitsPerElement :=
          Nat.add_le_add_right (Nat.mul_le_mul_right _ (Nat.mod_le _ _)) _
      _ = (i + 1) * p.bitsPerElement := (Nat.succ_mul _ _).symm
      _ ≤ 32 / p.bitsPerElement * p.bitsPerElement :=
          Nat.mul_le_mul_right _ (Nat.le_trans hi hcount)
      _ ≤ 32 := Nat.div_mul_le_self _ _

theorem represents_of_fits {p : Template} (h : Fits p) : Represents p := by
  intro storage i v hi hv
  have hindex {j : Nat} (hj : j < p.elemCount) := Template.storageIndex_lt h.2.1 hj
  have hfit := h.bitPosition_le hi
  have hset := Template.set_eq storage v h.1 (hindex hi) hfit
  have hmask : v &&& fieldMask p.w p.bitsPerElement = v := by
    apply BitVec.eq_of_toNat_eq
    rw [BitVec.toNat_and, toNat_fieldMask p.bitsPerElement_le, Nat.and_two_pow_sub_one_eq_mod,
      Nat.mod_eq_of_lt hv]
  have hself := Template.get_set h.1 (hindex hi) (hindex hi) hfit hfit hset
  rw [fieldGet_fieldSet_self p.bitsPerElement_pos p.bitsPerElement_le, hmask] at hself
  refine ⟨_, _, hset, hself, ?_, ?_, Vector.getElem?_setIfInBounds_self_of_lt (hindex hi),
    fieldPos_add_le p.bitsPerElement_pos p.bitsPerElement_le i, ?_⟩
  · intro j hj hne
    refine ⟨_, Template.get_eq h.1 (hindex hj), ?_⟩
    rw [Template.get_set h.1 (hindex hi) (hindex hj) hfit (h.bitPosition_le hj) hset,
      fieldGet_fieldSet_of_ne _ (Ne.symm hne)]
  · intro k hk
    exact Vector.getElem?_setIfInBounds_ne (Ne.symm hk)
  · have hextract := Template.extract_of_get h.1 (hindex hi) hself
    rw [Template.words_setIfInBounds (hindex hi), Function.update_self] at hextract
    exact hextract

theorem fits_of_represents {p : Template} (h : Represents p) : Fits p := by
  let zeros : p.Storage := Vector.replicate _ 0
  have hset {i : Nat} (hi : i < p.elemCount) : (p.makeIndex i).storageIndex < p.storageElemCount ∧
      p.bitsPerElement ≤ 30 ∧ (p.makeIndex i).bitPosition + p.bitsPerElement ≤ 32 := by
    obtain ⟨storage', _, hset, -⟩ := h zeros i 0 hi (Nat.two_pow_pos _)
    exact Template.fits_of_set hset
  obtain ⟨hzero, hb, -⟩ := hset p.elemCount_pos
  refine ⟨hb, ?_, ?_⟩
  · by_contra hcount
    rw [Template.storageElemCount_eq_zero (Nat.not_le.1 hcount)] at hzero
    exact Nat.not_lt_zero _ hzero
  · by_contra hwide
    obtain ⟨hw, hcount⟩ := not_or.1 hwide
    -- element `32 / b` is in the first word and beyond its low half
    have hfit := (hset (Nat.not_le.1 hcount)).2.2
    have hw64 : p.w = 64 := StorageType.bits_eq (Nat.not_le.1 hw)
    have hbpos := p.bitsPerElement_pos
    have hfirst : 32 / p.bitsPerElement < p.elemsPerStorage := by
      calc 32 / p.bitsPerElement < 32 / p.bitsPerElement + 1 := Nat.lt_succ_self _
        _ = (32 + p.bitsPerElement) / p.bitsPerElement := (Nat.add_div_right 32 hbpos).symm
        _ ≤ p.elemsPerStorage := by
          rw [Template.elemsPerStorage, hw64]
          exact Nat.div_le_div_right (by omega)
    have hposition : (p.makeIndex (32 / p.bitsPerElement)).bitPosition =
        32 / p.bitsPerElement * p.bitsPerElement := by
      rw [Template.makeIndex, Nat.mod_eq_of_lt hfirst]
    have hdiv := Nat.div_add_mod 32 p.bitsPerElement
    have hmod := Nat.mod_lt 32 hbpos
    rw [hposition, Nat.mul_comm] at hfit
    omega

/-! ## The registers -/

/-- The hardware takes a function from where the shadow has it. -/
theorem hardwareFunction_eq {shadow : gpfsel.Storage} {registers : Nat → BitVec 32} {pin : Nat}
    {x : BitVec 32} (hcopy : ∀ k < 6, shadow[k]? = some (registers k)) (hpin : pin < 54)
    (hget : gpfsel.get shadow pin = some x) : hardwareFunction registers pin = x.setWidth 3 := by
  have hk : pin / 10 < 6 := by omega
  have hwords : gpfsel.words shadow (pin / 10) = registers (pin / 10) :=
    congrArg (Option.getD · 0) (hcopy _ hk)
  rw [hardwareFunction, ← hwords]
  exact Template.extract_of_get (p := gpfsel) (by decide) hk hget

theorem mirrored : Mirrored := by
  intro shadow registers pin function hcopy hpin hfunction
  have hfits : Fits gpfsel := by decide
  obtain ⟨shadow', (word : BitVec 32), hset, hself, hothers, hkeep, hword, -⟩ :=
    represents_of_fits hfits shadow pin function hpin hfunction
  have hcopy' : ∀ k < 6, shadow'[k]? =
      some (Function.update registers (gpfsel.makeIndex pin).storageIndex word k) := by
    intro k hk
    by_cases hindex : k = (gpfsel.makeIndex pin).storageIndex
    · rw [hindex, Function.update_self]
      exact hword
    · rw [Function.update_of_ne hindex, hkeep k hindex, hcopy k hk]
  refine ⟨shadow', _, ?_, hcopy', hardwareFunction_eq hcopy' hpin hself, ?_⟩
  · rw [writeFunction, hset]
    show (shadow'[(gpfsel.makeIndex pin).storageIndex]?).bind _ = _
    rw [hword]
    rfl
  · intro pin' hpin' hne
    obtain ⟨x, hbefore, hafter⟩ := hothers pin' hpin' hne
    rw [hardwareFunction_eq hcopy' hpin' hafter, hardwareFunction_eq hcopy hpin' hbefore]

/-- **The template is an array exactly where its `int` masks reach every element**; the function
select registers, with fields of 3 bits in words of 32, are written as it says. -/
theorem bitfieldArray_iff (p : Template) : (Represents p ∧ Mirrored) ↔ Fits p :=
  ⟨fun h => fits_of_represents h.1, fun h => ⟨represents_of_fits h, mirrored⟩⟩

/-- Three elements of 16 bits in a word of 64 -/
def wordsOfQuad : Template :=
  ⟨3, 16, .ulonglong, by decide, by decide, by decide, by decide⟩

/-- Element 1 ends at bit 32, so that the complement of its mask is positive and is extended by
zeros: setting it clears the element after it. -/
theorem wordsOfQuad_not_represents :
    wordsOfQuad.get #v[0x100000000] 2 = some 1 ∧
      (wordsOfQuad.set #v[0x100000000] 1 0).bind (wordsOfQuad.get · 2) = some 0 ∧
      ¬∀ p : Template, Represents p := by
  have hbefore : wordsOfQuad.get #v[0x100000000] 2 = some 1 := by decide
  have hafter : (wordsOfQuad.set #v[0x100000000] 1 0).bind (wordsOfQuad.get · 2) = some 0 := by
    decide
  refine ⟨hbefore, hafter, fun h => ?_⟩
  obtain ⟨storage', _, hset, -, hothers, -⟩ :=
    h wordsOfQuad #v[0x100000000] 1 0 (by decide) (by decide)
  obtain ⟨x, hx, hx'⟩ := hothers 2 (by decide) (by decide)
  rw [hbefore, Option.some.injEq] at hx
  subst hx
  rw [hset] at hafter
  exact absurd (hx'.symm.trans hafter) (by decide)

end RpiDrivers.Gpio.BitfieldArray
