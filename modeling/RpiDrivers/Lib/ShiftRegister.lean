import Mathlib.Data.List.Basic
import Mathlib.Data.List.Range

/-!
# Words on a serial line

A word is shifted out from one of its bits downwards, and a shift register takes bits in at its low
end. Bytes go most significant bit first, so a word that holds bytes side by side puts their bits
on the line in the order of the bytes, from the highest down.

- `bitsDown`: the bits of a word from one bit down.
- `shiftIn`: a bit comes in; `bitsDown_shiftIn` gives back the bits that came in last.
- `bitsOf`: the bits of a list of bytes; `bitsOf_injective`.
- `byteAt`: the byte of a word above one of its bits; `bitsDown_bytes` splits the bits of a word
  into those of its bytes.
-/

namespace RpiDrivers.Lib

variable {w : Nat}

/-! ## Bits of a word -/

/-- The `n` bits of a word from bit `top` downwards. -/
def bitsDown (e : BitVec w) (top n : Nat) : List Bool :=
  (List.range n).map fun i => e.getLsbD (top - i)

@[simp] theorem length_bitsDown (e : BitVec w) (top n : Nat) : (bitsDown e top n).length = n := by
  simp [bitsDown]

theorem bitsDown_add (e : BitVec w) (top m n : Nat) :
    bitsDown e top (m + n) = bitsDown e top m ++ bitsDown e (top - m) n := by
  simp only [bitsDown, List.range_add, List.map_append, List.map_map]
  congr 1
  refine List.map_congr_left fun i _ => ?_
  simp only [Function.comp_apply, Nat.sub_sub]

/-- Words with the same bits have the same bits downwards. -/
theorem bitsDown_congr {v : Nat} {e : BitVec w} {e' : BitVec v} {top top' n : Nat}
    (h : ∀ i < n, e.getLsbD (top - i) = e'.getLsbD (top' - i)) :
    bitsDown e top n = bitsDown e' top' n :=
  List.map_congr_left fun i hi => h i (List.mem_range.1 hi)

/-! ## A shift register -/

/-- A bit comes in at the low end. -/
def shiftIn (e : BitVec w) (b : Bool) : BitVec w := e <<< 1 ||| (BitVec.ofBool b).setWidth w

theorem getLsbD_shiftIn (e : BitVec w) (b : Bool) {i : Nat} (hi : i < w) :
    (shiftIn e b).getLsbD i = if i = 0 then b else e.getLsbD (i - 1) := by
  rw [shiftIn, BitVec.getLsbD_or, BitVec.getLsbD_shiftLeft, BitVec.getLsbD_setWidth]
  cases i with
  | zero => simp [hi]
  | succ i => simp [hi]

/-- The bits that came in last, from the highest down. -/
theorem getLsbD_shiftIn_foldl (bits : List Bool) (e : BitVec w) {i : Nat} (hi : i < bits.length)
    (hw : i < w) :
    bits[bits.length - 1 - i]? = some ((bits.foldl shiftIn e).getLsbD i) := by
  induction bits using List.reverseRecOn generalizing i with
  | nil => simp at hi
  | append_singleton bits b ih =>
    rw [List.foldl_append, List.foldl_cons, List.foldl_nil, getLsbD_shiftIn _ _ hw]
    simp only [List.length_append, List.length_singleton] at hi ⊢
    cases i with
    | zero =>
      rw [if_pos rfl]
      simp
    | succ i =>
      have hindex : bits.length - (i + 1) = bits.length - 1 - i := by omega
      rw [if_neg (Nat.succ_ne_zero i), Nat.add_sub_cancel, hindex,
        List.getElem?_append_left (by omega), ih (by omega) (by omega), Nat.add_sub_cancel]

/-- **What was shifted in can be read out.** -/
theorem bitsDown_shiftIn (bits : List Bool) (e : BitVec w) (hw : bits.length ≤ w) :
    bitsDown (bits.foldl shiftIn e) (bits.length - 1) bits.length = bits := by
  refine List.ext_getElem (length_bitsDown ..) fun i _ hi => ?_
  have hbit := getLsbD_shiftIn_foldl bits e (i := bits.length - 1 - i) (by omega) (by omega)
  have hindex : bits.length - 1 - (bits.length - 1 - i) = i := by omega
  rw [hindex, List.getElem?_eq_getElem hi] at hbit
  simp only [bitsDown, List.getElem_map, List.getElem_range]
  exact (Option.some.inj hbit).symm

/-! ## Bytes -/

/-- The bits of a byte, most significant first. -/
def byteBits (b : BitVec 8) : List Bool := bitsDown b 7 8

/-- The bits of a list of bytes. -/
def bitsOf (bytes : List (BitVec 8)) : List Bool := bytes.flatMap byteBits

@[simp] theorem bitsOf_cons (b : BitVec 8) (bytes : List (BitVec 8)) :
    bitsOf (b :: bytes) = byteBits b ++ bitsOf bytes := rfl

theorem bitsOf_append (bytes bytes' : List (BitVec 8)) :
    bitsOf (bytes ++ bytes') = bitsOf bytes ++ bitsOf bytes' :=
  List.flatMap_append

@[simp] theorem length_byteBits (b : BitVec 8) : (byteBits b).length = 8 := length_bitsDown ..

@[simp] theorem length_bitsOf (bytes : List (BitVec 8)) :
    (bitsOf bytes).length = 8 * bytes.length := by
  induction bytes with
  | nil => rfl
  | cons b bytes ih =>
    rw [bitsOf_cons, List.length_append, length_byteBits, ih, List.length_cons]
    omega

theorem byteBits_injective {b b' : BitVec 8} (h : byteBits b = byteBits b') : b = b' := by
  refine BitVec.eq_of_getLsbD_eq fun i hi => ?_
  have hget : (byteBits b)[7 - i]? = (byteBits b')[7 - i]? := by rw [h]
  have hlt : 7 - i < 8 := by omega
  simp only [byteBits, bitsDown, List.getElem?_map, List.getElem?_range hlt, Option.map_some,
    Option.some.injEq] at hget
  rwa [show 7 - (7 - i) = i by omega] at hget

/-- **Bytes are determined by their bits.** -/
theorem bitsOf_injective : ∀ {bytes bytes' : List (BitVec 8)}, bitsOf bytes = bitsOf bytes' →
    bytes = bytes'
  | [], [], _ => rfl
  | [], b :: bytes, h => by
    have hlength := congrArg List.length h
    rw [length_bitsOf, length_bitsOf, List.length_nil, List.length_cons] at hlength
    omega
  | b :: bytes, [], h => by
    have hlength := congrArg List.length h
    rw [length_bitsOf, length_bitsOf, List.length_nil, List.length_cons] at hlength
    omega
  | b :: bytes, b' :: bytes', h => by
    rw [bitsOf_cons, bitsOf_cons] at h
    obtain ⟨hb, hrest⟩ := List.append_inj h (by simp)
    rw [byteBits_injective hb, bitsOf_injective hrest]

/-- The byte of a word whose lowest bit is bit `s`. -/
def byteAt (e : BitVec w) (s : Nat) : BitVec 8 := (e >>> s).setWidth 8

theorem getLsbD_byteAt (e : BitVec w) (s : Nat) {i : Nat} (hi : i < 8) :
    (byteAt e s).getLsbD i = e.getLsbD (s + i) := by
  simp [byteAt, hi]

theorem byteBits_byteAt (e : BitVec w) (s : Nat) :
    byteBits (byteAt e s) = bitsDown e (s + 7) 8 := by
  refine bitsDown_congr fun i hi => ?_
  rw [getLsbD_byteAt e s (by omega)]
  congr 1
  omega

@[simp] theorem byteAt_or (e e' : BitVec w) (s : Nat) :
    byteAt (e ||| e') s = byteAt e s ||| byteAt e' s := by
  rw [byteAt, BitVec.ushiftRight_or_distrib, BitVec.setWidth_or]
  rfl

@[simp] theorem byteAt_and (e e' : BitVec w) (s : Nat) :
    byteAt (e &&& e') s = byteAt e s &&& byteAt e' s := by
  rw [byteAt, BitVec.ushiftRight_and_distrib, BitVec.setWidth_and]
  rfl

@[simp] theorem byteAt_shiftRight (e : BitVec w) (t s : Nat) :
    byteAt (e >>> t) s = byteAt e (t + s) := by
  rw [byteAt, ← BitVec.shiftRight_add]
  rfl

/-- Above the bit it is shifted to, a word has its own bytes. -/
theorem byteAt_shiftLeft_of_le (e : BitVec w) {s t : Nat} (ht : t ≤ s) (hs : s + 8 ≤ w) :
    byteAt (e <<< t) s = byteAt e (s - t) := by
  refine BitVec.eq_of_getLsbD_eq fun i hi => ?_
  rw [getLsbD_byteAt _ _ hi, getLsbD_byteAt _ _ hi, BitVec.getLsbD_shiftLeft]
  have hlt : s + i < w := by omega
  have hge : ¬ s + i < t := by omega
  simp only [hlt, hge, decide_true, decide_false, Bool.not_false, Bool.true_and]
  congr 1
  omega

/-- Below it there is nothing. -/
theorem byteAt_shiftLeft_of_lt (e : BitVec w) {s t : Nat} (h : s + 8 ≤ t) :
    byteAt (e <<< t) s = 0 := by
  refine BitVec.eq_of_getLsbD_eq fun i hi => ?_
  have hlt : s + i < t := by omega
  rw [getLsbD_byteAt _ _ hi, BitVec.getLsbD_shiftLeft]
  simp [hlt]

theorem byteAt_setWidth_zero (b : BitVec 8) (hw : 8 ≤ w) :
    byteAt (b.setWidth w) 0 = b := by
  refine BitVec.eq_of_getLsbD_eq fun i hi => ?_
  have hlt : i < w := by omega
  rw [getLsbD_byteAt _ _ hi, Nat.zero_add, BitVec.getLsbD_setWidth]
  simp [hlt]

theorem byteAt_setWidth_of_le (b : BitVec 8) {s : Nat} (hs : 8 ≤ s) :
    byteAt (b.setWidth w) s = 0 := by
  refine BitVec.eq_of_getLsbD_eq fun i hi => ?_
  rw [getLsbD_byteAt _ _ hi, BitVec.getLsbD_setWidth, BitVec.getLsbD_of_ge b _ (by omega)]
  simp

/-- There is nothing above a word. -/
theorem byteAt_of_le (e : BitVec w) {s : Nat} (hs : w ≤ s) : byteAt e s = 0 := by
  refine BitVec.eq_of_getLsbD_eq fun i hi => ?_
  rw [getLsbD_byteAt _ _ hi, BitVec.getLsbD_of_ge e _ (by omega)]
  simp

/-- The `k` bytes of a word above bit `s`, from the highest down. -/
def bytesDown (e : BitVec w) (s : Nat) : Nat → List (BitVec 8)
  | 0 => []
  | k + 1 => byteAt e (s + 8 * k) :: bytesDown e s k

/-- **The bits of a word are those of its bytes.** -/
theorem bitsDown_bytes (e : BitVec w) (s : Nat) :
    ∀ k, bitsOf (bytesDown e s k) = bitsDown e (s + 8 * k - 1) (8 * k)
  | 0 => rfl
  | k + 1 => by
    rw [bytesDown, bitsOf_cons, byteBits_byteAt, bitsDown_bytes e s k,
      show 8 * (k + 1) = 8 + 8 * k by omega, bitsDown_add]
    congr 2
    · omega
    · omega

end RpiDrivers.Lib
