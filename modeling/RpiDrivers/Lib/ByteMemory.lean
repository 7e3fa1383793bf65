import Mathlib.Algebra.Ring.Nat
import Mathlib.Data.List.Basic

/-!
# Byte memories

A memory maps addresses to bytes. `store` writes a run of bytes, `load` reads one, and words
of 32 bits are stored with the lowest byte first.

- `load_store_same`: what was stored is loaded back.
- `load_store_disjoint`: a store leaves the bytes around it alone.
- `store_append`: consecutive stores are one.
- `decode32_encode32`: the round trip of a word.
-/

namespace RpiDrivers.Lib

/-- A byte at every address. -/
abbrev ByteMemory : Type := Nat → UInt8

/-- Write `bytes` from address `a` on. -/
def store (m : ByteMemory) (a : Nat) (bytes : List UInt8) : ByteMemory :=
  fun x => if a ≤ x then bytes.getD (x - a) (m x) else m x

/-- Read `n` bytes from address `a` on. -/
def load (m : ByteMemory) (a n : Nat) : List UInt8 :=
  (List.range n).map fun i => m (a + i)

@[simp] theorem length_load (m : ByteMemory) (a n : Nat) : (load m a n).length = n := by
  simp [load]

theorem getElem_load (m : ByteMemory) (a n : Nat) {i : Nat} (h : i < (load m a n).length) :
    (load m a n)[i] = m (a + i) := by
  simp [load]

theorem store_inside (m : ByteMemory) (a : Nat) (bytes : List UInt8) {i : Nat}
    (h : i < bytes.length) : store m a bytes (a + i) = bytes[i] := by
  simp [store, h]

theorem store_outside (m : ByteMemory) (a : Nat) (bytes : List UInt8) {x : Nat}
    (h : x < a ∨ a + bytes.length ≤ x) : store m a bytes x = m x := by
  unfold store
  split
  · rw [List.getD_eq_getElem?_getD, List.getElem?_eq_none (by omega), Option.getD_none]
  · rfl

/-- **What was stored is loaded back.** -/
theorem load_store_same (m : ByteMemory) (a : Nat) (bytes : List UInt8) :
    load (store m a bytes) a bytes.length = bytes := by
  refine List.ext_getElem (length_load ..) fun i hi hi' => ?_
  rw [getElem_load, store_inside m a bytes hi']

/-- **A store leaves the bytes around it alone.** -/
theorem load_store_disjoint (m : ByteMemory) {a b n : Nat} {bytes : List UInt8}
    (h : a + n ≤ b ∨ b + bytes.length ≤ a) : load (store m b bytes) a n = load m a n := by
  refine List.map_congr_left fun i hi => store_outside m b bytes ?_
  have := List.mem_range.1 hi
  omega

/-- Two stores one after the other. -/
theorem store_append (m : ByteMemory) (a : Nat) (bytes bytes' : List UInt8) :
    store (store m a bytes) (a + bytes.length) bytes' = store m a (bytes ++ bytes') := by
  funext x
  by_cases hin : a ≤ x ∧ x < a + bytes.length
  · obtain ⟨i, rfl⟩ := Nat.exists_eq_add_of_le hin.1
    have hi : i < bytes.length := by omega
    have hi' : i < (bytes ++ bytes').length := by
      rw [List.length_append]
      omega
    rw [store_outside _ _ _ (.inl hin.2), store_inside m a bytes hi, store_inside m a _ hi',
      List.getElem_append_left hi]
  by_cases hafter : a + bytes.length ≤ x ∧ x < a + bytes.length + bytes'.length
  · obtain ⟨i, rfl⟩ := Nat.exists_eq_add_of_le hafter.1
    have hi : i < bytes'.length := by omega
    have hi' : bytes.length + i < (bytes ++ bytes').length := by
      rw [List.length_append]
      omega
    rw [store_inside _ _ bytes' hi, Nat.add_assoc, store_inside m a _ hi',
      List.getElem_append_right (by omega)]
    simp
  · rw [store_outside _ _ _ (by omega), store_outside _ _ _ (by omega),
      store_outside _ _ _ (by rw [List.length_append]; omega)]

theorem store_nil (m : ByteMemory) (a : Nat) : store m a [] = m :=
  funext fun x => by
    unfold store
    split <;> simp

theorem load_append (m : ByteMemory) (a n k : Nat) :
    load m a (n + k) = load m a n ++ load m (a + n) k := by
  simp [load, List.range_add, Nat.add_assoc]

/-- Reading a run of bytes that is known. -/
theorem load_of_load_append {m : ByteMemory} {a : Nat} {xs ys : List UInt8}
    (h : load m a (xs ++ ys).length = xs ++ ys) :
    load m a xs.length = xs ∧ load m (a + xs.length) ys.length = ys := by
  rw [List.length_append, load_append] at h
  exact List.append_inj h (length_load ..)

/-! ## Words -/

/-- The four bytes of a word. -/
def encode32 (n : Nat) : List UInt8 :=
  [.ofNat n, .ofNat (n / 2 ^ 8), .ofNat (n / 2 ^ 16), .ofNat (n / 2 ^ 24)]

/-- The word of some bytes. -/
def decode32 (bytes : List UInt8) : Nat :=
  bytes.foldr (fun b n => b.toNat + 2 ^ 8 * n) 0

@[simp] theorem length_encode32 (n : Nat) : (encode32 n).length = 4 := rfl

/-- **The round trip of a word.** -/
theorem decode32_encode32 {n : Nat} (h : n < 2 ^ 32) : decode32 (encode32 n) = n := by
  simp only [decode32, encode32, List.foldr_cons, List.foldr_nil, UInt8.toNat_ofNat']
  omega

theorem decode32_lt {bytes : List UInt8} (h : bytes.length = 4) : decode32 bytes < 2 ^ 32 := by
  match bytes, h with
  | [b0, b1, b2, b3], _ =>
    have := b0.toNat_lt
    have := b1.toNat_lt
    have := b2.toNat_lt
    have := b3.toNat_lt
    simp only [decode32, List.foldr_cons, List.foldr_nil]
    omega

/-- Four bytes are those of their word. -/
theorem encode32_decode32 {bytes : List UInt8} (h : bytes.length = 4) :
    encode32 (decode32 bytes) = bytes := by
  match bytes, h with
  | [b0, b1, b2, b3], _ =>
    have := b0.toNat_lt
    have := b1.toNat_lt
    have := b2.toNat_lt
    have := b3.toNat_lt
    simp only [encode32, decode32, List.foldr_cons, List.foldr_nil, List.cons.injEq, and_true]
    refine ⟨?_, ?_, ?_, ?_⟩ <;>
    · apply UInt8.toNat_inj.1
      rw [UInt8.toNat_ofNat']
      omega

/-- The word at an address. -/
def load32 (m : ByteMemory) (a : Nat) : Nat := decode32 (load m a 4)

end RpiDrivers.Lib
