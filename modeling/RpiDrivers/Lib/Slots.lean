import Mathlib.Data.List.Range
import Mathlib.Logic.Function.Basic
import RpiDrivers.Lib.Region

/-!
# Memories in slots

A memory has a word at each address. A run of words is put down one by one, and read back. A memory
that is cut into slots of one size keeps the words of a slot while other slots are written.

- `put`, `slice`: words are written and read; `slice_put`: what was put down is read back.
- `put_append`: consecutive runs are one.
- `slice_put_of_disjoint`: **words around a run stay**.
- `slot`: the region of a slot; `slot_disjoint`: different slots are disjoint.
-/

namespace RpiDrivers.Lib

universe u

variable {α : Type u}

/-! ## Runs of words -/

/-- Put words down from address `a` on. -/
def put (m : Nat → α) (a : Nat) : List α → Nat → α
  | [] => m
  | v :: vs => put (Function.update m a v) (a + 1) vs

/-- The `n` words from address `a` on. -/
def slice (m : Nat → α) (a n : Nat) : List α := (List.range n).map fun i => m (a + i)

@[simp] theorem length_slice (m : Nat → α) (a n : Nat) : (slice m a n).length = n := by
  simp [slice]

theorem slice_add (m : Nat → α) (a n k : Nat) :
    slice m a (n + k) = slice m a n ++ slice m (a + n) k := by
  rw [slice, List.range_add, List.map_append, List.map_map]
  congr 1
  refine List.map_congr_left fun i _ => ?_
  rw [Function.comp_apply, Nat.add_assoc]

theorem slice_congr {m m' : Nat → α} {a n : Nat} (h : ∀ i < n, m (a + i) = m' (a + i)) :
    slice m a n = slice m' a n :=
  List.map_congr_left fun i hi => h i (List.mem_range.1 hi)

theorem put_outside : ∀ (vs : List α) (m : Nat → α) (a : Nat) {x : Nat},
    x < a ∨ a + vs.length ≤ x → put m a vs x = m x
  | [], _, _, _, _ => rfl
  | v :: vs, m, a, x, h => by
    rw [List.length_cons] at h
    rw [put, put_outside vs _ _ (by omega), Function.update_of_ne (by omega)]

theorem put_inside : ∀ (vs : List α) (m : Nat → α) (a : Nat) {i : Nat} (h : i < vs.length),
    put m a vs (a + i) = vs[i]
  | v :: vs, m, a, 0, _ => by
    rw [put, put_outside vs _ _ (.inl (by omega)), Nat.add_zero, Function.update_self]
    rfl
  | v :: vs, m, a, i + 1, h => by
    have ih := put_inside vs (Function.update m a v) (a + 1) (Nat.lt_of_succ_lt_succ h)
    rw [put, show a + (i + 1) = a + 1 + i by omega, ih]
    rfl

/-- **What was put down is read back.** -/
theorem slice_put (m : Nat → α) (a : Nat) (vs : List α) : slice (put m a vs) a vs.length = vs := by
  refine List.ext_getElem (length_slice ..) fun i hi hi' => ?_
  simp only [slice, List.getElem_map, List.getElem_range]
  exact put_inside vs m a hi'

/-- Consecutive runs are one. -/
theorem put_append : ∀ (vs ws : List α) (m : Nat → α) (a : Nat),
    put (put m a vs) (a + vs.length) ws = put m a (vs ++ ws)
  | [], _, _, _ => rfl
  | v :: vs, ws, m, a => by
    rw [List.cons_append, put, put, List.length_cons, ← put_append vs ws]
    congr 1
    omega

/-- **Words around a run stay.** -/
theorem slice_put_of_disjoint (m : Nat → α) {a b n : Nat} {vs : List α}
    (h : Region.Disjoint ⟨a, n⟩ ⟨b, vs.length⟩) : slice (put m b vs) a n = slice m a n := by
  refine slice_congr fun i hi => put_outside vs m b ?_
  rcases h with h | h
  · have hstop : a + n ≤ b := h
    omega
  · have hstop : b + vs.length ≤ a := h
    omega

/-! ## Slots -/

/-- The region of slot `k`. -/
def slot (size k : Nat) : Region := ⟨k * size, size⟩

/-- **Different slots are disjoint.** -/
theorem slot_disjoint {size j k : Nat} (h : j ≠ k) : (slot size j).Disjoint (slot size k) := by
  rcases Nat.lt_or_gt_of_ne h with hlt | hlt
  · left
    show j * size + size ≤ k * size
    rw [← Nat.succ_mul]
    exact Nat.mul_le_mul_right size hlt
  · right
    show k * size + size ≤ j * size
    rw [← Nat.succ_mul]
    exact Nat.mul_le_mul_right size hlt

/-- A slot of `n` is inside them all. -/
theorem slot_inside {size k n : Nat} (h : k < n) : (slot size k).stop ≤ n * size := by
  show k * size + size ≤ n * size
  rw [← Nat.succ_mul]
  exact Nat.mul_le_mul_right size h

/-- A part of a slot is disjoint from the other slots. -/
theorem part_disjoint {size j k offset n : Nat} (h : j ≠ k) (hn : offset + n ≤ size) :
    (slot size j).Disjoint ⟨k * size + offset, n⟩ := by
  rcases (slot_disjoint h : (slot size j).Disjoint (slot size k)) with hstop | hstop
  · left
    have hle : j * size + size ≤ k * size := hstop
    show j * size + size ≤ k * size + offset
    omega
  · right
    have hle : k * size + size ≤ j * size := hstop
    show k * size + offset + n ≤ j * size
    omega

end RpiDrivers.Lib
