import Mathlib.Data.List.Basic
import Mathlib.Logic.Function.Basic
import RpiDrivers.Lib.Ring

/-!
# A ring between one producer and one consumer

The producer stores a stream of values, number `p` in place `p % n` of a ring of `n` places;
the consumer removes them in the same order, each at its own pace.

- `RingHolds`: the ring holds the part of the stream that is not removed.
- `RingHolds.store`, `RingHolds.remove`: storing a value, and removing some.
- `RingHolds.append_contents`: **the removed part, followed by what the ring holds, is the
  stream**: nothing is lost, duplicated or reordered.
- `chunkIndex`, `chunkEnd`: a block copy to or from a ring, in two chunks where it wraps around.
-/

namespace RpiDrivers.Lib

universe u

variable {β : Type u} {n : Nat} {ring : Nat → β} {stream : List β} {removed : Nat}

/-- The ring holds the numbers of the stream from `removed` on. -/
structure RingHolds (n : Nat) (ring : Nat → β) (stream : List β) (removed : Nat) : Prop where
  le : removed ≤ stream.length
  room : stream.length ≤ removed + n
  get : ∀ p b, removed ≤ p → stream[p]? = some b → ring (p % n) = b

/-- The `count` values from place `out` on. -/
def ringContents (n : Nat) (ring : Nat → β) (out count : Nat) : List β :=
  (List.range count).map fun i => ring ((out + i) % n)

namespace RingHolds

theorem nil (n : Nat) (ring : Nat → β) : RingHolds n ring [] 0 where
  le := Nat.le_refl 0
  room := Nat.zero_le _
  get p b _ hb := by simp at hb

/-- The producer stores the next value in its place. -/
theorem store (h : RingHolds n ring stream removed) (hroom : stream.length < removed + n)
    (b : β) : RingHolds n (Function.update ring (stream.length % n) b) (stream ++ [b]) removed where
  le := by rw [List.length_append]; exact Nat.le_add_right_of_le h.le
  room := by rw [List.length_append]; exact hroom
  get p c hp hc := by
    rcases Nat.lt_or_ge p stream.length with hlt | hge
    · -- an older number: its place is not the one that is stored to
      have hne : p % n ≠ stream.length % n :=
        mod_ne_of_ne (Nat.ne_of_lt hlt) hp (Nat.lt_trans hlt hroom) h.le hroom
      rw [Function.update_of_ne hne]
      exact h.get p c hp (by rwa [List.getElem?_append_left hlt] at hc)
    · obtain rfl : p = stream.length := by
        have := (List.getElem?_eq_some_iff.1 hc).1
        simp only [List.length_append, List.length_singleton] at this
        omega
      rw [Function.update_self]
      simpa using hc

/-- The consumer removes some of the values. -/
theorem remove (h : RingHolds n ring stream removed) {removed' : Nat} (hle : removed ≤ removed')
    (hle' : removed' ≤ stream.length) : RingHolds n ring stream removed' where
  le := hle'
  room := Nat.le_trans h.room (Nat.add_le_add_right hle n)
  get p b hp hb := h.get p b (Nat.le_trans hle hp) hb

theorem getElem? (h : RingHolds n ring stream removed) {p : Nat} (hp : removed ≤ p)
    (hlt : p < stream.length) : stream[p]? = some (ring (p % n)) := by
  rw [List.getElem?_eq_getElem hlt, h.get p _ hp (List.getElem?_eq_getElem hlt)]

/-- **The removed part and the ring's contents make up the stream.** -/
theorem append_contents (h : RingHolds n ring stream removed) :
    stream.take removed ++ ringContents n ring (removed % n) (stream.length - removed) = stream := by
  suffices hdrop : ringContents n ring (removed % n) (stream.length - removed) =
      stream.drop removed by
    rw [hdrop, List.take_append_drop]
  refine List.ext_getElem? fun i => ?_
  rw [List.getElem?_drop]
  rcases Nat.lt_or_ge i (stream.length - removed) with hi | hi
  · rw [h.getElem? (Nat.le_add_right _ _) (by omega), ringContents, List.getElem?_map,
      List.getElem?_range hi, Option.map_some, Nat.mod_add_mod]
  · rw [List.getElem?_eq_none (by simpa [ringContents] using hi),
      List.getElem?_eq_none (by omega)]

end RingHolds

/-! ## Block copies -/

/-- The place of byte `i` of a block of `count` bytes that starts at `out`: the first chunk runs
to the end of the ring, the second one starts at its beginning. -/
def chunkIndex (n out count i : Nat) : Nat :=
  let first := min count (n - out)
  if i < first then out + i else i - first

/-- The place after the block. -/
def chunkEnd (n out count : Nat) : Nat :=
  let first := min count (n - out)
  if first < count then count - first else (out + first) % n

/-- A block copy goes through the places of consecutive numbers. -/
theorem chunkIndex_eq {p count i : Nat} (hi : i < count) (hcount : count ≤ n) :
    chunkIndex n (p % n) count i = (p + i) % n := by
  have hlt : p % n < n := Nat.mod_lt p (by omega)
  rw [← Nat.mod_add_mod, chunkIndex]
  generalize p % n = out at hlt ⊢
  split_ifs with hfirst
  · rw [Nat.mod_eq_of_lt (by omega)]
  · rw [Nat.mod_eq_sub_mod (by omega), Nat.mod_eq_of_lt (by omega)]
    omega

theorem chunkEnd_eq {p count : Nat} (hn : 0 < n) (hcount : count ≤ n) :
    chunkEnd n (p % n) count = (p + count) % n := by
  have hlt : p % n < n := Nat.mod_lt p hn
  rw [← Nat.mod_add_mod, chunkEnd]
  generalize p % n = out at hlt ⊢
  split_ifs with hfirst
  · rw [Nat.mod_eq_sub_mod (by omega), Nat.mod_eq_of_lt (by omega)]
    omega
  · rw [Nat.min_eq_left (by omega)]

end RpiDrivers.Lib
