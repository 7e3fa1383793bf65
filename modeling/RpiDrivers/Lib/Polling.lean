import Mathlib.Logic.Basic

/-!
# Polling with a bounded number of retries

A loop reads values, numbered from a position on, until one of them is what it waits for or the
retries are used up.

- `poll`: the loop. `StopsAt`: the first value that ends it for good.
- `poll_value`: what is left at the end is the last value that was read.
- `poll_of_stopsAt`, `poll_of_never`: where the loop ends.
- `poll_retry_eq_zero`: **no retry is left when the first values, without the last one, do not end
  the loop**; the last one may end it or not.
-/

namespace RpiDrivers.Lib

variable {α : Type}

/-- What a loop leaves behind: the last value, the retries, and the position of the next value. -/
structure Polled (α : Type) where
  value : α
  retry : Nat
  next : Nat

/-- Read values from `pos` on. -/
def poll (done : α → Bool) (values : Nat → α) (pos : Nat) : Nat → Polled α
  | 0 => ⟨values pos, 0, pos + 1⟩
  | retry + 1 =>
    if done (values pos) then ⟨values pos, retry + 1, pos + 1⟩ else poll done values (pos + 1) retry

/-- Value number `k` from `pos` on is the first one that is waited for. -/
def StopsAt (done : α → Bool) (values : Nat → α) (pos k : Nat) : Prop :=
  (∀ j < k, done (values (pos + j)) = false) ∧ done (values (pos + k)) = true

/-- None of the first `n` values is waited for. -/
def NeverIn (done : α → Bool) (values : Nat → α) (pos n : Nat) : Prop :=
  ∀ j < n, done (values (pos + j)) = false

section Poll

variable {done : α → Bool} {values : Nat → α} {pos : Nat}

theorem neverIn_succ {n : Nat} : NeverIn done values pos (n + 1) ↔
    done (values pos) = false ∧ NeverIn done values (pos + 1) n := by
  constructor
  · intro h
    refine ⟨h 0 n.succ_pos, fun j hj => ?_⟩
    have := h (j + 1) (by omega)
    rwa [show pos + (j + 1) = pos + 1 + j by omega] at this
  · rintro ⟨h0, h⟩ j hj
    cases j with
    | zero => exact h0
    | succ j =>
      have := h j (by omega)
      rwa [show pos + (j + 1) = pos + 1 + j by omega]

/-- Either some value stops the loop, or none does. -/
theorem neverIn_or_stopsAt (done : α → Bool) (values : Nat → α) (pos n : Nat) :
    NeverIn done values pos n ∨ ∃ k < n, StopsAt done values pos k := by
  induction n with
  | zero => exact .inl fun j hj => absurd hj j.not_lt_zero
  | succ n ih =>
    rcases ih with h | ⟨k, hk, hstop⟩
    · cases hdone : done (values (pos + n)) with
      | true => exact .inr ⟨n, n.lt_succ_self, h, hdone⟩
      | false =>
        refine .inl fun j hj => ?_
        rcases Nat.lt_succ_iff_lt_or_eq.1 hj with hj | rfl
        · exact h j hj
        · exact hdone
    · exact .inr ⟨k, by omega, hstop⟩

theorem StopsAt.unique {k l : Nat} (hk : StopsAt done values pos k)
    (hl : StopsAt done values pos l) : k = l := by
  rcases Nat.lt_trichotomy k l with h | h | h
  · exact absurd (hl.1 k h) (by simp [hk.2])
  · exact h
  · exact absurd (hk.1 l h) (by simp [hl.2])

/-- **The loop ends with the last value that was read.** -/
theorem poll_value (done : α → Bool) (values : Nat → α) (pos retry : Nat) :
    (poll done values pos retry).value = values ((poll done values pos retry).next - 1) := by
  induction retry generalizing pos with
  | zero => rfl
  | succ retry ih =>
    unfold poll
    split
    · rfl
    · exact ih (pos + 1)

theorem poll_next_pos (done : α → Bool) (values : Nat → α) (pos retry : Nat) :
    0 < (poll done values pos retry).next := by
  induction retry generalizing pos with
  | zero => exact Nat.succ_pos pos
  | succ retry ih =>
    unfold poll
    split
    · exact Nat.succ_pos pos
    · exact ih (pos + 1)

/-- The loop ends at the value that is waited for. -/
theorem poll_of_stopsAt {k : Nat} (h : StopsAt done values pos k) {retry : Nat} (hk : k ≤ retry) :
    poll done values pos retry = ⟨values (pos + k), retry - k, pos + k + 1⟩ := by
  induction k generalizing pos retry with
  | zero =>
    cases retry with
    | zero => rfl
    | succ retry =>
      have hdone : done (values pos) = true := h.2
      simp [poll, hdone]
  | succ k ih =>
    obtain ⟨retry, rfl⟩ : ∃ n, retry = n + 1 := ⟨retry - 1, by omega⟩
    obtain ⟨hfirst, hrest⟩ := neverIn_succ.1 h.1
    have hstop : StopsAt done values (pos + 1) k := by
      refine ⟨hrest, ?_⟩
      rw [show pos + 1 + k = pos + (k + 1) by omega]
      exact h.2
    have heq := ih hstop (by omega : k ≤ retry)
    simp only [poll, hfirst, Bool.false_eq_true, if_false, heq]
    rw [show pos + 1 + k = pos + (k + 1) by omega, Nat.add_sub_add_right]

/-- Without such a value the loop ends with the last retry. -/
theorem poll_of_never {retry : Nat} (h : NeverIn done values pos retry) :
    poll done values pos retry = ⟨values (pos + retry), 0, pos + retry + 1⟩ := by
  induction retry generalizing pos with
  | zero => rfl
  | succ retry ih =>
    obtain ⟨hfirst, hrest⟩ := neverIn_succ.1 h
    simp only [poll, hfirst, Bool.false_eq_true, if_false, ih hrest]
    rw [show pos + 1 + retry = pos + (retry + 1) by omega]

/-- **No retry is left when none of the first values ends the loop.** -/
theorem poll_retry_eq_zero (retry : Nat) :
    (poll done values pos retry).retry = 0 ↔ NeverIn done values pos retry := by
  constructor
  · intro h
    rcases neverIn_or_stopsAt done values pos retry with
      hnever | ⟨k, hk, hstop⟩
    · exact hnever
    · rw [poll_of_stopsAt hstop (Nat.le_of_lt hk)] at h
      have : retry - k = 0 := h
      omega
  · intro h
    rw [poll_of_never h]

/-- With a retry left, the loop has ended for what it waits for. -/
theorem poll_done (retry : Nat) (h : (poll done values pos retry).retry ≠ 0) :
    done (poll done values pos retry).value = true := by
  rcases neverIn_or_stopsAt done values pos retry with
    hnever | ⟨k, hk, hstop⟩
  · exact absurd ((poll_retry_eq_zero retry).2 hnever) h
  · rw [poll_of_stopsAt hstop (Nat.le_of_lt hk)]
    exact hstop.2

end Poll

end RpiDrivers.Lib
