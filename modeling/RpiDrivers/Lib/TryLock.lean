import RpiDrivers.Lib.Pool

/-!
# Try-locks

A *try-lock* is a flag that whoever enters exchanges with 1 and whoever leaves clears; who
finds it set turns away. The operations inside are a pool.

- `Exclusive`: there are as many operations inside as the flag says, none or one.
- `Exclusive.eq_nil`, `Exclusive.eq_single`: what a free lock, and an operation inside, say of
  the whole pool.
-/

namespace RpiDrivers.Lib

universe u

variable {α : Type u} {lock : Bool} {pool : List α}

/-- The flag counts the operations inside. -/
def Exclusive (lock : Bool) (pool : List α) : Prop :=
  pool.length = lock.toNat

/-- Nobody is inside a free lock. -/
theorem Exclusive.eq_nil (h : Exclusive false pool) : pool = [] :=
  List.length_eq_zero_iff.1 h

/-- An operation inside is the only one. -/
theorem Exclusive.eq_single (h : Exclusive lock pool) {p : α} (hp : p ∈ pool) :
    lock = true ∧ pool = [p] := by
  cases lock with
  | false => rw [h.eq_nil] at hp; cases hp
  | true =>
    obtain ⟨q, rfl⟩ := List.length_eq_one_iff.1 h
    exact ⟨rfl, congrArg (fun a => [a]) (List.mem_singleton.1 hp).symm⟩

@[simp] theorem advance_single [DecidableEq α] (p : α) (rest : List α) :
    advance [p] p rest = rest := by
  simp [advance]

end RpiDrivers.Lib
