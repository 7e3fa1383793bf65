import Mathlib.Algebra.Order.BigOperators.Group.List
import Mathlib.Algebra.Order.Group.Nat
import Mathlib.Algebra.Ring.Nat
import Mathlib.Data.List.Nodup
import Mathlib.Logic.Function.Basic

/-!
# Pools of operations in progress

An unbounded number of operations may be under way at once. A *pool* is the list of
them; an operation takes a step by being replaced (`advance`) with what is left of it,
and starts or ends the same way. A ledger invariant is an equation between a
quantity of the state and a sum over the pool, so the lemmas here say how such sums
change, for a pool (`sum_advance`) and for a list updated at an index (`sum_map_set`).
-/

namespace RpiDrivers.Lib

universe u v

variable {α : Type u}

/-- The sum of `f` over a list. -/
def total (f : α → Nat) (l : List α) : Nat :=
  (l.map f).sum

@[simp] theorem total_nil (f : α → Nat) : total f [] = 0 := rfl

@[simp] theorem total_cons (f : α → Nat) (a : α) (l : List α) :
    total f (a :: l) = f a + total f l := by
  simp [total]

@[simp] theorem total_append (f : α → Nat) (l l' : List α) :
    total f (l ++ l') = total f l + total f l' := by
  simp [total]

/-- One summand is at most the sum. -/
theorem le_total (f : α → Nat) {a : α} {l : List α} (h : a ∈ l) : f a ≤ total f l :=
  List.single_le_sum (by simp) _ (List.mem_map_of_mem h)

theorem total_eq_zero {f : α → Nat} {l : List α} (h : ∀ a ∈ l, f a = 0) : total f l = 0 :=
  List.sum_eq_zero (by simpa using h)

theorem total_le_total {f g : α → Nat} (h : ∀ a, f a ≤ g a) (l : List α) :
    total f l ≤ total g l :=
  List.sum_le_sum fun a _ => h a

/-- A positive sum has a positive summand. -/
theorem exists_of_total_pos {f : α → Nat} {l : List α} (h : 0 < total f l) :
    ∃ a ∈ l, 0 < f a := by
  by_contra hno
  have hzero : total f l = 0 := total_eq_zero fun a ha => by
    by_contra hpos
    exact hno ⟨a, ha, Nat.pos_of_ne_zero hpos⟩
  omega

/-- Updating one entry of a list exchanges its summand. -/
theorem sum_map_set (f : α → Nat) {a : α} (b : α) :
    ∀ {l : List α} {i : Nat}, l[i]? = some a →
      total f (l.set i b) + f a = total f l + f b
  | [], _, h => by simp at h
  | c :: l, 0, h => by
    obtain rfl : c = a := by simpa using h
    simp only [List.set_cons_zero, total_cons]
    omega
  | c :: l, i + 1, h => by
    have := sum_map_set f b (l := l) (i := i) (by simpa using h)
    simp only [List.set_cons_succ, total_cons]
    omega

/-- Exchanging one value of a function over a list. -/
theorem perm_map_update {β : Type v} [DecidableEq α] (f : α → β) {l : List α} (hl : l.Nodup)
    {a : α} (ha : a ∈ l) (b : β) :
    (f a :: l.map (Function.update f a b)).Perm (b :: l.map f) := by
  have hl' : l.Perm (a :: l.erase a) := List.perm_cons_erase ha
  have hrest : (l.erase a).map (Function.update f a b) = (l.erase a).map f :=
    List.map_congr_left fun c hc => Function.update_of_ne (hl.mem_erase_iff.1 hc).1 _ _
  have hnew := hl'.map (Function.update f a b)
  rw [List.map_cons, hrest, Function.update_self] at hnew
  exact ((hnew.cons _).trans (.swap ..)).trans ((hl'.map f).symm.cons _)

/-- Replace one operation of the pool by what is left of it: `[]` when it is done. -/
def advance [DecidableEq α] (pool : List α) (a : α) (rest : List α) : List α :=
  rest ++ pool.erase a

variable [DecidableEq α]

theorem mem_advance {pool : List α} {a b : α} {rest : List α} (h : b ∈ advance pool a rest) :
    b ∈ rest ∨ b ∈ pool :=
  (List.mem_append.1 h).imp_right List.mem_of_mem_erase

theorem mem_advance_of_ne {pool : List α} {a b : α} {rest : List α} (h : b ∈ pool)
    (hne : b ≠ a) : b ∈ advance pool a rest :=
  List.mem_append_right _ ((List.mem_erase_of_ne hne).2 h)

/-- **The ledger rule**: a step of one operation exchanges its summand. -/
theorem sum_advance (f : α → Nat) {pool : List α} {a : α} (h : a ∈ pool) (rest : List α) :
    total f (advance pool a rest) + f a = total f pool + total f rest := by
  have herase : f a + total f (pool.erase a) = total f pool := List.sum_map_erase f h
  rw [advance, total_append]
  omega

/-- The number of operations, the same way. -/
theorem length_advance {pool : List α} {a : α} (h : a ∈ pool) (rest : List α) :
    (advance pool a rest).length + 1 = pool.length + rest.length := by
  have herase := List.length_erase_add_one h
  rw [advance, List.length_append]
  omega

/-- What the operations have, some of them something: a step of one exchanges its part. -/
theorem filterMap_advance {β : Type v} (f : α → Option β) {pool : List α} {a : α} (h : a ∈ pool)
    (rest : List α) : ((f a).toList ++ (advance pool a rest).filterMap f).Perm
      (rest.filterMap f ++ pool.filterMap f) := by
  have hpool : (pool.filterMap f).Perm ((f a).toList ++ (pool.erase a).filterMap f) := by
    have hperm := (List.perm_cons_erase h).filterMap f
    cases hf : f a with
    | none => rwa [List.filterMap_cons_none hf] at hperm
    | some b => rwa [List.filterMap_cons_some hf] at hperm
  rw [advance, List.filterMap_append, ← List.append_assoc]
  refine (List.perm_append_comm.append_right _).trans ?_
  rw [List.append_assoc]
  exact hpool.symm.append_left _

end RpiDrivers.Lib
