import Mathlib.Algebra.Ring.Nat

/-!
# Calculations on machine words

The operations on unsigned words wrap without notice, a bit field cuts off what does not fit, and
a division by zero stops the program. A calculation has its result, as the words give it, and
whether every operation on the way to it was exact.

- `Calc`: a division by zero, or a result and whether it is exact.
- `Calc.Exactly`: **the calculation comes to this result, and every operation was exact**.
- `Calc.exactly_bind`: a calculation is exact when its parts are; the operations each have a lemma
  that says when they are.
- `Calc.value`: the result, exact or not.
-/

namespace RpiDrivers.Lib

/-- A calculation on words. -/
inductive Calc (α : Type) where
  | divByZero
  | result (value : α) (exact : Bool)
  deriving DecidableEq

namespace Calc

variable {α β : Type}

/-- What comes after an inexact operation is inexact, too. -/
def andThen (c : Calc α) (f : α → Calc β) : Calc β :=
  match c with
  | divByZero => divByZero
  | result a exact =>
    match f a with
    | divByZero => divByZero
    | result b exact' => result b (exact && exact')

instance : Monad Calc where
  pure a := result a true
  bind := andThen

/-! ## Operations -/

/-- The sum of two words of `w` bits. -/
def add (w a b : Nat) : Calc Nat := result ((a + b) % 2 ^ w) (a + b < 2 ^ w)

def sub (w a b : Nat) : Calc Nat := result ((a + 2 ^ w - b) % 2 ^ w) (b ≤ a)

def mul (w a b : Nat) : Calc Nat := result (a * b % 2 ^ w) (a * b < 2 ^ w)

def div (a b : Nat) : Calc Nat := if b = 0 then divByZero else result (a / b) true

def rem (a b : Nat) : Calc Nat := if b = 0 then divByZero else result (a % b) true

/-- A value that is put into a field of `w` bits, or that a narrower word takes. -/
def field (w a : Nat) : Calc Nat := result (a % 2 ^ w) (a < 2 ^ w)

/-! ## Exact calculations -/

/-- **The calculation comes to `a`**, and every operation was exact. -/
def Exactly (c : Calc α) (a : α) : Prop := c = result a true

instance [DecidableEq α] (c : Calc α) (a : α) : Decidable (c.Exactly a) :=
  inferInstanceAs (Decidable (_ = _))

/-- A calculation comes to one result only. -/
theorem Exactly.unique {c : Calc α} {a b : α} (ha : c.Exactly a) (hb : c.Exactly b) : a = b :=
  (Calc.result.inj (ha.symm.trans hb)).1

/-- What comes after an exact operation goes on with its result. -/
theorem Exactly.bind_eq {c : Calc α} {a : α} (h : c.Exactly a) (f : α → Calc β) :
    c >>= f = f a := by
  obtain rfl : c = result a true := h
  show andThen (result a true) f = f a
  rw [andThen]
  cases f a <;> rfl

@[simp] theorem exactly_pure {a b : α} : Exactly (pure a) b ↔ a = b :=
  ⟨fun h => (Calc.result.inj h).1, congrArg (result · true)⟩

@[simp] theorem exactly_bind {c : Calc α} {f : α → Calc β} {b : β} :
    Exactly (c >>= f) b ↔ ∃ a, c.Exactly a ∧ (f a).Exactly b := by
  constructor
  · intro h
    cases c with
    | divByZero => cases h
    | result a exact =>
      have h : andThen (result a exact) f = result b true := h
      rw [andThen] at h
      cases hf : f a with
      | divByZero =>
        rw [hf] at h
        cases h
      | result b' exact' =>
        rw [hf] at h
        obtain ⟨rfl, hexact⟩ := Calc.result.inj h
        obtain ⟨rfl, rfl⟩ := Bool.and_eq_true_iff.1 hexact
        exact ⟨a, rfl, hf⟩
  · rintro ⟨a, rfl, hf⟩
    show andThen (result a true) f = result b true
    rw [andThen, hf]
    rfl

@[simp] theorem exactly_ite {p : Prop} [Decidable p] {c d : Calc α} {a : α} :
    Exactly (if p then c else d) a ↔ if p then c.Exactly a else d.Exactly a := by
  split_ifs <;> rfl

/-- An operation that computes modulo `m` is exact when the result is below `m`. -/
theorem exactly_mod {a m c : Nat} : Exactly (result (a % m) (a < m)) c ↔ a < m ∧ a = c := by
  constructor
  · intro h
    obtain ⟨hvalue, hexact⟩ := Calc.result.inj h
    have hlt := of_decide_eq_true hexact
    exact ⟨hlt, (Nat.mod_eq_of_lt hlt).symm.trans hvalue⟩
  · rintro ⟨hlt, rfl⟩
    rw [Exactly, Nat.mod_eq_of_lt hlt, decide_eq_true hlt]

variable {w a b c : Nat}

@[simp] theorem exactly_add : (add w a b).Exactly c ↔ a + b < 2 ^ w ∧ a + b = c := exactly_mod

@[simp] theorem exactly_mul : (mul w a b).Exactly c ↔ a * b < 2 ^ w ∧ a * b = c := exactly_mod

@[simp] theorem exactly_field : (field w a).Exactly c ↔ a < 2 ^ w ∧ a = c := exactly_mod

theorem exactly_sub (ha : a < 2 ^ w) : (sub w a b).Exactly c ↔ b ≤ a ∧ a - b = c := by
  constructor
  · intro h
    obtain ⟨hvalue, hexact⟩ := Calc.result.inj h
    have hle := of_decide_eq_true hexact
    refine ⟨hle, ?_⟩
    rw [← hvalue, Nat.sub_add_comm hle, Nat.add_mod_right, Nat.mod_eq_of_lt (by omega)]
  · rintro ⟨hle, rfl⟩
    rw [Exactly, sub, Nat.sub_add_comm hle, Nat.add_mod_right, Nat.mod_eq_of_lt (by omega),
      decide_eq_true hle]

@[simp] theorem exactly_div : (div a b).Exactly c ↔ b ≠ 0 ∧ a / b = c := by
  rw [div]
  split_ifs with hb
  · constructor
    · intro h
      cases h
    · rintro ⟨hne, -⟩
      exact absurd hb hne
  · constructor
    · intro h
      exact ⟨hb, (Calc.result.inj h).1⟩
    · rintro ⟨-, rfl⟩
      rfl

/-! ## Results, exact or not -/

/-- The result, unless the program is stopped. -/
def value : Calc α → Option α
  | divByZero => none
  | result a _ => some a

theorem Exactly.value_eq {c : Calc α} {a : α} (h : c.Exactly a) : c.value = some a := by
  cases h
  rfl

@[simp] theorem value_pure (a : α) : value (pure a : Calc α) = some a := rfl

@[simp] theorem value_bind (c : Calc α) (f : α → Calc β) :
    value (c >>= f) = c.value.bind fun a => (f a).value := by
  cases c with
  | divByZero => rfl
  | result a exact =>
    show value (andThen (result a exact) f) = (f a).value
    rw [andThen]
    cases f a <;> rfl

@[simp] theorem value_ite {p : Prop} [Decidable p] (c d : Calc α) :
    value (if p then c else d) = if p then c.value else d.value := by
  split_ifs <;> rfl

@[simp] theorem value_div (a b : Nat) : (div a b).value = if b = 0 then none else some (a / b) := by
  rw [div]
  split_ifs <;> rfl

@[simp] theorem value_rem (a b : Nat) : (rem a b).value = if b = 0 then none else some (a % b) := by
  rw [rem]
  split_ifs <;> rfl

@[simp] theorem value_field (w a : Nat) : (field w a).value = some (a % 2 ^ w) := rfl

@[simp] theorem value_sub (w a b : Nat) : (sub w a b).value = some ((a + 2 ^ w - b) % 2 ^ w) := rfl

end Calc

end RpiDrivers.Lib
