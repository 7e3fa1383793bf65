import Mathlib.Algebra.Order.BigOperators.Group.List
import Mathlib.Algebra.Order.Group.Nat
import Mathlib.Algebra.Ring.Nat
import Mathlib.Data.List.Nodup

/-!
# A tab of open items

Items are put on a tab with a charge, and taken off when they are closed. The charge of an item may
be waived before that.

- `Tab.due`: the charges on the tab that have not been waived.
- `Tab.Lists`: **a list has just the items that are charged**. It is what a program keeps in its
  own places; each operation on the tab takes an item into the list, or out of it.
-/

namespace RpiDrivers.Lib

/-- The open items, and the keys of those whose charge has been waived. -/
structure Tab (α : Type) where
  items : List α
  waived : List Nat

namespace Tab

variable {α : Type} (key charge : α → Nat) (t : Tab α)

def empty : Tab α := ⟨[], []⟩

def add (a : α) : Tab α := { t with items := t.items ++ [a] }

def close (k : Nat) : Tab α := { t with items := t.items.filter (key · ≠ k) }

def waive (k : Nat) : Tab α := { t with waived := k :: t.waived }

/-- What is charged. -/
def due : Nat := (t.items.map fun a => if key a ∈ t.waived then 0 else charge a).sum

/-- **The list has just the items that are charged.** -/
structure Lists (l : List α) : Prop where
  perm : (t.items.filter (key · ∉ t.waived)).Perm l
  nodup : (t.items.map key).Nodup

variable {key charge t}

/-- Items that are waived do not count. -/
theorem sum_filter (l : List α) (p : α → Prop) [DecidablePred p] :
    (l.map fun a => if p a then 0 else charge a).sum = ((l.filter (¬ p ·)).map charge).sum := by
  induction l with
  | nil => rfl
  | cons a l ih =>
    by_cases ha : p a
    · simp [ha, ih]
    · simp [ha, ih]

namespace Lists

variable {a : α} {k : Nat} {l l' : List α}

theorem empty : (empty : Tab α).Lists key [] := ⟨.refl _, List.nodup_nil⟩

theorem of_perm (h : t.Lists key l) (hl : l.Perm l') : t.Lists key l' :=
  ⟨h.perm.trans hl, h.nodup⟩

/-- **The list is charged.** -/
theorem due_eq (h : t.Lists key l) : t.due key charge = (l.map charge).sum := by
  rw [due, sum_filter]
  exact (h.perm.map charge).sum_eq

/-- What is in the list is on the tab, and not waived. -/
theorem mem (h : t.Lists key l) (ha : a ∈ l) : a ∈ t.items ∧ key a ∉ t.waived := by
  obtain ⟨hmem, hkey⟩ := List.mem_filter.1 (h.perm.mem_iff.2 ha)
  exact ⟨hmem, of_decide_eq_true hkey⟩

theorem nodup_keys (h : t.Lists key l) : (l.map key).Nodup :=
  (h.perm.map key).nodup_iff.1 (h.nodup.sublist (List.filter_sublist.map key))

theorem add (h : t.Lists key l) (hnew : key a ∉ t.items.map key) (hwaived : key a ∉ t.waived) :
    (t.add a).Lists key (a :: l) := by
  constructor
  case perm =>
    have hlast : [a].filter (key · ∉ t.waived) = [a] :=
      List.filter_eq_self.2 fun b hb => by
        rw [List.mem_singleton.1 hb]
        exact decide_eq_true hwaived
    rw [Tab.add, List.filter_append, hlast]
    exact List.perm_append_comm.trans (h.perm.cons a)
  case nodup =>
    rw [Tab.add, List.map_append, List.nodup_append']
    refine ⟨h.nodup, List.nodup_singleton _, fun k hk hlast => ?_⟩
    rw [List.map_singleton, List.mem_singleton] at hlast
    exact hnew (hlast ▸ hk)

/-- Without the first item of a list. -/
theorem filter_cons_ne (h : ((a :: l).map key).Nodup) : (a :: l).filter (key · ≠ key a) = l := by
  rw [List.filter_cons_of_neg (by simp), List.filter_eq_self]
  intro b hb
  refine decide_eq_true fun heq => ?_
  exact (List.nodup_cons.1 h).1 (heq ▸ List.mem_map_of_mem hb)

/-- An item that is closed leaves the list. -/
theorem close (h : t.Lists key (a :: l)) : (t.close key (key a)).Lists key l := by
  constructor
  case perm =>
    show ((t.items.filter (key · ≠ key a)).filter (key · ∉ t.waived)).Perm l
    rw [List.filter_comm]
    have hfilter := h.perm.filter (key · ≠ key a)
    rwa [filter_cons_ne h.nodup_keys] at hfilter
  case nodup => exact h.nodup.sublist (List.filter_sublist.map key)

/-- **An item that is waived leaves the list**, and not the tab. -/
theorem waive (h : t.Lists key (a :: l)) : (t.waive (key a)).Lists key l := by
  refine ⟨?_, h.nodup⟩
  have hfilter := h.perm.filter (key · ≠ key a)
  rw [filter_cons_ne h.nodup_keys, List.filter_filter] at hfilter
  have hand : (fun b => decide (key b ∉ (t.waive (key a)).waived)) =
      fun b => decide (key b ≠ key a) && decide (key b ∉ t.waived) := by
    funext b
    simp [Tab.waive]
  rw [hand]
  exact hfilter

/-- When it is closed, nothing leaves the list. -/
theorem close_of_waived (h : t.Lists key l) (hk : k ∈ t.waived) : (t.close key k).Lists key l := by
  constructor
  case perm =>
    show ((t.items.filter (key · ≠ k)).filter (key · ∉ t.waived)).Perm l
    have hself : (t.items.filter (key · ∉ t.waived)).filter (key · ≠ k) =
        t.items.filter (key · ∉ t.waived) := by
      refine List.filter_eq_self.2 fun b hb => decide_eq_true fun heq => ?_
      exact of_decide_eq_true (List.mem_filter.1 hb).2 (heq ▸ hk)
    rw [List.filter_comm, hself]
    exact h.perm
  case nodup => exact h.nodup.sublist (List.filter_sublist.map key)

end Lists

end Tab

end RpiDrivers.Lib
