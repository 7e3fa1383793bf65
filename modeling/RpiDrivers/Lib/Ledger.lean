import Mathlib.Data.List.Nodup
import Mathlib.Logic.Function.Basic

/-!
# What has been acquired and released

A program acquires objects and has to release each one once. The ledger keeps both lists, so that
a release that was forgotten shows, as does one too many.

- `Ledger.Live`: what is acquired and not released yet, each as often as it was acquired.
- `Ledger.Settled`: **every object has been released as often as it was acquired**.
- `Ledger.Live.settled`: a ledger is settled when everything that is live has been released.
- `Ledger.outstanding`: how many objects are live.
- `Ledger.Numbered`: the objects are numbered as they are acquired, so that no two are the same.
- `perm_filterMap_update`: the objects in a table, when one is put at a free place.
-/

namespace RpiDrivers.Lib

universe u v

/-- What has been acquired and what has been released. -/
structure Ledger (α : Type u) where
  acquired : List α
  released : List α
  deriving DecidableEq

namespace Ledger

variable {α : Type u} {l : Ledger α} {a : α} {as bs : List α}

def empty : Ledger α := ⟨[], []⟩

def acquire (l : Ledger α) (a : α) : Ledger α := { l with acquired := a :: l.acquired }

def release (l : Ledger α) (a : α) : Ledger α := { l with released := a :: l.released }

/-- One after the other. -/
def releaseAll (l : Ledger α) : List α → Ledger α
  | [] => l
  | a :: as => (l.release a).releaseAll as

/-- The objects that are acquired and not released. -/
def Live (l : Ledger α) (as : List α) : Prop := l.acquired.Perm (l.released ++ as)

/-- Everything is released, each object once. -/
def Settled (l : Ledger α) : Prop := l.Live []

/-- How many more objects have been acquired than released. -/
def outstanding (l : Ledger α) : Nat := l.acquired.length - l.released.length

theorem releaseAll_append (l : Ledger α) :
    ∀ as bs : List α, l.releaseAll (as ++ bs) = (l.releaseAll as).releaseAll bs := by
  intro as
  induction as generalizing l with
  | nil => exact fun _ => rfl
  | cons a as ih => exact fun bs => ih (l.release a) bs

@[simp] theorem acquired_releaseAll (l : Ledger α) :
    ∀ as : List α, (l.releaseAll as).acquired = l.acquired := by
  intro as
  induction as generalizing l with
  | nil => rfl
  | cons a as ih => exact ih (l.release a)

theorem releaseAll_eq (l : Ledger α) :
    ∀ as : List α, l.releaseAll as = ⟨l.acquired, as.reverse ++ l.released⟩ := by
  intro as
  induction as generalizing l with
  | nil => rfl
  | cons a as ih =>
    rw [releaseAll, ih, List.reverse_cons, List.append_assoc]
    rfl

namespace Live

theorem empty : (Ledger.empty : Ledger α).Live [] := List.Perm.refl _

theorem of_perm (h : l.Live as) (hperm : as.Perm bs) : l.Live bs :=
  h.trans (hperm.append_left _)

theorem acquire (h : l.Live as) : (l.acquire a).Live (a :: as) :=
  (h.cons a).trans List.perm_middle.symm

theorem release (h : l.Live (a :: as)) : (l.release a).Live as :=
  h.trans List.perm_middle

theorem releaseAll (h : l.Live (as ++ bs)) : (l.releaseAll as).Live bs := by
  induction as generalizing l with
  | nil => exact h
  | cons a as ih => exact ih h.release

theorem settled (h : l.Live as) : (l.releaseAll as).Settled := by
  rw [← List.append_nil as] at h
  exact h.releaseAll

theorem outstanding (h : l.Live as) : l.outstanding = as.length := by
  have hlength := h.length_eq
  rw [List.length_append] at hlength
  rw [Ledger.outstanding, hlength, Nat.add_sub_cancel_left]

end Live

/-! ### Numbered objects -/

/-- The number of the next object. -/
def next (l : Ledger Nat) : Nat := l.acquired.length

/-- The objects have the numbers in which they were acquired. -/
def Numbered (l : Ledger Nat) : Prop := l.acquired = (List.range l.acquired.length).reverse

namespace Numbered

variable {l : Ledger Nat}

theorem empty : (Ledger.empty : Ledger Nat).Numbered := rfl

theorem acquire (h : l.Numbered) : (l.acquire l.next).Numbered := by
  show l.next :: l.acquired = (List.range (l.acquired.length + 1)).reverse
  rw [List.range_succ, List.reverse_append, ← h]
  rfl

theorem release (h : l.Numbered) (a : Nat) : (l.release a).Numbered := h

theorem releaseAll (h : l.Numbered) (as : List Nat) : (l.releaseAll as).Numbered := by
  rw [Numbered, acquired_releaseAll]
  exact h

/-- **No two objects are the same.** -/
theorem nodup (h : l.Numbered) : l.acquired.Nodup := by
  rw [h]
  exact List.nodup_reverse.2 List.nodup_range

end Numbered

end Ledger

/-- The objects in a table, when one is put at a place that had none. -/
theorem perm_filterMap_update {ι : Type v} [DecidableEq ι] {α : Type u} {places : List ι}
    (hnodup : places.Nodup) {i : ι} (hi : i ∈ places) {table : ι → Option α}
    (hfree : table i = none) (a : α) :
    (places.filterMap (Function.update table i (some a))).Perm (a :: places.filterMap table) := by
  have hplaces := List.perm_cons_erase hi
  have hother : (places.erase i).filterMap (Function.update table i (some a)) =
      (places.erase i).filterMap table := by
    refine List.filterMap_congr fun j hj => Function.update_of_ne ?_ _ _
    exact ((List.Nodup.mem_erase_iff hnodup).1 hj).1
  have htable : (i :: places.erase i).filterMap (Function.update table i (some a)) =
      a :: (i :: places.erase i).filterMap table := by
    rw [List.filterMap_cons_some (by rw [Function.update_self]), hother,
      List.filterMap_cons_none hfree]
  refine (hplaces.filterMap _).trans ?_
  rw [htable]
  exact (hplaces.symm.filterMap _).cons a

end RpiDrivers.Lib
