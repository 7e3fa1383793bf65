import Mathlib.Data.List.Range
import Mathlib.Data.List.Perm.Basic
import Mathlib.Logic.Function.Basic
import RpiDrivers.Lib.Pool

/-!
# A stack in an array

The entries of a stack are those below its top. A push reads the top, stores it increased and
stores the entry; a pop reads it, stores it decreased and reads the entry. With no lock around
them, such accesses interleave.

- `stackEntries`: the entries of an array below a top.
- `Window`: where an access stands between its read of the top and its access to the entry.
- `Serial`: at most one window is open, and the top is what it has made of it.
- `entryCount`: how many entries are there, seen from the last access to an entry.
-/

namespace RpiDrivers.Lib

universe u v

variable {α : Type u} {β : Type v}

/-- The entries below `n`. -/
def stackEntries (entries : Nat → α) (n : Nat) : List α :=
  (List.range n).map entries

@[simp] theorem length_stackEntries (entries : Nat → α) (n : Nat) :
    (stackEntries entries n).length = n := by
  simp [stackEntries]

theorem stackEntries_succ (entries : Nat → α) (n : Nat) :
    stackEntries entries (n + 1) = stackEntries entries n ++ [entries n] := by
  rw [stackEntries, List.range_succ, List.map_append]
  rfl

/-- What is stored at the top does not change the entries below. -/
theorem stackEntries_update (entries : Nat → α) (n : Nat) (a : α) :
    stackEntries (Function.update entries n a) n = stackEntries entries n := by
  refine List.map_congr_left fun i hi => Function.update_of_ne ?_ _ _
  exact Nat.ne_of_lt (List.mem_range.1 hi)

/-- A push, after its entry is stored. -/
theorem stackEntries_push (entries : Nat → α) (n : Nat) (a : α) :
    stackEntries (Function.update entries n a) (n + 1) = stackEntries entries n ++ [a] := by
  rw [stackEntries_succ, stackEntries_update, Function.update_self]

/-- Where an access stands that has read the top; `i` is the place of its entry. -/
inductive Window
  /-- the increased top is to be stored -/
  | pushing (i : Nat)
  /-- the entry is to be stored -/
  | pushed (i : Nat)
  /-- the decreased top is to be stored -/
  | popping (i : Nat)
  /-- the entry is to be read -/
  | popped (i : Nat)
  deriving DecidableEq

namespace Window

/-- The top is as the access has read or stored it. -/
def Agrees (top : Nat) : Window → Prop
  | pushing i | popped i => top = i
  | pushed i | popping i => top = i + 1

/-- How many entries there are under a top: the access to the entry counts. -/
def entryCount (top : Nat) : Window → Nat
  | pushing _ | popping _ => top
  | pushed _ => top - 1
  | popped _ => top + 1

end Window

/-- At most one window is open, and it agrees with the top. -/
inductive Serial (top : Nat) : List Window → Prop
  | idle : Serial top []
  | one (w : Window) (h : w.Agrees top) : Serial top [w]

/-- How many entries there are. -/
def entryCount (top : Nat) : List Window → Nat
  | [] => top
  | w :: _ => w.entryCount top

namespace Serial

variable {top : Nat} {ws : List Window}

theorem eq_of_perm (h : Serial top ws) {ws' : List Window} (hp : ws'.Perm ws) : ws' = ws := by
  cases h with
  | idle => exact hp.eq_nil
  | one w h => exact List.perm_singleton.1 hp

/-- An open window is the only one. -/
theorem eq_of_mem (h : Serial top ws) {w : Window} (hw : w ∈ ws) : ws = [w] ∧ w.Agrees top := by
  cases h with
  | idle => cases hw
  | one w' h => rw [List.mem_singleton.1 hw]; exact ⟨rfl, h⟩

variable [DecidableEq α] {window : α → Option Window} {pool : List α} {a : α}

/-- A step outside the windows. -/
theorem outside (h : Serial top (pool.filterMap window)) (ha : a ∈ pool) (hw : window a = none)
    {rest : List α} (hrest : rest.filterMap window = []) :
    (advance pool a rest).filterMap window = pool.filterMap window := by
  refine h.eq_of_perm ?_
  have hperm := filterMap_advance window ha rest
  rwa [hw, hrest] at hperm

/-- An access opens the only window. -/
theorem opens (hnone : pool.filterMap window = []) (ha : a ∈ pool) (hw : window a = none)
    {rest : List α} {w : Window} (hrest : rest.filterMap window = [w]) :
    (advance pool a rest).filterMap window = [w] := by
  have hperm := filterMap_advance window ha rest
  rw [hw, hrest, hnone] at hperm
  exact List.perm_singleton.1 hperm

/-- The access whose window is open goes on, and nobody else has one. -/
theorem inside (h : Serial top (pool.filterMap window)) (ha : a ∈ pool) {w : Window}
    (hw : window a = some w) (rest : List α) (hrest : (rest.filterMap window).length ≤ 1) :
    pool.filterMap window = [w] ∧ w.Agrees top ∧
      (advance pool a rest).filterMap window = rest.filterMap window := by
  obtain ⟨hone, hagrees⟩ := h.eq_of_mem (List.mem_filterMap.2 ⟨a, ha, hw⟩)
  refine ⟨hone, hagrees, ?_⟩
  have hperm := filterMap_advance window ha rest
  rw [hw, hone] at hperm
  have hperm := hperm.trans List.perm_append_comm
  have hrest' := (List.perm_cons w).1 hperm
  cases hws : rest.filterMap window with
  | nil => rw [hws] at hrest'; exact hrest'.eq_nil
  | cons w' ws' =>
    obtain rfl : ws' = [] := by
      rw [hws, List.length_cons] at hrest
      exact List.length_eq_zero_iff.1 (by omega)
    rw [hws] at hrest'
    exact List.perm_singleton.1 hrest'

end Serial

/-- How many entries a pop may still count on: the one that is being popped is there. -/
def available (top : Nat) : List Window → Nat
  | .popped _ :: _ => top + 1
  | _ => top

theorem le_available (top : Nat) (ws : List Window) : top ≤ available top ws := by
  unfold available
  split
  · exact Nat.le_succ top
  · exact Nat.le_refl top

end RpiDrivers.Lib
