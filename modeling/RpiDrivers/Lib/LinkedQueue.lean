import Mathlib.Data.List.Nodup
import Mathlib.Logic.Function.Basic

/-!
# Queues that are linked through their elements

A queue has its first and its last element, and each element has the next one. The links of all
elements are in one store, so a queue can be broken by what another one has left there.

- `LinkedQueue.append`, `LinkedQueue.pop`: an element goes to the end, and the first one is taken.
- `Represents`: the elements of a queue, in order.
- `Represents.append_iff`: **appending is right exactly when the element has no link** of its own.
- `Represents.pop`: taking the first one; `Represents.congr`: only the links of its elements matter.
-/

namespace RpiDrivers.Lib

universe u

variable {α : Type u}

structure LinkedQueue (α : Type u) where
  head : Option α
  tail : Option α

namespace LinkedQueue

def empty : LinkedQueue α := ⟨none, none⟩

/-- The element goes to the end; `none` when there is a first element, but no last one. -/
def append [DecidableEq α] (next : α → Option α) (q : LinkedQueue α) (a : α) :
    Option ((α → Option α) × LinkedQueue α) :=
  match q.head, q.tail with
  | none, _ => some (next, ⟨some a, some a⟩)
  | some _, some b => some (Function.update next b (some a), { q with tail := some a })
  | some _, none => none

/-- The first element, and what is left. -/
def pop (next : α → Option α) (q : LinkedQueue α) : Option (α × LinkedQueue α) :=
  q.head.map fun a => (a, ⟨next a, if (next a).isNone then none else q.tail⟩)

end LinkedQueue

/-- The elements that the links lead through. -/
def Links (next : α → Option α) : Option α → List α → Prop
  | head, [] => head = none
  | head, a :: as => head = some a ∧ Links next (next a) as

/-- The elements of a queue. -/
structure Represents (next : α → Option α) (q : LinkedQueue α) (l : List α) : Prop where
  links : Links next q.head l
  tail : q.tail = l.getLast?

namespace Links

variable {next next' : α → Option α} {head : Option α}

theorem congr {l : List α} (hsame : ∀ a ∈ l, next' a = next a) (h : Links next head l) :
    Links next' head l := by
  induction l generalizing head with
  | nil => exact h
  | cons a as ih =>
    obtain ⟨rfl, hrest⟩ := h
    refine ⟨rfl, ih (fun b hb => hsame b (List.mem_cons_of_mem _ hb)) ?_⟩
    rwa [hsame a List.mem_cons_self]

/-- The links lead from the last element nowhere. -/
theorem next_last {l : List α} {a : α} (h : Links next head (l ++ [a])) : next a = none := by
  induction l generalizing head with
  | nil => exact h.2
  | cons b bs ih => exact ih h.2

/-- The last element gets a link to another one. -/
theorem concat [DecidableEq α] {l : List α} {a b : α} (hnodup : (l ++ [b]).Nodup) (hab : a ≠ b)
    (ha : a ∉ l) (hnull : next a = none) (h : Links next head (l ++ [b])) :
    Links (Function.update next b (some a)) head (l ++ [b, a]) := by
  induction l generalizing head with
  | nil =>
    obtain ⟨rfl, -⟩ := h
    refine ⟨rfl, Function.update_self .., ?_⟩
    show Function.update next b (some a) a = none
    rw [Function.update_of_ne hab, hnull]
  | cons c cs ih =>
    obtain ⟨rfl, hrest⟩ := h
    rw [List.cons_append, List.nodup_cons] at hnodup
    have hcb : c ≠ b := by
      rintro rfl
      exact hnodup.1 (List.mem_append_right _ List.mem_cons_self)
    refine ⟨rfl, ?_⟩
    rw [Function.update_of_ne hcb]
    exact ih hnodup.2 (fun hmem => ha (List.mem_cons_of_mem _ hmem)) hrest

end Links

namespace Represents

variable {next next' : α → Option α} {q : LinkedQueue α} {l : List α} {a : α}

theorem empty (next : α → Option α) : Represents next .empty [] := ⟨rfl, rfl⟩

/-- Only the links of its elements matter. -/
theorem congr (hsame : ∀ a ∈ l, next' a = next a) (h : Represents next q l) :
    Represents next' q l := ⟨h.links.congr hsame, h.tail⟩

/-- **The first element is taken.** -/
theorem pop (h : Represents next q (a :: l)) : ∃ q', q.pop next = some (a, q') ∧
    Represents next q' l := by
  obtain ⟨⟨hhead, hlinks⟩, htail⟩ := h
  rw [LinkedQueue.pop, hhead]
  refine ⟨_, rfl, hlinks, ?_⟩
  cases l with
  | nil =>
    have hnone : next a = none := hlinks
    rw [hnone]
    rfl
  | cons b bs =>
    rw [hlinks.1, htail]
    exact List.getLast?_cons_cons

/-- A queue without elements has no first one. -/
theorem pop_nil (h : Represents next q []) : q.pop next = none := by
  have hhead : q.head = none := h.links
  rw [LinkedQueue.pop, hhead]
  rfl

variable [DecidableEq α]

/-- **Appending** an element that is not in the queue. Its own link stays, and so do the links of
what is not in the queue. The elements are right exactly when it has none. -/
theorem append_iff (h : Represents next q l) (hnodup : l.Nodup) (ha : a ∉ l) :
    ∃ next' q', q.append next a = some (next', q') ∧ (∀ b, b ∉ l → next' b = next b) ∧
      (Represents next' q' (l ++ [a]) ↔ next a = none) := by
  rcases List.eq_nil_or_concat' l with rfl | ⟨init, b, rfl⟩
  · have hhead : q.head = none := h.links
    rw [LinkedQueue.append, hhead]
    refine ⟨_, _, rfl, fun _ _ => rfl, fun h' => h'.links.2, fun hnull => ⟨⟨rfl, hnull⟩, rfl⟩⟩
  · have htail : q.tail = some b := by rw [h.tail, List.getLast?_concat]
    have hhead : ∃ c, q.head = some c := by
      have hlinks := h.links
      cases init with
      | nil => exact ⟨b, hlinks.1⟩
      | cons c cs => exact ⟨c, hlinks.1⟩
    obtain ⟨c, hhead⟩ := hhead
    have hab : a ≠ b := by
      rintro rfl
      exact ha (List.mem_append_right _ List.mem_cons_self)
    rw [LinkedQueue.append, hhead, htail]
    refine ⟨_, _, rfl, fun d hd => ?_, fun h' => ?_, fun hnull => ⟨?_, ?_⟩⟩
    · have hdb : d ≠ b := by
        rintro rfl
        exact hd (List.mem_append_right _ List.mem_cons_self)
      exact Function.update_of_ne hdb ..
    · have hlast := h'.links.next_last
      rwa [Function.update_of_ne hab] at hlast
    · have hlinks := h.links
      rw [hhead] at hlinks
      rw [List.append_assoc]
      exact hlinks.concat hnodup hab (fun hmem => ha (List.mem_append_left _ hmem)) hnull
    · exact List.getLast?_concat.symm

end Represents

end RpiDrivers.Lib
