import Mathlib.Data.List.Count
import Mathlib.Data.List.Nodup

/-!
# Events in a mask, and where they go

Events are kept as bits of a mask until a waiter takes the mask, so that the mask does not say how
often an event has occurred. The ledger does: each bit of each event is an *occurrence*, with a
place.

- `Shows`: a mask has the bits of some occurrences, no more and no fewer.
- `EventLedger`: the occurrences that are pending, given to a waiter that has not been told yet,
  reported to one, or dropped by a new mask.
- `EventLedger.Exact`: **every occurrence is in exactly one place**; each operation preserves it,
  except for the loss of what has been given.
-/

namespace RpiDrivers.Lib

/-- A bit of an event. -/
structure Occurrence where
  event : Nat
  bit : Nat
  deriving DecidableEq

variable {w : Nat} {α : Type}

/-- The bits of an event. -/
def occurrences (event : Nat) (mask : BitVec w) : List Occurrence :=
  ((List.range w).filter (mask.getLsbD ·)).map (⟨event, ·⟩)

/-- The mask has the bits of the occurrences. -/
def Shows (mask : BitVec w) (l : List Occurrence) : Prop :=
  ∀ b, mask.getLsbD b = true ↔ ∃ o ∈ l, o.bit = b

theorem mem_occurrences {event : Nat} {mask : BitVec w} {o : Occurrence} :
    o ∈ occurrences event mask ↔ o.event = event ∧ mask.getLsbD o.bit = true := by
  constructor
  · intro h
    obtain ⟨b, hb, rfl⟩ := List.mem_map.1 h
    exact ⟨rfl, (List.mem_filter.1 hb).2⟩
  · rintro ⟨rfl, hbit⟩
    have hlt : o.bit < w := BitVec.lt_of_getLsbD hbit
    exact List.mem_map.2 ⟨o.bit, List.mem_filter.2 ⟨List.mem_range.2 hlt, hbit⟩, rfl⟩

theorem nodup_occurrences (event : Nat) (mask : BitVec w) : (occurrences event mask).Nodup := by
  refine (List.nodup_range.filter _).map ?_
  intro b b' h
  exact congrArg Occurrence.bit h

namespace Shows

theorem zero : Shows (0#w) [] := by
  intro b
  simp

theorem occurrences (event : Nat) (mask : BitVec w) : Shows mask (occurrences event mask) := by
  intro b
  constructor
  · intro hbit
    exact ⟨⟨event, b⟩, mem_occurrences.2 ⟨rfl, hbit⟩, rfl⟩
  · rintro ⟨o, ho, rfl⟩
    exact (mem_occurrences.1 ho).2

variable {mask mask' : BitVec w} {l l' : List Occurrence}

theorem or (h : Shows mask l) (h' : Shows mask' l') : Shows (mask ||| mask') (l ++ l') := by
  intro b
  rw [BitVec.getLsbD_or, Bool.or_eq_true, h b, h' b]
  simp only [List.mem_append]
  constructor
  · rintro (⟨o, ho, hb⟩ | ⟨o, ho, hb⟩)
    · exact ⟨o, .inl ho, hb⟩
    · exact ⟨o, .inr ho, hb⟩
  · rintro ⟨o, ho | ho, hb⟩
    · exact .inl ⟨o, ho, hb⟩
    · exact .inr ⟨o, ho, hb⟩

/-- A new mask keeps the bits that it has. -/
theorem and (h : Shows mask l) (mask' : BitVec w) :
    Shows (mask &&& mask') (l.filter fun o => mask'.getLsbD o.bit) := by
  intro b
  rw [BitVec.getLsbD_and, Bool.and_eq_true, h b]
  constructor
  · rintro ⟨⟨o, ho, rfl⟩, hb⟩
    exact ⟨o, List.mem_filter.2 ⟨ho, hb⟩, rfl⟩
  · rintro ⟨o, ho, rfl⟩
    obtain ⟨hmem, hb⟩ := List.mem_filter.1 ho
    exact ⟨⟨o, hmem, rfl⟩, hb⟩

end Shows

/-! ## The ledger -/

/-- Where the occurrences are; waiters are of type `α`. -/
structure EventLedger (α : Type) where
  /-- the number of events so far -/
  events : Nat
  occurred : List Occurrence
  pending : List Occurrence
  /-- given to a waiter that has not been told yet -/
  given : List Occurrence
  reported : List (Occurrence × α)
  dropped : List Occurrence

namespace EventLedger

variable (l : EventLedger α)

def empty : EventLedger α := ⟨0, [], [], [], [], []⟩

/-- An event occurs. -/
def raise (mask : BitVec w) : EventLedger α :=
  { l with
    events := l.events + 1
    occurred := l.occurred ++ occurrences l.events mask
    pending := l.pending ++ occurrences l.events mask }

/-- What is pending is given to a waiter. -/
def give : EventLedger α := { l with given := l.given ++ l.pending, pending := [] }

/-- A new mask drops what is pending and not in it. -/
def keep (mask : BitVec w) : EventLedger α :=
  { l with
    pending := l.pending.filter fun o => mask.getLsbD o.bit
    dropped := l.dropped ++ l.pending.filter fun o => !mask.getLsbD o.bit }

/-- The waiter is told. -/
def report (a : α) : EventLedger α :=
  { l with given := [], reported := l.reported ++ l.given.map (·, a) }

/-- The waiter is gone without having been told. -/
def lose : EventLedger α := { l with given := [] }

/-- The occurrences that a waiter has been told. -/
def told [DecidableEq α] (a : α) : List Occurrence :=
  (l.reported.filter (·.2 = a)).map Prod.fst

/-- **Every occurrence is in exactly one place.** -/
structure Exact : Prop where
  count_eq : ∀ o, l.pending.count o + l.given.count o + (l.reported.map Prod.fst).count o +
    l.dropped.count o = l.occurred.count o
  nodup : l.occurred.Nodup
  lt_events : ∀ o ∈ l.occurred, o.event < l.events

namespace Exact

variable {l}

theorem empty : (empty : EventLedger α).Exact :=
  ⟨fun _ => rfl, List.nodup_nil, fun _ ho => nomatch ho⟩

theorem raise (h : l.Exact) (mask : BitVec w) : (l.raise mask).Exact := by
  constructor
  case count_eq =>
    intro o
    have hcount := h.count_eq o
    simp only [EventLedger.raise, List.count_append]
    omega
  case nodup =>
    refine List.nodup_append'.2 ⟨h.nodup, nodup_occurrences _ _, fun o ho hnew => ?_⟩
    have hlt := h.lt_events o ho
    rw [(mem_occurrences.1 hnew).1] at hlt
    exact absurd hlt (Nat.lt_irrefl _)
  case lt_events =>
    intro o ho
    show o.event < l.events + 1
    rcases List.mem_append.1 ho with hold | hnew
    · exact Nat.lt_succ_of_lt (h.lt_events o hold)
    · rw [(mem_occurrences.1 hnew).1]
      exact Nat.lt_succ_self _

theorem give (h : l.Exact) : l.give.Exact := by
  refine ⟨fun o => ?_, h.nodup, h.lt_events⟩
  have hcount := h.count_eq o
  simp only [EventLedger.give, List.count_append, List.count_nil]
  omega

theorem keep (h : l.Exact) (mask : BitVec w) : (l.keep mask).Exact := by
  refine ⟨fun o => ?_, h.nodup, h.lt_events⟩
  have hcount := h.count_eq o
  have hsplit := List.countP_eq_countP_filter_add l.pending (· == o) (fun o => mask.getLsbD o.bit)
  simp only [EventLedger.keep, List.count_append]
  simp only [List.count] at hcount ⊢
  omega

theorem report (h : l.Exact) (a : α) : (l.report a).Exact := by
  refine ⟨fun o => ?_, h.nodup, h.lt_events⟩
  have hcount := h.count_eq o
  have hmap : (l.given.map (·, a)).map Prod.fst = l.given := by
    rw [List.map_map]
    exact List.map_id _
  simp only [EventLedger.report, List.map_append, hmap, List.count_append, List.count_nil]
  omega

end Exact

/-- Nothing is lost when nothing has been given. -/
theorem lose_of_given_eq_nil {l : EventLedger α} (h : l.given = []) : l.lose = l := by
  rw [EventLedger.lose, ← h]

section Told

variable [DecidableEq α] {l : EventLedger α} {a b : α}

/-- Who has not been told anything is told what has been given. -/
theorem told_report_self (h : ∀ p ∈ l.reported, p.2 ≠ a) : (l.report a).told a = l.given := by
  have hold : l.reported.filter (·.2 = a) = [] :=
    List.filter_eq_nil_iff.2 fun p hp hpa => h p hp (of_decide_eq_true hpa)
  have hnew : (l.given.map (·, a)).filter (·.2 = a) = l.given.map (·, a) := by
    refine List.filter_eq_self.2 fun p hp => ?_
    obtain ⟨o, -, rfl⟩ := List.mem_map.1 hp
    exact decide_eq_true rfl
  rw [told, report, List.filter_append, hold, hnew, List.nil_append, List.map_map]
  exact List.map_id _

/-- Nobody else is told. -/
theorem told_report_of_ne (h : b ≠ a) : (l.report a).told b = l.told b := by
  have hnew : (l.given.map (·, a)).filter (·.2 = b) = [] := by
    refine List.filter_eq_nil_iff.2 fun p hp hpb => ?_
    obtain ⟨o, -, rfl⟩ := List.mem_map.1 hp
    exact h (of_decide_eq_true hpb).symm
  rw [told, report, List.filter_append, hnew, List.append_nil, told]

end Told

end EventLedger

end RpiDrivers.Lib
