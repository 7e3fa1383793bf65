import Mathlib.Data.Nat.Find

/-!
# Records of varying length, one behind the other and inside one another

A walk over records goes from the beginning of one to the next, by a distance that the record
itself tells, until the end of the records is reached. A record may have records in its data.

- `RecordLayout`: how far a record reaches, how far the next one is, and where its own records are.
- `RecordLayout.exists_last`: every walk ends.
- `RecordLayout.Visited`: the records that walks come to when they test only where a record begins.
- `RecordLayout.Framed`: each record ends inside the records that it is among.
- `RecordLayout.framed_iff`: **all visited records lie inside exactly when they are framed**.
-/

namespace RpiDrivers.Lib

structure RecordLayout where
  /-- the length of the record at an address -/
  extent : Nat → Nat
  /-- the distance to the next record -/
  advance : Nat → Nat
  /-- where the records in its data begin and end, if there are any -/
  inner : Nat → Option (Nat × Nat)
  extent_pos : ∀ a, 0 < extent a
  advance_pos : ∀ a, 0 < advance a
  inner_inside : ∀ a first stop, inner a = some (first, stop) →
    a < first ∧ first < stop ∧ stop ≤ a + extent a

namespace RecordLayout

variable (l : RecordLayout)

/-- The address of the `n`-th record of a walk. -/
def nth (first : Nat) : Nat → Nat
  | 0 => first
  | n + 1 => nth first n + l.advance (nth first n)

variable {l} {first stop a e : Nat}

theorem add_le_nth (first : Nat) : ∀ n, first + n ≤ l.nth first n
  | 0 => le_refl first
  | n + 1 => by
    have ih := add_le_nth first n
    have hpos := l.advance_pos (l.nth first n)
    rw [nth]
    omega

/-- **Every walk ends**: there is a first record that no other one follows. -/
theorem exists_last (first stop : Nat) :
    ∃ n, stop ≤ l.nth first (n + 1) ∧ ∀ k < n, l.nth first (k + 1) < stop := by
  have hex : ∃ n, stop ≤ l.nth first (n + 1) := by
    refine ⟨stop, ?_⟩
    have := add_le_nth (l := l) first (stop + 1)
    omega
  classical
  exact ⟨Nat.find hex, Nat.find_spec hex, fun k hk => Nat.not_le.1 (Nat.find_min hex hk)⟩

variable (l) in
/-- The walk over the records from `first` to `stop`, and the walks inside its records, come to the
record at an address; the records among which it is end at the second one. The walks test that
the next record begins before the end, and nothing else. -/
inductive Visited (first stop : Nat) : Nat → Nat → Prop
  | first : Visited first stop first stop
  | next {a e : Nat} : Visited first stop a e → a + l.advance a < e →
      Visited first stop (a + l.advance a) e
  | inner {a e first' stop' : Nat} : Visited first stop a e → l.inner a = some (first', stop') →
      Visited first stop first' stop'

variable (l) in
/-- The bytes from an address to an end are whole records, and so are those in the records. What
follows the last one is too short for the walk to go on. -/
inductive Framed : Nat → Nat → Prop
  | intro {a stop : Nat} : a + l.extent a ≤ stop →
      (∀ first stop', l.inner a = some (first, stop') → Framed first stop') →
      (a + l.advance a < stop → Framed (a + l.advance a) stop) → Framed a stop

/-- Addresses only grow, in a walk and into a record. -/
theorem Visited.le (hv : l.Visited first stop a e) : first ≤ a := by
  induction hv with
  | first => exact le_refl _
  | next _ _ ih => omega
  | @inner a e first' stop' _ hinner ih =>
    have := l.inner_inside a first' stop' hinner
    omega

/-- What a walk over framed records comes to is framed, and ends where the whole ends at last. -/
theorem Framed.of_visited (h : l.Framed first stop) (hv : l.Visited first stop a e) :
    l.Framed a e ∧ e ≤ stop := by
  induction hv with
  | first => exact ⟨h, le_refl _⟩
  | next _ hlt ih =>
    obtain ⟨⟨-, -, hnext⟩, hstop⟩ := ih
    exact ⟨hnext hlt, hstop⟩
  | @inner a e first' stop' _ hinner ih =>
    obtain ⟨⟨hextent, hframed, -⟩, hstop⟩ := ih
    have hinside := l.inner_inside a first' stop' hinner
    exact ⟨hframed first' stop' hinner, by omega⟩

/-- **All records that are visited lie inside exactly when they are framed.** -/
theorem framed_iff :
    l.Framed first stop ↔ ∀ a e, l.Visited first stop a e → a + l.extent a ≤ e := by
  constructor
  · intro h a e hv
    obtain ⟨⟨hextent, -, -⟩, -⟩ := h.of_visited hv
    exact hextent
  · intro h
    suffices hall : ∀ n a e, e - a ≤ n → l.Visited first stop a e → l.Framed a e from
      hall _ first stop (le_refl _) .first
    intro n
    induction n with
    | zero =>
      intro a e hle hv
      have := h a e hv
      have := l.extent_pos a
      omega
    | succ n ih =>
      intro a e hle hv
      have hextent := h a e hv
      have hpos := l.advance_pos a
      refine .intro hextent (fun first' stop' hinner => ?_) fun hlt => ?_
      · have hinside := l.inner_inside a first' stop' hinner
        exact ih first' stop' (by omega) (hv.inner hinner)
      · exact ih _ e (by omega) (hv.next hlt)

end RecordLayout

end RpiDrivers.Lib
