/-!
# Events of an SD host controller

The interrupt status that the drivers of the host controllers look at: the three events that a
request may have to wait for. `RequiredEvents` of a request is such a set, and so is what a DPC
is called with.

- `Events.or`, `Events.clear`: `a | b` and `a & ~b`.
- `Events.has`: a set by its members; `has_or`, `has_clear`, `has_single` take it apart.
-/

namespace RpiDrivers.Sdhc

/-- The events that a request waits for; `bufferReady` is `SDHC_IS_BUFFER_READ_READY` or
`SDHC_IS_BUFFER_WRITE_READY`, by the direction of the request. -/
structure Events where
  cmdComplete : Bool := false
  bufferReady : Bool := false
  transferComplete : Bool := false
  deriving DecidableEq

/-- One of the events. -/
inductive Event
  | cmdComplete
  | bufferReady
  | transferComplete
  deriving DecidableEq

namespace Events

/-- `a | b` -/
def or (a b : Events) : Events :=
  ⟨a.cmdComplete || b.cmdComplete, a.bufferReady || b.bufferReady,
    a.transferComplete || b.transferComplete⟩

/-- `a & ~b` -/
def clear (a b : Events) : Events :=
  ⟨a.cmdComplete && !b.cmdComplete, a.bufferReady && !b.bufferReady,
    a.transferComplete && !b.transferComplete⟩

/-- `e` is in the set. -/
def has (a : Events) : Event → Bool
  | .cmdComplete => a.cmdComplete
  | .bufferReady => a.bufferReady
  | .transferComplete => a.transferComplete

/-- The set of one event. -/
def single : Event → Events
  | .cmdComplete => { cmdComplete := true }
  | .bufferReady => { bufferReady := true }
  | .transferComplete => { transferComplete := true }

@[simp] theorem has_empty (e : Event) : has {} e = false := by cases e <;> rfl

@[simp] theorem has_or (a b : Events) (e : Event) : (a.or b).has e = (a.has e || b.has e) := by
  cases e <;> rfl

@[simp] theorem has_clear (a b : Events) (e : Event) :
    (a.clear b).has e = (a.has e && !b.has e) := by
  cases e <;> rfl

@[simp] theorem has_single (e e' : Event) : (single e).has e' = decide (e = e') := by
  cases e <;> cases e' <;> rfl

/-- Sets with the same members are equal. -/
theorem ext_has {a b : Events} (h : ∀ e, a.has e = b.has e) : a = b := by
  obtain ⟨_, _, _⟩ := a
  obtain ⟨_, _, _⟩ := b
  have hcmd := h .cmdComplete
  have hready := h .bufferReady
  have htransfer := h .transferComplete
  simp_all [has]

theorem eq_empty_iff {a : Events} : a = {} ↔ ∀ e, a.has e = false := by
  constructor
  · rintro rfl e
    exact has_empty e
  · intro h
    exact ext_has fun e => (h e).trans (has_empty e).symm

@[simp] theorem or_empty (a : Events) : a.or {} = a := ext_has fun e => by simp

@[simp] theorem clear_empty (a : Events) : a.clear {} = a := ext_has fun e => by simp

theorem or_eq_empty_iff {a b : Events} : a.or b = {} ↔ a = {} ∧ b = {} := by
  simp only [eq_empty_iff, has_or, Bool.or_eq_false_iff, forall_and]

end Events

end RpiDrivers.Sdhc
