import RpiDrivers.Lib.Ledger
import Mathlib.Data.List.Range

/-!
# Audio notifications (`minwavertstream.cpp`, `dma.cpp`)

The audio stream and the PWM driver each keep a list of the events to signal. To register an event,
the stream allocates an entry, asks the PWM driver to register the event in its own list, and then
inserts its entry. Both drivers look for the event before they insert it: an entry that has it is
removed from the list, and the request fails.

- `registerAudioNotification`, `unregisterAudioNotification`: the PWM driver.
- `registerNotificationEvent`, `unregisterNotificationEvent`: the stream, which calls it.
- `State.RunSound`: in a sequence of calls, both lists hold the events that are registered, failed
  registrations change nothing, and each entry is freed once. `State.RunRegular`: the condition.
- `runSound_iff`: **exactly when a sequence of calls is sound**.
- `registered_twice`: the second registration of an event removes it from the PWM driver's list.
-/

namespace RpiDrivers.PwmAudio.Notify

open RpiDrivers.Lib

/-! ## The lists -/

/-- `NOTIFICATION_LIST_ENTRY`; `id` says which allocation it is from. -/
structure Entry (ε : Type) where
  id : Nat
  notificationEvent : ε

/-- A list of notifications, with the entries that have been allocated for it and freed. -/
structure Notifications (ε : Type) where
  list : List (Entry ε)
  allocated : Nat
  freed : List Nat

inductive NtStatus
  | success
  | unsuccessful
  | insufficientResources
  /-- `WdfRequestRetrieveInputBuffer` has failed -/
  | bufferTooSmall
  deriving DecidableEq

variable {ε : Type} [DecidableEq ε]

/-- The loop that looks for an event, and removes the first entry that has it. -/
def removeDuplicate (event : ε) : List (Entry ε) → Option (List (Entry ε))
  | [] => none
  | e :: es =>
    if e.notificationEvent = event then some es else (removeDuplicate event es).map (e :: ·)

/-- The loop that removes and frees every entry that has an event. -/
def removeEntries (event : ε) : List (Entry ε) → List Nat → List (Entry ε) × List Nat
  | [], freed => ([], freed)
  | e :: es, freed =>
    if e.notificationEvent = event then removeEntries event es (e.id :: freed)
    else (e :: (removeEntries event es freed).1, (removeEntries event es freed).2)

namespace Notifications

variable (n : Notifications ε) (event : ε)

def empty : Notifications ε := ⟨[], 0, []⟩

/-- `ExAllocatePoolWithTag` -/
def allocate : Notifications ε := { n with allocated := n.allocated + 1 }

/-- The entry that is allocated next. -/
def entry : Entry ε := ⟨n.allocated, event⟩

/-- `InsertTailList` of the entry that has been allocated. -/
def insertTailList : Notifications ε := { n.allocate with list := n.list ++ [n.entry event] }

/-- The entry that has been allocated is inserted, unless the event has one already. Then that one
is removed from the list, and the new one is freed. -/
def insert : NtStatus × Notifications ε :=
  match removeDuplicate event n.list with
  | some list =>
    (.unsuccessful, { n.allocate with list := list, freed := n.allocated :: n.freed })
  | none => (.success, n.insertTailList event)

/-- The entries of the event are removed and freed. -/
def remove : Notifications ε :=
  { n with
    list := (removeEntries event n.list n.freed).1
    freed := (removeEntries event n.list n.freed).2 }

/-! ### The PWM driver -/

/-- `RegisterAudioNotification`; the input buffer is retrieved and an entry allocated, or not. -/
def registerAudioNotification (retrieves allocates : Bool) : NtStatus × Notifications ε :=
  if !retrieves then (.bufferTooSmall, n)
  else if !allocates then (.insufficientResources, n)
  else n.insert event

/-- `UnregisterAudioNotification` -/
def unregisterAudioNotification (retrieves : Bool) : NtStatus × Notifications ε :=
  if !retrieves then (.bufferTooSmall, n) else (.success, n.remove event)

end Notifications

/-! ## The stream -/

/-- What a call finds: memory for an entry of the stream, an IRP to send, its input buffer, and
memory for an entry of the PWM driver. -/
structure Resources where
  allocates : Bool
  sends : Bool
  retrieves : Bool
  pwmAllocates : Bool

/-- The lists of the stream and of the PWM driver; `registered` are the events that were registered
successfully and not unregistered since. -/
structure State (ε : Type) where
  stream : Notifications ε
  pwm : Notifications ε
  registered : List ε

/-- A call of the stream. -/
inductive Call (ε : Type)
  | register (event : ε) (r : Resources)
  | unregister (event : ε) (r : Resources)

namespace State

variable (s : State ε) (event : ε) (r : Resources)

def start : State ε := ⟨.empty, .empty, []⟩

/-- `PwmIoctlCall(IOCTL_BCM_PWM_REGISTER_AUDIO_NOTIFICATION)` -/
def pwmRegister : NtStatus × Notifications ε :=
  if !r.sends then (.unsuccessful, s.pwm)
  else s.pwm.registerAudioNotification event r.retrieves r.pwmAllocates

/-- `PwmIoctlCall(IOCTL_BCM_PWM_UNREGISTER_AUDIO_NOTIFICATION)` -/
def pwmUnregister : NtStatus × Notifications ε :=
  if !r.sends then (.unsuccessful, s.pwm) else s.pwm.unregisterAudioNotification event r.retrieves

/-- `RegisterNotificationEvent` -/
def registerNotificationEvent : NtStatus × State ε :=
  if !r.allocates then (.insufficientResources, s)
  else
    match s.pwmRegister event r with
    | (.success, pwm) =>
      ((s.stream.insert event).1, { s with stream := (s.stream.insert event).2, pwm := pwm })
    -- the entry is not freed
    | (status, pwm) => (status, { s with stream := s.stream.allocate, pwm := pwm })

/-- `UnregisterNotificationEvent`; the stream removes its entry even when the IOCTL fails. -/
def unregisterNotificationEvent : NtStatus × State ε :=
  ((s.pwmUnregister event r).1,
    { s with stream := s.stream.remove event, pwm := (s.pwmUnregister event r).2 })

/-- The status that a call returns. -/
def status : Call ε → NtStatus
  | .register event r => (s.registerNotificationEvent event r).1
  | .unregister event r => (s.unregisterNotificationEvent event r).1

/-- A call; the events that are registered change when it succeeds. -/
def step (c : Call ε) : State ε :=
  match c with
  | .register event r =>
    { (s.registerNotificationEvent event r).2 with
      registered :=
        if s.status c = .success then s.registered ++ [event] else s.registered }
  | .unregister event r =>
    { (s.unregisterNotificationEvent event r).2 with
      registered :=
        if s.status c = .success then s.registered.filter (· ≠ event) else s.registered }

end State

/-! ## The property and the condition -/

namespace Notifications

variable (n : Notifications ε)

/-- The events of the list. -/
def events : List ε := n.list.map Entry.notificationEvent

/-- The allocations that the entries of the list are from. -/
def ids : List Nat := n.list.map Entry.id

/-- What has been allocated and freed. -/
def ledger : Ledger Nat := ⟨(List.range n.allocated).reverse, n.freed⟩

/-- The list has the events, each once; each entry that has been allocated is either in the list, or
has been freed once. -/
structure Sound (registered : List ε) : Prop where
  exact : ∀ event, event ∈ n.events ↔ event ∈ registered
  once : n.events.Nodup
  freed : n.ledger.Live n.ids

end Notifications

namespace State

/-- Both lists have the events that are registered. -/
structure Sound (s : State ε) : Prop where
  stream : s.stream.Sound s.registered
  pwm : s.pwm.Sound s.registered

/-- A registration that fails leaves both lists as they were. -/
def FailureKeeps (s : State ε) : Call ε → Prop
  | c@(.register _ _) =>
    s.status c ≠ .success →
      (s.step c).stream.list = s.stream.list ∧ (s.step c).pwm.list = s.pwm.list
  | .unregister _ _ => True

/-- Along a sequence of calls, the lists are sound and failed registrations keep them. -/
def RunSound (s : State ε) : List (Call ε) → Prop
  | [] => s.Sound
  | c :: cs => s.Sound ∧ s.FailureKeeps c ∧ (s.step c).RunSound cs

/-- A registration fails for want of memory in the stream, or it is of an event that is not
registered, and the PWM driver carries it out. The unregistration of an event that is registered
reaches the PWM driver. -/
def Regular (s : State ε) : Call ε → Prop
  | .register event r =>
    r.allocates = false ∨
      r.sends = true ∧ r.retrieves = true ∧ r.pwmAllocates = true ∧ event ∉ s.registered
  | .unregister event r => r.sends = true ∧ r.retrieves = true ∨ event ∉ s.registered

/-- Each call of a sequence meets the condition. -/
def RunRegular (s : State ε) : List (Call ε) → Prop
  | [] => True
  | c :: cs => s.Regular c ∧ (s.step c).RunRegular cs

end State

/-! ## The loops -/

theorem removeDuplicate_eq_none {event : ε} {l : List (Entry ε)}
    (h : event ∉ l.map Entry.notificationEvent) : removeDuplicate event l = none := by
  induction l with
  | nil => rfl
  | cons e l ih =>
    have hne : event ≠ e.notificationEvent := List.ne_of_not_mem_cons h
    rw [removeDuplicate, if_neg hne.symm, ih (List.not_mem_of_not_mem_cons h)]
    rfl

/-- An entry is removed when the event has one. -/
theorem removeDuplicate_eq_some {event : ε} {l : List (Entry ε)}
    (h : event ∈ l.map Entry.notificationEvent) :
    ∃ l', removeDuplicate event l = some l' ∧ l'.length + 1 = l.length := by
  induction l with
  | nil => exact absurd h List.not_mem_nil
  | cons e l ih =>
    rw [removeDuplicate]
    split
    · exact ⟨l, rfl, rfl⟩
    · next hne =>
      have hrest := (List.mem_cons.1 h).resolve_left (Ne.symm hne)
      obtain ⟨l', hl', hlength⟩ := ih hrest
      exact ⟨e :: l', by rw [hl']; rfl, congrArg (· + 1) hlength⟩

/-- The loop keeps the entries of the other events, and frees those of the event. -/
theorem removeEntries_eq (event : ε) (l : List (Entry ε)) (freed : List Nat) :
    removeEntries event l freed =
      (l.filter (fun e => decide (e.notificationEvent ≠ event)),
        ((l.filter (fun e => decide (e.notificationEvent = event))).map Entry.id).reverse ++
          freed) := by
  induction l generalizing freed with
  | nil => rfl
  | cons e l ih =>
    rw [removeEntries]
    split
    · next heq =>
      rw [ih, List.filter_cons_of_neg (by simpa using heq),
        List.filter_cons_of_pos (by simpa using heq)]
      simp
    · next hne =>
      rw [ih, List.filter_cons_of_pos (by simpa using hne),
        List.filter_cons_of_neg (by simpa using hne)]

namespace Notifications

/-! ## The operations -/

section

omit [DecidableEq ε]

variable {n : Notifications ε} {event : ε} {registered : List ε}

theorem ledger_allocate (n : Notifications ε) :
    n.allocate.ledger = n.ledger.acquire n.allocated := by
  have hrange : (List.range (n.allocated + 1)).reverse =
      n.allocated :: (List.range n.allocated).reverse := by
    rw [List.range_succ, List.reverse_append]
    rfl
  exact congrArg (Ledger.mk · n.freed) hrange

/-- No entry is lost: as many have been allocated as are freed or in the list. -/
theorem Sound.allocated_eq (h : n.Sound registered) :
    n.allocated = n.freed.length + n.list.length := by
  have hlength := h.freed.length_eq
  rw [List.length_append, ledger, List.length_reverse, List.length_range, ids,
    List.length_map] at hlength
  exact hlength

theorem sound_empty : (empty : Notifications ε).Sound [] where
  exact := fun _ => Iff.rfl
  once := .nil
  freed := .empty

theorem events_insertTailList (n : Notifications ε) (event : ε) :
    (n.insertTailList event).events = n.events ++ [event] := by
  rw [events, insertTailList, List.map_append]
  rfl

theorem ids_insertTailList (n : Notifications ε) (event : ε) :
    (n.insertTailList event).ids = n.ids ++ [n.allocated] := by
  rw [ids, insertTailList, List.map_append]
  rfl

/-- A new event is in the list once. -/
theorem Sound.insertTailList (h : n.Sound registered) (hevent : event ∉ registered) :
    (n.insertTailList event).Sound (registered ++ [event]) := by
  have hnot : event ∉ n.events := fun hmem => hevent ((h.exact event).1 hmem)
  constructor
  case exact =>
    intro e
    rw [events_insertTailList, List.mem_append, List.mem_append, h.exact e]
  case once =>
    rw [events_insertTailList]
    rw [← List.concat_eq_append]
    exact h.once.concat hnot
  case freed =>
    rw [ids_insertTailList]
    refine Ledger.Live.of_perm ?_ List.perm_append_comm
    show n.allocate.ledger.Live _
    rw [ledger_allocate]
    exact h.freed.acquire

/-- An entry that is allocated, and neither inserted nor freed, is lost. -/
theorem Sound.not_allocate (h : n.Sound registered) {registered' : List ε} :
    ¬ n.allocate.Sound registered' := by
  intro h'
  have hbefore := h.allocated_eq
  have hafter : n.allocated + 1 = n.freed.length + n.list.length := h'.allocated_eq
  omega

end

variable {n : Notifications ε} {event : ε} {registered : List ε}

theorem insert_of_notMem (hevent : event ∉ n.events) :
    n.insert event = (.success, n.insertTailList event) := by
  rw [insert, removeDuplicate_eq_none hevent]

/-- The second insertion of an event fails. -/
theorem insert_of_mem (hevent : event ∈ n.events) : (n.insert event).1 = .unsuccessful := by
  obtain ⟨list, hlist, -⟩ := removeDuplicate_eq_some hevent
  rw [insert, hlist]

/-- `RegisterAudioNotification` succeeds when it has what it needs and the event is new. -/
theorem registerAudioNotification_success_iff (n : Notifications ε) (event : ε)
    (retrieves allocates : Bool) :
    (n.registerAudioNotification event retrieves allocates).1 = .success ↔
      retrieves = true ∧ allocates = true ∧ event ∉ n.events := by
  rw [registerAudioNotification]
  cases retrieves with
  | false => exact ⟨fun h => (nomatch h), fun h => (nomatch h.1)⟩
  | true =>
    cases allocates with
    | false => exact ⟨fun h => (nomatch h), fun h => (nomatch h.2.1)⟩
    | true =>
      show (n.insert event).1 = .success ↔ _
      by_cases hevent : event ∈ n.events
      · rw [insert_of_mem hevent]
        exact ⟨fun h => (nomatch h), fun h => absurd hevent h.2.2⟩
      · rw [insert_of_notMem hevent]
        exact ⟨fun _ => ⟨rfl, rfl, hevent⟩, fun _ => rfl⟩

theorem events_remove (n : Notifications ε) (event : ε) :
    (n.remove event).events = n.events.filter (fun e => decide (e ≠ event)) := by
  rw [events, remove, removeEntries_eq, events, List.filter_map]
  rfl

theorem ids_remove (n : Notifications ε) (event : ε) : (n.remove event).ids =
    (n.list.filter (fun e => decide (e.notificationEvent ≠ event))).map Entry.id := by
  rw [ids, remove, removeEntries_eq]

/-- The entries of the event are freed, one after the other. -/
theorem ledger_remove (n : Notifications ε) (event : ε) :
    (n.remove event).ledger = n.ledger.releaseAll
      ((n.list.filter (fun e => decide (e.notificationEvent = event))).map Entry.id) := by
  rw [Ledger.releaseAll_eq, ledger, remove, removeEntries_eq]
  rfl

/-- Nothing happens when the event has no entry. -/
theorem remove_of_notMem (hevent : event ∉ n.events) : n.remove event = n := by
  have hother : ∀ e ∈ n.list, e.notificationEvent ≠ event := by
    intro e he heq
    exact hevent (List.mem_map.2 ⟨e, he, heq⟩)
  have hkeep : n.list.filter (fun e => decide (e.notificationEvent ≠ event)) = n.list :=
    List.filter_eq_self.2 fun e he => decide_eq_true (hother e he)
  have hfree : n.list.filter (fun e => decide (e.notificationEvent = event)) = [] :=
    List.filter_eq_nil_iff.2 fun e he => by simpa using hother e he
  rw [remove, removeEntries_eq, hkeep, hfree]
  rfl

theorem Sound.remove (h : n.Sound registered) (event : ε) :
    (n.remove event).Sound (registered.filter (fun e => decide (e ≠ event))) := by
  constructor
  case exact =>
    intro e
    rw [events_remove, List.mem_filter, List.mem_filter, h.exact e]
  case once =>
    rw [events_remove]
    exact h.once.filter _
  case freed =>
    have hperm := (List.filter_append_perm
      (fun e : Entry ε => decide (e.notificationEvent = event)) n.list).symm.map Entry.id
    rw [List.map_append] at hperm
    rw [ledger_remove, ids_remove]
    refine Ledger.Live.releaseAll (h.freed.of_perm ?_)
    simpa [ids] using hperm

end Notifications

namespace State

variable {s : State ε}

/-! ## A call -/

omit [DecidableEq ε] in
theorem sound_start : (start : State ε).Sound :=
  ⟨Notifications.sound_empty, Notifications.sound_empty⟩

theorem pwmRegister_success_iff (s : State ε) (event : ε) (r : Resources) :
    (s.pwmRegister event r).1 = .success ↔
      r.sends = true ∧ r.retrieves = true ∧ r.pwmAllocates = true ∧ event ∉ s.pwm.events := by
  rw [pwmRegister]
  cases r.sends with
  | false => exact ⟨fun h => (nomatch h), fun h => (nomatch h.1)⟩
  | true =>
    exact (s.pwm.registerAudioNotification_success_iff _ _ _).trans
      ⟨fun h => ⟨rfl, h⟩, fun h => h.2⟩

/-- An unregistration that does not reach the PWM driver. -/
theorem pwmUnregister_of_not (s : State ε) (event : ε) {r : Resources}
    (h : ¬ (r.sends = true ∧ r.retrieves = true)) :
    (s.pwmUnregister event r).1 ≠ .success ∧ (s.pwmUnregister event r).2 = s.pwm := by
  rw [pwmUnregister]
  cases hsends : r.sends with
  | false => exact ⟨fun hs => NtStatus.noConfusion hs, rfl⟩
  | true =>
    have hretrieves : r.retrieves = false := by
      cases hretrieves : r.retrieves with
      | false => rfl
      | true => exact absurd ⟨hsends, hretrieves⟩ h
    rw [Notifications.unregisterAudioNotification, hretrieves]
    exact ⟨fun hs => NtStatus.noConfusion hs, rfl⟩

/-- The PWM driver inserts the event, and so does the stream. -/
theorem step_register_success {event : ε} {r : Resources} (h : s.Sound)
    (hallocates : r.allocates = true) (hpwm : (s.pwmRegister event r).1 = .success) :
    s.status (.register event r) = .success ∧ s.step (.register event r) =
      ⟨s.stream.insertTailList event, s.pwm.insertTailList event, s.registered ++ [event]⟩ := by
  obtain ⟨hsends, hretrieves, hpwmAllocates, hnot⟩ := (s.pwmRegister_success_iff event r).1 hpwm
  have hstream : event ∉ s.stream.events := fun hmem =>
    hnot ((h.pwm.exact event).2 ((h.stream.exact event).1 hmem))
  have hcall : s.pwmRegister event r = (.success, s.pwm.insertTailList event) := by
    rw [pwmRegister, hsends, hretrieves, hpwmAllocates]
    exact Notifications.insert_of_notMem hnot
  have hregister : s.registerNotificationEvent event r =
      (.success,
        ⟨s.stream.insertTailList event, s.pwm.insertTailList event, s.registered⟩) := by
    rw [registerNotificationEvent, hallocates, hcall, Notifications.insert_of_notMem hstream]
    rfl
  have hstatus : s.status (.register event r) = .success := by
    rw [status, hregister]
  refine ⟨hstatus, ?_⟩
  rw [step, hstatus, hregister]
  rfl

/-- When the IOCTL of a registration fails, the entry of the stream is lost. -/
theorem stream_register_failure {event : ε} {r : Resources} (hallocates : r.allocates = true)
    (hfails : (s.pwmRegister event r).1 ≠ .success) :
    (s.step (.register event r)).stream = s.stream.allocate := by
  show (s.registerNotificationEvent event r).2.stream = s.stream.allocate
  rw [registerNotificationEvent, hallocates]
  cases hcall : s.pwmRegister event r with
  | mk status pwm =>
    rw [hcall] at hfails
    cases status with
    | success => exact absurd rfl hfails
    | unsuccessful | insufficientResources | bufferTooSmall => rfl

theorem sound_register_iff (h : s.Sound) (event : ε) (r : Resources) :
    (s.step (.register event r)).Sound ∧ s.FailureKeeps (.register event r) ↔
      s.Regular (.register event r) := by
  cases hallocates : r.allocates with
  | false =>
    have hregister : s.registerNotificationEvent event r = (.insufficientResources, s) := by
      rw [registerNotificationEvent, hallocates]
      rfl
    have hstep : s.step (.register event r) = s := by
      rw [step, status, hregister]
      rfl
    constructor
    · exact fun _ => .inl hallocates
    · intro _
      rw [FailureKeeps, hstep]
      exact ⟨h, fun _ => ⟨rfl, rfl⟩⟩
  | true =>
    by_cases hpwm : (s.pwmRegister event r).1 = .success
    · obtain ⟨hsends, hretrieves, hpwmAllocates, hnot⟩ := (s.pwmRegister_success_iff event r).1 hpwm
      have hevent : event ∉ s.registered := fun hmem => hnot ((h.pwm.exact event).2 hmem)
      obtain ⟨hstatus, hstep⟩ := step_register_success h hallocates hpwm
      constructor
      · exact fun _ => .inr ⟨hsends, hretrieves, hpwmAllocates, hevent⟩
      · intro _
        refine ⟨?_, fun hfailed => absurd hstatus hfailed⟩
        rw [hstep]
        exact ⟨h.stream.insertTailList hevent, h.pwm.insertTailList hevent⟩
    · constructor
      · rintro ⟨hsound, -⟩
        have hstream := hsound.stream
        rw [stream_register_failure hallocates hpwm] at hstream
        exact absurd hstream h.stream.not_allocate
      · rintro (hnone | ⟨hsends, hretrieves, hpwmAllocates, hevent⟩)
        · rw [hallocates] at hnone
          exact Bool.noConfusion hnone
        · refine absurd ((s.pwmRegister_success_iff event r).2 ?_) hpwm
          exact ⟨hsends, hretrieves, hpwmAllocates, fun hmem => hevent ((h.pwm.exact event).1 hmem)⟩

theorem sound_unregister_iff (h : s.Sound) (event : ε) (r : Resources) :
    (s.step (.unregister event r)).Sound ↔ s.Regular (.unregister event r) := by
  by_cases hreaches : r.sends = true ∧ r.retrieves = true
  · have hcall : s.pwmUnregister event r = (.success, s.pwm.remove event) := by
      rw [pwmUnregister, hreaches.1, Notifications.unregisterAudioNotification, hreaches.2]
      rfl
    have hstep : s.step (.unregister event r) = ⟨s.stream.remove event, s.pwm.remove event,
        s.registered.filter (fun e => decide (e ≠ event))⟩ := by
      rw [step, status, unregisterNotificationEvent, hcall]
      rfl
    rw [hstep]
    exact ⟨fun _ => .inl hreaches, fun _ => ⟨h.stream.remove event, h.pwm.remove event⟩⟩
  · obtain ⟨hfails, hpwm⟩ := pwmUnregister_of_not s event hreaches
    have hstep : s.step (.unregister event r) =
        ⟨s.stream.remove event, s.pwm, s.registered⟩ := by
      rw [step, status, unregisterNotificationEvent, if_neg hfails, hpwm]
    rw [hstep]
    constructor
    · intro hsound
      -- the stream has removed an event that is still registered
      refine .inr fun hmem => ?_
      have hevents := (hsound.stream.exact event).2 hmem
      rw [Notifications.events_remove, List.mem_filter] at hevents
      exact of_decide_eq_true hevents.2 rfl
    · rintro (hreached | hevent)
      · exact absurd hreached hreaches
      · rw [Notifications.remove_of_notMem fun hmem => hevent ((h.stream.exact event).1 hmem)]
        exact h

/-- **A call** keeps the lists sound exactly when it meets the condition. -/
theorem sound_step_iff (h : s.Sound) (c : Call ε) :
    (s.step c).Sound ∧ s.FailureKeeps c ↔ s.Regular c := by
  cases c with
  | register event r => exact sound_register_iff h event r
  | unregister event r => exact (and_iff_left trivial).trans (sound_unregister_iff h event r)

theorem runSound_iff_of_sound (h : s.Sound) (cs : List (Call ε)) :
    s.RunSound cs ↔ s.RunRegular cs := by
  induction cs generalizing s with
  | nil => exact ⟨fun _ => trivial, fun _ => h⟩
  | cons c cs ih =>
    have hstep := sound_step_iff h c
    constructor
    · rintro ⟨-, hkeeps, hrun⟩
      have hsound : (s.step c).Sound := by
        cases cs with
        | nil => exact hrun
        | cons => exact hrun.1
      exact ⟨hstep.1 ⟨hsound, hkeeps⟩, (ih hsound).1 hrun⟩
    · rintro ⟨hregular, hrun⟩
      obtain ⟨hsound, hkeeps⟩ := hstep.2 hregular
      exact ⟨h, hkeeps, (ih hsound).2 hrun⟩

end State

/-! ## Sequences of calls -/

/-- **Exactly when a sequence of calls is sound**. -/
theorem runSound_iff (cs : List (Call ε)) :
    (State.start : State ε).RunSound cs ↔ (State.start : State ε).RunRegular cs :=
  State.runSound_iff_of_sound State.sound_start cs

/-- A call that finds everything. -/
def Resources.all : Resources := ⟨true, true, true, true⟩

/-- **An event is registered twice**: the second registration fails, and the PWM driver does not
have the event any more. -/
theorem registered_twice : ¬ ∀ cs : List (Call Nat), State.start.RunSound cs := by
  intro h
  obtain ⟨-, -, -, -, hsound⟩ := h [.register 7 .all, .register 7 .all]
  have hevents := (hsound.pwm.exact 7).2 (by decide)
  exact absurd hevents (by decide)

/-- The third registration is for the PWM driver only: the stream removes the event. -/
example :
    let twice := (State.start.step (Call.register 7 .all)).step (.register 7 .all)
    let thrice := twice.step (.register 7 .all)
    (twice.stream.events, twice.pwm.events) = ([7], []) ∧
      (thrice.stream.events, thrice.pwm.events) = ([], [7]) := by
  decide

end RpiDrivers.PwmAudio.Notify
