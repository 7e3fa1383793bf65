import RpiDrivers.Lib.Machine
import RpiDrivers.Lib.Pool
import RpiDrivers.Vchiq.Slots

/-!
# The doorbell (`slots.c`, `interrupt.c`)

VC publishes data, sets `Fired` of a remote event, and rings the doorbell when the event is `Armed`.
The interrupt queues the DPC, which clears `Armed` and sets the event of the thread when it finds
both flags set. The thread processes what is published, clearing `Fired` after each piece, sets
`Armed` again, and blocks on its event when it finds `Fired` clear. Each access to a flag is one
step.

The trigger thread compares its position with the published one by `<`, the recycle thread by `!=`.

- `doorbellMachine`: VC, the interrupt, any number of runs of the DPC, and the thread.
- `NoLostWakeUp`: a thread that is blocked has nothing to process, or will be woken.
- `noLostWakeUp_of_below`: **no wake-up is lost as long as the published position does not wrap**.
- `wakeUp_lost`: a position that wraps.
-/

namespace RpiDrivers.Vchiq

open RpiDrivers.Lib

/-- The two events whose threads do something. -/
inductive RemoteEvent
  | trigger
  | recycle
  deriving DecidableEq

namespace RemoteEvent

/-- The loop conditions of `VchiqProcessRxSlot` and `VchiqProcessRecycleTxSlot`. -/
def pending : RemoteEvent → Nat → Nat → Bool
  | .trigger, currentRxPos, txPos => currentRxPos < txPos
  | .recycle, currentAvailableSlot, slotQueueRecycle => currentAvailableSlot ≠ slotQueueRecycle

/-- What is published: a message, aligned and with its header, in bytes, or a slot. -/
def Piece : RemoteEvent → Nat → Prop
  | .trigger, size => 0 < size ∧ size ≤ vchiqSlotSize ∧ size % slotMsgSizeAlign = 0
  | .recycle, size => size = 1

instance : ∀ (e : RemoteEvent) (size : Nat), Decidable (e.Piece size)
  | .trigger, _ => inferInstanceAs (Decidable (_ ∧ _ ∧ _))
  | .recycle, _ => inferInstanceAs (Decidable (_ = _))

/-- How much can be published and not processed: the slots of one side. -/
def capacity : RemoteEvent → Nat
  | .trigger => vchiqMaxSlotsPerSide * vchiqSlotSize
  | .recycle => vchiqMaxSlotsPerSide

end RemoteEvent

/-- Where VC is. -/
inductive VcStep
  | idle
  /-- about to set `Fired` -/
  | fire
  /-- about to look at `Armed`, and to ring -/
  | ring
  deriving DecidableEq

/-- Where a run of `VchiqDpc` is. -/
inductive DpcStep
  | testArmed
  | testFired
  | disarm
  | setEvent
  deriving DecidableEq

/-- Where `VchiqTriggerThreadRoutine` or `VchiqRecycleThreadRoutine` is. -/
inductive ThreadStep
  /-- about to look at `Fired` -/
  | testFired
  /-- in `VchiqWaitForEvents` -/
  | wait
  /-- at the head of the processing loop -/
  | loop
  | process
  /-- about to clear `Fired` -/
  | reset
  /-- about to set `Armed` -/
  | arm
  | stopped
  deriving DecidableEq

/-- One event, and the parties to it. -/
structure Doorbell where
  armed : Bool
  fired : Bool
  /-- the `VchiqThreadEvent`, which is reset by the wait that it ends -/
  event : Bool
  /-- the doorbell has been rung, and the interrupt has not been taken -/
  bell : Bool
  /-- the DPC is in its queue -/
  queued : Bool
  dpcs : List DpcStep
  vc : VcStep
  thread : ThreadStep
  /-- `CurrentRxPos`, or the thread's count of recycled slots -/
  position : Nat
  /-- `Master.TxPos`, or `Slave.SlotQueueRecycle` -/
  published : Nat
  /-- what is published and not processed -/
  pieces : List Nat
  /-- how much was ever published -/
  total : Nat
  deriving DecidableEq

namespace Doorbell

variable (e : RemoteEvent) (s : Doorbell)

def publish (pieces : List Nat) : Doorbell :=
  { s with
    vc := .fire
    published := addPos s.published pieces.sum
    pieces := s.pieces ++ pieces
    total := s.total + pieces.sum }

/-- One step of `VchiqDpc`. -/
def dpc : DpcStep → Doorbell
  | .testArmed =>
    { s with dpcs := advance s.dpcs .testArmed (if s.armed then [.testFired] else []) }
  | .testFired =>
    { s with dpcs := advance s.dpcs .testFired (if s.fired then [.disarm] else []) }
  | .disarm => { s with dpcs := advance s.dpcs .disarm [.setEvent], armed := false }
  | .setEvent => { s with dpcs := advance s.dpcs .setEvent [], event := true }

/-- One step of the thread. -/
def threadStep : Doorbell :=
  match s.thread with
  | .testFired => { s with thread := if s.fired then .loop else .wait }
  | .wait => if s.event then { s with thread := .loop, event := false } else s
  | .loop => { s with thread := if e.pending s.position s.published then .process else .arm }
  | .process =>
    { s with
      thread := .reset
      position := addPos s.position (s.pieces.headD 0)
      pieces := s.pieces.tail }
  | .reset => { s with thread := .loop, fired := false }
  | .arm => { s with thread := .testFired, armed := true }
  | .stopped => s

/-- The thread is blocked on its event. -/
def Blocked : Prop := s.thread = .wait ∧ s.event = false

instance : Decidable s.Blocked := inferInstanceAs (Decidable (_ ∧ _))

/-- `VchiqInit`, for an event whose position starts at `p`. -/
def start (p : Nat) : Doorbell where
  armed := true
  fired := false
  event := false
  bell := false
  queued := false
  dpcs := []
  vc := .idle
  thread := .testFired
  position := p
  published := p
  pieces := []
  total := p

end Doorbell

inductive DoorbellAction
  | publish (pieces : List Nat)
  | fire
  | ring
  | isr
  | dpcStart
  | dpc (d : DpcStep)
  | thread
  | stop

namespace Doorbell

/-- When a step can happen. VC publishes what its slots have room for. -/
def enabled (e : RemoteEvent) (s : Doorbell) : DoorbellAction → Prop
  | .publish pieces => s.vc ≠ .ring ∧ (∀ n ∈ pieces, e.Piece n) ∧
      s.pieces.sum + pieces.sum ≤ e.capacity
  | .fire => s.vc = .fire
  | .ring => s.vc = .ring
  | .isr => s.bell = true
  | .dpcStart => s.queued = true
  | .dpc d => d ∈ s.dpcs
  | .thread => ¬ s.Blocked ∧ s.thread ≠ .stopped
  | .stop => s.Blocked

instance (e : RemoteEvent) : ∀ (s : Doorbell) (a : DoorbellAction), Decidable (s.enabled e a)
  | _, .publish _ => inferInstanceAs (Decidable (_ ∧ _ ∧ _))
  | _, .fire | _, .ring | _, .isr | _, .dpcStart => inferInstanceAs (Decidable (_ = _))
  | _, .dpc _ => inferInstanceAs (Decidable (_ ∈ _))
  | _, .thread => inferInstanceAs (Decidable (_ ∧ _))
  | s, .stop => inferInstanceAs (Decidable s.Blocked)

def effect (e : RemoteEvent) (s : Doorbell) : DoorbellAction → Doorbell
  | .publish pieces => s.publish pieces
  | .fire => { s with fired := true, vc := .ring }
  | .ring => { s with bell := s.bell || s.armed, vc := .idle }
  | .isr => { s with bell := false, queued := true }
  | .dpcStart => { s with queued := false, dpcs := .testArmed :: s.dpcs }
  | .dpc d => s.dpc d
  | .thread => s.threadStep e
  | .stop => { s with thread := .stopped }

/-- Where the position of an event starts: the bytes of `Master.TxPos`, or the slots that
`VchiqInit` counts as available. -/
def Starts (e : RemoteEvent) (s : Doorbell) : Prop :=
  match e with
  | .trigger => s = start 0
  | .recycle => ∃ p, p < ulongSize ∧ s = start p

end Doorbell

/-- All interleavings. -/
def doorbellMachine (e : RemoteEvent) : Machine Doorbell DoorbellAction :=
  Machine.guarded (Doorbell.Starts e) (Doorbell.enabled e) (Doorbell.effect e)

/-! ## The property and the condition -/

/-- When the thread is blocked and something is not processed, the interrupt or the DPC is under
way, or VC is about to ring. -/
def NoLostWakeUp (s : Doorbell) : Prop :=
  s.Blocked → s.pieces ≠ [] → s.bell = true ∨ s.queued = true ∨ s.dpcs ≠ [] ∨ s.vc ≠ .idle

/-- The condition: what is published to the trigger thread stays below `2 ^ 32`. -/
def Below (e : RemoteEvent) (s : Doorbell) : DoorbellAction → Prop
  | .publish pieces => e = .trigger → s.total + pieces.sum < ulongSize
  | _ => True

/-! ## Positions -/

/-- How the two positions and what lies between them belong together. -/
structure Positions (e : RemoteEvent) (position published total : Nat) (pieces : List Nat) :
    Prop where
  published : published = total % ulongSize
  position : position = (total - pieces.sum) % ulongSize
  le : pieces.sum ≤ total
  room : pieces.sum ≤ e.capacity
  pos : ∀ n ∈ pieces, 0 < n

namespace RemoteEvent

theorem Piece.pos {e : RemoteEvent} {n : Nat} (h : e.Piece n) : 0 < n := by
  cases e with
  | trigger => exact h.1
  | recycle => exact h ▸ Nat.one_pos

theorem capacity_lt (e : RemoteEvent) : e.capacity < ulongSize := by
  cases e <;> decide

end RemoteEvent

namespace Positions

variable {e : RemoteEvent} {position published total : Nat} {pieces : List Nat}

theorem sum_pos (h : Positions e position published total pieces) :
    pieces ≠ [] ↔ 0 < pieces.sum := by
  cases pieces with
  | nil => simp
  | cons n pieces =>
    have hn := h.pos n (List.mem_cons_self ..)
    simp only [ne_eq, reduceCtorEq, not_false_eq_true, List.sum_cons, true_iff]
    omega

/-- The positions are equal when everything is processed. -/
theorem eq_iff (h : Positions e position published total pieces) :
    position = published ↔ pieces = [] := by
  have hlt := e.capacity_lt
  have hle := h.le
  have hroom := h.room
  have hpos := h.sum_pos
  rw [h.position, h.published]
  constructor
  · intro heq
    by_contra hne
    have hsum := hpos.1 hne
    simp only [ulongSize] at heq hlt
    omega
  · rintro rfl
    rfl

/-- The thread goes on as long as something is published, when its position is compared with `!=`
or has not wrapped. -/
theorem pending_iff (h : Positions e position published total pieces)
    (hbelow : e = .trigger → total < ulongSize) :
    e.pending position published = true ↔ pieces ≠ [] := by
  cases e with
  | trigger =>
    have hlt := hbelow rfl
    have hle := h.le
    have hsum := h.sum_pos
    rw [RemoteEvent.pending, decide_eq_true_eq, h.position, h.published, Nat.mod_eq_of_lt hlt,
      Nat.mod_eq_of_lt (by omega), hsum]
    omega
  | recycle =>
    rw [RemoteEvent.pending, decide_eq_true_eq, ne_eq, h.eq_iff]

theorem publish (h : Positions e position published total pieces) {new : List Nat}
    (hnew : ∀ n ∈ new, e.Piece n) (hroom : pieces.sum + new.sum ≤ e.capacity) :
    Positions e position (addPos published new.sum) (total + new.sum) (pieces ++ new) where
  published := by
    rw [addPos, h.published, Nat.mod_add_mod]
  position := by
    have hle := h.le
    rw [h.position, List.sum_append]
    congr 1
    omega
  le := by
    have hle := h.le
    rw [List.sum_append]
    omega
  room := by
    rw [List.sum_append]
    exact hroom
  pos n hn := by
    rcases List.mem_append.1 hn with hold | hn
    · exact h.pos n hold
    · exact (hnew n hn).pos

theorem process (h : Positions e position published total pieces) (hne : pieces ≠ []) :
    Positions e (addPos position (pieces.headD 0)) published total pieces.tail := by
  cases pieces with
  | nil => exact absurd rfl hne
  | cons n pieces =>
    have hle := h.le
    have hroom := h.room
    have hposition := h.position
    rw [List.sum_cons] at hle hroom hposition
    refine ⟨h.published, ?_, ?_, ?_, fun m hm => h.pos m (List.mem_cons_of_mem _ hm)⟩
    · show addPos position n = (total - pieces.sum) % ulongSize
      rw [addPos, hposition, Nat.mod_add_mod]
      congr 1
      omega
    · show pieces.sum ≤ total
      omega
    · show pieces.sum ≤ e.capacity
      omega

end Positions

/-! ## What holds in every step -/

namespace Doorbell

variable {e : RemoteEvent} {s : Doorbell}

/-- The DPC is about to run, or runs. -/
def Ringing (bell queued event : Bool) (dpcs : List DpcStep) (vc : VcStep) : Prop :=
  vc = .ring ∨ bell = true ∨ queued = true ∨ event = true ∨ dpcs ≠ []

/-- What is known of the flags when something is not processed. After the loop has ended, what is
published then sets `Fired`, and nobody clears it. -/
def Live (thread : ThreadStep) (fired : Bool) (vc : VcStep) (ringing : Prop) : Prop :=
  match thread with
  | .arm | .testFired => vc = .fire ∨ fired = true
  | .wait => vc = .fire ∨ fired = true ∧ ringing
  | _ => True

/-- Once the thread has set `Armed`, the DPC clears it only to set the event. -/
def ArmedOk (thread : ThreadStep) (armed event : Bool) (dpcs : List DpcStep) : Prop :=
  thread = .testFired ∨ thread = .wait → armed = true ∨ event = true ∨ .setEvent ∈ dpcs

structure Inv (e : RemoteEvent) (s : Doorbell) : Prop where
  positions : Positions e s.position s.published s.total s.pieces
  below : e = .trigger → s.total < ulongSize
  process : s.thread = .process → s.pieces ≠ []
  armed : ArmedOk s.thread s.armed s.event s.dpcs
  live : s.pieces ≠ [] →
    Live s.thread s.fired s.vc (Ringing s.bell s.queued s.event s.dpcs s.vc)

namespace Inv

/-- When the signals under way stay under way, the thread is still served. -/
theorem live_mono {thread : ThreadStep} {fired fired' : Bool} {vc vc' : VcStep}
    {ringing ringing' : Prop} (h : Live thread fired vc ringing)
    (hfired : vc = .fire ∨ fired = true → vc' = .fire ∨ fired' = true)
    (hringing : vc = .fire ∨ fired = true ∧ ringing → vc' = .fire ∨ fired' = true ∧ ringing') :
    Live thread fired' vc' ringing' := by
  cases thread with
  | arm | testFired => exact hfired h
  | wait => exact hringing h
  | loop | process | reset | stopped => trivial

theorem publish (h : Inv e s) {pieces : List Nat} (hpieces : ∀ n ∈ pieces, e.Piece n)
    (hroom : s.pieces.sum + pieces.sum ≤ e.capacity)
    (hbelow : e = .trigger → s.total + pieces.sum < ulongSize) : Inv e (s.publish pieces) where
  positions := h.positions.publish hpieces hroom
  below := hbelow
  process hthread := List.append_ne_nil_of_left_ne_nil (h.process hthread) _
  armed := h.armed
  live _ := by
    show Live s.thread s.fired .fire _
    cases s.thread with
    | arm | testFired | wait => exact .inl rfl
    | loop | process | reset | stopped => trivial

theorem fire (h : Inv e s) : Inv e { s with fired := true, vc := .ring } where
  positions := h.positions
  below := h.below
  process := h.process
  armed := h.armed
  live hne := live_mono (h.live hne) (fun _ => .inr rfl) (fun _ => .inr ⟨rfl, .inl rfl⟩)

theorem ring (h : Inv e s) (hvc : s.vc = .ring) :
    Inv e { s with bell := s.bell || s.armed, vc := .idle } where
  positions := h.positions
  below := h.below
  process := h.process
  armed := h.armed
  live hne := by
    have hlive := h.live hne
    have harmed := h.armed
    show Live s.thread s.fired .idle (Ringing (s.bell || s.armed) s.queued s.event s.dpcs .idle)
    have hno : s.vc ≠ .fire := by rw [hvc]; decide
    cases hthread : s.thread with
    | arm | testFired =>
      rw [hthread] at hlive
      exact hlive.imp_left fun hfire => absurd hfire hno
    | wait =>
      rw [hthread] at hlive
      rcases hlive with hfire | ⟨hfired, -⟩
      · exact absurd hfire hno
      · refine .inr ⟨hfired, ?_⟩
        rcases harmed (.inr hthread) with harmed | hevent | hdpc
        · exact .inr (.inl (by rw [harmed, Bool.or_true]))
        · exact .inr (.inr (.inr (.inl hevent)))
        · exact .inr (.inr (.inr (.inr (List.ne_nil_of_mem hdpc))))
    | loop | process | reset | stopped => trivial

theorem isr (h : Inv e s) : Inv e { s with bell := false, queued := true } where
  positions := h.positions
  below := h.below
  process := h.process
  armed := h.armed
  live hne := live_mono (h.live hne) id fun hlive => hlive.imp_right fun ⟨hfired, _⟩ =>
    ⟨hfired, .inr (.inr (.inl rfl))⟩

theorem dpcStart (h : Inv e s) :
    Inv e { s with queued := false, dpcs := .testArmed :: s.dpcs } where
  positions := h.positions
  below := h.below
  process := h.process
  armed hthread := (h.armed hthread).imp_right fun hor => hor.imp_right (List.mem_cons_of_mem _)
  live hne := live_mono (h.live hne) id fun hlive => hlive.imp_right fun ⟨hfired, _⟩ =>
    ⟨hfired, .inr (.inr (.inr (.inr (List.cons_ne_nil _ _))))⟩

theorem thread (h : Inv e s) : Inv e (s.threadStep e) := by
  have harmed := h.armed
  have hlive := h.live
  have hpending := h.positions.pending_iff h.below
  rw [threadStep]
  cases hthread : s.thread with
  | testFired =>
    rw [hthread] at harmed hlive
    cases hfired : s.fired with
    | true =>
      exact ⟨h.positions, h.below, fun hp => (nomatch hp), fun hp => (nomatch hp), fun _ => trivial⟩
    | false =>
      refine ⟨h.positions, h.below, fun hp => (nomatch hp), fun _ => harmed (.inl rfl), fun hne => ?_⟩
      exact .inl ((hlive hne).resolve_right fun hf => Bool.noConfusion (hfired.symm.trans hf))
  | wait =>
    cases hevent : s.event with
    | true =>
      exact ⟨h.positions, h.below, fun hp => (nomatch hp), fun hp => (nomatch hp), fun _ => trivial⟩
    | false => exact h
  | loop =>
    cases hmore : e.pending s.position s.published with
    | true =>
      exact ⟨h.positions, h.below, fun _ => hpending.1 hmore, fun hp => (nomatch hp), fun _ => trivial⟩
    | false =>
      refine ⟨h.positions, h.below, fun hp => (nomatch hp), fun hp => (nomatch hp), fun hne => ?_⟩
      exact Bool.noConfusion (hmore.symm.trans (hpending.2 hne))
  | process =>
    exact ⟨h.positions.process (h.process hthread), h.below, fun hp => (nomatch hp),
      fun hp => (nomatch hp), fun _ => trivial⟩
  | reset =>
    exact ⟨h.positions, h.below, fun hp => (nomatch hp), fun hp => (nomatch hp), fun _ => trivial⟩
  | arm =>
    rw [hthread] at hlive
    exact ⟨h.positions, h.below, fun hp => (nomatch hp), fun _ => .inl rfl, hlive⟩
  | stopped => exact h

/-- What a run of the DPC that goes on leaves is another step of it. -/
theorem goOn (h : Inv e s) {d d' : DpcStep} (hd : d ≠ .setEvent) (armed : Bool)
    (harmed : s.armed = true → armed = true ∨ d' = .setEvent) :
    Inv e { s with dpcs := advance s.dpcs d [d'], armed := armed } where
  positions := h.positions
  below := h.below
  process := h.process
  armed hthread := by
    rcases h.armed hthread with hor | hevent | hmem
    · refine (harmed hor).imp_right fun heq => .inr ?_
      rw [heq]
      exact List.mem_cons_self ..
    · exact .inr (.inl hevent)
    · exact .inr (.inr (mem_advance_of_ne hmem hd.symm))
  live hne := live_mono (h.live hne) id fun hlive => hlive.imp_right fun ⟨hfired, _⟩ =>
    ⟨hfired, .inr (.inr (.inr (.inr (List.cons_ne_nil _ _))))⟩

/-- A run of the DPC ends with a flag that is clear: `Armed`, so that another run has cleared it, or
`Fired`. -/
theorem giveUp (h : Inv e s) {d : DpcStep} (hd : d ≠ .setEvent)
    (hclear : s.armed = false ∨ s.fired = false) :
    Inv e { s with dpcs := advance s.dpcs d [] } where
  positions := h.positions
  below := h.below
  process := h.process
  armed hthread := (h.armed hthread).imp_right fun hor =>
    hor.imp_right fun hmem => mem_advance_of_ne hmem hd.symm
  live hne := by
    have hlive := h.live hne
    have harmed := h.armed
    show Live s.thread s.fired s.vc (Ringing s.bell s.queued s.event (advance s.dpcs d []) s.vc)
    cases hthread : s.thread with
    | arm | testFired =>
      rw [hthread] at hlive
      exact hlive
    | wait =>
      rw [hthread] at hlive
      refine hlive.imp_right fun ⟨hfired, _⟩ => ⟨hfired, ?_⟩
      have hdisarmed := hclear.resolve_right fun hf => Bool.noConfusion (hf.symm.trans hfired)
      rcases harmed (.inr hthread) with harmed | hevent | hmem
      · exact Bool.noConfusion (hdisarmed.symm.trans harmed)
      · exact .inr (.inr (.inr (.inl hevent)))
      · exact .inr (.inr (.inr (.inr (List.ne_nil_of_mem (mem_advance_of_ne hmem hd.symm)))))
    | loop | process | reset | stopped => trivial

theorem dpc (h : Inv e s) (d : DpcStep) : Inv e (s.dpc d) := by
  cases d with
  | testArmed =>
    rw [Doorbell.dpc]
    split
    · exact h.goOn (d := .testArmed) (by decide) s.armed .inl
    · next harmed => exact h.giveUp (d := .testArmed) (by decide) (.inl (Bool.eq_false_iff.2 harmed))
  | testFired =>
    rw [Doorbell.dpc]
    split
    · exact h.goOn (d := .testFired) (by decide) s.armed .inl
    · next hfired => exact h.giveUp (d := .testFired) (by decide) (.inr (Bool.eq_false_iff.2 hfired))
  | disarm => exact h.goOn (d := .disarm) (by decide) false (fun _ => .inr rfl)
  | setEvent =>
    exact {
      positions := h.positions
      below := h.below
      process := h.process
      armed := fun _ => .inr (.inl rfl)
      live := fun hne => live_mono (h.live hne) id fun hlive => hlive.imp_right fun ⟨hfired, _⟩ =>
        ⟨hfired, .inr (.inr (.inr (.inl rfl)))⟩ }

theorem effect (h : Inv e s) {a : DoorbellAction} (hen : s.enabled e a) (hbelow : Below e s a) :
    Inv e (s.effect e a) := by
  cases a with
  | publish pieces => exact h.publish hen.2.1 hen.2.2 hbelow
  | fire => exact h.fire
  | ring => exact h.ring hen
  | isr => exact h.isr
  | dpcStart => exact h.dpcStart
  | dpc d => exact h.dpc d
  | thread => exact h.thread
  | stop =>
    exact ⟨h.positions, h.below, fun hp => (nomatch hp), fun hp => (nomatch hp), fun _ => trivial⟩

end Inv

theorem inv_start {s : Doorbell} (hs : s.Starts e) : Inv e s := by
  have hempty : ∀ p, p < ulongSize → Inv e (start p) := fun p hp =>
    ⟨⟨(Nat.mod_eq_of_lt hp).symm, (Nat.mod_eq_of_lt hp).symm, Nat.zero_le _, Nat.zero_le _,
      fun n hn => (nomatch hn)⟩, fun _ => hp, fun hp => (nomatch hp), fun _ => .inl rfl,
      fun hne => absurd rfl hne⟩
  cases e with
  | trigger => exact hs ▸ hempty 0 (by decide)
  | recycle =>
    obtain ⟨p, hp, rfl⟩ := hs
    exact hempty p hp

end Doorbell

/-- **No wake-up is lost** as long as the position that is published to the trigger thread does not
wrap, and none is lost to the recycle thread. -/
theorem noLostWakeUp_of_below {e : RemoteEvent} {s : Doorbell}
    (h : (doorbellMachine e).Reach (Below e) s) : NoLostWakeUp s := by
  have hinv : Doorbell.Inv e s := by
    refine Machine.Reach.inv_guarded (fun s hs => ?_) (fun s a hinv hbelow hen => ?_) h
    · exact Doorbell.inv_start hs
    · exact hinv.effect hen hbelow
  intro ⟨hwait, hevent⟩ hne
  have hlive := hinv.live hne
  rw [hwait] at hlive
  rcases hlive with hfire | ⟨-, hring | hbell | hqueued | hset | hdpcs⟩
  · exact .inr (.inr (.inr (by rw [hfire]; decide)))
  · exact .inr (.inr (.inr (by rw [hring]; decide)))
  · exact .inl hbell
  · exact .inr (.inl hqueued)
  · exact Bool.noConfusion (hevent.symm.trans hset)
  · exact .inr (.inr (.inl hdpcs))

/-- VC signals what it has published, and the thread wakes up. -/
def signalRun : List DoorbellAction :=
  [.fire, .ring, .isr, .dpcStart, .dpc .testArmed, .dpc .testFired, .dpc .disarm, .dpc .setEvent,
    .thread]

theorem noLostWakeUp_of_below_message :
    ∃ s, (doorbellMachine .trigger).Reach (Below .trigger) s ∧ s.pieces = [16] ∧
      s.thread = .loop ∧ NoLostWakeUp s :=
  have hall : (doorbellMachine .trigger).AllOk (Below .trigger) (Doorbell.start 0)
      (.thread :: .publish [16] :: signalRun) := by
    simp [Machine.AllOk, signalRun, Below]
    decide
  have h : (doorbellMachine .trigger).Reach (Below .trigger) _ :=
    Machine.Reach.exec (.init rfl) hall rfl
  ⟨_, h, rfl, rfl, noLostWakeUp_of_below h⟩

/-! ## A position that wraps -/

namespace Doorbell

/-- The trigger thread is blocked, and everything is processed. -/
def idle (p : Nat) : Doorbell := { start p with thread := .wait }

theorem reachable_loop {s : Doorbell} (h : (doorbellMachine .trigger).Reachable s)
    (hs : s.thread = .loop) : (doorbellMachine .trigger).Reachable
      { s with thread := if s.position < s.published then .process else .arm } := by
  have hen : s.enabled .trigger .thread :=
    ⟨fun hb => ThreadStep.noConfusion (hs.symm.trans hb.1),
      fun hb => ThreadStep.noConfusion (hs.symm.trans hb)⟩
  refine .step h trivial (Machine.guarded_step.2 ⟨hen, ?_⟩)
  show s.threadStep .trigger = _
  rw [threadStep, hs]
  simp only [RemoteEvent.pending, decide_eq_true_eq]

theorem reachable_process {s : Doorbell} (h : (doorbellMachine .trigger).Reachable s)
    (hs : s.thread = .loop) (hlt : s.position < s.published) :
    (doorbellMachine .trigger).Reachable { s with thread := .process } := by
  have hloop := reachable_loop h hs
  rwa [if_pos hlt] at hloop

theorem reachable_arm {s : Doorbell} (h : (doorbellMachine .trigger).Reachable s)
    (hs : s.thread = .loop) (hle : ¬ s.position < s.published) :
    (doorbellMachine .trigger).Reachable { s with thread := .arm } := by
  have hloop := reachable_loop h hs
  rwa [if_neg hle] at hloop

/-- VC signals, and the thread wakes up. -/
theorem reachable_signal {s : Doorbell} (h : (doorbellMachine .trigger).Reachable
      { s with armed := true, fired := false, event := false, bell := false, queued := false,
               dpcs := [], vc := .fire, thread := .wait }) :
    (doorbellMachine .trigger).Reachable
      { s with armed := false, fired := true, event := false, bell := false, queued := false,
               dpcs := [], vc := .idle, thread := .loop } :=
  Machine.Reach.exec h (Machine.allOk_true _ _ signalRun) rfl

/-- A slot full of data is published and processed. -/
theorem reachable_add {p : Nat} (h : (doorbellMachine .trigger).Reachable (idle p))
    (hp : p + 4096 < ulongSize) : (doorbellMachine .trigger).Reachable (idle (p + 4096)) := by
  have hadd : addPos p 4096 = p + 4096 := Nat.mod_eq_of_lt hp
  have hen : (idle p).enabled .trigger (.publish [4096]) :=
    ⟨VcStep.noConfusion, by decide,
      (by decide : ([] : List Nat).sum + [4096].sum ≤ RemoteEvent.capacity .trigger)⟩
  have hpublish : (doorbellMachine .trigger).Reachable ((idle p).publish [4096]) :=
    .step h trivial (Machine.guarded_step.2 ⟨hen, rfl⟩)
  have hprocess := reachable_process (reachable_signal (s := (idle p).publish [4096]) hpublish) rfl
    (show p < addPos p 4096 by omega)
  have hempty := Machine.Reach.exec hprocess (Machine.allOk_true _ _ [.thread, .thread]) rfl
  have harm := reachable_arm hempty rfl (show ¬ addPos p 4096 < addPos p 4096 by omega)
  have hidle := Machine.Reach.exec harm (Machine.allOk_true _ _ [.thread, .thread]) rfl
  have heq : idle (p + 4096) =
      { idle p with
        position := addPos p 4096, published := addPos p 4096, total := p + 4096 } := by
    rw [hadd]
    rfl
  rw [heq]
  exact hidle

theorem reachable_idle :
    ∀ k, 4096 * k < ulongSize → (doorbellMachine .trigger).Reachable (idle (4096 * k))
  | 0, _ => .step (.init rfl) (a := .thread) trivial rfl
  | k + 1, hk => by
    rw [Nat.mul_succ] at hk ⊢
    exact reachable_add (reachable_idle k (by omega)) hk

end Doorbell

/-- A message of 4088 bytes, and while the thread processes it another one of 8 bytes, which ends at
`2 ^ 32`. -/
def wrapRun : List DoorbellAction :=
  .publish [4088] :: signalRun ++
    [DoorbellAction.thread, .thread, .publish [8], .fire, .ring, .thread, .thread, .thread, .thread]

/-- Where the run ends. -/
def lost : Doorbell :=
  { Doorbell.idle 4294967288 with published := 0, pieces := [8], total := ulongSize }

/-- The thread clears `Fired` and then finds its position above the published one. -/
theorem wakeUp_lost : ∃ s, (doorbellMachine .trigger).Reachable s ∧ ¬ NoLostWakeUp s :=
  have h := Doorbell.reachable_idle 1048575 (by decide)
  have hlost : (doorbellMachine .trigger).Reachable lost :=
    Machine.Reach.exec h (Machine.allOk_true _ _ wrapRun) (by decide +kernel)
  ⟨lost, hlost, fun hno => absurd (hno ⟨rfl, rfl⟩ (by decide)) (by decide)⟩

end RpiDrivers.Vchiq
