import Mathlib.Logic.Function.Iterate
import RpiDrivers.Vchiq.Doorbell

/-!
# When the trigger thread comes to rest (`slots.c`)

`VchiqProcessRxSlot` clears `Fired` after each message that it processes, and nowhere else. A signal
for a message that was processed before leaves the flag set with nothing to process, and the thread
runs its loop over and over.

- `Quiescent`: with nothing to process and no signal under way, the thread blocks after at most
  eight of its own steps.
- `quiescent_of_heeded`: **it does, when VC signals in time**.
- `never_blocks`: a signal that comes late.
-/

namespace RpiDrivers.Vchiq

open RpiDrivers.Lib

namespace Doorbell

/-- Everything that is published is processed, and no signal is under way. -/
def Quiet (s : Doorbell) : Prop :=
  s.position = s.published ∧ s.vc = .idle ∧ s.bell = false ∧ s.queued = false ∧ s.dpcs = []

instance (s : Doorbell) : Decidable s.Quiet := inferInstanceAs (Decidable (_ ∧ _))

/-- The thread blocks within `k` steps of its own. -/
def Settles (k : Nat) (s : Doorbell) : Prop :=
  ∃ n ≤ k, ((threadStep .trigger)^[n] s).Blocked ∧ ((threadStep .trigger)^[n] s).fired = false

end Doorbell

/-- From a quiet state one further run of the thread's body ends in its wait. -/
def Quiescent (s : Doorbell) : Prop :=
  s.Quiet → s.thread ≠ .stopped → s.Settles 8

/-- The condition: VC sets `Fired` while a message is not processed, or while the thread has yet to
clear `Fired` for the last one. -/
def Heeded (s : Doorbell) : DoorbellAction → Prop
  | .fire => s.pieces ≠ [] ∨ s.thread = .reset
  | _ => True

instance : ∀ (s : Doorbell) (a : DoorbellAction), Decidable (Heeded s a)
  | _, .fire => inferInstanceAs (Decidable (_ ∨ _))
  | _, .publish _ | _, .ring | _, .isr | _, .dpcStart | _, .dpc _ | _, .thread | _, .stop =>
    inferInstanceAs (Decidable True)

/-! ## What is signalled is not processed -/

namespace Doorbell

/-- What holds of the flag and the thread in runs whose signals come in time. -/
structure FiredOk (fired : Bool) (thread : ThreadStep) (position published total : Nat)
    (pieces : List Nat) : Prop where
  positions : Positions .trigger position published total pieces
  process : thread = .process → pieces ≠ []
  fired : fired = true → pieces ≠ [] ∨ thread = .reset

namespace FiredOk

variable {s : Doorbell}

/-- Something is left to process when `Fired` is set, once the thread has cleared it. -/
theorem ne_nil (h : FiredOk s.fired s.thread s.position s.published s.total s.pieces)
    (hthread : s.thread ≠ .reset) (hfired : s.fired = true) : s.pieces ≠ [] :=
  (h.fired hfired).resolve_right hthread

theorem publish (h : FiredOk s.fired s.thread s.position s.published s.total s.pieces)
    {pieces : List Nat} (hpieces : ∀ n ∈ pieces, RemoteEvent.trigger.Piece n)
    (hroom : s.pieces.sum + pieces.sum ≤ RemoteEvent.trigger.capacity) :
    FiredOk s.fired s.thread s.position (addPos s.published pieces.sum) (s.total + pieces.sum)
      (s.pieces ++ pieces) where
  positions := h.positions.publish hpieces hroom
  process hthread := List.append_ne_nil_of_left_ne_nil (h.process hthread) _
  fired hfired := (h.fired hfired).imp_left fun hne => List.append_ne_nil_of_left_ne_nil hne _

theorem thread (h : FiredOk s.fired s.thread s.position s.published s.total s.pieces) :
    FiredOk (s.threadStep .trigger).fired (s.threadStep .trigger).thread
      (s.threadStep .trigger).position (s.threadStep .trigger).published
      (s.threadStep .trigger).total (s.threadStep .trigger).pieces := by
  have hne := h.ne_nil
  rw [threadStep]
  cases hthread : s.thread with
  | testFired =>
    rw [hthread] at hne
    refine ⟨h.positions, fun hp => ?_, fun hfired => .inl (hne ThreadStep.noConfusion hfired)⟩
    change (if s.fired = true then ThreadStep.loop else .wait) = .process at hp
    split at hp <;> exact ThreadStep.noConfusion hp
  | wait =>
    rw [hthread] at hne
    cases hevent : s.event with
    | true =>
      exact ⟨h.positions, fun hp => ThreadStep.noConfusion hp,
        fun hfired => .inl (hne ThreadStep.noConfusion hfired)⟩
    | false => exact h
  | loop =>
    rw [hthread] at hne
    refine ⟨h.positions, fun hp => ?_, fun hfired => .inl (hne ThreadStep.noConfusion hfired)⟩
    change (if RemoteEvent.pending .trigger s.position s.published = true then .process
      else ThreadStep.arm) = .process at hp
    split at hp
    · next hmore =>
      have hlt : s.position < s.published := of_decide_eq_true hmore
      exact mt h.positions.eq_iff.2 (Nat.ne_of_lt hlt)
    · exact ThreadStep.noConfusion hp
  | process =>
    exact ⟨h.positions.process (h.process hthread), fun hp => ThreadStep.noConfusion hp,
      fun _ => .inr rfl⟩
  | reset =>
    exact ⟨h.positions, fun hp => ThreadStep.noConfusion hp, fun hf => Bool.noConfusion hf⟩
  | arm =>
    rw [hthread] at hne
    exact ⟨h.positions, fun hp => ThreadStep.noConfusion hp,
      fun hfired => .inl (hne ThreadStep.noConfusion hfired)⟩
  | stopped => exact h

end FiredOk

def Heedful (s : Doorbell) : Prop :=
  FiredOk s.fired s.thread s.position s.published s.total s.pieces

theorem Heedful.effect {s : Doorbell} (h : s.Heedful) {a : DoorbellAction}
    (hen : s.enabled .trigger a) (hheeded : Heeded s a) : (s.effect .trigger a).Heedful := by
  cases a with
  | publish pieces => exact FiredOk.publish h hen.2.1 hen.2.2
  | fire => exact ⟨h.positions, h.process, fun _ => hheeded⟩
  | ring | isr | dpcStart => exact h
  | dpc d => cases d <;> exact h
  | thread => exact FiredOk.thread h
  | stop =>
    have hwait : s.thread = .wait := hen.1
    refine ⟨h.positions, fun hp => ThreadStep.noConfusion hp, fun hfired => .inl ?_⟩
    exact FiredOk.ne_nil (s := s) h (by rw [hwait]; decide) hfired

/-! ## Coming to rest -/

theorem settles_of_blocked {s : Doorbell} (hblocked : s.Blocked) (hfired : s.fired = false) :
    s.Settles 0 :=
  ⟨0, Nat.le_refl _, hblocked, hfired⟩

theorem settles_step {k : Nat} {s : Doorbell} (h : (s.threadStep .trigger).Settles k) :
    s.Settles (k + 1) := by
  obtain ⟨n, hn, hsettled⟩ := h
  exact ⟨n + 1, Nat.succ_le_succ hn, hsettled⟩

theorem Settles.mono {k l : Nat} {s : Doorbell} (h : s.Settles k) (hkl : k ≤ l) : s.Settles l := by
  obtain ⟨n, hn, hsettled⟩ := h
  exact ⟨n, Nat.le_trans hn hkl, hsettled⟩

/-- A state with other flags. -/
def withFlags (s : Doorbell) (armed fired event : Bool) (thread : ThreadStep) : Doorbell :=
  { s with armed := armed, fired := fired, event := event, thread := thread }

section Settling

variable {s : Doorbell}

/-- From the head of the loop, when the thread comes to rest from its test of `Fired`. -/
theorem settles_loop (heq : s.position = s.published) {armed event : Bool} {k : Nat}
    (h : ∀ armed, (s.withFlags armed false event .testFired).Settles k) :
    (s.withFlags armed false event .loop).Settles (k + 2) := by
  refine settles_step ?_
  have hend : (s.withFlags armed false event .loop).threadStep .trigger =
      s.withFlags armed false event .arm := by
    show s.withFlags armed false event
      (if RemoteEvent.pending .trigger s.position s.published then .process else .arm) = _
    rw [heq, RemoteEvent.pending, decide_eq_false (Nat.lt_irrefl _)]
    rfl
  rw [hend]
  exact settles_step (h true)

theorem settles_clear (armed : Bool) : (s.withFlags armed false false .testFired).Settles 1 :=
  settles_step (settles_of_blocked ⟨rfl, rfl⟩ rfl)

/-- An event that is set lets the thread run once more. -/
theorem settles_testFired (heq : s.position = s.published) (armed event : Bool) :
    (s.withFlags armed false event .testFired).Settles 5 := by
  cases event with
  | false => exact (settles_clear armed).mono (by decide)
  | true => exact settles_step (settles_step (settles_loop heq settles_clear))

theorem settles (heq : s.position = s.published) {armed fired event : Bool} {thread : ThreadStep}
    (hfired : fired = true → thread = .reset) (hprocess : thread ≠ .process)
    (hstopped : thread ≠ .stopped) : (s.withFlags armed fired event thread).Settles 8 := by
  by_cases hreset : thread = .reset
  · rw [hreset]
    exact settles_step (settles_loop heq fun armed => settles_testFired heq armed event)
  · obtain rfl : fired = false := Bool.eq_false_iff.2 fun hf => hreset (hfired hf)
    cases thread with
    | testFired => exact (settles_testFired heq armed event).mono (by decide)
    | wait =>
      cases event with
      | false => exact (settles_of_blocked ⟨rfl, rfl⟩ rfl).mono (by decide)
      | true => exact (settles_step (settles_loop heq settles_clear)).mono (by decide)
    | loop =>
      exact (settles_loop heq fun armed => settles_testFired heq armed event).mono (by decide)
    | arm => exact (settles_step (settles_testFired heq true event)).mono (by decide)
    | process => exact absurd rfl hprocess
    | reset => exact absurd rfl hreset
    | stopped => exact absurd rfl hstopped

end Settling

end Doorbell

/-- **The thread comes to rest** when VC signals in time. -/
theorem quiescent_of_heeded {s : Doorbell} (h : (doorbellMachine .trigger).Reach Heeded s) :
    Quiescent s := by
  have hinv : s.Heedful := by
    refine Machine.Reach.inv_guarded (fun s hs => ?_) (fun s a hinv hheeded hen => ?_) h
    · have hs : s = Doorbell.start 0 := hs
      rw [hs]
      exact ⟨(Doorbell.inv_start (e := .trigger) rfl).positions, fun hp => ThreadStep.noConfusion hp,
        fun hf => Bool.noConfusion hf⟩
    · exact hinv.effect hen hheeded
  intro hquiet hstopped
  have hempty := hinv.positions.eq_iff.1 hquiet.1
  exact Doorbell.settles (s := s) hquiet.1
    (fun hfired => (hinv.fired hfired).resolve_left fun hne => hne hempty)
    (fun hp => hinv.process hp hempty) hstopped

/-- A message is published, signalled, processed and waited for. -/
def heededRun : List DoorbellAction :=
  .thread :: .publish [16] :: signalRun ++ List.replicate 6 .thread

theorem quiescent_of_heeded_message :
    ∃ s, (doorbellMachine .trigger).Reach Heeded s ∧ s.position = 16 ∧ s.Settles 8 :=
  have h := (doorbellMachine .trigger).reach_execOk_get Heeded (s := Doorbell.start 0) heededRun rfl
    (by decide)
  ⟨_, h, rfl, quiescent_of_heeded h (by decide) (by decide)⟩

/-! ## A late signal -/

namespace Doorbell

/-- The thread goes round with nothing to process. -/
def Spinning (s : Doorbell) : Prop :=
  s.fired = true ∧ s.position = s.published ∧
    (s.thread = .testFired ∨ s.thread = .loop ∨ s.thread = .arm)

theorem Spinning.step {s : Doorbell} (h : s.Spinning) : (s.threadStep .trigger).Spinning := by
  obtain ⟨hfired, heq, hthread | hthread | hthread⟩ := h
  · rw [threadStep, hthread]
    exact ⟨hfired, heq, .inr (.inl (if_pos hfired))⟩
  · rw [threadStep, hthread]
    refine ⟨hfired, heq, .inr (.inr (if_neg ?_))⟩
    rw [heq, RemoteEvent.pending, decide_eq_true_eq]
    exact Nat.lt_irrefl _
  · rw [threadStep, hthread]
    exact ⟨hfired, heq, .inl rfl⟩

theorem Spinning.iterate {s : Doorbell} (h : s.Spinning) :
    ∀ n, ((threadStep .trigger)^[n] s).Spinning
  | 0 => h
  | n + 1 => h.step.iterate n

theorem Spinning.not_blocked {s : Doorbell} (h : s.Spinning) : ¬ s.Blocked := fun hb => by
  obtain ⟨-, -, hthread | hthread | hthread⟩ := h
  all_goals exact ThreadStep.noConfusion (hthread.symm.trans hb.1)

end Doorbell

/-- A message is published while the thread is in its loop, and signalled when it has left it. -/
def lateRun : List DoorbellAction :=
  [DoorbellAction.publish [16], .fire, .thread, .ring, .publish [16]] ++ List.replicate 7 .thread ++
  [DoorbellAction.fire, .ring, .isr, .dpcStart, .dpc .testArmed, .dpc .testFired, .dpc .disarm,
    .dpc .setEvent]

/-- The thread never blocks again. -/
theorem never_blocks : ∃ s, (doorbellMachine .trigger).Reachable s ∧ s.Quiet ∧ ¬ Quiescent s ∧
    ∀ n, ¬ ((Doorbell.threadStep .trigger)^[n] s).Blocked :=
  have h := (doorbellMachine .trigger).reach_exec_get lateRun (s := Doorbell.start 0) rfl (by decide)
  have hspin : Doorbell.Spinning (((doorbellMachine .trigger).exec (.start 0) lateRun).get _) :=
    ⟨rfl, rfl, .inr (.inr rfl)⟩
  ⟨_, h, by decide, fun hq => by
    obtain ⟨n, -, hblocked, -⟩ := hq (by decide) (by decide)
    exact (hspin.iterate n).not_blocked hblocked, fun n => (hspin.iterate n).not_blocked⟩

end RpiDrivers.Vchiq
