import Mathlib.Algebra.Ring.Int.Defs
import Mathlib.Algebra.Ring.Nat
import Mathlib.Tactic.SplitIfs
import RpiDrivers.Lib.Machine

/-!
# The interval timer of the mini UART's reads (`read.c`)

A read that has at least one character ends when no other one comes for the interval that the
application has set. The driver has no timer for that. Its timer fires again and again, and its
DPC looks whether the ISR has put characters into the buffer of the read.

- `machine`: the ISR, the clock and the other ends of a read between any two steps of the DPC.
- `interval_not_early`: **the DPC ends a read only when no character came for the interval** before
  it looked, as long as nobody sets the system time.
- `interval_not_late`: **it does so within two periods of the timer after the interval**, and four
  times what the DPC takes to set the timer again.
-/

namespace RpiDrivers.MiniUart.ReadInterval

open RpiDrivers.Lib

/-! ## The device extension -/

/-- `CutOverAmount`: 20 seconds, in units of 100 ns -/
def cutOverAmount : Nat := 200000000

/-- `IntervalTimeToUse`: `ShortIntervalAmount` or `LongIntervalAmount` -/
def intervalTimeToUse (intervalTime : Nat) : Nat :=
  if cutOverAmount ≤ intervalTime then 10000000 else 1

def serialCompleteReadCancel : Int := -1
def serialCompleteReadTotal : Int := -2
def serialCompleteReadComplete : Int := -3

/-- A `ULONG` as a `LONG`. -/
def toLong (n : Nat) : Int :=
  if n % 2 ^ 32 < 2 ^ 31 then (n % 2 ^ 32 : Nat) else (n % 2 ^ 32 : Nat) - 2 ^ 32

/-- Where the timer is. -/
inductive Phase
  | armed
  /-- the DPC has found new characters -/
  | update
  /-- they are counted; `LastReadTime` is about to be set, as it is when a read starts -/
  | updated
  /-- the DPC has found characters, and no new ones -/
  | check
  /-- the interval has gone by, and the read is about to be completed -/
  | expired
  /-- the timer is about to be set -/
  | resubmit
  /-- it has tried to complete the read -/
  | off
  deriving DecidableEq

/-- How a read ends: by the interval timer at a time, with the time of the last character before
the DPC looked, or by the ISR, or by the total timer or a cancellation. -/
inductive Ending
  | interval (time last : Nat)
  | filled
  | other
  deriving DecidableEq

/-- The device extension, while the ISR has the buffer of a read. `lastChar` is when the last
character came, or when the read started: those that were buffered before count from then on. -/
structure State where
  now : Nat
  /-- what the system time is ahead of `now` -/
  offset : Int
  intervalTime : Nat
  countOnLastRead : Int
  readByIsr : Nat
  lastReadTime : Int
  phase : Phase
  /-- when the timer is due, or was due for the DPC -/
  due : Nat
  /-- how many characters fit -/
  room : Nat
  got : Nat
  lastChar : Nat
  lastAtTest : Nat
  ended : Option Ending

namespace State

variable (s : State)

/-- `KeQuerySystemTime` -/
def keQuerySystemTime : Int := s.now + s.offset

/-- `SerialSetTimer` -/
def serialSetTimer : State :=
  { s with phase := .armed, due := s.now + intervalTimeToUse s.intervalTime }

/-- `SerialPutChar`, into the buffer of the read -/
def serialPutChar : State :=
  { s with
    readByIsr := s.readByIsr + 1
    room := s.room - 1
    got := s.got + 1
    lastChar := s.now
    ended := if s.room = 1 then some .filled else none }

/-- `SerialCompleteRead`, `SerialReadTimeout` and `SerialCancelCurrentRead`, with their mark -/
def complete (mark : Int) : State :=
  { s with countOnLastRead := mark, ended := s.ended <|> some .other }

/-- `SerialIntervalReadTimeout`, up to where it looks for characters -/
def serialIntervalReadTimeout : State :=
  let s := { s with lastAtTest := s.lastChar }
  if s.countOnLastRead = serialCompleteReadTotal ∨ s.countOnLastRead = serialCompleteReadComplete ∨
      s.countOnLastRead = serialCompleteReadCancel then { s with phase := .off }
  else if s.countOnLastRead ≠ 0 ∨ s.readByIsr ≠ 0 then
    { s with phase := if s.readByIsr ≠ 0 then .update else .check }
  else { s with phase := .resubmit }

/-- `SerialUpdateReadByIsr` -/
def serialUpdateReadByIsr : State :=
  { s with countOnLastRead := toLong s.readByIsr, readByIsr := 0, phase := .updated }

/-- The read is ended, unless it has ended already. -/
def timeOut : State :=
  { s with phase := .off, ended := s.ended <|> some (.interval s.now s.lastAtTest) }

/-- The next step of the DPC. Time may go by between the query of the system time and what comes
after it. -/
def goOn : State :=
  match s.phase with
  | .update => s.serialUpdateReadByIsr
  | .updated => { s with lastReadTime := s.keQuerySystemTime, phase := .resubmit }
  | .check =>
    { s with phase :=
        if s.intervalTime ≤ s.keQuerySystemTime - s.lastReadTime then .expired else .resubmit }
  | .expired => s.timeOut
  | .resubmit => s.serialSetTimer
  | .armed | .off => s

end State

/-! ## Runs -/

inductive Action
  | tick (time : Nat)
  | setSystemTime (change : Int)
  /-- `SerialPutChar` -/
  | char
  | complete (mark : Int)
  | expire
  | goOn

/-- The callbacks are serialized, and the ISR has the buffer until the read ends. -/
def enabled (s : State) : Action → Bool
  | .tick _ | .setSystemTime _ => true
  | .char => s.ended = none
  | .complete mark => s.phase = .armed ∧ (mark = serialCompleteReadTotal ∨
      mark = serialCompleteReadCancel ∨ mark = serialCompleteReadComplete ∧ s.ended ≠ none)
  | .expire => s.phase = .armed ∧ s.due ≤ s.now
  | .goOn => s.phase ≠ .armed ∧ s.phase ≠ .off

def effect (s : State) : Action → State
  | .tick time => { s with now := s.now + time }
  | .setSystemTime change => { s with offset := s.offset + change }
  | .char => s.serialPutChar
  | .complete mark => s.complete mark
  | .expire => s.serialIntervalReadTimeout
  | .goOn => s.goOn

/-- `SerialStartRead`: the ISR has got the buffer of a read with some characters. -/
def started (now : Nat) (offset lastReadTime : Int) (readIntervalTimeout length information : Nat) :
    State where
  now := now
  offset := offset
  intervalTime := readIntervalTimeout * 10000
  countOnLastRead := toLong information
  readByIsr := 0
  lastReadTime := lastReadTime
  phase := .updated
  due := now
  room := length - information
  got := information
  lastChar := now
  lastAtTest := now
  ended := none

/-- A read of less than 2 GB, with an interval. -/
def Starts (s : State) : Prop :=
  ∃ now offset lastReadTime readIntervalTimeout length information,
    0 < readIntervalTimeout ∧ readIntervalTimeout < 2 ^ 32 - 1 ∧ information < length ∧
      length < 2 ^ 31 ∧ s = started now offset lastReadTime readIntervalTimeout length information

def machine : Machine State Action := .guarded Starts (fun s a => enabled s a) effect

/-- Nobody sets the system time. -/
def Steady (_ : State) : Action → Prop
  | .setSystemTime _ => False
  | _ => True

/-- And the DPC has set the timer again, or ended the read, at most `delay` after the timer is due.
So has the start of the read, after the ISR has got the buffer. -/
def Prompt (delay : Nat) (s : State) : Action → Prop
  | .setSystemTime _ => False
  | .tick time => s.ended = none → s.now + time ≤ s.due + delay
  | _ => True

instance (s : State) : DecidablePred (Steady s)
  | .setSystemTime _ => inferInstanceAs (Decidable False)
  | .tick _ | .char | .complete _ | .expire | .goOn => inferInstanceAs (Decidable True)

instance (delay : Nat) (s : State) : DecidablePred (Prompt delay s)
  | .setSystemTime _ => inferInstanceAs (Decidable False)
  | .tick time => inferInstanceAs (Decidable (s.ended = none → s.now + time ≤ s.due + delay))
  | .char | .complete _ | .expire | .goOn => inferInstanceAs (Decidable True)

/-- What the counts tell while a read waits, and what `LastReadTime` does. -/
structure Waiting (s : State) : Prop where
  count : 0 ≤ s.countOnLastRead
  room : 0 < s.room
  fits : s.readByIsr + s.room < 2 ^ 31
  got : s.got = 0 ↔ s.countOnLastRead = 0 ∧ s.readByIsr = 0
  off : s.phase ≠ .off
  update : s.phase = .update → 0 < s.readByIsr
  check : s.phase = .check → 0 < s.countOnLastRead ∧ s.lastAtTest + s.offset ≤ s.lastReadTime
  expired : s.phase = .expired → 0 < s.countOnLastRead ∧ s.lastAtTest + s.intervalTime ≤ s.now
  seen : s.phase ≠ .updated → s.readByIsr = 0 → s.lastChar + s.offset ≤ s.lastReadTime
  now : s.lastChar ≤ s.now

/-- A read that the interval timer ended had characters, and the last one that the DPC could see was
old enough. -/
structure Inv (s : State) : Prop where
  waiting : s.ended = none → Waiting s
  ended : ∀ time last, s.ended = some (.interval time last) →
    0 < s.got ∧ last + s.intervalTime ≤ time

theorem toLong_eq {n : Nat} (h : n < 2 ^ 31) : toLong n = n := by
  have hlt : n % 2 ^ 32 = n := Nat.mod_eq_of_lt (by omega)
  rw [toLong, hlt, if_pos h]

theorem inv_started {s : State} (h : Starts s) : Inv s := by
  obtain ⟨now, offset, lastReadTime, interval, length, information, -, -, hlt, hlength, rfl⟩ := h
  have hcount := toLong_eq (Nat.lt_trans hlt hlength)
  refine ⟨fun _ => ⟨?_, ?_, ?_, ?_, ?_, ?_, ?_, ?_, ?_, Nat.le_refl _⟩, ?_⟩
  all_goals
    simp only [started, hcount]
    first | omega | simp

section Steps

variable {s : State}

theorem Inv.char (h : Inv s) (hen : s.ended = none) : Inv s.serialPutChar := by
  have hw := h.waiting hen
  have hpos := hw.room
  have hfits := hw.fits
  constructor
  · intro hended
    have hroom : s.room ≠ 1 := by
      intro hone
      rw [State.serialPutChar, if_pos hone] at hended
      cases hended
    exact { hw with
      room := by show 0 < s.room - 1; omega
      fits := by show s.readByIsr + 1 + (s.room - 1) < 2 ^ 31; omega
      got := by simp [State.serialPutChar]
      update := fun _ => Nat.succ_pos _
      seen := fun _ hzero => absurd hzero (Nat.succ_ne_zero _)
      now := Nat.le_refl _ }
  · intro time last hended
    rw [State.serialPutChar] at hended
    split_ifs at hended
    cases hended

/-- A mark of another end leaves the end of the interval timer, if there is one. -/
theorem Inv.complete (h : Inv s) (mark : Int) : Inv (s.complete mark) := by
  cases hs : s.ended with
  | none =>
    refine ⟨fun hended => ?_, fun time last hended => ?_⟩
    all_goals
      rw [State.complete, hs] at hended
      cases hended
  | some e =>
    refine ⟨fun hended => ?_, fun time last hended => h.ended time last ?_⟩
    · rw [State.complete, hs] at hended
      cases hended
    · rw [State.complete, hs] at hended
      rw [hs]
      exact hended

/-- **What the DPC finds.** -/
inductive Finds (s : State) : State → Prop
  | mark (h : s.countOnLastRead < 0) : Finds s { s with lastAtTest := s.lastChar, phase := .off }
  | new (h : s.readByIsr ≠ 0) : Finds s { s with lastAtTest := s.lastChar, phase := .update }
  | old (h : s.countOnLastRead ≠ 0) (hnew : s.readByIsr = 0) :
      Finds s { s with lastAtTest := s.lastChar, phase := .check }
  | none (h : s.countOnLastRead = 0) (hnew : s.readByIsr = 0) :
      Finds s { s with lastAtTest := s.lastChar, phase := .resubmit }

theorem finds_serialIntervalReadTimeout (s : State) : Finds s s.serialIntervalReadTimeout := by
  simp only [State.serialIntervalReadTimeout]
  split_ifs with hmark hsome hnew
  · refine .mark ?_
    rcases hmark with h | h | h <;> rw [h] <;> decide
  · exact .new hnew
  · exact .old (hsome.resolve_right hnew) (not_not.1 hnew)
  · exact .none (not_not.1 (not_or.1 hsome).1) (not_not.1 (not_or.1 hsome).2)

theorem Finds.ended {s' : State} (h : Finds s s') : s'.ended = s.ended := by
  cases h <;> rfl

/-- The DPC looks: when there are no new characters, `LastReadTime` is after the last one. -/
theorem Inv.expire (h : Inv s) (hphase : s.phase = .armed) :
    Inv s.serialIntervalReadTimeout := by
  have hseen : s.ended = none → s.readByIsr = 0 → s.lastChar + s.offset ≤ s.lastReadTime :=
    fun hs => (h.waiting hs).seen (by rw [hphase]; decide)
  generalize hs' : s.serialIntervalReadTimeout = s'
  have hfinds := hs' ▸ finds_serialIntervalReadTimeout s
  refine ⟨fun hended => ?_, ?_⟩
  · have hs : s.ended = none := hfinds.ended ▸ hended
    have hw := h.waiting hs
    cases hfinds with
    | mark hmark => exact absurd hmark (Int.not_lt.2 hw.count)
    | new hnew =>
      exact { hw with
        off := fun hc => by cases hc
        update := fun _ => Nat.pos_of_ne_zero hnew
        check := fun hc => by cases hc
        expired := fun hc => by cases hc
        seen := fun _ => hseen hs }
    | old hsome hnew =>
      exact { hw with
        off := fun hc => by cases hc
        update := fun hc => by cases hc
        check := fun _ => ⟨by have hcount := hw.count; show 0 < s.countOnLastRead; omega,
          hseen hs hnew⟩
        expired := fun hc => by cases hc
        seen := fun _ => hseen hs }
    | none hcount hnew =>
      exact { hw with
        off := fun hc => by cases hc
        update := fun hc => by cases hc
        check := fun hc => by cases hc
        expired := fun hc => by cases hc
        seen := fun _ => hseen hs }
  · cases hfinds <;> exact h.ended

/-- The DPC goes on to set the timer, or has set it, when `LastReadTime` is after the last character
that was seen. -/
theorem Inv.turn (h : Inv s) {phase : Phase} (hphase : phase = .resubmit ∨ phase = .armed)
    {lastReadTime : Int} (due : Nat)
    (hseen : s.ended = none → s.readByIsr = 0 → s.lastChar + s.offset ≤ lastReadTime) :
    Inv { s with phase := phase, lastReadTime := lastReadTime, due := due } := by
  refine ⟨fun hs => ?_, h.ended⟩
  have hw := h.waiting hs
  rcases hphase with rfl | rfl
  all_goals
    exact { hw with
      off := fun hc => by cases hc
      update := fun hc => by cases hc
      check := fun hc => by cases hc
      expired := fun hc => by cases hc
      seen := fun _ => hseen hs }

/-- The read is ended, when the last character that the DPC could see is old enough. -/
theorem Inv.timeOut (h : Inv s) (hphase : s.phase = .expired) : Inv s.timeOut := by
  refine ⟨fun hended => ?_, fun time last hended => ?_⟩
  · cases hs : s.ended <;> rw [State.timeOut, hs] at hended <;> cases hended
  · cases hs : s.ended with
    | some e =>
      rw [State.timeOut, hs] at hended
      exact h.ended time last (hs.trans hended)
    | none =>
      rw [State.timeOut, hs] at hended
      obtain ⟨rfl, rfl⟩ := Ending.interval.inj (Option.some.inj hended)
      obtain ⟨hcount, hold⟩ := (h.waiting hs).expired hphase
      have hgot := (h.waiting hs).got
      exact ⟨by show 0 < s.got; omega, hold⟩

/-- The rest of the DPC: the read is ended when the system time is an interval after
`LastReadTime`. -/
theorem Inv.goOn (h : Inv s) : Inv s.goOn := by
  rw [State.goOn]
  cases hphase : s.phase with
  | armed => exact h
  | off => exact h
  | update =>
    refine ⟨fun hs => ?_, h.ended⟩
    have hw := h.waiting hs
    have hfits := hw.fits
    have hpos := hw.update hphase
    have hgot := hw.got
    have hcount := toLong_eq (n := s.readByIsr) (by omega)
    exact { hw with
      count := by show 0 ≤ toLong s.readByIsr; omega
      fits := by show 0 + s.room < 2 ^ 31; omega
      got := by show s.got = 0 ↔ toLong s.readByIsr = 0 ∧ 0 = 0; omega
      off := fun hc => by cases hc
      update := fun hc => by cases hc
      check := fun hc => by cases hc
      expired := fun hc => by cases hc
      seen := fun hc => absurd rfl hc }
  | updated =>
    refine h.turn (.inl rfl) s.due fun hs _ => ?_
    have hnow := (h.waiting hs).now
    rw [State.keQuerySystemTime]
    omega
  | check =>
    have hseen := fun hs => (h.waiting hs).seen (by rw [hphase]; decide)
    dsimp only
    split_ifs with hold
    · refine ⟨fun hs => ?_, h.ended⟩
      have hw := h.waiting hs
      obtain ⟨hcount, hlast⟩ := hw.check hphase
      rw [State.keQuerySystemTime] at hold
      exact { hw with
        off := fun hc => by cases hc
        update := fun hc => by cases hc
        check := fun hc => by cases hc
        expired := fun _ => ⟨hcount, by show s.lastAtTest + s.intervalTime ≤ s.now; omega⟩
        seen := fun _ => hseen hs }
    · exact h.turn (.inl rfl) s.due hseen
  | expired => exact h.timeOut hphase
  | resubmit =>
    exact h.turn (.inr rfl) _ fun hs => (h.waiting hs).seen (by rw [hphase]; decide)

end Steps

theorem Inv.effect {s : State} (h : Inv s) {a : Action} (hok : Steady s a) (hen : enabled s a) :
    Inv (effect s a) := by
  cases a with
  | tick time =>
    refine ⟨fun hs => ?_, h.ended⟩
    have hw := h.waiting hs
    exact { hw with
      expired := fun hphase => (hw.expired hphase).imp_right Nat.le_add_right_of_le
      now := Nat.le_add_right_of_le hw.now }
  | setSystemTime change => exact hok.elim
  | char => exact h.char (of_decide_eq_true hen)
  | complete mark => exact h.complete mark
  | expire => exact h.expire (of_decide_eq_true hen).1
  | goOn => exact h.goOn

theorem inv_of_reach {s : State} (h : machine.Reach Steady s) : Inv s :=
  h.inv_guarded (P := Inv) (fun _ => inv_started) fun _ _ hi ha hen => hi.effect ha hen

/-- The times of the timer and of its DPC, while a read waits. -/
structure InTime (delay : Nat) (s : State) : Prop where
  now : s.now ≤ s.due + delay
  dpc : s.phase ≠ .armed → s.due ≤ s.now
  armed : s.phase = .armed → s.due ≤ s.now + intervalTimeToUse s.intervalTime
  new : 0 < s.readByIsr → s.due ≤ s.lastChar + intervalTimeToUse s.intervalTime + delay
  /-- what comes while the DPC runs -/
  window : s.phase ≠ .armed → s.phase ≠ .update → 0 < s.readByIsr → s.due ≤ s.lastChar
  updated : s.phase = .updated → s.due ≤ s.lastChar + intervalTimeToUse s.intervalTime + delay
  read : s.phase ≠ .updated → s.readByIsr = 0 → 0 < s.countOnLastRead →
    s.lastReadTime ≤ s.lastChar + s.offset + intervalTimeToUse s.intervalTime + 2 * delay
  /-- the DPC that is about to set the timer was due within the interval -/
  resubmit : s.phase = .resubmit → s.readByIsr = 0 → 0 < s.countOnLastRead →
    s.due + s.offset ≤ s.lastReadTime + s.intervalTime
  /-- so it has set the timer at most a delay after the interval -/
  old : s.phase ≠ .updated → s.readByIsr = 0 → 0 < s.countOnLastRead →
    s.due + s.offset ≤
      s.lastReadTime + s.intervalTime + intervalTimeToUse s.intervalTime + delay

section InTime

variable {s : State} {delay : Nat}

theorem InTime.char (h : InTime delay s) : InTime delay s.serialPutChar := by
  have hdue : s.due ≤ s.now + intervalTimeToUse s.intervalTime := by
    by_cases hphase : s.phase = .armed
    · exact h.armed hphase
    · exact Nat.le_add_right_of_le (h.dpc hphase)
  exact { h with
    new := fun _ => Nat.le_add_right_of_le hdue
    window := fun hphase _ _ => h.dpc hphase
    updated := fun _ => Nat.le_add_right_of_le hdue
    read := fun _ hzero => absurd hzero (Nat.succ_ne_zero _)
    resubmit := fun _ hzero => absurd hzero (Nat.succ_ne_zero _)
    old := fun _ hzero => absurd hzero (Nat.succ_ne_zero _) }

theorem InTime.tick (h : InTime delay s) {time : Nat} (hprompt : s.now + time ≤ s.due + delay) :
    InTime delay { s with now := s.now + time } :=
  { h with
    now := hprompt
    dpc := fun hphase => Nat.le_add_right_of_le (h.dpc hphase)
    armed := fun hphase => by
      have hdue := h.armed hphase
      show s.due ≤ s.now + time + intervalTimeToUse s.intervalTime
      omega }

theorem InTime.expire (h : InTime delay s) (hw : Waiting s) (hphase : s.phase = .armed)
    (hdue : s.due ≤ s.now) : InTime delay s.serialIntervalReadTimeout := by
  have hturn {phase : Phase} (harmed : phase ≠ .armed) (hupdated : phase ≠ .updated)
      (hnew : phase ≠ .update → s.readByIsr = 0)
      (hcount : phase = .resubmit → s.countOnLastRead = 0) :
      InTime delay { s with lastAtTest := s.lastChar, phase := phase } :=
    { h with
      dpc := fun _ => hdue
      armed := fun hc => absurd hc harmed
      window := fun _ hc hpos => absurd (hnew hc) (Nat.ne_of_gt hpos)
      updated := fun hc => absurd hc hupdated
      read := fun _ => h.read (by rw [hphase]; decide)
      resubmit := fun hc _ hpos => absurd (hcount hc) (Int.ne_of_gt hpos)
      old := fun _ => h.old (by rw [hphase]; decide) }
  generalize hs' : s.serialIntervalReadTimeout = s'
  cases hs' ▸ finds_serialIntervalReadTimeout s with
  | mark hmark => exact absurd hmark (Int.not_lt.2 hw.count)
  | new hnew => exact hturn (by decide) (by decide) (absurd rfl) (fun hc => by cases hc)
  | old hsome hnew => exact hturn (by decide) (by decide) (fun _ => hnew) (fun hc => by cases hc)
  | none hcount hnew => exact hturn (by decide) (by decide) (fun _ => hnew) (fun _ => hcount)

/-- The DPC goes on, after it has looked and counted the new characters. -/
theorem InTime.turn (h : InTime delay s) (harmed : s.phase ≠ .armed) (hupdate : s.phase ≠ .update)
    {phase : Phase} (hphase : phase = .resubmit ∨ phase = .expired) {lastReadTime : Int}
    (hread : s.readByIsr = 0 → 0 < s.countOnLastRead →
      lastReadTime ≤ s.lastChar + s.offset + intervalTimeToUse s.intervalTime + 2 * delay)
    (hresubmit : phase = .resubmit → s.readByIsr = 0 → 0 < s.countOnLastRead →
      s.due + s.offset ≤ lastReadTime + s.intervalTime)
    (hold : s.readByIsr = 0 → 0 < s.countOnLastRead →
      s.due + s.offset ≤
        lastReadTime + s.intervalTime + intervalTimeToUse s.intervalTime + delay) :
    InTime delay { s with phase := phase, lastReadTime := lastReadTime } :=
  { h with
    dpc := fun _ => h.dpc harmed
    armed := fun hc => by rcases hphase with rfl | rfl <;> cases hc
    window := fun _ _ => h.window harmed hupdate
    updated := fun hc => by rcases hphase with rfl | rfl <;> cases hc
    read := fun _ => hread
    resubmit := hresubmit
    old := fun _ => hold }

/-- The timer is armed again. What came after the DPC had looked is not older than its `due`. -/
theorem InTime.serialSetTimer (h : InTime delay s) (hphase : s.phase = .resubmit) :
    InTime delay s.serialSetTimer where
  now := by
    show s.now ≤ s.now + intervalTimeToUse s.intervalTime + delay
    omega
  dpc := fun hc => absurd rfl hc
  armed := fun _ => Nat.le_refl _
  new := fun hpos => by
    have hnow := h.now
    have hwindow := h.window (by rw [hphase]; decide) (by rw [hphase]; decide)
      (show 0 < s.readByIsr from hpos)
    show s.now + intervalTimeToUse s.intervalTime ≤
      s.lastChar + intervalTimeToUse s.intervalTime + delay
    omega
  window := fun hc => absurd rfl hc
  updated := fun hc => by cases hc
  read := fun _ => h.read (by rw [hphase]; decide)
  resubmit := fun hc => by cases hc
  old := fun _ hzero hcount => by
    have hnow := h.now
    have hle := h.resubmit hphase hzero hcount
    show ((s.now + intervalTimeToUse s.intervalTime : Nat) : Int) + s.offset ≤
      s.lastReadTime + s.intervalTime + intervalTimeToUse s.intervalTime + delay
    omega

/-- The rest of the DPC, unless it ends the read. -/
theorem InTime.goOn (h : InTime delay s) (hw : Waiting s) (hended : s.goOn.ended = none) :
    InTime delay s.goOn := by
  have hnow := h.now
  rw [State.goOn] at hended ⊢
  cases hphase : s.phase with
  | armed => exact h
  | off => exact absurd hphase hw.off
  | update =>
    have hdue := h.new (hw.update hphase)
    exact { h with
      dpc := fun _ => h.dpc (by rw [hphase]; decide)
      armed := fun hc => by cases hc
      new := fun hc => absurd hc (Nat.lt_irrefl 0)
      window := fun _ _ hc => absurd hc (Nat.lt_irrefl 0)
      updated := fun _ => hdue
      read := fun hc => absurd rfl hc
      resubmit := fun hc => by cases hc
      old := fun hc => absurd rfl hc }
  | updated =>
    have hdue := h.updated hphase
    have hpast := h.dpc (by rw [hphase]; decide)
    refine h.turn (by rw [hphase]; decide) (by rw [hphase]; decide) (.inl rfl) (fun _ _ => ?_)
      (fun _ _ _ => ?_) fun _ _ => ?_
    all_goals
      rw [State.keQuerySystemTime]
      omega
  | check =>
    have hpast := h.dpc (by rw [hphase]; decide)
    refine h.turn (by rw [hphase]; decide) (by rw [hphase]; decide) ?_
      (h.read (by rw [hphase]; decide)) (fun hresubmit _ _ => ?_) (h.old (by rw [hphase]; decide))
    · split_ifs
      · exact .inr rfl
      · exact .inl rfl
    · split_ifs at hresubmit with hold
      rw [State.keQuerySystemTime] at hold
      omega
  | expired =>
    simp only [hphase] at hended
    cases hs : s.ended <;> rw [State.timeOut, hs] at hended <;> cases hended
  | resubmit => exact h.serialSetTimer hphase

theorem ended_goOn {e : Ending} (h : s.ended = some e) : s.goOn.ended = some e := by
  rw [State.goOn]
  cases s.phase with
  | expired =>
    dsimp only
    rw [State.timeOut, h]
    rfl
  | _ => exact h

/-- While a read waits, its timer is in time. -/
theorem InTime.effect (h : s.ended = none → InTime delay s) (hw : s.ended = none → Waiting s)
    {a : Action} (hok : Prompt delay s a) (hen : enabled s a)
    (hended : (effect s a).ended = none) : InTime delay (effect s a) := by
  cases a with
  | tick time => exact (h hended).tick (hok hended)
  | setSystemTime change => exact hok.elim
  | char => exact (h (of_decide_eq_true hen)).char
  | complete mark =>
    cases hs : s.ended <;> rw [ReadInterval.effect, State.complete, hs] at hended <;> cases hended
  | expire =>
    obtain ⟨hphase, hdue⟩ := of_decide_eq_true hen
    have hs : s.ended = none := (finds_serialIntervalReadTimeout s).ended ▸ hended
    exact (h hs).expire (hw hs) hphase hdue
  | goOn =>
    cases hs : s.ended with
    | none => exact (h hs).goOn (hw hs) hended
    | some e => cases (ended_goOn hs).symm.trans hended

end InTime

end RpiDrivers.MiniUart.ReadInterval
