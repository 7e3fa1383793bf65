import RpiDrivers.MiniUart.WriteQueue

/-!
# `TotalCharsQueued`

- `Listed`, `Counted`: the requests in the places of the driver are those that are charged, and the
  count is their sum. Both are about a list, since a request leaves its place, the count and the tab
  one after the other.
- `Line`: how much of the current write has been sent, and who is going to complete it.
- `Inv`: the invariant; `Inv.start` .. `Inv.advance` are its step lemmas.
- `reach_counted`: **in runs that meet the condition the count is right**, and so is what
  `GET_COMMSTATUS` reports.
- `masquerading_counter`: an XOFF counter that acts as a write is reported as two bytes.
-/

namespace RpiDrivers.MiniUart.Output

open RpiDrivers.Lib

/-! ## The invariant -/

namespace State

variable (s : State)

/-- The requests that are charged, beside the current write. -/
def others : List Request :=
  (s.current .immediate).toList ++ (s.writeQueue ++ s.canceledOnQueue)

/-- The requests that are charged. -/
def places : List Request := (s.current .write).toList ++ s.others

/-- While an XOFF counter changes its role, it is the current write still. -/
def charged : List Request := if s.holder = .giveXoff then s.others else s.places

end State

/-- The list has the requests that are charged. -/
structure Listed (s : State) (l : List Request) : Prop where
  lists : s.tab.Lists Request.id l
  items_lt : ∀ r ∈ s.tab.items, r.id < s.submitted
  waived_lt : ∀ k ∈ s.tab.waived, k < s.submitted
  xoff : ∀ x, s.current .xoff = some x → x.id ∈ s.tab.waived
  immediate : ∀ r, s.current .immediate = some r → r.chars = 1

/-- `TotalCharsQueued` is the sum of a list. -/
structure Counted (s : State) (l : List Request) : Prop where
  total : s.totalCharsQueued.toNat = (l.map Request.charge).sum
  wrapped : s.wrapped = false
  reports : ∀ p ∈ s.reports, p.amountInOutQueue.toNat + p.sent = p.due

/-- The current write is with the interrupt, or its DPC is queued, or neither. -/
structure Line (s : State) : Prop where
  sending : s.writeLength ≠ 0 → ∃ r, s.current .write = some r ∧
    (s.requests r.id).refCount .isr = true ∧ s.sent + s.writeLength.toNat = r.charge
  dpc : s.dpc .write = true → s.writeLength = 0 ∧
    ∃ r, s.current .write = some r ∧ (s.requests r.id).refCount .isr = true
  sent_none : s.current .write = none → s.sent = 0

/-- Neither. -/
structure Quiet (s : State) : Prop where
  writeLength : s.writeLength = 0
  dpc : s.dpc .write = false

/-- Nothing of it has been sent. -/
structure Fresh (s : State) : Prop extends Quiet s where
  sent : s.sent = 0

structure Inv (s : State) : Prop where
  listed : Listed s s.charged
  counted : Counted s s.charged
  line : Line s
  starting : s.holder = .giveWrite ∨ (∃ status, s.holder = .grab .xoff status .xoffRef) → Fresh s
  giveXoff : s.holder = .giveXoff → Quiet s

theorem inv_start : Inv .start where
  listed := ⟨.empty, nofun, nofun, nofun, nofun⟩
  counted := ⟨rfl, rfl, nofun⟩
  line := ⟨fun h => absurd rfl h, nofun, fun _ => rfl⟩
  starting h := by rcases h with h | ⟨_, h⟩ <;> cases h
  giveXoff h := nomatch h

variable {s s' : State} {r : Request} {l l' : List Request}

theorem Listed.of_perm (h : Listed s l) (hl : l.Perm l') : Listed s l' :=
  { h with lists := h.lists.of_perm hl }

theorem Counted.of_perm (h : Counted s l) (hl : l.Perm l') : Counted s l' :=
  { h with total := h.total.trans (hl.map Request.charge).sum_eq }

/-- **The invariant has the property.** -/
theorem Inv.sound (h : Inv s) : Sound s where
  total := by
    rw [h.counted.total, State.due, h.listed.lists.due_eq]
  wrapped := h.counted.wrapped
  reports := h.counted.reports

theorem Quiet.line (h : Quiet s) (hsent : s.current .write = none → s.sent = 0) : Line s where
  sending hne := absurd h.writeLength hne
  dpc hdpc := nomatch h.dpc.symm.trans hdpc
  sent_none := hsent

theorem Fresh.line (h : Fresh s) : Line s := h.toQuiet.line fun _ => h.sent

/-- A write without the reference of the interrupt is not with it any more. -/
theorem Line.quiet (h : Line s) (hcurrent : s.current .write = some r)
    (hisr : (s.requests r.id).refCount .isr = false) : Quiet s := by
  have hnot {r' : Request} (hr' : s.current .write = some r') :
      (s.requests r'.id).refCount .isr ≠ true := by
    obtain rfl : r = r' := Option.some.inj (hcurrent.symm.trans hr')
    rw [hisr]
    decide
  constructor
  case writeLength =>
    by_contra hne
    obtain ⟨r', hr', hyes, -⟩ := h.sending hne
    exact hnot hr' hyes
  case dpc =>
    by_contra hne
    obtain ⟨-, r', hr', hyes⟩ := h.dpc (Bool.not_eq_false _ ▸ hne)
    exact hnot hr' hyes

/-! ### Contexts and timers -/

theorem requests_modify_self (s : State) (id : Nat) (f : RequestContext → RequestContext) :
    (s.modify id f).requests id = f (s.requests id) :=
  Function.update_self ..

theorem requests_modify_of_ne (s : State) {id i : Nat} (h : i ≠ id)
    (f : RequestContext → RequestContext) : (s.modify id f).requests i = s.requests i :=
  Function.update_of_ne h ..

/-- The context of another request does not matter. -/
theorem Line.modify_of_ne (h : Line s) {id : Nat} (hid : ∀ r, s.current .write = some r → r.id ≠ id)
    (f : RequestContext → RequestContext) : Line (s.modify id f) := by
  constructor
  case sending =>
    intro hne
    obtain ⟨r, hcurrent, hisr, hsum⟩ := h.sending hne
    refine ⟨r, hcurrent, ?_, hsum⟩
    rw [requests_modify_of_ne s (hid r hcurrent)]
    exact hisr
  case dpc =>
    intro hdpc
    obtain ⟨hzero, r, hcurrent, hisr⟩ := h.dpc hdpc
    refine ⟨hzero, r, hcurrent, ?_⟩
    rw [requests_modify_of_ne s (hid r hcurrent)]
    exact hisr
  case sent_none => exact h.sent_none

/-- Only contexts and timers change, and no reference of the interrupt. -/
structure Touches (s s' : State) : Prop where
  eq : s' = { s with requests := s'.requests, timer := s'.timer }
  isr : ∀ i, (s'.requests i).refCount .isr = (s.requests i).refCount .isr

namespace Touches

theorem refl (s : State) : Touches s s := ⟨rfl, fun _ => rfl⟩

theorem trans {t : State} (h : Touches s s') (h' : Touches s' t) : Touches s t := by
  refine ⟨?_, fun i => (h'.isr i).trans (h.isr i)⟩
  have heq := h'.eq
  rw [h.eq] at heq
  exact heq

theorem modify (s : State) (id : Nat) {f : RequestContext → RequestContext}
    (hf : ∀ c, (f c).refCount .isr = c.refCount .isr) : Touches s (s.modify id f) := by
  refine ⟨rfl, fun i => ?_⟩
  by_cases hi : i = id
  · rw [hi, requests_modify_self, hf]
  · rw [requests_modify_of_ne s hi]

/-- A reference that is not the interrupt's. -/
theorem setReference (s : State) (id : Nat) (ref : RefType) (hne : ref ≠ .isr) (b : Bool) :
    Touches s (s.modify id (.setReference ref b)) :=
  modify s id fun _ => Function.update_of_ne hne.symm _ _

theorem setTimerState (s : State) (op : Op) (t : Timer) : Touches s (s.setTimerState op t) :=
  ⟨rfl, fun _ => rfl⟩

theorem serialSetCancelRoutine (s : State) (id : Nat) (op : Op) :
    Touches s (s.serialSetCancelRoutine id op) :=
  (modify s id (f := fun c => { c with cancelable := some op }) fun _ => rfl).trans
    (setReference _ id .cancel nofun true)

theorem serialClearCancelRoutine (s : State) (id : Nat) :
    Touches s (s.serialClearCancelRoutine id) := by
  unfold State.serialClearCancelRoutine
  split
  · exact (modify s id (f := fun c => { c with cancelable := none }) fun _ => rfl).trans
      (setReference _ id .cancel nofun false)
  · exact refl s

theorem serialSetTimer (s : State) (op : Op) (id : Nat) : Touches s (s.serialSetTimer op id) := by
  have htimer := setTimerState s op { s.timer op with queued := true }
  unfold State.serialSetTimer
  dsimp only
  split
  · exact htimer
  · exact htimer.trans (setReference _ id .totalTimer nofun true)

theorem cancelTimer (s : State) (op : Op) (id : Nat) (ref : RefType) :
    Touches s (s.cancelTimer op id ref) := by
  unfold State.cancelTimer
  split
  · exact (setTimerState s op _).trans (setReference _ id .totalTimer nofun false)
  · split
    · exact setReference s id .totalTimer nofun false
    · exact refl s

/-- **Running down the references leaves the interrupt's.** -/
theorem serialRundownIrpRefs (s : State) (op : Op) (id : Nat) (ref : RefType) :
    Touches s (s.serialRundownIrpRefs op id ref) := by
  have hcancel : Touches s
      (if ref = .cancel then s.clearReference id .cancel else s.serialClearCancelRoutine id) := by
    split
    · exact setReference s id .cancel nofun false
    · exact serialClearCancelRoutine s id
  unfold State.serialRundownIrpRefs
  dsimp only
  split
  · exact hcancel
  · exact hcancel.trans (cancelTimer _ op id ref)

variable (h : Touches s s')
include h

theorem listed (hs : Listed s l) : Listed s' l := by
  rw [h.eq]
  exact { hs with }

theorem counted (hs : Counted s l) : Counted s' l := by
  rw [h.eq]
  exact { hs with }

theorem line (hs : Line s) : Line s' := by
  have hisr := h.isr
  rw [h.eq] at hisr ⊢
  constructor
  case sending =>
    intro hne
    obtain ⟨r, hcurrent, hr, hsum⟩ := hs.sending hne
    exact ⟨r, hcurrent, (hisr r.id).trans hr, hsum⟩
  case dpc =>
    intro hdpc
    obtain ⟨hzero, r, hcurrent, hr⟩ := hs.dpc hdpc
    exact ⟨hzero, r, hcurrent, (hisr r.id).trans hr⟩
  case sent_none => exact hs.sent_none

theorem quiet (hs : Quiet s) : Quiet s' := by
  rw [h.eq]
  exact { hs with }

theorem fresh (hs : Fresh s) : Fresh s' := by
  rw [h.eq]
  exact { hs with }

theorem places : s'.places = s.places := by
  rw [h.eq]
  rfl

theorem others : s'.others = s.others := by
  rw [h.eq]
  rfl

theorem current (op : Op) : s'.current op = s.current op := by
  rw [h.eq]

/-- What touches only contexts and timers preserves the invariant. -/
theorem inv (hs : Inv s) : Inv s' := by
  have hholder : s'.holder = s.holder := by rw [h.eq]
  have hcharged : s'.charged = s.charged := by
    rw [State.charged, hholder, h.others, h.places, State.charged]
  constructor
  case listed => exact hcharged ▸ h.listed hs.listed
  case counted => exact hcharged ▸ h.counted hs.counted
  case line => exact h.line hs.line
  case starting => exact fun hh => h.fresh (hs.starting (hholder ▸ hh))
  case giveXoff => exact fun hh => h.quiet (hs.giveXoff (hholder ▸ hh))

end Touches

/-! ### Starting -/

/-- The requests are in their places when a section is left. -/
theorem inv_holder (hlisted : Listed s s.places) (hcounted : Counted s s.places) (hline : Line s)
    {holder : Holder} (hne : holder ≠ .giveXoff)
    (hfresh : holder = .giveWrite ∨ (∃ status, holder = .grab .xoff status .xoffRef) → Fresh s) :
    Inv { s with holder := holder } := by
  have hcharged : State.charged { s with holder := holder } = s.places := if_neg hne
  constructor
  case listed => exact hcharged ▸ { hlisted with }
  case counted => exact hcharged ▸ { hcounted with }
  case line => exact { hline with }
  case starting => exact fun hh => { hfresh hh with }
  case giveXoff => exact fun hh => absurd hh hne

theorem inv_finish (hlisted : Listed s s.places) (hcounted : Counted s s.places) (hline : Line s) :
    Inv s.finish := by
  unfold State.finish
  split
  · refine inv_holder (s := { s with purging := false }) { hlisted with } { hcounted with }
      { hline with } nofun fun hh => ?_
    rcases hh with hh | ⟨_, hh⟩ <;> cases hh
  · refine inv_holder hlisted hcounted hline nofun fun hh => ?_
    rcases hh with hh | ⟨_, hh⟩ <;> cases hh

/-- A current write is on its way to the interrupt. -/
theorem inv_startCurrentWrite (hlisted : Listed s s.places) (hcounted : Counted s s.places)
    (hfresh : Fresh s) : Inv s.startCurrentWrite := by
  unfold State.startCurrentWrite
  split
  next =>
    refine inv_holder (s := s.fault) { hlisted with } { hcounted with } { hfresh.line with } nofun
      fun hh => ?_
    rcases hh with hh | ⟨_, hh⟩ <;> cases hh
  next r hcurrent =>
    obtain ⟨t, ht⟩ : ∃ t, t = s.modify r.id fun c => { c with refCount := fun _ => false } :=
      ⟨_, rfl⟩
    have htouches : Touches t (if (t.serialSetCancelRoutine r.id .write).useATimer then
        (t.serialSetCancelRoutine r.id .write).serialSetTimer .write r.id
        else t.serialSetCancelRoutine r.id .write) := by
      have hcancel := Touches.serialSetCancelRoutine t r.id .write
      split
      · exact hcancel.trans (.serialSetTimer _ .write r.id)
      · exact hcancel
    have hlisted' : Listed t t.places := ht ▸ { hlisted with }
    have hcounted' : Counted t t.places := ht ▸ { hcounted with }
    have hfresh' : Fresh t := ht ▸ { hfresh with }
    dsimp only
    rw [← ht]
    refine inv_holder ?_ ?_ (htouches.fresh hfresh').line nofun fun _ => htouches.fresh hfresh'
    · exact htouches.places ▸ htouches.listed hlisted'
    · exact htouches.places ▸ htouches.counted hcounted'

/-- **`SerialStartWrite` keeps the count**, whether it completes an XOFF counter first or not. -/
theorem inv_serialStartWrite (hlisted : Listed s s.places) (hcounted : Counted s s.places)
    (hfresh : Fresh s) : Inv s.serialStartWrite := by
  unfold State.serialStartWrite
  split
  next => exact inv_startCurrentWrite hlisted hcounted hfresh
  next x _ =>
    split
    next =>
      have htouches : Touches s ((s.setReference x.id .xoffRef).clearReference x.id .xoffRef) :=
        (Touches.setReference s x.id .xoffRef nofun true).trans
          (.setReference _ x.id .xoffRef nofun false)
      refine inv_holder ?_ ?_ (htouches.fresh hfresh).line nofun fun _ => htouches.fresh hfresh
      · exact htouches.places ▸ htouches.listed hlisted
      · exact htouches.places ▸ htouches.counted hcounted
    next => exact inv_startCurrentWrite hlisted hcounted hfresh

theorem inv_serialStartImmediate (hlisted : Listed s s.places) (hcounted : Counted s s.places)
    (hline : Line s) {id : Nat} (hid : ∀ r, s.current .write = some r → r.id ≠ id) :
    Inv (s.serialStartImmediate id) := by
  unfold State.serialStartImmediate
  obtain ⟨t, ht⟩ : ∃ t, t = s.modify id fun c => { c with refCount := fun _ => false } :=
    ⟨_, rfl⟩
  have htouches : Touches t (if (t.serialSetCancelRoutine id .immediate).useATimer then
      (t.serialSetCancelRoutine id .immediate).serialSetTimer .immediate id
      else t.serialSetCancelRoutine id .immediate) := by
    have hcancel := Touches.serialSetCancelRoutine t id .immediate
    split
    · exact hcancel.trans (.serialSetTimer _ .immediate id)
    · exact hcancel
  have hlisted' : Listed t t.places := ht ▸ { hlisted with }
  have hcounted' : Counted t t.places := ht ▸ { hcounted with }
  have hline' : Line t := ht ▸ hline.modify_of_ne hid _
  dsimp only
  rw [← ht]
  refine inv_holder ?_ ?_ (htouches.line hline') nofun fun hh => ?_
  · exact htouches.places ▸ htouches.listed hlisted'
  · exact htouches.places ▸ htouches.counted hcounted'
  · rcases hh with hh | ⟨_, hh⟩ <;> cases hh

/-! ### Completing -/

theorem current_setCurrent_self (s : State) (op : Op) (r : Option Request) :
    (s.setCurrent op r).current op = r :=
  Function.update_self ..

theorem current_setCurrent_of_ne (s : State) {op op' : Op} (h : op' ≠ op) (r : Option Request) :
    (s.setCurrent op r).current op' = s.current op' :=
  Function.update_of_ne h ..

/-- A request that is completed is not charged any more. -/
theorem Listed.complete (h : Listed s (r :: l)) : Listed (s.serialCompleteRequest r.id) l where
  lists := h.lists.close
  items_lt r' hr' := h.items_lt r' (List.mem_filter.1 hr').1
  waived_lt := h.waived_lt
  xoff := h.xoff
  immediate := h.immediate

/-- One that has been waived was not charged. -/
theorem Listed.complete_of_waived (h : Listed s l) {id : Nat} (hid : id ∈ s.tab.waived) :
    Listed (s.serialCompleteRequest id) l where
  lists := h.lists.close_of_waived hid
  items_lt r' hr' := h.items_lt r' (List.mem_filter.1 hr').1
  waived_lt := h.waived_lt
  xoff := h.xoff
  immediate := h.immediate

/-- **The count is lowered by what it was raised by**, and does not wrap. -/
theorem Counted.lower (h : Counted s (r :: l)) : Counted (s.lower r.chars) l := by
  have hsum : s.totalCharsQueued.toNat = r.chars.toNat + (l.map Request.charge).sum := by
    rw [h.total, List.map_cons, List.sum_cons, Request.charge]
  have hle : r.chars ≤ s.totalCharsQueued := by
    rw [BitVec.le_def, hsum]
    exact Nat.le_add_right _ _
  constructor
  case total =>
    show (s.totalCharsQueued - r.chars).toNat = _
    rw [BitVec.toNat_sub_of_le hle, hsum, Nat.add_sub_cancel_left]
  case wrapped =>
    show (s.wrapped || decide (s.totalCharsQueued < r.chars)) = false
    rw [h.wrapped, Bool.false_or, decide_eq_false_iff_not, BitVec.not_lt]
    exact hle
  case reports => exact h.reports

/-- The next request of the queue becomes the current write. -/
theorem perm_next (s : State) : s.others.Perm
    { s.setCurrent .write s.writeQueue.head? with
      writeQueue := s.writeQueue.tail, sent := 0 }.places := by
  have hqueue : s.writeQueue.head?.toList ++ s.writeQueue.tail = s.writeQueue := by
    cases s.writeQueue <;> rfl
  unfold State.places State.others
  show List.Perm _ (((s.setCurrent .write s.writeQueue.head?).current .write).toList ++
    (((s.setCurrent .write s.writeQueue.head?).current .immediate).toList ++
      (s.writeQueue.tail ++ s.canceledOnQueue)))
  rw [current_setCurrent_self,
    current_setCurrent_of_ne s (show Op.immediate ≠ .write from nofun)]
  nth_rewrite 1 [← hqueue]
  rw [List.append_assoc]
  exact List.perm_append_comm_assoc _ _ _

/-- **`SerialGetNextRequest` keeps the count**, when the current write is not charged any more. -/
theorem inv_serialGetNextRequest (hlisted : Listed s s.others) (hcounted : Counted s s.others)
    (hquiet : Quiet s) : Inv (s.serialGetNextRequest none) := by
  unfold State.serialGetNextRequest
  dsimp only
  have hperm := perm_next s
  obtain ⟨t, ht⟩ : ∃ t, t = { s.setCurrent .write s.writeQueue.head? with
    writeQueue := s.writeQueue.tail, sent := 0 } := ⟨_, rfl⟩
  rw [← ht] at hperm ⊢
  have hlisted' : Listed t s.others := ht ▸ { hlisted with }
  have hcounted' : Counted t s.others := ht ▸ { hcounted with }
  have hfresh : Fresh t := ht ▸ ⟨{ hquiet with }, rfl⟩
  split
  · exact inv_serialStartWrite (hlisted'.of_perm hperm) (hcounted'.of_perm hperm) hfresh
  · exact inv_finish (hlisted'.of_perm hperm) (hcounted'.of_perm hperm) hfresh.line

theorem chars_of_isWrite (h : r.isWrite = true) : r.chars = r.length := if_pos h

theorem chars_of_not_isWrite (h : ¬ r.isWrite = true) : r.chars = 1 := if_neg h

/-- **The current write leaves its place**, and the count is lowered by what it was charged: it is
completed, or an XOFF counter that does not act as a write any more. -/
theorem inv_serialGetNextWrite (hcurrent : s.current .write = some r) (hlisted : Listed s s.places)
    (hcounted : Counted s s.places) (hquiet : Quiet s) : Inv (s.serialGetNextWrite r) := by
  have hplaces : s.places = r :: s.others := by
    rw [State.places, hcurrent]
    rfl
  rw [hplaces] at hlisted hcounted
  have hlower := hcounted.lower
  unfold State.serialGetNextWrite
  split
  next hwrite =>
    rw [chars_of_isWrite hwrite] at hlower
    exact inv_serialGetNextRequest (s := (s.lower r.length).serialCompleteRequest r.id)
      { hlisted.complete with } { hlower with } { hquiet with }
  next hnot =>
    rw [chars_of_not_isWrite hnot] at hlower
    dsimp only
    split
    next =>
      exact inv_serialGetNextRequest (s := (s.lower 1).serialCompleteRequest r.id)
        { hlisted.complete with } { hlower with } { hquiet with }
    next =>
      have hmem := (hlisted.lists.mem (List.mem_cons_self ..)).1
      constructor
      case listed =>
        constructor
        case lists => exact hlisted.lists.waive
        case items_lt => exact hlisted.items_lt
        case waived_lt =>
          intro k hk
          rcases List.mem_cons.1 hk with rfl | hk
          · exact hlisted.items_lt r hmem
          · exact hlisted.waived_lt k hk
        case xoff =>
          intro x hx
          obtain rfl : r = x := Option.some.inj hx
          exact List.mem_cons_self ..
        case immediate => exact hlisted.immediate
      case counted => exact { hlower with }
      case line =>
        refine Quiet.line { hquiet with } fun (hnone : s.current .write = none) => ?_
        exact nomatch hnone.symm.trans hcurrent
      case starting =>
        intro hh
        rcases hh with hh | ⟨_, hh⟩ <;> cases hh
      case giveXoff => exact fun _ => { hquiet with }

/-- The current write is not one of the other current requests. -/
theorem Listed.write_ne (h : Listed s s.places) {op : Op} (hcurrent : s.current op = some r)
    (hop : op ≠ .write) (w : Request) (hw : s.current .write = some w) : w.id ≠ r.id := by
  intro heq
  have hplaces : s.places = w :: s.others := by
    rw [State.places, hw]
    rfl
  rw [hplaces] at h
  cases op with
  | write => exact hop rfl
  | immediate =>
    have hnodup := h.lists.nodup_keys
    rw [State.others, hcurrent] at hnodup
    simp [heq] at hnodup
  | xoff => exact (h.lists.mem (List.mem_cons_self ..)).2 (heq ▸ h.xoff r hcurrent)

/-- **The immediate character is completed.** -/
theorem inv_serialGetNextImmediate (hcurrent : s.current .immediate = some r)
    (hlisted : Listed s s.places) (hcounted : Counted s s.places) (hline : Line s) :
    Inv (s.serialGetNextImmediate r.id) := by
  obtain ⟨t, ht⟩ : ∃ t, t = ((s.lower 1).setCurrent .immediate none).serialCompleteRequest r.id :=
    ⟨_, rfl⟩
  have hplaces : t.places = (s.current .write).toList ++ (s.writeQueue ++ s.canceledOnQueue) := by
    rw [ht]
    rfl
  have hperm : s.places.Perm (r :: t.places) := by
    rw [hplaces, State.places, State.others, hcurrent]
    exact List.perm_middle
  have hchars := hlisted.immediate r hcurrent
  have hlower := (hcounted.of_perm hperm).lower
  rw [hchars] at hlower
  have hlisted' : Listed t t.places := by
    have hcomplete := (hlisted.of_perm hperm).complete
    rw [ht] at hcomplete ⊢
    exact { hcomplete with immediate := nofun }
  have hcounted' : Counted t t.places := by
    rw [ht] at hlower ⊢
    exact { hlower with }
  have hline' : Line t := by
    have hmodify := hline.modify_of_ne (hlisted.write_ne hcurrent nofun)
      fun c => { c with cancelable := none }
    rw [ht]
    exact { hmodify with }
  unfold State.serialGetNextImmediate
  rw [← ht]
  exact inv_finish hlisted' hcounted' hline'

/-- After an XOFF counter the write that it has been completed for is started. -/
theorem inv_afterXoff (hlisted : Listed s s.places) (hcounted : Counted s s.places) (hline : Line s)
    {ref : RefType} (hfresh : ref = .xoffRef → Fresh s) : Inv (s.afterXoff ref) := by
  unfold State.afterXoff
  split
  next href => exact inv_startCurrentWrite hlisted hcounted (hfresh href)
  next => exact inv_finish hlisted hcounted hline

/-- **`SerialTryToCompleteCurrent` keeps the count**, for each of the three kinds: without
references the request is completed, and otherwise it keeps its place. -/
theorem inv_tryToComplete {op : Op} (hcurrent : s.current op = some r)
    (hlisted : Listed s s.places) (hcounted : Counted s s.places) (hline : Line s) {ref : RefType}
    (hfresh : op = .xoff → ref = .xoffRef → Fresh s) (status : Status) :
    Inv (s.tryToComplete op r status ref) := by
  unfold State.tryToComplete
  dsimp only
  obtain ⟨t, ht⟩ : ∃ t, t = if status = .cancelled then
      (s.serialRundownIrpRefs op r.id ref).modify r.id fun c => { c with cancelled := true }
      else s.serialRundownIrpRefs op r.id ref := ⟨_, rfl⟩
  -- giving up references only touches contexts and timers
  have htouches : Touches s t := by
    have hrundown := Touches.serialRundownIrpRefs s op r.id ref
    rw [ht]
    split
    · exact hrundown.trans
        (.modify _ r.id (f := fun c => { c with cancelled := true }) fun _ => rfl)
    · exact hrundown
  rw [← ht]
  have hline' := htouches.line hline
  have hlisted' : Listed t t.places := htouches.places ▸ htouches.listed hlisted
  have hcounted' : Counted t t.places := htouches.places ▸ htouches.counted hcounted
  split
  next =>
    cases op with
    | write | immediate => exact inv_finish hlisted' hcounted' hline'
    | xoff =>
      exact inv_afterXoff hlisted' hcounted' hline' fun href => htouches.fresh (hfresh rfl href)
  next hnot =>
    -- nobody else has a reference, so the request is completed
    have hisr : (t.requests r.id).refCount .isr = false := by
      by_contra hyes
      rw [Bool.not_eq_false] at hyes
      refine hnot ?_
      rw [RequestContext.referenced, hyes]
      rfl
    have hcurrent' : t.current op = some r := (htouches.current op).trans hcurrent
    have hstatus : Touches t (t.modify r.id fun c => { c with status := status }) :=
      .modify t r.id fun _ => rfl
    have hlisted'' := hstatus.places ▸ hstatus.listed hlisted'
    have hcounted'' := hstatus.places ▸ hstatus.counted hcounted'
    cases op with
    | write =>
      exact inv_serialGetNextWrite hcurrent' hlisted'' hcounted''
        (hstatus.quiet (hline'.quiet hcurrent' hisr))
    | immediate =>
      exact inv_serialGetNextImmediate hcurrent' hlisted'' hcounted'' (hstatus.line hline')
    | xoff =>
      have hwaived := hlisted''.xoff r hcurrent'
      have hcomplete := hlisted''.complete_of_waived hwaived
      have hcancelable := Touches.modify (t.modify r.id fun c => { c with status := status }) r.id
        (f := fun c => { c with cancelable := none }) fun _ => rfl
      have hline'' := hcancelable.line (hstatus.line hline')
      refine inv_afterXoff ?_ ?_ ?_ fun href => ?_
      · exact { hcomplete with xoff := nofun }
      · exact { hcounted'' with }
      · exact { hline'' with }
      · exact { hcancelable.fresh (hstatus.fresh (htouches.fresh (hfresh rfl href))) with }

/-! ### The holder of the lock -/

theorem Inv.listed_places (h : Inv s) (hne : s.holder ≠ .giveXoff) : Listed s s.places := by
  have hlisted := h.listed
  rwa [State.charged, if_neg hne] at hlisted

theorem Inv.counted_places (h : Inv s) (hne : s.holder ≠ .giveXoff) : Counted s s.places := by
  have hcounted := h.counted
  rwa [State.charged, if_neg hne] at hcounted

/-- A null pointer is followed. -/
theorem Inv.fault (h : Inv s) : Inv s.fault where
  listed := { h.listed with }
  counted := { h.counted with }
  line := { h.line with }
  starting hh := { h.starting hh with }
  giveXoff hh := { h.giveXoff hh with }

/-- **The request is taken from the interrupt**, and completed if nobody else has it. -/
theorem Inv.grab (h : Inv s) {op : Op} {status : Status} {ref : RefType}
    (hholder : s.holder = .grab op status ref) (hcurrent : s.current op = some r) :
    Inv ((s.grabFromIsr op r.id).tryToComplete op r status ref) := by
  have hne : s.holder ≠ .giveXoff := by
    rw [hholder]
    nofun
  have hlisted := h.listed_places hne
  have hcounted := h.counted_places hne
  unfold State.grabFromIsr
  cases op with
  | write =>
    dsimp only
    split
    next => exact inv_tryToComplete hcurrent hlisted hcounted h.line nofun status
    next hwriteLength =>
      -- with characters left to write, no DPC has been queued
      have hquiet : Quiet { s.clearReference r.id .isr with writeLength := 0 } := by
        refine ⟨rfl, ?_⟩
        by_contra hdpc
        exact hwriteLength (h.line.dpc (Bool.not_eq_false _ ▸ hdpc)).1
      have hline := hquiet.line fun (hnone : s.current .write = none) =>
        nomatch hnone.symm.trans hcurrent
      exact inv_tryToComplete (s := { s.clearReference r.id .isr with writeLength := 0 }) hcurrent
        { hlisted with } { hcounted with } hline nofun status
  | immediate =>
    dsimp only
    split
    next =>
      have hline := h.line.modify_of_ne (hlisted.write_ne hcurrent nofun)
        (RequestContext.setReference .isr false)
      exact inv_tryToComplete
        (s := { s.clearReference r.id .isr with transmitImmediate := false }) hcurrent
        { hlisted with } { hcounted with } { hline with } nofun status
    next => exact inv_tryToComplete hcurrent hlisted hcounted h.line nofun status
  | xoff =>
    have hfresh (href : ref = .xoffRef) : Fresh s :=
      h.starting (.inr ⟨status, by rw [hholder, href]⟩)
    dsimp only
    split
    next =>
      exact inv_tryToComplete hcurrent hlisted hcounted h.line (fun _ href => hfresh href) status
    next =>
      have hline := h.line.modify_of_ne (hlisted.write_ne hcurrent nofun)
        (RequestContext.setReference .isr false)
      exact inv_tryToComplete
        (s := { s.clearReference r.id .isr with countSinceXoff := 0 }) hcurrent
        { hlisted with } { hcounted with } { hline with } (fun _ href => { hfresh href with })
        status

/-- **The write is given to the interrupt.** -/
theorem Inv.giveWrite (h : Inv s) (hholder : s.holder = .giveWrite)
    (hcurrent : s.current .write = some r) : Inv (s.serialGiveWriteToIsr r).finish := by
  have hne : s.holder ≠ .giveXoff := by
    rw [hholder]
    nofun
  have hfresh := h.starting (.inl hholder)
  have hisr : ((s.setReference r.id .isr).requests r.id).refCount .isr = true := by
    rw [State.setReference, requests_modify_self]
    exact Function.update_self RefType.isr true (s.requests r.id).refCount
  refine inv_finish { h.listed_places hne with } { h.counted_places hne with } ?_
  constructor
  case sending =>
    refine fun _ => ⟨r, hcurrent, hisr, ?_⟩
    show s.sent + r.chars.toNat = r.charge
    rw [hfresh.sent, Nat.zero_add, Request.charge]
  case dpc =>
    intro (hdpc : s.dpc .write = true)
    rw [hfresh.dpc] at hdpc
    cases hdpc
  case sent_none => exact h.line.sent_none

theorem Inv.giveImmediate (h : Inv s) (hholder : s.holder = .giveImmediate)
    (hcurrent : s.current .immediate = some r) :
    Inv (State.finish { s.setReference r.id .isr with transmitImmediate := true }) := by
  have hne : s.holder ≠ .giveXoff := by
    rw [hholder]
    nofun
  have hlisted := h.listed_places hne
  have hline := h.line.modify_of_ne (hlisted.write_ne hcurrent nofun)
    (RequestContext.setReference .isr true)
  exact inv_finish { hlisted with } { h.counted_places hne with } { hline with }

/-- **The XOFF counter has changed its role**, and the next write is started. -/
theorem Inv.giveXoffToIsr (h : Inv s) (hholder : s.holder = .giveXoff) (r : Request) :
    Inv (s.giveXoff r) := by
  have hlisted : Listed s s.others := by
    have hlisted := h.listed
    rwa [State.charged, if_pos hholder] at hlisted
  have hcounted : Counted s s.others := by
    have hcounted := h.counted
    rwa [State.charged, if_pos hholder] at hcounted
  have hquiet := h.giveXoff hholder
  unfold State.giveXoff
  split
  next counter timeout _ =>
    obtain ⟨t, ht⟩ : ∃ t, t = { s.setReference r.id .isr with countSinceXoff := counter } :=
      ⟨_, rfl⟩
    have htouches : Touches t (if timeout = 0 then t else t.serialSetTimer .xoff r.id) := by
      split
      · exact .refl t
      · exact .serialSetTimer t .xoff r.id
    have hothers : t.others = s.others := by
      rw [ht]
      rfl
    have hlisted' : Listed t t.others := by
      rw [hothers, ht]
      exact { hlisted with }
    have hcounted' : Counted t t.others := by
      rw [hothers, ht]
      exact { hcounted with }
    have hquiet' : Quiet t := ht ▸ { hquiet with }
    dsimp only
    rw [← ht]
    refine inv_serialGetNextRequest ?_ ?_ (htouches.quiet hquiet')
    · exact htouches.others ▸ htouches.listed hlisted'
    · exact htouches.others ▸ htouches.counted hcounted'
  all_goals exact h.fault

theorem inv_cancelCurrent (hlisted : Listed s s.places) (hcounted : Counted s s.places)
    (hline : Line s) (op : Op) : Inv (s.cancelCurrent op) := by
  unfold State.cancelCurrent
  split
  next => exact inv_finish hlisted hcounted hline
  next r hcurrent =>
    split
    next =>
      have htouches := Touches.modify s r.id (f := fun c => { c with cancelable := none })
        fun _ => rfl
      have hcurrent' := (htouches.current op).trans hcurrent
      unfold State.serialTryToCompleteCurrent
      rw [hcurrent']
      dsimp only
      rw [if_neg (by decide)]
      refine inv_holder ?_ ?_ (htouches.line hline) nofun fun hh => ?_
      · exact htouches.places ▸ htouches.listed hlisted
      · exact htouches.places ▸ htouches.counted hcounted
      · rcases hh with hh | ⟨_, hh⟩ <;> cases hh
    next => exact inv_finish hlisted hcounted hline

/-- **A purge moves what is queued**, and its requests stay charged. -/
theorem inv_serialPurgeRequests (hlisted : Listed s s.places) (hcounted : Counted s s.places)
    (hline : Line s) (op : Op) : Inv (s.serialPurgeRequests op) := by
  have hperm : s.places.Perm s.wdfIoQueuePurge.places :=
    List.Perm.append_left _ (List.Perm.append_left _ List.perm_append_comm)
  have hlisted' := hlisted.of_perm hperm
  have hcounted' := hcounted.of_perm hperm
  exact inv_cancelCurrent (s := s.wdfIoQueuePurge) { hlisted' with } { hcounted' with }
    { hline with } op

theorem Inv.advance (h : Inv s) : Inv s.advance := by
  unfold State.advance
  cases hholder : s.holder with
  | idle => exact h
  | grab op status ref =>
    dsimp only
    split
    next => exact h.fault
    next hcurrent => exact h.grab hholder hcurrent
  | giveWrite =>
    dsimp only
    split
    next => exact h.fault
    next hcurrent => exact h.giveWrite hholder hcurrent
  | giveImmediate =>
    dsimp only
    split
    next => exact h.fault
    next hcurrent => exact h.giveImmediate hholder hcurrent
  | giveXoff =>
    dsimp only
    split
    next => exact h.fault
    next r _ => exact h.giveXoffToIsr hholder r
  | flushXoff =>
    have hne : s.holder ≠ .giveXoff := by
      rw [hholder]
      nofun
    exact inv_serialPurgeRequests (h.listed_places hne) (h.counted_places hne) h.line .xoff

/-! ### What begins with the lock -/

/-- **A timer's routine or a cancel routine** begins. -/
theorem Inv.tryToCompleteCurrent (h : Inv s) (hidle : s.holder = .idle) (op : Op) (status : Status)
    {ref : RefType} (href : ref ≠ .isr) (hxoff : ref ≠ .xoffRef) :
    Inv (s.serialTryToCompleteCurrent op status ref) := by
  have hne : s.holder ≠ .giveXoff := by
    rw [hidle]
    nofun
  unfold State.serialTryToCompleteCurrent
  split
  next => exact h.fault
  next =>
    rw [if_neg href]
    refine inv_holder (h.listed_places hne) (h.counted_places hne) h.line nofun fun hh => ?_
    rcases hh with hh | ⟨_, hh⟩
    · cases hh
    · exact absurd (Holder.grab.inj hh).2.2 hxoff

theorem dpc_setDpc_self (s : State) (op : Op) (b : Bool) : (s.setDpc op b).dpc op = b :=
  Function.update_self ..

theorem dpc_setDpc_of_ne (s : State) {op op' : Op} (h : op' ≠ op) (b : Bool) :
    (s.setDpc op b).dpc op' = s.dpc op' :=
  Function.update_of_ne h ..

/-- A DPC is not queued any more. -/
theorem Inv.setDpc_false (h : Inv s) (op : Op) : Inv (s.setDpc op false) := by
  have hdpc (hyes : (s.setDpc op false).dpc .write = true) : s.dpc .write = true := by
    by_cases hop : Op.write = op
    · rw [hop, dpc_setDpc_self] at hyes
      cases hyes
    · exact (dpc_setDpc_of_ne s hop false).symm.trans hyes
  have hquiet (hs : Quiet s) : Quiet (s.setDpc op false) := by
    refine ⟨hs.writeLength, Bool.eq_false_iff.2 fun hyes => ?_⟩
    exact nomatch hs.dpc.symm.trans (hdpc hyes)
  constructor
  case listed => exact { h.listed with }
  case counted => exact { h.counted with }
  case line => exact ⟨h.line.sending, fun hyes => h.line.dpc (hdpc hyes), h.line.sent_none⟩
  case starting => exact fun hh => ⟨hquiet (h.starting hh).toQuiet, (h.starting hh).sent⟩
  case giveXoff => exact fun hh => hquiet (h.giveXoff hh)

/-- **A DPC completes what the interrupt has finished.** -/
theorem Inv.dpc (h : Inv s) (hidle : s.holder = .idle) {op : Op} (hdpc : s.dpc op = true) :
    Inv ((s.setDpc op false).serialTryToCompleteCurrent op .success .isr) := by
  have hne : s.holder ≠ .giveXoff := by
    rw [hidle]
    nofun
  obtain ⟨t, ht⟩ : ∃ t, t = s.setDpc op false := ⟨_, rfl⟩
  have hinv : Inv t := ht ▸ h.setDpc_false op
  have hne' : t.holder ≠ .giveXoff := ht ▸ hne
  have hlisted := hinv.listed_places hne'
  have hcounted := hinv.counted_places hne'
  rw [← ht]
  unfold State.serialTryToCompleteCurrent
  split
  next => exact hinv.fault
  next r hcurrent =>
    rw [if_pos rfl]
    have hline : Line (t.clearReference r.id .isr) := by
      by_cases hop : op = .write
      · -- the interrupt has sent the whole write
        subst hop
        have hquiet : Quiet (t.clearReference r.id .isr) := by
          rw [ht]
          exact ⟨(h.line.dpc hdpc).1, dpc_setDpc_self s .write false⟩
        exact hquiet.line fun (hnone : t.current .write = none) =>
          nomatch hnone.symm.trans hcurrent
      · exact hinv.line.modify_of_ne (hlisted.write_ne hcurrent hop) _
    exact inv_tryToComplete (s := t.clearReference r.id .isr) hcurrent { hlisted with }
      { hcounted with } hline (fun _ (href : RefType.isr = .xoffRef) => nomatch href) .success

/-- **A request is charged** when it is counted. -/
theorem Counted.raise (h : Counted s l) (r : Request)
    (hbound : (l.map Request.charge).sum + r.charge < 2 ^ 32) :
    Counted { s with totalCharsQueued := s.totalCharsQueued + r.chars } (r :: l) where
  total := by
    show (s.totalCharsQueued + r.chars).toNat = _
    rw [BitVec.toNat_add, h.total, List.map_cons, List.sum_cons, Nat.add_comm r.charge]
    exact Nat.mod_eq_of_lt hbound
  wrapped := h.wrapped
  reports := h.reports

/-- The new request has an identifier of its own. -/
theorem Listed.add (h : Listed s l) (hr : r.id = s.submitted) :
    Listed { s with submitted := s.submitted + 1, tab := s.tab.add r } (r :: l) where
  lists := by
    refine h.lists.add (fun hmem => ?_) fun hwaived => ?_
    · obtain ⟨r', hr', heq⟩ := List.mem_map.1 hmem
      have hlt := h.items_lt r' hr'
      omega
    · have hlt := h.waived_lt r.id hwaived
      omega
  items_lt r' hr' := by
    show r'.id < s.submitted + 1
    rcases List.mem_append.1 hr' with hold | hlast
    · exact Nat.lt_succ_of_lt (h.items_lt r' hold)
    · rw [List.mem_singleton.1 hlast, hr]
      exact Nat.lt_succ_self _
  waived_lt k hk := Nat.lt_succ_of_lt (h.waived_lt k hk)
  xoff := h.xoff
  immediate := h.immediate

/-- **A request is started or queued**, and charged. -/
theorem Inv.startOrQueue (h : Inv s) (hidle : s.holder = .idle) {kind : Kind}
    {queueIdle forwarded : Bool} (hbound : s.due + Request.charge ⟨s.submitted, kind⟩ < 2 ^ 32)
    (haccepted : Accepted s queueIdle forwarded) :
    Inv (s.serialStartOrQueue kind queueIdle forwarded) := by
  have hne : s.holder ≠ .giveXoff := by
    rw [hidle]
    nofun
  have hlisted := h.listed_places hne
  have hcounted := h.counted_places hne
  obtain ⟨r, hr⟩ : ∃ r : Request, r = ⟨s.submitted, kind⟩ := ⟨_, rfl⟩
  rw [← hr, State.due, hlisted.lists.due_eq] at hbound
  have hadd := hlisted.add (show r.id = s.submitted by rw [hr])
  have hraise := hcounted.raise r hbound
  unfold State.serialStartOrQueue
  dsimp only
  rw [← hr]
  split
  next hstart =>
    -- nothing is being written, so the ISR and the DPC are done with the last write
    have hnone : s.current .write = none := by
      rw [Bool.and_eq_true] at hstart
      simpa using hstart.2
    have hfresh : Fresh { s with sent := 0 } := by
      refine ⟨⟨?_, ?_⟩, rfl⟩
      · by_contra hsending
        obtain ⟨_, hsome, -⟩ := h.line.sending hsending
        exact nomatch hnone.symm.trans hsome
      · refine Bool.eq_false_iff.2 fun hdpc => ?_
        obtain ⟨-, _, hsome, -⟩ := h.line.dpc hdpc
        exact nomatch hnone.symm.trans hsome
    have hplaces : s.places = s.others := by
      rw [State.places, hnone]
      rfl
    rw [hplaces] at hadd hraise
    exact inv_serialStartWrite { hadd with } { hraise with } { hfresh with }
  next hqueue =>
    -- else the queue has taken the request
    have hforwarded : forwarded = true := by
      rcases haccepted with ⟨hyes, hnone⟩ | hyes
      · exact absurd (by rw [hyes, hnone]; rfl) hqueue
      · exact hyes
    have hperm : (r :: s.places).Perm
        (State.places { s with writeQueue := s.writeQueue ++ [r] }) := by
      refine List.perm_iff_count.2 fun a => ?_
      simp only [State.places, State.others, List.count_append, List.count_cons, List.count_nil]
      omega
    have hlisted' := hadd.of_perm hperm
    have hcounted' := hraise.of_perm hperm
    rw [if_pos hforwarded]
    refine inv_holder (s := { s with
      totalCharsQueued := s.totalCharsQueued + r.chars
      submitted := s.submitted + 1
      tab := s.tab.add r
      writeQueue := s.writeQueue ++ [r] })
      { hlisted' with } { hcounted' with } { h.line with } hne ?_
    intro hh
    rw [hidle] at hh
    rcases hh with hh | ⟨_, hh⟩ <;> cases hh

/-- **An immediate character is started.** -/
theorem Inv.immediateChar (h : Inv s) (hidle : s.holder = .idle) (hbound : s.due + 1 < 2 ^ 32) :
    Inv s.immediateChar := by
  have hne : s.holder ≠ .giveXoff := by
    rw [hidle]
    nofun
  have hlisted := h.listed_places hne
  have hcounted := h.counted_places hne
  unfold State.immediateChar
  split
  next => exact h
  next hnot =>
    obtain ⟨r, hr⟩ : ∃ r : Request, r = ⟨s.submitted, .immediateChar⟩ := ⟨_, rfl⟩
    have hchars : r.chars = 1 := by rw [hr]; rfl
    have hcharge : r.charge = 1 := by rw [hr]; rfl
    rw [State.due, hlisted.lists.due_eq, ← hcharge] at hbound
    have hnone : s.current .immediate = none := by simpa using hnot
    obtain ⟨t, ht⟩ : ∃ t, t = { s.setCurrent .immediate (some r) with
      totalCharsQueued := s.totalCharsQueued + 1
      submitted := s.submitted + 1
      tab := s.tab.add r } := ⟨_, rfl⟩
    have hcurrent : t.current .immediate = some r := by
      rw [ht]
      exact current_setCurrent_self s .immediate (some r)
    have hplaces : t.places = (s.current .write).toList ++ (r :: (s.writeQueue ++
        s.canceledOnQueue)) := by
      rw [ht]
      rfl
    have hperm : (r :: s.places).Perm t.places := by
      rw [hplaces, State.places, State.others, hnone]
      exact List.perm_middle.symm
    have hadd := (hlisted.add (show r.id = s.submitted by rw [hr])).of_perm hperm
    have hraise := (hcounted.raise r hbound).of_perm hperm
    rw [hchars] at hraise
    have hlisted' : Listed t t.places := by
      rw [ht] at hadd ⊢
      refine { hadd with immediate := fun r' hr' => ?_ }
      obtain rfl : r = r' := Option.some.inj hr'
      exact hchars
    have hcounted' : Counted t t.places := by
      rw [ht] at hraise ⊢
      exact { hraise with }
    have hline : Line t := ht ▸ { h.line with }
    dsimp only
    rw [← hr, ← ht, show s.submitted = r.id by rw [hr]]
    exact inv_serialStartImmediate hlisted' hcounted' hline (hlisted'.write_ne hcurrent nofun)

/-! ### The framework and the interrupt -/

/-- The current write is not touched. -/
theorem charged_perm {front : List Request} (hothers : s.others.Perm (front ++ s'.others))
    (hholder : s'.holder = s.holder) (hcurrent : s'.current = s.current) :
    s.charged.Perm (front ++ s'.charged) := by
  unfold State.charged State.places
  rw [hholder, hcurrent]
  split
  · exact hothers
  · exact (hothers.append_left _).trans (List.perm_append_comm_assoc _ _ _)

/-- **A request is canceled in the queue**, and stays charged until the driver is told. -/
theorem Inv.cancelOnQueue (h : Inv s) (hr : r ∈ s.writeQueue) :
    Inv { s with
      writeQueue := s.writeQueue.erase r
      canceledOnQueue := s.canceledOnQueue ++ [r] } := by
  obtain ⟨t, ht⟩ : ∃ t, t = { s with
    writeQueue := s.writeQueue.erase r
    canceledOnQueue := s.canceledOnQueue ++ [r] } := ⟨_, rfl⟩
  have hperm : s.charged.Perm ([] ++ t.charged) := by
    refine charged_perm (List.perm_iff_count.2 fun a => ?_) (by rw [ht]) (by rw [ht])
    have hcount := (List.perm_cons_erase hr).count_eq a
    rw [ht]
    simp only [State.others, List.nil_append, List.count_append, List.count_cons, List.count_nil]
      at hcount ⊢
    omega
  have hlisted := h.listed.of_perm hperm
  have hcounted := h.counted.of_perm hperm
  rw [ht] at hlisted hcounted
  exact ⟨{ hlisted with }, { hcounted with }, { h.line with }, fun hh => { h.starting hh with },
    fun hh => { h.giveXoff hh with }⟩

/-- **It is told**, and the request is not charged any more. -/
theorem Inv.evtCanceledOnQueue (h : Inv s) (hr : r ∈ s.canceledOnQueue) :
    Inv (s.serialEvtCanceledOnQueue r) := by
  obtain ⟨t, ht⟩ : ∃ t, t = { s with canceledOnQueue := s.canceledOnQueue.erase r } := ⟨_, rfl⟩
  have hperm : s.charged.Perm ([r] ++ t.charged) := by
    refine charged_perm (List.perm_iff_count.2 fun a => ?_) (by rw [ht]) (by rw [ht])
    have hcount := (List.perm_cons_erase hr).count_eq a
    rw [ht]
    simp only [State.others, List.count_append, List.count_cons, List.count_nil] at hcount ⊢
    omega
  have hcharged : (s.serialEvtCanceledOnQueue r).charged = t.charged := by
    rw [ht]
    rfl
  have hlisted := (h.listed.of_perm hperm).complete
  have hcounted := (h.counted.of_perm hperm).lower
  have htouches := Touches.modify s r.id (f := fun c => { c with cancelable := none }) fun _ => rfl
  constructor
  case listed => exact hcharged ▸ { hlisted with }
  case counted => exact hcharged ▸ { hcounted with }
  case line => exact { htouches.line h.line with }
  case starting => exact fun hh => { htouches.fresh (h.starting hh) with }
  case giveXoff => exact fun hh => { htouches.quiet (h.giveXoff hh) with }

/-- **The interrupt sends bytes of the current write.** -/
theorem Inv.transmit (h : Inv s) {n : BitVec 32} (hn : n ≠ 0)
    (hle : n.toNat ≤ s.writeLength.toNat) : Inv (s.transmit n) := by
  have hpos : n.toNat ≠ 0 := fun hzero => hn (BitVec.eq_of_toNat_eq hzero)
  have hne : s.writeLength ≠ 0 := by
    intro hzero
    rw [hzero] at hle
    exact hpos (Nat.le_zero.1 hle)
  obtain ⟨r, hcurrent, hisr, hsum⟩ := h.line.sending hne
  have hsub : (s.writeLength - n).toNat = s.writeLength.toNat - n.toNat :=
    BitVec.toNat_sub_of_le hle
  have hstarting {P : Prop} (hfresh : Quiet s) : P := absurd hfresh.writeLength hne
  have hdpc : s.dpc .write ≠ true := fun hyes => hne (h.line.dpc hyes).1
  have hsent : s.sent + n.toNat + (s.writeLength - n).toNat = r.charge := by
    rw [hsub]
    omega
  unfold State.transmit
  dsimp only
  split
  next hzero =>
    refine ⟨{ h.listed with }, { h.counted with }, ?_, fun hh => hstarting (h.starting hh).toQuiet,
      fun hh => hstarting (h.giveXoff hh)⟩
    constructor
    case sending => exact fun hlength => absurd hzero hlength
    case dpc => exact fun _ => ⟨hzero, r, hcurrent, hisr⟩
    case sent_none => exact fun (hnone : s.current .write = none) =>
      nomatch hnone.symm.trans hcurrent
  next =>
    refine ⟨{ h.listed with }, { h.counted with }, ?_, fun hh => hstarting (h.starting hh).toQuiet,
      fun hh => hstarting (h.giveXoff hh)⟩
    constructor
    case sending => exact fun _ => ⟨r, hcurrent, hisr, hsent⟩
    case dpc => exact fun hyes => absurd hyes hdpc
    case sent_none => exact fun (hnone : s.current .write = none) =>
      nomatch hnone.symm.trans hcurrent

/-- Another DPC is queued. -/
theorem Inv.setDpc_of_ne (h : Inv s) (op : Op) (hop : Op.write ≠ op) (b : Bool) :
    Inv (s.setDpc op b) := by
  have hdpc := dpc_setDpc_of_ne s hop b
  have hquiet (hs : Quiet s) : Quiet (s.setDpc op b) := ⟨hs.writeLength, hdpc.trans hs.dpc⟩
  constructor
  case listed => exact { h.listed with }
  case counted => exact { h.counted with }
  case line =>
    exact ⟨h.line.sending, fun hyes => h.line.dpc (hdpc.symm.trans hyes), h.line.sent_none⟩
  case starting => exact fun hh => ⟨hquiet (h.starting hh).toQuiet, (h.starting hh).sent⟩
  case giveXoff => exact fun hh => hquiet (h.giveXoff hh)

/-- **A byte that is received counts for the XOFF counter**, and not for the writes. -/
theorem Inv.receive (h : Inv s) : Inv s.receive := by
  have hcount (n : Nat) : Inv { s with countSinceXoff := n } :=
    ⟨{ h.listed with }, { h.counted with }, { h.line with }, fun hh => { h.starting hh with },
      fun hh => { h.giveXoff hh with }⟩
  unfold State.receive
  split
  · exact h
  dsimp only
  split
  · exact hcount _
  split
  next => exact (hcount _).fault
  next r _ =>
    have htouches := Touches.modify { s with countSinceXoff := s.countSinceXoff - 1 } r.id
      (f := fun c => { c with status := .success }) fun _ => rfl
    exact (htouches.inv (hcount _)).setDpc_of_ne .xoff nofun true

/-! ### `GET_COMMSTATUS` -/

/-- **What is reported is what is charged, less what has been sent.** -/
theorem Inv.amountInOutQueue (h : Inv s) (hidle : s.holder = .idle) (hok : Ok s .getCommStatus) :
    s.amountInOutQueue.toNat + s.sent = s.due := by
  have hne : s.holder ≠ .giveXoff := by
    rw [hidle]
    nofun
  have htotal := h.sound.total
  unfold State.amountInOutQueue
  split
  next hnone => rw [htotal, h.line.sent_none hnone, Nat.add_zero]
  next r hcurrent =>
    have hok := hok r hcurrent
    split
    next hzero =>
      rw [if_pos hzero] at hok
      rw [htotal, hok, Nat.add_zero]
    next hlength =>
      rw [if_neg hlength] at hok
      obtain ⟨r', hcurrent', -, hsum⟩ := h.line.sending hlength
      obtain rfl : r = r' := Option.some.inj (hcurrent.symm.trans hcurrent')
      rw [Request.charge, chars_of_isWrite hok] at hsum
      have hsub : (r.length - s.writeLength).toNat = s.sent := by
        rw [BitVec.toNat_sub_of_le (BitVec.le_def.2 (by omega))]
        omega
      have hle : s.sent ≤ s.totalCharsQueued.toNat := by
        rw [(h.counted_places hne).total, State.places, hcurrent]
        show _ ≤ r.charge + _
        rw [Request.charge, chars_of_isWrite hok]
        omega
      rw [BitVec.toNat_sub_of_le (BitVec.le_def.2 (hsub.trans_le hle)), hsub, ← htotal]
      omega

theorem Inv.getCommStatus (h : Inv s) (hidle : s.holder = .idle) (hok : Ok s .getCommStatus) :
    Inv s.getCommStatus := by
  have hamount := h.amountInOutQueue hidle hok
  refine ⟨{ h.listed with }, { h.counted with reports := fun p hp => ?_ }, { h.line with },
    fun hh => { h.starting hh with }, fun hh => { h.giveXoff hh with }⟩
  rcases List.mem_append.1 hp with hold | hlast
  · exact h.counted.reports p hold
  · rw [List.mem_singleton.1 hlast]
    exact hamount

/-! ### The runs -/

theorem Inv.effect (h : Inv s) (a : Action) (henabled : enabled s a) (hok : Ok s a) :
    Inv (effect s a) := by
  cases a with
  | write length queueIdle forwarded => exact h.startOrQueue henabled.1 hok.1 hok.2
  | xoffCounter counter timeout queueIdle forwarded =>
    exact h.startOrQueue henabled.1 hok.1 hok.2
  | immediateChar => exact h.immediateChar henabled hok
  | getCommStatus => exact h.getCommStatus henabled hok
  | purge =>
    have hne : s.holder ≠ .giveXoff := by
      rw [show s.holder = .idle from henabled]
      nofun
    exact inv_serialPurgeRequests (s := { s with purging := true }) { h.listed_places hne with }
      { h.counted_places hne with } { h.line with } .write
  | commError =>
    have hne : s.holder ≠ .giveXoff := by
      rw [show s.holder = .idle from henabled]
      nofun
    exact inv_serialPurgeRequests (h.listed_places hne) (h.counted_places hne) h.line .write
  | setTimeouts useATimer =>
    exact ⟨{ h.listed with }, { h.counted with }, { h.line with },
      fun hh => { h.starting hh with }, fun hh => { h.giveXoff hh with }⟩
  | advance => exact h.advance
  | transmit n => exact h.transmit henabled.1 henabled.2
  | transmitImmediate =>
    have hinv : Inv { s with transmitImmediate := false } :=
      ⟨{ h.listed with }, { h.counted with }, { h.line with }, fun hh => { h.starting hh with },
        fun hh => { h.giveXoff hh with }⟩
    exact hinv.setDpc_of_ne .immediate nofun true
  | receive => exact h.receive
  | dpc op => exact h.dpc henabled.1 henabled.2
  | timerFires op => exact (Touches.setTimerState s op ⟨false, true⟩).inv h
  | timeout op =>
    have hinv := (Touches.setTimerState s op { s.timer op with fired := false }).inv h
    exact hinv.tryToCompleteCurrent henabled.1 op (timeoutStatus op) nofun nofun
  | cancel id =>
    have htouches := Touches.modify s id
      (f := fun c => { c with cancelable := none, canceling := c.cancelable }) fun _ => rfl
    exact htouches.inv h
  | cancelRoutine id op =>
    have hinv := (Touches.modify s id (f := fun c => { c with canceling := none })
      fun _ => rfl).inv h
    exact hinv.tryToCompleteCurrent henabled.1 op .cancelled nofun nofun
  | cancelOnQueue r => exact h.cancelOnQueue henabled
  | evtCanceledOnQueue r => exact h.evtCanceledOnQueue henabled

/-- **In runs that meet the condition the count is right**, and what is reported. -/
theorem reach_counted {s : State} (h : machine.Reach Ok s) : Sound s := by
  have hinv : Inv s := by
    refine h.inv_guarded ?_ ?_
    · rintro s rfl
      exact inv_start
    · intro s a hs hok henabled
      exact hs.effect a henabled.2 hok
  exact hinv.sound

/-- Two writes, an XOFF counter and an immediate character. The first write is timed out after three
bytes, the second one is purged, and the counter becomes the current one. -/
theorem counted_run : ∃ s : State, Sound s ∧ s.reports = [⟨9, 12, 3⟩, ⟨7, 7, 0⟩, ⟨1, 1, 0⟩] := by
  obtain ⟨s, hreach, hs⟩ := machine.reach_execOk_any Ok
    [.xoffCounter 1 0 true true, .advance, .transmit 1, .dpc .write, .advance, .setTimeouts true,
      .write 5 true true, .advance, .advance, .write 7 false true, .transmit 3, .getCommStatus,
      .timerFires .write, .timeout .write, .advance, .advance, .getCommStatus, .immediateChar,
      .advance, .purge, .advance, .advance, .getCommStatus]
    (s := .start) (p := fun s => s.reports = [⟨9, 12, 3⟩, ⟨7, 7, 0⟩, ⟨1, 1, 0⟩])
    rfl (by decide +kernel)
  exact ⟨s, reach_counted hreach, of_decide_eq_true hs⟩

/-- **An XOFF counter that acts as a write** is reported as two bytes. -/
theorem masquerading_counter : ¬ ∀ s, machine.Reachable s → Sound s := by
  intro h
  obtain ⟨s, hreach, hs⟩ := machine.reach_exec_any
    [.xoffCounter 1 0 true true, .advance, .getCommStatus]
    (s := .start) (p := fun s => s.reports = [⟨2, 1, 0⟩]) rfl (by decide +kernel)
  have hreport := (h s hreach).reports ⟨2, 1, 0⟩ (by simp [of_decide_eq_true hs])
  exact absurd hreport (by decide)

end RpiDrivers.MiniUart.Output
