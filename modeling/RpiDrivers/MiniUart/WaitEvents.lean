import RpiDrivers.MiniUart.WaitMask

/-!
# Waits and events

- `WaitPhase`: where the current wait is, from the mask queue to its completion, and who is going to
  complete it.
- `Inv`: the invariant; `Inv.event` .. `Inv.advance` are its step lemmas.
- `reach_waits`: **runs in which no DPC meets a cancellation are sound**.
- `lost_event`: the DPC meets one, and the wait is completed without its event.
-/

namespace RpiDrivers.MiniUart

open RpiDrivers.Lib State

/-! ## The invariant -/

/-- The interrupt or a new mask has finished the wait. -/
structure Done (s : State) (id : Nat) : Prop where
  information : (s.requests id).information = 4
  shows : Shows (s.requests id).systemBuffer s.ledger.given
  newMask : s.newMask = true → (s.requests id).systemBuffer = 0

/-- Where the current wait is. -/
inductive WaitPhase (s : State) : Prop
  /-- there is none -/
  | free (hwait : s.currentWaitRequest = none) (hloc : s.irpMaskLocation = none)
      (hdpc : s.commWaitDpc = false) (hgiven : s.ledger.given = [])
      (hholder : s.holder ≠ .giveWait ∧ s.holder ≠ .gaveWait ∧ s.holder ≠ .cancelWait ∧
        s.holder ≠ .cancelRundown ∧ s.holder ≠ .completeRundown)
  /-- it is about to be given to the interrupt -/
  | giving (id : Nat) (hwait : s.currentWaitRequest = some id) (hloc : s.irpMaskLocation = none)
      (hisr : (s.requests id).refIsr = false) (hcancel : (s.requests id).refCancel = true)
      (hdpc : s.commWaitDpc = false) (hgiven : s.ledger.given = []) (hnew : s.newMask = false)
      (hholder : s.holder = .giveWait)
  /-- the interrupt has it -/
  | waiting (id : Nat) (hwait : s.currentWaitRequest = some id)
      (hloc : s.irpMaskLocation = some id) (hisr : (s.requests id).refIsr = true)
      (hcancel : (s.requests id).refCancel = true) (hdpc : s.commWaitDpc = false)
      (hgiven : s.ledger.given = []) (hnew : s.newMask = false) (hhistory : s.historyMask = 0)
      (hholder : s.holder ≠ .giveWait ∧ s.holder ≠ .finishedOldWait ∧
        s.holder ≠ .cancelRundown ∧ s.holder ≠ .completeRundown)
  /-- its DPC is queued -/
  | finished (id : Nat) (hwait : s.currentWaitRequest = some id) (hloc : s.irpMaskLocation = none)
      (hisr : (s.requests id).refIsr = true) (hdpc : s.commWaitDpc = true) (hdone : Done s id)
      (hholder : s.holder ≠ .giveWait ∧ s.holder ≠ .completeRundown)
  /-- the cancel routine has taken it from the interrupt -/
  | grabbed (id : Nat) (hwait : s.currentWaitRequest = some id) (hloc : s.irpMaskLocation = none)
      (hisr : (s.requests id).refIsr = false) (hdpc : s.commWaitDpc = false)
      (hgiven : s.ledger.given = []) (hnew : s.newMask = false)
      (hholder : s.holder = .cancelRundown)
  /-- the DPC is about to complete it -/
  | completing (id : Nat) (hwait : s.currentWaitRequest = some id)
      (hloc : s.irpMaskLocation = none) (hisr : (s.requests id).refIsr = false)
      (hdpc : s.commWaitDpc = false) (hdone : Done s id) (hholder : s.holder = .completeRundown)

/-- The mask request that goes with the holder of the lock. -/
def MaskPhase (s : State) : Prop :=
  match s.holder with
  | .startMask => s.currentMaskRequest.isSome = true
  | .finishedOldWait => ∃ id mask, s.currentMaskRequest = some ⟨id, .setWaitMask mask⟩
  | .giveWait | .gaveWait =>
    ∃ id, s.currentMaskRequest = some ⟨id, .waitOnMask⟩ ∧ s.currentWaitRequest = some id
  | .idle | .cancelWait | .cancelRundown | .completeRundown => s.currentMaskRequest = none

structure Inv (s : State) : Prop where
  asserted : s.asserted = true
  wait : WaitPhase s
  mask : MaskPhase s
  maskQueue : s.maskQueue = []
  /-- only the current wait is referenced -/
  references : ∀ id, s.currentWaitRequest ≠ some id →
    (s.requests id).refIsr = false ∧ (s.requests id).refCancel = false
  canceling : ∀ id, (s.requests id).canceling = true → (s.requests id).refCancel = true
  cancelHolder : s.holder = .cancelWait ∨ s.holder = .cancelRundown →
    ∀ id, s.currentWaitRequest = some id → (s.requests id).refCancel = true
  served : ∀ id, s.owners id = if id < s.submitted.length then 1 else 0
  events : s.ledger.Exact
  history : Shows s.historyMask s.ledger.pending
  told : ∀ c ∈ s.completions,
    if c.information = 0 then s.ledger.told c.id = [] else Shows c.mask (s.ledger.told c.id)
  reported : ∀ p ∈ s.ledger.reported, p.2 ∈ s.completions.map (·.id)
  newMask : ∀ c ∈ s.completions, c.newMask = true →
    c.status = .success ∧ c.information = 4 ∧ c.mask = 0

theorem inv_start : Inv .start where
  asserted := rfl
  wait := .free rfl rfl rfl rfl ⟨nofun, nofun, nofun, nofun, nofun⟩
  mask := rfl
  maskQueue := rfl
  references _ _ := ⟨rfl, rfl⟩
  canceling _ h := nomatch h
  cancelHolder _ _ h := nomatch h
  served _ := rfl
  events := .empty
  history := .zero
  told _ hc := nomatch hc
  reported _ hp := nomatch hp
  newMask _ hc := nomatch hc

variable {s : State}

/-- The wait that the interrupt has is told a mask. -/
theorem finish_eq {id : Nat} (hloc : s.irpMaskLocation = some id)
    (hwait : s.currentWaitRequest = some id) (mask : BitVec 32) :
    (s.writeMaskLocation mask).setInformation =
      { s.modify id fun r => { r with systemBuffer := mask, information := 4 } with
        irpMaskLocation := none
        commWaitDpc := true } := by
  unfold writeMaskLocation setInformation State.modify
  rw [hloc]
  dsimp only
  rw [hwait]
  dsimp only
  rw [Function.update_self, Function.update_idem]

/-! ### What the invariant says -/

/-- The interrupt has only the current wait. -/
theorem Inv.location (h : Inv s) (id : Nat) (hloc : s.irpMaskLocation = some id) :
    s.currentWaitRequest = some id := by
  cases h.wait with
  | waiting id' hwait hloc' =>
    rw [hwait, ← hloc', hloc]
  | free _ hnone | giving _ _ hnone | finished _ _ hnone | grabbed _ _ hnone
  | completing _ _ hnone =>
    rw [hnone] at hloc
    cases hloc

/-- **The invariant has the property.** -/
theorem Inv.sound (h : Inv s) : s.Sound where
  asserted := h.asserted
  served := h.served
  location := h.location
  events := h.events
  history := h.history
  given_nil hnone := by
    cases h.wait with
    | free _ _ _ hgiven => exact hgiven
    | giving _ hwait | waiting _ hwait | finished _ hwait | grabbed _ hwait
    | completing _ hwait =>
      rw [hnone] at hwait
      cases hwait
  given id hid hne := by
    cases h.wait with
    | free _ _ _ hgiven | giving _ _ _ _ _ _ hgiven | waiting _ _ _ _ _ _ hgiven
    | grabbed _ _ _ _ _ hgiven => exact absurd hgiven hne
    | finished id' hwait _ _ _ hdone | completing id' hwait _ _ _ hdone =>
      obtain rfl : id' = id := Option.some.inj (hwait.symm.trans hid)
      exact hdone.shows
  told := h.told
  newMask := h.newMask
  finishesOldWait r mask id hholder hmask hloc := by
    have hwait := h.location id hloc
    unfold State.advance serialStartMask serialFinishOldWait
    rw [hholder]
    dsimp only
    rw [hmask]
    dsimp only
    rw [if_pos (by rw [hloc]; rfl), finish_eq hloc hwait]
    exact ⟨rfl, hwait, rfl⟩
  owed id hidle hid := by
    cases h.wait with
    | free hwait =>
      rw [hid] at hwait
      cases hwait
    | waiting id' hwait hloc =>
      exact .inl (hloc.trans (hwait.symm.trans hid))
    | finished _ _ _ _ hdpc => exact .inr hdpc
    | giving _ _ _ _ _ _ _ _ hholder | grabbed _ _ _ _ _ _ _ hholder
    | completing _ _ _ _ _ _ hholder =>
      rw [hidle] at hholder
      cases hholder

/-! ### The context of a request -/

theorem requests_modify_self (id : Nat) (f : RequestContext → RequestContext) :
    (s.modify id f).requests id = f (s.requests id) :=
  Function.update_self ..

theorem requests_modify_of_ne {id i : Nat} (h : i ≠ id) (f : RequestContext → RequestContext) :
    (s.modify id f).requests i = s.requests i :=
  Function.update_of_ne h ..

theorem modify_eq_self {id : Nat} {f : RequestContext → RequestContext}
    (h : f (s.requests id) = s.requests id) : s.modify id f = s := by
  rw [State.modify, h, Function.update_eq_self]

/-- What a change of the context leaves, it leaves for all requests. -/
theorem field_modify {β : Type} (g : RequestContext → β) {f : RequestContext → RequestContext}
    (hf : ∀ r, g (f r) = g r) (id i : Nat) :
    g ((s.modify id f).requests i) = g (s.requests i) := by
  by_cases hi : i = id
  · rw [hi, requests_modify_self, hf]
  · rw [requests_modify_of_ne hi]

/-- Only the current wait is referenced after a change of its context. -/
theorem Inv.modify_references (h : Inv s) {id : Nat} (hwait : s.currentWaitRequest = some id)
    (f : RequestContext → RequestContext) (i : Nat) (hi : s.currentWaitRequest ≠ some i) :
    ((s.modify id f).requests i).refIsr = false ∧
      ((s.modify id f).requests i).refCancel = false := by
  have hne : i ≠ id := fun heq => hi (heq ▸ hwait)
  rw [requests_modify_of_ne hne]
  exact h.references i hi

/-- Who is being canceled has its reference still. -/
theorem Inv.modify_canceling (h : Inv s) (id : Nat) (f : RequestContext → RequestContext)
    (hcancel : ∀ r, (f r).refCancel = r.refCancel) (hcanceling : ∀ r, (f r).canceling = r.canceling)
    (i : Nat) (hi : ((s.modify id f).requests i).canceling = true) :
    ((s.modify id f).requests i).refCancel = true := by
  rw [field_modify RequestContext.canceling hcanceling] at hi
  rw [field_modify RequestContext.refCancel hcancel]
  exact h.canceling i hi

/-! ### The interrupt -/

/-- Events that are kept. -/
theorem Inv.raise (h : Inv s) (bits : BitVec 32)
    (hhistory : s.irpMaskLocation.isSome = true → s.historyMask ||| bits = 0) :
    Inv { s with historyMask := s.historyMask ||| bits, ledger := s.ledger.raise bits } :=
  { h with
    wait := by
      cases h.wait with
      | free hwait hloc hdpc hgiven hholder => exact .free hwait hloc hdpc hgiven hholder
      | giving id hwait hloc hisr hcancel hdpc hgiven hnew hholder =>
        exact .giving id hwait hloc hisr hcancel hdpc hgiven hnew hholder
      | waiting id hwait hloc hisr hcancel hdpc hgiven hnew _ hholder =>
        exact .waiting id hwait hloc hisr hcancel hdpc hgiven hnew
          (hhistory (by rw [hloc]; rfl)) hholder
      | finished id hwait hloc hisr hdpc hdone hholder =>
        exact .finished id hwait hloc hisr hdpc { hdone with } hholder
      | grabbed id hwait hloc hisr hdpc hgiven hnew hholder =>
        exact .grabbed id hwait hloc hisr hdpc hgiven hnew hholder
      | completing id hwait hloc hisr hdpc hdone hholder =>
        exact .completing id hwait hloc hisr hdpc { hdone with } hholder
    events := h.events.raise bits
    history := h.history.or (.occurrences _ bits) }

/-- **The wait that the interrupt has is finished** with a mask that shows what it is given. -/
theorem Inv.finish (h : Inv s) {id : Nat} (hloc : s.irpMaskLocation = some id)
    {mask history : BitVec 32} {newMask : Bool} {ledger : EventLedger Nat}
    (hgiven : Shows mask ledger.given) (hnew : newMask = true → mask = 0) (hevents : ledger.Exact)
    (hhistory : Shows history ledger.pending) (hreported : ledger.reported = s.ledger.reported) :
    Inv { s.modify id fun r => { r with systemBuffer := mask, information := 4 } with
      irpMaskLocation := none
      commWaitDpc := true
      historyMask := history
      newMask := newMask
      ledger := ledger } := by
  have hwait := h.location id hloc
  obtain ⟨f, hf⟩ : ∃ f : RequestContext → RequestContext,
      f = fun r => { r with systemBuffer := mask, information := 4 } := ⟨_, rfl⟩
  have hcancel : ∀ r, (f r).refCancel = r.refCancel := by rw [hf]; exact fun _ => rfl
  have hcanceling : ∀ r, (f r).canceling = r.canceling := by rw [hf]; exact fun _ => rfl
  rw [← hf]
  have htold (i : Nat) : ledger.told i = s.ledger.told i := by
    rw [EventLedger.told, hreported, EventLedger.told]
  refine { h with
    wait := ?_
    references := h.modify_references hwait f
    canceling := h.modify_canceling id f hcancel hcanceling
    cancelHolder := fun hh i hi =>
      (field_modify _ hcancel id i).trans (h.cancelHolder hh i hi)
    events := hevents
    history := hhistory
    told := fun c hc => by
      rw [htold]
      exact h.told c hc
    reported := fun p hp => h.reported p (hreported ▸ hp) }
  cases h.wait with
  | waiting id' hwait' hloc' hisr' _ _ _ _ _ hholder =>
    obtain rfl : id' = id := Option.some.inj (hloc'.symm.trans hloc)
    have hrequest := requests_modify_self (s := s) id' f
    rw [hf] at hrequest
    have hbuffer := congrArg RequestContext.systemBuffer hrequest
    have hisr := congrArg RequestContext.refIsr hrequest
    rw [hf]
    refine .finished id' hwait' rfl (hisr.trans hisr') rfl ?_ ⟨hholder.1, hholder.2.2.2⟩
    exact ⟨congrArg RequestContext.information hrequest, hbuffer.symm ▸ hgiven,
      fun hyes => hbuffer.trans (hnew hyes)⟩
  | free _ hnone | giving _ _ hnone | finished _ _ hnone | grabbed _ _ hnone
  | completing _ _ hnone =>
    rw [hloc] at hnone
    cases hnone

/-- Nothing has been given to it before, and no new mask has finished it. -/
theorem Inv.of_location (h : Inv s) {id : Nat} (hloc : s.irpMaskLocation = some id) :
    s.ledger.given = [] ∧ s.newMask = false := by
  cases h.wait with
  | waiting _ _ _ _ _ _ hgiven hnew => exact ⟨hgiven, hnew⟩
  | free _ hnone | giving _ _ hnone | finished _ _ hnone | grabbed _ _ hnone
  | completing _ _ hnone =>
    rw [hloc] at hnone
    cases hnone

/-- **Events are noted, and given to the wait that the interrupt has.** -/
theorem Inv.event (h : Inv s) (bits : BitVec 32) : Inv (s.event bits) := by
  unfold State.event
  split
  · exact h
  dsimp only
  split
  next hgive =>
    rw [Bool.and_eq_true, Option.isSome_iff_exists] at hgive
    obtain ⟨⟨id, hloc⟩, -⟩ := hgive
    obtain ⟨hgiven, hnew⟩ := h.of_location hloc
    have hwait := h.location id hloc
    have hshows := h.history.or (.occurrences s.ledger.events (bits &&& s.isrWaitMask))
    obtain ⟨t, ht⟩ : ∃ t : State, t = { s with
        historyMask := s.historyMask ||| bits &&& s.isrWaitMask
        ledger := s.ledger.raise (bits &&& s.isrWaitMask) } := ⟨_, rfl⟩
    have hloc' : t.irpMaskLocation = some id := by rw [ht]; exact hloc
    rw [← ht, finish_eq hloc' (by rw [ht]; exact hwait), ht]
    refine h.finish hloc ?_ (fun hyes => ?_) (h.events.raise _).give .zero rfl
    · show Shows _ (s.ledger.given ++ _)
      rw [hgiven]
      exact hshows
    · rw [show s.newMask = true from hyes] at hnew
      cases hnew
  next hkeep =>
    refine h.raise _ fun hloc => ?_
    rw [hloc] at hkeep
    simpa using hkeep

/-! ### Completing requests -/

theorem assert_of_true {b : Bool} (h : b = true) : s.assert b = s := by
  rw [State.assert, h, Bool.and_true]

/-- A mask request that is looked at is nobody else's. -/
theorem Inv.mask_owner (h : Inv s) {r : MaskRequest} (hmask : s.currentMaskRequest = some r)
    (hholder : ¬ (s.holder = .giveWait ∨ s.holder = .gaveWait)) :
    s.currentWaitRequest ≠ some r.id ∧ r.id ∉ s.completions.map (·.id) := by
  have hserved := h.served r.id
  have hone : (s.currentMaskRequest.toList.map (·.id)).count r.id = 1 := by
    rw [hmask]
    simp
  rw [owners, if_neg hholder, hone] at hserved
  have hle : (if r.id < s.submitted.length then 1 else 0) ≤ 1 := by
    split <;> decide
  constructor
  · intro hwait
    rw [if_pos hwait] at hserved
    omega
  · intro hmem
    have hpos := List.count_pos_iff.2 hmem
    omega

/-- The current wait is not completed. -/
theorem Inv.wait_owner (h : Inv s) {id : Nat} (hwait : s.currentWaitRequest = some id) :
    id ∉ s.completions.map (·.id) := by
  have hserved := h.served id
  rw [owners, if_pos hwait] at hserved
  have hle : (if id < s.submitted.length then 1 else 0) ≤ 1 := by
    split <;> decide
  intro hmem
  have hpos := List.count_pos_iff.2 hmem
  omega

/-- Who has not been completed has not been told anything. -/
theorem Inv.told_eq_nil (h : Inv s) {id : Nat} (hid : id ∉ s.completions.map (·.id)) :
    s.ledger.told id = [] := by
  rw [EventLedger.told, List.map_eq_nil_iff]
  refine List.filter_eq_nil_iff.2 fun p hp hpid => hid ?_
  rw [← of_decide_eq_true hpid]
  exact h.reported p hp

/-- **A mask request is completed** without information, and there is no other. -/
theorem Inv.completeMask (h : Inv s) {r : MaskRequest} (hmask : s.currentMaskRequest = some r)
    (hholder : s.holder = .startMask ∨ s.holder = .finishedOldWait) (status : Status) :
    Inv (s.serialCompleteRequest r.id status 0 false).serialGetNextRequest := by
  have hgive : ¬ (s.holder = .giveWait ∨ s.holder = .gaveWait) := by
    rcases hholder with hs | hs <;> rw [hs] <;> decide
  -- the request is not the wait, so the ISR has no reference to it
  obtain ⟨hnotWait, hnew⟩ := h.mask_owner hmask hgive
  obtain ⟨hisr, hcancel⟩ := h.references r.id hnotWait
  have hqueue : (s.serialCompleteRequest r.id status 0 false).maskQueue = [] := h.maskQueue
  unfold serialGetNextRequest
  rw [hqueue]
  dsimp only
  constructor
  case asserted =>
    simp [serialCompleteRequest, h.asserted, hisr, hcancel]
  case wait =>
    cases h.wait with
    | free hwait hloc hdpc hgiven =>
      exact .free hwait hloc hdpc hgiven ⟨nofun, nofun, nofun, nofun, nofun⟩
    | waiting id hwait hloc hisr hcancel hdpc hgiven hnew hhistory =>
      exact .waiting id hwait hloc hisr hcancel hdpc hgiven hnew hhistory
        ⟨nofun, nofun, nofun, nofun⟩
    | finished id hwait hloc hisr hdpc hdone =>
      exact .finished id hwait hloc hisr hdpc { hdone with } ⟨nofun, nofun⟩
    | giving _ _ _ _ _ _ _ _ hh | grabbed _ _ _ _ _ _ _ hh | completing _ _ _ _ _ _ hh =>
      rw [hh] at hholder
      rcases hholder with hs | hs <;> cases hs
  case mask => exact rfl
  case maskQueue => exact rfl
  case references => exact h.references
  case canceling => exact h.canceling
  case cancelHolder => exact fun hh => by rcases hh with hh | hh <;> cases hh
  case served =>
    intro id
    refine Eq.trans ?_ (h.served id)
    simp only [owners, serialCompleteRequest, if_neg hgive, hmask, h.maskQueue, List.map_append,
      List.count_append]
    simp
    omega
  case events => exact h.events
  case history => exact h.history
  case told =>
    intro c hc
    rcases List.mem_append.1 hc with hold | hlast
    · exact h.told c hold
    · obtain rfl := List.mem_singleton.1 hlast
      exact h.told_eq_nil hnew
  case reported =>
    intro p hp
    rw [serialCompleteRequest, List.map_append]
    exact List.mem_append_left _ (h.reported p hp)
  case newMask =>
    intro c hc hyes
    rcases List.mem_append.1 hc with hold | hlast
    · exact h.newMask c hold hyes
    · obtain rfl := List.mem_singleton.1 hlast
      cases hyes

/-! ### `SerialStartMask` -/

/-- A new mask drops events that are not in it. -/
theorem Inv.keep (h : Inv s) {id : Nat} {mask : BitVec 32} (hholder : s.holder = .startMask)
    (hmask : s.currentMaskRequest = some ⟨id, .setWaitMask mask⟩)
    (hloc : s.irpMaskLocation = none) :
    Inv { s with
      historyMask := s.historyMask &&& mask
      isrWaitMask := mask
      ledger := s.ledger.keep mask
      holder := .finishedOldWait } := by
  have hgive : ¬ (s.holder = .giveWait ∨ s.holder = .gaveWait) := by
    rw [hholder]
    decide
  refine { h with
    wait := ?_
    mask := ⟨id, mask, hmask⟩
    cancelHolder := fun hh => by rcases hh with hh | hh <;> cases hh
    served := fun i => ?_
    events := h.events.keep mask
    history := h.history.and mask }
  · cases h.wait with
    | free hwait hloc hdpc hgiven =>
      exact .free hwait hloc hdpc hgiven ⟨nofun, nofun, nofun, nofun, nofun⟩
    | waiting _ _ hsome =>
      rw [hloc] at hsome
      cases hsome
    | finished id hwait hloc hisr hdpc hdone =>
      exact .finished id hwait hloc hisr hdpc { hdone with } ⟨nofun, nofun⟩
    | giving _ _ _ _ _ _ _ _ hh | grabbed _ _ _ _ _ _ _ hh | completing _ _ _ _ _ _ hh =>
      rw [hholder] at hh
      cases hh
  · refine Eq.trans ?_ (h.served i)
    simp [owners, hholder]

/-- **A new mask finishes the wait that the interrupt has.** -/
theorem Inv.setWaitMask (h : Inv s) {id : Nat} {mask : BitVec 32} (hholder : s.holder = .startMask)
    (hmask : s.currentMaskRequest = some ⟨id, .setWaitMask mask⟩) :
    Inv { s.serialFinishOldWait mask with holder := .finishedOldWait } := by
  unfold serialFinishOldWait
  cases hloc : s.irpMaskLocation with
  | none =>
    rw [if_neg (by simp)]
    exact h.keep hholder hmask hloc
  | some id' =>
    obtain ⟨hgiven, -⟩ := h.of_location hloc
    rw [if_pos (show (some id').isSome = true from rfl), finish_eq hloc (h.location id' hloc)]
    have hshows : Shows (0 : BitVec 32) s.ledger.given := by
      rw [hgiven]
      exact .zero
    have hfinish := h.finish hloc hshows (fun (_ : true = true) => rfl) h.events h.history rfl
    exact hfinish.keep hholder hmask rfl

/-- **A wait becomes the current one.** -/
theorem Inv.waitOnMask (h : Inv s) {id : Nat} (hholder : s.holder = .startMask)
    (hmask : s.currentMaskRequest = some ⟨id, .waitOnMask⟩) (hwait : s.currentWaitRequest = none) :
    Inv { s.modify id fun r => { r with refIsr := false, refCancel := true } with
      currentWaitRequest := some id
      newMask := false
      holder := .giveWait } := by
  have hgive : ¬ (s.holder = .giveWait ∨ s.holder = .gaveWait) := by
    rw [hholder]
    decide
  obtain ⟨hnotWait, hnew⟩ := h.mask_owner hmask hgive
  have hrequest := requests_modify_self (s := s) id
    fun r => { r with refIsr := false, refCancel := true }
  have hother {i : Nat} (hi : some id ≠ some i) := requests_modify_of_ne (s := s)
    (show i ≠ id from fun heq => hi (congrArg some heq.symm))
    fun r => { r with refIsr := false, refCancel := true }
  refine { h with
    wait := ?_
    mask := ⟨id, hmask, rfl⟩
    references := fun i hi => ?_
    canceling := fun i hi => ?_
    cancelHolder := fun hh => by rcases hh with hh | hh <;> cases hh
    served := fun i => ?_ }
  · cases h.wait with
    | free _ hloc hdpc hgiven =>
      exact .giving id rfl hloc (congrArg RequestContext.refIsr hrequest)
        (congrArg RequestContext.refCancel hrequest) hdpc hgiven rfl rfl
    | giving _ hsome | waiting _ hsome | finished _ hsome | grabbed _ hsome
    | completing _ hsome =>
      rw [hwait] at hsome
      cases hsome
  · obtain ⟨hisr, hcancel⟩ := h.references i (by rw [hwait]; nofun)
    exact ⟨(congrArg RequestContext.refIsr (hother hi)).trans hisr,
      (congrArg RequestContext.refCancel (hother hi)).trans hcancel⟩
  · by_cases heq : i = id
    · rw [heq]
      exact congrArg RequestContext.refCancel hrequest
    · have hne : some id ≠ some i := fun hsome => heq (Option.some.inj hsome).symm
      have hcanceling := (congrArg RequestContext.canceling (hother hne)).symm.trans hi
      exact (congrArg RequestContext.refCancel (hother hne)).trans (h.canceling i hcanceling)
  · refine Eq.trans ?_ (h.served i)
    simp only [owners, if_neg hgive, hmask, hwait]
    by_cases heq : i = id
    · simp [heq, State.modify]
    · simp [Ne.symm heq, State.modify]

theorem Inv.startMask (h : Inv s) (hholder : s.holder = .startMask) : Inv s.serialStartMask := by
  have hmask := h.mask
  unfold MaskPhase at hmask
  rw [hholder] at hmask
  obtain ⟨⟨id, ioctl⟩, hmask⟩ := Option.isSome_iff_exists.1 hmask
  unfold serialStartMask
  rw [hmask]
  cases ioctl with
  | setWaitMask mask => exact h.setWaitMask hholder hmask
  | waitOnMask =>
    dsimp only
    split
    next => exact h.completeMask hmask (.inl hholder) .invalidParameter
    next hno =>
      rw [Bool.or_eq_true, not_or] at hno
      have hwait : s.currentWaitRequest = none := by simpa using hno.2
      have hloc : s.irpMaskLocation = none := by
        cases h.wait with
        | free _ hloc => exact hloc
        | giving _ hsome | waiting _ hsome | finished _ hsome | grabbed _ hsome
        | completing _ hsome =>
          rw [hwait] at hsome
          cases hsome
      rw [assert_of_true (by simp [State.modify, hloc, hwait])]
      exact h.waitOnMask hholder hmask hwait

/-- After a new mask the request is completed. -/
theorem Inv.finishedOldWait (h : Inv s) (hholder : s.holder = .finishedOldWait) :
    Inv s.advance := by
  have hmask := h.mask
  unfold MaskPhase at hmask
  rw [hholder] at hmask
  obtain ⟨id, mask, hmask⟩ := hmask
  have hloc : s.irpMaskLocation = none := by
    cases h.wait with
    | free _ hloc | finished _ _ hloc => exact hloc
    | waiting _ _ _ _ _ _ _ _ _ hh => exact absurd hholder hh.2.1
    | giving _ _ hloc | grabbed _ _ hloc | completing _ _ hloc => exact hloc
  unfold State.advance
  rw [hholder]
  dsimp only
  rw [hmask]
  dsimp only
  rw [assert_of_true (by rw [hloc]; rfl)]
  exact h.completeMask hmask (.inr hholder) .success

/-! ### `SerialGiveWaitToIsr` -/

/-- A wait that is not finished yet is given a reference of the interrupt. -/
theorem Inv.giving_id (h : Inv s) (hholder : s.holder = .giveWait) :
    ∃ id, s.currentWaitRequest = some id ∧ s.currentMaskRequest = some ⟨id, .waitOnMask⟩ ∧
      s.irpMaskLocation = none ∧ (s.requests id).refIsr = false ∧
      (s.requests id).refCancel = true ∧ s.commWaitDpc = false ∧ s.ledger.given = [] ∧
      s.newMask = false := by
  have hmask := h.mask
  unfold MaskPhase at hmask
  rw [hholder] at hmask
  obtain ⟨id, hmask, hwait⟩ := hmask
  cases h.wait with
  | giving id' hwait' hloc hisr hcancel hdpc hgiven hnew =>
    obtain rfl : id' = id := Option.some.inj (hwait'.symm.trans hwait)
    exact ⟨id', hwait', hmask, hloc, hisr, hcancel, hdpc, hgiven, hnew⟩
  | free hnone =>
    rw [hwait] at hnone
    cases hnone
  | waiting _ _ _ _ _ _ _ _ _ hh | finished _ _ _ _ _ _ hh => exact absurd hholder hh.1
  | grabbed _ _ _ _ _ _ _ hh | completing _ _ _ _ _ _ hh =>
    rw [hholder] at hh
    cases hh

theorem serialGiveWaitToIsr_eq {id : Nat} (hloc : s.irpMaskLocation = none)
    (hisr : (s.requests id).refIsr = false) : s.serialGiveWaitToIsr id =
      if s.historyMask = 0 then
        { s.modify id fun r => { r with refIsr := true } with irpMaskLocation := some id }
      else
        { s.modify id fun r =>
            { r with refIsr := true, systemBuffer := s.historyMask, information := 4 } with
          historyMask := 0
          commWaitDpc := true
          ledger := s.ledger.give } := by
  have hnone : s.irpMaskLocation.isNone = true := by
    rw [hloc]
    rfl
  have hnot : (!(s.requests id).refIsr) = true := by
    rw [hisr]
    rfl
  unfold serialGiveWaitToIsr
  dsimp only
  rw [assert_of_true hnone, assert_of_true hnot]
  show (if s.historyMask = 0 then _ else _) = _
  split
  · rfl
  · unfold State.modify
    dsimp only
    rw [Function.update_self, Function.update_idem]

/-- **The wait is given to the interrupt**, or what has been kept is given to the wait. -/
theorem Inv.giveWait (h : Inv s) (hholder : s.holder = .giveWait) : Inv s.advance := by
  obtain ⟨id, hwait, hmask, hloc, hisr, hcancel, hdpc, hgiven, hnew⟩ := h.giving_id hholder
  have hwaiting : Holder.gaveWait ≠ .giveWait ∧ Holder.gaveWait ≠ .finishedOldWait ∧
      Holder.gaveWait ≠ .cancelRundown ∧ Holder.gaveWait ≠ .completeRundown := by decide
  unfold State.advance
  rw [hholder, hwait]
  dsimp only
  rw [serialGiveWaitToIsr_eq hloc hisr]
  -- the ISR gets the wait, or what it has gathered ends it
  split
  next hhistory =>
    have hrequest := requests_modify_self (s := s) id fun r => { r with refIsr := true }
    have hcancel' := field_modify (s := s) RequestContext.refCancel
      (f := fun r => { r with refIsr := true }) (fun _ => rfl) id
    exact { h with
      wait := .waiting id hwait rfl (congrArg RequestContext.refIsr hrequest)
        ((hcancel' id).trans hcancel) hdpc hgiven hnew hhistory hwaiting
      mask := ⟨id, hmask, hwait⟩
      references := h.modify_references hwait fun r => { r with refIsr := true }
      canceling := h.modify_canceling id (fun r => { r with refIsr := true }) (fun _ => rfl)
        fun _ => rfl
      cancelHolder := fun hh => by rcases hh with hh | hh <;> cases hh
      served := fun i => by
        refine Eq.trans ?_ (h.served i)
        simp [owners, hholder, State.modify] }
  next hhistory =>
    have hrequest := requests_modify_self (s := s) id
      fun r => { r with refIsr := true, systemBuffer := s.historyMask, information := 4 }
    have hbuffer := congrArg RequestContext.systemBuffer hrequest
    have hgive : s.ledger.give.given = s.ledger.pending := by
      rw [EventLedger.give, hgiven]
      rfl
    exact { h with
      wait := .finished id hwait hloc (congrArg RequestContext.refIsr hrequest) rfl
        ⟨congrArg RequestContext.information hrequest, hbuffer.symm ▸ hgive.symm ▸ h.history,
          fun hyes => Bool.noConfusion (hnew.symm.trans hyes)⟩
        ⟨hwaiting.1, hwaiting.2.2.2⟩
      mask := ⟨id, hmask, hwait⟩
      references := h.modify_references hwait
        fun r => { r with refIsr := true, systemBuffer := s.historyMask, information := 4 }
      canceling := h.modify_canceling id
        (fun r => { r with refIsr := true, systemBuffer := s.historyMask, information := 4 })
        (fun _ => rfl) fun _ => rfl
      cancelHolder := fun hh => by rcases hh with hh | hh <;> cases hh
      served := fun i => by
        refine Eq.trans ?_ (h.served i)
        simp [owners, hholder, State.modify]
      events := h.events.give
      history := .zero }

/-- The wait is not a mask request any more. -/
theorem Inv.gaveWait (h : Inv s) (hholder : s.holder = .gaveWait) : Inv s.advance := by
  have hmask := h.mask
  unfold MaskPhase at hmask
  rw [hholder] at hmask
  unfold State.advance
  rw [hholder]
  dsimp only
  unfold serialGetNextRequest
  rw [h.maskQueue]
  dsimp only
  refine { h with
    wait := ?_
    mask := rfl
    maskQueue := rfl
    cancelHolder := fun hh => by rcases hh with hh | hh <;> cases hh
    served := fun i => ?_ }
  · cases h.wait with
    | free _ _ _ _ hh => exact absurd hholder hh.2.1
    | waiting id hwait hloc hisr hcancel hdpc hgiven hnew hhistory =>
      exact .waiting id hwait hloc hisr hcancel hdpc hgiven hnew hhistory
        ⟨nofun, nofun, nofun, nofun⟩
    | finished id hwait hloc hisr hdpc hdone =>
      exact .finished id hwait hloc hisr hdpc { hdone with } ⟨nofun, nofun⟩
    | giving _ _ _ _ _ _ _ _ hh | grabbed _ _ _ _ _ _ _ hh | completing _ _ _ _ _ _ hh =>
      rw [hholder] at hh
      cases hh
  · refine Eq.trans ?_ (h.served i)
    simp [owners, hholder, h.maskQueue]

/-! ### Completing the wait -/

/-- **The current wait is completed**, without references. -/
theorem Inv.completeWait (h : Inv s) {id : Nat} (hwait : s.currentWaitRequest = some id)
    (hholder : s.holder = .cancelRundown ∨ s.holder = .completeRundown)
    (hloc : s.irpMaskLocation = none) (hdpc : s.commWaitDpc = false)
    {f : RequestContext → RequestContext} (hisr : (f (s.requests id)).refIsr = false)
    (hcancel : (f (s.requests id)).refCancel = false)
    (hcanceling : (f (s.requests id)).canceling = false) {status : Status} {information : Nat}
    {ledger : EventLedger Nat} (hevents : ledger.Exact) (hgiven : ledger.given = [])
    (hpending : ledger.pending = s.ledger.pending)
    (htold : if information = 0 then ledger.told id = []
      else Shows (f (s.requests id)).systemBuffer (ledger.told id))
    (hothers : ∀ i, i ≠ id → ledger.told i = s.ledger.told i)
    (hreported : ∀ p ∈ ledger.reported, p ∈ s.ledger.reported ∨ p.2 = id)
    (hnew : s.newMask = true →
      status = .success ∧ information = 4 ∧ (f (s.requests id)).systemBuffer = 0) :
    Inv { (s.modify id f).serialCompleteRequest id status information s.newMask with
      currentWaitRequest := none
      ledger := ledger
      holder := .idle } := by
  -- the holder rules out a request for the mask, and a wait that is being given
  have hmask : s.currentMaskRequest = none := by
    have hmask := h.mask
    unfold MaskPhase at hmask
    rcases hholder with hs | hs <;> rw [hs] at hmask <;> exact hmask
  have hgive : ¬ (s.holder = .giveWait ∨ s.holder = .gaveWait) := by
    rcases hholder with hs | hs <;> rw [hs] <;> decide
  have hrequest := requests_modify_self (s := s) id f
  have hnotCompleted := h.wait_owner hwait
  constructor
  case asserted =>
    simp [serialCompleteRequest, hisr, hcancel, State.modify, h.asserted]
  case wait => exact .free rfl hloc hdpc hgiven ⟨nofun, nofun, nofun, nofun, nofun⟩
  case mask => exact hmask
  case maskQueue => exact h.maskQueue
  case references =>
    intro i _
    show ((s.modify id f).requests i).refIsr = false ∧
      ((s.modify id f).requests i).refCancel = false
    by_cases heq : i = id
    · rw [heq, hrequest]
      exact ⟨hisr, hcancel⟩
    · rw [requests_modify_of_ne heq]
      exact h.references i fun hi => heq (Option.some.inj (hi.symm.trans hwait))
  case canceling =>
    intro i hi
    have hi : ((s.modify id f).requests i).canceling = true := hi
    show ((s.modify id f).requests i).refCancel = true
    by_cases heq : i = id
    · rw [heq, hrequest, hcanceling] at hi
      cases hi
    · rw [requests_modify_of_ne heq] at hi ⊢
      exact h.canceling i hi
  case cancelHolder => exact fun hh => by rcases hh with hh | hh <;> cases hh
  case served =>
    intro i
    -- the request moves from the current wait to the completions
    refine Eq.trans ?_ (h.served i)
    simp only [owners, serialCompleteRequest, if_neg hgive, hmask, hwait, List.map_append,
      List.count_append]
    by_cases heq : id = i
    · simp [heq, hmask, State.modify]
    · simp [heq, hmask, State.modify]
  case events => exact hevents
  case history =>
    show Shows s.historyMask ledger.pending
    rw [hpending]
    exact h.history
  case told =>
    intro c hc
    rcases List.mem_append.1 hc with hold | hlast
    · -- earlier completions are those of other requests, whose events stay
      have hne : c.id ≠ id := fun heq => hnotCompleted (heq ▸ List.mem_map_of_mem hold)
      rw [hothers c.id hne]
      exact h.told c hold
    · obtain rfl := List.mem_singleton.1 hlast
      dsimp only
      rw [hrequest]
      exact htold
  case reported =>
    intro p hp
    show p.2 ∈ (s.completions ++ [(_ : Completion)]).map Completion.id
    rw [List.map_append, List.mem_append]
    rcases hreported p hp with hold | hid
    · exact .inl (h.reported p hold)
    · exact .inr (List.mem_singleton.2 hid)
  case newMask =>
    intro c hc hyes
    rcases List.mem_append.1 hc with hold | hlast
    · exact h.newMask c hold hyes
    · obtain rfl := List.mem_singleton.1 hlast
      dsimp only
      rw [hrequest]
      exact hnew hyes

/-! ### `SerialCancelWait` -/

theorem serialGrabWaitFromIsr_eq {id : Nat} (hloc : s.irpMaskLocation.isSome = true)
    (hisr : (s.requests id).refIsr = true) : s.serialGrabWaitFromIsr id =
      { s.modify id fun r => { r with systemBuffer := 0, information := 4, refIsr := false } with
        irpMaskLocation := none } := by
  unfold serialGrabWaitFromIsr
  rw [if_pos hloc]
  unfold State.modify
  dsimp only
  rw [assert_of_true (by simp only [Function.update_self]; exact hisr)]
  dsimp only
  rw [Function.update_self, Function.update_idem]

/-- **The cancel routine takes the wait from the interrupt**, unless it is finished. -/
theorem Inv.cancelWait (h : Inv s) (hholder : s.holder = .cancelWait) : Inv s.advance := by
  have hmask := h.mask
  unfold MaskPhase at hmask
  rw [hholder] at hmask
  unfold State.advance
  rw [hholder]
  cases h.wait with
  | waiting id hwait hloc hisr hcancel hdpc hgiven hnew hhistory =>
    rw [hwait]
    dsimp only
    rw [serialGrabWaitFromIsr_eq (by rw [hloc]; rfl) hisr]
    have hrequest := requests_modify_self (s := s) id
      fun r => { r with systemBuffer := 0, information := 4, refIsr := false }
    exact { h with
      wait := .grabbed id hwait rfl (congrArg RequestContext.refIsr hrequest) hdpc hgiven hnew rfl
      mask := hmask
      references := h.modify_references hwait
        fun r => { r with systemBuffer := 0, information := 4, refIsr := false }
      canceling := h.modify_canceling id
        (fun r => { r with systemBuffer := 0, information := 4, refIsr := false })
        (fun _ => rfl) fun _ => rfl
      cancelHolder := fun _ i hi => by
        obtain rfl : id = i := Option.some.inj (hwait.symm.trans hi)
        exact (congrArg RequestContext.refCancel hrequest).trans hcancel
      served := fun i => by
        refine Eq.trans ?_ (h.served i)
        simp [owners, hholder, State.modify] }
  | finished id hwait hloc hisr hdpc hdone =>
    rw [hwait]
    dsimp only
    unfold serialGrabWaitFromIsr
    rw [hloc, if_neg (by simp)]
    exact { h with
      wait := .finished id hwait hloc hisr hdpc { hdone with } ⟨nofun, nofun⟩
      mask := hmask
      cancelHolder := fun _ => h.cancelHolder (.inl hholder)
      served := fun i => by
        refine Eq.trans ?_ (h.served i)
        simp [owners, hholder] }
  | free _ _ _ _ hh => exact absurd hholder hh.2.2.1
  | giving _ _ _ _ _ _ _ _ hh | grabbed _ _ _ _ _ _ _ hh | completing _ _ _ _ _ _ hh =>
    rw [hholder] at hh
    cases hh

theorem completeUnreferenced_of_ref {id : Nat} (hisr : (s.requests id).refIsr = true)
    (status : Status) : s.completeUnreferenced id status = s := by
  unfold completeUnreferenced
  dsimp only
  rw [hisr]
  rfl

theorem completeUnreferenced_eq {id : Nat} (hisr : (s.requests id).refIsr = false)
    (hcancel : (s.requests id).refCancel = false) (status : Status) {information : Nat}
    (hinformation : (if status = .cancelled then 0 else (s.requests id).information) =
      information) : s.completeUnreferenced id status =
        { s.serialCompleteRequest id status information s.newMask with
          currentWaitRequest := none
          ledger := if information = 0 then s.ledger.lose else s.ledger.report id } := by
  unfold completeUnreferenced
  dsimp only
  rw [hisr, hcancel, ← hinformation]
  rfl

/-- **A wait that the cancel routine has taken is canceled**; a finished one is left to its DPC. -/
theorem Inv.cancelRundown (h : Inv s) (hholder : s.holder = .cancelRundown) : Inv s.advance := by
  have hmask := h.mask
  unfold MaskPhase at hmask
  rw [hholder] at hmask
  unfold State.advance
  rw [hholder]
  cases h.wait with
  | grabbed id hwait hloc hisr hdpc hgiven hnew =>
    have hrequest := requests_modify_self (s := s) id
      fun r => { r with refCancel := false, canceling := false }
    rw [hwait]
    dsimp only
    unfold State.cancelRundown
    rw [assert_of_true (h.cancelHolder (.inr hholder) id hwait)]
    dsimp only
    rw [completeUnreferenced_eq ((congrArg RequestContext.refIsr hrequest).trans hisr)
      (congrArg RequestContext.refCancel hrequest) .cancelled rfl]
    -- nothing has been given to the wait, so no event is lost
    have hlose : s.ledger.lose = s.ledger := EventLedger.lose_of_given_eq_nil hgiven
    have hevents : s.ledger.lose.Exact := hlose.symm ▸ h.events
    have htold : s.ledger.lose.told id = [] := h.told_eq_nil (h.wait_owner hwait)
    refine h.completeWait (f := fun r => { r with refCancel := false, canceling := false }) hwait
      (.inl hholder) hloc hdpc hisr rfl rfl hevents rfl rfl ?_ (fun _ _ => rfl)
      (fun _ hp => .inl hp) fun hyes => nomatch hnew.symm.trans hyes
    exact htold
  | finished id hwait hloc hisr hdpc hdone =>
    have hrequest := requests_modify_self (s := s) id
      fun r => { r with refCancel := false, canceling := false }
    rw [hwait]
    dsimp only
    unfold State.cancelRundown
    rw [assert_of_true (h.cancelHolder (.inr hholder) id hwait)]
    dsimp only
    rw [completeUnreferenced_of_ref ((congrArg RequestContext.refIsr hrequest).trans hisr)]
    have hinformation := congrArg RequestContext.information hrequest
    have hbuffer := congrArg RequestContext.systemBuffer hrequest
    exact { h with
      wait := .finished id hwait hloc ((congrArg RequestContext.refIsr hrequest).trans hisr) hdpc
        ⟨hinformation.trans hdone.1, hbuffer.symm ▸ hdone.2,
          fun hyes => hbuffer.trans (hdone.3 hyes)⟩ ⟨nofun, nofun⟩
      mask := hmask
      references := h.modify_references hwait
        fun r => { r with refCancel := false, canceling := false }
      canceling := fun i hi => by
        by_cases heq : i = id
        · rw [heq] at hi
          exact nomatch (congrArg RequestContext.canceling hrequest).symm.trans hi
        · have hother := requests_modify_of_ne (s := s) heq
            fun r => { r with refCancel := false, canceling := false }
          exact (congrArg RequestContext.refCancel hother).trans
            (h.canceling i ((congrArg RequestContext.canceling hother).symm.trans hi))
      cancelHolder := fun hh => by rcases hh with hh | hh <;> cases hh
      served := fun i => by
        refine Eq.trans ?_ (h.served i)
        simp [owners, hholder, State.modify] }
  | free _ _ _ _ hh => exact absurd hholder hh.2.2.2.1
  | waiting _ _ _ _ _ _ _ _ _ hh => exact absurd hholder hh.2.2.1
  | giving _ _ _ _ _ _ _ _ hh | completing _ _ _ _ _ _ hh =>
    rw [hholder] at hh
    cases hh

/-! ### `SerialCompleteWait` -/

/-- The current wait of the DPC is finished. -/
theorem Inv.of_dpc (h : Inv s) (hidle : s.holder = .idle) (hdpc : s.commWaitDpc = true) :
    ∃ id, s.currentWaitRequest = some id ∧ s.irpMaskLocation = none ∧
      (s.requests id).refIsr = true ∧ Done s id := by
  cases h.wait with
  | finished id hwait hloc hisr _ hdone => exact ⟨id, hwait, hloc, hisr, hdone⟩
  | free _ _ hnot | waiting _ _ _ _ _ hnot =>
    rw [hdpc] at hnot
    cases hnot
  | giving _ _ _ _ _ _ _ _ hh | grabbed _ _ _ _ _ _ _ hh | completing _ _ _ _ _ _ hh =>
    rw [hidle] at hh
    cases hh

theorem serialCompleteWait_eq {id : Nat} (hwait : s.currentWaitRequest = some id)
    (hisr : (s.requests id).refIsr = true) : s.serialCompleteWait =
      { s.modify id fun r => { r with refIsr := false } with holder := .completeRundown } := by
  unfold serialCompleteWait
  rw [hwait]
  dsimp only
  rw [assert_of_true hisr]

/-- **The DPC drops the reference of the interrupt.** -/
theorem Inv.dpc (h : Inv s) (hidle : s.holder = .idle) (hdpc : s.commWaitDpc = true) :
    Inv { s with commWaitDpc := false }.serialCompleteWait := by
  have hmask := h.mask
  unfold MaskPhase at hmask
  rw [hidle] at hmask
  obtain ⟨id, hwait, hloc, hisr, hdone⟩ := h.of_dpc hidle hdpc
  have hrequest := requests_modify_self (s := s) id fun r => { r with refIsr := false }
  have hinformation := congrArg RequestContext.information hrequest
  have hbuffer := congrArg RequestContext.systemBuffer hrequest
  rw [serialCompleteWait_eq (s := { s with commWaitDpc := false }) hwait hisr]
  exact { h with
    wait := .completing id hwait hloc (congrArg RequestContext.refIsr hrequest) rfl
      ⟨hinformation.trans hdone.1, hbuffer.symm ▸ hdone.2,
        fun hyes => hbuffer.trans (hdone.3 hyes)⟩ rfl
    mask := hmask
    references := h.modify_references hwait fun r => { r with refIsr := false }
    canceling := h.modify_canceling id (fun r => { r with refIsr := false }) (fun _ => rfl)
      fun _ => rfl
    cancelHolder := fun hh => by rcases hh with hh | hh <;> cases hh
    served := fun i => by
      refine Eq.trans ?_ (h.served i)
      simp [owners, hidle, State.modify] }

/-- Without a cancellation no reference is left, whether the cancel routine has run or not. -/
theorem completeRundown_eq {id : Nat} (hisr : (s.requests id).refIsr = false)
    (hcanceling : (s.requests id).canceling = false) :
    s.completeRundown id =
      { (s.modify id fun r => { r with refCancel := false }).serialCompleteRequest id .success
          (s.requests id).information s.newMask with
        currentWaitRequest := none
        ledger := if (s.requests id).information = 0 then s.ledger.lose
          else s.ledger.report id } := by
  have hrequest := requests_modify_self (s := s) id fun r => { r with refCancel := false }
  unfold State.completeRundown
  dsimp only
  cases hcancel : (s.requests id).refCancel with
  | true =>
    rw [hcanceling, if_pos (by decide), completeUnreferenced_eq
      ((congrArg RequestContext.refIsr hrequest).trans hisr)
      (congrArg RequestContext.refCancel hrequest) .success
      (congrArg RequestContext.information hrequest)]
    rfl
  | false =>
    have hself : { s.requests id with refCancel := false } = s.requests id := by rw [← hcancel]
    rw [if_neg (by simp), completeUnreferenced_eq hisr hcancel .success
      (show _ = (s.requests id).information from rfl), modify_eq_self hself]

/-- **The DPC completes the wait**, and it is told what it was given. -/
theorem Inv.completeRundown (h : Inv s) (hholder : s.holder = .completeRundown)
    (hok : ∀ id ∈ s.currentWaitRequest, (s.requests id).canceling = false) : Inv s.advance := by
  unfold State.advance
  rw [hholder]
  cases h.wait with
  | completing id hwait hloc hisr hdpc hdone =>
    have hcanceling := hok id hwait
    have hnot := h.wait_owner hwait
    have hreported : ∀ p ∈ s.ledger.reported, p.2 ≠ id :=
      fun p hp heq => hnot (heq ▸ h.reported p hp)
    have htold : (s.ledger.report id).told id = s.ledger.given :=
      EventLedger.told_report_self hreported
    rw [hwait]
    dsimp only
    rw [completeRundown_eq hisr hcanceling, hdone.information, if_neg (by decide)]
    refine h.completeWait (f := fun r => { r with refCancel := false }) hwait (.inr hholder) hloc
      hdpc hisr rfl hcanceling (h.events.report id) rfl rfl ?_ ?_ ?_ ?_
    · rw [if_neg (by decide), htold]
      exact hdone.shows
    · intro i hi
      exact EventLedger.told_report_of_ne hi
    · intro p hp
      rcases List.mem_append.1 hp with hold | hlast
      · exact .inl hold
      · obtain ⟨o, -, rfl⟩ := List.mem_map.1 hlast
        exact .inr rfl
    · exact fun hyes => ⟨rfl, rfl, hdone.newMask hyes⟩
  | free _ _ _ _ hh => exact absurd hholder hh.2.2.2.2
  | waiting _ _ _ _ _ _ _ _ _ hh => exact absurd hholder hh.2.2.2
  | finished _ _ _ _ _ _ hh => exact absurd hholder hh.2
  | giving _ _ _ _ _ _ _ _ hh | grabbed _ _ _ _ _ _ _ hh =>
    rw [hholder] at hh
    cases hh

/-! ### The framework -/

/-- **The framework takes a request to be canceled.** -/
theorem Inv.cancel (h : Inv s) {id : Nat} (hcancel : (s.requests id).refCancel = true) :
    Inv (s.modify id fun r => { r with canceling := true }) := by
  have hwait : s.currentWaitRequest = some id := by
    by_contra hne
    rw [(h.references id hne).2] at hcancel
    cases hcancel
  have hrequest := requests_modify_self (s := s) id fun r => { r with canceling := true }
  have hisr := congrArg RequestContext.refIsr hrequest
  have hcancel' := congrArg RequestContext.refCancel hrequest
  have hinformation := congrArg RequestContext.information hrequest
  have hbuffer := congrArg RequestContext.systemBuffer hrequest
  have hdone {i : Nat} (hi : s.currentWaitRequest = some i) (hd : Done s i) :
      Done (s.modify id fun r => { r with canceling := true }) i := by
    obtain rfl : id = i := Option.some.inj (hwait.symm.trans hi)
    exact ⟨hinformation.trans hd.1, hbuffer.symm ▸ hd.2, fun hyes => hbuffer.trans (hd.3 hyes)⟩
  have hfield {β : Type} (g : RequestContext → β) := field_modify (s := s) g
    (f := fun r => { r with canceling := true })
  refine { h with
    wait := ?_
    references := h.modify_references hwait fun r => { r with canceling := true }
    canceling := fun i hi => ?_
    cancelHolder := fun hh i hi =>
      (hfield RequestContext.refCancel (fun _ => rfl) id i).trans (h.cancelHolder hh i hi) }
  · have hfieldIsr := hfield RequestContext.refIsr (fun _ => rfl) id
    have hfieldCancel := hfield RequestContext.refCancel (fun _ => rfl) id
    cases h.wait with
    | free hnone =>
      rw [hwait] at hnone
      cases hnone
    | giving i hi hloc hisr hcancel hdpc hgiven hnew hholder =>
      exact .giving i hi hloc ((hfieldIsr i).trans hisr) ((hfieldCancel i).trans hcancel) hdpc
        hgiven hnew hholder
    | waiting i hi hloc hisr hcancel hdpc hgiven hnew hhistory hholder =>
      exact .waiting i hi hloc ((hfieldIsr i).trans hisr) ((hfieldCancel i).trans hcancel) hdpc
        hgiven hnew hhistory hholder
    | finished i hi hloc hisr hdpc hd hholder =>
      exact .finished i hi hloc ((hfieldIsr i).trans hisr) hdpc (hdone hi hd) hholder
    | grabbed i hi hloc hisr hdpc hgiven hnew hholder =>
      exact .grabbed i hi hloc ((hfieldIsr i).trans hisr) hdpc hgiven hnew hholder
    | completing i hi hloc hisr hdpc hd hholder =>
      exact .completing i hi hloc ((hfieldIsr i).trans hisr) hdpc (hdone hi hd) hholder
  · by_cases heq : i = id
    · rw [heq]
      exact hcancel'.trans hcancel
    · rw [requests_modify_of_ne heq] at hi ⊢
      exact h.canceling i hi

/-- **It calls the cancel routine.** -/
theorem Inv.cancelRoutine (h : Inv s) {id : Nat} (hidle : s.holder = .idle)
    (hcanceling : (s.requests id).canceling = true) : Inv { s with holder := .cancelWait } := by
  have hmask := h.mask
  unfold MaskPhase at hmask
  rw [hidle] at hmask
  have hcancel := h.canceling id hcanceling
  have hwait : s.currentWaitRequest = some id := by
    by_contra hne
    rw [(h.references id hne).2] at hcancel
    cases hcancel
  refine { h with
    wait := ?_
    mask := hmask
    cancelHolder := fun _ i hi => ?_
    served := fun i => ?_ }
  · cases h.wait with
    | free hnone =>
      rw [hwait] at hnone
      cases hnone
    | waiting i hi hloc hisr hcancel hdpc hgiven hnew hhistory =>
      exact .waiting i hi hloc hisr hcancel hdpc hgiven hnew hhistory ⟨nofun, nofun, nofun, nofun⟩
    | finished i hi hloc hisr hdpc hd =>
      exact .finished i hi hloc hisr hdpc { hd with } ⟨nofun, nofun⟩
    | giving _ _ _ _ _ _ _ _ hh | grabbed _ _ _ _ _ _ _ hh | completing _ _ _ _ _ _ hh =>
      rw [hidle] at hh
      cases hh
  · obtain rfl : id = i := Option.some.inj (hwait.symm.trans hi)
    exact hcancel
  · refine Eq.trans ?_ (h.served i)
    simp [owners, hidle]

/-- **A request for the mask queue is started.** -/
theorem Inv.submit (h : Inv s) (hidle : s.holder = .idle) (ioctl : MaskIoctl) :
    Inv (s.serialStartOrQueue ⟨s.submitted.length, ioctl⟩) := by
  have hmask := h.mask
  unfold MaskPhase at hmask
  rw [hidle] at hmask
  unfold serialStartOrQueue
  dsimp only
  rw [if_pos (by simp [h.maskQueue, hmask])]
  refine { h with
    wait := ?_
    mask := rfl
    cancelHolder := fun hh => by rcases hh with hh | hh <;> cases hh
    served := fun i => ?_ }
  · cases h.wait with
    | free hwait hloc hdpc hgiven =>
      exact .free hwait hloc hdpc hgiven ⟨nofun, nofun, nofun, nofun, nofun⟩
    | waiting i hi hloc hisr hcancel hdpc hgiven hnew hhistory =>
      exact .waiting i hi hloc hisr hcancel hdpc hgiven hnew hhistory ⟨nofun, nofun, nofun, nofun⟩
    | finished i hi hloc hisr hdpc hd =>
      exact .finished i hi hloc hisr hdpc { hd with } ⟨nofun, nofun⟩
    | giving _ _ _ _ _ _ _ _ hh | grabbed _ _ _ _ _ _ _ hh | completing _ _ _ _ _ _ hh =>
      rw [hidle] at hh
      cases hh
  · have hserved := h.served i
    simp only [owners, hidle, hmask, h.maskQueue] at hserved
    simp only [owners, h.maskQueue, List.length_append, List.length_singleton]
    by_cases heq : i = s.submitted.length
    · subst heq
      rw [if_neg (Nat.lt_irrefl _)] at hserved
      simp at hserved
      simp [hserved]
    · have hlt : i < s.submitted.length + 1 ↔ i < s.submitted.length := by omega
      simp only [hlt, ← hserved]
      simp [Ne.symm heq]

/-! ### The runs -/

theorem Inv.advance (h : Inv s) (hok : Ok s .advance) : Inv s.advance := by
  cases hholder : s.holder with
  | idle =>
    unfold State.advance
    rw [hholder]
    exact h
  | startMask =>
    unfold State.advance
    rw [hholder]
    exact h.startMask hholder
  | finishedOldWait => exact h.finishedOldWait hholder
  | giveWait => exact h.giveWait hholder
  | gaveWait => exact h.gaveWait hholder
  | cancelWait => exact h.cancelWait hholder
  | cancelRundown => exact h.cancelRundown hholder
  | completeRundown => exact h.completeRundown hholder (hok hholder)

theorem Inv.effect (h : Inv s) (a : Action) (henabled : enabled s a) (hok : Ok s a) :
    Inv (effect s a) := by
  cases a with
  | setWaitMask mask => exact h.submit henabled (.setWaitMask mask)
  | waitOnMask => exact h.submit henabled .waitOnMask
  | event bits => exact h.event bits
  | cancel id => exact h.cancel henabled.1
  | cancelRoutine id => exact h.cancelRoutine henabled.1 henabled.2
  | dpc => exact h.dpc henabled.1 henabled.2
  | advance => exact h.advance hok

/-- **Runs in which no DPC meets a cancellation are sound.** -/
theorem reach_waits {s : State} (h : machine.Reach Ok s) : s.Sound := by
  have hinv : Inv s := by
    refine h.inv_guarded ?_ ?_
    · rintro s rfl
      exact inv_start
    · intro s a hs hok henabled
      exact hs.effect a henabled hok
  exact hinv.sound

/-- Two events and a new mask, with two waits. -/
theorem waits_run : ∃ s : State, s.Sound ∧
    s.completions = [⟨0, .success, 0, 0, false⟩, ⟨1, .success, 4, 1, false⟩,
      ⟨3, .success, 0, 0, false⟩, ⟨2, .success, 4, 0, true⟩] := by
  obtain ⟨s, hreach, hs⟩ := machine.reach_execOk_any Ok
    [.setWaitMask 1, .advance, .advance, .event 1, .waitOnMask, .advance, .advance, .advance, .dpc,
      .advance, .waitOnMask, .advance, .advance, .advance, .setWaitMask 2, .advance, .advance, .dpc,
      .advance]
    (s := .start) (p := fun s => s.completions = [⟨0, .success, 0, 0, false⟩,
      ⟨1, .success, 4, 1, false⟩, ⟨3, .success, 0, 0, false⟩, ⟨2, .success, 4, 0, true⟩])
    rfl (by decide +kernel)
  exact ⟨s, reach_waits hreach, of_decide_eq_true hs⟩

/-- **The DPC meets a cancellation**: the wait that has been given the event is canceled, and the
event is nowhere. -/
theorem lost_event : ¬ ∀ s, machine.Reachable s → s.Sound := by
  intro h
  obtain ⟨s, hreach, hs⟩ := machine.reach_exec_any
    [.setWaitMask 1, .advance, .advance, .waitOnMask, .advance, .advance, .advance, .event 1,
      .cancel 1, .dpc, .advance, .cancelRoutine 1, .advance, .advance]
    (s := .start) (p := fun s => s.ledger.occurred = [⟨0, 0⟩] && s.ledger.pending = [] &&
      s.ledger.given = [] && s.ledger.reported = [] && s.ledger.dropped = [] &&
      s.completions.getLast? = some ⟨1, .cancelled, 0, 1, false⟩)
    rfl (by decide +kernel)
  simp only [Bool.and_eq_true, decide_eq_true_eq] at hs
  obtain ⟨⟨⟨⟨⟨hoccurred, hpending⟩, hgiven⟩, hreported⟩, hdropped⟩, -⟩ := hs
  have hcount := (h s hreach).events.count_eq ⟨0, 0⟩
  rw [hoccurred, hpending, hgiven, hreported, hdropped] at hcount
  exact absurd hcount (by decide)

end RpiDrivers.MiniUart
