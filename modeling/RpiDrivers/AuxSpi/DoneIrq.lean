import RpiDrivers.AuxSpi.Ownership

/-!
# The done interrupt of the AUX SPI (`bcmauxspi.cpp`)

The four callbacks that start a transfer mark the request cancelable and then write the enable bit
of the done interrupt. The ISR and `EvtRequestCancel` clear it. The cancel callback can run before
the start path has written the bit.

- `IrqOwned`: the done interrupt is enabled only for the request that the controller owns, with its
  transfer set up, neither completed nor cancelled; and so it is when the start path comes to
  enabling it.
- `irqOwned_of_unclaimed`: **runs in which nobody takes the request from a start path, and no DPC
  takes one whose interrupt is enabled, keep to that**.
- `irq_without_request`: a cancellation before the start path enables the interrupt.
-/

namespace RpiDrivers.AuxSpi

open RpiDrivers.Lib

/-! ## The property and the condition -/

/-- The controller owns its current request, whose transfer has been set up. -/
structure Controller.OwnsCurrent (s : Controller) (r : Nat) : Prop where
  spbRequest : s.spbRequest = some r
  last : r + 1 = s.presented
  notCompleted : r ∉ s.completed
  notCancelled : s.mark r = .marked ∨ s.mark r = .cancelling
  setUp : s.transferState ≠ .invalid

/-- The done interrupt is enabled only for the current request, and a start path that is about to
enable it finds it disabled, and that request there. -/
structure IrqOwned (s : Controller) : Prop where
  enabled : s.doneIrq = true → ∃ r, s.OwnsCurrent r
  starting : .enableIrq ∈ s.running → s.doneIrq = false ∧ ∃ r, s.OwnsCurrent r

/-- The step belongs to the start of a transfer. -/
def CallbackStep.isStart : CallbackStep → Bool
  | .markCancelable _ | .startAbort _ | .startComplete _ | .enableIrq => true
  | _ => false

/-- The condition: the cancel callback takes no request from a start path that is about to enable
the interrupt, and a DPC takes one only with the interrupt disabled and no start path under way. -/
def Unclaimed (s : Controller) : AuxAction → Prop
  | .evtRequestCancel _ => s.spbRequest.isSome = true → .enableIrq ∉ s.running
  | .run .dpcExchange => s.spbRequest.isSome = true →
      s.doneIrq = false ∧ ∀ p ∈ s.running, p.isStart = false
  | _ => True

instance (s : Controller) (a : AuxAction) : Decidable (Unclaimed s a) := by
  unfold Unclaimed
  split <;> infer_instance

/-! ## The invariant -/

/-- A start path that will enable the interrupt. -/
def CallbackStep.starting : CallbackStep → Nat
  | .markCancelable _ | .enableIrq => 1
  | _ => 0

/-- Start paths that will enable the interrupt, and the interrupt itself. -/
def Controller.armed (s : Controller) : Nat :=
  total CallbackStep.starting s.running + s.doneIrq.toNat

/-- The step is one of a request that has not been completed. -/
def CallbackStep.affects (r : Nat) : CallbackStep → Bool
  | .markCancelable r' | .startAbort r' | .dpcFinish r' | .cancelAbort r' => r' = r
  | _ => false

/-- The step comes when the request cannot be cancelled any more. -/
def CallbackStep.isPast (r : Nat) : CallbackStep → Bool
  | .startAbort r' | .startComplete r' | .dpcFinish r' | .dpcComplete r' | .cancelAbort r'
  | .cancelComplete r' => r' = r
  | _ => false

/-- The request is marked, and its cancel callback has not been called. -/
def Controller.Cancelable (s : Controller) (r : Nat) : Prop :=
  s.mark r = .marked ∨ s.mark r = .cancelling

/-- What every state of such a run satisfies. -/
structure IrqInv (s : Controller) : Prop where
  earlier : ∀ r, r + 1 < s.presented → r ∈ s.completed
  fresh : ∀ r, s.presented ≤ r →
    r ∉ s.completed ∧ s.mark r = .unmarked ∧ total (CallbackStep.owns r) s.running = 0
  /-- a request that is not completed has one owner at most -/
  single : ∀ r, r ∉ s.completed → total (CallbackStep.owns r) s.running + s.live r ≤ 1
  settled : ∀ r ∈ s.completed, ¬ s.Cancelable r
  undone : ∀ p ∈ s.running, ∀ r, p.affects r = true → r ∉ s.completed
  past : ∀ p ∈ s.running, ∀ r, p.isPast r = true → ¬ s.Cancelable r
  held : ∀ r, s.Cancelable r → s.spbRequest = none ∨ s.spbRequest = some r
  lone : ∀ r, s.spbRequest = some r → r ∉ s.completed →
    s.Cancelable r ∨ ∃ p ∈ s.running, p.isStart = true ∧ p.owns r = 1
  /-- one start path, or the interrupt -/
  armed_le : s.armed ≤ 1
  current : 0 < s.armed → ∃ r, s.spbRequest = some r ∧ r + 1 = s.presented ∧ r ∉ s.completed ∧
    s.transferState ≠ .invalid ∧
    (.markCancelable r ∈ s.running ∧ s.mark r = .unmarked ∨ s.Cancelable r)

theorem irqInv_init : IrqInv Controller.start where
  earlier r hr := by simp [Controller.start] at hr
  fresh r _ := ⟨(fun h => by cases h), rfl, rfl⟩
  single r _ := by simp [Controller.start, Controller.live]
  settled r hr := by cases hr
  undone p hp := by cases hp
  past p hp := by cases hp
  held r _ := .inl rfl
  lone r hr := by cases hr
  armed_le := by simp [Controller.armed, Controller.start]
  current h := by simp [Controller.armed, Controller.start] at h

theorem live_of_cancelable {s : Controller} {r : Nat} (hspb : s.spbRequest = some r)
    (h : s.Cancelable r) : s.live r = 1 :=
  if_pos ⟨hspb, h⟩

/-- Two operations of a pool count twice. -/
theorem two_le_total (f : CallbackStep → Nat) {pool : List CallbackStep} {p q : CallbackStep}
    (hp : p ∈ pool) (hq : q ∈ pool) (hne : q ≠ p) (hpf : f p = 1) (hqf : f q = 1) :
    2 ≤ total f pool := by
  have hsum := sum_advance f hp []
  have hrest : q ∈ advance pool p [] := mem_advance_of_ne hq hne
  have hle := le_total f hrest
  rw [total_nil] at hsum
  omega

namespace IrqInv

variable {s : Controller}

/-- What is owned has been presented. -/
theorem presented_of_owns (h : IrqInv s) {p : CallbackStep} (hp : p ∈ s.running) {r : Nat}
    (hr : p.owns r = 1) : r < s.presented := by
  by_contra hlt
  have hzero := (h.fresh r (by omega)).2.2
  have hle := le_total (CallbackStep.owns r) hp
  omega

/-- A request that is presented and not completed is the last one. -/
theorem last_of (h : IrqInv s) {r : Nat} (hlt : r < s.presented) (hr : r ∉ s.completed) :
    r + 1 = s.presented := by
  by_contra hne
  exact hr (h.earlier r (by omega))

/-- An owner of a request that is not completed leaves no place for another one. -/
theorem sole (h : IrqInv s) {p q : CallbackStep} {r : Nat} (hp : p ∈ s.running)
    (hpr : p.owns r = 1) (hr : r ∉ s.completed) (hq : q ∈ s.running) (hqr : q.owns r = 1) :
    q = p := by
  by_contra hne
  have hle := two_le_total (CallbackStep.owns r) hp hq hne hpr hqr
  have hsingle := h.single r hr
  omega

theorem not_live (h : IrqInv s) {p : CallbackStep} {r : Nat} (hp : p ∈ s.running)
    (hpr : p.owns r = 1) (hr : r ∉ s.completed) : s.live r = 0 := by
  have hle := le_total (CallbackStep.owns r) hp
  have hsingle := h.single r hr
  omega

/-- While a callback other than the start owns a request that is not completed, nothing is armed. -/
theorem not_armed (h : IrqInv s) {p : CallbackStep} {r : Nat} (hp : p ∈ s.running)
    (hpr : p.owns r = 1) (hr : r ∉ s.completed) (hne : p ≠ .markCancelable r) : s.armed = 0 := by
  by_contra hpos
  obtain ⟨r', hspb, hlast, hr', -, howner⟩ := h.current (by omega)
  have hcur := h.last_of (h.presented_of_owns hp hpr) hr
  obtain rfl : r = r' := by omega
  rcases howner with ⟨hmark, -⟩ | hcancelable
  · exact hne (h.sole hmark (if_pos rfl) hr hp hpr)
  · have hlive := h.not_live hp hpr hr
    rw [live_of_cancelable hspb hcancelable] at hlive
    cases hlive

/-- When everything presented is completed, nothing is armed. -/
theorem idle (h : IrqInv s) (hen : ∀ r < s.presented, r ∈ s.completed) : s.armed = 0 := by
  by_contra hpos
  obtain ⟨r, -, hlast, hr, -⟩ := h.current (by omega)
  exact hr (hen r (by omega))

/-- A callback goes on, and the transfer state may change when nothing is armed. -/
theorem goOn (h : IrqInv s) {p : CallbackStep} {next : Option CallbackStep} {t : TransferState}
    (hp : p ∈ s.running) (hstate : t = s.transferState ∨ s.armed = 0)
    (howns : ∀ r, total (CallbackStep.owns r) next.toList ≤ p.owns r)
    (hstarting : total CallbackStep.starting next.toList ≤ p.starting)
    (hmark : ∀ r, p = .markCancelable r → total CallbackStep.starting next.toList = 0)
    (hundone : ∀ q ∈ next.toList, ∀ r, q.affects r = true → r ∉ s.completed)
    (hpast : ∀ q ∈ next.toList, ∀ r, q.isPast r = true → ¬ s.Cancelable r)
    (hlone : p.isStart = true → ∀ r, p.owns r = 1 →
      ∃ q ∈ next.toList, q.isStart = true ∧ q.owns r = 1) :
    IrqInv { s.goOn p next with transferState := t } := by
  have hsum := fun r => sum_advance (CallbackStep.owns r) hp next.toList
  have harmed := sum_advance CallbackStep.starting hp next.toList
  have hle := h.armed_le
  have hmem : ∀ {q}, q ∈ advance s.running p next.toList → q ∈ next.toList ∨ q ∈ s.running :=
    mem_advance
  have harmed' : Controller.armed { s.goOn p next with transferState := t } =
      total CallbackStep.starting (advance s.running p next.toList) + s.doneIrq.toNat := rfl
  have hbefore : s.armed = total CallbackStep.starting s.running + s.doneIrq.toNat := rfl
  refine ⟨h.earlier, fun r hr => ?_, fun r hr => ?_, h.settled, fun q hq r hqr => ?_,
    fun q hq r hqr => ?_, h.held, fun r hspb hr => ?_, ?_, fun hpos => ?_⟩
  · obtain ⟨hnot, hunmarked, hzero⟩ := h.fresh r hr
    refine ⟨hnot, hunmarked, ?_⟩
    show total (CallbackStep.owns r) (advance s.running p next.toList) = 0
    have hle := howns r
    have hsumr := hsum r
    omega
  · have hsingle := h.single r hr
    have hle := howns r
    have hsumr := hsum r
    show total (CallbackStep.owns r) (advance s.running p next.toList) + s.live r ≤ 1
    omega
  · exact (hmem hq).elim (fun hq => hundone q hq r hqr) fun hq => h.undone q hq r hqr
  · exact (hmem hq).elim (fun hq => hpast q hq r hqr) fun hq => h.past q hq r hqr
  · refine (h.lone r hspb hr).imp_right ?_
    rintro ⟨q, hq, hstart, hqr⟩
    -- a start that goes on is still a start
    by_cases heq : q = p
    · subst heq
      obtain ⟨q', hq', hstart', hqr'⟩ := hlone hstart r hqr
      exact ⟨q', List.mem_append_left _ hq', hstart', hqr'⟩
    · exact ⟨q, mem_advance_of_ne hq heq, hstart, hqr⟩
  · rw [harmed']
    omega
  · rw [harmed'] at hpos
    have hwas : 0 < s.armed := by omega
    obtain ⟨r, hspb, hlast, hr, hset, howner⟩ := h.current hwas
    refine ⟨r, hspb, hlast, hr, ?_, ?_⟩
    · rcases hstate with heq | hzero
      · show t ≠ .invalid
        rw [heq]
        exact hset
      · omega
    · refine howner.imp_left fun ⟨hmarking, hunmarked⟩ => ⟨?_, hunmarked⟩
      refine mem_advance_of_ne hmarking fun heq => ?_
      have hzero := hmark r heq.symm
      subst heq
      have hone : (CallbackStep.markCancelable r).starting = 1 := rfl
      omega

/-- The owner of a request completes it and returns. -/
theorem complete (h : IrqInv s) {p : CallbackStep} {r : Nat} (hp : p ∈ s.running)
    (hpr : ∀ r', p.owns r' = if r = r' then 1 else 0) (hpast : p.isPast r = true)
    (hne : ∀ r', p ≠ .markCancelable r') (hstarting : p.starting = 0) :
    IrqInv ((s.complete r).goOn p none) := by
  have hown : p.owns r = 1 := by rw [hpr, if_pos rfl]
  have hsum := fun r' => sum_advance (CallbackStep.owns r') hp []
  have harmed := sum_advance CallbackStep.starting hp []
  have hle := h.armed_le
  have hnot : ∀ {r'}, r' ∉ s.completed ++ [r] → r' ∉ s.completed ∧ r' ≠ r := fun hr' =>
    ⟨fun hc => hr' (List.mem_append_left _ hc),
      fun hc => hr' (List.mem_append_right _ (List.mem_singleton.2 hc))⟩
  have harmed' : Controller.armed ((s.complete r).goOn p none) =
      total CallbackStep.starting (advance s.running p []) + s.doneIrq.toNat := rfl
  have hbefore : s.armed = total CallbackStep.starting s.running + s.doneIrq.toNat := rfl
  simp only [total_nil] at hsum harmed
  refine ⟨fun r' hr' => List.mem_append_left _ (h.earlier r' hr'), fun r' hr' => ?_,
    fun r' hr' => ?_, fun r' hr' => ?_, fun q hq r' hqr' => ?_, fun q hq => ?_, h.held,
    fun r' hspb hr' => ?_, ?_, fun hpos => ?_⟩
  · obtain ⟨hnew, hunmarked, hzero⟩ := h.fresh r' hr'
    refine ⟨fun hc => ?_, hunmarked, ?_⟩
    · rcases List.mem_append.1 hc with hc | hc
      · exact hnew hc
      · obtain rfl := List.mem_singleton.1 hc
        have hlt := h.presented_of_owns hp hown
        have hge : s.presented ≤ r' := hr'
        omega
    · show total (CallbackStep.owns r') (advance s.running p []) = 0
      have hsumr := hsum r'
      omega
  · have hsingle := h.single r' (hnot hr').1
    have hsumr := hsum r'
    show total (CallbackStep.owns r') (advance s.running p []) + s.live r' ≤ 1
    omega
  · rcases List.mem_append.1 hr' with hr' | hr'
    · exact h.settled r' hr'
    · obtain rfl := List.mem_singleton.1 hr'
      exact h.past p hp r' hpast
  · have hq' : q ∈ s.running := List.mem_of_mem_erase hq
    have hundone := h.undone q hq' r' hqr'
    refine fun hc => ?_
    rcases List.mem_append.1 hc with hc | hc
    · exact hundone hc
    · -- another step that affects the request would be a second owner
      obtain rfl := List.mem_singleton.1 hc
      have hqr : q.owns r' = 1 := by
        cases q <;> simp_all [CallbackStep.affects, CallbackStep.owns]
      have hrest : q ∈ advance s.running p [] := hq
      have hle := le_total (CallbackStep.owns r') hrest
      have hsumr := hsum r'
      have hsingle := h.single r' hundone
      omega
  · exact h.past q (List.mem_of_mem_erase hq)
  · refine (h.lone r' hspb (hnot hr').1).imp_right ?_
    rintro ⟨q, hq, hstart, hqr⟩
    refine ⟨q, mem_advance_of_ne hq fun heq => ?_, hstart, hqr⟩
    rw [heq, hpr, if_neg (Ne.symm (hnot hr').2)] at hqr
    cases hqr
  · rw [harmed']
    omega
  · rw [harmed'] at hpos
    obtain ⟨r', hspb, hlast, hr', hset, howner⟩ := h.current (by omega)
    refine ⟨r', hspb, hlast, fun hc => ?_, hset, ?_⟩
    · rcases List.mem_append.1 hc with hc | hc
      · exact hr' hc
      · obtain rfl := List.mem_singleton.1 hc
        have hzero := h.not_armed hp hown hr' (hne r')
        omega
    · exact howner.imp_left (And.imp_left fun hmarking =>
        mem_advance_of_ne hmarking (Ne.symm (hne r')))

/-! ## Each step -/

theorem startTransfer (h : IrqInv s) (kind : TransferKind)
    (hen : ∀ r < s.presented, r ∈ s.completed) : IrqInv (s.startTransfer kind) := by
  obtain ⟨hnew, hunmarked, -⟩ := h.fresh s.presented (Nat.le_refl _)
  have hnone : ∀ r, ¬ s.Cancelable r := by
    intro r hc
    by_cases hr : r < s.presented
    · exact h.settled r (hen r hr) hc
    · rw [Controller.Cancelable, (h.fresh r (by omega)).2.1] at hc
      rcases hc with hc | hc <;> cases hc
  have hidle := h.idle hen
  have howns : ∀ r, total (CallbackStep.owns r) (s.startTransfer kind).running =
      (if s.presented = r then 1 else 0) + total (CallbackStep.owns r) s.running :=
    fun r => total_cons ..
  have harmed : (s.startTransfer kind).armed = 1 := by
    have htotal : (s.startTransfer kind).armed = 1 + total CallbackStep.starting s.running +
        s.doneIrq.toNat := congrArg (· + _) (total_cons ..)
    have hbefore : s.armed = total CallbackStep.starting s.running + s.doneIrq.toNat := rfl
    omega
  refine ⟨fun r hr => hen r ?_, fun r hr => ?_, fun r hr => ?_, h.settled, fun q hq r hqr => ?_,
    fun q hq r hqr => hnone r, fun r hc => absurd hc (hnone r), fun r hspb hr => ?_,
    Nat.le_of_eq harmed, fun _ => ⟨s.presented, rfl, rfl, hnew, ?_, ?_⟩⟩
  · have hlt : r + 1 < s.presented + 1 := hr
    omega
  · have hge : s.presented + 1 ≤ r := hr
    obtain ⟨hnot, hmark, hzero⟩ := h.fresh r (by omega)
    refine ⟨hnot, hmark, ?_⟩
    rw [howns, hzero, if_neg (by omega)]
  · have hge : s.presented ≤ r := by
      by_contra hlt
      exact hr (hen r (by omega))
    have hlive : (s.startTransfer kind).live r = 0 := if_neg fun hl => hnone r hl.2
    rw [howns, hlive, (h.fresh r hge).2.2]
    split <;> omega
  · rcases List.mem_cons.1 hq with rfl | hq
    · obtain rfl := of_decide_eq_true hqr
      exact hnew
    · exact h.undone q hq r hqr
  · obtain rfl : s.presented = r := Option.some.inj hspb
    exact .inr ⟨_, List.mem_cons_self, rfl, if_pos rfl⟩
  · cases kind with
    | sequence allWritten => cases allWritten <;> exact fun hc => by cases hc
    | read | write | fullDuplex => exact fun hc => by cases hc
  · exact .inl ⟨List.mem_cons_self, hunmarked⟩

theorem answerAtOnce (h : IrqInv s) (hen : ∀ r < s.presented, r ∈ s.completed) :
    IrqInv s.answerAtOnce := by
  have hidle := h.idle hen
  have hnot : ∀ {r}, r ∉ s.completed ++ [s.presented] → r ∉ s.completed :=
    fun hr hc => hr (List.mem_append_left _ hc)
  have hnew := h.fresh s.presented (Nat.le_refl _)
  refine ⟨fun r hr => ?_, fun r hr => ?_, fun r hr => h.single r (hnot hr), fun r hr => ?_,
    fun q hq r hqr hr => ?_, h.past, h.held, fun r hspb hr => h.lone r hspb (hnot hr), h.armed_le,
    fun hpos => ?_⟩
  · have hlt : r + 1 < s.presented + 1 := hr
    exact List.mem_append_left _ (hen r (by omega))
  · have hge : s.presented + 1 ≤ r := hr
    obtain ⟨hr', hmark, hzero⟩ := h.fresh r (by omega)
    refine ⟨fun hc => ?_, hmark, hzero⟩
    rcases List.mem_append.1 hc with hc | hc
    · exact hr' hc
    · obtain rfl := List.mem_singleton.1 hc
      omega
  · rcases List.mem_append.1 hr with hr | hr
    · exact h.settled r hr
    · obtain rfl := List.mem_singleton.1 hr
      show ¬ (s.mark _ = .marked ∨ s.mark _ = .cancelling)
      rw [hnew.2.1]
      exact fun hc => hc.elim (fun hc => by cases hc) fun hc => by cases hc
  · rcases List.mem_append.1 hr with hr | hr
    · exact h.undone q hq r hqr hr
    · obtain rfl := List.mem_singleton.1 hr
      have howns : q.owns s.presented = 1 := by
        cases q <;> simp_all [CallbackStep.affects, CallbackStep.owns]
      have hlt := h.presented_of_owns hq howns
      omega
  · have hsame : s.answerAtOnce.armed = s.armed := rfl
    omega

/-- A step that leaves the requests and the callbacks alone, and at most commits a cancellation. -/
theorem of_same (h : IrqInv s) {s' : Controller} (hpresented : s'.presented = s.presented)
    (hspb : s'.spbRequest = s.spbRequest) (hcompleted : s'.completed = s.completed)
    (hrunning : s'.running = s.running)
    (hunmarked : ∀ r, s.mark r = .unmarked → s'.mark r = .unmarked)
    (hmark : ∀ r, s'.Cancelable r ↔ s.Cancelable r)
    (hirq : s'.doneIrq = s.doneIrq ∨ s'.doneIrq = false)
    (hstate : s'.transferState = s.transferState ∨ s'.transferState ≠ .invalid) : IrqInv s' := by
  have hlive : ∀ r, s'.live r = s.live r := by
    intro r
    have hiff : (s'.spbRequest = some r ∧ s'.Cancelable r) ↔
        (s.spbRequest = some r ∧ s.Cancelable r) := by
      rw [hspb, hmark]
    exact if_congr hiff rfl rfl
  have harmed : s'.armed ≤ s.armed := by
    rw [Controller.armed, Controller.armed, hrunning]
    rcases hirq with heq | hoff
    · rw [heq]
    · rw [hoff, Bool.toNat_false]
      omega
  have hle := h.armed_le
  refine ⟨?_, fun r hr => ?_, fun r hr => ?_, fun r hr => ?_, fun q hq r hqr => ?_,
    fun q hq r hqr => ?_, fun r hc => ?_, fun r hr hr' => ?_, by omega, fun hpos => ?_⟩
  · rw [hpresented, hcompleted]
    exact h.earlier
  · rw [hpresented] at hr
    obtain ⟨hnot, hun, hzero⟩ := h.fresh r hr
    rw [hcompleted, hrunning]
    exact ⟨hnot, hunmarked r hun, hzero⟩
  · rw [hcompleted] at hr
    rw [hrunning, hlive]
    exact h.single r hr
  · rw [hcompleted] at hr
    rw [hmark]
    exact h.settled r hr
  · rw [hrunning] at hq
    rw [hcompleted]
    exact h.undone q hq r hqr
  · rw [hrunning] at hq
    rw [hmark]
    exact h.past q hq r hqr
  · rw [hmark] at hc
    rw [hspb]
    exact h.held r hc
  · rw [hspb] at hr
    rw [hcompleted] at hr'
    rw [hmark, hrunning]
    exact h.lone r hr hr'
  · obtain ⟨r, hr, hlast, hr', hset, howner⟩ := h.current (by omega)
    refine ⟨r, hspb.trans hr, hlast.trans hpresented.symm, hcompleted ▸ hr', ?_, ?_⟩
    · rcases hstate with heq | hne
      · exact heq ▸ hset
      · exact hne
    · rw [hrunning, hmark]
      exact howner.imp_left fun ⟨hmarking, hun⟩ => ⟨hmarking, hunmarked r hun⟩

theorem interrupt (h : IrqInv s) (hen : s.doneIrq = true) (allBytes : Bool) :
    IrqInv (s.interrupt allBytes) := by
  have hpos : 0 < s.armed := by
    rw [Controller.armed, hen]
    exact Nat.succ_pos _
  obtain ⟨-, -, -, -, hset, -⟩ := h.current hpos
  rw [Controller.interrupt]
  cases hstate : s.transferState with
  | invalid => exact absurd hstate hset
  | sequenceReadInit =>
    exact h.of_same rfl rfl rfl rfl (fun _ => id) (fun _ => .rfl) (.inl rfl)
      (.inr fun hc => by cases hc)
  | sequenceWrite =>
    cases allBytes with
    | true | false =>
      exact h.of_same rfl rfl rfl rfl (fun _ => id) (fun _ => .rfl) (.inl rfl)
        (.inr fun hc => by cases hc)
  | write | read | sequenceRead | fullDuplex =>
    cases allBytes with
    | true =>
      exact h.of_same rfl rfl rfl rfl (fun _ => id) (fun _ => .rfl) (.inr rfl)
        (.inr fun hc => by cases hc)
    | false =>
      exact h.of_same rfl rfl rfl rfl (fun _ => id) (fun _ => .rfl) (.inl rfl)
        (.inr fun hc => by cases hc)

theorem cancel (h : IrqInv s) (r : Nat) : IrqInv (s.cancel r) := by
  rw [Controller.cancel]
  split
  · next hmarked =>
    have hmark : ∀ r', r' ≠ r → Function.update s.mark r Cancelability.cancelling r' = s.mark r' :=
      fun r' hne => Function.update_of_ne hne ..
    have hself : Function.update s.mark r Cancelability.cancelling r = .cancelling :=
      Function.update_self ..
    refine h.of_same rfl rfl rfl rfl (fun r' hun => ?_) (fun r' => ?_) (.inl rfl) (.inl rfl)
    · by_cases heq : r' = r
      · rw [heq, hmarked] at hun
        cases hun
      · exact (hmark r' heq).trans hun
    · show (Function.update s.mark r Cancelability.cancelling r' = .marked ∨
        Function.update s.mark r Cancelability.cancelling r' = .cancelling) ↔ _
      by_cases heq : r' = r
      · rw [heq, hself]
        exact ⟨fun _ => .inl hmarked, fun _ => .inr rfl⟩
      · rw [hmark r' heq]
        exact .rfl
  · exact h.of_same rfl rfl rfl rfl (fun _ => id) (fun _ => .rfl) (.inl rfl) (.inl rfl)

theorem dpc (h : IrqInv s) :
    IrqInv { s with dpcQueued := false, running := .dpcExchange :: s.running } := by
  have howns : ∀ r, total (CallbackStep.owns r) (.dpcExchange :: s.running) =
      total (CallbackStep.owns r) s.running := fun r => (total_cons ..).trans (Nat.zero_add _)
  have hstarting : total CallbackStep.starting (.dpcExchange :: s.running) =
      total CallbackStep.starting s.running := (total_cons ..).trans (Nat.zero_add _)
  refine ⟨h.earlier, fun r hr => ?_, fun r hr => ?_, h.settled, fun q hq r hqr => ?_,
    fun q hq r hqr => ?_, h.held, fun r hspb hr => ?_, ?_, fun hpos => ?_⟩
  · obtain ⟨hnot, hun, hzero⟩ := h.fresh r hr
    exact ⟨hnot, hun, (howns r).trans hzero⟩
  · show total (CallbackStep.owns r) (.dpcExchange :: s.running) + s.live r ≤ 1
    rw [howns]
    exact h.single r hr
  · rcases List.mem_cons.1 hq with rfl | hq
    · cases hqr
    · exact h.undone q hq r hqr
  · rcases List.mem_cons.1 hq with rfl | hq
    · cases hqr
    · exact h.past q hq r hqr
  · refine (h.lone r hspb hr).imp_right ?_
    rintro ⟨q, hq, hstart, hqr⟩
    exact ⟨q, List.mem_cons_of_mem _ hq, hstart, hqr⟩
  · show total CallbackStep.starting (.dpcExchange :: s.running) + s.doneIrq.toNat ≤ 1
    rw [hstarting]
    exact h.armed_le
  · have hwas : 0 < total CallbackStep.starting (.dpcExchange :: s.running) + s.doneIrq.toNat :=
      hpos
    rw [hstarting] at hwas
    obtain ⟨r, hspb, hlast, hr, hset, howner⟩ := h.current hwas
    exact ⟨r, hspb, hlast, hr, hset,
      howner.imp_left fun ⟨hmarking, hun⟩ => ⟨List.mem_cons_of_mem _ hmarking, hun⟩⟩

/-- A start path that is about to mark a request has set up the transfer of the current one. -/
theorem marking (h : IrqInv s) {r : Nat} (hp : .markCancelable r ∈ s.running) :
    s.spbRequest = some r ∧ r + 1 = s.presented ∧ r ∉ s.completed ∧
      s.transferState ≠ .invalid := by
  have hr : r ∉ s.completed := h.undone _ hp r (decide_eq_true rfl)
  have hpos : 0 < s.armed := by
    have hle := le_total CallbackStep.starting hp
    have hone : (CallbackStep.markCancelable r).starting = 1 := rfl
    rw [Controller.armed]
    omega
  obtain ⟨r', hspb, hlast, -, hset, -⟩ := h.current hpos
  have hcur := h.last_of (h.presented_of_owns hp (if_pos rfl)) hr
  obtain rfl : r = r' := by omega
  exact ⟨hspb, hlast, hr, hset⟩

theorem mark (h : IrqInv s) {r : Nat} (hp : .markCancelable r ∈ s.running) :
    IrqInv ((s.setMark r .marked).goOn (.markCancelable r) (some .enableIrq)) := by
  obtain ⟨hspb, hlast, hr, hset⟩ := h.marking hp
  have hown : (CallbackStep.markCancelable r).owns r = 1 := if_pos rfl
  have hmark : ∀ r', r' ≠ r → Function.update s.mark r Cancelability.marked r' = s.mark r' :=
    fun r' hne => Function.update_of_ne hne ..
  have hself : Function.update s.mark r Cancelability.marked r = .marked := Function.update_self ..
  have hsum := fun r' => sum_advance (CallbackStep.owns r') hp [.enableIrq]
  have harmed := sum_advance CallbackStep.starting hp [.enableIrq]
  simp only [total_cons, total_nil] at hsum harmed
  have hfree : ∀ r', (CallbackStep.enableIrq).owns r' = 0 := fun r' => rfl
  have hone : (CallbackStep.markCancelable r).starting = 1 := rfl
  have hone' : (CallbackStep.enableIrq).starting = 1 := rfl
  have hle := h.armed_le
  rw [Controller.armed] at hle
  -- the marks of the other requests are as they were
  have hothers : ∀ {t : Controller} {r'}, t.mark = Function.update s.mark r .marked → r' ≠ r →
      (t.Cancelable r' ↔ s.Cancelable r') := by
    intro t r' ht hne
    rw [Controller.Cancelable, ht, hmark r' hne]
    exact .rfl
  refine ⟨h.earlier, fun r' hr' => ?_, fun r' hr' => ?_, fun r' hr' => ?_, fun q hq r' hqr => ?_,
    fun q hq r' hqr => ?_, fun r' hc => ?_, fun r' hspb' hr' => ?_, ?_,
    fun _ => ⟨r, hspb, hlast, hr, hset, .inr (.inl hself)⟩⟩
  · have hge : s.presented ≤ r' := hr'
    obtain ⟨hnot, hun, hzero⟩ := h.fresh r' hge
    refine ⟨hnot, (hmark r' (by omega)).trans hun, ?_⟩
    show total (CallbackStep.owns r') (advance s.running (.markCancelable r) [.enableIrq]) = 0
    have hsumr := hsum r'
    have hzero' := hfree r'
    omega
  · show total (CallbackStep.owns r') (advance s.running (.markCancelable r) [.enableIrq]) +
      Controller.live _ r' ≤ 1
    have hsingle := h.single r' hr'
    have hsumr := hsum r'
    have hzero' := hfree r'
    by_cases heq : r' = r
    · subst heq
      have hlive : ∀ t : Controller, t.live r' ≤ 1 := fun t => by
        rw [Controller.live]
        split <;> omega
      have hle' := hlive ((s.setMark r' .marked).goOn (.markCancelable r') (some .enableIrq))
      omega
    · have hlive : ((s.setMark r .marked).goOn (.markCancelable r) (some .enableIrq)).live r' =
          s.live r' := if_congr (and_congr_right fun _ => hothers rfl heq) rfl rfl
      rw [hlive]
      omega
  · have hne : r' ≠ r := fun hc => hr (hc ▸ hr')
    rw [hothers rfl hne]
    exact h.settled r' hr'
  · rcases mem_advance hq with hq | hq
    · obtain rfl := List.mem_singleton.1 hq
      cases hqr
    · exact h.undone q hq r' hqr
  · rcases mem_advance hq with hq | hq
    · obtain rfl := List.mem_singleton.1 hq
      cases hqr
    · by_cases heq : r' = r
      · -- a step past the request would be a second owner
        subst heq
        have hqr' : q.owns r' = 1 := by
          cases q <;> simp_all [CallbackStep.isPast, CallbackStep.owns]
        obtain rfl := h.sole hp hown hr hq hqr'
        cases hqr
      · rw [hothers rfl heq]
        exact h.past q hq r' hqr
  · by_cases heq : r' = r
    · rw [heq]
      exact .inr hspb
    · rw [hothers rfl heq] at hc
      exact h.held r' hc
  · obtain rfl : r = r' := Option.some.inj (hspb.symm.trans hspb')
    exact .inl (.inl hself)
  · show total CallbackStep.starting (advance s.running (.markCancelable r) [.enableIrq]) +
      s.doneIrq.toNat ≤ 1
    omega

theorem enableIrq (h : IrqInv s) (hp : .enableIrq ∈ s.running) :
    IrqInv { s.goOn .enableIrq none with doneIrq := true } := by
  have hsum := fun r' => sum_advance (CallbackStep.owns r') hp []
  have harmed := sum_advance CallbackStep.starting hp []
  have hfree : ∀ r', (CallbackStep.enableIrq).owns r' = 0 := fun r' => rfl
  have hone : (CallbackStep.enableIrq).starting = 1 := rfl
  simp only [total_nil] at hsum harmed
  have hle := h.armed_le
  have hbefore : s.armed = total CallbackStep.starting s.running + s.doneIrq.toNat := rfl
  refine ⟨h.earlier, fun r hr => ?_, fun r hr => ?_, h.settled, fun q hq r hqr => ?_,
    fun q hq r hqr => ?_, h.held, fun r hspb hr => ?_, ?_, fun _ => ?_⟩
  · obtain ⟨hnot, hun, hzero⟩ := h.fresh r hr
    refine ⟨hnot, hun, ?_⟩
    show total (CallbackStep.owns r) (advance s.running .enableIrq []) = 0
    have hsumr := hsum r
    omega
  · show total (CallbackStep.owns r) (advance s.running .enableIrq []) + s.live r ≤ 1
    have hsingle := h.single r hr
    have hsumr := hsum r
    omega
  · exact h.undone q (List.mem_of_mem_erase hq) r hqr
  · exact h.past q (List.mem_of_mem_erase hq) r hqr
  · refine (h.lone r hspb hr).imp_right ?_
    rintro ⟨q, hq, hstart, hqr⟩
    refine ⟨q, mem_advance_of_ne hq fun heq => ?_, hstart, hqr⟩
    rw [heq] at hqr
    cases hqr
  · show total CallbackStep.starting (advance s.running .enableIrq []) + 1 ≤ 1
    omega
  · obtain ⟨r, hspb, hlast, hr, hset, howner⟩ := h.current (by omega)
    refine ⟨r, hspb, hlast, hr, hset, howner.imp_left fun ⟨hmarking, hun⟩ => ⟨?_, hun⟩⟩
    exact mem_advance_of_ne hmarking fun hc => by cases hc

/-- The DPC takes the request. -/
theorem dpcExchange (h : IrqInv s) (hp : .dpcExchange ∈ s.running)
    (hok : Unclaimed s (.run .dpcExchange)) {r : Nat} (hspb : s.spbRequest = some r) :
    IrqInv { s.goOn .dpcExchange (some (.dpcUnmark r)) with spbRequest := none } := by
  obtain ⟨hoff, hstart⟩ := hok (by rw [hspb]; rfl)
  -- no callback is starting the transfer, so the request is cancelable already
  have hcancelable : r ∉ s.completed → s.Cancelable r := fun hr => by
    rcases h.lone r hspb hr with hc | ⟨q, hq, hq', -⟩
    · exact hc
    · rw [hstart q hq] at hq'
      cases hq'
  have hlt : r < s.presented := by
    by_contra hge
    obtain ⟨hr, hun, -⟩ := h.fresh r (by omega)
    rcases hcancelable hr with hc | hc <;> · rw [hun] at hc; cases hc
  have hzero : total CallbackStep.starting s.running = 0 := total_eq_zero fun q hq => by
    have hq' := hstart q hq
    cases q <;> first | rfl | cases hq'
  have hsum := fun r' => sum_advance (CallbackStep.owns r') hp [.dpcUnmark r]
  have harmed := sum_advance CallbackStep.starting hp [.dpcUnmark r]
  simp only [total_cons, total_nil] at hsum harmed
  have hfree : ∀ r', (CallbackStep.dpcExchange).owns r' = 0 := fun _ => rfl
  have howns : ∀ r', (CallbackStep.dpcUnmark r).owns r' = if r = r' then 1 else 0 := fun _ => rfl
  have hweight : (CallbackStep.dpcUnmark r).starting = 0 := rfl
  have hidle : total CallbackStep.starting (advance s.running .dpcExchange [.dpcUnmark r]) +
      s.doneIrq.toNat = 0 := by
    rw [hoff, Bool.toNat_false]
    omega
  refine ⟨h.earlier, fun r' hr' => ?_, fun r' hr' => ?_, h.settled, fun q hq r' hqr => ?_,
    fun q hq r' hqr => ?_, fun _ _ => .inl rfl, (fun r' hc => by cases hc), ?_, fun hpos => ?_⟩
  · have hge : s.presented ≤ r' := hr'
    obtain ⟨hnot, hun, hnone⟩ := h.fresh r' hge
    refine ⟨hnot, hun, ?_⟩
    show total (CallbackStep.owns r') (advance s.running .dpcExchange [.dpcUnmark r]) = 0
    have hsumr := hsum r'
    rw [howns, if_neg (by omega)] at hsumr
    omega
  · show total (CallbackStep.owns r') (advance s.running .dpcExchange [.dpcUnmark r]) +
      Controller.live _ r' ≤ 1
    have hsingle := h.single r' hr'
    have hsumr := hsum r'
    have hfree' := hfree r'
    have hlive : Controller.live
        { s.goOn .dpcExchange (some (.dpcUnmark r)) with spbRequest := none } r' = 0 :=
      if_neg fun hl => by cases hl.1
    rw [hlive]
    rw [howns] at hsumr
    by_cases heq : r = r'
    · subst heq
      rw [if_pos rfl] at hsumr
      rw [live_of_cancelable hspb (hcancelable hr')] at hsingle
      omega
    · rw [if_neg heq] at hsumr
      omega
  · rcases mem_advance hq with hq | hq
    · obtain rfl := List.mem_singleton.1 hq
      cases hqr
    · exact h.undone q hq r' hqr
  · rcases mem_advance hq with hq | hq
    · obtain rfl := List.mem_singleton.1 hq
      cases hqr
    · exact h.past q hq r' hqr
  · exact Nat.le_trans (Nat.le_of_eq hidle) (Nat.zero_le _)
  · have hpos' : 0 < total CallbackStep.starting (advance s.running .dpcExchange [.dpcUnmark r]) +
        s.doneIrq.toNat := hpos
    omega

/-- The DPC unmarks the request that it has taken. -/
theorem unmark (h : IrqInv s) {r : Nat} (hp : .dpcUnmark r ∈ s.running) (hm : s.mark r = .marked) :
    IrqInv ((s.setMark r .unmarked).goOn (.dpcUnmark r) (some (.dpcFinish r))) := by
  have hown : (CallbackStep.dpcUnmark r).owns r = 1 := if_pos rfl
  have hr : r ∉ s.completed := fun hc => h.settled r hc (.inl hm)
  have hlt := h.presented_of_owns hp hown
  -- the DPC is the only owner of its request, and no interrupt is armed for it
  have hidle := h.not_armed hp hown hr fun hc => by cases hc
  have hspb : s.spbRequest ≠ some r := fun hc => by
    have hlive := h.not_live hp hown hr
    rw [live_of_cancelable hc (.inl hm)] at hlive
    cases hlive
  have hmark : ∀ r', r' ≠ r → Function.update s.mark r Cancelability.unmarked r' = s.mark r' :=
    fun r' hne => Function.update_of_ne hne ..
  have hself : Function.update s.mark r Cancelability.unmarked r = .unmarked :=
    Function.update_self ..
  have hnot : ∀ {t : Controller}, t.mark = Function.update s.mark r .unmarked →
      ¬ t.Cancelable r := by
    intro t ht
    rw [Controller.Cancelable, ht, hself]
    exact fun hc => hc.elim (fun hc => by cases hc) fun hc => by cases hc
  have hothers : ∀ {t : Controller} {r'}, t.mark = Function.update s.mark r .unmarked → r' ≠ r →
      (t.Cancelable r' ↔ s.Cancelable r') := by
    intro t r' ht hne
    rw [Controller.Cancelable, ht, hmark r' hne]
    exact .rfl
  have hsum := fun r' => sum_advance (CallbackStep.owns r') hp [.dpcFinish r]
  have harmed := sum_advance CallbackStep.starting hp [.dpcFinish r]
  simp only [total_cons, total_nil] at hsum harmed
  have hsame : ∀ r', (CallbackStep.dpcFinish r).owns r' = (CallbackStep.dpcUnmark r).owns r' :=
    fun _ => rfl
  have hweight : (CallbackStep.dpcFinish r).starting = 0 := rfl
  have hweight' : (CallbackStep.dpcUnmark r).starting = 0 := rfl
  have hbefore : s.armed = total CallbackStep.starting s.running + s.doneIrq.toNat := rfl
  refine ⟨h.earlier, fun r' hr' => ?_, fun r' hr' => ?_, fun r' hr' => ?_, fun q hq r' hqr => ?_,
    fun q hq r' hqr => ?_, fun r' hc => ?_, fun r' hspb' hr' => ?_, ?_, fun hpos => ?_⟩
  · have hge : s.presented ≤ r' := hr'
    obtain ⟨hnot', hun, hzero⟩ := h.fresh r' hge
    refine ⟨hnot', (hmark r' (by omega)).trans hun, ?_⟩
    show total (CallbackStep.owns r') (advance s.running (.dpcUnmark r) [.dpcFinish r]) = 0
    have hsumr := hsum r'
    have hsame' := hsame r'
    omega
  · show total (CallbackStep.owns r') (advance s.running (.dpcUnmark r) [.dpcFinish r]) +
      Controller.live _ r' ≤ 1
    have hsingle := h.single r' hr'
    have hsumr := hsum r'
    have hsame' := hsame r'
    have hlive : ((s.setMark r .unmarked).goOn (.dpcUnmark r) (some (.dpcFinish r))).live r' ≤
        s.live r' := by
      by_cases heq : r' = r
      · subst heq
        rw [Controller.live, if_neg fun hl => hnot rfl hl.2]
        exact Nat.zero_le _
      · exact Nat.le_of_eq (if_congr (and_congr_right fun _ => hothers rfl heq) rfl rfl)
    omega
  · have hne : r' ≠ r := fun hc => hr (hc ▸ hr')
    rw [hothers rfl hne]
    exact h.settled r' hr'
  · rcases mem_advance hq with hq | hq
    · obtain rfl := List.mem_singleton.1 hq
      obtain rfl := of_decide_eq_true hqr
      exact hr
    · exact h.undone q hq r' hqr
  · by_cases heq : r' = r
    · rw [heq]
      exact hnot rfl
    · rw [hothers rfl heq]
      rcases mem_advance hq with hq | hq
      · obtain rfl := List.mem_singleton.1 hq
        exact absurd (of_decide_eq_true hqr).symm heq
      · exact h.past q hq r' hqr
  · by_cases heq : r' = r
    · rw [heq] at hc
      exact absurd hc (hnot rfl)
    · rw [hothers rfl heq] at hc
      exact h.held r' hc
  · have hne : r' ≠ r := fun hc => hspb (hc ▸ hspb')
    rw [hothers rfl hne]
    refine (h.lone r' hspb' hr').imp_right ?_
    rintro ⟨q, hq, hstart, hqr⟩
    refine ⟨q, mem_advance_of_ne hq fun hc => ?_, hstart, hqr⟩
    rw [hc] at hstart
    cases hstart
  · show total CallbackStep.starting (advance s.running (.dpcUnmark r) [.dpcFinish r]) +
      s.doneIrq.toNat ≤ 1
    omega
  · have hpos' : 0 < total CallbackStep.starting
        (advance s.running (.dpcUnmark r) [.dpcFinish r]) + s.doneIrq.toNat := hpos
    omega

theorem evtRequestCancel (h : IrqInv s) {r : Nat} (hm : s.mark r = .cancelling)
    (hok : Unclaimed s (.evtRequestCancel r)) : IrqInv (s.evtRequestCancel r) := by
  have hr : r ∉ s.completed := fun hc => h.settled r hc (.inr hm)
  have hlt : r < s.presented := by
    by_contra hge
    have hun := (h.fresh r (by omega)).2.1
    rw [hm] at hun
    cases hun
  have hmark : ∀ r', r' ≠ r → Function.update s.mark r Cancelability.called r' = s.mark r' :=
    fun r' hne => Function.update_of_ne hne ..
  have hself : Function.update s.mark r Cancelability.called r = .called := Function.update_self ..
  have hnot : ∀ {t : Controller}, t.mark = Function.update s.mark r .called → ¬ t.Cancelable r := by
    intro t ht
    rw [Controller.Cancelable, ht, hself]
    exact fun hc => hc.elim (fun hc => by cases hc) fun hc => by cases hc
  have hothers : ∀ {t : Controller} {r'}, t.mark = Function.update s.mark r .called → r' ≠ r →
      (t.Cancelable r' ↔ s.Cancelable r') := by
    intro t r' ht hne
    rw [Controller.Cancelable, ht, hmark r' hne]
    exact .rfl
  have hsettled : ∀ {t : Controller}, t.mark = Function.update s.mark r .called →
      ∀ r' ∈ s.completed, ¬ t.Cancelable r' := by
    intro t ht r' hr'
    rw [hothers ht fun hc => hr (hc ▸ hr')]
    exact h.settled r' hr'
  have hpast : ∀ {t : Controller}, t.mark = Function.update s.mark r .called →
      ∀ q ∈ s.running, ∀ r', q.isPast r' = true → ¬ t.Cancelable r' := by
    intro t ht q hq r' hqr
    by_cases heq : r' = r
    · rw [heq]
      exact hnot ht
    · rw [hothers ht heq]
      exact h.past q hq r' hqr
  cases hspb : s.spbRequest with
  | none =>
    have heq : s.evtRequestCancel r = s.setMark r .called := by
      simp [Controller.evtRequestCancel, Controller.setMark, hspb]
    rw [heq]
    have hnone : (s.setMark r .called).spbRequest = none := hspb
    refine ⟨h.earlier, fun r' hr' => ?_, fun r' hr' => ?_, hsettled rfl, h.undone, hpast rfl,
      fun _ _ => .inl hspb, fun r' hc => ?_, h.armed_le, fun hpos => ?_⟩
    · have hge : s.presented ≤ r' := hr'
      obtain ⟨hnew, hun, hzero⟩ := h.fresh r' hge
      exact ⟨hnew, (hmark r' (by omega)).trans hun, hzero⟩
    · have hsingle := h.single r' hr'
      have hlive : (s.setMark r .called).live r' = 0 := if_neg fun hl => by
        rw [hnone] at hl
        cases hl.1
      rw [hlive]
      exact Nat.le_trans (Nat.le_add_right _ _) hsingle
    · rw [hnone] at hc
      cases hc
    · obtain ⟨r', hspb', -⟩ := h.current hpos
      rw [hspb] at hspb'
      cases hspb'
  | some r₀ =>
    have hspb' : s.spbRequest = some r := by
      rcases h.held r (.inr hm) with hc | hc
      · rw [hspb] at hc
        cases hc
      · exact hc
    have hlive := live_of_cancelable hspb' (.inr hm)
    have hzero : total (CallbackStep.owns r) s.running = 0 := by
      have hsingle := h.single r hr
      omega
    -- the start path is neither about to mark another request nor to enable the interrupt
    have hstarting : total CallbackStep.starting s.running = 0 := total_eq_zero fun q hq => by
      cases q with
      | enableIrq => exact absurd hq (hok (by rw [hspb]; rfl))
      | markCancelable r' =>
        obtain ⟨-, hlast, -⟩ := h.marking hq
        have hcur := h.last_of hlt hr
        obtain rfl : r' = r := by omega
        have hle := le_total (CallbackStep.owns r') hq
        have hown : (CallbackStep.markCancelable r').owns r' = 1 := if_pos rfl
        omega
      | _ => rfl
    have heq : s.evtRequestCancel r = { s.setMark r .called with
        spbRequest := none
        doneIrq := false
        running := .cancelAbort r :: s.running } := by
      simp [Controller.evtRequestCancel, Controller.setMark, hspb]
    rw [heq]
    have howns : ∀ r', total (CallbackStep.owns r') (.cancelAbort r :: s.running) =
        (if r = r' then 1 else 0) + total (CallbackStep.owns r') s.running := fun _ => total_cons ..
    have hidle : total CallbackStep.starting (.cancelAbort r :: s.running) + false.toNat = 0 := by
      rw [total_cons, hstarting]
      rfl
    refine ⟨h.earlier, fun r' hr' => ?_, fun r' hr' => ?_, hsettled rfl, fun q hq r' hqr => ?_,
      fun q hq r' hqr => ?_, fun _ _ => .inl rfl, (fun r' hc => by cases hc), ?_, fun hpos => ?_⟩
    · have hge : s.presented ≤ r' := hr'
      obtain ⟨hnew, hun, hzero'⟩ := h.fresh r' hge
      refine ⟨hnew, (hmark r' (by omega)).trans hun, (howns r').trans ?_⟩
      rw [if_neg (by omega), hzero']
    · show total (CallbackStep.owns r') (.cancelAbort r :: s.running) + Controller.live _ r' ≤ 1
      have hsingle := h.single r' hr'
      have hnone : Controller.live { s.setMark r .called with
          spbRequest := none
          doneIrq := false
          running := .cancelAbort r :: s.running } r' = 0 := if_neg fun hl => by cases hl.1
      rw [hnone, howns]
      by_cases hreq : r = r'
      · subst hreq
        rw [if_pos rfl]
        omega
      · rw [if_neg hreq]
        omega
    · rcases List.mem_cons.1 hq with rfl | hq
      · obtain rfl := of_decide_eq_true hqr
        exact hr
      · exact h.undone q hq r' hqr
    · rcases List.mem_cons.1 hq with rfl | hq
      · obtain rfl := of_decide_eq_true hqr
        exact hnot rfl
      · exact hpast rfl q hq r' hqr
    · exact Nat.le_trans (Nat.le_of_eq hidle) (Nat.zero_le _)
    · have hpos' : 0 < total CallbackStep.starting (.cancelAbort r :: s.running) +
          false.toNat := hpos
      omega

/-- The next step of a callback. -/
theorem run (h : IrqInv s) {p : CallbackStep} (hp : p ∈ s.running)
    (hok : Unclaimed s (.run p)) : IrqInv (s.runStep p) := by
  have hone : ∀ {r' : Nat}, (if r' = r' then 1 else 0) = 1 := if_pos rfl
  cases p with
  | markCancelable r =>
    rw [Controller.runStep]
    split
    · -- marking fails: the start path aborts what it has set up
      refine h.goOn (t := s.transferState) hp (.inl rfl) (fun r' => Nat.le_refl _)
        (Nat.zero_le _) (fun _ _ => rfl) (fun q hq r' hqr => ?_) (fun q hq r' hqr => ?_)
        fun _ r' hr' => ⟨_, List.mem_singleton_self _, rfl, hr'⟩
      · obtain rfl := List.mem_singleton.1 hq
        obtain rfl := of_decide_eq_true hqr
        exact (h.marking hp).2.2.1
      · obtain rfl := List.mem_singleton.1 hq
        obtain rfl := of_decide_eq_true hqr
        have hlive := h.not_live hp hone (h.marking hp).2.2.1
        intro hc
        rw [live_of_cancelable (h.marking hp).1 hc] at hlive
        cases hlive
    · exact h.mark hp
  | startAbort r =>
    -- who owns a request may set the transfer state, as nothing is armed
    have hr : r ∉ s.completed := h.undone _ hp r (decide_eq_true rfl)
    refine h.goOn hp (.inr (h.not_armed hp hone hr fun hc => by cases hc))
      (fun r' => Nat.le_refl _) (Nat.le_refl _) (fun r' hc => by cases hc) (fun q hq r' hqr => ?_)
      (fun q hq r' hqr => ?_) fun _ r' hr' => ⟨_, List.mem_singleton_self _, rfl, hr'⟩
    · obtain rfl := List.mem_singleton.1 hq
      cases hqr
    · obtain rfl := List.mem_singleton.1 hq
      exact h.past _ hp r' hqr
  | startComplete r =>
    exact h.complete hp (fun r' => rfl) (decide_eq_true rfl) (fun r' hc => by cases hc) rfl
  | enableIrq => exact h.enableIrq hp
  | dpcExchange =>
    rw [Controller.runStep]
    split
    · exact h.goOn (t := s.transferState) hp (.inl rfl) (fun r' => Nat.zero_le _)
        (Nat.zero_le _) (fun r' hc => by cases hc) (fun q hq => by cases hq)
        (fun q hq => by cases hq) fun hc => by cases hc
    · next hspb => exact h.dpcExchange hp hok hspb
  | dpcUnmark r =>
    rw [Controller.runStep]
    split
    · next hm => exact h.unmark hp hm
    · next hm =>
      refine h.goOn (t := s.transferState) hp (.inl rfl) (fun r' => Nat.le_refl _)
        (Nat.le_refl _) (fun r' hc => by cases hc) (fun q hq r' hqr => ?_)
        (fun q hq r' hqr => ?_) fun hc => by cases hc
      · obtain rfl := List.mem_singleton.1 hq
        cases hqr
      · obtain rfl := List.mem_singleton.1 hq
        obtain rfl := of_decide_eq_true hqr
        rw [Controller.Cancelable, hm]
        exact fun hc => hc.elim (fun hc => by cases hc) fun hc => by cases hc
    -- the cancel callback has the request or will have it, and the DPC ends
    all_goals
      exact h.goOn (t := s.transferState) hp (.inl rfl) (fun r' => Nat.zero_le _)
        (Nat.zero_le _) (fun r' hc => by cases hc) (fun q hq => by cases hq)
        (fun q hq => by cases hq) fun hc => by cases hc
  | dpcFinish r =>
    have hr : r ∉ s.completed := h.undone _ hp r (decide_eq_true rfl)
    refine h.goOn hp (.inr (h.not_armed hp hone hr fun hc => by cases hc))
      (fun r' => Nat.le_refl _) (Nat.le_refl _) (fun r' hc => by cases hc) (fun q hq r' hqr => ?_)
      (fun q hq r' hqr => ?_) fun hc => by cases hc
    · obtain rfl := List.mem_singleton.1 hq
      cases hqr
    · obtain rfl := List.mem_singleton.1 hq
      exact h.past _ hp r' hqr
  | dpcComplete r =>
    exact h.complete hp (fun r' => rfl) (decide_eq_true rfl) (fun r' hc => by cases hc) rfl
  | cancelAbort r =>
    have hr : r ∉ s.completed := h.undone _ hp r (decide_eq_true rfl)
    refine h.goOn hp (.inr (h.not_armed hp hone hr fun hc => by cases hc))
      (fun r' => Nat.le_refl _) (Nat.le_refl _) (fun r' hc => by cases hc) (fun q hq r' hqr => ?_)
      (fun q hq r' hqr => ?_) fun hc => by cases hc
    · obtain rfl := List.mem_singleton.1 hq
      cases hqr
    · obtain rfl := List.mem_singleton.1 hq
      exact h.past _ hp r' hqr
  | cancelComplete r =>
    exact h.complete hp (fun r' => rfl) (decide_eq_true rfl) (fun r' hc => by cases hc) rfl

/-- Every step keeps the invariant. -/
theorem step (h : IrqInv s) {a : AuxAction} (hok : Unclaimed s a) (hen : auxEnabled s a) :
    IrqInv (auxEffect s a) := by
  cases a with
  | startTransfer kind => exact h.startTransfer kind hen
  | answerAtOnce => exact h.answerAtOnce hen
  | run p => exact h.run hen hok
  | interrupt allBytes => exact h.interrupt hen allBytes
  | dpc => exact h.dpc
  | cancel r => exact h.cancel r
  | evtRequestCancel r => exact h.evtRequestCancel hen hok

/-- What is armed belongs to the current request, once it has been marked. -/
theorem ownsCurrent (h : IrqInv s) (hpos : 0 < s.armed) (hno : ∀ r, .markCancelable r ∉ s.running) :
    ∃ r, s.OwnsCurrent r := by
  obtain ⟨r, hspb, hlast, hr, hset, ⟨hmarking, -⟩ | hc⟩ := h.current hpos
  · exact absurd hmarking (hno r)
  · exact ⟨r, hspb, hlast, hr, hc, hset⟩

theorem owned (h : IrqInv s) : IrqOwned s := by
  have hle := h.armed_le
  have harmed : s.armed = total CallbackStep.starting s.running + s.doneIrq.toNat := rfl
  constructor
  · intro hon
    rw [hon, Bool.toNat_true] at harmed
    refine h.ownsCurrent (by omega) fun r hmarking => ?_
    have hweight := le_total CallbackStep.starting hmarking
    have hone : (CallbackStep.markCancelable r).starting = 1 := rfl
    omega
  · intro hp
    have hweight := le_total CallbackStep.starting hp
    have hone : (CallbackStep.enableIrq).starting = 1 := rfl
    refine ⟨?_, h.ownsCurrent (by omega) fun r hmarking => ?_⟩
    · refine Bool.eq_false_iff.2 fun hon => ?_
      rw [hon, Bool.toNat_true] at harmed
      omega
    · have htwo := two_le_total CallbackStep.starting hp hmarking (fun hc => by cases hc) rfl rfl
      omega

end IrqInv

/-! ## Every run -/

/-- **Runs in which nobody takes the request from a start path, and no DPC takes one whose interrupt
is enabled, enable the interrupt for the current request only.** -/
theorem irqOwned_of_unclaimed {s : Controller} (h : auxMachine.Reach Unclaimed s) : IrqOwned s := by
  refine (h.inv_guarded (P := IrqInv) (fun s hs => ?_) fun s a hinv hok hen =>
    hinv.step hok hen).owned
  rw [hs]
  exact irqInv_init

/-- A read is started, and cancelled while it goes on. -/
theorem irqOwned_of_unclaimed_cancel : ∃ s, auxMachine.Reach Unclaimed s ∧
    s.completed = [0] ∧ s.doneIrq = false ∧ IrqOwned s := by
  obtain ⟨s, hs, hp⟩ := auxMachine.reach_execOk_any Unclaimed
    [.startTransfer .read, .run (.markCancelable 0), .run .enableIrq, .interrupt false, .cancel 0,
      .evtRequestCancel 0, .run (.cancelAbort 0), .run (.cancelComplete 0)]
    (p := fun s => s.completed = [0] && !s.doneIrq) rfl (by decide +kernel)
  obtain ⟨hcompleted, hoff⟩ := Bool.and_eq_true_iff.1 hp
  exact ⟨s, hs, of_decide_eq_true hcompleted, by simpa using hoff, irqOwned_of_unclaimed hs⟩

/-- The request is cancelled between its marking and the enable bit. -/
def cancelInStartRun : List AuxAction :=
  [.startTransfer .read, .run (.markCancelable 0), .cancel 0, .evtRequestCancel 0,
    .run (.cancelAbort 0), .run (.cancelComplete 0), .run .enableIrq]

/-- **The start path enables the interrupt of a request that has been cancelled and completed.** -/
theorem irq_without_request :
    (∃ s, auxMachine.Reachable s ∧ s.doneIrq = true ∧ s.spbRequest = none ∧ s.completed = [0]) ∧
      ¬ ∀ s, auxMachine.Reachable s → IrqOwned s := by
  obtain ⟨s, hs, hp⟩ := auxMachine.reach_exec_any cancelInStartRun
    (p := fun s => s.doneIrq && s.spbRequest.isNone && s.completed = [0]) rfl (by decide +kernel)
  simp only [Bool.and_eq_true, Option.isNone_iff_eq_none, decide_eq_true_eq] at hp
  obtain ⟨⟨hon, hnone⟩, hcompleted⟩ := hp
  refine ⟨⟨s, hs, hon, hnone, hcompleted⟩, fun h => ?_⟩
  obtain ⟨r, hr⟩ := (h s hs).enabled hon
  rw [hr.spbRequest] at hnone
  cases hnone

end RpiDrivers.AuxSpi
