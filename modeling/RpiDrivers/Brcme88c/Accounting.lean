import Mathlib.Data.List.Nodup
import RpiDrivers.Brcme88c.SlotEvents

/-!
# Event accounting of the slot

When the DPC is only called with `RequiredEvents` set, the phases of a request follow each other
strictly. `Phase` lists the places a run can be in, and `Stage` what a phase that has been started
is due. What is left of `RequiredEvents` is what is due and has not been both raised and
delivered (`Account`).

- `eventsSound_of_prepared`: **prepared runs are sound**.
- `early_ready`: a run that is not prepared, and not sound.
-/

namespace RpiDrivers.Brcme88c

open RpiDrivers.Lib
open RpiDrivers.Sdhc (Event Events)

/-! ## What a phase is due -/

/-- A phase is under way and due the events `d`. -/
inductive Stage (r : Request) (dma : TransferDirection) (c : Controller) (d : Events) : Prop
  | command (type : r.type = if r.hasData then .commandWithTransfer else .commandNoTransfer)
      (status : r.status ≠ .moreProcessingRequired)
      (transfer : c.transfer = .none ↔ ¬ r.hasData) (dma : dma = .undefined ↔ c.transfer ≠ .dma)
      (busy : c.busy = decide r.busy)
      (pio : c.transfer = .pio → c.busy = false ∧ c.transferComplete = false ∧ 0 < c.blocks)
      (blocks : r.blockCount = c.blocks) (accessed : c.accessed = 0) (ready : c.ready ≤ 1)
      (due : d = ⟨true, c.transfer = .pio, r.busy ∨ c.transfer = .dma⟩)
  | block (type : r.type = .startTransfer) (status : r.status = .moreProcessingRequired)
      (transfer : c.transfer = .pio) (dma : dma = .undefined) (busy : c.busy = false)
      (cmdComplete : c.cmdComplete = true) (transferComplete : c.transferComplete = false)
      (blocks : c.accessed + r.blockCount = c.blocks) (left : 0 < r.blockCount)
      (accessed : c.accessed ≤ c.ready) (ready : c.ready ≤ c.accessed + 1)
      (due : d = ⟨false, true, false⟩)
  | last (type : r.type = .startTransfer) (status : r.status = .success)
      (transfer : c.transfer = .pio) (dma : dma = .undefined) (busy : c.busy = false)
      (cmdComplete : c.cmdComplete = true) (blocks : c.accessed = c.blocks)
      (left : r.blockCount = 0) (ready : c.ready = c.blocks) (due : d = ⟨false, false, true⟩)

/-- The events the controller raises next, one by one. -/
theorem Controller.raises_has (c : Controller) (e : Event) :
    c.raises.has e = (c.running &&
      match e with
      | .cmdComplete => !c.cmdComplete
      | .bufferReady => c.transfer = .pio && c.ready < c.blocks && c.ready ≤ c.accessed
      | .transferComplete => c.ends && !c.transferComplete &&
          (c.transfer ≠ .pio || c.blocks ≤ c.accessed)) := by
  unfold raises
  split
  · next h => cases e <;> simp [Events.has, h]
  · next h => cases e <;> simp [Events.has, h]

theorem Controller.running_of_raises {c : Controller} {e : Event} (h : c.raises.has e = true) :
    c.running = true := by
  rw [c.raises_has e, Bool.and_eq_true] at h
  exact h.1

namespace Stage

variable {r : Request} {dma : TransferDirection} {c : Controller} {d : Events} {e : Event}

/-- The stage depends neither on what is left of `RequiredEvents` nor on an error. -/
theorem congr (h : Stage r dma c d) (required : Events) (failed : Bool) :
    Stage { r with requiredEvents := required } dma { c with failed := failed } d := by
  cases h with
  | command type status transfer dma busy pio blocks accessed ready due =>
    exact .command type status transfer dma busy pio blocks accessed ready due
  | block type status transfer dma busy cmdComplete transferComplete blocks left accessed ready due =>
    exact .block type status transfer dma busy cmdComplete transferComplete blocks left accessed ready
      due
  | last type status transfer dma busy cmdComplete blocks left ready due =>
    exact .last type status transfer dma busy cmdComplete blocks left ready due

theorem setRequired (h : Stage r dma c d) (required : Events) :
    Stage { r with requiredEvents := required } dma c d :=
  h.congr required c.failed

theorem fail (h : Stage r dma c d) : Stage r dma { c with failed := true } d :=
  h.congr r.requiredEvents true

/-- What the controller raises is due, and it is raised once. -/
theorem due_of_raises (h : Stage r dma c d) (he : c.raises.has e = true) :
    d.has e = true ∧ c.raised.has e = false := by
  rw [c.raises_has e] at he
  cases h with
  | command _ _ transfer _ busy pio _ accessed _ due =>
    subst due
    cases e with
    | cmdComplete => simp_all [Events.has, Controller.raised]
    | bufferReady => simp_all [Events.has, Controller.raised]
    | transferComplete => cases ht : c.transfer <;> simp_all [Events.has, Controller.raised, Controller.ends]
  | block _ _ transfer _ busy cmdComplete transferComplete blocks left accessed ready due =>
    subst due
    cases e with
    | cmdComplete => simp_all
    | bufferReady => simp_all [Events.has, Controller.raised]
    | transferComplete =>
      simp_all [Events.has, Controller.raised]
      omega
  | last _ _ transfer _ busy cmdComplete blocks left ready due =>
    subst due
    cases e with
    | cmdComplete => simp_all
    | bufferReady => simp_all
    | transferComplete => simp_all [Events.has, Controller.raised]

/-- Raising an event keeps the stage. -/
theorem raise (h : Stage r dma c d) (he : c.raises.has e = true) : Stage r dma (c.raise e) d := by
  rw [c.raises_has e] at he
  cases h with
  | command type status transfer dma busy pio blocks accessed ready due =>
    cases e with
    | cmdComplete => exact .command type status transfer dma busy pio blocks accessed ready due
    | bufferReady =>
      refine .command type status transfer dma busy pio blocks accessed ?_ due
      simp_all [Controller.raise]
    | transferComplete =>
      refine .command type status transfer dma busy (fun ht => ?_) blocks accessed ready due
      have hpio : c.transfer = .pio := ht
      have hblocks := (pio hpio).2.2
      simp [hpio] at he
      omega
  | block type status transfer dma busy cmdComplete transferComplete blocks left accessed ready due =>
    cases e with
    | cmdComplete => simp_all
    | bufferReady =>
      have hready : c.ready ≤ c.accessed := by simp_all
      exact .block type status transfer dma busy cmdComplete transferComplete blocks left
        (Nat.le_succ_of_le accessed) (Nat.succ_le_succ hready) due
    | transferComplete =>
      simp [transfer] at he
      omega
  | last type status transfer dma busy cmdComplete blocks left ready due =>
    cases e with
    | cmdComplete => simp_all
    | bufferReady => simp_all
    | transferComplete =>
      exact .last type status transfer dma busy cmdComplete blocks left ready due

/-- What has been raised, when one more event is. -/
theorem raised_raise (h : Stage r dma c d) (e e' : Event) :
    (c.raise e).raised.has e' = (c.raised.has e' || decide (e = e')) := by
  have hready : c.accessed ≤ c.ready := by
    cases h with
    | command _ _ _ _ _ _ _ accessed => omega
    | block _ _ _ _ _ _ _ _ _ accessed => exact accessed
    | last _ _ _ _ _ _ blocks _ ready => omega
  by_cases he : e = e'
  · subst he
    rw [decide_eq_true rfl, Bool.or_true]
    cases e with
    | cmdComplete => rfl
    | bufferReady => exact decide_eq_true (Nat.lt_succ_of_le hready)
    | transferComplete => rfl
  · rw [decide_eq_false he, Bool.or_false]
    cases e <;> cases e' <;> first | exact absurd rfl he | rfl

/-- What is due is raised, unless an error has stopped the controller. -/
theorem raises_of_due (h : Stage r dma c d) (hfailed : c.failed = false) (hd : d.has e = true)
    (hraised : c.raised.has e = false) : c.raises.has e = true := by
  rw [c.raises_has e]
  cases h with
  | command _ _ transfer _ busy pio _ accessed _ due =>
    subst due
    cases e with
    | cmdComplete => simp_all [Events.has, Controller.raised, Controller.running, Controller.finished]
    | bufferReady =>
      have hpio : c.transfer = .pio := by simpa [Events.has] using hd
      simp_all [Events.has, Controller.raised, Controller.running, Controller.finished, Controller.ends]
    | transferComplete =>
      cases ht : c.transfer <;> simp_all [Events.has, Controller.raised, Controller.running, Controller.finished, Controller.ends]
  | block _ _ transfer _ busy cmdComplete transferComplete blocks left accessed ready due =>
    subst due
    cases e with
    | cmdComplete => simp_all [Events.has]
    | bufferReady =>
      simp_all [Events.has, Controller.raised, Controller.running, Controller.finished, Controller.ends]
      omega
    | transferComplete => simp_all [Events.has]
  | last _ _ transfer _ busy cmdComplete blocks left ready due =>
    subst due
    cases e with
    | cmdComplete => simp_all [Events.has]
    | bufferReady => simp_all [Events.has]
    | transferComplete =>
      simp_all [Events.has, Controller.raised, Controller.running, Controller.finished, Controller.ends]

/-- When everything due has been raised, the phase may be completed. -/
theorem phaseDone (h : Stage r dma c d) (hraised : ∀ e, d.has e = true → c.raised.has e = true) :
    Slot.PhaseDone r c
      (if r.status = .moreProcessingRequired then .moreProcessingRequired else .success) := by
  cases h with
  | command type status transfer _ busy pio _ accessed _ due =>
    subst due
    have htype : r.type ≠ .startTransfer := by
      rw [type]
      split_ifs <;> simp
    have hcmd := hraised .cmdComplete rfl
    have hready := hraised .bufferReady
    have htransfer := hraised .transferComplete
    simp_all [Slot.PhaseDone, Events.has, Controller.raised]
  | block type status transfer _ busy cmdComplete transferComplete blocks left accessed ready due =>
    subst due
    have hready := hraised .bufferReady rfl
    have hleft : c.accessed < c.blocks := by omega
    simp_all [Slot.PhaseDone, Events.has, Controller.raised]
  | last type status transfer _ busy cmdComplete blocks left ready due =>
    subst due
    have htransfer := hraised .transferComplete rfl
    simp_all [Slot.PhaseDone, Events.has, Controller.raised]

end Stage

/-! ## The account -/

/-- What is left of `RequiredEvents`: what is due and has not been both raised and delivered. -/
structure Account (required coming d raised : Events) : Prop where
  due : ∀ e, coming.has e = true → d.has e = true ∧ raised.has e = true
  required : ∀ e, required.has e = (d.has e && (!raised.has e || coming.has e))

namespace Account

variable {required coming d raised raised' : Events} {e : Event}

/-- `RequiredEvents` is set while nothing has been delivered. -/
theorem of_undelivered (h : ∀ e, coming.has e = (d.has e && raised.has e)) :
    Account d coming d raised where
  due e he := by simpa [h e] using he
  required e := by
    rw [h e]
    cases d.has e <;> cases raised.has e <;> rfl

/-- A due event is raised. -/
theorem raise (h : Account required coming d raised) (hd : d.has e = true)
    (hnew : raised.has e = false) (hraised : ∀ e', raised'.has e' = (raised.has e' || decide (e = e'))) :
    Account required (coming.or (.single e)) d raised' where
  due e' he' := by
    by_cases heq : e = e'
    · subst heq
      simp [hraised, hd]
    · have hcoming : coming.has e' = true := by simpa [heq] using he'
      have hold := h.due e' hcoming
      simp [hraised, hold]
  required e' := by
    rw [h.required e', hraised e', Events.has_or, Events.has_single]
    by_cases heq : e = e'
    · subst heq
      simp [hd, hnew]
    · simp [heq]

/-- Events are delivered. -/
theorem deliver {status delivered : Events} (h : Account required (status.or delivered) d raised)
    (hapart : ∀ e, status.has e = true → delivered.has e = false) :
    Account (required.clear delivered) status d raised where
  due e he := h.due e (by simp [he])
  required e := by
    have hapart := hapart e
    have hcoming := h.due e
    rw [Events.has_clear, h.required e]
    cases hd : delivered.has e with
    | false => simp [hd]
    | true =>
      have hraised := hcoming (by simp [hd])
      have hstatus : status.has e = false := by
        cases hs : status.has e with
        | false => rfl
        | true => exact absurd (hapart hs) (by simp [hd])
      simp [hraised, hstatus]

/-- Nothing is left: everything due has been raised and delivered. -/
theorem settled (h : Account {} coming d raised) :
    coming = {} ∧ ∀ e, d.has e = true → raised.has e = true := by
  have hleft := fun e => (h.required e).symm
  constructor
  · refine Events.eq_empty_iff.2 fun e => Bool.eq_false_iff.2 fun he => ?_
    have hdue := h.due e he
    have := hleft e
    simp [hdue, he] at this
  · intro e hd
    cases hr : raised.has e with
    | true => rfl
    | false =>
      have := hleft e
      simp [hd, hr] at this

end Account

/-! ## The invariants -/

/-- Nothing is under way at the controller. -/
structure Quiet (s : Slot) : Prop where
  coming : s.coming = {}
  finished : s.controller.finished = true

/-- The next block is ready. -/
structure BlockReady (r : Request) (dma : TransferDirection) (c : Controller) : Prop where
  transfer : c.transfer = .pio
  dma : dma = .undefined
  busy : c.busy = false
  cmdComplete : c.cmdComplete = true
  transferComplete : c.transferComplete = false
  blocks : c.accessed + r.blockCount = c.blocks
  left : 0 < r.blockCount
  ready : c.ready = c.accessed + 1

/-- The transfer by DMA has been made. -/
structure DmaReady (s : Slot) : Prop where
  quiet : Quiet s
  transfer : s.controller.transfer = .dma
  transferComplete : s.controller.transferComplete = true
  dma : s.dmaInProgress ≠ .undefined

/-- Where `SlotRequestDpc` is with a phase that is done. -/
def completingDpc (p : Nat) (r : Request) (dpc : Option Dpc) : Prop :=
  dpc = some (.readStatus p) ∨
    dpc = some (.complete p
      (if r.status = .moreProcessingRequired then .moreProcessingRequired else .success))

/-- The places a run can be in. -/
inductive Phase (s : Slot) : Prop
  | idle (port : s.port = .idle) (calls : s.calls = []) (dpc : s.dpc = none) (quiet : Quiet s)
  | sendCommand {p : Nat} {useDma : Bool} (port : s.port = .outstanding p)
      (calls : s.calls = [.sendCommand p useDma]) (dpc : s.dpc = none) (quiet : Quiet s)
      (wellFormed : s.request.WellFormed)
      (busy : s.request.busy → s.request.hasData → useDma = true)
  | writeCommand {p : Nat} (port : s.port = .outstanding p) (calls : s.calls = [.writeCommand p])
      (dpc : s.dpc = none) (quiet : Quiet s)
      (stage : Stage s.request s.dmaInProgress (.command s.request s.dmaInProgress)
        s.request.requiredEvents)
      (required : s.request.requiredEvents.cmdComplete = true)
  | waiting {p : Nat} {d : Events} (port : s.port = .outstanding p) (calls : s.calls = [])
      (dpc : s.dpc = none) (stage : Stage s.request s.dmaInProgress s.controller d)
      (account : Account s.request.requiredEvents s.coming d s.controller.raised)
      (required : s.request.requiredEvents ≠ {})
  | completing {p : Nat} {d : Events} (port : s.port = .outstanding p) (calls : s.calls = [])
      (dpc : completingDpc p s.request s.dpc)
      (stage : Stage s.request s.dmaInProgress s.controller d) (coming : s.coming = {})
      (required : s.request.requiredEvents = {})
      (raised : ∀ e, d.has e = true → s.controller.raised.has e = true)
  | failing {p : Nat} {status : Status} (port : s.port = .outstanding p) (calls : s.calls = [])
      (dpc : s.dpc = some (.clear p status) ∨ s.dpc = some (.fail p status))
      (status : status.succeeds = false) (failed : s.controller.failed = true)
  | transferDue (port : s.port = .transferDue) (calls : s.calls = []) (dpc : s.dpc = none)
      (coming : s.coming = {}) (required : s.request.requiredEvents = {})
      (ready : BlockReady s.request s.dmaInProgress s.controller ∨ DmaReady s)
  | accessPort {p : Nat} (port : s.port = .outstanding p) (calls : s.calls = [.accessPort p])
      (dpc : s.dpc = none) (coming : s.coming = {}) (required : s.request.requiredEvents = {})
      (type : s.request.type = .startTransfer)
      (ready : BlockReady s.request s.dmaInProgress s.controller)
  | setStatus {p : Nat} {d : Events} (port : s.port = .outstanding p)
      (calls : s.calls = [.setStatus p]) (dpc : s.dpc = none)
      (coming : ∀ e, s.coming.has e = (d.has e && s.controller.raised.has e))
      (required : s.request.requiredEvents = {}) (type : s.request.type = .startTransfer)
      (stage : Stage (Slot.countBlock s.request) s.dmaInProgress s.controller d)
  | setRequired {p : Nat} {d : Events} (port : s.port = .outstanding p)
      (calls : s.calls = [.setRequired p]) (dpc : s.dpc = none)
      (coming : ∀ e, s.coming.has e = (d.has e && s.controller.raised.has e))
      (required : s.request.requiredEvents = {}) (type : s.request.type = .startTransfer)
      (stage : Stage s.request s.dmaInProgress s.controller d)
  | completeDma {p : Nat} (port : s.port = .outstanding p) (calls : s.calls = [.completeDma p])
      (dpc : s.dpc = none) (type : s.request.type = .startTransfer) (ready : DmaReady s)
  | failed (port : s.port = .failed) (calls : s.calls = []) (dpc : s.dpc = none)
      (stopped : s.controller.running = false)

/-- The completions so far, and what has not happened. -/
structure Log (s : Slot) : Prop where
  numbered : ∀ p, s.port = .outstanding p → p + 1 = s.issued
  issued : ∀ c ∈ s.completions, c.phase < s.issued
  outstanding : ∀ p, s.port = .outstanding p → ∀ c ∈ s.completions, c.phase ≠ p
  once : (s.completions.map Completion.phase).Nodup
  premature : s.premature = false
  unready : s.unready = false

def Dpc.fails : Dpc → Bool
  | .clear .. | .fail .. => true
  | _ => false

/-- What is on its way is at one place, and errors go with a controller that has stopped. -/
structure Signals (s : Slot) : Prop where
  isr : ∀ i, s.isr = some i →
    (∀ e, i.events.has e = true → s.interruptStatus.events.has e = true) ∧
      (i.errors ≠ {} → s.interruptStatus.errors ≠ {})
  apart : ∀ e, s.interruptStatus.events.has e = true → (s.pending.getD {}).events.has e = false
  errors : s.ErrorsComing → s.controller.failed = true
  unfinished : s.controller.failed = true → s.controller.finished = false
  stopped : s.controller.failed = true →
    s.ErrorsComing ∨ s.port = .failed ∨ ∃ d, s.dpc = some d ∧ d.fails = true

structure Inv (s : Slot) : Prop where
  phase : Phase s
  log : Log s
  signals : Signals s

theorem inv_start : Inv Slot.start where
  phase := .idle rfl rfl rfl ⟨rfl, rfl⟩
  log :=
    { numbered := fun _ h => nomatch h
      issued := fun _ h => nomatch h
      outstanding := fun _ h => nomatch h
      once := List.nodup_nil
      premature := rfl
      unready := rfl }
  signals :=
    { isr := fun _ h => nomatch h
      apart := fun e h => absurd h (by simp [Slot.start])
      errors := fun h => absurd h (by simp [Slot.ErrorsComing, Slot.start])
      unfinished := fun h => nomatch h
      stopped := fun h => nomatch h }

/-! ## What the steps keep -/

theorem Quiet.not_running {s : Slot} (h : Quiet s) : s.controller.running = false := by
  rw [Controller.running, h.finished, Bool.not_true, Bool.and_false]

theorem BlockReady.not_raises {r : Request} {dma : TransferDirection} {c : Controller}
    (h : BlockReady r dma c) (e : Event) : c.raises.has e = false := by
  obtain ⟨transfer, _, _, cmdComplete, _, blocks, left, ready⟩ := h
  rw [c.raises_has e]
  cases e with
  | cmdComplete => simp [cmdComplete]
  | bufferReady =>
    simp [ready]
  | transferComplete =>
    simp [transfer]
    omega

variable {s : Slot}

theorem BlockReady.fail {r : Request} {dma : TransferDirection} {c : Controller}
    (h : BlockReady r dma c) : BlockReady r dma { c with failed := true } :=
  ⟨h.transfer, h.dma, h.busy, h.cmdComplete, h.transferComplete, h.blocks, h.left, h.ready⟩

/-! ### Interrupts -/

theorem coming_raise (s : Slot) (e : Event) : (s.raise e).coming = s.coming.or (.single e) := by
  refine Events.ext_has fun e' => ?_
  simp [Slot.coming, Slot.raise, Bool.or_assoc, Bool.or_comm]

/-- What has been raised and not delivered, when one more event is raised. -/
theorem undelivered_raise {r : Request} {d : Events} {e : Event}
    (h : Stage r s.dmaInProgress s.controller d) (he : s.controller.raises.has e = true)
    (hcoming : ∀ e, s.coming.has e = (d.has e && s.controller.raised.has e)) (e' : Event) :
    (s.raise e).coming.has e' = (d.has e' && (s.raise e).controller.raised.has e') := by
  have hraised : (s.raise e).controller.raised.has e' =
      (s.controller.raised.has e' || decide (e = e')) := h.raised_raise e e'
  rw [coming_raise, Events.has_or, Events.has_single, hcoming e', hraised]
  by_cases heq : e = e'
  · subst heq
    simp [(h.due_of_raises he).1]
  · simp [heq]

theorem Phase.raise {e : Event} (h : Phase s) (he : s.controller.raises.has e = true) :
    Phase (s.raise e) := by
  have hrunning := Controller.running_of_raises he
  cases h with
  | idle _ _ _ quiet => exact absurd hrunning (by simp [quiet.not_running])
  | sendCommand _ _ _ quiet => exact absurd hrunning (by simp [quiet.not_running])
  | writeCommand _ _ _ quiet => exact absurd hrunning (by simp [quiet.not_running])
  | waiting port calls dpc stage account required =>
    have hdue := stage.due_of_raises he
    refine .waiting port calls dpc (stage.raise he) ?_ required
    rw [coming_raise]
    exact account.raise hdue.1 hdue.2 (stage.raised_raise e)
  | completing _ _ _ stage _ _ raised =>
    have hdue := stage.due_of_raises he
    exact absurd (raised e hdue.1) (by simp [hdue.2])
  | failing _ _ _ _ failed => exact absurd hrunning (by simp [Controller.running, failed])
  | transferDue _ _ _ _ _ ready =>
    cases ready with
    | inl ready => exact absurd he (by simp [ready.not_raises])
    | inr ready => exact absurd hrunning (by simp [ready.quiet.not_running])
  | accessPort _ _ _ _ _ _ ready => exact absurd he (by simp [ready.not_raises])
  | setStatus port calls dpc coming required type stage =>
    exact .setStatus port calls dpc (undelivered_raise stage he coming) required type
      (stage.raise he)
  | setRequired port calls dpc coming required type stage =>
    exact .setRequired port calls dpc (undelivered_raise stage he coming) required type
      (stage.raise he)
  | completeDma _ _ _ _ ready => exact absurd hrunning (by simp [ready.quiet.not_running])
  | failed _ _ _ stopped => exact absurd hrunning (by simp [stopped])

theorem Phase.raiseErrors (h : Phase s) (hrunning : s.controller.running = true)
    (errors : SdRegErrorInterrupts) : Phase (s.raiseErrors errors) := by
  cases h with
  | idle _ _ _ quiet => exact absurd hrunning (by simp [quiet.not_running])
  | sendCommand _ _ _ quiet => exact absurd hrunning (by simp [quiet.not_running])
  | writeCommand _ _ _ quiet => exact absurd hrunning (by simp [quiet.not_running])
  | waiting port calls dpc stage account required =>
    exact .waiting port calls dpc stage.fail account required
  | completing port calls dpc stage coming required raised =>
    exact .completing port calls dpc stage.fail coming required raised
  | failing port calls dpc status failed => exact .failing port calls dpc status rfl
  | transferDue port calls dpc coming required ready =>
    cases ready with
    | inl ready => exact .transferDue port calls dpc coming required (.inl ready.fail)
    | inr ready => exact absurd hrunning (by simp [ready.quiet.not_running])
  | accessPort port calls dpc coming required type ready =>
    exact .accessPort port calls dpc coming required type ready.fail
  | setStatus port calls dpc coming required type stage =>
    exact .setStatus port calls dpc coming required type stage.fail
  | setRequired port calls dpc coming required type stage =>
    exact .setRequired port calls dpc coming required type stage.fail
  | completeDma _ _ _ _ ready => exact absurd hrunning (by simp [ready.quiet.not_running])
  | failed _ _ _ stopped => exact absurd hrunning (by simp [stopped])

/-- Moving events on does not change where the run is. -/
theorem Phase.move (h : Phase s) {i : Interrupts} {isr pending : Option Interrupts}
    (hcoming : i.events.or (pending.getD {}).events = s.coming) :
    Phase { s with interruptStatus := i, isr := isr, pending := pending } := by
  cases h with
  | idle port calls dpc quiet =>
    exact .idle port calls dpc ⟨hcoming.trans quiet.coming, quiet.finished⟩
  | sendCommand port calls dpc quiet wellFormed busy =>
    exact .sendCommand port calls dpc ⟨hcoming.trans quiet.coming, quiet.finished⟩ wellFormed busy
  | writeCommand port calls dpc quiet stage required =>
    exact .writeCommand port calls dpc ⟨hcoming.trans quiet.coming, quiet.finished⟩ stage required
  | waiting port calls dpc stage account required =>
    rw [← hcoming] at account
    exact .waiting port calls dpc stage account required
  | completing port calls dpc stage coming required raised =>
    exact .completing port calls dpc stage (hcoming.trans coming) required raised
  | failing port calls dpc status failed => exact .failing port calls dpc status failed
  | transferDue port calls dpc coming required ready =>
    refine .transferDue port calls dpc (hcoming.trans coming) required (ready.imp_right fun h => ?_)
    exact ⟨⟨hcoming.trans coming, h.quiet.finished⟩, h.transfer, h.transferComplete, h.dma⟩
  | accessPort port calls dpc coming required type ready =>
    exact .accessPort port calls dpc (hcoming.trans coming) required type ready
  | setStatus port calls dpc coming required type stage =>
    exact .setStatus port calls dpc (fun e => (congrArg (·.has e) hcoming).trans (coming e)) required
      type stage
  | setRequired port calls dpc coming required type stage =>
    exact .setRequired port calls dpc (fun e => (congrArg (·.has e) hcoming).trans (coming e))
      required type stage
  | completeDma port calls dpc type ready =>
    exact .completeDma port calls dpc type
      ⟨⟨hcoming.trans ready.quiet.coming, ready.quiet.finished⟩, ready.transfer,
        ready.transferComplete, ready.dma⟩
  | failed port calls dpc stopped => exact .failed port calls dpc stopped

theorem SdRegErrorInterrupts.or_eq_empty {a b : SdRegErrorInterrupts} :
    a.or b = {} ↔ a = {} ∧ b = {} := by
  cases a
  cases b
  simp only [SdRegErrorInterrupts.or, SdRegErrorInterrupts.mk.injEq, Bool.or_eq_false_iff]
  tauto

/-- What is raised is not on its way yet. -/
theorem Phase.not_coming {e : Event} (h : Phase s) (he : s.controller.raises.has e = true) :
    s.coming.has e = false := by
  have hrunning := Controller.running_of_raises he
  cases h with
  | idle _ _ _ quiet => exact absurd hrunning (by simp [quiet.not_running])
  | sendCommand _ _ _ quiet => exact absurd hrunning (by simp [quiet.not_running])
  | writeCommand _ _ _ quiet => exact absurd hrunning (by simp [quiet.not_running])
  | waiting _ _ _ stage account =>
    cases hcoming : s.coming.has e with
    | false => rfl
    | true => exact absurd (account.due e hcoming).2 (by simp [(stage.due_of_raises he).2])
  | completing _ _ _ _ coming => simp [coming]
  | failing _ _ _ _ failed => exact absurd hrunning (by simp [Controller.running, failed])
  | transferDue _ _ _ coming => simp [coming]
  | accessPort _ _ _ coming => simp [coming]
  | setStatus _ _ _ coming _ _ stage => simp [coming e, (stage.due_of_raises he).2]
  | setRequired _ _ _ coming _ _ stage => simp [coming e, (stage.due_of_raises he).2]
  | completeDma _ _ _ _ ready => exact absurd hrunning (by simp [ready.quiet.not_running])
  | failed _ _ _ stopped => exact absurd hrunning (by simp [stopped])

theorem Signals.raise {e : Event} (h : Signals s) (hphase : Phase s)
    (he : s.controller.raises.has e = true) : Signals (s.raise e) := by
  have hrunning := Controller.running_of_raises he
  have hok : s.controller.failed = false := by
    cases hf : s.controller.failed with
    | false => rfl
    | true => simp [Controller.running, hf] at hrunning
  have hfailed : (s.raise e).controller.failed = false := by cases e <;> exact hok
  refine ⟨fun i hi => ⟨fun e' he' => ?_, (h.isr i hi).2⟩, fun e' he' => ?_,
    fun herrors => absurd (h.errors herrors) (by simp [hok]), fun hf => absurd hf (by simp [hfailed]),
    fun hf => absurd hf (by simp [hfailed])⟩
  · simp [Slot.raise, (h.isr i hi).1 e' he']
  · have hnew := hphase.not_coming he
    rw [Slot.coming, Events.has_or, Bool.or_eq_false_iff] at hnew
    by_cases heq : e = e'
    · exact heq ▸ hnew.2
    · exact h.apart e' (by simpa [Slot.raise, heq] using he')

theorem Signals.raiseErrors (h : Signals s) (hrunning : s.controller.running = true)
    {errors : SdRegErrorInterrupts} (herrors : errors ≠ {}) : Signals (s.raiseErrors errors) := by
  have hne : s.interruptStatus.errors.or errors ≠ {} := fun h0 =>
    herrors (SdRegErrorInterrupts.or_eq_empty.1 h0).2
  refine ⟨fun i hi => ⟨(h.isr i hi).1, fun _ => hne⟩, h.apart, fun _ => rfl, fun _ => ?_,
    fun _ => .inl (.inl hne)⟩
  rw [Controller.running, Bool.and_eq_true, Bool.not_eq_true', Bool.not_eq_true'] at hrunning
  exact hrunning.2

theorem Signals.raiseOther (h : Signals s) : Signals s.raiseOther :=
  ⟨h.isr, h.apart, h.errors, h.unfinished, h.stopped⟩

theorem Signals.readInterrupts (h : Signals s) : Signals s.readInterrupts := by
  refine ⟨fun i hi => ?_, h.apart, h.errors, h.unfinished, h.stopped⟩
  obtain rfl : s.interruptStatus = i := Option.some.inj hi
  exact ⟨fun _ he => he, id⟩

theorem coming_acknowledge {i : Interrupts} (h : Signals s) (hisr : s.isr = some i) :
    (s.interruptStatus.events.clear i.events).or ((s.pending.getD {}).events.or i.events) =
      s.coming := by
  refine Events.ext_has fun e => ?_
  have hi := (h.isr i hisr).1 e
  simp only [Slot.coming, Events.has_or, Events.has_clear]
  cases hie : i.events.has e with
  | false => simp
  | true => simp [hi hie]

theorem Phase.acknowledgeInterrupts (h : Phase s) (hsignals : Signals s) :
    Phase s.acknowledgeInterrupts := by
  unfold Slot.acknowledgeInterrupts
  cases hisr : s.isr with
  | none => exact h
  | some i => exact h.move (coming_acknowledge hsignals hisr)

theorem errorsComing_acknowledge {i : Interrupts} (h : Signals s) (hisr : s.isr = some i) :
    s.acknowledgeInterrupts.ErrorsComing ↔ s.ErrorsComing := by
  have hi := (h.isr i hisr).2
  by_cases herrors : i.errors = {}
  · simp [Slot.acknowledgeInterrupts, hisr, Slot.ErrorsComing, Slot.acknowledge, herrors, Interrupts.or, SdRegErrorInterrupts.or_eq_empty]
  · simp [Slot.acknowledgeInterrupts, hisr, Slot.ErrorsComing, Slot.acknowledge, herrors, hi herrors, Interrupts.or, SdRegErrorInterrupts.or_eq_empty]

theorem Signals.acknowledgeInterrupts (h : Signals s) : Signals s.acknowledgeInterrupts := by
  cases hisr : s.isr with
  | none =>
    rw [Slot.acknowledgeInterrupts, hisr]
    exact h
  | some i =>
    have herrors := errorsComing_acknowledge h hisr
    simp only [Slot.acknowledgeInterrupts, hisr] at herrors ⊢
    refine ⟨fun _ hi => (nomatch hi), fun e he => ?_, fun he => h.errors (herrors.1 he),
      h.unfinished, fun hf => (h.stopped hf).imp_left herrors.2⟩
    rw [Slot.acknowledge, Events.has_clear, Bool.and_eq_true, Bool.not_eq_true'] at he
    simp [Interrupts.or, h.apart e he.1, he.2]

/-! ### Sdport -/

theorem quiet_no_errors (hquiet : Quiet s) (h : Signals s) :
    s.controller.failed = false ∧ ¬ s.ErrorsComing := by
  have hfailed : s.controller.failed = false := by
    cases hf : s.controller.failed with
    | false => rfl
    | true => exact absurd (h.unfinished hf) (by simp [hquiet.finished])
  exact ⟨hfailed, fun he => absurd (h.errors he) (by simp [hfailed])⟩

/-- The signals, when the controller is the same, and the DPC and the port are not what has
stopped it. -/
theorem Signals.goOn (h : Signals s) {s' : Slot}
    (hstatus : s'.interruptStatus = s.interruptStatus) (hisr : s'.isr = s.isr)
    (hpending : s'.pending = s.pending) (hcontroller : s'.controller.failed = s.controller.failed)
    (hfinished : s'.controller.finished = s.controller.finished) (hport : s.port ≠ .failed)
    (hdpc : ∀ d, s.dpc = some d → d.fails = false) : Signals s' := by
  have herrors : s'.ErrorsComing ↔ s.ErrorsComing := by
    rw [Slot.ErrorsComing, Slot.ErrorsComing, hstatus, hpending]
  refine ⟨?_, ?_, fun he => hcontroller.trans (h.errors (herrors.1 he)), fun hf => ?_, fun hf => ?_⟩
  · rw [hstatus, hisr]
    exact h.isr
  · rw [hstatus, hpending]
    exact h.apart
  · exact hfinished.trans (h.unfinished (hcontroller.symm.trans hf))
  · rcases h.stopped (hcontroller.symm.trans hf) with he | he | ⟨d, hd, hfails⟩
    · exact .inl (herrors.2 he)
    · exact absurd he hport
    · exact absurd hfails (by simp [hdpc d hd])

theorem dpc_none {d : Dpc} {p : Prop} (h : s.dpc = none) (hd : s.dpc = some d) : p := by
  rw [h] at hd
  exact nomatch hd

/-- Sdport issues the next phase. -/
theorem Log.issue (h : Log s) {s' : Slot} (hport : s'.port = .outstanding s.issued)
    (hissued : s'.issued = s.issued + 1) (hcompletions : s'.completions = s.completions)
    (hpremature : s'.premature = s.premature) (hunready : s'.unready = s.unready) : Log s' where
  numbered p hp := by
    obtain rfl : s.issued = p := by simpa [hport] using hp
    exact hissued.symm
  issued c hc := by
    have := h.issued c (hcompletions ▸ hc)
    omega
  outstanding p hp c hc := by
    obtain rfl : s.issued = p := by simpa [hport] using hp
    exact (h.issued c (hcompletions ▸ hc)).ne
  once := hcompletions ▸ h.once
  premature := hpremature.trans h.premature
  unready := hunready.trans h.unready

/-- A step that completes nothing. -/
theorem Log.goOn (h : Log s) {s' : Slot} (hport : s'.port = s.port) (hissued : s'.issued = s.issued)
    (hcompletions : s'.completions = s.completions) (hpremature : s'.premature = s.premature)
    (hunready : s'.unready = s.unready) : Log s' where
  numbered p hp := (h.numbered p (hport ▸ hp)).trans hissued.symm
  issued c hc := hissued ▸ h.issued c (hcompletions ▸ hc)
  outstanding p hp c hc := h.outstanding p (hport ▸ hp) c (hcompletions ▸ hc)
  once := hcompletions ▸ h.once
  premature := hpremature.trans h.premature
  unready := hunready.trans h.unready

/-- The outstanding phase is completed, and not early. -/
theorem Log.complete (h : Log s) {s' : Slot} {p : Nat} {status : Status}
    (hp : s.port = .outstanding p) (hport : s'.port = Slot.portAfter s.request status)
    (hissued : s'.issued = s.issued) (hcompletions : s'.completions = s.completions ++ [⟨p, status⟩])
    (hpremature : s'.premature = false) (hunready : s'.unready = s.unready) : Log s' := by
  have hout : ∀ q, s'.port ≠ .outstanding q := by
    intro q
    rw [hport, Slot.portAfter]
    split_ifs <;> simp
  refine ⟨fun q hq => absurd hq (hout q), fun c hc => ?_, fun q hq => absurd hq (hout q), ?_, hpremature,
    hunready.trans h.unready⟩
  · rw [hcompletions, List.mem_append, List.mem_singleton] at hc
    rcases hc with hc | rfl
    · exact hissued ▸ h.issued c hc
    · have := h.numbered p hp
      show p < s'.issued
      omega
  · rw [hcompletions, List.map_append, List.nodup_append]
    refine ⟨h.once, List.nodup_singleton _, ?_⟩
    rintro a ha b hb rfl
    obtain ⟨c, hc, rfl⟩ := List.mem_map.1 ha
    exact h.outstanding p hp c hc (by simpa using hb)

theorem Inv.issue (h : Inv s) {r : Request} (hport : s.port = .idle) (hr : r.WellFormed)
    {useDma : Bool} (hbusy : r.busy → r.hasData → useDma = true) : Inv (s.issue r useDma) := by
  cases h.phase with
  | idle _ calls dpc quiet =>
    refine ⟨.sendCommand rfl ?_ dpc ⟨quiet.coming, quiet.finished⟩ hr hbusy,
      h.log.issue rfl rfl rfl rfl rfl,
      h.signals.goOn rfl rfl rfl rfl rfl (by simp [hport]) fun d hd => dpc_none dpc hd⟩
    rw [Slot.issue, calls]
  | _ => simp_all only [reduceCtorEq]

theorem Inv.startTransfer (h : Inv s) (hport : s.port = .transferDue) : Inv s.startTransfer := by
  cases h.phase with
  | transferDue _ calls dpc coming required ready =>
    have hlog : Log s.startTransfer := h.log.issue rfl rfl rfl rfl rfl
    have hsignals : Signals s.startTransfer :=
      h.signals.goOn rfl rfl rfl rfl rfl (by simp [hport]) fun d hd => dpc_none dpc hd
    refine ⟨?_, hlog, hsignals⟩
    cases ready with
    | inl ready =>
      refine .accessPort rfl ?_ dpc coming required rfl
        ⟨ready.transfer, ready.dma, ready.busy, ready.cmdComplete, ready.transferComplete,
          ready.blocks, ready.left, ready.ready⟩
      simp [Slot.startTransfer, calls, ready.dma]
    | inr ready =>
      refine .completeDma rfl ?_ dpc rfl
        ⟨⟨coming, ready.quiet.finished⟩, ready.transfer, ready.transferComplete, ready.dma⟩
      simp [Slot.startTransfer, calls, ready.dma]
  | _ => simp_all only [reduceCtorEq]

theorem Inv.recover (h : Inv s) (hport : s.port = .failed) (hisr : s.isr = none) : Inv s.recover := by
  cases h.phase with
  | failed _ calls dpc =>
    refine ⟨.idle rfl calls dpc ⟨rfl, rfl⟩,
      ⟨fun _ hp => (nomatch hp), h.log.issued, fun _ hp => (nomatch hp), h.log.once,
        h.log.premature, h.log.unready⟩, ?_⟩
    refine ⟨fun i hi => ?_, fun e he => ?_, fun he => ?_, fun hf => (nomatch hf), fun hf => (nomatch hf)⟩
    · exact absurd (hisr.symm.trans hi) (by simp)
    · simp [Slot.recover] at he
    · simp [Slot.recover, Slot.ErrorsComing] at he
  | _ => simp_all only [reduceCtorEq]

/-! ### `SlotRequestDpc` -/

theorem Slot.callDpc_eq {p : Nat} {i : Interrupts} (hport : s.port = .outstanding p)
    (hi : s.pending = some i) :
    s.callDpc =
      { s with
        request :=
          { s.request with requiredEvents := (slotRequestDpc s.request.requiredEvents p i).1 }
        pending := none
        dpc := (slotRequestDpc s.request.requiredEvents p i).2 } := by
  rw [callDpc, hport, hi]

/-- The DPC takes what has been collected, and fails when there are errors. -/
theorem Signals.take (h : Signals s) {i : Interrupts} (hi : s.pending = some i)
    (hport : s.port ≠ .failed) (hdpc : s.dpc = none) {r : Request} {dpc : Option Dpc}
    (hfails : i.errors ≠ {} → ∃ d, dpc = some d ∧ d.fails = true) :
    Signals { s with request := r, pending := none, dpc := dpc } := by
  refine ⟨h.isr, fun e _ => Events.has_empty e, fun he => ?_, h.unfinished, fun hf => ?_⟩
  · rcases he with he | he
    · exact h.errors (.inl he)
    · exact absurd rfl he
  · rcases h.stopped hf with (he | he) | hp | ⟨d, hd, -⟩
    · exact .inl (.inl he)
    · exact .inr (.inr (hfails (by simpa [hi] using he)))
    · exact absurd hp hport
    · exact dpc_none hdpc hd

theorem Phase.callDpc_writeCommand {p : Nat} {i : Interrupts} (hi : s.pending = some i)
    (port : s.port = .outstanding p) (calls : s.calls = [.writeCommand p]) (quiet : Quiet s)
    (stage : Stage s.request s.dmaInProgress (.command s.request s.dmaInProgress)
      s.request.requiredEvents)
    (required : s.request.requiredEvents.cmdComplete = true) (hsignals : Signals s) :
    Phase s.callDpc ∧ (i.errors ≠ {} → ∃ d, s.callDpc.dpc = some d ∧ d.fails = true) := by
  have hcoming : s.interruptStatus.events = {} ∧ i.events = {} := by
    rw [← Events.or_eq_empty_iff]
    simpa [Slot.coming, hi] using quiet.coming
  have herrors : i.errors = {} := by
    by_contra he
    exact (quiet_no_errors quiet hsignals).2 (.inr (by simpa [hi] using he))
  have hrequired : s.request.requiredEvents ≠ {} := by
    intro h0
    simp [h0] at required
  have hdpc : Slot.slotRequestDpc s.request.requiredEvents p i = (s.request.requiredEvents, none) := by
    simp [Slot.slotRequestDpc, hcoming.2, herrors, hrequired]
  refine ⟨?_, fun he => absurd herrors he⟩
  rw [Slot.callDpc_eq port hi, hdpc]
  exact .writeCommand port calls rfl ⟨by simp [Slot.coming, hcoming.1], quiet.finished⟩ stage required

theorem Phase.callDpc_waiting {p : Nat} {d : Events} {i : Interrupts} (hi : s.pending = some i)
    (port : s.port = .outstanding p) (calls : s.calls = [])
    (stage : Stage s.request s.dmaInProgress s.controller d)
    (account : Account s.request.requiredEvents s.coming d s.controller.raised)
    (hsignals : Signals s) :
    Phase s.callDpc ∧ (i.errors ≠ {} → ∃ d, s.callDpc.dpc = some d ∧ d.fails = true) := by
  have hapart : ∀ e, s.interruptStatus.events.has e = true → i.events.has e = false := by
    simpa [hi] using hsignals.apart
  have hcoming : s.coming = s.interruptStatus.events.or i.events := by simp [Slot.coming, hi]
  rw [hcoming] at account
  have hleft := account.deliver hapart
  rw [Slot.callDpc_eq port hi]
  by_cases herrors : i.errors = {}
  · refine ⟨?_, fun he => absurd herrors he⟩
    by_cases hempty : s.request.requiredEvents.clear i.events = {}
    · rw [hempty] at hleft
      obtain ⟨hstatus, hraised⟩ := hleft.settled
      refine .completing port calls (.inl ?_) (stage.setRequired _) ?_ hempty hraised
      · simp [Slot.slotRequestDpc, herrors, hempty]
      · simp [Slot.coming, hstatus]
    · refine .waiting port calls ?_ (stage.setRequired _) ?_ hempty
      · simp [Slot.slotRequestDpc, herrors, hempty]
      · simpa [Slot.coming, Slot.slotRequestDpc] using hleft
  · have hdpc : (Slot.slotRequestDpc s.request.requiredEvents p i).2 =
        some (.clear p (errorInterruptToStatus i.errors)) := by
      simp [Slot.slotRequestDpc, herrors]
    refine ⟨?_, fun _ => ⟨_, hdpc, rfl⟩⟩
    exact .failing port calls (.inl hdpc) (errorInterruptToStatus_succeeds herrors)
      (hsignals.errors (.inr (by simpa [hi] using herrors)))

theorem Inv.callDpc (h : Inv s) (hport : s.port.isOutstanding = true) (hpending : s.pending.isSome = true)
    (hdpc : s.dpc = none) (hcalls : ∀ call ∈ s.calls, call.writesCommand = true) :
    Inv s.callDpc := by
  obtain ⟨i, hi⟩ := Option.isSome_iff_exists.1 hpending
  have hphase : ∃ p, s.port = .outstanding p ∧ Phase s.callDpc ∧
      (i.errors ≠ {} → ∃ d, s.callDpc.dpc = some d ∧ d.fails = true) := by
    cases h.phase with
    | idle port | transferDue port | failed port => simp [port, Port.isOutstanding] at hport
    | sendCommand _ calls | accessPort _ calls | setStatus _ calls | setRequired _ calls
    | completeDma _ calls =>
      rw [calls] at hcalls
      exact absurd (hcalls _ (List.mem_singleton_self _)) (by simp [Call.writesCommand])
    | completing _ _ dpc =>
      rcases dpc with dpc | dpc <;> simp [dpc] at hdpc
    | failing _ _ dpc =>
      rcases dpc with dpc | dpc <;> simp [dpc] at hdpc
    | writeCommand port calls dpc quiet stage required =>
      exact ⟨_, port, Phase.callDpc_writeCommand hi port calls quiet stage required h.signals⟩
    | waiting port calls dpc stage account required =>
      exact ⟨_, port, Phase.callDpc_waiting hi port calls stage account h.signals⟩
  obtain ⟨p, hp, hphase, hfails⟩ := hphase
  refine ⟨hphase, ?_, ?_⟩
  · rw [Slot.callDpc_eq hp hi]
    exact h.log.goOn rfl rfl rfl rfl rfl
  · rw [Slot.callDpc_eq hp hi] at hfails ⊢
    exact h.signals.take hi (by simp [hp]) hdpc hfails

/-- A phase is completed after what it may be completed after, or fails. -/
theorem Slot.complete_eq {p : Nat} {status : Status} (hport : s.port = .outstanding p)
    (hdone : status.succeeds = true → PhaseDone s.request s.controller status) :
    s.complete p status =
      { s with
        completions := s.completions ++ [⟨p, status⟩]
        port := portAfter s.request status } := by
  have hearly : s.early p status = false := by
    cases hs : status.succeeds with
    | false => rw [early, hs, Bool.false_and]
    | true => simp [early, hport, hdone hs]
  rw [complete, hearly, if_pos hport, Bool.or_false]

/-- What comes after a phase that is done. -/
theorem Stage.after {r : Request} {dma : TransferDirection} {c : Controller} {d : Events}
    (h : Stage r dma c d) (hraised : ∀ e, d.has e = true → c.raised.has e = true) {status : Status}
    (hstatus : status =
      if r.status = .moreProcessingRequired then .moreProcessingRequired else .success) :
    (Slot.portAfter r status = .idle ∧ c.finished = true) ∨
      (Slot.portAfter r status = .transferDue ∧ (BlockReady r dma c ∨
        c.finished = true ∧ c.transfer = .dma ∧ c.transferComplete = true ∧ dma ≠ .undefined)) := by
  cases h with
  | command type notMore transfer dma busy pio blocks accessed ready due =>
    subst due
    obtain rfl : status = .success := by rw [hstatus, if_neg notMore]
    have hcmd : c.cmdComplete = true := hraised .cmdComplete rfl
    by_cases hdata : r.hasData
    · refine .inr ⟨by simp [Slot.portAfter, type, hdata], ?_⟩
      cases ht : c.transfer with
      | none => exact absurd hdata (transfer.1 ht)
      | pio =>
        obtain ⟨hbusy, htransfer, hblocks⟩ := pio ht
        have hready : c.accessed < c.ready := by
          simpa [Events.has, ht, Controller.raised] using hraised .bufferReady
        refine .inl ⟨ht, dma.2 (by simp [ht]), hbusy, hcmd, htransfer, ?_, ?_, ?_⟩
        all_goals omega
      | dma =>
        have htransfer : c.transferComplete = true := by
          simpa [Events.has, ht, Controller.raised] using hraised .transferComplete
        refine .inr ⟨by simp [Controller.finished, hcmd, htransfer], rfl, htransfer, ?_⟩
        exact fun hdma => dma.1 hdma ht
    · refine .inl ⟨by simp [Slot.portAfter, type, hdata], ?_⟩
      have ht := transfer.2 hdata
      have htransfer := hraised .transferComplete
      simp_all [Events.has, Controller.raised, Controller.finished, Controller.ends]
      tauto
  | block type more transfer dma busy cmdComplete transferComplete blocks left accessed ready due =>
    subst due
    obtain rfl : status = .moreProcessingRequired := by rw [hstatus, if_pos more]
    have hready : c.accessed < c.ready := by
      simpa [Events.has, Controller.raised] using hraised .bufferReady rfl
    exact .inr ⟨rfl, .inl ⟨transfer, dma, busy, cmdComplete, transferComplete, blocks, left,
      by omega⟩⟩
  | last type success transfer dma busy cmdComplete blocks left ready due =>
    subst due
    obtain rfl : status = .success := by rw [hstatus, if_neg (by simp [success])]
    have htransfer : c.transferComplete = true := hraised .transferComplete rfl
    exact .inl ⟨by simp [Slot.portAfter, type], by simp [Controller.finished, cmdComplete, htransfer]⟩

theorem Inv.runDpc_completing (h : Inv s) {p : Nat} {d : Events} (port : s.port = .outstanding p)
    (calls : s.calls = []) (dpc : completingDpc p s.request s.dpc)
    (stage : Stage s.request s.dmaInProgress s.controller d) (coming : s.coming = {})
    (required : s.request.requiredEvents = {})
    (raised : ∀ e, d.has e = true → s.controller.raised.has e = true) : Inv s.runDpc := by
  rcases dpc with dpc | dpc
  · -- `Status` is read
    have hrun : s.runDpc = { s with dpc := some (.complete p
        (if s.request.status = .moreProcessingRequired then .moreProcessingRequired else .success)) } := by
      simp only [Slot.runDpc, dpc]
      split_ifs with hmore
      · rw [hmore]
      · rfl
    rw [hrun]
    refine ⟨.completing port calls (.inr rfl) stage coming required raised,
      h.log.goOn rfl rfl rfl rfl rfl, h.signals.goOn rfl rfl rfl rfl rfl (by simp [port]) ?_⟩
    rintro e he
    obtain rfl := Option.some.inj (dpc.symm.trans he)
    rfl
  · -- the phase is completed
    generalize hstatus : (if s.request.status = .moreProcessingRequired then
      Status.moreProcessingRequired else .success) = status at dpc
    have hdone : Slot.PhaseDone s.request s.controller status := hstatus ▸ stage.phaseDone raised
    obtain ⟨r, hrequired, hblocks, hrun⟩ : ∃ r : Request, r.requiredEvents = {} ∧
        r.blockCount = s.request.blockCount ∧ s.runDpc = { s with
          request := r
          completions := s.completions ++ [⟨p, status⟩]
          port := Slot.portAfter s.request status
          dpc := none } := by
      rw [Slot.runDpc, dpc]
      by_cases hmore : status = .moreProcessingRequired
      · refine ⟨s.request, required, rfl, ?_⟩
        simp only [Slot.completeDone, if_pos hmore]
        rw [Slot.complete_eq port fun _ => hdone]
      · refine ⟨{ s.request with status := status }, required, rfl, ?_⟩
        simp only [Slot.completeDone, if_neg hmore]
        rw [Slot.complete_eq (s := { s with request := { s.request with status := status } }) port
          fun _ => hdone]
        rfl
    rw [hrun]
    refine ⟨?_, h.log.complete port rfl rfl rfl h.log.premature rfl,
      h.signals.goOn rfl rfl rfl rfl rfl (by simp [port]) ?_⟩
    · rcases stage.after raised hstatus.symm with ⟨hport, hfinished⟩ | ⟨hport, hready | hready⟩
      · exact .idle hport calls rfl ⟨coming, hfinished⟩
      · exact .transferDue hport calls rfl coming hrequired
          (.inl ⟨hready.transfer, hready.dma, hready.busy, hready.cmdComplete, hready.transferComplete,
            by rw [hblocks]; exact hready.blocks, by rw [hblocks]; exact hready.left, hready.ready⟩)
      · obtain ⟨hfinished, htransfer, hcomplete, hdma⟩ := hready
        exact .transferDue hport calls rfl coming hrequired
          (.inr ⟨⟨coming, hfinished⟩, htransfer, hcomplete, hdma⟩)
    · rintro e he
      obtain rfl := Option.some.inj (dpc.symm.trans he)
      rfl

/-- A failed completion ends the request. -/
theorem portAfter_of_fails {r : Request} {status : Status} (h : status.succeeds = false) :
    Slot.portAfter r status = .failed := by
  cases status <;> first | exact absurd h (by decide) | rfl

theorem Inv.runDpc (h : Inv s) (hdpc : s.dpc.isSome = true) : Inv s.runDpc := by
  cases h.phase with
  | idle _ _ dpc | sendCommand _ _ dpc | writeCommand _ _ dpc | waiting _ _ dpc | transferDue _ _ dpc
  | accessPort _ _ dpc | setStatus _ _ dpc | setRequired _ _ dpc | completeDma _ _ dpc
  | failed _ _ dpc => simp [dpc] at hdpc
  | completing port calls dpc stage coming required raised =>
    exact h.runDpc_completing port calls dpc stage coming required raised
  | @failing p status port calls dpc hstatus failed =>
    rcases dpc with dpc | dpc
    · -- `RequiredEvents` is cleared
      rw [Slot.runDpc, dpc]
      exact ⟨.failing port calls (.inr rfl) hstatus failed, h.log.goOn rfl rfl rfl rfl rfl,
        h.signals.isr, h.signals.apart, h.signals.errors, h.signals.unfinished,
        fun _ => .inr (.inr ⟨_, rfl, rfl⟩)⟩
    · -- the phase fails
      rw [Slot.runDpc, dpc]
      dsimp only
      rw [Slot.complete_eq port fun hs => absurd hs (by simp [hstatus])]
      have hport := portAfter_of_fails (r := s.request) hstatus
      exact ⟨.failed hport calls rfl (by simp [Controller.running, failed]),
        h.log.complete port rfl rfl rfl h.log.premature rfl, h.signals.isr, h.signals.apart,
        h.signals.errors, h.signals.unfinished, fun _ => .inr (.inl hport)⟩

/-! ### `SlotIssueRequest` -/

/-- How `SendCommand` moves data, when it accepts the request. -/
theorem transferOf_eq_some {r : Request} {useDma : Bool} {transfer : Transfer}
    (h : Slot.transferOf r useDma = some transfer) :
    (transfer = .none ↔ ¬ r.hasData) ∧ (transfer = .dma → r.transferDirection ≠ .undefined) ∧
      (transfer = .pio → useDma = false) := by
  unfold Slot.transferOf at h
  split_ifs at h <;> split at h <;> simp_all [Request.hasData]
  all_goals
    subst h
    simp

/-- The stage that `SendCommand` prepares. -/
theorem stage_sendCommand {r : Request} (wellFormed : r.WellFormed) {useDma : Bool}
    (busy : r.busy → r.hasData → useDma = true) {transfer : Transfer}
    (hdata : transfer = .none ↔ ¬ r.hasData)
    (hdma : transfer = .dma → r.transferDirection ≠ .undefined)
    (hpio : transfer = .pio → useDma = false) {required : Events}
    (hrequired : required = ⟨true, transfer = .pio, r.busy ∨ transfer = .dma⟩)
    {dma : TransferDirection}
    (hdir : dma = if transfer = .dma then r.transferDirection else .undefined) :
    Stage { r with requiredEvents := required } dma
      (.command { r with requiredEvents := required } dma) required := by
  have hhas : transfer ≠ .none → r.hasData := fun hne => not_not.1 fun h0 => hne (hdata.2 h0)
  have hundefined : dma = .undefined ↔ transfer ≠ .dma := by
    rw [hdir]
    split_ifs with ht
    · exact ⟨fun h0 => absurd h0 (hdma ht), fun h0 => absurd ht h0⟩
    · exact ⟨fun _ => ht, fun _ => rfl⟩
  have htransfer :
      (Controller.command { r with requiredEvents := required } dma).transfer = transfer := by
    show (if ¬ r.hasData then _ else _) = transfer
    cases ht : transfer with
    | none => exact if_pos (hdata.1 ht)
    | pio =>
      rw [if_neg (not_not.2 (hhas (by simp [ht]))), if_pos (hundefined.2 (by simp [ht]))]
    | dma =>
      rw [if_neg (not_not.2 (hhas (by simp [ht]))), if_neg fun h0 => hundefined.1 h0 ht]
  refine .command wellFormed.type wellFormed.status ?_ ?_ rfl ?_ rfl rfl (Nat.zero_le _) ?_
  · rw [htransfer]
    exact hdata
  · rw [htransfer]
    exact hundefined
  · rw [htransfer]
    intro ht
    have hd : r.hasData := hhas (by simp [ht])
    refine ⟨?_, rfl, Nat.pos_of_ne_zero (wellFormed.blockCount.1 hd)⟩
    refine decide_eq_false fun hb => ?_
    exact absurd (busy hb hd) (by simp [hpio ht])
  · rw [htransfer]
    exact hrequired

theorem advance_singleton (call : Call) (rest : List Call) :
    advance [call] call rest = rest := by
  simp [advance]

theorem Inv.sendCommand (h : Inv s) {p : Nat} {useDma : Bool} (port : s.port = .outstanding p)
    (calls : s.calls = [.sendCommand p useDma]) (dpc : s.dpc = none) (quiet : Quiet s)
    (wellFormed : s.request.WellFormed)
    (busy : s.request.busy → s.request.hasData → useDma = true) : Inv (s.sendCommand p useDma) := by
  have hnone : ∀ d, s.dpc = some d → d.fails = false := fun d hd => dpc_none dpc hd
  cases htransfer : Slot.transferOf s.request useDma with
  | none =>
    simp only [Slot.sendCommand, htransfer]
    rw [Slot.complete_eq (s := { s with dmaInProgress := .undefined }) port
      fun hs => absurd hs (by decide)]
    refine ⟨.failed rfl ?_ dpc quiet.not_running,
      h.log.complete port rfl rfl rfl h.log.premature rfl,
      h.signals.goOn rfl rfl rfl rfl rfl (by simp [port]) hnone⟩
    simp only [calls, advance_singleton]
  | some transfer =>
    obtain ⟨hdata, hdma, hpio⟩ := transferOf_eq_some htransfer
    simp only [Slot.sendCommand, htransfer]
    refine ⟨.writeCommand port ?_ dpc ⟨quiet.coming, quiet.finished⟩ ?_ rfl,
      h.log.goOn rfl rfl rfl rfl rfl, h.signals.goOn rfl rfl rfl rfl rfl (by simp [port]) hnone⟩
    · simp only [calls, advance_singleton]
    · exact stage_sendCommand wellFormed busy hdata hdma hpio rfl rfl

theorem Inv.writeCommand (h : Inv s) {p : Nat} (port : s.port = .outstanding p)
    (calls : s.calls = [.writeCommand p]) (dpc : s.dpc = none) (quiet : Quiet s)
    (stage : Stage s.request s.dmaInProgress (.command s.request s.dmaInProgress)
      s.request.requiredEvents)
    (required : s.request.requiredEvents.cmdComplete = true) : Inv (s.writeCommand p) := by
  obtain ⟨hfailed, herrors⟩ := quiet_no_errors quiet h.signals
  have hraised : ∀ e, (Controller.command s.request s.dmaInProgress).raised.has e = false := by
    intro e
    cases e <;> rfl
  refine ⟨.waiting port ?_ dpc stage (.of_undelivered fun e => ?_) ?_,
    h.log.goOn rfl rfl rfl rfl rfl, h.signals.isr, h.signals.apart,
    fun he => absurd he herrors, fun hf => (nomatch hf), fun hf => (nomatch hf)⟩
  · simp only [Slot.writeCommand, calls, advance_singleton]
  · have hcoming : (s.writeCommand p).coming = {} := quiet.coming
    rw [hcoming, Events.has_empty]
    simp [Slot.writeCommand, hraised e]
  · intro h0
    have hempty : s.request.requiredEvents = {} := h0
    simp [hempty] at required

/-- The stage after one more block, as `StartPioTransfer` will count it. -/
theorem BlockReady.access {r : Request} {dma : TransferDirection} {c : Controller}
    (h : BlockReady r dma c) (htype : r.type = .startTransfer) :
    ∃ d, Stage (Slot.countBlock r) dma { c with accessed := c.accessed + 1 } d ∧
      ∀ e, (d.has e && ({ c with accessed := c.accessed + 1 } : Controller).raised.has e) = false := by
  have hpos : r.blockCount ≠ 0 := h.left.ne'
  have hblocks := h.blocks
  have hready : ¬ c.accessed + 1 < c.ready := by
    rw [h.ready]
    exact lt_irrefl _
  by_cases hlast : r.blockCount - 1 = 0
  · refine ⟨⟨false, false, true⟩, .last htype ?_ h.transfer h.dma h.busy h.cmdComplete ?_ ?_ ?_ rfl, ?_⟩
    · simp [Slot.countBlock, hpos, hlast]
    · show c.accessed + 1 = c.blocks
      omega
    · simp [Slot.countBlock, hpos, hlast]
    · show c.ready = c.blocks
      rw [h.ready]
      omega
    · intro e
      cases e <;> simp [Events.has, Controller.raised, h.transferComplete]
  · refine ⟨⟨false, true, false⟩, .block htype ?_ h.transfer h.dma h.busy h.cmdComplete
      h.transferComplete ?_ ?_ ?_ ?_ rfl, ?_⟩
    · simp [Slot.countBlock, hpos, hlast]
    · show c.accessed + 1 + (Slot.countBlock r).blockCount = c.blocks
      simp only [Slot.countBlock, if_neg hpos]
      omega
    · simp only [Slot.countBlock, if_neg hpos]
      omega
    · exact h.ready.ge
    · show c.ready ≤ c.accessed + 1 + 1
      rw [h.ready]
      omega
    · intro e
      cases e <;> simp [Events.has, Controller.raised, h.ready]

theorem Inv.accessPort (h : Inv s) {p : Nat} (port : s.port = .outstanding p)
    (calls : s.calls = [.accessPort p]) (dpc : s.dpc = none) (coming : s.coming = {})
    (required : s.request.requiredEvents = {}) (type : s.request.type = .startTransfer)
    (ready : BlockReady s.request s.dmaInProgress s.controller) : Inv (s.accessPort p) := by
  obtain ⟨d, hstage, hraised⟩ := ready.access type
  have hready : ¬ s.controller.ready ≤ s.controller.accessed := by
    rw [ready.ready]
    omega
  refine ⟨.setStatus port ?_ dpc (fun e => ?_) required type hstage, ?_,
    h.signals.goOn rfl rfl rfl rfl rfl (by simp [port]) fun d hd => dpc_none dpc hd⟩
  · simp only [Slot.accessPort, calls, advance_singleton]
  · have hcoming : (s.accessPort p).coming = {} := coming
    rw [hcoming, Events.has_empty]
    exact (hraised e).symm
  · refine h.log.goOn rfl rfl rfl rfl ?_
    simp [Slot.accessPort, hready]

/-- What `StartPioTransfer` requires is what the phase is due. -/
theorem Stage.due_eq {r : Request} {dma : TransferDirection} {c : Controller} {d : Events}
    (h : Stage r dma c d) (htype : r.type = .startTransfer) :
    (if r.blockCount = 0 then { transferComplete := true } else { bufferReady := true } : Events) = d ∧
      d ≠ {} := by
  cases h with
  | command type =>
    rw [htype] at type
    split_ifs at type
  | block _ _ _ _ _ _ _ _ left _ _ due =>
    subst due
    exact ⟨if_neg left.ne', by decide⟩
  | last _ _ _ _ _ _ _ left _ due =>
    subst due
    exact ⟨if_pos left, by decide⟩

theorem Inv.runCall (h : Inv s) {call : Call} (hcall : call ∈ s.calls) : Inv (s.runCall call) := by
  cases h.phase with
  | idle _ calls | waiting _ calls | completing _ calls | failing _ calls | transferDue _ calls
  | failed _ calls => simp [calls] at hcall
  | sendCommand port calls dpc quiet wellFormed busy =>
    obtain rfl : call = _ := List.mem_singleton.1 (calls ▸ hcall)
    exact h.sendCommand port calls dpc quiet wellFormed busy
  | writeCommand port calls dpc quiet stage required =>
    obtain rfl : call = _ := List.mem_singleton.1 (calls ▸ hcall)
    exact h.writeCommand port calls dpc quiet stage required
  | accessPort port calls dpc coming required type ready =>
    obtain rfl : call = _ := List.mem_singleton.1 (calls ▸ hcall)
    exact h.accessPort port calls dpc coming required type ready
  | @setStatus p d port calls dpc coming required type stage =>
    obtain rfl : call = _ := List.mem_singleton.1 (calls ▸ hcall)
    refine ⟨.setRequired port ?_ dpc coming required type stage, h.log.goOn rfl rfl rfl rfl rfl,
      h.signals.goOn rfl rfl rfl rfl rfl (by simp [port]) fun d hd => dpc_none dpc hd⟩
    simp only [Slot.runCall, Slot.setStatus, calls, advance_singleton]
  | @setRequired p d port calls dpc coming required type stage =>
    obtain rfl : call = _ := List.mem_singleton.1 (calls ▸ hcall)
    -- the events that are due become the required ones
    obtain ⟨hdue, hne⟩ := stage.due_eq type
    have hrequired : (s.setRequired p).request.requiredEvents = d := by
      show s.request.requiredEvents.or _ = d
      rw [required, hdue]
      exact Events.ext_has fun e => by simp
    refine ⟨.waiting port ?_ dpc (stage.setRequired _) ?_ ?_, h.log.goOn rfl rfl rfl rfl rfl,
      h.signals.goOn rfl rfl rfl rfl rfl (by simp [port]) fun d hd => dpc_none dpc hd⟩
    · simp only [Slot.runCall, Slot.setRequired, calls, advance_singleton]
    · show Account (s.setRequired p).request.requiredEvents s.coming d s.controller.raised
      rw [hrequired]
      exact .of_undelivered coming
    · show (s.setRequired p).request.requiredEvents ≠ {}
      rw [hrequired]
      exact hne
  | completeDma port calls dpc type ready =>
    obtain rfl : call = _ := List.mem_singleton.1 (calls ▸ hcall)
    have hdone : Slot.PhaseDone { s.request with status := .success } s.controller .success := by
      simp [Slot.PhaseDone, type, ready.transfer, ready.transferComplete]
    simp only [Slot.runCall, Slot.completeDma]
    rw [Slot.complete_eq (s := { s with
      dmaInProgress := .undefined
      request := { s.request with status := .success } }) port fun _ => hdone]
    have hport : Slot.portAfter { s.request with status := .success } .success = .idle := by
      simp [Slot.portAfter, type]
    refine ⟨.idle hport (by simp only [calls, advance_singleton]) dpc ⟨ready.quiet.coming, ready.quiet.finished⟩,
      h.log.complete port (by rw [hport]; simp [Slot.portAfter, type]) rfl rfl h.log.premature rfl,
      h.signals.goOn rfl rfl rfl rfl rfl (by simp [port]) fun d hd => dpc_none dpc hd⟩

/-! ## Runs -/

theorem Inv.effect (h : Inv s) {a : SlotAction} (hen : s.enabled a) (hok : Prepared s a) :
    Inv (s.effect a) := by
  cases a with
  | issue r useDma => exact h.issue hen.1 hen.2 hok
  | startTransfer => exact h.startTransfer hen
  | runCall call => exact h.runCall hen
  | raise e =>
    exact ⟨h.phase.raise hen, h.log.goOn rfl rfl rfl rfl rfl, h.signals.raise h.phase hen⟩
  | raiseErrors errors =>
    exact ⟨h.phase.raiseErrors hen.1 errors, h.log.goOn rfl rfl rfl rfl rfl,
      h.signals.raiseErrors hen.1 hen.2⟩
  | raiseOther => exact ⟨h.phase.move rfl, h.log.goOn rfl rfl rfl rfl rfl, h.signals.raiseOther⟩
  | readInterrupts =>
    exact ⟨h.phase.move rfl, h.log.goOn rfl rfl rfl rfl rfl, h.signals.readInterrupts⟩
  | acknowledgeInterrupts =>
    refine ⟨h.phase.acknowledgeInterrupts h.signals, ?_, h.signals.acknowledgeInterrupts⟩
    rw [Slot.effect, Slot.acknowledgeInterrupts]
    cases s.isr with
    | none => exact h.log
    | some i => exact h.log.goOn rfl rfl rfl rfl rfl
  | callDpc => exact h.callDpc hen.1 hen.2.1 hen.2.2 hok
  | runDpc => exact h.runDpc hen
  | recover => exact h.recover hen.1 hen.2.1

/-- What a phase waits for is on its way or will be raised, unless an error is. -/
theorem Inv.notLost (h : Inv s) (hport : s.port.isOutstanding = true) (hcalls : s.calls = [])
    (hdpc : s.dpc = none) : s.ErrorsComing ∨ s.request.requiredEvents ≠ {} ∧
      ∀ e, s.request.requiredEvents.has e = true →
        s.coming.has e = true ∨ s.controller.raises.has e = true := by
  cases h.phase with
  | idle port | transferDue port | failed port => simp [port, Port.isOutstanding] at hport
  | sendCommand _ calls | writeCommand _ calls | accessPort _ calls | setStatus _ calls
  | setRequired _ calls | completeDma _ calls => simp [calls] at hcalls
  | completing _ _ dpc | failing _ _ dpc => rcases dpc with dpc | dpc <;> simp [dpc] at hdpc
  | waiting port _ _ stage account required =>
    cases hfailed : s.controller.failed with
    | true =>
      rcases h.signals.stopped hfailed with he | hp | ⟨d, hd, -⟩
      · exact .inl he
      · simp [hp, Port.isOutstanding] at hport
      · exact dpc_none hdpc hd
    | false =>
      refine .inr ⟨required, fun e he => ?_⟩
      rw [account.required e, Bool.and_eq_true, Bool.or_eq_true, Bool.not_eq_true'] at he
      obtain ⟨hd, hraised | hcoming⟩ := he
      · exact .inr (stage.raises_of_due hfailed hd hraised)
      · exact .inl hcoming

/-- **When the DPC is only called for phases that have set `RequiredEvents`, phases are completed
once and in time, and no event is lost.** -/
theorem eventsSound_of_prepared {s : Slot} (h : slotMachine.Reach Prepared s) : EventsSound s := by
  have hinv : Inv s := by
    refine Machine.Reach.inv_guarded (fun s hs => ?_) (fun s a hinv hok hen => ?_) h
    · rw [hs]
      exact inv_start
    · exact hinv.effect hen hok
  exact ⟨hinv.log.once, hinv.log.premature, hinv.log.unready, hinv.notLost⟩

/-- A read of two blocks by PIO, with a response without busy. -/
def twoBlocks : Request where
  type := .commandWithTransfer
  responseType := .r1
  commandType := .undefined
  transferType := .multiBlock
  transferDirection := .read
  transferMethod := .pio
  blockCount := 2
  requiredEvents := {}
  status := .pending

/-- The interrupt of an event, and the DPC after it. -/
def deliver : List SlotAction := [.readInterrupts, .acknowledgeInterrupts, .callDpc, .runDpc, .runDpc]

/-- The command, and the first block until it has been accessed. -/
def firstBlock : List SlotAction :=
  [SlotAction.issue twoBlocks false, .runCall (.sendCommand 0 false), .runCall (.writeCommand 0),
    .raise .cmdComplete, .raise .bufferReady] ++ deliver ++
  [SlotAction.startTransfer, .runCall (.accessPort 1), .raise .bufferReady]

/-- The whole read; the DPC comes when `StartPioTransfer` has returned. -/
def preparedRun : List SlotAction :=
  firstBlock ++ [SlotAction.runCall (.setStatus 1), .runCall (.setRequired 1)] ++ deliver ++
  [SlotAction.startTransfer, .runCall (.accessPort 2), .runCall (.setStatus 2),
    .runCall (.setRequired 2), .raise .transferComplete] ++ deliver

theorem eventsSound_of_prepared_twoBlocks :
    ∃ s, slotMachine.Reach Prepared s ∧
      s.completions = [⟨0, .success⟩, ⟨1, .moreProcessingRequired⟩, ⟨2, .success⟩] ∧
      EventsSound s :=
  have h := slotMachine.reach_execOk_get Prepared preparedRun (s := Slot.start) rfl (by rfl)
  ⟨_, h, by rfl, eventsSound_of_prepared h⟩

/-- **The read is completed after its first block**: the buffer-ready event of the second block
finds `RequiredEvents` empty and `Status` as the command has left it. -/
theorem early_ready : ¬ ∀ s, slotMachine.Reachable s → EventsSound s := by
  intro h
  have hrun := slotMachine.reach_exec_get (firstBlock ++ deliver) (s := Slot.start) rfl (by rfl)
  exact absurd (h _ hrun).premature (by decide)

end RpiDrivers.Brcme88c
