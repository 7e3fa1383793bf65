import Mathlib.Data.List.Perm.Subperm
import RpiDrivers.Vchiq.Delivery

/-!
# The CLOSE messages of a service

The driver does not manage the state of a service. A `CLOSE_SERVICE` or `REMOVE_SERVICE` sends a
CLOSE whatever the state is, and nothing is held back after it. `VchiqFileClose` sends one more,
unless a CLOSE of VC has completed such a request.

- `LifecycleSound`: one CLOSE for a service that was opened, and no data after it.
- `unmanaged_service`: the driver does not keep to this.
- `CloseSound`: what it keeps to.
- `closeSound_of_reach`: **every CLOSE has its ioctl or is that of the file close**, and after that
  one no data is sent.
-/

namespace RpiDrivers.Vchiq.Service

open RpiDrivers.Lib
open RpiDrivers.Vchiq.Ioctl (FileQueue IoControlCode fileQueueMax)

/-- The CLOSE messages sent for a file. -/
def closesOf (s : World) (f : Nat) : Nat :=
  (s.sent.filter fun e => e.file = f ∧ e.msg.type = .close).length

/-- The OPENACKs that were given to a file. -/
def acksOf (s : World) (f : Nat) : Nat :=
  (s.delivered.filter fun d => d.2 = f ∧ d.1.type = .openAck).length

/-- The types of messages that carry data. -/
def MsgType.isTransfer : MsgType → Bool
  | .data | .bulkRx | .bulkTx => true
  | .openService | .openAck | .close | .bulkRxDone | .bulkTxDone => false

/-- Neither data nor a bulk transfer after a CLOSE. -/
def Silent (sent : List Sent) : Prop :=
  sent.Pairwise fun e e' =>
    e.msg.type = .close → e'.file = e.file → e'.msg.type.isTransfer = false

instance (sent : List Sent) : Decidable (Silent sent) :=
  inferInstanceAs (Decidable (List.Pairwise _ sent))

/-- At most one CLOSE for each service that was opened, and no transfer after it. -/
structure LifecycleSound (s : World) : Prop where
  closes : ∀ f, closesOf s f ≤ acksOf s f
  silent : Silent s.sent

/-- The ioctls that send a CLOSE. -/
def isClose (code : IoControlCode) : Bool :=
  code = .closeService ∨ code = .removeService

/-- The `CLOSE_SERVICE` and `REMOVE_SERVICE` ioctls of a file. -/
def closeIoctls (s : World) (f : Nat) : Nat :=
  (s.requests.filter fun e => e.1 = f ∧ isClose e.2).length

/-- An ioctl to close a service of the file. -/
def CloseAsked (s : World) (f : Nat) : Prop :=
  ∃ (request : Nat) (code : IoControlCode), s.requests[request]? = some (f, code) ∧ isClose code

/-- What the driver keeps to. Each ioctl sends at most one message, a CLOSE only to close or to
remove a service. `VchiqFileClose` sends at most one, a CLOSE, and only if the state that it found
is not CLOSE, which is the state only once there was such an ioctl. No data is sent after it. -/
structure CloseSound (s : World) : Prop where
  perRequest : (s.sent.filterMap Sent.request).Nodup
  ofIoctl : ∀ e ∈ s.sent, e.msg.type = .close → ∀ request, e.request = some request →
    ∃ code, s.requests[request]? = some (e.file, code) ∧ isClose code
  ofFileClose : ∀ e ∈ s.sent, e.request = none → e.msg.type = .close ∧
    ∃ state, (e.file, state) ∈ s.tested ∧ state ≠ .closed
  perFileClose : ∀ f, (s.sent.filter fun e => e.file = f ∧ e.request = none).length ≤ 1
  answered : ∀ f, (f, .closed) ∈ s.tested →
    CloseAsked s f ∧ ∀ e ∈ s.sent, e.file = f → e.request ≠ none
  bound : ∀ f, closesOf s f ≤ closeIoctls s f + 1
  silent : s.sent.Pairwise fun e e' =>
    e.request = none → e'.file = e.file → e'.msg.type ≠ .data

/-! ## The invariant -/

/-- The handler serves this ioctl. -/
def Handler.Serves : Handler → Nat × IoControlCode → Prop
  | .allocate file code, e => e = (file, code)
  | .scan file code _, e => e = (file, code)
  | .store file code _, e => e = (file, code)
  | .dispatch file code, e => e = (file, code)
  | .send file queue msg, e => e.1 = file ∧ ∃ queue', messageOf e.2 = some (msg.type, queue') ∧
      (queue = none ∨ queue = queue')
  | .notSent _ _, _ | .lost _, _ | .done, _ => True

/-- The message of the request is not sent yet. -/
def Handler.Unsent : Handler → Prop
  | .allocate _ _ | .scan _ _ _ | .store _ _ _ | .dispatch _ _ | .send _ _ _ => True
  | .notSent _ _ | .lost _ | .done => False

/-- `VchiqFileClose` has not sent anything for the file, nor tested its state. -/
def Untested (s : World) (f : Nat) : Prop :=
  (∀ e ∈ s.sent, e.file = f → e.request ≠ none) ∧ ∀ state, (f, state) ∉ s.tested

/-- What holds of the messages and the requests in every run. -/
structure LifeInv (s : World) : Prop where
  serves : ∀ (request : Nat) e, s.requests[request]? = some e → (s.handler request).Serves e
  unsent : ∀ request, (s.handler request).Unsent → ∀ e ∈ s.sent, e.request ≠ some request
  sentBy : ∀ e ∈ s.sent, ∀ request, e.request = some request →
    ∃ code queue, s.requests[request]? = some (e.file, code) ∧
      messageOf code = some (e.msg.type, queue)
  nodup : (s.sent.filterMap Sent.request).Nodup
  queued : ∀ e ∈ s.queued, e.1.2 = .closeService →
    ∃ code, s.requests[e.2]? = some (e.1.1, code) ∧ isClose code
  state : ∀ f context, s.context f = some context → context.state = .closed → CloseAsked s f
  untested : ∀ f, s.phase f = .absent ∨ s.phase f = .opened ∨ s.phase f = .closing .testState →
    Untested s f
  toSend : ∀ f, s.phase f = .closing .sendClose →
    (∀ e ∈ s.sent, e.file = f → e.request ≠ none) ∧
      (∃ state, (f, state) ∈ s.tested ∧ state ≠ .closed) ∧ (f, .closed) ∉ s.tested
  fileClose : ∀ e ∈ s.sent, e.request = none → e.msg.type = .close ∧
    (∃ state, (e.file, state) ∈ s.tested ∧ state ≠ .closed) ∧ (e.file, .closed) ∉ s.tested
  once : ∀ f, (s.sent.filter fun e => e.file = f ∧ e.request = none).length ≤ 1
  asked : ∀ f, (f, .closed) ∈ s.tested → CloseAsked s f
  silent : s.sent.Pairwise fun e e' => e.request = none → e'.file = e.file → e'.msg.type ≠ .data

theorem isClose_of_messageOf {code : IoControlCode} {queue : Option FileQueue}
    (h : messageOf code = some (.close, queue)) : isClose code = true := by
  cases code <;> first | rfl | cases h

theorem queue_of_data {code : IoControlCode} {queue : Option FileQueue}
    (h : messageOf code = some (.data, queue)) : queue = none := by
  cases code <;> cases h
  rfl

theorem isClose_of_queue {code : IoControlCode} {type : MsgType}
    (h : messageOf code = some (type, some .closeService)) : isClose code = true := by
  cases code <;> first | rfl | cases h

namespace LifeInv

variable {s s' : World}

/-- Fields that only the other parts of the driver use are changed. -/
theorem congr (h : LifeInv s) (hphase : s'.phase = s.phase)
    (hcontext : s'.context = s.context) (hqueued : ∀ e ∈ s'.queued, e ∈ s.queued)
    (hrequests : s'.requests = s.requests) (hhandler : s'.handler = s.handler)
    (hsent : s'.sent = s.sent) (htested : s'.tested = s.tested) : LifeInv s' := by
  obtain ⟨handles, phase, context, queued, requests, handler, sent, remote, inFlight, rx, delivered,
    tested⟩ := s'
  subst hphase hcontext hrequests hhandler hsent htested
  exact ⟨h.serves, h.unsent, h.sentBy, h.nodup, fun e he => h.queued e (hqueued e he),
    h.state, h.untested, h.toSend, h.fileClose, h.once, h.asked, h.silent⟩

/-- A handler goes on. -/
theorem setHandler (h : LifeInv s) {request : Nat} {handler : Handler}
    (hserves : ∀ e, s.requests[request]? = some e → handler.Serves e)
    (hunsent : handler.Unsent → (s.handler request).Unsent) :
    LifeInv (s.setHandler request handler) :=
  { h with
    serves := fun r e he => by
      show (Function.update s.handler request handler r).Serves e
      by_cases hr : r = request
      · rw [hr, Function.update_self]
        exact hserves e (hr ▸ he)
      · rw [Function.update_of_ne hr]
        exact h.serves r e he
    unsent := fun r hr => by
      change (Function.update s.handler request handler r).Unsent at hr
      by_cases hreq : r = request
      · rw [hreq, Function.update_self] at hr
        rw [hreq]
        exact h.unsent request (hunsent hr)
      · rw [Function.update_of_ne hreq] at hr
        exact h.unsent r hr
    state := h.state
    untested := h.untested
    asked := h.asked }

/-- The handler has nothing left to send. -/
theorem setHandler_done (h : LifeInv s) (request : Nat) : LifeInv (s.setHandler request .done) :=
  h.setHandler (fun _ _ => trivial) False.elim

/-- A context is changed, and its state is CLOSE only when that was asked for. -/
theorem setContext (h : LifeInv s) {f : Nat} {context : FileContext}
    (hstate : context.state = .closed → CloseAsked s f) :
    LifeInv (s.setContext f context) :=
  { h with
    state := fun g c hc hclosed => by
      change Function.update s.context f (some context) g = some c at hc
      by_cases hg : g = f
      · subst hg
        rw [Function.update_self] at hc
        cases hc
        exact hstate hclosed
      · rw [Function.update_of_ne hg] at hc
        exact h.state g c hc hclosed
    untested := h.untested
    asked := h.asked }

/-- The close of a file goes on, without a message. -/
theorem setPhase (h : LifeInv s) {f : Nat} {phase : FilePhase}
    (huntested : phase = .absent ∨ phase = .opened ∨ phase = .closing .testState → Untested s f)
    (htoSend : phase ≠ .closing .sendClose) : LifeInv (s.setPhase f phase) :=
  { h with
    state := h.state
    untested := fun g hg => by
      change Function.update s.phase f phase g = _ ∨ Function.update s.phase f phase g = _ ∨
        Function.update s.phase f phase g = _ at hg
      by_cases hgf : g = f
      · rw [hgf, Function.update_self] at hg
        rw [hgf]
        exact huntested hg
      · rw [Function.update_of_ne hgf] at hg
        exact h.untested g hg
    toSend := fun g hg => by
      change Function.update s.phase f phase g = _ at hg
      by_cases hgf : g = f
      · rw [hgf, Function.update_self] at hg
        exact absurd hg htoSend
      · rw [Function.update_of_ne hgf] at hg
        exact h.toSend g hg
    asked := h.asked }

/-- A message of an ioctl is put into a slot, and the handler goes on. -/
theorem ioctlMessage (h : LifeInv s) (hbase : Base s) {request f : Nat}
    {queue : Option FileQueue} {msg : TxMsg} (hhandler : s.handler request = .send f queue msg)
    (remote : List (Nat × Nat)) {next : Handler} (hserves : ∀ e, next.Serves e)
    (hsent : ¬next.Unsent) :
    LifeInv (World.setHandler
      { s with sent := s.sent ++ [⟨f, some request, msg⟩], remote := remote } request next) := by
  have hreceived : request < s.requests.length := hbase.received (by simp [hhandler])
  have hserved := h.serves request _ (List.getElem?_eq_getElem hreceived)
  rw [hhandler] at hserved
  obtain ⟨hfile, queue', hmessage, hqueue⟩ := hserved
  have hunsent : ∀ e ∈ s.sent, e.request ≠ some request :=
    h.unsent request (by rw [hhandler]; trivial)
  -- a message with data is in the hands of its handler
  have hdata : msg.type = .data → ∀ e ∈ s.sent, e.file = f → e.request ≠ none := by
    intro htype
    rw [htype] at hmessage
    have hnone : queue = none := hqueue.elim id fun heq => heq.trans (queue_of_data hmessage)
    have hopened := hbase.opened request f (by rw [hhandler, hnone]; rfl)
    exact (h.untested f (.inr (.inl hopened))).1
  refine ⟨fun r e he => ?_, fun r hr e he => ?_, fun e he r hr => ?_, ?_, h.queued, h.state,
    fun g hg => ⟨fun e he hfile => ?_, (h.untested g hg).2⟩,
    fun g hg => ⟨fun e he hfile => ?_, (h.toSend g hg).2⟩, fun e he hnone => ?_, fun g => ?_,
    h.asked, ?_⟩
  · show (Function.update s.handler request next r).Serves e
    by_cases hreq : r = request
    · rw [hreq, Function.update_self]
      exact hserves e
    · rw [Function.update_of_ne hreq]
      exact h.serves r e he
  · change (Function.update s.handler request next r).Unsent at hr
    have hreq : r ≠ request := by
      rintro rfl
      rw [Function.update_self] at hr
      exact hsent hr
    rw [Function.update_of_ne hreq] at hr
    obtain he | he := List.mem_append.1 he
    · exact h.unsent r hr e he
    · rw [List.mem_singleton.1 he]
      exact fun heq => hreq (Option.some.inj heq).symm
  · obtain he | he := List.mem_append.1 he
    · exact h.sentBy e he r hr
    · rw [List.mem_singleton.1 he] at hr ⊢
      cases hr
      refine ⟨(s.requests[request]).2, queue', ?_, hmessage⟩
      show s.requests[request]? = some (f, _)
      rw [List.getElem?_eq_getElem hreceived, ← hfile]
  · show ((s.sent ++ [_]).filterMap Sent.request).Nodup
    rw [List.filterMap_append]
    refine h.nodup.append (List.nodup_singleton request) (List.disjoint_singleton.2 fun hmem => ?_)
    obtain ⟨e, he, heq⟩ := List.mem_filterMap.1 hmem
    exact hunsent e he heq
  · obtain he | he := List.mem_append.1 he
    · exact (h.untested g hg).1 e he hfile
    · rw [List.mem_singleton.1 he]
      exact fun h => by cases h
  · obtain he | he := List.mem_append.1 he
    · exact (h.toSend g hg).1 e he hfile
    · rw [List.mem_singleton.1 he]
      exact fun h => by cases h
  · obtain he | he := List.mem_append.1 he
    · exact h.fileClose e he hnone
    · rw [List.mem_singleton.1 he] at hnone
      cases hnone
  · show ((s.sent ++ [_]).filter _).length ≤ 1
    rw [List.filter_append, List.filter_cons_of_neg (by simp), List.filter_nil, List.append_nil]
    exact h.once g
  · refine List.pairwise_append.2 ⟨h.silent, List.pairwise_singleton .., fun a ha b hb => ?_⟩
    rw [List.mem_singleton.1 hb]
    exact fun hnone hfile htype => hdata htype a ha hfile.symm hnone

/-- The message of `VchiqFileClose` is put into a slot. -/
theorem closeMessage (h : LifeInv s) {f : Nat} {msg : TxMsg} (hclose : msg.type = .close)
    (hphase : s.phase f = .closing .sendClose) (remote : List (Nat × Nat)) :
    LifeInv (World.setPhase
      { s with sent := s.sent ++ [⟨f, none, msg⟩], remote := remote } f
      (.closing .readHandle)) := by
  obtain ⟨hfirst, htested, hopen⟩ := h.toSend f hphase
  -- only this file changes its phase
  have hback : ∀ g phase, Function.update s.phase f (.closing .readHandle) g = phase →
      phase ≠ .closing .readHandle → g ≠ f ∧ s.phase g = phase := by
    intro g phase hg hne
    have hgf : g ≠ f := by
      rintro rfl
      rw [Function.update_self] at hg
      exact hne hg.symm
    exact ⟨hgf, (Function.update_of_ne hgf ..).symm.trans hg⟩
  have hearly : ∀ g, Function.update s.phase f (.closing .readHandle) g = .absent ∨
      Function.update s.phase f (.closing .readHandle) g = .opened ∨
        Function.update s.phase f (.closing .readHandle) g = .closing .testState →
      g ≠ f ∧ Untested s g := by
    rintro g (hg | hg | hg)
    · obtain ⟨hgf, heq⟩ := hback g _ hg (fun h => by cases h)
      exact ⟨hgf, h.untested g (.inl heq)⟩
    · obtain ⟨hgf, heq⟩ := hback g _ hg (fun h => by cases h)
      exact ⟨hgf, h.untested g (.inr (.inl heq))⟩
    · obtain ⟨hgf, heq⟩ := hback g _ hg (fun h => by cases h)
      exact ⟨hgf, h.untested g (.inr (.inr heq))⟩
  refine ⟨h.serves, fun r hr e he => ?_, fun e he r hr => ?_, ?_, h.queued, h.state,
    fun g hg => ⟨fun e he hfile => ?_, ?_⟩, fun g hg => ?_, fun e he hnone => ?_, fun g => ?_,
    h.asked, ?_⟩
  · obtain he | he := List.mem_append.1 he
    · exact h.unsent r hr e he
    · rw [List.mem_singleton.1 he]
      exact fun h => by cases h
  · obtain he | he := List.mem_append.1 he
    · exact h.sentBy e he r hr
    · rw [List.mem_singleton.1 he] at hr
      cases hr
  · show ((s.sent ++ [_]).filterMap Sent.request).Nodup
    rw [List.filterMap_append]
    exact (List.append_nil _).symm ▸ h.nodup
  · obtain ⟨hgf, huntested⟩ := hearly g hg
    obtain he | he := List.mem_append.1 he
    · exact huntested.1 e he hfile
    · rw [List.mem_singleton.1 he] at hfile
      exact absurd hfile.symm hgf
  · exact (hearly g hg).2.2
  · obtain ⟨hgf, heq⟩ := hback g _ hg (fun h => by cases h)
    refine ⟨fun e he hfile => ?_, (h.toSend g heq).2⟩
    obtain he | he := List.mem_append.1 he
    · exact (h.toSend g heq).1 e he hfile
    · rw [List.mem_singleton.1 he] at hfile
      exact absurd hfile.symm hgf
  · obtain he | he := List.mem_append.1 he
    · exact h.fileClose e he hnone
    · rw [List.mem_singleton.1 he]
      exact ⟨hclose, htested, hopen⟩
  · show ((s.sent ++ [_]).filter _).length ≤ 1
    by_cases hgf : g = f
    · have hempty : (s.sent.filter fun e => e.file = g ∧ e.request = none) = [] := by
        refine List.filter_eq_nil_iff.2 fun e he hp => ?_
        obtain ⟨hfile, hnone⟩ := of_decide_eq_true hp
        exact hfirst e he (hfile.trans hgf) hnone
      rw [List.filter_append, hempty, List.nil_append]
      exact List.length_filter_le ..
    · rw [List.filter_append, List.filter_cons_of_neg (by simpa using fun heq => hgf heq.symm),
        List.filter_nil, List.append_nil]
      exact h.once g
  · refine List.pairwise_append.2 ⟨h.silent, List.pairwise_singleton .., fun a _ b hb => ?_⟩
    rw [List.mem_singleton.1 hb, hclose]
    exact fun _ _ => (fun h => by cases h)

/-! ### The steps -/

theorem start : LifeInv .start where
  serves := nofun
  unsent _ hr := hr.elim
  sentBy := nofun
  nodup := List.nodup_nil
  queued := nofun
  state := nofun
  untested _ _ := ⟨nofun, nofun⟩
  toSend := nofun
  fileClose := nofun
  once _ := Nat.zero_le _
  asked := nofun
  silent := List.Pairwise.nil

theorem getElem?_append_of_some {requests : List (Nat × IoControlCode)}
    {e x : Nat × IoControlCode} {request : Nat} (h : requests[request]? = some x) :
    (requests ++ [e])[request]? = some x := by
  rw [List.getElem?_append_left (List.getElem?_eq_some_iff.1 h).1]
  exact h

/-- A request is received: it is the next one, and nothing was sent for it. -/
theorem ioctl (h : LifeInv s) (f : Nat) (code : IoControlCode) : LifeInv (s.ioctl f code) := by
  have hstart : (startHandler f (s.context f) code).Serves (f, code) := by
    unfold startHandler
    split <;> split <;> first | rfl | trivial
  have hasked : ∀ g, CloseAsked s g → CloseAsked (s.ioctl f code) g := by
    rintro g ⟨request, c, hrequest, hclose⟩
    exact ⟨request, c, getElem?_append_of_some hrequest, hclose⟩
  refine ⟨fun r e he => ?_, fun r hr e he hrequest => ?_, fun e he r hr => ?_, h.nodup,
    fun e he hqueue => ?_, fun g c hc hclosed => hasked g (h.state g c hc hclosed), h.untested,
    h.toSend, h.fileClose, h.once, fun g hg => hasked g (h.asked g hg), h.silent⟩
  · show (Function.update s.handler s.requests.length _ r).Serves e
    change (s.requests ++ [(f, code)])[r]? = some e at he
    by_cases hlast : r = s.requests.length
    · rw [hlast, List.getElem?_append_right (Nat.le_refl _), Nat.sub_self] at he
      cases he
      rw [hlast, Function.update_self]
      exact hstart
    · have hlt : r < s.requests.length := by
        have hlt := (List.getElem?_eq_some_iff.1 he).1
        rw [List.length_append, List.length_singleton] at hlt
        omega
      rw [List.getElem?_append_left hlt] at he
      rw [Function.update_of_ne hlast]
      exact h.serves r e he
  · change (Function.update s.handler s.requests.length _ r).Unsent at hr
    by_cases hlast : r = s.requests.length
    · obtain ⟨c, q, hreceived, -⟩ := h.sentBy e he r hrequest
      have hlt := (List.getElem?_eq_some_iff.1 hreceived).1
      omega
    · rw [Function.update_of_ne hlast] at hr
      exact h.unsent r hr e he hrequest
  · obtain ⟨c, q, hreceived, hmessage⟩ := h.sentBy e he r hr
    exact ⟨c, q, getElem?_append_of_some hreceived, hmessage⟩
  · obtain ⟨c, hreceived, hclose⟩ := h.queued e he hqueue
    exact ⟨c, getElem?_append_of_some hreceived, hclose⟩

theorem allocateContext (h : LifeInv s) {request f : Nat} {code : IoControlCode}
    (hhandler : s.handler request = .allocate f code) (allocated : Bool) :
    LifeInv (s.allocateContext request f code allocated) := by
  have hserves := h.serves request
  rw [hhandler] at hserves
  rw [World.allocateContext]
  split
  · refine (h.setContext fun hstate => ?_).setHandler hserves fun _ => ?_
    · cases hc : s.context f with
      | some context =>
        rw [hc] at hstate
        exact h.state f context hc hstate
      | none =>
        rw [hc] at hstate
        cases hstate
    · rw [show (s.setContext f _).handler request = _ from hhandler]
      trivial
  · exact h.setHandler_done request

theorem tryPort (h : LifeInv s) {request f port : Nat} {code : IoControlCode}
    (hhandler : s.handler request = .scan f code port) :
    LifeInv (s.tryPort request f code port) := by
  have hserves := h.serves request
  rw [hhandler] at hserves
  have hunsent : (s.handler request).Unsent := by
    rw [hhandler]
    trivial
  rw [World.tryPort]
  split
  · exact h.setHandler_done request
  · split
    · have htaken : LifeInv (s.setHandle port (some f)) :=
        h.congr rfl rfl (fun _ => id) rfl rfl rfl rfl
      exact htaken.setHandler hserves fun _ => hunsent
    · exact h.setHandler hserves fun _ => hunsent

theorem storePort (h : LifeInv s) {request f port : Nat} {code : IoControlCode}
    (hhandler : s.handler request = .store f code port) (created : Nat) (rest : Bool) :
    LifeInv (s.storePort request f code port created rest) := by
  have hserves := h.serves request
  rw [hhandler] at hserves
  refine (h.setContext fun hstate => ?_).setHandler (fun e he => ?_) fun _ => ?_
  · cases hc : s.context f with
    | some context =>
      rw [hc] at hstate
      exact h.state f context hc hstate
    | none =>
      rw [hc] at hstate
      cases hstate
  · split
    · exact hserves e he
    · trivial
  · rw [show (s.setContext f _).handler request = _ from hhandler]
    trivial

/-- A request is put into a queue. -/
theorem forward (h : LifeInv s) {f request : Nat} {queue : FileQueue}
    (hclose : queue = .closeService →
      ∃ code, s.requests[request]? = some (f, code) ∧ isClose code) :
    LifeInv { s with queued := s.queued.forward (f, queue) request } :=
  { h with
    queued := fun e he hqueue => by
      obtain he | he := List.mem_append.1 he
      · exact h.queued e he hqueue
      · rw [List.mem_singleton.1 he] at hqueue ⊢
        exact hclose hqueue
    state := h.state
    untested := h.untested
    asked := h.asked }

/-- The message is that of the ioctl, and the queue its queue. -/
theorem dispatch (h : LifeInv s) (hbase : Base s) {request f : Nat} {code : IoControlCode}
    (hhandler : s.handler request = .dispatch f code) (valid forward : Bool) :
    LifeInv (s.dispatch request f code valid forward) := by
  have hserves := h.serves request
  rw [hhandler] at hserves
  have hunsent : (s.handler request).Unsent := by
    rw [hhandler]
    trivial
  rw [World.dispatch]
  split
  · next context type queue _ hmessage =>
    dsimp only
    split
    · exact h.setHandler_done request
    · split
      · refine h.setHandler (fun e he => ?_) fun _ => hunsent
        rw [hserves e he]
        exact ⟨rfl, none, hmessage, .inl rfl⟩
      · next queue =>
        split
        · refine h.setHandler (fun e he => ?_) fun _ => hunsent
          rw [hserves e he]
          exact ⟨rfl, some queue, hmessage, .inl rfl⟩
        · split
          · have hclose : queue = .closeService →
                ∃ c, s.requests[request]? = some (f, c) ∧ isClose c := by
              intro hqueue
              have hreceived : request < s.requests.length := hbase.received (by simp [hhandler])
              have hget := List.getElem?_eq_getElem hreceived
              rw [hserves _ hget] at hget
              exact ⟨code, hget, isClose_of_queue (hmessage.trans (by rw [hqueue]))⟩
            refine (h.forward hclose).setHandler (fun e he => ?_) fun _ => hunsent
            rw [hserves e he]
            exact ⟨rfl, some queue, hmessage, .inr rfl⟩
          · exact h.setHandler_done request
  · exact h.setHandler_done request

theorem send (h : LifeInv s) (hbase : Base s) {request f : Nat} {queue : Option FileQueue}
    {msg : TxMsg} (hhandler : s.handler request = .send f queue msg) (outcome : QueueMessage) :
    LifeInv (s.send request f queue msg outcome) := by
  have hserves : ∀ success e, (afterSend f queue msg success).Serves e := by
    intro success e
    unfold afterSend
    split <;> split <;> trivial
  have hsent : ∀ success, ¬(afterSend f queue msg success).Unsent := by
    intro success
    unfold afterSend
    split <;> split <;> exact id
  rw [World.send, World.queueMessage]
  split
  · exact h.setHandler (fun e _ => hserves _ e) fun hu => absurd hu (hsent _)
  · exact h.ioctlMessage hbase hhandler _ (hserves _) (hsent _)

theorem withQueued (h : LifeInv s) {queued : ManualQueues (Nat × FileQueue) Nat}
    (hsub : ∀ e ∈ queued, e ∈ s.queued) : LifeInv { s with queued := queued } :=
  h.congr rfl rfl hsub rfl rfl rfl rfl

/-- A request is taken from a queue, if it is there. -/
theorem mem_of_retrieveFound {queued : ManualQueues (Nat × FileQueue) Nat}
    {queue : Nat × FileQueue} {request : Nat} {e : (Nat × FileQueue) × Nat}
    (he : e ∈ ((queued.retrieveFound queue request).map Prod.snd).getD queued) : e ∈ queued := by
  cases hfound : queued.retrieveFound queue request with
  | none =>
    rw [hfound] at he
    exact he
  | some found =>
    rw [hfound] at he
    exact ManualQueues.mem_of_mem_retrieve hfound he

theorem notSent (h : LifeInv s) (request f : Nat) (queue : FileQueue) :
    LifeInv (s.notSent request f queue) :=
  (h.withQueued fun _ => mem_of_retrieveFound).setHandler_done request

theorem closeFile (h : LifeInv s) {f : Nat} (hopened : s.phase f = .opened) :
    LifeInv (s.closeFile f) := by
  refine h.setPhase (fun _ => h.untested f (.inr (.inl hopened))) ?_
  split <;> nofun

theorem testState (h : LifeInv s) {f : Nat} (hphase : s.phase f = .closing .testState) :
    LifeInv (s.testState f) := by
  have huntested := h.untested f (.inr (.inr hphase))
  rw [World.testState]
  split
  · exact h
  · next context hc =>
    -- a file that has sent its CLOSE has been tested before
    have hsent : ∀ e ∈ s.sent, e.request = none → e.file ≠ f :=
      fun e he hnone hfile => huntested.1 e he hfile hnone
    have hclosed : ∀ g, g ≠ f → (g, .closed) ∉ s.tested →
        (g, .closed) ∉ s.tested ++ [(f, context.state)] := by
      intro g hg hnot hmem
      obtain hmem | hmem := List.mem_append.1 hmem
      · exact hnot hmem
      · exact hg (Prod.mk.inj (List.mem_singleton.1 hmem)).1
    refine ⟨h.serves, h.unsent, h.sentBy, h.nodup, h.queued, h.state, fun g hg => ?_,
      fun g hg => ?_, fun e he hnone => ?_, h.once, fun g hg => ?_, h.silent⟩
    · change Function.update s.phase f _ g = _ ∨ Function.update s.phase f _ g = _ ∨
        Function.update s.phase f _ g = _ at hg
      have hgf : g ≠ f := by
        rintro rfl
        rw [Function.update_self] at hg
        obtain hg | hg | hg := hg
        · cases hg
        · cases hg
        · split at hg <;> cases hg
      rw [Function.update_of_ne hgf] at hg
      refine ⟨(h.untested g hg).1, fun state hmem => ?_⟩
      obtain hmem | hmem := List.mem_append.1 hmem
      · exact (h.untested g hg).2 state hmem
      · exact hgf (Prod.mk.inj (List.mem_singleton.1 hmem)).1
    · change Function.update s.phase f _ g = _ at hg
      by_cases hgf : g = f
      · subst hgf
        rw [Function.update_self] at hg
        split at hg
        · next hopen =>
          refine ⟨huntested.1, ⟨context.state, List.mem_append_right _ (.head _), hopen⟩,
            fun hmem => ?_⟩
          obtain hmem | hmem := List.mem_append.1 hmem
          · exact huntested.2 _ hmem
          · exact hopen (Prod.mk.inj (List.mem_singleton.1 hmem)).2.symm
        · cases hg
      · rw [Function.update_of_ne hgf] at hg
        obtain ⟨hfirst, ⟨state, hmem, hopen⟩, hnot⟩ := h.toSend g hg
        exact ⟨hfirst, ⟨state, List.mem_append_left _ hmem, hopen⟩, hclosed g hgf hnot⟩
    · obtain ⟨htype, ⟨state, hmem, hopen⟩, hnot⟩ := h.fileClose e he hnone
      exact ⟨htype, ⟨state, List.mem_append_left _ hmem, hopen⟩,
        hclosed e.file (hsent e he hnone) hnot⟩
    · obtain hg | hg := List.mem_append.1 hg
      · exact h.asked g hg
      · obtain ⟨rfl, hstate⟩ := Prod.mk.inj (List.mem_singleton.1 hg)
        exact h.state g context hc hstate.symm

theorem sendClose (h : LifeInv s) {f : Nat} (hphase : s.phase f = .closing .sendClose)
    (outcome : QueueMessage) : LifeInv (s.sendClose f outcome) := by
  rw [World.sendClose]
  split
  · exact h
  · rw [World.queueMessage]
    split
    · refine h.setPhase (fun hearly => ?_) (fun h => by cases h)
      obtain hearly | hearly | hearly := hearly <;> cases hearly
    · exact h.closeMessage rfl hphase _

theorem readHandle (h : LifeInv s) (f : Nat) : LifeInv (s.readHandle f) := by
  rw [World.readHandle]
  split
  · exact h
  · refine h.setPhase (fun hearly => ?_) (fun h => by cases h)
    obtain hearly | hearly | hearly := hearly <;> cases hearly

theorem releaseHandle (h : LifeInv s) (hbase : Base s) {f portNumber : Nat} {temp : Option Nat}
    (hphase : s.phase f = .closing (.release portNumber temp)) :
    LifeInv (s.release f portNumber temp) := by
  obtain ⟨context, hc, -, htemp⟩ := hbase.release f portNumber temp hphase
  rw [Base.release_eq hc htemp]
  have hfree : LifeInv (s.setHandle portNumber none) :=
    h.congr rfl rfl (fun _ => id) rfl rfl rfl rfl
  have hclosed : LifeInv ((s.setHandle portNumber none).setPhase f .closed) := by
    refine hfree.setPhase (fun hearly => ?_) (fun h => by cases h)
    obtain hearly | hearly | hearly := hearly <;> cases hearly
  have hemptied : LifeInv (((s.setHandle portNumber none).setPhase f .closed).setContext f
      { context with pendingDataMsgList := [] }) :=
    hclosed.setContext fun hstate => h.state f context hc hstate
  exact hemptied.withQueued fun e he => List.mem_of_mem_filter he

/-- CLOSE is the state only when a request to close has been in its queue. -/
theorem deliver (h : LifeInv s) {g : Nat} {context : FileContext} (hc : s.context g = some context)
    (msg : RxMsg) (retrieve listed : Bool) :
    LifeInv (s.deliver g context msg retrieve listed) := by
  have hlogged : LifeInv { s with delivered := s.delivered ++ [(msg, g)] } :=
    h.congr rfl rfl (fun _ => id) rfl rfl rfl rfl
  have hbefore : (beforeRequest context msg).state = context.state := by
    unfold beforeRequest
    split <;> rfl
  have hkeep : (beforeRequest context msg).state = .closed → CloseAsked s g :=
    fun hstate => h.state g context hc (hbefore.symm.trans hstate)
  unfold World.deliver
  dsimp only
  split
  · split
    · exact hlogged.setContext hkeep
    · exact hlogged
  · next queue hqueue =>
    split
    · exact hlogged.setContext hkeep
    · next request queued hretrieve =>
      split at hretrieve
      · have hqueued := hlogged.withQueued fun e he =>
          ManualQueues.mem_of_mem_retrieve hretrieve he
        refine hqueued.setContext fun hstate => ?_
        unfold afterRequest at hstate
        split at hstate
        · cases hstate
        · next htype =>
          obtain ⟨key, hkey, hmem⟩ := ManualQueues.mem_retrieve hretrieve
          have hkey : key = (g, queue) := of_decide_eq_true hkey
          have hclose : queue = .closeService := by
            rw [RxMsg.queue, htype] at hqueue
            exact (Option.some.inj hqueue).symm
          rw [hkey, hclose] at hmem
          obtain ⟨code, hreceived, hasked⟩ := h.queued _ hmem rfl
          exact ⟨request, code, hreceived, hasked⟩
        · split at hstate <;> exact hkeep hstate
        · split at hstate <;> exact hkeep hstate
        · exact hkeep hstate
      · cases hretrieve

theorem rxHandle (h : LifeInv s) (msg : RxMsg) (handle : Option Nat) (retrieve listed : Bool) :
    LifeInv (s.rxHandle msg handle retrieve listed) := by
  have hidle : LifeInv { s with rx := none } := h.congr rfl rfl (fun _ => id) rfl rfl rfl rfl
  unfold World.rxHandle
  dsimp only
  split
  · exact hidle
  · split
    · exact hidle
    · next hc =>
      split
      · exact hidle.deliver hc msg retrieve listed
      · exact hidle

theorem effect (h : LifeInv s) (hbase : Base s) (a : Action) (hen : s.enabled a) :
    LifeInv (s.effect a) := by
  cases a with
  | openFile f => exact h.setPhase (fun _ => h.untested f (.inl hen)) (fun h => by cases h)
  | ioctl f code => exact h.ioctl f code
  | allocateContext request f code allocated => exact h.allocateContext hen allocated
  | tryPort request f code port => exact h.tryPort hen
  | storePort request f code port created rest => exact h.storePort hen created rest
  | dispatch request f code valid forward => exact h.dispatch hbase hen valid forward
  | send request f queue msg outcome => exact h.send hbase hen outcome
  | notSent request f queue => exact h.notSent request f queue
  | cancel f queue request => exact h.withQueued fun _ => mem_of_retrieveFound
  | closeFile f => exact h.closeFile hen.1
  | testState f => exact h.testState hen
  | sendClose f outcome => exact h.sendClose hen outcome
  | readHandle f => exact h.readHandle f
  | release f portNumber temp => exact h.releaseHandle hbase hen
  | vcSend msg => exact h.congr rfl rfl (fun _ => id) rfl rfl rfl rfl
  | vcClosed f port => exact h.congr rfl rfl (fun _ => id) rfl rfl rfl rfl
  | rxLookup =>
    show LifeInv s.rxLookup
    rw [World.rxLookup]
    split
    · exact h
    · exact h.congr rfl rfl (fun _ => id) rfl rfl rfl rfl
  | rxHandle msg handle retrieve listed => exact h.rxHandle msg handle retrieve listed

end LifeInv

/-! ## Counting the CLOSE messages -/

/-- Some messages have a request, the others do not. -/
theorem length_requests (l : List Sent) :
    l.length = (l.filter fun e => e.request = none).length + (l.filterMap Sent.request).length := by
  induction l with
  | nil => rfl
  | cons e l ih =>
    cases he : e.request with
    | none =>
      rw [List.filter_cons_of_pos (by simp [he]), List.filterMap_cons_none he, List.length_cons,
        List.length_cons, ih]
      omega
    | some request =>
      rw [List.filter_cons_of_neg (by simp [he]), List.filterMap_cons_some he, List.length_cons,
        List.length_cons, ih]
      omega

/-- Different indices of entries of a kind are not more than the entries of this kind. -/
theorem length_le_of_indices {α : Type} {p : α → Bool} {l : List α} {indices : List Nat}
    (hnodup : indices.Nodup) (h : ∀ i ∈ indices, ∃ a, l[i]? = some a ∧ p a) :
    indices.length ≤ (l.filter p).length := by
  have hsub : indices ⊆ (l.zipIdx.filter fun e => p e.1).map Prod.snd := by
    intro i hi
    obtain ⟨a, ha, hp⟩ := h i hi
    exact List.mem_map.2 ⟨(a, i), List.mem_filter.2 ⟨List.mk_mem_zipIdx_iff_getElem?.2 ha, hp⟩, rfl⟩
  calc indices.length
      ≤ ((l.zipIdx.filter fun e => p e.1).map Prod.snd).length := (hnodup.subperm hsub).length_le
    _ = ((l.zipIdx.map Prod.fst).filter p).length := by
        rw [List.length_map, List.filter_map, List.length_map]
        rfl
    _ = (l.filter p).length := by rw [List.zipIdx_map_fst]

namespace LifeInv

variable {s : World}

theorem ofIoctl (h : LifeInv s) {e : Sent} (he : e ∈ s.sent) (htype : e.msg.type = .close)
    {request : Nat} (hrequest : e.request = some request) :
    ∃ code, s.requests[request]? = some (e.file, code) ∧ isClose code := by
  obtain ⟨code, queue, hreceived, hmessage⟩ := h.sentBy e he request hrequest
  rw [htype] at hmessage
  exact ⟨code, hreceived, isClose_of_messageOf hmessage⟩

theorem bound (h : LifeInv s) (f : Nat) : closesOf s f ≤ closeIoctls s f + 1 := by
  have hioctls : ((s.sent.filter fun e => e.file = f ∧ e.msg.type = .close).filterMap
      Sent.request).length ≤ closeIoctls s f := by
    refine length_le_of_indices ?_ fun request hrequest => ?_
    · exact h.nodup.sublist (List.Sublist.filterMap _ List.filter_sublist)
    · obtain ⟨e, he, hrequest⟩ := List.mem_filterMap.1 hrequest
      obtain ⟨he, hp⟩ := List.mem_filter.1 he
      obtain ⟨hfile, htype⟩ := of_decide_eq_true hp
      obtain ⟨code, hreceived, hclose⟩ := h.ofIoctl he htype hrequest
      exact ⟨(e.file, code), hreceived, decide_eq_true ⟨hfile, hclose⟩⟩
  have hfileClose : ((s.sent.filter fun e => e.file = f ∧ e.msg.type = .close).filter
      fun e => e.request = none).length ≤ 1 := by
    refine Nat.le_trans (List.Sublist.length_le ?_) (h.once f)
    rw [List.filter_filter]
    refine List.monotone_filter_right _ fun e hp => ?_
    obtain ⟨hnone, hclose⟩ := Bool.and_eq_true_iff.1 hp
    exact decide_eq_true ⟨(of_decide_eq_true hclose).1, of_decide_eq_true hnone⟩
  rw [closesOf, length_requests]
  omega

/-- The invariant gives the property. -/
theorem sound (h : LifeInv s) : CloseSound s where
  perRequest := h.nodup
  ofIoctl e he htype _ hrequest := h.ofIoctl he htype hrequest
  ofFileClose e he hnone := ⟨(h.fileClose e he hnone).1, (h.fileClose e he hnone).2.1⟩
  perFileClose := h.once
  answered f hf := by
    refine ⟨h.asked f hf, fun e he hfile hnone => (h.fileClose e he hnone).2.2 ?_⟩
    rwa [hfile]
  bound := h.bound
  silent := h.silent

end LifeInv

/-- **The CLOSE messages of the driver**, in every run: each is that of an ioctl to close or to
remove a service, which sends one, or the one of the file close; and no data is sent after this. -/
theorem closeSound_of_reach {s : World} (h : serviceMachine.Reachable s) : CloseSound s := by
  have hinv : Base s ∧ LifeInv s := by
    refine Machine.Reach.inv_guarded (P := fun s => Base s ∧ LifeInv s) (fun s hs => ?_)
      (fun s a hinv _ hen => ?_) h
    · rw [hs]
      exact ⟨.start, .start⟩
    · exact ⟨hinv.1.effect a hen, hinv.2.effect hinv.1 a hen⟩
  exact hinv.2.sound

/-- A file opens a service and closes it twice, and sends data after that. Another one opens no
service, and is closed. -/
def unmanagedRun : List Action :=
  [.openFile 0, .ioctl 0 .createService, .allocateContext 0 0 .createService true,
    .tryPort 0 0 .createService 1, .storePort 0 0 .createService 1 fileQueueMax true,
    .dispatch 0 0 .createService true true,
    .send 0 0 (some .createService) ⟨.openService, 1, 0⟩ .success, .vcSend ⟨.openAck, 50, 1, 0, 0⟩,
    .rxLookup, .rxHandle ⟨.openAck, 50, 1, 0, 0⟩ (some 0) true true,
    .ioctl 0 .closeService, .dispatch 1 0 .closeService true true,
    .send 1 0 (some .closeService) ⟨.close, 1, 50⟩ .success,
    .ioctl 0 .removeService, .dispatch 2 0 .removeService true true,
    .send 2 0 (some .closeService) ⟨.close, 1, 50⟩ .success,
    .ioctl 0 .queueMsg, .dispatch 3 0 .queueMsg true true,
    .send 3 0 none ⟨.data, 1, 50⟩ .success,
    .openFile 1, .ioctl 1 .connect, .allocateContext 4 1 .connect true, .tryPort 4 1 .connect 1,
    .tryPort 4 1 .connect 2, .storePort 4 1 .connect 2 fileQueueMax true, .closeFile 1,
    .testState 1, .sendClose 1 .success]

/-- The run: there are two ioctls for the two CLOSEs, and the file close for the third. -/
theorem closeSound_unmanaged : ∃ s, serviceMachine.Reachable s ∧ s.sent.length = 5 ∧
    CloseSound s := by
  obtain ⟨s, hr, hp⟩ := Machine.reach_exec_any serviceMachine unmanagedRun
    (p := fun s => s.sent.length == 5) rfl (by decide +kernel)
  exact ⟨s, hr, beq_iff_eq.1 hp, closeSound_of_reach hr⟩

/-- **The state of a service is not managed**: two CLOSEs for a service that was opened once, one
for a file that never opened a service, and data after a CLOSE. -/
theorem unmanaged_service : ∃ s, serviceMachine.Reachable s ∧
    (acksOf s 0 = 1 ∧ closesOf s 0 = 2) ∧ (acksOf s 1 = 0 ∧ closesOf s 1 = 1) ∧
    ¬Silent s.sent ∧ ¬LifecycleSound s := by
  obtain ⟨s, hr, hp⟩ := Machine.reach_exec_any serviceMachine unmanagedRun
    (p := fun s => decide (acksOf s 0 = 1 ∧ closesOf s 0 = 2) &&
      decide (acksOf s 1 = 0 ∧ closesOf s 1 = 1) && decide (¬Silent s.sent)) rfl (by decide +kernel)
  obtain ⟨hp, hsilent⟩ := Bool.and_eq_true_iff.1 hp
  obtain ⟨hfirst, hsecond⟩ := Bool.and_eq_true_iff.1 hp
  have hsilent : ¬Silent s.sent := of_decide_eq_true hsilent
  exact ⟨s, hr, of_decide_eq_true hfirst, of_decide_eq_true hsecond, hsilent,
    fun hsound => hsilent hsound.silent⟩

end RpiDrivers.Vchiq.Service
