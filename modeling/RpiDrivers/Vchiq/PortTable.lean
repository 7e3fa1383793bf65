import RpiDrivers.Vchiq.Services

/-!
# The table of Arm ports

`VchiqAllocateFileObjContext` takes a free entry of `ArmPortHandles` and stores its index in the
context. `VchiqFileClose` frees the entry of the port that it finds there.

- `Base`: what holds in every run. The port that is stored in a context is an entry of it.
- `PortTableSound`: an entry refers to the file that holds the port, and to no closed file.
- `portTableSound_of_alone`: **it does, when a context is allocated once**.
- `stale_entry`: two requests of one file find no context and both take a port.
-/

namespace RpiDrivers.Vchiq.Service

open RpiDrivers.Lib
open RpiDrivers.Vchiq.Ioctl (FileQueue IoControlCode fileQueueMax)

/-- The file holds the port: it is stored in the context, or on its way there. -/
def HoldsPort (s : World) (f port : Nat) : Prop :=
  (s.phase f).Live ∧
    ((∃ context, s.context f = some context ∧ context.armPortNumber = port ∧ port ≠ 0) ∨
      ∃ request code, s.handler request = .store f code port)

/-- A port that is held is held by one file, and a file holds one. The table refers to the holders,
and to no file that is closed. -/
structure PortTableSound (s : World) : Prop where
  inRange : ∀ f port, HoldsPort s f port → armPortStart ≤ port ∧ port < maxArmPorts
  holder : ∀ f f' port, HoldsPort s f port → HoldsPort s f' port → f = f'
  port : ∀ f port port', HoldsPort s f port → HoldsPort s f port' → port = port'
  handle : ∀ f port, s.armPortHandles port = some f ↔ HoldsPort s f port
  closed : ∀ f, s.phase f = .closed → ∀ port, s.armPortHandles port ≠ some f

/-- The condition: a context is allocated for a file that has none. -/
def Alone (s : World) : Action → Prop
  | .allocateContext _ f _ allocated => allocated = true → s.context f = none
  | _ => True

instance (s : World) : ∀ a, Decidable (Alone s a)
  | .allocateContext _ _ _ _ => inferInstanceAs (Decidable (_ → _))
  | .openFile _ | .ioctl _ _ | .tryPort _ _ _ _ | .storePort _ _ _ _ _ _ | .dispatch _ _ _ _ _
  | .send _ _ _ _ _ | .notSent _ _ _ | .cancel _ _ _ | .closeFile _ | .testState _
  | .sendClose _ _ | .readHandle _ | .release _ _ _ | .vcSend _ | .vcClosed _ _ | .rxLookup
  | .rxHandle _ _ _ _ => inferInstanceAs (Decidable True)

/-! ## What the RX thread leaves alone -/

theorem armPortNumber_afterRequest (context : FileContext) (msg : RxMsg) (listed : Bool) :
    (afterRequest context msg listed).armPortNumber = context.armPortNumber := by
  unfold afterRequest
  split
  · rfl
  · rfl
  · split <;> rfl
  · split <;> rfl
  · rfl

/-- A message changes at most one context, and not its port. -/
theorem deliver_keeps (s : World) (g : Nat) (context : FileContext) (msg : RxMsg)
    (retrieve listed : Bool) :
    let s' := s.deliver g context msg retrieve listed
    s'.armPortHandles = s.armPortHandles ∧ s'.phase = s.phase ∧ s'.requests = s.requests ∧
      s'.handler = s.handler ∧ (s'.context = s.context ∨ ∃ c' : FileContext,
        c'.armPortNumber = context.armPortNumber ∧
          s'.context = Function.update s.context g (some c')) := by
  have hbefore : (beforeRequest context msg).armPortNumber = context.armPortNumber := by
    unfold beforeRequest
    split <;> rfl
  unfold World.deliver
  dsimp only
  split
  · split
    · exact ⟨rfl, rfl, rfl, rfl,
        .inr ⟨{ beforeRequest context msg with
          pendingDataMsgList := (beforeRequest context msg).pendingDataMsgList ++ [msg] },
          hbefore, rfl⟩⟩
    · exact ⟨rfl, rfl, rfl, rfl, .inl rfl⟩
  · split
    · exact ⟨rfl, rfl, rfl, rfl, .inr ⟨_, hbefore, rfl⟩⟩
    · exact ⟨rfl, rfl, rfl, rfl, .inr ⟨_, (armPortNumber_afterRequest ..).trans hbefore, rfl⟩⟩

theorem rxHandle_keeps (s : World) (msg : RxMsg) (handle : Option Nat) (retrieve listed : Bool) :
    let s' := s.rxHandle msg handle retrieve listed
    s'.armPortHandles = s.armPortHandles ∧ s'.phase = s.phase ∧ s'.requests = s.requests ∧
      s'.handler = s.handler ∧ (s'.context = s.context ∨ ∃ g c c', s.context g = some c ∧
        c'.armPortNumber = c.armPortNumber ∧
          s'.context = Function.update s.context g (some c')) := by
  unfold World.rxHandle
  dsimp only
  split
  · exact ⟨rfl, rfl, rfl, rfl, .inl rfl⟩
  · next g =>
    split
    · exact ⟨rfl, rfl, rfl, rfl, .inl rfl⟩
    · next context hc =>
      split
      · obtain ⟨hhandles, hphase, hrequests, hhandler, hcontext⟩ :=
          deliver_keeps { s with rx := none } g context msg retrieve listed
        refine ⟨hhandles, hphase, hrequests, hhandler, hcontext.imp_right ?_⟩
        rintro ⟨c', hport, heq⟩
        exact ⟨g, context, c', hc, hport, heq⟩
      · exact ⟨rfl, rfl, rfl, rfl, .inl rfl⟩

/-! ## What holds in every run -/

/-- The entry of the port refers to the file. -/
def Taken (s : World) (f port : Nat) : Prop :=
  armPortStart ≤ port ∧ port < maxArmPorts ∧ s.armPortHandles port = some f

/-- What holds of the files, their handlers and the table in every run. -/
structure Base (s : World) : Prop where
  fresh : ∀ request, s.requests.length ≤ request → s.handler request = .done
  opened : ∀ request f, (s.handler request).Holds f → s.phase f = .opened
  absent : ∀ f, s.phase f = .absent → s.context f = none ∧ ∀ port, s.armPortHandles port ≠ some f
  zero : s.armPortHandles 0 = none
  scan : ∀ request f code port, s.handler request = .scan f code port → armPortStart ≤ port
  store : ∀ request f code port, s.handler request = .store f code port → Taken s f port
  port : ∀ f context, (s.phase f).Live → s.context f = some context →
    context.armPortNumber ≠ 0 → Taken s f context.armPortNumber
  release : ∀ f portNumber temp, s.phase f = .closing (.release portNumber temp) →
    ∃ context, s.context f = some context ∧ portNumber = context.armPortNumber ∧
      temp = s.armPortHandles portNumber

namespace Base

variable {s s' : World}

/-- The other fields do not matter. -/
theorem congr (h : Base s) (hhandles : s'.armPortHandles = s.armPortHandles)
    (hphase : s'.phase = s.phase) (hcontext : s'.context = s.context)
    (hrequests : s'.requests = s.requests) (hhandler : s'.handler = s.handler) : Base s' := by
  obtain ⟨handles, phase, context, queued, requests, handler, sent, remote, inFlight, rx, delivered,
    tested⟩ := s'
  subst hhandles hphase hcontext hrequests hhandler
  exact ⟨h.fresh, h.opened, h.absent, h.zero, h.scan, h.store, h.port, h.release⟩

/-- A request that has not ended has been received. -/
theorem received (h : Base s) {request : Nat} (hne : s.handler request ≠ .done) :
    request < s.requests.length :=
  Nat.lt_of_not_le fun hle => hne (h.fresh request hle)

theorem live_of_opened {f : Nat} (h : s.phase f = .opened) : (s.phase f).Live := by
  rw [h]
  trivial

/-- A handler goes on. -/
theorem setHandler (h : Base s) {request : Nat} {handler : Handler}
    (hreceived : request < s.requests.length)
    (hopened : ∀ f, handler.Holds f → s.phase f = .opened)
    (hscan : ∀ f code port, handler = .scan f code port → armPortStart ≤ port)
    (hstore : ∀ f code port, handler = .store f code port → Taken s f port) :
    Base (s.setHandler request handler) where
  fresh r hr := by
    have hne : r ≠ request := Nat.ne_of_gt (Nat.lt_of_lt_of_le hreceived hr)
    show Function.update s.handler request handler r = .done
    rw [Function.update_of_ne hne]
    exact h.fresh r hr
  opened r f hholds := by
    change (Function.update s.handler request handler r).Holds f at hholds
    by_cases hr : r = request
    · rw [hr, Function.update_self] at hholds
      exact hopened f hholds
    · rw [Function.update_of_ne hr] at hholds
      exact h.opened r f hholds
  absent := h.absent
  zero := h.zero
  scan r f code port hs := by
    change Function.update s.handler request handler r = _ at hs
    by_cases hr : r = request
    · rw [hr, Function.update_self] at hs
      exact hscan f code port hs
    · rw [Function.update_of_ne hr] at hs
      exact h.scan r f code port hs
  store r f code port hs := by
    change Function.update s.handler request handler r = _ at hs
    by_cases hr : r = request
    · rw [hr, Function.update_self] at hs
      exact hstore f code port hs
    · rw [Function.update_of_ne hr] at hs
      exact h.store r f code port hs
  port := h.port
  release := h.release

/-- The handler leaves the allocation behind it. -/
theorem setHandler_of_plain (h : Base s) {request : Nat} {handler : Handler}
    (hreceived : request < s.requests.length)
    (hopened : ∀ f, handler.Holds f → s.phase f = .opened)
    (hplain : ∀ f code port, handler ≠ .scan f code port ∧ handler ≠ .store f code port) :
    Base (s.setHandler request handler) :=
  h.setHandler hreceived hopened (fun f code port hs => absurd hs (hplain f code port).1)
    fun f code port hs => absurd hs (hplain f code port).2

theorem setHandler_done (h : Base s) {request : Nat} (hreceived : request < s.requests.length) :
    Base (s.setHandler request .done) :=
  h.setHandler_of_plain hreceived (fun _ h => by cases h)
      fun _ _ _ => ⟨(fun h => by cases h), (fun h => by cases h)⟩

/-- A context is changed. -/
theorem setContext (h : Base s) {f : Nat} {context : FileContext} (hphase : s.phase f ≠ .absent)
    (hport : (s.phase f).Live → context.armPortNumber ≠ 0 → Taken s f context.armPortNumber)
    (hrelease : ∀ portNumber temp, s.phase f = .closing (.release portNumber temp) →
      portNumber = context.armPortNumber) : Base (s.setContext f context) where
  fresh := h.fresh
  opened := h.opened
  absent g hg := by
    have hne : g ≠ f := fun heq => hphase (heq ▸ hg)
    refine ⟨?_, (h.absent g hg).2⟩
    show Function.update s.context f _ g = none
    rw [Function.update_of_ne hne]
    exact (h.absent g hg).1
  zero := h.zero
  scan := h.scan
  store := h.store
  port g c hlive hc hne := by
    change Function.update s.context f _ g = _ at hc
    by_cases hg : g = f
    · subst hg
      rw [Function.update_self] at hc
      cases hc
      exact hport hlive hne
    · rw [Function.update_of_ne hg] at hc
      exact h.port g c hlive hc hne
  release g portNumber temp hg := by
    obtain ⟨c, hc, hp, htemp⟩ := h.release g portNumber temp hg
    by_cases hgf : g = f
    · subst hgf
      exact ⟨context, Function.update_self .., hrelease portNumber temp hg, htemp⟩
    · exact ⟨c, (Function.update_of_ne hgf ..).trans hc, hp, htemp⟩

/-- A context is changed, but not its port. -/
theorem setContext_of_port (h : Base s) {f : Nat} {c c' : FileContext}
    (hcontext : s.context f = some c) (heq : c'.armPortNumber = c.armPortNumber) :
    Base (s.setContext f c') := by
  refine h.setContext (fun hphase => ?_) (fun hlive hne => ?_) fun portNumber temp hphase => ?_
  · cases (h.absent f hphase).1.symm.trans hcontext
  · rw [heq] at hne ⊢
    exact h.port f c hlive hcontext hne
  · obtain ⟨c, hc, hp, -⟩ := h.release f portNumber temp hphase
    cases hc.symm.trans hcontext
    rw [hp, heq]

/-- A file that no handler has in its hands is closed further. -/
theorem setPhase (h : Base s) {f : Nat} {phase : FilePhase}
    (hholds : ∀ request, ¬(s.handler request).Holds f) (hphase : (s.phase f).Live)
    (habsent : phase ≠ .absent)
    (hrelease : ∀ portNumber temp, phase = .closing (.release portNumber temp) →
      ∃ context, s.context f = some context ∧ portNumber = context.armPortNumber ∧
        temp = s.armPortHandles portNumber) : Base (s.setPhase f phase) where
  fresh := h.fresh
  opened r g hg := by
    have hne : g ≠ f := fun heq => hholds r (heq ▸ hg)
    exact (Function.update_of_ne hne ..).trans (h.opened r g hg)
  absent g hg := by
    change Function.update s.phase f phase g = _ at hg
    by_cases hgf : g = f
    · rw [hgf, Function.update_self] at hg
      exact absurd hg habsent
    · rw [Function.update_of_ne hgf] at hg
      exact h.absent g hg
  zero := h.zero
  scan := h.scan
  store := h.store
  port g c hlive hc hne := by
    by_cases hgf : g = f
    · rw [hgf] at hc ⊢
      exact h.port f c hphase hc hne
    · change (Function.update s.phase f phase g).Live at hlive
      rw [Function.update_of_ne hgf] at hlive
      exact h.port g c hlive hc hne
  release g portNumber temp hg := by
    change Function.update s.phase f phase g = _ at hg
    by_cases hgf : g = f
    · subst hgf
      rw [Function.update_self] at hg
      exact hrelease portNumber temp hg
    · rw [Function.update_of_ne hgf] at hg
      exact h.release g portNumber temp hg

/-- A file that is being closed is in the hands of no handler. -/
theorem not_holds_of_closing (h : Base s) {f : Nat} {step : CloseStep}
    (hphase : s.phase f = .closing step) (request : Nat) : ¬(s.handler request).Holds f := by
  intro hholds
  cases hphase.symm.trans (h.opened request f hholds)

theorem live_of_closing {f : Nat} {step : CloseStep} (hphase : s.phase f = .closing step) :
    (s.phase f).Live := by
  rw [hphase]
  trivial

/-- The close of a file comes to a step that is not the last. -/
theorem setPhase_closing (h : Base s) {f : Nat} {step step' : CloseStep}
    (hphase : s.phase f = .closing step)
    (hrelease : ∀ portNumber temp, step' = .release portNumber temp →
      ∃ context, s.context f = some context ∧ portNumber = context.armPortNumber ∧
        temp = s.armPortHandles portNumber) : Base (s.setPhase f (.closing step')) :=
  h.setPhase (h.not_holds_of_closing hphase) (live_of_closing hphase) (fun h => by cases h)
    fun portNumber temp heq => hrelease portNumber temp (FilePhase.closing.inj heq)

theorem withQueued (h : Base s) (queued : ManualQueues (Nat × FileQueue) Nat) :
    Base { s with queued := queued } :=
  h.congr rfl rfl rfl rfl rfl

theorem queueMessage (h : Base s) (f : Nat) (request : Option Nat) (msg : TxMsg)
    (outcome : QueueMessage) : Base (s.queueMessage f request msg outcome) := by
  rw [World.queueMessage]
  split
  · exact h
  · exact h.congr rfl rfl rfl rfl rfl

/-! ### The steps -/

theorem start : Base .start where
  fresh _ _ := rfl
  opened _ _ hholds := hholds.elim
  absent _ _ := ⟨rfl, nofun⟩
  zero := rfl
  scan _ _ _ _ := (fun h => by cases h)
  store _ _ _ _ := (fun h => by cases h)
  port _ _ hlive := hlive.elim
  release _ _ _ := (fun h => by cases h)

theorem openFile (h : Base s) {f : Nat} (hphase : s.phase f = .absent) :
    Base (s.setPhase f .opened) where
  fresh := h.fresh
  opened r g hg := by
    by_cases hgf : g = f
    · rw [hgf]
      exact Function.update_self ..
    · exact (Function.update_of_ne hgf ..).trans (h.opened r g hg)
  absent g hg := by
    change Function.update s.phase f .opened g = _ at hg
    by_cases hgf : g = f
    · rw [hgf, Function.update_self] at hg
      cases hg
    · rw [Function.update_of_ne hgf] at hg
      exact h.absent g hg
  zero := h.zero
  scan := h.scan
  store := h.store
  port g c hlive hc hne := by
    by_cases hgf : g = f
    · rw [hgf] at hc
      cases (h.absent f hphase).1.symm.trans hc
    · change (Function.update s.phase f .opened g).Live at hlive
      rw [Function.update_of_ne hgf] at hlive
      exact h.port g c hlive hc hne
  release g portNumber temp hg := by
    change Function.update s.phase f .opened g = _ at hg
    by_cases hgf : g = f
    · rw [hgf, Function.update_self] at hg
      cases hg
    · rw [Function.update_of_ne hgf] at hg
      exact h.release g portNumber temp hg

theorem withRequest (h : Base s) (e : Nat × IoControlCode) :
    Base { s with requests := s.requests ++ [e] } where
  fresh r hr := by
    refine h.fresh r (Nat.le_trans ?_ hr)
    rw [List.length_append]
    exact Nat.le_add_right ..
  opened := h.opened
  absent := h.absent
  zero := h.zero
  scan := h.scan
  store := h.store
  port := h.port
  release := h.release

/-- A request is received: its handler is the next one. -/
theorem ioctl (h : Base s) {f : Nat} (hphase : s.phase f = .opened) (code : IoControlCode) :
    Base (s.ioctl f code) := by
  refine (h.withRequest (f, code)).setHandler_of_plain ?_ (fun g hg => ?_) fun g c port => ?_
  · rw [List.length_append]
    exact Nat.lt_succ_self _
  · unfold startHandler at hg
    split at hg <;> split at hg
    · cases hg
      exact hphase
    · exact hg.elim
    · cases hg
      exact hphase
    · exact hg.elim
  · unfold startHandler
    split <;> split <;> exact ⟨(fun h => by cases h), (fun h => by cases h)⟩

theorem allocateContext (h : Base s) {request f : Nat} {code : IoControlCode}
    (hhandler : s.handler request = .allocate f code) (allocated : Bool) :
    Base (s.allocateContext request f code allocated) := by
  have hreceived : request < s.requests.length := h.received (by simp [hhandler])
  have hopened : s.phase f = .opened := h.opened request f (by rw [hhandler]; rfl)
  rw [World.allocateContext]
  split
  · have hcontext : Base (s.setContext f ((s.context f).getD .zero)) := by
      cases hc : s.context f with
      | some context => exact h.setContext_of_port hc rfl
      | none =>
        refine h.setContext (by simp [hopened]) (fun _ hne => absurd rfl hne) fun _ _ hphase => ?_
        cases hopened.symm.trans hphase
    refine hcontext.setHandler hreceived (fun g hg => ?_) (fun g c port hs => ?_)
      fun _ _ _ h => by cases h
    · cases hg
      exact hopened
    · cases hs
      exact Nat.le_refl _
  · exact h.setHandler_done hreceived

/-- A free entry is taken. -/
theorem setHandle (h : Base s) {f port : Nat} (hopened : s.phase f = .opened)
    (hfree : s.armPortHandles port = none) (hstart : armPortStart ≤ port) :
    Base (s.setHandle port (some f)) := by
  have hkeep : ∀ g p, Taken s g p → Taken (s.setHandle port (some f)) g p := by
    intro g p ⟨hle, hlt, hp⟩
    have hne : p ≠ port := fun heq => by cases hfree.symm.trans (heq ▸ hp)
    exact ⟨hle, hlt, (Function.update_of_ne hne ..).trans hp⟩
  have hzero : (0 : Nat) ≠ port := Nat.ne_of_lt hstart
  constructor
  · exact h.fresh
  · exact h.opened
  · intro g hg
    refine ⟨(h.absent g hg).1, fun p hp => ?_⟩
    change Function.update s.armPortHandles port (some f) p = some g at hp
    by_cases hpp : p = port
    · rw [hpp, Function.update_self] at hp
      cases hp
      cases hopened.symm.trans hg
    · rw [Function.update_of_ne hpp] at hp
      exact (h.absent g hg).2 p hp
  · exact (Function.update_of_ne hzero ..).trans h.zero
  · exact h.scan
  · exact fun r g code p hs => hkeep g p (h.store r g code p hs)
  · exact fun g c hlive hc hne => hkeep g _ (h.port g c hlive hc hne)
  · intro g portNumber temp hg
    obtain ⟨c, hc, hp, htemp⟩ := h.release g portNumber temp hg
    refine ⟨c, hc, hp, htemp.trans (Function.update_of_ne ?_ ..).symm⟩
    -- its own entry is not free, unless it has no port
    intro heq
    have hne : c.armPortNumber ≠ 0 := by
      rw [← hp, heq]
      exact Nat.ne_of_gt hstart
    have htaken := (h.port g c (live_of_closing hg) hc hne).2.2
    rw [← hp, heq, hfree] at htaken
    cases htaken

theorem tryPort (h : Base s) {request f port : Nat} {code : IoControlCode}
    (hhandler : s.handler request = .scan f code port) :
    Base (s.tryPort request f code port) := by
  have hreceived : request < s.requests.length := h.received (by simp [hhandler])
  have hopened : s.phase f = .opened := h.opened request f (by rw [hhandler]; rfl)
  have hstart := h.scan request f code port hhandler
  rw [World.tryPort]
  split
  · exact h.setHandler_done hreceived
  · next hlt =>
    split
    · next hfree =>
      refine (h.setHandle hopened hfree hstart).setHandler hreceived (fun g hg => ?_)
        (fun _ _ _ h => by cases h) fun g c p hs => ?_
      · cases hg
        exact hopened
      · cases hs
        exact ⟨hstart, Nat.lt_of_not_le hlt, Function.update_self ..⟩
    · refine h.setHandler hreceived (fun g hg => ?_) (fun g c p hs => ?_) fun _ _ _ h => by cases h
      · cases hg
        exact hopened
      · cases hs
        exact Nat.le_succ_of_le hstart

theorem storePort (h : Base s) {request f port : Nat} {code : IoControlCode}
    (hhandler : s.handler request = .store f code port) (created : Nat) (rest : Bool) :
    Base (s.storePort request f code port created rest) := by
  have hreceived : request < s.requests.length := h.received (by simp [hhandler])
  have hopened : s.phase f = .opened := h.opened request f (by rw [hhandler]; rfl)
  have htaken := h.store request f code port hhandler
  have hcontext : Base (s.setContext f
      { (s.context f).getD .zero with armPortNumber := port, fileQueues := created }) :=
    h.setContext (by simp [hopened]) (fun _ _ => htaken) fun _ _ hphase => by
      cases hopened.symm.trans hphase
  refine hcontext.setHandler_of_plain hreceived (fun g hg => ?_) fun g c p => ?_
  · split at hg
    · cases hg
      exact hopened
    · exact hg.elim
  · split <;> exact ⟨(fun h => by cases h), (fun h => by cases h)⟩

theorem dispatch (h : Base s) {request f : Nat} {code : IoControlCode}
    (hhandler : s.handler request = .dispatch f code) (valid forward : Bool) :
    Base (s.dispatch request f code valid forward) := by
  have hreceived : request < s.requests.length := h.received (by simp [hhandler])
  have hopened : s.phase f = .opened := h.opened request f (by rw [hhandler]; rfl)
  have hunqueued : ∀ msg, Base (s.setHandler request (.send f none msg)) := fun msg =>
    h.setHandler_of_plain hreceived (fun g hg => by cases hg; exact hopened)
      fun _ _ _ => ⟨(fun h => by cases h), (fun h => by cases h)⟩
  have hdone := h.setHandler_done hreceived
  rw [World.dispatch]
  split
  · dsimp only
    split
    · exact hdone
    · split
      · exact hunqueued _
      · split
        · exact hunqueued _
        · split
          · exact (h.withQueued _).setHandler_of_plain hreceived (fun _ h => by cases h)
              fun _ _ _ => ⟨(fun h => by cases h), (fun h => by cases h)⟩
          · exact hdone
  · exact hdone

theorem send (h : Base s) {request f : Nat} {queue : Option FileQueue} {msg : TxMsg}
    (hhandler : s.handler request = .send f queue msg) (outcome : QueueMessage) :
    Base (s.send request f queue msg outcome) := by
  have hreceived : request < s.requests.length := h.received (by simp [hhandler])
  have hqueued := h.queueMessage f (some request) msg outcome
  have hrequests : (s.queueMessage f (some request) msg outcome).requests = s.requests := by
    rw [World.queueMessage]
    split <;> rfl
  have hphase : (s.queueMessage f (some request) msg outcome).phase = s.phase := by
    rw [World.queueMessage]
    split <;> rfl
  refine hqueued.setHandler_of_plain (hrequests ▸ hreceived) (fun g hg => ?_) fun g c p => ?_
  · rw [hphase]
    cases queue with
    | none =>
      rw [afterSend] at hg
      split at hg
      · cases hg
        exact h.opened request f (by rw [hhandler]; rfl)
      · exact hg.elim
    | some queue =>
      rw [afterSend] at hg
      split at hg <;> exact hg.elim
  · unfold afterSend
    split <;> split <;> exact ⟨(fun h => by cases h), (fun h => by cases h)⟩

theorem notSent (h : Base s) {request f : Nat} {queue : FileQueue}
    (hhandler : s.handler request = .notSent f queue) : Base (s.notSent request f queue) :=
  (h.withQueued _).setHandler_done (h.received (by simp [hhandler]))

theorem closeFile (h : Base s) {f : Nat} (hopened : s.phase f = .opened)
    (hholds : ∀ request < s.requests.length, ¬(s.handler request).Holds f) :
    Base (s.closeFile f) := by
  have hall : ∀ request, ¬(s.handler request).Holds f := by
    intro request hr
    refine hholds request (h.received fun hdone => ?_) hr
    rw [hdone] at hr
    exact hr
  refine h.setPhase hall (live_of_opened hopened) ?_ fun _ _ => ?_
  · split <;> nofun
  · split <;> nofun

theorem testState (h : Base s) {f : Nat} (hphase : s.phase f = .closing .testState) :
    Base (s.testState f) := by
  rw [World.testState]
  split
  · exact h
  · next context _ =>
    have htested : Base { s with tested := s.tested ++ [(f, context.state)] } :=
      h.congr rfl rfl rfl rfl rfl
    refine htested.setPhase_closing hphase fun _ _ heq => ?_
    split at heq <;> cases heq

theorem sendClose (h : Base s) {f : Nat} (hphase : s.phase f = .closing .sendClose)
    (outcome : QueueMessage) : Base (s.sendClose f outcome) := by
  rw [World.sendClose]
  split
  · exact h
  · next context _ =>
    have hqueued := h.queueMessage f none
      ⟨.close, context.armPortNumber, context.vchiqPortNumber⟩ outcome
    have hkeep : (s.queueMessage f none ⟨.close, context.armPortNumber, context.vchiqPortNumber⟩
        outcome).phase f = .closing .sendClose := by
      rw [World.queueMessage]
      split <;> exact hphase
    exact hqueued.setPhase_closing hkeep fun _ _ heq => by cases heq

theorem readHandle (h : Base s) {f : Nat} (hphase : s.phase f = .closing .readHandle) :
    Base (s.readHandle f) := by
  rw [World.readHandle]
  split
  · exact h
  · next context hc =>
    refine h.setPhase_closing hphase fun portNumber temp heq => ?_
    cases heq
    exact ⟨context, hc, rfl, rfl⟩

/-- The entry is freed and the file closed. -/
theorem free (h : Base s) {f portNumber : Nat} {temp : Option Nat}
    (hphase : s.phase f = .closing (.release portNumber temp)) :
    Base ((s.setHandle portNumber none).setPhase f .closed) := by
  obtain ⟨context, hc, hp, -⟩ := h.release f portNumber temp hphase
  have hlive := live_of_closing hphase
  -- an entry of another file is not the one that is freed
  have hother : ∀ g p, g ≠ f → Taken s g p → p ≠ portNumber := by
    intro g p hgf ⟨hle, _, htable⟩ heq
    have hne : context.armPortNumber ≠ 0 := by
      rw [← hp, ← heq]
      exact Nat.ne_of_gt hle
    have htaken := (h.port f context hlive hc hne).2.2
    rw [← hp, ← heq, htable] at htaken
    exact hgf (Option.some.inj htaken)
  have hkeep : ∀ g p, g ≠ f → Taken s g p →
      Taken ((s.setHandle portNumber none).setPhase f .closed) g p := fun g p hgf htaken =>
    ⟨htaken.1, htaken.2.1, (Function.update_of_ne (hother g p hgf htaken) ..).trans htaken.2.2⟩
  have hholds := h.not_holds_of_closing hphase
  constructor
  · exact h.fresh
  · intro r g hg
    have hne : g ≠ f := fun heq => hholds r (heq ▸ hg)
    exact (Function.update_of_ne hne ..).trans (h.opened r g hg)
  · intro g hg
    have hgf : g ≠ f := by
      rintro rfl
      change Function.update s.phase g .closed g = _ at hg
      rw [Function.update_self] at hg
      cases hg
    change Function.update s.phase f .closed g = _ at hg
    rw [Function.update_of_ne hgf] at hg
    refine ⟨(h.absent g hg).1, fun p hentry => ?_⟩
    change Function.update s.armPortHandles portNumber none p = some g at hentry
    by_cases hpp : p = portNumber
    · rw [hpp, Function.update_self] at hentry
      cases hentry
    · rw [Function.update_of_ne hpp] at hentry
      exact (h.absent g hg).2 p hentry
  · show Function.update s.armPortHandles portNumber none 0 = none
    by_cases hzero : 0 = portNumber
    · rw [← hzero, Function.update_self]
    · rw [Function.update_of_ne hzero]
      exact h.zero
  · exact h.scan
  · intro r g code p hs
    have hne : g ≠ f := by
      rintro rfl
      exact hholds r (by rw [show s.handler r = _ from hs]; rfl)
    exact hkeep g p hne (h.store r g code p hs)
  · intro g c hglive hgc hne
    have hgf : g ≠ f := by
      rintro rfl
      change (Function.update s.phase g .closed g).Live at hglive
      rw [Function.update_self] at hglive
      exact hglive
    change (Function.update s.phase f .closed g).Live at hglive
    rw [Function.update_of_ne hgf] at hglive
    exact hkeep g _ hgf (h.port g c hglive hgc hne)
  · intro g q temp' hg
    have hgf : g ≠ f := by
      rintro rfl
      change Function.update s.phase g .closed g = _ at hg
      rw [Function.update_self] at hg
      cases hg
    change Function.update s.phase f .closed g = _ at hg
    rw [Function.update_of_ne hgf] at hg
    obtain ⟨c, hgc, hq, htemp⟩ := h.release g q temp' hg
    refine ⟨c, hgc, hq, htemp.trans ?_⟩
    show s.armPortHandles q = Function.update s.armPortHandles portNumber none q
    by_cases hqp : q = portNumber
    · -- both have no port
      have hzero : c.armPortNumber = 0 := by
        by_contra hne
        exact hother g _ hgf (h.port g c (live_of_closing hg) hgc hne) (hq.symm.trans hqp)
      rw [hqp, Function.update_self, ← hqp, hq, hzero]
      exact h.zero
    · rw [Function.update_of_ne hqp]

theorem release_eq {f portNumber : Nat} {temp : Option Nat} {context : FileContext}
    (hc : s.context f = some context) (htemp : temp = s.armPortHandles portNumber) :
    s.release f portNumber temp =
      { ((s.setHandle portNumber none).setPhase f .closed).setContext f
        { context with pendingDataMsgList := [] } with
        queued := s.queued.filter fun e => e.1.1 ≠ f } := by
  rw [World.release, htemp, if_pos rfl]
  simp only [World.setHandle, World.setPhase, hc]
  rfl

theorem releaseHandle (h : Base s) {f portNumber : Nat} {temp : Option Nat}
    (hphase : s.phase f = .closing (.release portNumber temp)) :
    Base (s.release f portNumber temp) := by
  obtain ⟨context, hc, -, htemp⟩ := h.release f portNumber temp hphase
  rw [release_eq hc htemp]
  have hemptied : Base (((s.setHandle portNumber none).setPhase f .closed).setContext f
      { context with pendingDataMsgList := [] }) :=
    (h.free hphase).setContext_of_port hc rfl
  exact hemptied.withQueued _

theorem rxLookup (h : Base s) : Base s.rxLookup := by
  rw [World.rxLookup]
  split
  · exact h
  · exact h.congr rfl rfl rfl rfl rfl

theorem rxHandle (h : Base s) (msg : RxMsg) (handle : Option Nat) (retrieve listed : Bool) :
    Base (s.rxHandle msg handle retrieve listed) := by
  obtain ⟨hhandles, hphase, hrequests, hhandler, hcontext⟩ :=
    rxHandle_keeps s msg handle retrieve listed
  obtain hcontext | ⟨g, c, c', hc, hport, hcontext⟩ := hcontext
  · exact h.congr hhandles hphase hcontext hrequests hhandler
  · exact (h.setContext_of_port hc hport).congr hhandles hphase hcontext hrequests hhandler

theorem effect (h : Base s) (a : Action) (hen : s.enabled a) : Base (s.effect a) := by
  cases a with
  | openFile f => exact h.openFile hen
  | ioctl f code => exact h.ioctl hen code
  | allocateContext request f code allocated => exact h.allocateContext hen allocated
  | tryPort request f code port => exact h.tryPort hen
  | storePort request f code port created rest => exact h.storePort hen created rest
  | dispatch request f code valid forward => exact h.dispatch hen valid forward
  | send request f queue msg outcome => exact h.send hen outcome
  | notSent request f queue => exact h.notSent hen
  | cancel f queue request => exact h.congr rfl rfl rfl rfl rfl
  | closeFile f => exact h.closeFile hen.1 hen.2.2
  | testState f => exact h.testState hen
  | sendClose f outcome => exact h.sendClose hen outcome
  | readHandle f => exact h.readHandle hen
  | release f portNumber temp => exact h.releaseHandle hen
  | vcSend msg => exact h.congr rfl rfl rfl rfl rfl
  | vcClosed f port => exact h.congr rfl rfl rfl rfl rfl
  | rxLookup => exact h.rxLookup
  | rxHandle msg handle retrieve listed => exact h.rxHandle msg handle retrieve listed

end Base

/-! ## When every context is allocated once -/

/-- The handler is in the loop over the ports, or has just left it. -/
def Handler.Allocates : Handler → Nat → Prop
  | .scan file _ _, f => file = f
  | .store file _ _, f => file = f
  | .allocate _ _, _ | .dispatch _ _, _ | .send _ _ _, _ | .notSent _ _, _ | .lost _, _
  | .done, _ => False

/-- What holds when every context is allocated once. -/
structure AloneInv (s : World) : Prop where
  base : Base s
  held : ∀ f port, s.armPortHandles port = some f → HoldsPort s f port
  alone : ∀ request request' f, (s.handler request).Allocates f →
    (s.handler request').Allocates f → request = request'
  noPort : ∀ request f, (s.handler request).Allocates f →
    ∃ context, s.context f = some context ∧ context.armPortNumber = 0

namespace AloneInv

variable {s s' : World}

/-- The invariant gives the property. -/
theorem sound (h : AloneInv s) : PortTableSound s := by
  have htaken : ∀ f port, HoldsPort s f port → Taken s f port := by
    rintro f port ⟨hlive, ⟨context, hc, rfl, hne⟩ | ⟨request, code, hs⟩⟩
    · exact h.base.port f context hlive hc hne
    · exact h.base.store request f code port hs
  have hport : ∀ f port port', HoldsPort s f port → HoldsPort s f port' → port = port' := by
    rintro f port port' ⟨_, ⟨c, hc, rfl, hne⟩ | ⟨r, code, hs⟩⟩
      ⟨_, ⟨c', hc', rfl, hne'⟩ | ⟨r', code', hs'⟩⟩
    · cases hc.symm.trans hc'
      rfl
    · obtain ⟨c'', hc'', hzero⟩ := h.noPort r' f (by rw [hs']; rfl)
      cases hc.symm.trans hc''
      exact absurd hzero hne
    · obtain ⟨c'', hc'', hzero⟩ := h.noPort r f (by rw [hs]; rfl)
      cases hc'.symm.trans hc''
      exact absurd hzero hne'
    · obtain rfl := h.alone r r' f (by rw [hs]; rfl) (by rw [hs']; rfl)
      cases hs.symm.trans hs'
      rfl
  refine ⟨fun f port hf => ⟨(htaken f port hf).1, (htaken f port hf).2.1⟩,
    fun f f' port hf hf' => ?_, hport,
    fun f port => ⟨h.held f port, fun hf => (htaken f port hf).2.2⟩,
    fun f hclosed port hentry => ?_⟩
  · exact Option.some.inj ((htaken f port hf).2.2.symm.trans (htaken f' port hf').2.2)
  · have hlive := (h.held f port hentry).1
    rw [hclosed] at hlive
    exact hlive

/-- The other fields do not matter. -/
theorem congr (h : AloneInv s) (hbase : Base s') (hhandles : s'.armPortHandles = s.armPortHandles)
    (hphase : s'.phase = s.phase) (hcontext : s'.context = s.context)
    (hhandler : s'.handler = s.handler) : AloneInv s' := by
  obtain ⟨handles, phase, context, queued, requests, handler, sent, remote, inFlight, rx, delivered,
    tested⟩ := s'
  subst hhandles hphase hcontext hhandler
  exact ⟨hbase, h.held, h.alone, h.noPort⟩

/-- A handler that has no port under way goes on, and does not start to allocate. -/
theorem setHandler (h : AloneInv s) {request : Nat} {handler : Handler}
    (hbase : Base (s.setHandler request handler))
    (hold : ∀ f code port, s.handler request ≠ .store f code port)
    (hnew : ∀ f, handler.Allocates f → (s.handler request).Allocates f) :
    AloneInv (s.setHandler request handler) := by
  have hback : ∀ r f, ((s.setHandler request handler).handler r).Allocates f →
      (s.handler r).Allocates f := by
    intro r f hr
    change (Function.update s.handler request handler r).Allocates f at hr
    by_cases hreq : r = request
    · rw [hreq, Function.update_self] at hr
      rw [hreq]
      exact hnew f hr
    · rwa [Function.update_of_ne hreq] at hr
  refine ⟨hbase, fun f port hentry => ?_, fun r r' f hr hr' => ?_, fun r f hr => ?_⟩
  · obtain ⟨hlive, hcontext | ⟨r, code, hs⟩⟩ := h.held f port hentry
    · exact ⟨hlive, .inl hcontext⟩
    · have hne : r ≠ request := fun heq => hold f code port (heq ▸ hs)
      exact ⟨hlive, .inr ⟨r, code, (Function.update_of_ne hne ..).trans hs⟩⟩
  · exact h.alone r r' f (hback r f hr) (hback r' f hr')
  · exact h.noPort r f (hback r f hr)

/-- A context is changed, but not its port. -/
theorem setContext (h : AloneInv s) {f : Nat} {c c' : FileContext}
    (hc : s.context f = some c) (heq : c'.armPortNumber = c.armPortNumber) :
    AloneInv (s.setContext f c') := by
  refine ⟨h.base.setContext_of_port hc heq, fun g port hentry => ?_, h.alone, fun r g hr => ?_⟩
  · obtain ⟨hlive, ⟨context, hcontext, hport, hne⟩ | hstore⟩ := h.held g port hentry
    · refine ⟨hlive, .inl ?_⟩
      by_cases hg : g = f
      · subst hg
        cases hcontext.symm.trans hc
        exact ⟨c', Function.update_self .., heq.trans hport, hne⟩
      · exact ⟨context, (Function.update_of_ne hg ..).trans hcontext, hport, hne⟩
    · exact ⟨hlive, .inr hstore⟩
  · obtain ⟨context, hcontext, hport⟩ := h.noPort r g hr
    by_cases hg : g = f
    · subst hg
      cases hcontext.symm.trans hc
      exact ⟨c', Function.update_self .., heq.trans hport⟩
    · exact ⟨context, (Function.update_of_ne hg ..).trans hcontext, hport⟩

/-- The file stays live, or has no port. -/
theorem setPhase (h : AloneInv s) {f : Nat} {phase : FilePhase} (hbase : Base (s.setPhase f phase))
    (hlive : phase.Live ∨ ∀ port, s.armPortHandles port ≠ some f) :
    AloneInv (s.setPhase f phase) := by
  refine ⟨hbase, fun g port hentry => ?_, h.alone, h.noPort⟩
  obtain ⟨hglive, hholds⟩ := h.held g port hentry
  refine ⟨?_, hholds⟩
  show (Function.update s.phase f phase g).Live
  by_cases hg : g = f
  · rw [hg, Function.update_self]
    exact hlive.resolve_right fun hnone => hnone port (hg ▸ hentry)
  · rwa [Function.update_of_ne hg]

theorem withQueued (h : AloneInv s) (queued : ManualQueues (Nat × FileQueue) Nat) :
    AloneInv { s with queued := queued } :=
  h.congr (h.base.withQueued queued) rfl rfl rfl rfl

theorem queueMessage (h : AloneInv s) (f : Nat) (request : Option Nat) (msg : TxMsg)
    (outcome : QueueMessage) : AloneInv (s.queueMessage f request msg outcome) := by
  have hbase := h.base.queueMessage f request msg outcome
  rw [World.queueMessage] at hbase ⊢
  split
  · exact h
  · next hne =>
    rw [if_neg hne] at hbase
    exact h.congr hbase rfl rfl rfl rfl

/-! ### The steps -/

theorem start : AloneInv .start :=
  ⟨.start, nofun, fun _ _ _ h => h.elim, fun _ _ h => h.elim⟩

theorem ioctl (h : AloneInv s) {f : Nat} (hphase : s.phase f = .opened) (code : IoControlCode) :
    AloneInv (s.ioctl f code) := by
  have hdone : s.handler s.requests.length = .done := h.base.fresh _ (Nat.le_refl _)
  have hreceived := h.congr (h.base.withRequest (f, code)) rfl rfl rfl rfl
  refine hreceived.setHandler (h.base.ioctl hphase code) (fun g c port hs => ?_) fun g hg => ?_
  · cases hdone.symm.trans hs
  · exfalso
    revert hg
    unfold startHandler
    split <;> split <;> exact id

theorem allocateContext (h : AloneInv s) {request f : Nat} {code : IoControlCode}
    {allocated : Bool} (hhandler : s.handler request = .allocate f code)
    (halone : allocated = true → s.context f = none) :
    AloneInv (s.allocateContext request f code allocated) := by
  have hbase := h.base.allocateContext hhandler allocated
  have hopened : s.phase f = .opened := h.base.opened request f (by rw [hhandler]; rfl)
  rw [World.allocateContext] at hbase ⊢
  split
  · next hallocated =>
    rw [if_pos hallocated, halone hallocated] at hbase
    rw [halone hallocated]
    -- nobody else allocates for a file without a context
    have hnobody : ∀ r, ¬(s.handler r).Allocates f := by
      intro r hr
      obtain ⟨context, hc, -⟩ := h.noPort r f hr
      cases hc.symm.trans (halone hallocated)
    have hother : ∀ r g, g ≠ f → ((s.setHandler request (.scan f code armPortStart)).handler
        r).Allocates g → (s.handler r).Allocates g := by
      intro r g hg hr
      change (Function.update s.handler request _ r).Allocates g at hr
      by_cases hreq : r = request
      · rw [hreq, Function.update_self] at hr
        exact absurd hr.symm hg
      · rwa [Function.update_of_ne hreq] at hr
    have hself : ∀ r, ((s.setHandler request (.scan f code armPortStart)).handler r).Allocates f →
        r = request := by
      intro r hr
      by_contra hreq
      change (Function.update s.handler request _ r).Allocates f at hr
      rw [Function.update_of_ne hreq] at hr
      exact hnobody r hr
    refine ⟨hbase, fun g port hentry => ?_, fun r r' g hr hr' => ?_, fun r g hr => ?_⟩
    · obtain ⟨hlive, ⟨context, hcontext, hport⟩ | ⟨r, c, hs⟩⟩ := h.held g port hentry
      · have hg : g ≠ f := fun heq => by cases (heq ▸ hcontext).symm.trans (halone hallocated)
        exact ⟨hlive, .inl ⟨context, (Function.update_of_ne hg ..).trans hcontext, hport⟩⟩
      · have hreq : r ≠ request := fun heq => by cases (heq ▸ hs).symm.trans hhandler
        exact ⟨hlive, .inr ⟨r, c, (Function.update_of_ne hreq ..).trans hs⟩⟩
    · by_cases hg : g = f
      · subst hg
        rw [hself r hr, hself r' hr']
      · exact h.alone r r' g (hother r g hg hr) (hother r' g hg hr')
    · by_cases hg : g = f
      · exact ⟨.zero, hg ▸ Function.update_self .., rfl⟩
      · obtain ⟨context, hcontext, hport⟩ := h.noPort r g (hother r g hg hr)
        exact ⟨context, (Function.update_of_ne hg ..).trans hcontext, hport⟩
  · next hfailed =>
    rw [if_neg hfailed] at hbase
    exact h.setHandler hbase (fun _ _ _ hs => by cases hs.symm.trans hhandler) fun _ hg => hg.elim

theorem tryPort (h : AloneInv s) {request f port : Nat} {code : IoControlCode}
    (hhandler : s.handler request = .scan f code port) :
    AloneInv (s.tryPort request f code port) := by
  have hopened : s.phase f = .opened := h.base.opened request f (by rw [hhandler]; rfl)
  have hscans : (s.handler request).Allocates f := by
    rw [hhandler]
    rfl
  have hnotStore : ∀ g c p, s.handler request ≠ .store g c p := fun _ _ _ hs => by
    cases hs.symm.trans hhandler
  have hbase := h.base.tryPort hhandler
  rw [World.tryPort] at hbase ⊢
  split
  · next hlast =>
    rw [if_pos hlast] at hbase
    exact h.setHandler hbase hnotStore fun _ hg => hg.elim
  · next hlast =>
    rw [if_neg hlast] at hbase
    split
    · next hfree =>
      rw [if_pos hfree] at hbase
      -- no other ioctl begins to allocate
      have hback : ∀ r g, (((s.setHandle port (some f)).setHandler request
          (.store f code port)).handler r).Allocates g → (s.handler r).Allocates g := by
        intro r g hr
        change (Function.update s.handler request _ r).Allocates g at hr
        by_cases hreq : r = request
        · rw [hreq, Function.update_self] at hr
          cases hr
          rwa [hreq]
        · rwa [Function.update_of_ne hreq] at hr
      refine ⟨hbase, fun g p hentry => ?_, fun r r' g hr hr' => ?_, fun r g hr => ?_⟩
      · change Function.update s.armPortHandles port (some f) p = some g at hentry
        by_cases hp : p = port
        · rw [hp, Function.update_self] at hentry
          cases hentry
          exact ⟨Base.live_of_opened hopened, .inr ⟨request, code, hp ▸ Function.update_self ..⟩⟩
        · rw [Function.update_of_ne hp] at hentry
          obtain ⟨hlive, hcontext | ⟨r, c, hs⟩⟩ := h.held g p hentry
          · exact ⟨hlive, .inl hcontext⟩
          · have hreq : r ≠ request := fun heq => hnotStore g c p (heq ▸ hs)
            exact ⟨hlive, .inr ⟨r, c, (Function.update_of_ne hreq ..).trans hs⟩⟩
      · exact h.alone r r' g (hback r g hr) (hback r' g hr')
      · exact h.noPort r g (hback r g hr)
    · next htaken =>
      rw [if_neg htaken] at hbase
      refine h.setHandler hbase hnotStore fun g hg => ?_
      cases hg
      exact hscans

theorem storePort (h : AloneInv s) {request f port : Nat} {code : IoControlCode}
    (hhandler : s.handler request = .store f code port) (created : Nat) (rest : Bool) :
    AloneInv (s.storePort request f code port created rest) := by
  have hstores : (s.handler request).Allocates f := by
    rw [hhandler]
    rfl
  have hpos : port ≠ 0 := Nat.ne_of_gt (h.base.store request f code port hhandler).1
  obtain ⟨context, hc, hzero⟩ := h.noPort request f hstores
  have hbase := h.base.storePort hhandler created rest
  rw [World.storePort, hc] at hbase ⊢
  dsimp only [Option.getD_some] at hbase ⊢
  generalize hnext : (if fileQueueMax ≤ created ∧ rest ∧ code = .createService then
    Handler.dispatch f code else .done) = next at hbase ⊢
  have hplain : ∀ g, ¬next.Allocates g := by
    intro g
    rw [← hnext]
    split <;> exact id
  -- the handlers that still allocate, for other files
  have hback : ∀ r g, ((Function.update s.handler request next) r).Allocates g →
      g ≠ f ∧ (s.handler r).Allocates g := by
    intro r g hr
    by_cases hreq : r = request
    · rw [hreq, Function.update_self] at hr
      exact absurd hr (hplain g)
    · rw [Function.update_of_ne hreq] at hr
      refine ⟨fun hg => hreq ?_, hr⟩
      exact h.alone r request f (hg ▸ hr) hstores
  refine ⟨hbase, fun g p hentry => ?_, fun r r' g hr hr' => ?_, fun r g hr => ?_⟩
  · obtain ⟨hlive, hholds⟩ := h.held g p hentry
    refine ⟨hlive, ?_⟩
    by_cases hg : g = f
    · subst hg
      -- its only port was the one under way
      obtain ⟨c, hcontext, hp, hne⟩ | ⟨r, c, hs⟩ := hholds
      · cases hcontext.symm.trans hc
        exact absurd (hp.symm.trans hzero) hne
      · obtain rfl : r = request := h.alone r request g (by rw [hs]; rfl) hstores
        cases hs.symm.trans hhandler
        exact .inl ⟨_, Function.update_self .., rfl, hpos⟩
    · obtain ⟨c, hcontext, hp⟩ | ⟨r, c, hs⟩ := hholds
      · exact .inl ⟨c, (Function.update_of_ne hg ..).trans hcontext, hp⟩
      · have hreq : r ≠ request := fun heq => by
          cases (heq ▸ hs).symm.trans hhandler
          exact hg rfl
        exact .inr ⟨r, c, (Function.update_of_ne hreq ..).trans hs⟩
  · exact h.alone r r' g (hback r g hr).2 (hback r' g hr').2
  · obtain ⟨hg, hallocates⟩ := hback r g hr
    obtain ⟨c, hcontext, hp⟩ := h.noPort r g hallocates
    exact ⟨c, (Function.update_of_ne hg ..).trans hcontext, hp⟩

/-- The handler of a request whose file has its context. -/
theorem setHandler_plain (h : AloneInv s) {request : Nat} {handler : Handler}
    (hbase : Base (s.setHandler request handler))
    (hold : ∀ f code port, s.handler request ≠ .store f code port)
    (hnew : ∀ f, ¬handler.Allocates f) : AloneInv (s.setHandler request handler) :=
  h.setHandler hbase hold fun f hf => absurd hf (hnew f)

theorem dispatch (h : AloneInv s) {request f : Nat} {code : IoControlCode}
    (hhandler : s.handler request = .dispatch f code) (valid forward : Bool) :
    AloneInv (s.dispatch request f code valid forward) := by
  have hnotStore : ∀ g c p, s.handler request ≠ .store g c p := fun _ _ _ hs => by
    cases hs.symm.trans hhandler
  have hbase := h.base.dispatch hhandler valid forward
  revert hbase
  rw [World.dispatch]
  split
  · dsimp only
    split
    · exact fun hbase => h.setHandler_plain hbase hnotStore fun _ => id
    · split
      · exact fun hbase => h.setHandler_plain hbase hnotStore fun _ => id
      · split
        · exact fun hbase => h.setHandler_plain hbase hnotStore fun _ => id
        · split
          · exact fun hbase => (h.withQueued _).setHandler_plain hbase hnotStore fun _ => id
          · exact fun hbase => h.setHandler_plain hbase hnotStore fun _ => id
  · exact fun hbase => h.setHandler_plain hbase hnotStore fun _ => id

theorem send (h : AloneInv s) {request f : Nat} {queue : Option FileQueue} {msg : TxMsg}
    (hhandler : s.handler request = .send f queue msg) (outcome : QueueMessage) :
    AloneInv (s.send request f queue msg outcome) := by
  refine (h.queueMessage f (some request) msg outcome).setHandler_plain
    (h.base.send hhandler outcome) (fun g c p hs => ?_) fun g => ?_
  · have hkeep : (s.queueMessage f (some request) msg outcome).handler = s.handler := by
      rw [World.queueMessage]
      split <;> rfl
    rw [hkeep] at hs
    cases hs.symm.trans hhandler
  · unfold afterSend
    split <;> split <;> exact id

theorem notSent (h : AloneInv s) {request f : Nat} {queue : FileQueue}
    (hhandler : s.handler request = .notSent f queue) : AloneInv (s.notSent request f queue) :=
  (h.withQueued _).setHandler_plain (h.base.notSent hhandler)
    (fun _ _ _ hs => by cases hs.symm.trans hhandler) fun _ => id

theorem closeFile (h : AloneInv s) {f : Nat} (hopened : s.phase f = .opened)
    (hholds : ∀ request < s.requests.length, ¬(s.handler request).Holds f) :
    AloneInv (s.closeFile f) := by
  refine h.setPhase (h.base.closeFile hopened hholds) ?_
  split
  · next hnone =>
    -- without a context there is no port, and none is under way
    refine .inr fun port hentry => ?_
    obtain ⟨-, ⟨context, hc, -⟩ | ⟨r, code, hs⟩⟩ := h.held f port hentry
    · cases hc.symm.trans hnone
    · exact hholds r (h.base.received (by simp [hs])) (by rw [hs]; rfl)
  · exact .inl trivial

theorem testState (h : AloneInv s) {f : Nat} (hphase : s.phase f = .closing .testState) :
    AloneInv (s.testState f) := by
  have hbase := h.base.testState hphase
  revert hbase
  rw [World.testState]
  split
  · exact fun _ => h
  · next context _ =>
    have htested : AloneInv { s with tested := s.tested ++ [(f, context.state)] } :=
      h.congr (h.base.congr rfl rfl rfl rfl rfl) rfl rfl rfl rfl
    exact fun hbase => htested.setPhase hbase (.inl trivial)

theorem sendClose (h : AloneInv s) {f : Nat} (hphase : s.phase f = .closing .sendClose)
    (outcome : QueueMessage) : AloneInv (s.sendClose f outcome) := by
  have hbase := h.base.sendClose hphase outcome
  revert hbase
  rw [World.sendClose]
  split
  · exact fun _ => h
  · exact fun hbase => (h.queueMessage ..).setPhase hbase (.inl trivial)

theorem readHandle (h : AloneInv s) {f : Nat} (hphase : s.phase f = .closing .readHandle) :
    AloneInv (s.readHandle f) := by
  have hbase := h.base.readHandle hphase
  revert hbase
  rw [World.readHandle]
  split
  · exact fun _ => h
  · exact fun hbase => h.setPhase hbase (.inl trivial)

/-- The only entry of the file is freed. -/
theorem free (h : AloneInv s) {f portNumber : Nat} {temp : Option Nat}
    (hphase : s.phase f = .closing (.release portNumber temp)) :
    AloneInv ((s.setHandle portNumber none).setPhase f .closed) := by
  have hbase := h.base.free hphase
  obtain ⟨context, hc, hp, -⟩ := h.base.release f portNumber temp hphase
  refine ⟨hbase, fun g port hentry => ?_, h.alone, h.noPort⟩
  change Function.update s.armPortHandles portNumber none port = some g at hentry
  have hne : port ≠ portNumber := by
    rintro rfl
    rw [Function.update_self] at hentry
    cases hentry
  rw [Function.update_of_ne hne] at hentry
  obtain ⟨hlive, hholds⟩ := h.held g port hentry
  refine ⟨?_, hholds⟩
  have hg : g ≠ f := by
    rintro rfl
    obtain ⟨c, hcontext, hport, -⟩ | ⟨r, code, hs⟩ := hholds
    · cases hcontext.symm.trans hc
      exact hne (hport.symm.trans hp.symm)
    · exact h.base.not_holds_of_closing hphase r (by rw [hs]; rfl)
  show (Function.update s.phase f .closed g).Live
  rwa [Function.update_of_ne hg]

theorem releaseHandle (h : AloneInv s) {f portNumber : Nat} {temp : Option Nat}
    (hphase : s.phase f = .closing (.release portNumber temp)) :
    AloneInv (s.release f portNumber temp) := by
  obtain ⟨context, hc, -, htemp⟩ := h.base.release f portNumber temp hphase
  rw [Base.release_eq hc htemp]
  have hemptied : AloneInv (((s.setHandle portNumber none).setPhase f .closed).setContext f
      { context with pendingDataMsgList := [] }) :=
    (h.free hphase).setContext hc rfl
  exact hemptied.withQueued _

theorem rxLookup (h : AloneInv s) : AloneInv s.rxLookup := by
  have hbase := h.base.rxLookup
  revert hbase
  rw [World.rxLookup]
  split
  · exact fun _ => h
  · exact fun hbase => h.congr hbase rfl rfl rfl rfl

theorem rxHandle (h : AloneInv s) (msg : RxMsg) (handle : Option Nat) (retrieve listed : Bool) :
    AloneInv (s.rxHandle msg handle retrieve listed) := by
  have hbase := h.base.rxHandle msg handle retrieve listed
  obtain ⟨hhandles, hphase, -, hhandler, hcontext⟩ := rxHandle_keeps s msg handle retrieve listed
  obtain hcontext | ⟨g, c, c', hc, hport, hcontext⟩ := hcontext
  · exact h.congr hbase hhandles hphase hcontext hhandler
  · exact (h.setContext hc hport).congr hbase hhandles hphase hcontext hhandler

theorem effect (h : AloneInv s) (a : Action) (halone : Alone s a) (hen : s.enabled a) :
    AloneInv (s.effect a) := by
  cases a with
  | openFile f => exact h.setPhase (h.base.openFile hen) (.inl trivial)
  | ioctl f code => exact h.ioctl hen code
  | allocateContext request f code allocated => exact h.allocateContext hen halone
  | tryPort request f code port => exact h.tryPort hen
  | storePort request f code port created rest => exact h.storePort hen created rest
  | dispatch request f code valid forward => exact h.dispatch hen valid forward
  | send request f queue msg outcome => exact h.send hen outcome
  | notSent request f queue => exact h.notSent hen
  | cancel f queue request => exact h.withQueued _
  | closeFile f => exact h.closeFile hen.1 hen.2.2
  | testState f => exact h.testState hen
  | sendClose f outcome => exact h.sendClose hen outcome
  | readHandle f => exact h.readHandle hen
  | release f portNumber temp => exact h.releaseHandle hen
  | vcSend msg => exact h.congr (h.base.congr rfl rfl rfl rfl rfl) rfl rfl rfl rfl
  | vcClosed f port => exact h.congr (h.base.congr rfl rfl rfl rfl rfl) rfl rfl rfl rfl
  | rxLookup => exact h.rxLookup
  | rxHandle msg handle retrieve listed => exact h.rxHandle msg handle retrieve listed

end AloneInv

theorem aloneInv_of_reach {s : World} (h : serviceMachine.Reach Alone s) : AloneInv s := by
  refine Machine.Reach.inv_guarded (fun s hs => ?_) (fun s a hinv halone hen => ?_) h
  · rw [hs]
    exact .start
  · exact hinv.effect a halone hen

/-- **The table of Arm ports is sound** in every run in which a context is allocated once for each
file. -/
theorem portTableSound_of_alone {s : World} (h : serviceMachine.Reach Alone s) :
    PortTableSound s :=
  (aloneInv_of_reach h).sound

/-- Two files open; the first one gets port 1, closes, and the second one gets it. -/
def reuseRun : List Action :=
  [.openFile 0, .ioctl 0 .connect, .allocateContext 0 0 .connect true, .tryPort 0 0 .connect 1,
    .storePort 0 0 .connect 1 fileQueueMax true, .openFile 1, .closeFile 0, .testState 0,
    .sendClose 0 .success, .readHandle 0, .release 0 1 (some 0), .ioctl 1 .createService,
    .allocateContext 1 1 .createService true, .tryPort 1 1 .createService 1,
    .storePort 1 1 .createService 1 fileQueueMax true]

/-- A run of this kind: a port is used again, and its entry refers to its new holder. -/
theorem portTableSound_reuse : ∃ s, serviceMachine.Reach Alone s ∧
    s.armPortHandles 1 = some 1 ∧ PortTableSound s := by
  obtain ⟨s, hr, hp⟩ := Machine.reach_execOk_any serviceMachine Alone reuseRun
    (p := fun s => s.armPortHandles 1 == some 1) rfl (by decide +kernel)
  exact ⟨s, hr, beq_iff_eq.1 hp, portTableSound_of_alone hr⟩

/-- Two requests of a file find no context, and both take a port. The second port is the one that
the context keeps and that is freed in the end. -/
def doubleRun : List Action :=
  [.openFile 0, .ioctl 0 .connect, .ioctl 0 .createService, .allocateContext 0 0 .connect true,
    .tryPort 0 0 .connect 1, .storePort 0 0 .connect 1 fileQueueMax true,
    .allocateContext 1 0 .createService true, .tryPort 1 0 .createService 1,
    .tryPort 1 0 .createService 2, .storePort 1 0 .createService 2 fileQueueMax true,
    .dispatch 1 0 .createService false true, .closeFile 0, .testState 0, .sendClose 0 .success,
    .readHandle 0, .release 0 2 (some 0)]

/-- **A stale entry**: the file is closed, and an entry still refers to it. -/
theorem stale_entry : ¬∀ s, serviceMachine.Reachable s → PortTableSound s := by
  intro hall
  obtain ⟨s, hr, hp⟩ := Machine.reach_exec_any serviceMachine doubleRun
    (p := fun s => s.armPortHandles 1 == some 0 && s.phase 0 == .closed) rfl (by decide +kernel)
  obtain ⟨hentry, hclosed⟩ := Bool.and_eq_true_iff.1 hp
  exact (hall s hr).closed 0 (beq_iff_eq.1 hclosed) 1 (beq_iff_eq.1 hentry)

end RpiDrivers.Vchiq.Service
