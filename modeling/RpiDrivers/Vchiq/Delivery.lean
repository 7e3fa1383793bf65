import RpiDrivers.Vchiq.PortTable

/-!
# To whom a message is delivered

The RX thread finds the context of a message by its Arm port alone. `VchiqFileClose` sends a CLOSE
and frees the port without waiting for VC, so the port can have a new holder when the messages of
the old service arrive.

- `deliver_frame`: a message changes nothing but the context and the queues of its receiver.
- `NoCrossDelivery`: no message for the service of a closed file is delivered to another file.
- `noCrossDelivery_of_settled`: **none is, when VC is through with a port that is taken**.
- `late_message`: a message that comes late.
-/

namespace RpiDrivers.Vchiq.Service

open RpiDrivers.Lib
open RpiDrivers.Vchiq.Ioctl (FileQueue IoControlCode fileQueueMax)

/-- No message for the service of a closed file was given to another file. -/
def NoCrossDelivery (s : World) : Prop :=
  ∀ d ∈ s.delivered, s.phase d.1.service = .closed → d.2 = d.1.service

/-- The condition: VC is through with a port when it is taken, and nothing for it is in the Rx
slots. An OPEN is not sent for a file that is closed already. -/
def Settled (s : World) : Action → Prop
  | .tryPort _ _ _ port => s.armPortHandles port = none →
      (∀ e ∈ s.remote, e.2 ≠ port) ∧ ∀ msg ∈ s.inFlight, msg.dstPort ≠ port
  | .send _ f _ msg _ => msg.type = .openService → s.phase f ≠ .closed
  | _ => True

instance (s : World) : ∀ a, Decidable (Settled s a)
  | .tryPort _ _ _ _ | .send _ _ _ _ _ => inferInstanceAs (Decidable (_ → _))
  | .allocateContext _ _ _ _ | .openFile _ | .ioctl _ _ | .storePort _ _ _ _ _ _
  | .dispatch _ _ _ _ _ | .notSent _ _ _ | .cancel _ _ _ | .closeFile _ | .testState _
  | .sendClose _ _ | .readHandle _ | .release _ _ _ | .vcSend _ | .vcClosed _ _ | .rxLookup
  | .rxHandle _ _ _ _ => inferInstanceAs (Decidable True)

/-! ## What a message changes -/

/-- **The frame of a message**: other files keep their contexts and their queued requests, and the
delivery is noted. -/
theorem deliver_frame (s : World) (g : Nat) (context : FileContext) (msg : RxMsg)
    (retrieve listed : Bool) :
    let s' := s.deliver g context msg retrieve listed
    s'.delivered = s.delivered ++ [(msg, g)] ∧ ∀ f, f ≠ g → s'.context f = s.context f ∧
      s'.queued.filter (·.1.1 = f) = s.queued.filter (·.1.1 = f) := by
  unfold World.deliver
  dsimp only
  split
  · split
    · exact ⟨rfl, fun f hf => ⟨Function.update_of_ne hf .., rfl⟩⟩
    · exact ⟨rfl, fun f _ => ⟨rfl, rfl⟩⟩
  · next queue _ =>
    split
    · exact ⟨rfl, fun f hf => ⟨Function.update_of_ne hf .., rfl⟩⟩
    · next queued hretrieve =>
      refine ⟨rfl, fun f hf => ⟨Function.update_of_ne hf .., ?_⟩⟩
      split at hretrieve
      · refine ManualQueues.filter_retrieve hretrieve fun e he => ?_
        have hkey : e.1 = (g, queue) := of_decide_eq_true he
        rw [hkey]
        exact decide_eq_false (Ne.symm hf)
      · cases hretrieve

/-- Nothing is sent. -/
theorem deliver_channels (s : World) (g : Nat) (context : FileContext) (msg : RxMsg)
    (retrieve listed : Bool) :
    let s' := s.deliver g context msg retrieve listed
    s'.remote = s.remote ∧ s'.inFlight = s.inFlight ∧ s'.rx = s.rx := by
  unfold World.deliver
  dsimp only
  split <;> split <;> exact ⟨rfl, rfl, rfl⟩

/-! ## The invariant -/

/-- The entry of the port refers to the file, or to none. -/
def FreeFor (s : World) (f port : Nat) : Prop :=
  s.armPortHandles port = some f ∨ s.armPortHandles port = none

/-- What holds when VC is through with every port that is taken. -/
structure SettledInv (s : World) : Prop where
  base : Base s
  remote : ∀ f port, (f, port) ∈ s.remote → FreeFor s f port
  inFlight : ∀ msg ∈ s.inFlight, FreeFor s msg.service msg.dstPort
  rx : ∀ msg g, s.rx = some (msg, some g) → g = msg.service
  opening : ∀ request f queue msg, s.handler request = .send f queue msg →
    msg.type = .openService → s.phase f ≠ .closed →
      s.armPortHandles msg.srcPort = some f ∨ msg.srcPort = 0
  delivered : ∀ d ∈ s.delivered, d.2 = d.1.service

namespace SettledInv

variable {s s' : World}

theorem sound (h : SettledInv s) : NoCrossDelivery s :=
  fun d hd _ => h.delivered d hd

/-- The files and the handlers go on, without a message and without a change of the table. -/
theorem congr (h : SettledInv s) (hbase : Base s')
    (hhandles : s'.armPortHandles = s.armPortHandles) (hremote : s'.remote = s.remote)
    (hinFlight : s'.inFlight = s.inFlight) (hrx : s'.rx = s.rx)
    (hdelivered : s'.delivered = s.delivered)
    (hopening : ∀ request f queue msg, s'.handler request = .send f queue msg →
      msg.type = .openService → s'.phase f ≠ .closed →
        s.armPortHandles msg.srcPort = some f ∨ msg.srcPort = 0) : SettledInv s' where
  base := hbase
  remote f port hmem := by
    rw [FreeFor, hhandles]
    exact h.remote f port (hremote ▸ hmem)
  inFlight msg hmem := by
    rw [FreeFor, hhandles]
    exact h.inFlight msg (hinFlight ▸ hmem)
  rx msg g heq := h.rx msg g (hrx ▸ heq)
  opening request f queue msg hs htype hphase := by
    rw [hhandles]
    exact hopening request f queue msg hs htype hphase
  delivered d hd := h.delivered d (hdelivered ▸ hd)

/-- The OPENs under way once a handler goes on. -/
theorem setHandler_opening (h : SettledInv s) {request : Nat} {handler : Handler}
    (hnew : ∀ f queue msg, handler = .send f queue msg → msg.type = .openService →
      s.phase f ≠ .closed → s.armPortHandles msg.srcPort = some f ∨ msg.srcPort = 0) :
    ∀ r f queue msg, Function.update s.handler request handler r = .send f queue msg →
      msg.type = .openService → s.phase f ≠ .closed →
        s.armPortHandles msg.srcPort = some f ∨ msg.srcPort = 0 := by
  intro r f queue msg hs htype hphase
  by_cases hr : r = request
  · rw [hr, Function.update_self] at hs
    exact hnew f queue msg hs htype hphase
  · rw [Function.update_of_ne hr] at hs
    exact h.opening r f queue msg hs htype hphase

/-- A handler goes on. -/
theorem setHandler (h : SettledInv s) {request : Nat} {handler : Handler}
    (hbase : Base (s.setHandler request handler))
    (hnew : ∀ f queue msg, handler = .send f queue msg → msg.type = .openService →
      s.phase f ≠ .closed → s.armPortHandles msg.srcPort = some f ∨ msg.srcPort = 0) :
    SettledInv (s.setHandler request handler) :=
  h.congr hbase rfl rfl rfl rfl rfl (h.setHandler_opening hnew)

/-- Something else than the table, the messages and the handlers is changed. -/
theorem frame (h : SettledInv s) (hbase : Base s')
    (hhandles : s'.armPortHandles = s.armPortHandles) (hremote : s'.remote = s.remote)
    (hinFlight : s'.inFlight = s.inFlight) (hrx : s'.rx = s.rx)
    (hdelivered : s'.delivered = s.delivered) (hhandler : s'.handler = s.handler)
    (hphase : ∀ f, s.phase f = .closed → s'.phase f = .closed) : SettledInv s' := by
  refine h.congr hbase hhandles hremote hinFlight hrx hdelivered
    fun request f queue msg hs htype hopen => ?_
  rw [hhandler] at hs
  exact h.opening request f queue msg hs htype fun hclosed => hopen (hphase f hclosed)

/-- A file that is not closed comes to another phase. -/
theorem setPhase (h : SettledInv s) {f : Nat} {phase : FilePhase}
    (hbase : Base (s.setPhase f phase)) (hopen : s.phase f ≠ .closed) :
    SettledInv (s.setPhase f phase) := by
  refine h.frame hbase rfl rfl rfl rfl rfl rfl fun g hg => ?_
  have hne : g ≠ f := fun heq => hopen (heq ▸ hg)
  exact (Function.update_of_ne hne ..).trans hg

/-- A message is put into a slot. VC learns of a service whose port the file holds. -/
theorem queueMessage (h : SettledInv s) {f : Nat} {msg : TxMsg}
    (hport : msg.type = .openService → FreeFor s f msg.srcPort) (request : Option Nat)
    (outcome : QueueMessage) : SettledInv (s.queueMessage f request msg outcome) := by
  have hbase := h.base.queueMessage f request msg outcome
  revert hbase
  rw [World.queueMessage]
  split
  · exact fun _ => h
  · refine fun hbase => ⟨hbase, fun g port hmem => ?_, h.inFlight, h.rx, h.opening, h.delivered⟩
    dsimp only at hmem
    split at hmem
    · next htype =>
      obtain hmem | hmem := List.mem_append.1 hmem
      · exact h.remote g port hmem
      · cases List.mem_singleton.1 hmem
        exact hport htype
    · exact h.remote g port hmem

/-! ### The steps -/

theorem start : SettledInv .start :=
  ⟨.start, nofun, nofun, nofun, nofun, nofun⟩

theorem ioctl (h : SettledInv s) {f : Nat} (hphase : s.phase f = .opened) (code : IoControlCode) :
    SettledInv (s.ioctl f code) := by
  have hreceived : SettledInv { s with requests := s.requests ++ [(f, code)] } :=
    h.frame (h.base.withRequest (f, code)) rfl rfl rfl rfl rfl rfl fun _ => id
  refine hreceived.setHandler (h.base.ioctl hphase code) fun g queue msg hs => ?_
  unfold startHandler at hs
  split at hs <;> split at hs <;> cases hs

theorem allocateContext (h : SettledInv s) {request f : Nat} {code : IoControlCode}
    (hhandler : s.handler request = .allocate f code) (allocated : Bool) :
    SettledInv (s.allocateContext request f code allocated) := by
  have hbase := h.base.allocateContext hhandler allocated
  revert hbase
  rw [World.allocateContext]
  split
  · exact fun hbase => h.congr hbase rfl rfl rfl rfl rfl
      (h.setHandler_opening fun _ _ _ h => by cases h)
  · exact fun hbase => h.setHandler hbase fun _ _ _ h => by cases h

/-- A port is taken that nobody sends for. -/
theorem tryPort (h : SettledInv s) {request f port : Nat} {code : IoControlCode}
    (hhandler : s.handler request = .scan f code port)
    (hsettled : s.armPortHandles port = none →
      (∀ e ∈ s.remote, e.2 ≠ port) ∧ ∀ msg ∈ s.inFlight, msg.dstPort ≠ port) :
    SettledInv (s.tryPort request f code port) := by
  have hstart := h.base.scan request f code port hhandler
  have hbase := h.base.tryPort hhandler
  revert hbase
  rw [World.tryPort]
  split
  · exact fun hbase => h.setHandler hbase fun _ _ _ h => by cases h
  · split
    · next hfree =>
      intro hbase
      obtain ⟨hremote, hinFlight⟩ := hsettled hfree
      have hkeep : ∀ g p, p ≠ port → FreeFor s g p →
          FreeFor ((s.setHandle port (some f)).setHandler request (.store f code port)) g p := by
        intro g p hne hp
        show Function.update s.armPortHandles port (some f) p = some g ∨
          Function.update s.armPortHandles port (some f) p = none
        rwa [Function.update_of_ne hne]
      refine ⟨hbase, fun g p hmem => ?_, fun msg hmem => ?_, h.rx,
        fun r g queue msg hs htype hopen => ?_, h.delivered⟩
      · exact hkeep g p (hremote _ hmem) (h.remote g p hmem)
      · exact hkeep _ _ (hinFlight msg hmem) (h.inFlight msg hmem)
      · have hold : s.armPortHandles msg.srcPort = some g ∨ msg.srcPort = 0 :=
          h.setHandler_opening (fun _ _ _ hs => by cases hs) r g queue msg hs htype hopen
        refine hold.imp_left fun hp => ?_
        have hne : msg.srcPort ≠ port := fun heq => by cases hfree.symm.trans (heq ▸ hp)
        exact (Function.update_of_ne hne ..).trans hp
    · exact fun hbase => h.setHandler hbase fun _ _ _ h => by cases h

theorem storePort (h : SettledInv s) {request f port : Nat} {code : IoControlCode}
    (hhandler : s.handler request = .store f code port) (created : Nat) (rest : Bool) :
    SettledInv (s.storePort request f code port created rest) := by
  refine h.congr (h.base.storePort hhandler created rest) rfl rfl rfl rfl rfl
    (h.setHandler_opening fun _ _ _ hs => ?_)
  split at hs <;> cases hs

/-- An OPEN names the port of the file. -/
theorem dispatch (h : SettledInv s) {request f : Nat} {code : IoControlCode}
    (hhandler : s.handler request = .dispatch f code) (valid forward : Bool) :
    SettledInv (s.dispatch request f code valid forward) := by
  have hopened : s.phase f = .opened := h.base.opened request f (by rw [hhandler]; rfl)
  have hbase := h.base.dispatch hhandler valid forward
  revert hbase
  rw [World.dispatch]
  split
  · next context type queue hc _ =>
    have hport : s.armPortHandles context.armPortNumber = some f ∨ context.armPortNumber = 0 := by
      by_cases hzero : context.armPortNumber = 0
      · exact .inr hzero
      · exact .inl (h.base.port f context (Base.live_of_opened hopened) hc hzero).2.2
    dsimp only
    split
    · exact fun hbase => h.setHandler hbase fun _ _ _ h => by cases h
    · split
      · refine fun hbase => h.setHandler hbase fun g queue msg hs _ _ => ?_
        cases hs
        exact hport
      · split
        · refine fun hbase => h.setHandler hbase fun g queue msg hs _ _ => ?_
          cases hs
          exact hport
        · split
          · refine fun hbase => h.congr hbase rfl rfl rfl rfl rfl
              (h.setHandler_opening fun g queue msg hs _ _ => ?_)
            cases hs
            exact hport
          · exact fun hbase => h.setHandler hbase fun _ _ _ h => by cases h
  · exact fun hbase => h.setHandler hbase fun _ _ _ h => by cases h

theorem send (h : SettledInv s) {request f : Nat} {queue : Option FileQueue} {msg : TxMsg}
    (hhandler : s.handler request = .send f queue msg) (outcome : QueueMessage)
    (hsettled : msg.type = .openService → s.phase f ≠ .closed) :
    SettledInv (s.send request f queue msg outcome) := by
  have hqueued : SettledInv (s.queueMessage f (some request) msg outcome) := by
    refine h.queueMessage (fun htype => ?_) (some request) outcome
    obtain hport | hzero := h.opening request f queue msg hhandler htype (hsettled htype)
    · exact .inl hport
    · exact .inr (hzero ▸ h.base.zero)
  refine hqueued.setHandler (h.base.send hhandler outcome) fun g queue' msg' hs => ?_
  unfold afterSend at hs
  split at hs <;> split at hs <;> cases hs

theorem notSent (h : SettledInv s) {request f : Nat} {queue : FileQueue}
    (hhandler : s.handler request = .notSent f queue) : SettledInv (s.notSent request f queue) :=
  h.congr (h.base.notSent hhandler) rfl rfl rfl rfl rfl
      (h.setHandler_opening fun _ _ _ h => by cases h)

theorem closeFile (h : SettledInv s) {f : Nat} (hopened : s.phase f = .opened)
    (hholds : ∀ request < s.requests.length, ¬(s.handler request).Holds f) :
    SettledInv (s.closeFile f) :=
  h.setPhase (h.base.closeFile hopened hholds) (by simp [hopened])

theorem testState (h : SettledInv s) {f : Nat} (hphase : s.phase f = .closing .testState) :
    SettledInv (s.testState f) := by
  have hbase := h.base.testState hphase
  revert hbase
  rw [World.testState]
  split
  · exact fun _ => h
  · next context _ =>
    have htested : SettledInv { s with tested := s.tested ++ [(f, context.state)] } :=
      h.frame (h.base.congr rfl rfl rfl rfl rfl) rfl rfl rfl rfl rfl rfl fun _ => id
    exact fun hbase => htested.setPhase hbase (by simp [hphase])

theorem sendClose (h : SettledInv s) {f : Nat} (hphase : s.phase f = .closing .sendClose)
    (outcome : QueueMessage) : SettledInv (s.sendClose f outcome) := by
  have hbase := h.base.sendClose hphase outcome
  revert hbase
  rw [World.sendClose]
  split
  · exact fun _ => h
  · next context _ =>
    have hqueued : SettledInv (s.queueMessage f none
        ⟨.close, context.armPortNumber, context.vchiqPortNumber⟩ outcome) :=
      h.queueMessage (fun htype => by cases htype) none outcome
    refine fun hbase => hqueued.setPhase hbase ?_
    have hkeep : (s.queueMessage f none ⟨.close, context.armPortNumber, context.vchiqPortNumber⟩
        outcome).phase = s.phase := by
      rw [World.queueMessage]
      split <;> rfl
    rw [hkeep, hphase]
    exact fun h => by cases h

theorem readHandle (h : SettledInv s) {f : Nat} (hphase : s.phase f = .closing .readHandle) :
    SettledInv (s.readHandle f) := by
  have hbase := h.base.readHandle hphase
  revert hbase
  rw [World.readHandle]
  split
  · exact fun _ => h
  · exact fun hbase => h.setPhase hbase (by simp [hphase])

/-- The port is free for every message of its last holder. -/
theorem releaseHandle (h : SettledInv s) {f portNumber : Nat} {temp : Option Nat}
    (hphase : s.phase f = .closing (.release portNumber temp)) :
    SettledInv (s.release f portNumber temp) := by
  have hbase := h.base.releaseHandle hphase
  obtain ⟨context, hc, hport, htemp⟩ := h.base.release f portNumber temp hphase
  revert hbase
  rw [Base.release_eq hc htemp]
  intro hbase
  have hfree : ∀ g p, FreeFor s g p → FreeFor (s.setHandle portNumber none) g p := by
    intro g p hp
    show Function.update s.armPortHandles portNumber none p = some g ∨
      Function.update s.armPortHandles portNumber none p = none
    by_cases hpp : p = portNumber
    · rw [hpp, Function.update_self]
      exact .inr rfl
    · rwa [Function.update_of_ne hpp]
  refine ⟨hbase, fun g p hmem => hfree g p (h.remote g p hmem),
    fun msg hmem => hfree _ _ (h.inFlight msg hmem), h.rx, fun r g queue msg hs htype hopen => ?_,
    h.delivered⟩
  have hgf : g ≠ f := by
    rintro rfl
    exact hopen (Function.update_self ..)
  have hgopen : s.phase g ≠ .closed := by
    change Function.update s.phase f .closed g ≠ .closed at hopen
    rwa [Function.update_of_ne hgf] at hopen
  refine (h.opening r g queue msg hs htype hgopen).imp_left fun hentry => ?_
  have hne : msg.srcPort ≠ portNumber := by
    intro heq
    by_cases hzero : context.armPortNumber = 0
    · rw [heq, hport, hzero, h.base.zero] at hentry
      cases hentry
    · have htaken := (h.base.port f context (Base.live_of_closing hphase) hc hzero).2.2
      rw [← hport, ← heq, hentry] at htaken
      exact hgf (Option.some.inj htaken)
  exact (Function.update_of_ne hne ..).trans hentry

theorem vcSend (h : SettledInv s) {msg : RxMsg} (hremote : (msg.service, msg.dstPort) ∈ s.remote) :
    SettledInv { s with inFlight := s.inFlight ++ [msg] } := by
  refine ⟨h.base.congr rfl rfl rfl rfl rfl, h.remote, fun m hm => ?_, h.rx, h.opening,
    h.delivered⟩
  obtain hm | hm := List.mem_append.1 hm
  · exact h.inFlight m hm
  · rw [List.mem_singleton.1 hm]
    exact h.remote _ _ hremote

theorem vcClosed (h : SettledInv s) (f port : Nat) :
    SettledInv { s with remote := s.remote.filter (· ≠ (f, port)) } :=
  ⟨h.base.congr rfl rfl rfl rfl rfl, fun g p hmem => h.remote g p (List.mem_filter.1 hmem).1,
    h.inFlight, h.rx, h.opening, h.delivered⟩

/-- The context that is found is that of the file. -/
theorem rxLookup (h : SettledInv s) : SettledInv s.rxLookup := by
  have hbase := h.base.rxLookup
  revert hbase
  rw [World.rxLookup]
  split
  · exact fun _ => h
  · next msg inFlight heq =>
    refine fun hbase => ⟨hbase, h.remote, fun m hm => h.inFlight m (heq ▸ .tail _ hm),
      fun m g hrx => ?_, h.opening, h.delivered⟩
    obtain ⟨rfl, hentry⟩ := Prod.mk.inj (Option.some.inj hrx)
    obtain hown | hfree := h.inFlight msg (heq ▸ List.mem_cons_self ..)
    · exact Option.some.inj (hentry.symm.trans hown)
    · cases hentry.symm.trans hfree

theorem rxHandle (h : SettledInv s) {msg : RxMsg} {handle : Option Nat}
    (hrx : s.rx = some (msg, handle)) (retrieve listed : Bool) :
    SettledInv (s.rxHandle msg handle retrieve listed) := by
  have hidle : SettledInv { s with rx := none } :=
    ⟨h.base.congr rfl rfl rfl rfl rfl, h.remote, h.inFlight, (fun _ _ h => by cases h), h.opening,
      h.delivered⟩
  have hbase := h.base.rxHandle msg handle retrieve listed
  revert hbase
  unfold World.rxHandle
  dsimp only
  split
  · exact fun _ => hidle
  · next g =>
    split
    · exact fun _ => hidle
    · next context _ =>
      split
      · intro hbase
        obtain ⟨hremote, hinFlight, hnone⟩ :=
          deliver_channels { s with rx := none } g context msg retrieve listed
        obtain ⟨hdelivered, -⟩ := deliver_frame { s with rx := none } g context msg retrieve listed
        obtain ⟨hhandles, hphase, -, hhandler, -⟩ :=
          deliver_keeps { s with rx := none } g context msg retrieve listed
        refine ⟨hbase, fun f port hmem => ?_, fun m hm => ?_, fun m f hm => ?_,
          fun r f queue m hs htype hopen => ?_, fun d hd => ?_⟩
        · rw [FreeFor, hhandles]
          exact h.remote f port (hremote ▸ hmem)
        · rw [FreeFor, hhandles]
          exact h.inFlight m (hinFlight ▸ hm)
        · cases hnone.symm.trans hm
        · rw [hhandles]
          exact h.opening r f queue m (hhandler ▸ hs) htype (hphase ▸ hopen)
        · rw [hdelivered] at hd
          obtain hd | hd := List.mem_append.1 hd
          · exact h.delivered d hd
          · rw [List.mem_singleton.1 hd]
            exact h.rx msg g hrx
      · exact fun _ => hidle

theorem effect (h : SettledInv s) (a : Action) (hok : Settled s a) (hen : s.enabled a) :
    SettledInv (s.effect a) := by
  cases a with
  | openFile f =>
    exact h.setPhase (h.base.openFile hen) (fun hsent => nomatch hen.symm.trans hsent)
  | ioctl f code => exact h.ioctl hen code
  | allocateContext request f code allocated => exact h.allocateContext hen allocated
  | tryPort request f code port => exact h.tryPort hen hok
  | storePort request f code port created rest => exact h.storePort hen created rest
  | dispatch request f code valid forward => exact h.dispatch hen valid forward
  | send request f queue msg outcome => exact h.send hen outcome hok
  | notSent request f queue => exact h.notSent hen
  | cancel f queue request =>
    exact h.frame (h.base.withQueued _) rfl rfl rfl rfl rfl rfl fun _ => id
  | closeFile f => exact h.closeFile hen.1 hen.2.2
  | testState f => exact h.testState hen
  | sendClose f outcome => exact h.sendClose hen outcome
  | readHandle f => exact h.readHandle hen
  | release f portNumber temp => exact h.releaseHandle hen
  | vcSend msg => exact h.vcSend hen
  | vcClosed f port => exact h.vcClosed f port
  | rxLookup => exact h.rxLookup
  | rxHandle msg handle retrieve listed => exact h.rxHandle hen retrieve listed

end SettledInv

/-- **No message is delivered to another file** in a run in which VC is through with every port that
is taken. -/
theorem noCrossDelivery_of_settled {s : World} (h : serviceMachine.Reach Settled s) :
    NoCrossDelivery s := by
  refine SettledInv.sound ?_
  refine Machine.Reach.inv_guarded (fun s hs => ?_) (fun s a hinv hok hen => ?_) h
  · rw [hs]
    exact .start
  · exact hinv.effect a hok hen

/-- A file opens a service on port 1, and closes. -/
def serviceRun : List Action :=
  [.openFile 0, .ioctl 0 .createService, .allocateContext 0 0 .createService true,
    .tryPort 0 0 .createService 1, .storePort 0 0 .createService 1 fileQueueMax true,
    .dispatch 0 0 .createService true true,
    .send 0 0 (some .createService) ⟨.openService, 1, 0⟩ .success, .vcSend ⟨.openAck, 50, 1, 0, 0⟩,
    .rxLookup, .rxHandle ⟨.openAck, 50, 1, 0, 0⟩ (some 0) true true, .vcSend ⟨.data, 50, 1, 8, 0⟩,
    .closeFile 0, .testState 0, .sendClose 0 .success, .readHandle 0, .release 0 1 (some 0)]

/-- The next file gets port 1. -/
def nextRun : List Action :=
  [.openFile 1, .ioctl 1 .createService, .allocateContext 1 1 .createService true,
    .tryPort 1 1 .createService 1, .storePort 1 1 .createService 1 fileQueueMax true]

/-- A run of this kind: the message for the closed service is dropped, and then the port is taken
again. -/
theorem noCrossDelivery_reuse : ∃ s, serviceMachine.Reach Settled s ∧ s.phase 0 = .closed ∧
    s.armPortHandles 1 = some 1 ∧ NoCrossDelivery s := by
  obtain ⟨s, hr, hp⟩ := Machine.reach_execOk_any serviceMachine Settled
    (serviceRun ++ [.rxLookup, .rxHandle ⟨.data, 50, 1, 8, 0⟩ none true true, .vcClosed 0 1] ++
      nextRun)
    (p := fun s => s.phase 0 == .closed && s.armPortHandles 1 == some 1) rfl (by decide +kernel)
  obtain ⟨hclosed, hentry⟩ := Bool.and_eq_true_iff.1 hp
  exact ⟨s, hr, beq_iff_eq.1 hclosed, beq_iff_eq.1 hentry, noCrossDelivery_of_settled hr⟩

/-- **A late message**: it is listed for the file that has got the port meanwhile. -/
theorem late_message : ¬∀ s, serviceMachine.Reachable s → NoCrossDelivery s := by
  intro hall
  obtain ⟨s, hr, hp⟩ := Machine.reach_exec_any serviceMachine
    (serviceRun ++ nextRun ++ [.rxLookup, .rxHandle ⟨.data, 50, 1, 8, 0⟩ (some 1) true true])
    (p := fun s => s.delivered.contains (⟨.data, 50, 1, 8, 0⟩, 1) && s.phase 0 == .closed &&
      (s.context 1).any (·.pendingDataMsgList == [⟨.data, 50, 1, 8, 0⟩])) rfl (by decide +kernel)
  obtain ⟨hp, -⟩ := Bool.and_eq_true_iff.1 hp
  obtain ⟨hmem, hclosed⟩ := Bool.and_eq_true_iff.1 hp
  have heq := hall s hr _ (List.contains_iff_mem.1 hmem) (beq_iff_eq.1 hclosed)
  cases heq

end RpiDrivers.Vchiq.Service
