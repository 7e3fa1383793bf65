import Mathlib.Data.List.Nodup
import RpiDrivers.Vchiq.Services

/-!
# The context of a file (`file.c`)

`VchiqAllocateFileObjContext` attaches a context to the file object, and then sets it up: a port,
queues, lookaside lists, the lists of pending messages and a DMA adapter. Each of these can fail,
and then the function returns: the context stays attached and the port stays taken. What comes
later tests the pointer to the context only.

- `FailurePoint`: where the function can fail.
- `vchiqAllocateFileObjContext`: the function, with what it leaves behind.
- `fileMachine`: files are opened, used and closed; a call of a function is a step.
- `ContextSound`: the contexts that are found are set up, and so are those that have a port.
- `contextSound_iff`: **every run is sound exactly when nothing fails but the allocation of the
  context itself**.
- `found_without_adapter`: a context without a DMA adapter is found.
-/

namespace RpiDrivers.Vchiq.FileObj

open RpiDrivers.Lib
open RpiDrivers.Vchiq.Ioctl (FileQueue IoControlCode)
open RpiDrivers.Vchiq.Service (armPortStart maxArmPorts)

/-! ## The allocation -/

/-- The points at which `VchiqAllocateFileObjContext` can fail, in their order. -/
inductive FailurePoint
  /-- `WdfObjectAllocateContext` -/
  | objectContext
  /-- no port is left: `STATUS_NO_MORE_FILES` -/
  | armPort
  /-- `WdfIoQueueCreate` -/
  | fileQueue (queue : FileQueue)
  /-- `WdfLookasideListCreate`, for `PendingMsgLookAsideMemory` -/
  | pendingMsgLookAside
  /-- the same for `PendingBulkMsgLookAsideMemory` -/
  | pendingBulkMsgLookAside
  /-- `IoGetDmaAdapter` -/
  | dmaAdapter
  deriving DecidableEq

/-- The queues, in the order of their indexes. -/
def allFileQueues : List FileQueue :=
  [.createService, .closeService, .pendingMsg, .pendingVchiMsg, .txData, .rxData]

/-- `VCHIQ_FILE_CONTEXT`, as far as it is set up. -/
structure FileContext where
  armPortNumber : Nat
  /-- the queues that are created -/
  fileQueue : List FileQueue
  pendingMsgLookAsideMemory : Bool
  pendingBulkMsgLookAsideMemory : Bool
  /-- `InitializeListHead`, `ExInitializeFastMutex`, `KeInitializeEvent` -/
  lists : Bool
  dmaAdapter : Bool

/-- What `WdfObjectAllocateContext` allocates. -/
def FileContext.zero : FileContext := ⟨0, [], false, false, false, false⟩

/-- The context is set up. -/
structure FileContext.Initialised (context : FileContext) : Prop where
  armPortNumber : armPortStart ≤ context.armPortNumber ∧ context.armPortNumber < maxArmPorts
  fileQueue : context.fileQueue = allFileQueues
  pendingMsgLookAsideMemory : context.pendingMsgLookAsideMemory = true
  pendingBulkMsgLookAsideMemory : context.pendingBulkMsgLookAsideMemory = true
  lists : context.lists = true
  dmaAdapter : context.dmaAdapter = true

/-- Which calls succeed, by the point at which they would fail. -/
abbrev Outcomes : Type := FailurePoint → Bool

/-- The loop over the queues: the point of failure, and the context. -/
def createFileQueues (r : Outcomes) :
    List FileQueue → FileContext → Option FailurePoint × FileContext
  | [], context => (none, context)
  | queue :: queues, context =>
    if r (.fileQueue queue) then
      createFileQueues r queues { context with fileQueue := context.fileQueue ++ [queue] }
    else (some (.fileQueue queue), context)

/-- What follows the queues. -/
def initialiseLists (r : Outcomes) (context : FileContext) : Option FailurePoint × FileContext :=
  if !r .pendingMsgLookAside then (some .pendingMsgLookAside, context)
  else
    let context := { context with pendingMsgLookAsideMemory := true }
    if !r .pendingBulkMsgLookAside then (some .pendingBulkMsgLookAside, context)
    else
      let context := { context with pendingBulkMsgLookAsideMemory := true, lists := true }
      if !r .dmaAdapter then (some .dmaAdapter, context)
      else (none, { context with dmaAdapter := true })

/-- What the function leaves behind: where it has failed, the context that is attached to the file
object, and `ArmPortHandles`, in which a context is named by its file. -/
structure Allocation where
  failure : Option FailurePoint
  context : Option FileContext
  armPortHandles : Nat → Option Nat

/-- The loop over `ArmPortHandles`. -/
def findPort (armPortHandles : Nat → Option Nat) : Option Nat :=
  (List.range' armPortStart (maxArmPorts - armPortStart)).find? fun i => (armPortHandles i).isNone

/-- `VchiqAllocateFileObjContext` -/
def vchiqAllocateFileObjContext (r : Outcomes) (armPortHandles : Nat → Option Nat) (f : Nat) :
    Allocation :=
  if !r .objectContext then ⟨some .objectContext, none, armPortHandles⟩
  else
    match findPort armPortHandles with
    | none => ⟨some .armPort, some .zero, armPortHandles⟩
    | some i =>
      let armPortHandles := Function.update armPortHandles i (some f)
      let (failure, context) :=
        createFileQueues r allFileQueues { FileContext.zero with armPortNumber := i }
      match failure with
      | some p => ⟨some p, some context, armPortHandles⟩
      | none =>
        let (failure, context) := initialiseLists r context
        ⟨failure, some context, armPortHandles⟩

/-! ## The files -/

/-- The file objects and the table of ports. -/
structure Files where
  opened : Nat → Bool
  context : Nat → Option FileContext
  armPortHandles : Nat → Option Nat
  /-- the contexts that an ioctl or a close has found -/
  found : List FileContext

inductive Action
  | openFile (f : Nat)
  | ioctl (f : Nat) (code : IoControlCode) (r : Outcomes)
  | closeFile (f : Nat)

namespace Files

variable (s : Files)

/-- A file without a context gets one. -/
def allocate (f : Nat) (r : Outcomes) : Files :=
  let allocation := vchiqAllocateFileObjContext r s.armPortHandles f
  { s with
    context := Function.update s.context f allocation.context
    armPortHandles := allocation.armPortHandles }

/-- `VchiqIoDeviceControl`, up to its use of the context. -/
def ioctl (f : Nat) (code : IoControlCode) (r : Outcomes) : Files :=
  match s.context f with
  | some context => { s with found := context :: s.found }
  | none => if code = .connect ∨ code = .createService then s.allocate f r else s

/-- `VchiqFileClose`, after which the file object is deleted -/
def closeFile (f : Nat) : Files :=
  match s.context f with
  | none => { s with opened := Function.update s.opened f false }
  | some context =>
    { opened := Function.update s.opened f false
      context := Function.update s.context f none
      armPortHandles := Function.update s.armPortHandles context.armPortNumber none
      found := context :: s.found }

def enabled : Action → Prop
  | .openFile f => s.opened f = false
  | .ioctl f _ _ | .closeFile f => s.opened f = true

instance : ∀ a : Action, Decidable (s.enabled a)
  | .openFile _ | .ioctl _ _ _ | .closeFile _ => inferInstanceAs (Decidable (_ = _))

def effect : Action → Files
  | .openFile f => { s with opened := Function.update s.opened f true }
  | .ioctl f code r => s.ioctl f code r
  | .closeFile f => s.closeFile f

/-- No file is open. -/
def start : Files := ⟨fun _ => false, fun _ => none, fun _ => none, []⟩

/-- Where the allocation that a step makes fails. -/
def failure : Action → Option FailurePoint
  | .ioctl f code r =>
    if s.context f = none ∧ (code = .connect ∨ code = .createService) then
      (vchiqAllocateFileObjContext r s.armPortHandles f).failure
    else none
  | _ => none

end Files

/-- The files, used in any order. -/
def fileMachine : Machine Files Action := .guarded (· = .start) Files.enabled Files.effect

/-- **The property**: what an ioctl or a close finds is set up, and a port is taken by a file whose
context is set up. -/
structure ContextSound (s : Files) : Prop where
  found : ∀ context ∈ s.found, context.Initialised
  armPort : ∀ port f, s.armPortHandles port = some f →
    ∃ context, s.context f = some context ∧ context.Initialised ∧ context.armPortNumber = port

/-- The condition: a step fails at these points only. -/
def FailsOnlyAt (points : FailurePoint → Prop) (s : Files) (a : Action) : Prop :=
  ∀ p, s.failure a = some p → points p

/-! ## What an allocation leaves behind -/

section Allocation

variable {r : Outcomes} {f : Nat} {armPortHandles : Nat → Option Nat}

/-- The loop over the queues fails at one of them, or creates them all. -/
theorem createFileQueues_spec (r : Outcomes) : ∀ (queues : List FileQueue) (context : FileContext),
    createFileQueues r queues context =
      (none, { context with fileQueue := context.fileQueue ++ queues }) ∧
      (∀ queue ∈ queues, r (.fileQueue queue) = true) ∨
    ∃ queue created, r (.fileQueue queue) = false ∧ created.length < queues.length ∧
      createFileQueues r queues context = (some (.fileQueue queue),
        { context with fileQueue := context.fileQueue ++ created }) := by
  intro queues
  induction queues with
  | nil =>
    intro context
    rw [createFileQueues, List.append_nil]
    exact .inl ⟨rfl, fun _ hmem => absurd hmem List.not_mem_nil⟩
  | cons queue queues ih =>
    intro context
    rw [createFileQueues]
    cases hr : r (.fileQueue queue) with
    | false =>
      refine .inr ⟨queue, [], hr, Nat.succ_pos _, ?_⟩
      rw [List.append_nil]
      rfl
    | true =>
      rw [if_pos rfl]
      rcases ih { context with fileQueue := context.fileQueue ++ [queue] } with
        ⟨heq, hall⟩ | ⟨queue', created, hr', hlength, heq⟩
      · refine .inl ⟨heq.trans ?_, fun queue' hmem => ?_⟩
        · rw [List.append_assoc]
          rfl
        · rcases List.mem_cons.1 hmem with rfl | hmem
          · exact hr
          · exact hall queue' hmem
      · refine .inr ⟨queue', queue :: created, hr', Nat.succ_lt_succ hlength, heq.trans ?_⟩
        rw [List.append_assoc]
        rfl

/-- A port that is found is free. -/
theorem findPort_some {i : Nat} (h : findPort armPortHandles = some i) :
    (armPortStart ≤ i ∧ i < maxArmPorts) ∧ armPortHandles i = none := by
  have hmem := List.mem_of_find?_eq_some h
  have hfree := List.find?_some h
  rw [List.mem_range'_1] at hmem
  refine ⟨⟨hmem.1, ?_⟩, Option.isNone_iff_eq_none.1 hfree⟩
  have hsum : armPortStart + (maxArmPorts - armPortStart) = maxArmPorts := rfl
  exact hsum ▸ hmem.2

/-- **How an allocation ends**: without a context, with one that is set up and has a port, or with
one that is not set up. -/
theorem allocate_spec (r : Outcomes) (armPortHandles : Nat → Option Nat) (f : Nat) :
    (r .objectContext = false ∧ vchiqAllocateFileObjContext r armPortHandles f =
      ⟨some .objectContext, none, armPortHandles⟩) ∨
    (∃ context, context.Initialised ∧ findPort armPortHandles = some context.armPortNumber ∧
      (∀ p, p ≠ .armPort → r p = true) ∧ vchiqAllocateFileObjContext r armPortHandles f =
        ⟨none, some context, Function.update armPortHandles context.armPortNumber (some f)⟩) ∨
    ∃ p context, p ≠ .objectContext ∧
      (findPort armPortHandles = none ∧ p = .armPort ∨ r p = false) ∧ ¬ context.Initialised ∧
      (vchiqAllocateFileObjContext r armPortHandles f).failure = some p ∧
      (vchiqAllocateFileObjContext r armPortHandles f).context = some context := by
  rw [vchiqAllocateFileObjContext]
  cases hobject : r .objectContext with
  | false => exact .inl ⟨rfl, rfl⟩
  | true =>
    rw [if_neg (by decide)]
    cases hport : findPort armPortHandles with
    | none =>
      exact .inr (.inr ⟨.armPort, .zero, by decide, .inl ⟨rfl, rfl⟩,
        fun h => absurd h.armPortNumber.1 (by decide), rfl, rfl⟩)
    | some i =>
      obtain ⟨hrange, -⟩ := findPort_some hport
      dsimp only
      -- the queues are made in their order, up to the first that fails
      rcases createFileQueues_spec r allFileQueues { FileContext.zero with armPortNumber := i } with
        ⟨heq, hqueues⟩ | ⟨queue, created, hr, hlength, heq⟩
      · rw [heq]
        dsimp only
        rw [initialiseLists]
        cases hmsg : r .pendingMsgLookAside with
        | false =>
          exact .inr (.inr ⟨.pendingMsgLookAside, _, by decide, .inr hmsg,
            fun h => Bool.false_ne_true h.pendingMsgLookAsideMemory, rfl, rfl⟩)
        | true =>
          cases hbulk : r .pendingBulkMsgLookAside with
          | false =>
            exact .inr (.inr ⟨.pendingBulkMsgLookAside, _, by decide, .inr hbulk,
              fun h => Bool.false_ne_true h.pendingBulkMsgLookAsideMemory, rfl, rfl⟩)
          | true =>
            cases hadapter : r .dmaAdapter with
            | false =>
              exact .inr (.inr ⟨.dmaAdapter, _, by decide, .inr hadapter,
                fun h => Bool.false_ne_true h.dmaAdapter, rfl, rfl⟩)
            | true =>
              refine .inr (.inl ⟨_, ⟨hrange, rfl, rfl, rfl, rfl, rfl⟩, rfl, fun p hp => ?_, rfl⟩)
              cases p with
              | objectContext => exact hobject
              | armPort => exact absurd rfl hp
              | fileQueue queue => exact hqueues queue (by cases queue <;> decide)
              | pendingMsgLookAside => exact hmsg
              | pendingBulkMsgLookAside => exact hbulk
              | dmaAdapter => exact hadapter
      · rw [heq]
        refine .inr (.inr ⟨.fileQueue queue, _, FailurePoint.noConfusion, .inr hr, fun h => ?_, rfl,
          rfl⟩)
        have hqueues : [] ++ created = allFileQueues := h.fileQueue
        rw [List.nil_append] at hqueues
        exact absurd (congrArg List.length hqueues) hlength.ne

/-- The port that is found is the first free one. -/
theorem findPort_first {i j : Nat} (h : findPort armPortHandles = some i) (hj : armPortStart ≤ j)
    (hlt : j < i) : armPortHandles j ≠ none := by
  have htaken := (List.find?_range'_eq_some.1 h).2.2 j hj hlt
  rintro heq
  rw [heq] at htaken
  cases htaken

theorem findPort_none {j : Nat} (h : findPort armPortHandles = none) (hj : armPortStart ≤ j)
    (hlt : j < maxArmPorts) : armPortHandles j ≠ none := by
  have hmem : j ∈ List.range' armPortStart (maxArmPorts - armPortStart) := by
    rw [List.mem_range'_1]
    exact ⟨hj, hlt⟩
  simpa using List.find?_eq_none.1 h j hmem

end Allocation

/-! ## Runs in which only the first step of an allocation fails -/

namespace Files

variable {s : Files}

/-- A context is set up, and has its port. -/
structure Inv (s : Files) : Prop where
  context : ∀ f context, s.context f = some context →
    context.Initialised ∧ s.armPortHandles context.armPortNumber = some f
  sound : ContextSound s

namespace Inv

theorem allocate (h : Inv s) {f : Nat} {code : IoControlCode} {r : Outcomes}
    (hnone : s.context f = none) (hcode : code = .connect ∨ code = .createService)
    (hok : FailsOnlyAt (· = .objectContext) s (.ioctl f code r)) : Inv (s.allocate f r) := by
  rw [Files.allocate]
  rcases allocate_spec r s.armPortHandles f with
    ⟨-, heq⟩ | ⟨context, hinit, hport, -, heq⟩ | ⟨p, context, hp, -, -, heq, -⟩
  · have hcontext : Function.update s.context f none = s.context := by
      rw [← hnone, Function.update_eq_self]
    rw [heq]
    dsimp only
    rw [hcontext]
    exact h
  · have hfree := (findPort_some hport).2
    rw [heq]
    constructor
    case context =>
      intro f' context' hcontext'
      have hupdate : Function.update s.context f (some context) f' = some context' := hcontext'
      by_cases hf : f' = f
      · subst hf
        rw [Function.update_self, Option.some_inj] at hupdate
        subst hupdate
        exact ⟨hinit, Function.update_self ..⟩
      · rw [Function.update_of_ne hf] at hupdate
        obtain ⟨hinit', htable⟩ := h.context f' context' hupdate
        refine ⟨hinit', (Function.update_of_ne (fun heq' => ?_) _ _).trans htable⟩
        rw [heq', hfree] at htable
        cases htable
    case sound =>
      refine ⟨h.sound.found, fun port f' htable => ?_⟩
      have hupdate : Function.update s.armPortHandles context.armPortNumber (some f) port =
        some f' := htable
      by_cases hport' : port = context.armPortNumber
      · subst hport'
        rw [Function.update_self, Option.some_inj] at hupdate
        subst hupdate
        exact ⟨context, Function.update_self .., hinit, rfl⟩
      · rw [Function.update_of_ne hport'] at hupdate
        obtain ⟨context', hcontext', hinit', hnumber⟩ := h.sound.armPort port f' hupdate
        refine ⟨context', (Function.update_of_ne (fun heq' => ?_) _ _).trans hcontext', hinit',
          hnumber⟩
        rw [heq', hnone] at hcontext'
        cases hcontext'
  · refine absurd (hok p ?_) hp
    rw [failure, if_pos ⟨hnone, hcode⟩]
    exact heq

theorem ioctl (h : Inv s) {f : Nat} {code : IoControlCode} {r : Outcomes}
    (hok : FailsOnlyAt (· = .objectContext) s (.ioctl f code r)) : Inv (s.ioctl f code r) := by
  rw [Files.ioctl]
  cases hcontext : s.context f with
  | some context =>
    refine ⟨h.context, fun context' hmem => ?_, h.sound.armPort⟩
    rcases List.mem_cons.1 hmem with rfl | hmem
    · exact (h.context f context' hcontext).1
    · exact h.sound.found context' hmem
  | none =>
    dsimp only
    split
    next hcode => exact h.allocate hcontext hcode hok
    · exact h

theorem closeFile (h : Inv s) (f : Nat) : Inv (s.closeFile f) := by
  rw [Files.closeFile]
  cases hcontext : s.context f with
  | none => exact ⟨h.context, h.sound.found, h.sound.armPort⟩
  | some context =>
    obtain ⟨hinit, htable⟩ := h.context f context hcontext
    constructor
    case context =>
      intro f' context' hcontext'
      have hf : f' ≠ f := by
        rintro rfl
        cases (Function.update_self ..).symm.trans hcontext'
      obtain ⟨hinit', htable'⟩ :=
        h.context f' context' ((Function.update_of_ne hf _ _).symm.trans hcontext')
      refine ⟨hinit', (Function.update_of_ne (fun heq => ?_) _ _).trans htable'⟩
      rw [heq, htable] at htable'
      exact hf (Option.some.inj htable').symm
    case sound =>
      refine ⟨fun context' hmem => ?_, fun port f' htable' => ?_⟩
      · rcases List.mem_cons.1 hmem with rfl | hmem
        · exact hinit
        · exact h.sound.found context' hmem
      · have hport : port ≠ context.armPortNumber := by
          rintro rfl
          cases (Function.update_self ..).symm.trans htable'
        obtain ⟨context', hcontext', hinit', hnumber⟩ :=
          h.sound.armPort port f' ((Function.update_of_ne hport _ _).symm.trans htable')
        refine ⟨context', (Function.update_of_ne (fun heq => ?_) _ _).trans hcontext', hinit',
          hnumber⟩
        rw [heq, hcontext] at hcontext'
        obtain rfl := Option.some.inj hcontext'
        exact hport hnumber.symm

theorem effect (h : Inv s) {a : Action} (hok : FailsOnlyAt (· = .objectContext) s a) :
    Inv (s.effect a) := by
  cases a with
  | openFile f => exact ⟨h.context, h.sound.found, h.sound.armPort⟩
  | ioctl f code r => exact h.ioctl hok
  | closeFile f => exact h.closeFile f

theorem start : Inv Files.start where
  context f context hcontext := by cases hcontext
  sound := ⟨fun _ hmem => absurd hmem List.not_mem_nil, fun port f htable => by cases htable⟩

end Inv

/-! ## A failure behind the first step -/

variable {points : FailurePoint → Prop}

/-- A step that can be taken, and fails at the given points only. -/
theorem reach_effect (h : fileMachine.Reach (FailsOnlyAt points) s) {a : Action}
    (hen : s.enabled a) (hok : FailsOnlyAt points s a) :
    fileMachine.Reach (FailsOnlyAt points) (s.effect a) :=
  .step h hok (Machine.guarded_step.2 ⟨hen, rfl⟩)

/-- A file that was not open is opened. -/
theorem reach_openFile (h : fileMachine.Reach (FailsOnlyAt points) s) {f : Nat}
    (hclosed : s.opened f = false) : fileMachine.Reach (FailsOnlyAt points)
      { s with opened := Function.update s.opened f true } :=
  reach_effect h (a := .openFile f) hclosed fun p hp => by cases hp

/-- An open file without a context gets one. -/
theorem reach_allocate (h : fileMachine.Reach (FailsOnlyAt points) s) {f : Nat} {r : Outcomes}
    (hopened : s.opened f = true) (hnone : s.context f = none)
    (hok : ∀ p, (vchiqAllocateFileObjContext r s.armPortHandles f).failure = some p → points p) :
    fileMachine.Reach (FailsOnlyAt points) (s.allocate f r) := by
  have hioctl : s.effect (.ioctl f .connect r) = s.allocate f r := by
    rw [effect, Files.ioctl, hnone]
    exact if_pos (.inl rfl)
  rw [← hioctl]
  refine reach_effect h hopened fun p hp => hok p ?_
  rw [failure, if_pos ⟨hnone, .inl rfl⟩] at hp
  exact hp

/-- The context that a failure leaves behind is found by the next ioctl. -/
theorem unsound_of_failure (h : fileMachine.Reach (FailsOnlyAt points) s) {f : Nat} {r : Outcomes}
    {p : FailurePoint} (hclosed : s.opened f = false) (hnone : s.context f = none)
    (hfails : (vchiqAllocateFileObjContext r s.armPortHandles f).failure = some p)
    (hp : p ≠ .objectContext) (hpoints : points p) :
    ∃ s', fileMachine.Reach (FailsOnlyAt points) s' ∧ ¬ ContextSound s' := by
  have hopen := reach_openFile h hclosed
  have hopened : Function.update s.opened f true f = true := Function.update_self ..
  have hallocate := reach_allocate hopen hopened hnone (r := r) fun p' hp' =>
    Option.some.inj (hfails.symm.trans hp') ▸ hpoints
  rcases allocate_spec r s.armPortHandles f with
    ⟨-, heq⟩ | ⟨_, -, -, -, heq⟩ | ⟨-, context, -, -, hnot, -, hcontext⟩
  · rw [heq] at hfails
    exact absurd (Option.some.inj hfails).symm hp
  · rw [heq] at hfails
    cases hfails
  · obtain ⟨t, ht⟩ : ∃ t, t = allocate { s with opened := Function.update s.opened f true } f r :=
      ⟨_, rfl⟩
    rw [← ht] at hallocate
    have hfound : t.context f = some context := by
      rw [ht]
      exact (Function.update_self ..).trans hcontext
    have hioctl : t.effect (.ioctl f .connect r) = { t with found := context :: t.found } := by
      rw [effect, Files.ioctl, hfound]
    have hagain := reach_effect hallocate (a := .ioctl f .connect r) (ht ▸ hopened)
      fun p' hp' => by
        rw [failure, if_neg (by simp [hfound])] at hp'
        cases hp'
    rw [hioctl] at hagain
    exact ⟨_, hagain, fun hsound => hnot (hsound.found context List.mem_cons_self)⟩

/-- All the calls succeed, but the one at `p`. -/
def allBut (p : FailurePoint) : Outcomes := fun p' => p' != p

/-- When a port is free, an allocation fails at the call that fails. -/
theorem failure_allBut {p : FailurePoint} (hobject : p ≠ .objectContext) (hport : p ≠ .armPort)
    {armPortHandles : Nat → Option Nat} (hfree : findPort armPortHandles ≠ none) (f : Nat) :
    (vchiqAllocateFileObjContext (allBut p) armPortHandles f).failure = some p := by
  rcases allocate_spec (allBut p) armPortHandles f with
    ⟨hr, -⟩ | ⟨-, -, -, hall, -⟩ | ⟨p', -, -, hp', -, hfails, -⟩
  · exact absurd (bne_eq_false_iff_eq.1 hr).symm hobject
  · exact absurd rfl (bne_iff_ne.1 (hall p hport))
  · rcases hp' with ⟨hnone, -⟩ | hr
    · exact absurd hnone hfree
    · rw [hfails, bne_eq_false_iff_eq.1 hr]

/-- The first `n` ports can be taken by `n` files. -/
theorem reach_taken (points : FailurePoint → Prop) (n : Nat) :
    ∃ s, fileMachine.Reach (FailsOnlyAt points) s ∧
      (∀ port, armPortStart ≤ port → port < armPortStart + n → port < maxArmPorts →
        s.armPortHandles port ≠ none) ∧
      ∀ f, n ≤ f → s.opened f = false ∧ s.context f = none := by
  induction n with
  | zero =>
    refine ⟨Files.start, .init rfl, fun port hle hlt => ?_, fun f _ => ⟨rfl, rfl⟩⟩
    exact absurd hlt (Nat.not_lt.2 hle)
  | succ n ih =>
    obtain ⟨s, hreach, htaken, hfresh⟩ := ih
    cases hport : findPort s.armPortHandles with
    | none =>
      exact ⟨s, hreach, fun port hle _ hlt => findPort_none hport hle hlt, fun f hf =>
        hfresh f (Nat.le_of_succ_le hf)⟩
    | some i =>
      obtain ⟨hclosed, hnone⟩ := hfresh n le_rfl
      rcases allocate_spec (fun _ => true) s.armPortHandles n with
        ⟨hr, -⟩ | ⟨context, -, hfound, -, heq⟩ | ⟨p, -, -, hp, -⟩
      · cases hr
      · have hallocate := reach_allocate (reach_openFile hreach hclosed) (Function.update_self ..)
          hnone (r := fun _ => true) fun p hp => by
            rw [heq] at hp
            cases hp
        refine ⟨_, hallocate, fun port hle hlt hmax => ?_, fun f hf => ?_⟩
        · rw [Files.allocate, heq]
          dsimp only
          by_cases hcontext : port = context.armPortNumber
          · subst hcontext
            rw [Function.update_self]
            exact Option.some_ne_none n
          · rw [Function.update_of_ne hcontext]
            by_cases hn : port < armPortStart + n
            · exact htaken port hle hn hmax
            · -- it is the next port, and was not free
              have hstart := (findPort_some hfound).1.1
              have hfree := (findPort_some hfound).2
              by_cases hbefore : context.armPortNumber < armPortStart + n
              · exact absurd hfree (htaken _ hstart hbefore (findPort_some hfound).1.2)
              · exact findPort_first hfound hle (by omega)
        · obtain ⟨hclosed', hnone'⟩ := hfresh f (Nat.le_of_succ_le hf)
          have hne : f ≠ n := Nat.ne_of_gt hf
          exact ⟨(Function.update_of_ne hne _ _).trans hclosed',
            (Function.update_of_ne hne _ _).trans hnone'⟩
      · rcases hp with ⟨hnone', -⟩ | hr
        · cases hport.symm.trans hnone'
        · cases hr

/-- Every failure but that of the first step has an unsound run. -/
theorem unsound_of_point {p : FailurePoint} (hp : p ≠ .objectContext) (hpoints : points p) :
    ∃ s, fileMachine.Reach (FailsOnlyAt points) s ∧ ¬ ContextSound s := by
  by_cases hport : p = .armPort
  · subst hport
    obtain ⟨s, hreach, htaken, hfresh⟩ := reach_taken points maxArmPorts
    obtain ⟨hclosed, hnone⟩ := hfresh maxArmPorts le_rfl
    have hfull : findPort s.armPortHandles = none := by
      refine List.find?_eq_none.2 fun port hmem => ?_
      obtain ⟨hle, hlt⟩ := List.mem_range'_1.1 hmem
      have hmax : armPortStart + (maxArmPorts - armPortStart) = maxArmPorts := rfl
      rw [hmax] at hlt
      have hne := htaken port hle (hlt.trans_le (Nat.le_add_left ..)) hlt
      rwa [Option.isNone_iff_eq_none]
    refine unsound_of_failure hreach hclosed hnone (r := fun _ => true) ?_ hp hpoints
    rw [vchiqAllocateFileObjContext, hfull]
    rfl
  · have hfree : findPort Files.start.armPortHandles ≠ none := fun hnone =>
      findPort_none hnone (j := 1) (by decide) (by decide) rfl
    exact unsound_of_failure (.init rfl) (f := 0) rfl rfl (failure_allBut hp hport hfree 0) hp
      hpoints

end Files

/-! ## The main result -/

/-- **Every run whose allocations fail at the given points only is sound exactly when there is no
point among them but the first.** -/
theorem contextSound_iff (points : FailurePoint → Prop) :
    (∀ s, fileMachine.Reach (FailsOnlyAt points) s → ContextSound s) ↔
      ∀ p, points p → p = .objectContext := by
  constructor
  · intro hsound p hp
    by_contra hne
    obtain ⟨s, hreach, hnot⟩ := Files.unsound_of_point hne hp
    exact hnot (hsound s hreach)
  · intro hpoints s h
    have hinv : Files.Inv s := by
      refine Machine.Reach.inv_guarded (fun s hs => ?_) (fun s a hinv hok _ => ?_) h
      · rw [hs]
        exact Files.Inv.start
      · exact hinv.effect fun p hp => hpoints p (hok p hp)
    exact hinv.sound

/-- `IoGetDmaAdapter` fails, and the next ioctl finds the context. -/
theorem found_without_adapter : ¬ ∀ s, fileMachine.Reachable s → ContextSound s := by
  intro h
  obtain ⟨s, hreach, hfound⟩ := fileMachine.reach_exec_any (s := Files.start)
    [.openFile 0, .ioctl 0 .connect (Files.allBut .dmaAdapter), .ioctl 0 .queueMsg fun _ => true]
    (p := fun s => s.found.any fun context => !context.dmaAdapter) rfl (by decide +kernel)
  obtain ⟨context, hmem, hadapter⟩ := List.any_eq_true.1 hfound
  rw [((h s hreach).found context hmem).dmaAdapter] at hadapter
  cases hadapter

end RpiDrivers.Vchiq.FileObj
