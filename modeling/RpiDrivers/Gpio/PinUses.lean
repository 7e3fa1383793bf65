import Mathlib.Tactic.SplitIfs
import RpiDrivers.Gpio.PinMode

/-!
# The uses of pins (`BcmGpio.cpp`)

The class extension opens and closes pins for I/O, for interrupts and for an alternate function,
each pin for each use at most once.

- `Request`, `run`: its requests, with their lists of pins.
- `PinInv`: what holds of a pin and its uses; `PinInv.after` is **what one request preserves**.
- `reach_sound`: in every run in which no pin whose initial function is output is closed with
  another pull than its default, and no alternate function is closed on a pin with another use, the
  shadows are right and closed pins are as they were.
- `pull_not_reverted`: a pull-down that outlives its client.
-/

namespace RpiDrivers.Gpio

open Lib

/-! ## Requests -/

/-- A request of the class extension. -/
inductive Request
  | enableInterrupt (bankId pinNumber : Nat) (pullConfiguration : PullConfiguration)
  | disableInterrupt (bankId pinNumber : Nat)
  | connectFunctionConfigPins (bankId : Nat) (pinNumberTable : List Nat) (functionNumber : Nat)
      (pullConfiguration : PullConfiguration)
  | disconnectFunctionConfigPins (bankId : Nat) (pinNumberTable : List Nat)
  | connectIoPins (bankId : Nat) (pinNumberTable : List Nat) (connectMode : ConnectMode)
      (pullConfiguration : PullConfiguration)
  | disconnectIoPins (bankId : Nat) (pinNumberTable : List Nat) (preserveConfiguration : Bool)

namespace Request

def bankId : Request → Nat
  | enableInterrupt b _ _ | disableInterrupt b _ | connectFunctionConfigPins b _ _ _
  | disconnectFunctionConfigPins b _ | connectIoPins b _ _ _ | disconnectIoPins b _ _ => b

def pinNumberTable : Request → List Nat
  | enableInterrupt _ n _ | disableInterrupt _ n => [n]
  | connectFunctionConfigPins _ t _ _ | disconnectFunctionConfigPins _ t
  | connectIoPins _ t _ _ | disconnectIoPins _ t _ => t

/-- The function that a mode asks for. -/
def modeFunction : ConnectMode → Option (BitVec 32)
  | .input => some bcmGpioFunctionInput
  | .output => some bcmGpioFunctionOutput
  | .other _ => none

/-- What is asked for each pin; `none` when the request is refused. -/
def onEachPin : Request → Option PinRequest
  | enableInterrupt _ _ c => some (.enableInterrupt c)
  | disableInterrupt _ _ => some .disableInterrupt
  | connectFunctionConfigPins _ _ f c =>
    match c with
    | .other _ => none
    | _ =>
      if f ∈ alternateFunctions then some (.connectFunction (BitVec.ofNat 32 f) c) else none
  | disconnectFunctionConfigPins _ _ => some .disconnectFunction
  | connectIoPins _ _ mode c => (modeFunction mode).map (.connectIo · c)
  | disconnectIoPins _ _ preserve => some (.disconnectIo preserve)

/-- The request names the pin of an absolute number. -/
def Names (r : Request) (q : Nat) : Prop :=
  q / bcmGpioPinsPerBank = r.bankId ∧ q % bcmGpioPinsPerBank ∈ r.pinNumberTable

instance (r : Request) (q : Nat) : Decidable (r.Names q) := inferInstanceAs (Decidable (_ ∧ _))

/-- The pins exist, and no pin is named twice. -/
def WellFormed (r : Request) : Prop :=
  r.pinNumberTable.Nodup ∧ ∀ n ∈ r.pinNumberTable,
    n < bcmGpioPinsPerBank ∧ absolutePinNumber r.bankId n < bcmGpioPinCount

instance (r : Request) : Decidable r.WellFormed := inferInstanceAs (Decidable (_ ∧ _))

end Request

namespace BcmGpio

/-- The function that serves the request. -/
def run (s : BcmGpio) : Request → Status × BcmGpio
  | .enableInterrupt b n c => (.success, s.enableInterrupt b n c)
  | .disableInterrupt b n => (.success, s.disableInterrupt b n)
  | .connectFunctionConfigPins b t f c => s.connectFunctionConfigPins b t f c
  | .disconnectFunctionConfigPins b t => (.success, s.disconnectFunctionConfigPins b t)
  | .connectIoPins b t mode c => s.connectIoPins b t mode c
  | .disconnectIoPins b t preserve => (.success, s.disconnectIoPins b t preserve)

variable {s : BcmGpio} {r : Request}

/-- A request that is served is served on its pins in turn. -/
theorem run_of_some {p : PinRequest} (h : r.onEachPin = some p) :
    s.run r = (.success, r.pinNumberTable.foldl (p.onDriver r.bankId) s) := by
  cases r with
  | enableInterrupt | disableInterrupt | disconnectFunctionConfigPins | disconnectIoPins =>
    obtain rfl := Option.some.inj h
    rfl
  | connectFunctionConfigPins b t f c =>
    unfold Request.onEachPin at h
    simp only [run, connectFunctionConfigPins]
    cases c with
    | other => cases h
    | default | pullUp | pullDown | none =>
      dsimp only at h
      split at h
      next hf =>
        obtain rfl := Option.some.inj h
        rw [if_neg (not_not.2 hf)]
        rfl
      next => cases h
  | connectIoPins b t mode c =>
    cases mode with
    | input | output =>
      obtain rfl := Option.some.inj h
      rfl
    | other => cases h

/-- A request that is refused changes nothing. -/
theorem run_of_none (h : r.onEachPin = none) :
    (s.run r).1 ≠ .success ∧ (s.run r).2 = s := by
  cases r with
  | enableInterrupt | disableInterrupt | disconnectFunctionConfigPins | disconnectIoPins =>
    cases h
  | connectFunctionConfigPins b t f c =>
    unfold Request.onEachPin at h
    simp only [run, connectFunctionConfigPins]
    by_cases hf : f ∈ alternateFunctions
    · rw [if_neg (not_not.2 hf)]
      cases c with
      | other => exact ⟨nofun, rfl⟩
      | default | pullUp | pullDown | none =>
        dsimp only at h
        rw [if_pos hf] at h
        cases h
    · rw [if_pos hf]
      exact ⟨nofun, rfl⟩
  | connectIoPins b t mode c =>
    cases mode with
    | input | output => cases h
    | other => exact ⟨nofun, rfl⟩

end BcmGpio

theorem Request.onEachPin_wellFormed {r : Request} {p : PinRequest} (h : r.onEachPin = some p) :
    p.WellFormed := by
  cases r with
  | enableInterrupt | disableInterrupt | disconnectFunctionConfigPins | disconnectIoPins =>
    obtain rfl := Option.some.inj h
    trivial
  | connectFunctionConfigPins b t f c =>
    have hall : ∀ f ∈ alternateFunctions,
        BitVec.ofNat 32 f &&& fieldMask 32 3 = BitVec.ofNat 32 f := by decide
    unfold onEachPin at h
    cases c with
    | other => cases h
    | default | pullUp | pullDown | none =>
      dsimp only at h
      split at h
      next hf =>
        obtain rfl := Option.some.inj h
        exact hall f hf
      next => cases h
  | connectIoPins b t mode c =>
    cases mode with
    | input =>
      obtain rfl := Option.some.inj h
      exact (by decide : bcmGpioFunctionInput &&& fieldMask 32 3 = bcmGpioFunctionInput)
    | output =>
      obtain rfl := Option.some.inj h
      exact (by decide : bcmGpioFunctionOutput &&& fieldMask 32 3 = bcmGpioFunctionOutput)
    | other => cases h

namespace BcmGpio

variable {s : BcmGpio}

/-- Rounds on pins that are not named leave the pin, one round changes it. -/
theorem pin_foldl_onDriver {p : PinRequest} (hp : p.WellFormed) (bankId q : Nat) :
    ∀ (t : List Nat) (s : BcmGpio), t.Nodup → (∀ n ∈ t, n < bcmGpioPinsPerBank) →
      (t.foldl (p.onDriver bankId) s).pin q =
        if q / bcmGpioPinsPerBank = bankId ∧ q % bcmGpioPinsPerBank ∈ t then p.onPin (s.pin q)
        else s.pin q
  | [], s, _, _ => by simp
  | n :: t, s, hnodup, hlt => by
    obtain ⟨hn, hnodup⟩ := List.nodup_cons.1 hnodup
    have hpin : n < bcmGpioPinsPerBank := hlt n List.mem_cons_self
    rw [List.foldl_cons, pin_foldl_onDriver hp bankId q t _ hnodup
      fun m hm => hlt m (List.mem_cons_of_mem n hm), pin_onDriver hpin hp]
    by_cases hq : q = absolutePinNumber bankId n
    · obtain ⟨hdiv, hmod⟩ := (eq_absolutePinNumber_iff hpin).1 hq
      rw [if_pos hq, if_neg fun h => hn (hmod ▸ h.2), if_pos ⟨hdiv, hmod ▸ List.mem_cons_self⟩]
    · have hne := (eq_absolutePinNumber_iff hpin).not.1 hq
      rw [if_neg hq]
      refine if_congr (and_congr_right fun hdiv => ?_) rfl rfl
      rw [List.mem_cons, or_iff_right fun hmod => hne ⟨hdiv, hmod⟩]

/-- **What a request does to a pin.** -/
theorem pin_run {r : Request} (hr : r.WellFormed) {p : PinRequest} (h : r.onEachPin = some p)
    (q : Nat) : (s.run r).2.pin q = if r.Names q then p.onPin (s.pin q) else s.pin q := by
  rw [run_of_some h]
  exact pin_foldl_onDriver (Request.onEachPin_wellFormed h) r.bankId q r.pinNumberTable s hr.1
    fun n hn => (hr.2 n hn).1

end BcmGpio

/-! ## Uses -/

/-- What a pin is open for, and whether it was last closed with `PreserveConfiguration`. -/
structure Uses where
  io : Bool
  interrupt : Bool
  function : Bool
  preserved : Bool
  deriving DecidableEq

namespace Uses

def none : Uses := ⟨false, false, false, false⟩

variable (u : Uses)

def IsOpen : Prop := u.io ∨ u.interrupt ∨ u.function

instance : Decidable u.IsOpen := inferInstanceAs (Decidable (_ ∨ _))

/-- Opened at most once for each use, and closed only when open for it. -/
def Allows : PinRequest → Prop
  | .enableInterrupt _ => u.interrupt = false
  | .disableInterrupt => u.interrupt = true
  | .connectFunction _ _ => u.function = false
  | .disconnectFunction => u.function = true
  | .connectIo _ _ => u.io = false
  | .disconnectIo _ => u.io = true

instance (r : PinRequest) : Decidable (u.Allows r) := by
  cases r <;> exact inferInstanceAs (Decidable (_ = _))

def after : PinRequest → Uses
  | .enableInterrupt _ => { u with interrupt := true }
  | .disableInterrupt => { u with interrupt := false, preserved := false }
  | .connectFunction _ _ => { u with function := true }
  | .disconnectFunction => { u with function := false, preserved := false }
  | .connectIo _ _ => { u with io := true }
  | .disconnectIo preserve => { u with io := false, preserved := preserve }

end Uses

/-- A request that closes pins. -/
def PinRequest.closes : PinRequest → Bool
  | .disableInterrupt | .disconnectFunction | .disconnectIo _ => true
  | .enableInterrupt _ | .connectFunction _ _ | .connectIo _ _ => false

/-- `revertPinToDefault` restores the pull as well. -/
def Pin.Restores (p : Pin) : Prop :=
  p.initialFunction ≠ bcmGpioFunctionOutput ∨ p.pull = p.defaultPull

instance (p : Pin) : Decidable p.Restores := inferInstanceAs (Decidable (_ ∨ _))

/-- **The condition, for a pin**: the close of its last use restores the pull, and an alternate
function is not closed while it has another use. -/
def PinOk (p : Pin) (u : Uses) : PinRequest → Prop
  | .disableInterrupt => u.io ∨ u.function ∨ p.Restores
  | .disconnectIo preserve => preserve ∨ u.interrupt ∨ u.function ∨ p.Restores
  | .disconnectFunction => u.io = false ∧ u.interrupt = false ∧ p.Restores
  | .enableInterrupt _ | .connectFunction _ _ | .connectIo _ _ => True

instance (p : Pin) (u : Uses) (r : PinRequest) : Decidable (PinOk p u r) := by
  cases r
  case disableInterrupt | disconnectIo => exact inferInstanceAs (Decidable (_ ∨ _))
  case disconnectFunction => exact inferInstanceAs (Decidable (_ ∧ _))
  all_goals exact inferInstanceAs (Decidable True)

/-- What holds of a pin and its uses. -/
structure PinInv (p : Pin) (u : Uses) : Prop where
  openIo_eq : p.openIo = u.io
  openInterrupt_eq : p.openInterrupt = u.interrupt
  clockedPull_eq : p.clockedPull = p.pull
  closed_eq : ¬ u.IsOpen → u.preserved = false →
    p.function = p.initialFunction ∧ p.pull = p.defaultPull

/-! ### Functions and pulls of a pin -/

namespace Pin

variable (p : Pin) (f : BitVec 32) (c : PullConfiguration)

/-- What a pin keeps when its drive mode is set, and that its pull is clocked. -/
theorem setDriveMode_frame :
    (p.setDriveMode f c).function = f ∧
    (p.setDriveMode f c).initialFunction = p.initialFunction ∧
    (p.setDriveMode f c).defaultPull = p.defaultPull ∧
    (p.setDriveMode f c).openIo = p.openIo ∧
    (p.setDriveMode f c).openInterrupt = p.openInterrupt := by
  unfold setDriveMode updatePullMode
  split_ifs <;> exact ⟨rfl, rfl, rfl, rfl, rfl⟩

@[simp] theorem setDriveMode_function : (p.setDriveMode f c).function = f :=
  (p.setDriveMode_frame f c).1

@[simp] theorem setDriveMode_initialFunction :
    (p.setDriveMode f c).initialFunction = p.initialFunction :=
  (p.setDriveMode_frame f c).2.1

@[simp] theorem setDriveMode_defaultPull : (p.setDriveMode f c).defaultPull = p.defaultPull :=
  (p.setDriveMode_frame f c).2.2.1

@[simp] theorem setDriveMode_openIo : (p.setDriveMode f c).openIo = p.openIo :=
  (p.setDriveMode_frame f c).2.2.2.1

@[simp] theorem setDriveMode_openInterrupt :
    (p.setDriveMode f c).openInterrupt = p.openInterrupt :=
  (p.setDriveMode_frame f c).2.2.2.2

variable {p f c}

/-- **A pull is noted as it is clocked.** -/
theorem setDriveMode_clockedPull (h : p.clockedPull = p.pull) :
    (p.setDriveMode f c).clockedPull = (p.setDriveMode f c).pull := by
  unfold setDriveMode updatePullMode
  split_ifs
  · exact h
  · exact h
  · rfl

/-- The masks of open pins have no part in it. -/
theorem revertToDefault_openIo (io : Bool) :
    { p.revertToDefault with openIo := io } = { p with openIo := io }.revertToDefault := by
  unfold revertToDefault setDriveMode updatePullMode
  split_ifs <;> rfl

theorem revertToDefault_openInterrupt (interrupt : Bool) :
    { p.revertToDefault with openInterrupt := interrupt } =
      { p with openInterrupt := interrupt }.revertToDefault := by
  unfold revertToDefault setDriveMode updatePullMode
  split_ifs <;> rfl

/-- The pull is restored when the initial function is not output. -/
theorem revertToDefault_pull (h : p.Restores) : p.revertToDefault.pull = p.defaultPull := by
  unfold revertToDefault setDriveMode updatePullMode
  split_ifs with hout hsame
  · exact h.resolve_left (not_not.2 hout)
  · exact hsame.symm
  · rfl

end Pin

/-! ### One request on a pin -/

section PinStep

variable {p : Pin} {u : Uses} {r : PinRequest}

/-- Setting the drive mode of a pin that stays open keeps its invariant. -/
theorem PinInv.setDriveMode (h : PinInv p u) (hopen : u.IsOpen) (f : BitVec 32)
    (c : PullConfiguration) : PinInv (p.setDriveMode f c) u where
  openIo_eq := (p.setDriveMode_openIo f c).trans h.openIo_eq
  openInterrupt_eq := (p.setDriveMode_openInterrupt f c).trans h.openInterrupt_eq
  clockedPull_eq := Pin.setDriveMode_clockedPull h.clockedPull_eq
  closed_eq hclosed := absurd hopen hclosed

/-- A pin that is reverted with its pull has what a closed pin is to have. -/
theorem PinInv.revertToDefault (hio : p.openIo = u.io) (hinterrupt : p.openInterrupt = u.interrupt)
    (hclocked : p.clockedPull = p.pull) (hrestores : ¬ u.IsOpen → p.Restores) :
    PinInv p.revertToDefault u where
  openIo_eq := (p.setDriveMode_openIo _ _).trans hio
  openInterrupt_eq := (p.setDriveMode_openInterrupt _ _).trans hinterrupt
  clockedPull_eq := Pin.setDriveMode_clockedPull hclocked
  closed_eq hclosed _ :=
    have hdefault : p.revertToDefault.defaultPull = p.defaultPull := p.setDriveMode_defaultPull _ _
    ⟨(p.setDriveMode_function _ _).trans (p.setDriveMode_initialFunction _ _).symm,
      (Pin.revertToDefault_pull (hrestores hclosed)).trans hdefault.symm⟩

/-- **A request keeps the invariant of its pin** when it meets the condition. -/
theorem PinInv.after (h : PinInv p u) (hok : PinOk p u r) : PinInv (r.onPin p) (u.after r) := by
  obtain ⟨hio, hinterrupt, hclocked, hclosed⟩ := h
  cases r with
  | enableInterrupt c =>
    have hopen : (u.after (.enableInterrupt c)).IsOpen := .inr (.inl rfl)
    have hset : PinInv { p with openInterrupt := true } (u.after (.enableInterrupt c)) :=
      ⟨hio, rfl, hclocked, fun hnot => absurd hopen hnot⟩
    rw [PinRequest.onPin]
    dsimp only
    split
    · exact hset
    · exact hset.setDriveMode hopen _ c
  | connectFunction f c =>
    have hopen : (u.after (.connectFunction f c)).IsOpen := .inr (.inr rfl)
    have hset : PinInv p (u.after (.connectFunction f c)) :=
      ⟨hio, hinterrupt, hclocked, fun hnot => absurd hopen hnot⟩
    exact hset.setDriveMode hopen f c
  | connectIo f c =>
    have hopen : (u.after (.connectIo f c)).IsOpen := .inl rfl
    have hset : PinInv { p with openIo := true } (u.after (.connectIo f c)) :=
      ⟨rfl, hinterrupt, hclocked, fun hnot => absurd hopen hnot⟩
    exact hset.setDriveMode hopen f c
  | disableInterrupt =>
    rw [PinRequest.onPin]
    split
    next hyes =>
      exact ⟨hio, rfl, hclocked, fun hnot => absurd (.inl (hio.symm.trans hyes)) hnot⟩
    next hno =>
      have hnotIo : ¬ u.io = true := hio ▸ hno
      rw [Pin.revertToDefault_openInterrupt]
      refine PinInv.revertToDefault (p := { p with openInterrupt := false }) hio rfl hclocked ?_
      intro hnot
      exact (hok.resolve_left hnotIo).resolve_left fun hfunction => hnot (.inr (.inr hfunction))
  | disconnectIo preserve =>
    rw [PinRequest.onPin]
    split
    next hkept =>
      refine ⟨rfl, hinterrupt, hclocked, fun hnot hpreserved => ?_⟩
      have hyes : u.interrupt = true := by
        have hpreserved : preserve = false := hpreserved
        rw [hpreserved, Bool.false_or, hinterrupt] at hkept
        exact hkept
      exact absurd (.inr (.inl hyes)) hnot
    next hreverted =>
      rw [Bool.or_eq_true, not_or, hinterrupt] at hreverted
      rw [Pin.revertToDefault_openIo]
      refine PinInv.revertToDefault (p := { p with openIo := false }) rfl hinterrupt hclocked ?_
      intro hnot
      exact ((hok.resolve_left hreverted.1).resolve_left hreverted.2).resolve_left
        fun hfunction => hnot (.inr (.inr hfunction))
  | disconnectFunction => exact .revertToDefault hio hinterrupt hclocked fun _ => hok.2.2

/-- **A pin that stays open is not reverted** when a use of it is closed. -/
theorem PinInv.kept (h : PinInv p u) (hcloses : r.closes = true) (hok : PinOk p u r)
    (hopen : (u.after r).io ∨ (u.after r).interrupt) :
    (r.onPin p).function = p.function ∧ (r.onPin p).pull = p.pull := by
  cases r with
  | disableInterrupt =>
    have hio : p.openIo = true := h.openIo_eq.trans (hopen.resolve_right Bool.noConfusion)
    rw [PinRequest.onPin, if_pos hio]
    exact ⟨rfl, rfl⟩
  | disconnectIo preserve =>
    have hinterrupt : p.openInterrupt = true :=
      h.openInterrupt_eq.trans (hopen.resolve_left Bool.noConfusion)
    rw [PinRequest.onPin, if_pos (by simp [hinterrupt])]
    exact ⟨rfl, rfl⟩
  | disconnectFunction =>
    rcases hopen with hio | hinterrupt
    · exact absurd hio (by simp [Uses.after, hok.1])
    · exact absurd hinterrupt (by simp [Uses.after, hok.2.1])
  | enableInterrupt | connectFunction | connectIo => cases hcloses

end PinStep

/-! ## The shadow of the function select registers -/

/-- The registers are as their shadow has them, and the bits that are of no pin are as they were
read. -/
structure BcmGpio.Shadows (registers : Nat → BitVec 32) (s : BcmGpio) : Prop where
  hwGpfsel_eq : s.hwGpfsel = s.gpfsel
  initialGpfsel_eq : s.initialGpfsel = registers
  defaultPullConfig_eq : s.defaultPullConfig = datasheetPulls
  spare_eq : ∀ word k, 30 ≤ k → (s.gpfsel word).getLsbD k = (registers word).getLsbD k

namespace BcmGpio.Shadows

variable {registers : Nat → BitVec 32} {s : BcmGpio}

theorem updatePullMode (h : s.Shadows registers) (bankId pinNumber : Nat) (m : BitVec 32) :
    (s.updatePullMode bankId pinNumber m).Shadows registers := by
  unfold BcmGpio.updatePullMode writeGppudclk
  dsimp only
  split
  · exact h
  · exact ⟨h.hwGpfsel_eq, h.initialGpfsel_eq, h.defaultPullConfig_eq, h.spare_eq⟩

/-- The word of the pin is written to its register. -/
theorem select (h : s.Shadows registers) (pin : Nat) (f : BitVec 32) :
    Shadows registers { s with
      gpfsel := fieldSet 3 s.gpfsel pin f
      hwGpfsel := Function.update s.hwGpfsel (fieldWord 32 3 pin)
        (fieldSet 3 s.gpfsel pin f (fieldWord 32 3 pin)) } where
  hwGpfsel_eq := by
    rw [h.hwGpfsel_eq]
    exact update_fieldSet s.gpfsel pin f
  initialGpfsel_eq := h.initialGpfsel_eq
  defaultPullConfig_eq := h.defaultPullConfig_eq
  spare_eq word k hk := by
    rw [← h.spare_eq word k hk]
    exact getLsbD_fieldSet_spare (by decide) (by decide) s.gpfsel pin f word hk

theorem setDriveMode (h : s.Shadows registers) (bankId pinNumber : Nat) (f : BitVec 32)
    (c : PullConfiguration) : (s.setDriveMode bankId pinNumber f c).Shadows registers := by
  apply select
  split
  · exact h
  · exact h.updatePullMode _ _ _

/-- A request on a pin keeps them. -/
theorem onDriver (h : s.Shadows registers) (bankId : Nat) (r : PinRequest) (pinNumber : Nat) :
    (r.onDriver bankId s pinNumber).Shadows registers := by
  have masks {t : BcmGpio} (ht : t.Shadows registers) (io interrupt : Nat → BitVec 32) :
      Shadows registers { t with openIoPins := io, openInterruptPins := interrupt } :=
    ⟨ht.hwGpfsel_eq, ht.initialGpfsel_eq, ht.defaultPullConfig_eq, ht.spare_eq⟩
  cases r with
  | enableInterrupt c =>
    show (BcmGpio.enableInterrupt _ _ _ _).Shadows registers
    unfold BcmGpio.enableInterrupt
    dsimp only
    split
    · exact masks h _ _
    · exact (masks h _ _).setDriveMode _ _ _ _
  | disableInterrupt =>
    apply masks
    split
    · exact h
    · exact h.setDriveMode _ _ _ _
  | connectFunction f c => exact h.setDriveMode _ _ _ _
  | disconnectFunction => exact h.setDriveMode _ _ _ _
  | connectIo f c => exact (masks h _ _).setDriveMode _ _ _ _
  | disconnectIo preserve =>
    apply masks
    split
    · exact h.setDriveMode _ _ _ _
    · exact h

/-- **And so does a request of the class extension.** -/
theorem run (h : s.Shadows registers) (r : Request) : (s.run r).2.Shadows registers := by
  cases hr : r.onEachPin with
  | none => rwa [(run_of_none hr).2]
  | some p =>
    rw [run_of_some hr]
    show (List.foldl _ s r.pinNumberTable).Shadows registers
    induction r.pinNumberTable generalizing s with
    | nil => exact h
    | cons n t ih => exact ih (h.onDriver r.bankId p n)

end BcmGpio.Shadows

/-! ## Runs -/

/-- The driver, and what the class extension has open. -/
structure State where
  gpio : BcmGpio
  uses : Nat → Uses

namespace State

/-- After `StartController`. -/
def start (registers : Nat → BitVec 32) : State := ⟨.start registers, fun _ => .none⟩

/-- Requests with pins that exist, which are opened and closed as they may be. -/
def Enabled (s : State) (r : Request) : Prop :=
  r.WellFormed ∧ ∀ n ∈ r.pinNumberTable, ∀ p ∈ r.onEachPin,
    (s.uses (absolutePinNumber r.bankId n)).Allows p

instance (s : State) (r : Request) : Decidable (s.Enabled r) := inferInstanceAs (Decidable (_ ∧ _))

/-- The request is served, and what is open noted when it succeeds. -/
def effect (s : State) (r : Request) : State where
  gpio := (s.gpio.run r).2
  uses :=
    match r.onEachPin, (s.gpio.run r).1 with
    | some p, .success => fun q => if r.Names q then (s.uses q).after p else s.uses q
    | _, _ => s.uses

/-- **The condition** of a request. -/
def Ok (s : State) (r : Request) : Prop :=
  ∀ n ∈ r.pinNumberTable, ∀ p ∈ r.onEachPin,
    PinOk (s.gpio.pin (absolutePinNumber r.bankId n)) (s.uses (absolutePinNumber r.bankId n)) p

instance (s : State) (r : Request) : Decidable (s.Ok r) :=
  inferInstanceAs (Decidable (∀ n ∈ r.pinNumberTable, _))

end State

/-- The driver under the requests of the class extension. -/
def machine (registers : Nat → BitVec 32) : Machine State Request :=
  .guarded (· = .start registers) State.Enabled State.effect

namespace State

variable {registers : Nat → BitVec 32} {s : State} {r : Request}

/-- **The property of a state**: the shadows are as the hardware is, the function select registers
differ from what was read only in fields of pins that are open or were closed with
`PreserveConfiguration`, and the other pins have their initial function and their default pull. -/
structure Sound (registers : Nat → BitVec 32) (s : State) : Prop where
  hwGpfsel_eq : s.gpio.hwGpfsel = s.gpio.gpfsel
  gpfsel_of_ne : ∀ word k, (s.gpio.gpfsel word).getLsbD k ≠ (registers word).getLsbD k →
    ∃ q, fieldWord 32 3 q = word ∧ fieldPos 32 3 q ≤ k ∧ k < fieldPos 32 3 q + 3 ∧
      ((s.uses q).IsOpen ∨ (s.uses q).preserved = true)
  clockedPull_eq : ∀ q, (s.gpio.pin q).clockedPull = (s.gpio.pin q).pull
  closed_eq : ∀ q, ¬ (s.uses q).IsOpen → (s.uses q).preserved = false →
    (s.gpio.pin q).function = fieldGet 3 registers q ∧
      (s.gpio.pin q).pull = fieldGet 2 datasheetPulls q

/-- **The property of a close**: a pin that is still open for I/O or for interrupts keeps its
function and its pull. -/
def KeepsOpen (s : State) (r : Request) : Prop :=
  ∀ p ∈ r.onEachPin, p.closes = true → ∀ q,
    ((s.effect r).uses q).io ∨ ((s.effect r).uses q).interrupt →
      ((s.effect r).gpio.pin q).function = (s.gpio.pin q).function ∧
      ((s.effect r).gpio.pin q).pull = (s.gpio.pin q).pull

/-- What holds in every state of a run. -/
structure Inv (registers : Nat → BitVec 32) (s : State) : Prop where
  shadows : s.gpio.Shadows registers
  pins : ∀ q, PinInv (s.gpio.pin q) (s.uses q)

theorem inv_start (registers : Nat → BitVec 32) : (start registers).Inv registers where
  shadows := ⟨rfl, rfl, rfl, fun _ _ _ => rfl⟩
  pins _ := ⟨hasBit_zero _, hasBit_zero _, rfl, fun _ _ => ⟨rfl, rfl⟩⟩

theorem Inv.sound (h : s.Inv registers) : s.Sound registers := by
  have hclosed : ∀ q, ¬ (s.uses q).IsOpen → (s.uses q).preserved = false →
      (s.gpio.pin q).function = fieldGet 3 registers q ∧
        (s.gpio.pin q).pull = fieldGet 2 datasheetPulls q := by
    intro q hnot hpreserved
    rw [← h.shadows.initialGpfsel_eq, ← h.shadows.defaultPullConfig_eq]
    exact (h.pins q).closed_eq hnot hpreserved
  refine ⟨h.shadows.hwGpfsel_eq, fun word k hne => ?_, fun q => (h.pins q).clockedPull_eq, hclosed⟩
  have hk : k < 32 / 3 * 3 := Nat.lt_of_not_le fun hge => hne (h.shadows.spare_eq word k hge)
  obtain ⟨q, j, hword, hj, hpos⟩ := exists_field (w := 32) (b := 3) (by decide) word hk
  refine ⟨q, hword, by omega, by omega, ?_⟩
  by_contra hnone
  rw [not_or, Bool.not_eq_true] at hnone
  have hfield := (hclosed q hnone.1 hnone.2).1
  apply hne
  rw [← hword, hpos]
  exact getLsbD_of_fieldGet_eq hfield hj (by decide)

/-- What a request that is served does to a pin and its uses. -/
theorem effect_of_some (hr : r.WellFormed) {p : PinRequest} (hp : r.onEachPin = some p) (q : Nat) :
    (s.effect r).gpio.pin q = (if r.Names q then p.onPin (s.gpio.pin q) else s.gpio.pin q) ∧
      (s.effect r).uses q = if r.Names q then (s.uses q).after p else s.uses q := by
  refine ⟨BcmGpio.pin_run hr hp q, ?_⟩
  rw [effect, BcmGpio.run_of_some hp, hp]

theorem effect_of_none (h : r.onEachPin = none) : s.effect r = s := by
  rw [effect, (BcmGpio.run_of_none h).2, h]

/-- The condition is about each pin that is named. -/
theorem Ok.pin (h : s.Ok r) {p : PinRequest} (hp : r.onEachPin = some p) {q : Nat}
    (hq : r.Names q) : PinOk (s.gpio.pin q) (s.uses q) p := by
  have hmod : q % bcmGpioPinsPerBank < bcmGpioPinsPerBank := Nat.mod_lt _ (by decide)
  have heq := (BcmGpio.eq_absolutePinNumber_iff (q := q) hmod).2 ⟨rfl, rfl⟩
  have hok := h _ hq.2 p hp
  rwa [← hq.1, ← heq] at hok

/-- **The step lemma.** -/
theorem Inv.effect (h : s.Inv registers) (hen : s.Enabled r) (hok : s.Ok r) :
    (s.effect r).Inv registers := by
  refine ⟨h.shadows.run r, fun q => ?_⟩
  cases hp : r.onEachPin with
  | none =>
    rw [effect_of_none hp]
    exact h.pins q
  | some p =>
    obtain ⟨hpin, huses⟩ := effect_of_some (s := s) hen.1 hp q
    rw [hpin, huses]
    split
    next hq => exact (h.pins q).after (hok.pin hp hq)
    next => exact h.pins q

theorem Inv.keepsOpen (h : s.Inv registers) (hen : s.Enabled r) (hok : s.Ok r) :
    s.KeepsOpen r := by
  intro p hp hcloses q hopen
  obtain ⟨hpin, huses⟩ := effect_of_some (s := s) hen.1 hp q
  rw [huses] at hopen
  rw [hpin]
  split
  next hq =>
    rw [if_pos hq] at hopen
    exact (h.pins q).kept hcloses (hok.pin hp hq) hopen
  next => exact ⟨rfl, rfl⟩

end State

/-- **Every run whose requests meet the condition is sound**, in its states and at each close. -/
theorem reach_sound {registers : Nat → BitVec 32} {s : State}
    (h : (machine registers).Reach State.Ok s) :
    s.Sound registers ∧ ∀ r, s.Enabled r → s.Ok r → s.KeepsOpen r := by
  have hinv : s.Inv registers :=
    h.inv_guarded (fun _ hs => hs ▸ State.inv_start registers)
      fun _ _ hinv hok hen => hinv.effect hen hok
  exact ⟨hinv.sound, fun _ hen hok => hinv.keepsOpen hen hok⟩

/-- A pin that is open for both uses, and closed for I/O first. -/
theorem reach_sound_both : ∃ s : State, (machine fun _ => 0).Reach State.Ok s ∧
    (s.Sound (fun _ => 0) ∧ ∀ r, s.Enabled r → s.Ok r → s.KeepsOpen r) ∧
      (s.gpio.pin 36).function = bcmGpioFunctionInput := by
  obtain ⟨s, hreach, hs⟩ := Machine.reach_execOk_any (machine fun _ => 0) State.Ok
    [.connectIoPins 1 [4, 5] .input .pullUp, .enableInterrupt 1 4 .default,
      .disconnectIoPins 1 [5, 4] false, .disableInterrupt 1 4]
    (s := .start fun _ => 0)
    (p := fun s => decide ((s.gpio.pin 36).function = bcmGpioFunctionInput)) rfl (by decide +kernel)
  exact ⟨s, hreach, reach_sound hreach, of_decide_eq_true hs⟩

/-- **The pull-down of an input outlives it** on a pin whose initial function is output. -/
theorem pull_not_reverted : ¬ ∀ s : State, (machine fun _ => 1).Reachable s →
    s.Sound fun _ => 1 := by
  intro h
  obtain ⟨s, hreach, hs⟩ := Machine.reach_exec_any (machine fun _ => 1)
    [.connectIoPins 0 [0] .input .pullDown, .disconnectIoPins 0 [0] false]
    (s := .start fun _ => 1)
    (p := fun s => decide (s.uses 0 = .none ∧ (s.gpio.pin 0).pull = bcmGpioPullDown))
    rfl (by decide +kernel)
  obtain ⟨huses, hpull⟩ := of_decide_eq_true hs
  have hclosed := ((h s hreach).closed_eq 0 (by rw [huses]; decide) (by rw [huses]; rfl)).2
  exact absurd (hpull.symm.trans hclosed) (by decide)

end RpiDrivers.Gpio
