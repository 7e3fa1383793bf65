import Mathlib.Tactic.ByContra
import Mathlib.Tactic.SplitIfs
import RpiDrivers.Lib.Machine
import RpiDrivers.Lib.Watermark

/-!
# The receive flow control of the mini UART (`modmflow.c`, `isr.c`, `read.c`, `purge.c`)

When the buffer for received characters gets full the driver lowers DTR or RTS or sends an XOFF,
whichever the handshake says, and it records the reason in `RXHolding`. When the buffer has drained
it raises the line or sends an XON.

- `step`: the characters, the reads, the purge, the resize, the handshake change, the transmit
  interrupt and the reasons for holding transmission.
- `Wf`: what the three reasons, the lines and the two characters have to do with each other,
  **which every step keeps**.
- `Held`: **the holds agree with the two limits**.
- `Good`: a step ends in such a state, a character that reaches the limit raises the holds, and a
  drain to the other limit releases them.
- `flowControl_iff`: **exactly when every step of a run is good**.
-/

namespace RpiDrivers.MiniUart.FlowControl

open RpiDrivers.Lib
open RpiDrivers.Lib.Watermark

/-- `ControlHandShake & SERIAL_DTR_MASK` -/
inductive Dtr
  | off
  /-- `SERIAL_DTR_CONTROL` -/
  | control
  /-- `SERIAL_DTR_HANDSHAKE` -/
  | handshake
  deriving DecidableEq

/-- `FlowReplace & SERIAL_RTS_MASK` -/
inductive Rts
  | off
  /-- `SERIAL_RTS_CONTROL` -/
  | control
  /-- `SERIAL_RTS_HANDSHAKE` -/
  | handshake
  /-- `SERIAL_TRANSMIT_TOGGLE` -/
  | toggle
  deriving DecidableEq

/-- `SERIAL_HANDFLOW` -/
structure HandFlow where
  dtr : Dtr
  rts : Rts
  /-- `SERIAL_AUTO_RECEIVE` -/
  autoReceive : Bool
  /-- `SERIAL_AUTO_TRANSMIT` -/
  autoTransmit : Bool
  /-- `SERIAL_XOFF_CONTINUE` -/
  xoffContinue : Bool
  xonLimit : Nat
  xoffLimit : Nat

/-- A modem line that a handshake works. -/
structure Line where
  /-- `SERIAL_RX_DTR` or `SERIAL_RX_RTS` in `RXHolding` -/
  holding : Bool
  /-- `SERIAL_MCR_DTR` or `SERIAL_MCR_RTS` in the modem control register -/
  raised : Bool
  deriving DecidableEq

/-- A flow control character. -/
inductive FlowChar
  | xon
  | xoff
  deriving DecidableEq

/-- The device extension, the lines, and the last flow control character that was sent. -/
structure Extension where
  deviceIsOpened : Bool
  handFlow : HandFlow
  bufferSize : Nat
  charsInInterruptBuffer : Nat
  /-- How many characters the ISR has yet to put into the buffer of a read; none when it puts them
  into the interrupt buffer. -/
  userRoom : Nat
  dtr : Line
  rts : Line
  /-- `SERIAL_RX_XOFF` in `RXHolding` -/
  rxXoff : Bool
  sendXonChar : Bool
  sendXoffChar : Bool
  /-- `SERIAL_TX_XOFF` in `TXHolding` -/
  txXoff : Bool
  /-- The other reasons in `TXHolding` -/
  txOther : Bool
  lastSent : Option FlowChar

def Extension.withChars (s : Extension) (chars : Nat) : Extension :=
  { s with charsInInterruptBuffer := chars }

/-- The level from which on a hold is raised: the free space is down to the limit. -/
def marks (bufferSize : Nat) (h : HandFlow) : Marks := ⟨bufferSize - h.xoffLimit, h.xonLimit⟩

def Extension.marks (s : Extension) : Marks := FlowControl.marks s.bufferSize s.handFlow

/-! ## A modem line -/

namespace Line

/-- The line is lowered for a character that comes up to the limit, unless it is already. -/
def put (m : Marks) (chars : Nat) (l : Line) : Line :=
  if !l.holding && m.high ≤ chars + 1 then ⟨true, false⟩ else l

/-- It is raised again when the buffer has drained. -/
def reduce (l : Line) : Line := if l.holding then ⟨false, true⟩ else l

/-- A new handshake. The test of a line that holds already is the other way round than where the
buffer drains. -/
def setup (m : Marks) (chars : Nat) (l : Line) : Line :=
  if chars < m.high then
    if l.holding then
      if m.low < chars then ⟨false, true⟩ else l
    else { l with raised := true }
  else ⟨true, false⟩

/-- The application has the line, or the line is off. -/
def setTo (raised : Bool) : Line := ⟨false, raised⟩

end Line

/-! ## The routines -/

/-- `SerialProdXonXoff` -/
def serialProdXonXoff (s : Extension) (sendXon : Bool) : Extension :=
  { s with sendXonChar := sendXon, sendXoffChar := !sendXon }

/-- The DTR part of `SerialSetupNewHandFlow`: what the new mode makes of the line, -/
def changeDtr (s : Extension) (new : HandFlow) : Line :=
  match new.dtr with
  | .handshake => s.dtr.setup (marks s.bufferSize new) s.charsInInterruptBuffer
  | .control => .setTo true
  | .off => .setTo false

/-- when the mode is another. -/
def setupDtr (s : Extension) (new : HandFlow) : Line :=
  if !s.deviceIsOpened ∨ s.handFlow.dtr ≠ new.dtr then changeDtr s new else s.dtr

/-- The RTS part; `toggled` is the line as the toggling leaves it. -/
def changeRts (s : Extension) (new : HandFlow) (toggled : Bool) : Line :=
  match new.rts with
  | .handshake => s.rts.setup (marks s.bufferSize new) s.charsInInterruptBuffer
  | .control => .setTo true
  | .toggle => .setTo toggled
  | .off => .setTo false

def setupRts (s : Extension) (new : HandFlow) (toggled : Bool) : Line :=
  if !s.deviceIsOpened ∨ s.handFlow.rts ≠ new.rts then changeRts s new toggled else s.rts

/-- The part for automatic receive flow control -/
def changeAutoReceive (s : Extension) (new : HandFlow) : Extension :=
  if new.autoReceive then
    if (marks s.bufferSize new).high ≤ s.charsInInterruptBuffer then
      serialProdXonXoff { s with rxXoff := true } false
    else s
  else if s.rxXoff then serialProdXonXoff { s with rxXoff := false } true
  else s

def setupAutoReceive (s : Extension) (new : HandFlow) : Extension :=
  if !s.deviceIsOpened ∨ s.handFlow.autoReceive ≠ new.autoReceive then changeAutoReceive s new
  else s

/-- The part for automatic transmit flow control -/
def setupAutoTransmit (s : Extension) (new : HandFlow) : Extension :=
  if (!s.deviceIsOpened ∨ s.handFlow.autoTransmit ≠ new.autoTransmit) ∧ !new.autoTransmit ∧
      s.txXoff then
    serialProdXonXoff { s with txXoff := false } true
  else s

/-- `SerialSetupNewHandFlow`: each part only does work when its own mode has changed. -/
def serialSetupNewHandFlow (s : Extension) (new : HandFlow) (toggled : Bool) : Extension :=
  let s := { s with dtr := setupDtr s new, rts := setupRts s new toggled }
  let s := setupAutoTransmit (setupAutoReceive s new) new
  { s with handFlow := new }

/-- `SerialHandleReducedIntBuffer` -/
def serialHandleReducedIntBuffer (s : Extension) : Extension :=
  if (s.dtr.holding || s.rts.holding || s.rxXoff) ∧
      s.charsInInterruptBuffer ≤ s.handFlow.xonLimit then
    let s := { s with dtr := s.dtr.reduce, rts := s.rts.reduce }
    if s.rxXoff then serialProdXonXoff s true else s
  else s

/-- The flow control of `SerialPutChar` -/
def putLines (s : Extension) : Extension :=
  { s with
    dtr := if s.handFlow.dtr = .handshake then s.dtr.put s.marks s.charsInInterruptBuffer else s.dtr
    rts := if s.handFlow.rts = .handshake then s.rts.put s.marks s.charsInInterruptBuffer
      else s.rts }

def putXoff (s : Extension) : Extension :=
  if s.handFlow.autoReceive ∧ !s.rxXoff ∧ s.marks.high ≤ s.charsInInterruptBuffer + 1 then
    serialProdXonXoff { s with rxXoff := true } false
  else s

/-- `SerialPutChar`: into the buffer of the read, which may be full with it, or into the interrupt
buffer, which may have no room. -/
def serialPutChar (s : Extension) : Extension :=
  if 0 < s.userRoom then
    if s.userRoom = 1 then { s with userRoom := 0, charsInInterruptBuffer := 0 }
    else { s with userRoom := s.userRoom - 1 }
  else
    let s := putXoff (putLines s)
    if s.charsInInterruptBuffer < s.bufferSize then s.withChars (s.charsInInterruptBuffer + 1)
    else s

/-- `SerialUpdateInterruptBuffer` -/
def serialUpdateInterruptBuffer (s : Extension) (charsCopied : Nat) : Extension :=
  serialHandleReducedIntBuffer (s.withChars (s.charsInInterruptBuffer - charsCopied))

/-- `SerialUpdateAndSwitchToUser`, for a read that needs so many characters. -/
def serialUpdateAndSwitchToUser (s : Extension) (charsCopied numberNeededForRead : Nat) :
    Extension :=
  let s := serialUpdateInterruptBuffer s charsCopied
  let numberOfCharsToGet := min s.charsInInterruptBuffer numberNeededForRead
  let s := serialUpdateInterruptBuffer s numberOfCharsToGet
  { s with userRoom := numberNeededForRead - numberOfCharsToGet }

/-- `SerialGrabReadFromIsr` -/
def serialGrabReadFromIsr (s : Extension) : Extension :=
  if 0 < s.userRoom then { s with userRoom := 0, charsInInterruptBuffer := 0 } else s

/-- `SerialPurgeInterruptBuff` -/
def serialPurgeInterruptBuff (s : Extension) : Extension :=
  if s.userRoom = 0 then serialHandleReducedIntBuffer (s.withChars 0) else s

/-- The default limits. -/
def defaultLimits (h : HandFlow) (bufferSize : Nat) : HandFlow :=
  { h with xoffLimit := bufferSize >>> 3, xonLimit := bufferSize >>> 1 }

/-- `SerialUpdateAndSwitchToNew` -/
def serialUpdateAndSwitchToNew (s : Extension) (newBufferSize : Nat) : Extension :=
  serialHandleReducedIntBuffer
    { s with bufferSize := newBufferSize, handFlow := defaultLimits s.handFlow newBufferSize }

/-- The transmit interrupt, as far as it sends flow control characters. -/
def transmit (s : Extension) : Extension :=
  if s.sendXonChar ∧ !s.txOther then
    { s with sendXonChar := false, txXoff := false, rxXoff := false, lastSent := some .xon }
  else if s.sendXoffChar ∧ !s.txXoff ∧ !s.txOther then
    { s with
      sendXoffChar := false, txXoff := !s.handFlow.xoffContinue, lastSent := some .xoff }
  else s

/-! ## Runs -/

/-- What happens. -/
inductive Event
  /-- `SerialPutChar`, for a character that is not ignored because of DSR -/
  | receive
  /-- `SerialUpdateInterruptBuffer` -/
  | update (charsCopied : Nat)
  /-- `SerialUpdateAndSwitchToUser` -/
  | switchToUser (charsCopied numberNeededForRead : Nat)
  /-- `SerialGrabReadFromIsr` -/
  | grab
  /-- `SerialPurgeInterruptBuff` -/
  | purge
  /-- `SerialUpdateAndSwitchToNew` -/
  | resize (newBufferSize : Nat)
  /-- `SerialSetHandFlow` -/
  | setHandFlow (new : HandFlow) (toggled : Bool)
  /-- The transmit interrupt -/
  | transmit
  /-- Another part of the driver changes `TXHolding`. -/
  | hold (xoff other : Bool)

/-- The reads do not copy more than there is (`ASSERT`), they and the resize do not run while the
ISR has a read, the buffer is not made smaller, and the limits of a new handshake are checked. -/
def Enabled (s : Extension) : Event → Prop
  | .update charsCopied => charsCopied ≤ s.charsInInterruptBuffer
  | .switchToUser charsCopied _ => s.userRoom = 0 ∧ charsCopied ≤ s.charsInInterruptBuffer
  | .resize newBufferSize => s.userRoom = 0 ∧ s.bufferSize < newBufferSize
  | .setHandFlow new _ => new.xonLimit ≤ s.bufferSize ∧ new.xoffLimit ≤ s.bufferSize
  | .receive | .grab | .purge | .transmit | .hold _ _ => True

instance (s : Extension) (e : Event) : Decidable (Enabled s e) := by
  cases e <;> unfold Enabled <;> infer_instance

def effect (s : Extension) : Event → Extension
  | .receive => serialPutChar s
  | .update charsCopied => serialUpdateInterruptBuffer s charsCopied
  | .switchToUser charsCopied numberNeededForRead =>
    serialUpdateAndSwitchToUser s charsCopied numberNeededForRead
  | .grab => serialGrabReadFromIsr s
  | .purge => serialPurgeInterruptBuff s
  | .resize newBufferSize => serialUpdateAndSwitchToNew s newBufferSize
  | .setHandFlow new toggled => serialSetupNewHandFlow s new toggled
  | .transmit => transmit s
  | .hold xoff other => { s with txXoff := xoff, txOther := other }

/-- A device before it is opened: nothing is held or to be sent, the lines are as they were, and the
limits are the default ones. -/
def closed (h : HandFlow) (bufferSize : Nat) (dtr rts : Bool) : Extension where
  deviceIsOpened := false
  handFlow := defaultLimits h bufferSize
  bufferSize := bufferSize
  charsInInterruptBuffer := 0
  userRoom := 0
  dtr := .setTo dtr
  rts := .setTo rts
  rxXoff := false
  sendXonChar := false
  sendXoffChar := false
  txXoff := false
  txOther := false
  lastSent := none

/-- `SerialMarkOpen`, with the handshake set up by `SerialReset` -/
def opened (h : HandFlow) (bufferSize : Nat) (dtr rts toggled : Bool) : Extension :=
  { serialSetupNewHandFlow (closed h bufferSize dtr rts) (defaultLimits h bufferSize) toggled with
    deviceIsOpened := true }

/-- The driver with an open device. -/
def machine : Machine Extension Event :=
  .guarded (fun s => ∃ h bufferSize dtr rts toggled, s = opened h bufferSize dtr rts toggled)
    Enabled effect

/-! ## The property -/

/-- A line is held for a handshake that is selected, and then it is low exactly while it is held. -/
structure LineWf (selected : Prop) (l : Line) : Prop where
  only : l.holding → selected
  line : selected → l.raised = !l.holding

/-- **An XOFF is sent or pending exactly while the reason is set.** A pending XON takes the place of
an XOFF, until it is sent and the reason goes. -/
structure XoffWf (autoReceive : Bool) (s : Extension) : Prop where
  only : s.rxXoff → autoReceive
  sent : s.rxXoff → s.sendXoffChar ∨ s.sendXonChar ∨ s.lastSent = some .xoff
  held : s.sendXoffChar ∨ s.lastSent = some .xoff ∧ ¬s.sendXonChar → s.rxXoff
  exclusive : ¬(s.sendXonChar ∧ s.sendXoffChar)

/-- **What every step keeps.** -/
structure Wf (s : Extension) : Prop where
  opened : s.deviceIsOpened
  dtr : LineWf (s.handFlow.dtr = .handshake) s.dtr
  rts : LineWf (s.handFlow.rts = .handshake) s.rts
  xoff : XoffWf s.handFlow.autoReceive s
  xonLimit_le : s.handFlow.xonLimit ≤ s.bufferSize
  xoffLimit_le : s.handFlow.xoffLimit ≤ s.bufferSize
  chars_le : s.charsInInterruptBuffer ≤ s.bufferSize
  userEmpty : 0 < s.userRoom → s.charsInInterruptBuffer = 0

/-- A line agrees with the limits. -/
abbrev LineAgrees (m : Marks) (chars : Nat) (l : Line) : Prop :=
  Agrees m chars l.holding (¬l.holding)

/-- The XOFF agrees with them: it is freed when an XON is pending. -/
abbrev XoffAgrees (m : Marks) (chars : Nat) (s : Extension) : Prop :=
  Agrees m chars s.rxXoff (s.rxXoff → s.sendXonChar)

/-- **The holds of the handshakes that are selected agree with the limits.** -/
structure Held (s : Extension) : Prop where
  dtr : s.handFlow.dtr = .handshake → LineAgrees s.marks s.charsInInterruptBuffer s.dtr
  rts : s.handFlow.rts = .handshake → LineAgrees s.marks s.charsInInterruptBuffer s.rts
  xoff : s.handFlow.autoReceive → XoffAgrees s.marks s.charsInInterruptBuffer s

/-- Every handshake that is selected holds. -/
structure AllHolding (s : Extension) : Prop where
  dtr : s.handFlow.dtr = .handshake → s.dtr.holding
  rts : s.handFlow.rts = .handshake → s.rts.holding
  xoff : s.handFlow.autoReceive → s.rxXoff

/-- No line holds, and an XON is pending if the XOFF does. -/
structure Released (s : Extension) : Prop where
  dtr : ¬s.dtr.holding
  rts : ¬s.rts.holding
  xoff : s.rxXoff → s.sendXonChar

/-- **A character that brings the free space down to the limit raises the holds, and a drain to the
other limit releases them**, whatever the limits. -/
def After (s : Extension) (e : Event) (s' : Extension) : Prop :=
  match e with
  | .receive => s.userRoom = 0 → s'.marks.high ≤ s'.charsInInterruptBuffer → AllHolding s'
  | .update _ | .switchToUser _ _ | .resize _ =>
    s'.charsInInterruptBuffer ≤ s'.marks.low → Released s'
  | .purge => s.userRoom = 0 → s'.charsInInterruptBuffer ≤ s'.marks.low → Released s'
  | .grab | .setHandFlow _ _ | .transmit | .hold _ _ => True

/-- A step ends in a state with all of this. -/
def Good (s : Extension) (e : Event) : Prop :=
  ∀ s', machine.step s e = some s' → Wf s' ∧ Held s' ∧ After s e s'

/-! ## The condition -/

/-- An XON is pending after a change of the handshake. -/
def XonPending (s : Extension) (new : HandFlow) : Prop :=
  s.sendXonChar ∨ (s.handFlow.autoTransmit ∧ !new.autoTransmit ∧ s.txXoff)

/-- What a step must not do: leave a handshake selected whose hold does not agree with the new
limits; leave a larger buffer without a hold from the new limit on; send an XON although the buffer
has filled again. -/
def Suits (s : Extension) : Event → Prop
  | .setHandFlow new _ =>
    (s.handFlow.dtr = .handshake → new.dtr = .handshake →
      LineAgrees (marks s.bufferSize new) s.charsInInterruptBuffer s.dtr) ∧
    (s.handFlow.rts = .handshake → new.rts = .handshake →
      LineAgrees (marks s.bufferSize new) s.charsInInterruptBuffer s.rts) ∧
    (s.handFlow.autoReceive → new.autoReceive →
      Agrees (marks s.bufferSize new) s.charsInInterruptBuffer s.rxXoff
        (s.rxXoff → XonPending s new))
  | .resize newBufferSize =>
    newBufferSize - newBufferSize >>> 3 ≤ s.charsInInterruptBuffer → AllHolding s
  | .transmit => s.sendXonChar ∧ !s.txOther → s.handFlow.autoReceive →
    s.marks.high ≤ s.charsInInterruptBuffer → s.charsInInterruptBuffer ≤ s.marks.low
  | .receive | .update _ | .switchToUser _ _ | .grab | .purge | .hold _ _ => True

/-- A step that is taken suits. -/
def Sound (s : Extension) (e : Event) : Prop := Enabled s e → Suits s e

/-! ## Lines -/

section Line

variable {selected : Prop} {l : Line} {m : Marks} {chars : Nat}

theorem Line.put_holding (h : m.high ≤ chars + 1) : (l.put m chars).holding = true := by
  rw [Line.put]
  cases hl : l.holding <;> simp [h, hl]

theorem Line.put_of_lt (h : chars + 1 < m.high) : l.put m chars = l := by
  rw [Line.put]
  simp [Nat.not_le.2 h]

theorem Line.reduce_holding : l.reduce.holding = false := by
  rw [Line.reduce]
  split_ifs with h
  · rfl
  · exact Bool.eq_false_iff.2 h

theorem LineWf.put (h : LineWf selected l) (hsel : selected) : LineWf selected (l.put m chars) := by
  rw [Line.put]
  split_ifs
  · exact ⟨fun _ => hsel, fun _ => rfl⟩
  · exact h

theorem LineWf.reduce (h : LineWf selected l) : LineWf selected l.reduce := by
  rw [Line.reduce]
  split_ifs
  · exact ⟨(fun h => nomatch h), fun _ => rfl⟩
  · exact h

theorem lineWf_setTo (hsel : ¬selected) (raised : Bool) : LineWf selected (.setTo raised) :=
  ⟨(fun h => nomatch h), fun h => absurd h hsel⟩

/-- A line that does not hold is set up by the level. -/
theorem Line.setup_of_free (hfree : l.holding = false) :
    l.setup m chars = if chars < m.high then ⟨false, true⟩ else ⟨true, false⟩ := by
  rw [Line.setup]
  simp [hfree]

theorem lineWf_setup (hfree : l.holding = false) (hsel : selected) :
    LineWf selected (l.setup m chars) := by
  rw [Line.setup_of_free hfree]
  split_ifs
  · exact ⟨(fun h => nomatch h), fun _ => rfl⟩
  · exact ⟨fun _ => hsel, fun _ => rfl⟩

theorem lineAgrees_setup (hfree : l.holding = false) : LineAgrees m chars (l.setup m chars) := by
  rw [LineAgrees, Line.setup_of_free hfree]
  refine agrees_of_level (fun hhigh => ?_) fun hlt => ?_
  · rw [if_neg (Nat.not_lt.2 hhigh)]
  · rw [if_pos hlt]
    exact Bool.false_ne_true

end Line

/-! ## The drain -/

section Drain

variable {s : Extension}

theorem Line.reduce_of_free {l : Line} (h : l.holding = false) : l.reduce = l := by
  rw [Line.reduce, h]
  rfl

/-- The lines are raised and an XON takes the place of an XOFF. -/
def released (s : Extension) : Extension :=
  { s with
    dtr := s.dtr.reduce
    rts := s.rts.reduce
    sendXonChar := s.rxXoff || s.sendXonChar
    sendXoffChar := !s.rxXoff && s.sendXoffChar }

/-- The routine releases down from the limit; without a reason there is nothing to release. -/
theorem serialHandleReducedIntBuffer_eq (s : Extension) :
    serialHandleReducedIntBuffer s =
      if s.charsInInterruptBuffer ≤ s.marks.low then released s else s := by
  have hxoff : (if s.rxXoff then
      serialProdXonXoff { s with dtr := s.dtr.reduce, rts := s.rts.reduce } true
      else { s with dtr := s.dtr.reduce, rts := s.rts.reduce }) = released s := by
    rw [released]
    cases s.rxXoff <;> rfl
  by_cases hlow : s.charsInInterruptBuffer ≤ s.handFlow.xonLimit
  · rw [if_pos (show s.charsInInterruptBuffer ≤ s.marks.low from hlow)]
    cases hholding : s.dtr.holding || s.rts.holding || s.rxXoff with
    | true =>
      rw [serialHandleReducedIntBuffer, if_pos ⟨hholding, hlow⟩]
      exact hxoff
    | false =>
      rw [serialHandleReducedIntBuffer,
        if_neg fun h => Bool.false_ne_true (hholding.symm.trans h.1)]
      rw [Bool.or_eq_false_iff, Bool.or_eq_false_iff] at hholding
      obtain ⟨⟨hdtr, hrts⟩, hrx⟩ := hholding
      rw [← hxoff, if_neg (Bool.eq_false_iff.1 hrx), Line.reduce_of_free hdtr,
        Line.reduce_of_free hrts]
  · rw [if_neg (show ¬s.charsInInterruptBuffer ≤ s.marks.low from hlow),
      serialHandleReducedIntBuffer, if_neg fun h => hlow h.2]

theorem XoffWf.released {a : Bool} (h : XoffWf a s) : XoffWf a (released s) := by
  obtain ⟨honly, hsent, hheld, hexcl⟩ := h
  constructor
  · exact honly
  · exact fun hrx => .inr (.inl (by simp [FlowControl.released, show s.rxXoff = true from hrx]))
  · intro hpending
    by_contra hrx
    have hrx' : s.rxXoff = false := Bool.eq_false_iff.2 hrx
    simp only [FlowControl.released, hrx', Bool.false_or, Bool.not_false, Bool.true_and] at hpending
    exact hrx (hheld hpending)
  · simp only [FlowControl.released]
    cases hrx : s.rxXoff
    · simpa using hexcl
    · simp

theorem Wf.reduced (h : Wf s) : Wf (serialHandleReducedIntBuffer s) := by
  rw [serialHandleReducedIntBuffer_eq]
  split_ifs
  · exact { h with dtr := h.dtr.reduce, rts := h.rts.reduce, xoff := h.xoff.released }
  · exact h

theorem reduced_chars (s : Extension) :
    (serialHandleReducedIntBuffer s).charsInInterruptBuffer = s.charsInInterruptBuffer := by
  rw [serialHandleReducedIntBuffer_eq]
  split_ifs <;> rfl

theorem reduced_marks (s : Extension) : (serialHandleReducedIntBuffer s).marks = s.marks := by
  rw [serialHandleReducedIntBuffer_eq]
  split_ifs <;> rfl

/-- **A drain to the limit releases.** -/
theorem released_reduced (h : s.charsInInterruptBuffer ≤ s.marks.low) :
    Released (serialHandleReducedIntBuffer s) := by
  rw [serialHandleReducedIntBuffer_eq, if_pos h]
  refine ⟨?_, ?_, fun hrx => ?_⟩
  · exact Bool.eq_false_iff.1 Line.reduce_holding
  · exact Bool.eq_false_iff.1 Line.reduce_holding
  · show (s.rxXoff || s.sendXonChar) = true
    rw [show s.rxXoff = true from hrx]
    rfl

/-- **After the release the holds agree with the limits exactly when above both everything
holds.** -/
theorem held_reduced_iff (s : Extension) :
    Held (serialHandleReducedIntBuffer s) ↔
      (s.marks.high ≤ s.charsInInterruptBuffer → s.marks.low < s.charsInInterruptBuffer →
        AllHolding s) := by
  have hfreed := fun h => released_reduced (s := s) h
  have hsame : s.marks.low < s.charsInInterruptBuffer → serialHandleReducedIntBuffer s = s :=
    fun h => by rw [serialHandleReducedIntBuffer_eq, if_neg (Nat.not_le.2 h)]
  have hmode : (serialHandleReducedIntBuffer s).handFlow = s.handFlow := by
    rw [serialHandleReducedIntBuffer_eq]
    split_ifs <;> rfl
  have hdtr : LineAgrees s.marks s.charsInInterruptBuffer (serialHandleReducedIntBuffer s).dtr ↔
      (s.marks.high ≤ s.charsInInterruptBuffer → s.marks.low < s.charsInInterruptBuffer →
        s.dtr.holding) :=
    agrees_reduced_iff (fun h => (hfreed h).dtr) fun h => by rw [hsame h]
  have hrts : LineAgrees s.marks s.charsInInterruptBuffer (serialHandleReducedIntBuffer s).rts ↔
      (s.marks.high ≤ s.charsInInterruptBuffer → s.marks.low < s.charsInInterruptBuffer →
        s.rts.holding) :=
    agrees_reduced_iff (fun h => (hfreed h).rts) fun h => by rw [hsame h]
  have hxoff : Agrees s.marks s.charsInInterruptBuffer (serialHandleReducedIntBuffer s).rxXoff
      ((serialHandleReducedIntBuffer s).rxXoff →
        (serialHandleReducedIntBuffer s).sendXonChar) ↔
      (s.marks.high ≤ s.charsInInterruptBuffer → s.marks.low < s.charsInInterruptBuffer →
        s.rxXoff) :=
    agrees_reduced_iff (fun h => (hfreed h).xoff) fun h => by rw [hsame h]
  constructor
  · rintro ⟨h1, h2, h3⟩ hhigh hlow
    rw [hmode, reduced_marks, reduced_chars] at h1 h2 h3
    exact ⟨fun hsel => hdtr.1 (h1 hsel) hhigh hlow, fun hsel => hrts.1 (h2 hsel) hhigh hlow,
      fun hsel => hxoff.1 (h3 hsel) hhigh hlow⟩
  · intro h
    constructor <;> rw [hmode, reduced_marks, reduced_chars]
    · exact fun hsel => hdtr.2 fun hhigh hlow => (h hhigh hlow).dtr hsel
    · exact fun hsel => hrts.2 fun hhigh hlow => (h hhigh hlow).rts hsel
    · exact fun hsel => hxoff.2 fun hhigh hlow => (h hhigh hlow).xoff hsel

end Drain

/-! ## The reads, the purge and the resize -/

section Reads

variable {s : Extension}

/-- **Fewer characters**: the drain keeps everything, and releases at the limit. -/
theorem drain_good (h : Wf s) (hheld : Held s) {n : Nat} (hn : n ≤ s.charsInInterruptBuffer) :
    Wf (serialHandleReducedIntBuffer (s.withChars n)) ∧
      Held (serialHandleReducedIntBuffer (s.withChars n)) := by
  refine ⟨Wf.reduced { h with
    xoff := ⟨h.xoff.only, h.xoff.sent, h.xoff.held, h.xoff.exclusive⟩
    chars_le := Nat.le_trans hn h.chars_le
    userEmpty := fun hroom => Nat.le_zero.1 (h.userEmpty hroom ▸ hn) }, ?_⟩
  rw [held_reduced_iff]
  intro hhigh hlow
  have hhigh' : s.marks.high ≤ s.charsInInterruptBuffer := Nat.le_trans hhigh hn
  have hlow' : s.marks.low < s.charsInInterruptBuffer := Nat.lt_of_lt_of_le hlow hn
  exact ⟨fun hsel => (hheld.dtr hsel).held hhigh' hlow',
    fun hsel => (hheld.rts hsel).held hhigh' hlow',
    fun hsel => (hheld.xoff hsel).held hhigh' hlow'⟩

theorem released_drain {n : Nat}
    (hlow : (serialHandleReducedIntBuffer (s.withChars n)).charsInInterruptBuffer ≤
      (serialHandleReducedIntBuffer (s.withChars n)).marks.low) :
    Released (serialHandleReducedIntBuffer (s.withChars n)) := by
  rw [reduced_chars, reduced_marks] at hlow
  exact released_reduced hlow

/-- The ISR does not have the read any more, and the interrupt buffer is empty as it was. -/
theorem ungrab_good (h : Wf s) (hheld : Held s) (hroom : 0 < s.userRoom) :
    Wf { s with userRoom := 0, charsInInterruptBuffer := 0 } ∧
      Held { s with userRoom := 0, charsInInterruptBuffer := 0 } := by
  have hempty := h.userEmpty hroom
  refine ⟨{ h with
    xoff := ⟨h.xoff.only, h.xoff.sent, h.xoff.held, h.xoff.exclusive⟩
    chars_le := Nat.zero_le _
    userEmpty := fun hpos => absurd hpos (Nat.lt_irrefl 0) }, ?_⟩
  obtain ⟨hdtr, hrts, hxoff⟩ := hheld
  rw [hempty] at hdtr hrts hxoff
  exact ⟨hdtr, hrts, hxoff⟩

theorem userRoom_good (h : Wf s) (hheld : Held s) {n : Nat}
    (hn : 0 < n → s.charsInInterruptBuffer = 0) :
    Wf { s with userRoom := n } ∧ Held { s with userRoom := n } :=
  ⟨{ h with
    xoff := ⟨h.xoff.only, h.xoff.sent, h.xoff.held, h.xoff.exclusive⟩
    userEmpty := hn }, ⟨hheld.dtr, hheld.rts, hheld.xoff⟩⟩

theorem grab_good (h : Wf s) (hheld : Held s) :
    Wf (serialGrabReadFromIsr s) ∧ Held (serialGrabReadFromIsr s) := by
  rw [serialGrabReadFromIsr]
  split_ifs with hroom
  · exact ungrab_good h hheld hroom
  · exact ⟨h, hheld⟩

/-- **A read keeps everything.** When it needs more than there is, the interrupt buffer is empty. -/
theorem switchToUser_good (h : Wf s) (hheld : Held s) (charsCopied needed : Nat) :
    Wf (serialUpdateAndSwitchToUser s charsCopied needed) ∧
      Held (serialUpdateAndSwitchToUser s charsCopied needed) := by
  obtain ⟨h1, hheld1⟩ := drain_good h hheld (Nat.sub_le s.charsInInterruptBuffer charsCopied)
  have hle := Nat.sub_le (serialUpdateInterruptBuffer s charsCopied).charsInInterruptBuffer
    (min (serialUpdateInterruptBuffer s charsCopied).charsInInterruptBuffer needed)
  obtain ⟨h2, hheld2⟩ := drain_good h1 hheld1 hle
  refine userRoom_good h2 hheld2 fun hneeded => ?_
  rw [reduced_chars]
  show _ - min _ needed = 0
  omega

/-- **A larger buffer keeps everything, exactly when its new limit is below what it holds or
everything holds.** -/
theorem resize_iff (h : Wf s) {n : Nat} (hn : s.bufferSize < n) :
    Wf (serialUpdateAndSwitchToNew s n) ∧ (Held (serialUpdateAndSwitchToNew s n) ↔
      (n - n >>> 3 ≤ s.charsInInterruptBuffer → AllHolding s)) := by
  have heighth : n >>> 3 = n / 8 := Nat.shiftRight_eq_div_pow n 3
  have hhalf : n >>> 1 = n / 2 := Nat.shiftRight_eq_div_pow n 1
  refine ⟨Wf.reduced { h with
    xoff := ⟨h.xoff.only, h.xoff.sent, h.xoff.held, h.xoff.exclusive⟩
    xonLimit_le := ?_
    xoffLimit_le := ?_
    chars_le := Nat.le_trans h.chars_le (Nat.le_of_lt hn) }, ?_⟩
  · show n >>> 1 ≤ n
    omega
  · show n >>> 3 ≤ n
    omega
  · rw [serialUpdateAndSwitchToNew, held_reduced_iff]
    constructor
    · intro hall hhigh
      have hlow : n >>> 1 < s.charsInInterruptBuffer := by omega
      obtain ⟨hdtr, hrts, hxoff⟩ := hall hhigh hlow
      exact ⟨hdtr, hrts, hxoff⟩
    · intro hall hhigh _
      obtain ⟨hdtr, hrts, hxoff⟩ := hall hhigh
      exact ⟨hdtr, hrts, hxoff⟩

end Reads

/-! ## A character -/

section Receive

variable {s : Extension}

/-- A step up of the level, or a character for which there is no room. -/
def Comes (m : Marks) (chars chars' : Nat) : Prop :=
  chars' = chars + 1 ∨ chars' = chars ∧ m.high ≤ chars

theorem lineAgrees_put {m : Marks} {chars chars' : Nat} {l : Line} (hcomes : Comes m chars chars')
    (h : LineAgrees m chars l) : LineAgrees m chars' (l.put m chars) := by
  rcases hcomes with rfl | ⟨rfl, hfull⟩
  · refine h.fill (fun hhigh => Line.put_holding hhigh) fun hlt hfree => ?_
    rwa [Line.put_of_lt hlt]
  · exact agrees_of_level (fun hhigh => Line.put_holding (Nat.le_succ_of_le hhigh))
      fun hlt => absurd hfull (Nat.not_le.2 hlt)

/-- Only the XOFF and the two characters change. -/
theorem putXoff_eq (s : Extension) : ∃ rxXoff sendXonChar sendXoffChar,
    putXoff s = { s with
      rxXoff := rxXoff, sendXonChar := sendXonChar, sendXoffChar := sendXoffChar } := by
  rw [putXoff]
  split_ifs
  · exact ⟨true, false, true, rfl⟩
  · exact ⟨s.rxXoff, s.sendXonChar, s.sendXoffChar, rfl⟩

theorem putXoff_rxXoff (hsel : s.handFlow.autoReceive)
    (hhigh : s.marks.high ≤ s.charsInInterruptBuffer + 1) : (putXoff s).rxXoff = true := by
  rw [putXoff]
  split_ifs with h
  · rfl
  · cases hrx : s.rxXoff with
    | true => rfl
    | false => exact absurd ⟨hsel, by rw [hrx]; rfl, hhigh⟩ h

theorem putXoff_of_lt (hlt : s.charsInInterruptBuffer + 1 < s.marks.high) : putXoff s = s :=
  if_neg fun h => absurd h.2.2 (Nat.not_le.2 hlt)

/-- An XOFF that is prodded is pending. -/
theorem xoffWf_prod {a : Bool} (ha : a) (s : Extension) :
    XoffWf a (serialProdXonXoff { s with rxXoff := true } false) where
  only _ := ha
  sent _ := .inl rfl
  held _ := rfl
  exclusive h := nomatch h.1

theorem XoffWf.putXoff (h : XoffWf s.handFlow.autoReceive s) :
    XoffWf s.handFlow.autoReceive (putXoff s) := by
  rw [FlowControl.putXoff]
  split_ifs with hraise
  · exact xoffWf_prod hraise.1 s
  · exact h

theorem putLines_wf (h : Wf s) : Wf (putLines s) := by
  refine { h with
    dtr := ?_, rts := ?_, xoff := ⟨h.xoff.only, h.xoff.sent, h.xoff.held, h.xoff.exclusive⟩ }
  · show LineWf _ (if s.handFlow.dtr = .handshake then _ else _)
    split_ifs with hsel
    · exact h.dtr.put hsel
    · exact h.dtr
  · show LineWf _ (if s.handFlow.rts = .handshake then _ else _)
    split_ifs with hsel
    · exact h.rts.put hsel
    · exact h.rts

theorem putXoff_wf (h : Wf s) : Wf (putXoff s) := by
  have hxoff := h.xoff.putXoff
  obtain ⟨rx, xon, xoff, heq⟩ := putXoff_eq s
  rw [heq] at hxoff ⊢
  exact { h with xoff := hxoff }

/-- What the flow control of a character leaves as it was. -/
theorem put_frame (s : Extension) :
    (putXoff (putLines s)).handFlow = s.handFlow ∧
      (putXoff (putLines s)).bufferSize = s.bufferSize ∧
      (putXoff (putLines s)).charsInInterruptBuffer = s.charsInInterruptBuffer ∧
      (putXoff (putLines s)).userRoom = s.userRoom ∧
      (putXoff (putLines s)).dtr = (putLines s).dtr ∧
      (putXoff (putLines s)).rts = (putLines s).rts := by
  obtain ⟨rx, xon, xoff, heq⟩ := putXoff_eq (putLines s)
  rw [heq]
  exact ⟨rfl, rfl, rfl, rfl, rfl, rfl⟩

theorem putLines_dtr (hsel : s.handFlow.dtr = .handshake) :
    (putLines s).dtr = s.dtr.put s.marks s.charsInInterruptBuffer := if_pos hsel

theorem putLines_rts (hsel : s.handFlow.rts = .handshake) :
    (putLines s).rts = s.rts.put s.marks s.charsInInterruptBuffer := if_pos hsel

/-- **A character at the limit raises every hold.** -/
theorem put_allHolding (hhigh : s.marks.high ≤ s.charsInInterruptBuffer + 1) :
    AllHolding (putXoff (putLines s)) := by
  obtain ⟨hflow, -, -, -, hdtr, hrts⟩ := put_frame s
  constructor <;> rw [hflow] <;> intro hsel
  · rw [hdtr, putLines_dtr hsel]
    exact Line.put_holding hhigh
  · rw [hrts, putLines_rts hsel]
    exact Line.put_holding hhigh
  · exact putXoff_rxXoff hsel hhigh

/-- **The holds agree with the level that the character comes up to.** -/
theorem put_held (hheld : Held s) {c : Nat} (hc : Comes s.marks s.charsInInterruptBuffer c) :
    Held ((putXoff (putLines s)).withChars c) := by
  obtain ⟨hflow, hsize, -, -, hdtr, hrts⟩ := put_frame s
  have hmarks : ((putXoff (putLines s)).withChars c).marks =
      s.marks := congrArg₂ marks hsize hflow
  constructor <;> rw [hmarks] <;> intro hsel <;>
    replace hsel := (congrArg _ hflow).symm.trans hsel
  · show LineAgrees s.marks c (putXoff (putLines s)).dtr
    rw [hdtr, putLines_dtr hsel]
    exact lineAgrees_put hc (hheld.dtr hsel)
  · show LineAgrees s.marks c (putXoff (putLines s)).rts
    rw [hrts, putLines_rts hsel]
    exact lineAgrees_put hc (hheld.rts hsel)
  · show Agrees s.marks c (putXoff (putLines s)).rxXoff _
    rcases hc with rfl | ⟨rfl, hfull⟩
    · refine (hheld.xoff hsel).fill (fun hhigh => putXoff_rxXoff hsel hhigh) fun hlt hfreed => ?_
      have hsame : putXoff (putLines s) = putLines s := putXoff_of_lt hlt
      show (putXoff (putLines s)).rxXoff → (putXoff (putLines s)).sendXonChar
      rw [hsame]
      exact hfreed
    · exact agrees_of_level (fun hhigh => putXoff_rxXoff hsel (Nat.le_succ_of_le hhigh))
        fun hlt => absurd hfull (Nat.not_le.2 hlt)

/-- A character in the interrupt buffer, at the level that it comes up to. -/
theorem store_good (h : Wf s) (hheld : Held s) {c : Nat}
    (hc : Comes s.marks s.charsInInterruptBuffer c) (hle : c ≤ s.bufferSize)
    (hroom : s.userRoom = 0) :
    Wf ((putXoff (putLines s)).withChars c) ∧
      Held ((putXoff (putLines s)).withChars c) ∧
      (s.marks.high ≤ c → AllHolding ((putXoff (putLines s)).withChars c)) := by
  have hwf := putXoff_wf (putLines_wf h)
  obtain ⟨-, hsize, -, huser, -, -⟩ := put_frame s
  refine ⟨{ hwf with
    xoff := ⟨hwf.xoff.only, hwf.xoff.sent, hwf.xoff.held, hwf.xoff.exclusive⟩
    chars_le := Nat.le_trans hle (Nat.le_of_eq hsize.symm)
    userEmpty := fun hpos => absurd hpos ?_ }, put_held hheld hc, fun hhigh => ?_⟩
  · exact Nat.not_lt.2 (Nat.le_of_eq (huser.trans hroom))
  · have hhigh' : s.marks.high ≤ s.charsInInterruptBuffer + 1 := by
      rcases hc with rfl | ⟨rfl, -⟩ <;> omega
    obtain ⟨hdtr, hrts, hxoff⟩ := put_allHolding hhigh'
    exact ⟨hdtr, hrts, hxoff⟩

/-- **A character keeps everything, and raises the holds when it comes up to the limit.** -/
theorem receive_good (h : Wf s) (hheld : Held s) :
    Wf (serialPutChar s) ∧ Held (serialPutChar s) ∧
      (s.userRoom = 0 → (serialPutChar s).marks.high ≤ (serialPutChar s).charsInInterruptBuffer →
        AllHolding (serialPutChar s)) := by
  by_cases hroom : 0 < s.userRoom
  · have hnot : s.userRoom ≠ 0 := Nat.ne_of_gt hroom
    rw [serialPutChar, if_pos hroom]
    split_ifs
    · obtain ⟨hwf, hheld'⟩ := ungrab_good h hheld hroom
      exact ⟨hwf, hheld', fun h0 => absurd h0 hnot⟩
    · obtain ⟨hwf, hheld'⟩ := userRoom_good h hheld fun _ : 0 < s.userRoom - 1 => h.userEmpty hroom
      exact ⟨hwf, hheld', fun h0 => absurd h0 hnot⟩
  · have hroom' : s.userRoom = 0 := Nat.eq_zero_of_not_pos hroom
    obtain ⟨hflow, hsize, hchars, -, -, -⟩ := put_frame s
    have hmarks : ∀ c, ((putXoff (putLines s)).withChars c).marks =
        s.marks := fun _ => congrArg₂ marks hsize hflow
    by_cases hlt : s.charsInInterruptBuffer < s.bufferSize
    · have hput : serialPutChar s =
          (putXoff (putLines s)).withChars (s.charsInInterruptBuffer + 1) := by
        have hlt' : (putXoff (putLines s)).charsInInterruptBuffer <
            (putXoff (putLines s)).bufferSize := by rwa [hchars, hsize]
        exact (if_neg hroom).trans ((if_pos hlt').trans (by rw [hchars]))
      obtain ⟨hwf, hheld', hall⟩ := store_good h hheld (.inl rfl) hlt hroom'
      rw [hput, hmarks]
      exact ⟨hwf, hheld', fun _ => hall⟩
    · -- there is no room: the level is the size of the buffer, which the limit is not above
      have hput : serialPutChar s =
          (putXoff (putLines s)).withChars s.charsInInterruptBuffer := by
        have hlt' : ¬(putXoff (putLines s)).charsInInterruptBuffer <
            (putXoff (putLines s)).bufferSize := by rwa [hchars, hsize]
        refine (if_neg hroom).trans ((if_neg hlt').trans ?_)
        rw [← hchars]
        rfl
      have hfull : s.marks.high ≤ s.charsInInterruptBuffer :=
        Nat.le_trans (Nat.sub_le ..) (Nat.not_lt.1 hlt)
      obtain ⟨hwf, hheld', hall⟩ := store_good h hheld (.inr ⟨rfl, hfull⟩) h.chars_le hroom'
      rw [hput, hmarks]
      exact ⟨hwf, hheld', fun _ => hall⟩

end Receive

/-! ## A new handshake -/

section Handshake

variable {s : Extension} {new : HandFlow}

theorem changeDtr_wf (hfree : new.dtr = .handshake → s.dtr.holding = false) :
    LineWf (new.dtr = .handshake) (changeDtr s new) := by
  rw [changeDtr]
  cases hmode : new.dtr with
  | handshake => exact lineWf_setup (hfree hmode) rfl
  | control => exact lineWf_setTo (fun h => nomatch h) true
  | off => exact lineWf_setTo (fun h => nomatch h) false

theorem changeDtr_agrees (hsel : new.dtr = .handshake) (hfree : s.dtr.holding = false) :
    LineAgrees (marks s.bufferSize new) s.charsInInterruptBuffer (changeDtr s new) := by
  rw [changeDtr, hsel]
  exact lineAgrees_setup hfree

theorem changeRts_wf (hfree : new.rts = .handshake → s.rts.holding = false) (toggled : Bool) :
    LineWf (new.rts = .handshake) (changeRts s new toggled) := by
  rw [changeRts]
  cases hmode : new.rts with
  | handshake => exact lineWf_setup (hfree hmode) rfl
  | control => exact lineWf_setTo (fun h => nomatch h) true
  | toggle => exact lineWf_setTo (fun h => nomatch h) toggled
  | off => exact lineWf_setTo (fun h => nomatch h) false

theorem changeRts_agrees (hsel : new.rts = .handshake) (hfree : s.rts.holding = false)
    (toggled : Bool) :
    LineAgrees (marks s.bufferSize new) s.charsInInterruptBuffer (changeRts s new toggled) := by
  rw [changeRts, hsel]
  exact lineAgrees_setup hfree

/-- A line does not hold for a handshake that is not selected. -/
theorem LineWf.free {selected : Prop} {l : Line} (h : LineWf selected l) (hnot : ¬selected) :
    l.holding = false :=
  Bool.eq_false_iff.2 fun hholding => hnot (h.only hholding)

/-- The part for DTR, on an open device. -/
theorem setupDtr_spec (h : Wf s) (new : HandFlow) :
    LineWf (new.dtr = .handshake) (setupDtr s new) ∧
      ((new.dtr = .handshake →
        LineAgrees (marks s.bufferSize new) s.charsInInterruptBuffer (setupDtr s new)) ↔
      (s.handFlow.dtr = .handshake → new.dtr = .handshake →
        LineAgrees (marks s.bufferSize new) s.charsInInterruptBuffer s.dtr)) := by
  by_cases hsame : s.handFlow.dtr = new.dtr
  · have heq : setupDtr s new = s.dtr := if_neg (by simp [h.opened, hsame])
    rw [heq]
    refine ⟨hsame ▸ h.dtr, fun hall _ => hall, fun hall hsel => hall (hsame.trans hsel) hsel⟩
  · have heq : setupDtr s new = changeDtr s new := if_pos (.inr hsame)
    have hfree : new.dtr = .handshake → s.dtr.holding = false := fun hsel =>
      h.dtr.free fun hold => hsame (hold.trans hsel.symm)
    rw [heq]
    refine ⟨changeDtr_wf hfree, iff_of_true (fun hsel => changeDtr_agrees hsel (hfree hsel)) ?_⟩
    exact fun hold hsel => absurd (hold.trans hsel.symm) hsame

/-- The part for RTS. -/
theorem setupRts_spec (h : Wf s) (new : HandFlow) (toggled : Bool) :
    LineWf (new.rts = .handshake) (setupRts s new toggled) ∧
      ((new.rts = .handshake →
        LineAgrees (marks s.bufferSize new) s.charsInInterruptBuffer (setupRts s new toggled)) ↔
      (s.handFlow.rts = .handshake → new.rts = .handshake →
        LineAgrees (marks s.bufferSize new) s.charsInInterruptBuffer s.rts)) := by
  by_cases hsame : s.handFlow.rts = new.rts
  · have heq : setupRts s new toggled = s.rts := if_neg (by simp [h.opened, hsame])
    rw [heq]
    refine ⟨hsame ▸ h.rts, fun hall _ => hall, fun hall hsel => hall (hsame.trans hsel) hsel⟩
  · have heq : setupRts s new toggled = changeRts s new toggled := if_pos (.inr hsame)
    have hfree : new.rts = .handshake → s.rts.holding = false := fun hsel =>
      h.rts.free fun hold => hsame (hold.trans hsel.symm)
    rw [heq]
    refine ⟨changeRts_wf hfree toggled,
      iff_of_true (fun hsel => changeRts_agrees hsel (hfree hsel) toggled) ?_⟩
    exact fun hold hsel => absurd (hold.trans hsel.symm) hsame

/-- An XON that is prodded is pending, in the place of an XOFF. -/
theorem XoffWf.prodXon {a : Bool} (h : s.rxXoff → a) :
    XoffWf a (serialProdXonXoff s true) where
  only := h
  sent _ := .inr (.inl rfl)
  held hpending := (hpending.resolve_left nofun).2 rfl |>.elim
  exclusive h := nomatch h.2

theorem changeAutoReceive_wf {a : Bool} (h : XoffWf a s) :
    XoffWf new.autoReceive (changeAutoReceive s new) := by
  rw [changeAutoReceive]
  split_ifs with hauto hhigh hrx
  · exact xoffWf_prod hauto s
  · exact ⟨fun _ => hauto, h.sent, h.held, h.exclusive⟩
  · exact XoffWf.prodXon fun hrx => nomatch hrx
  · exact ⟨fun h => absurd h hrx, h.sent, h.held, h.exclusive⟩

theorem changeAutoReceive_agrees (hsel : new.autoReceive) (hfree : s.rxXoff = false) :
    XoffAgrees (marks s.bufferSize new) s.charsInInterruptBuffer (changeAutoReceive s new) := by
  rw [changeAutoReceive, if_pos hsel]
  split_ifs with hhigh
  · exact agrees_of_level (fun _ => rfl) fun hlt => absurd hhigh (Nat.not_le.2 hlt)
  · exact agrees_of_level (fun h => absurd h hhigh) fun _ hrx => nomatch hfree.symm.trans hrx

theorem changeAutoReceive_eq (s : Extension) (new : HandFlow) :
    ∃ rxXoff sendXonChar sendXoffChar, changeAutoReceive s new = { s with
      rxXoff := rxXoff, sendXonChar := sendXonChar, sendXoffChar := sendXoffChar } := by
  rw [changeAutoReceive]
  split_ifs
  · exact ⟨true, false, true, rfl⟩
  · exact ⟨s.rxXoff, s.sendXonChar, s.sendXoffChar, rfl⟩
  · exact ⟨false, true, false, rfl⟩
  · exact ⟨s.rxXoff, s.sendXonChar, s.sendXoffChar, rfl⟩

/-- What the automatic flow control leaves as it was. -/
theorem setupAuto_frame (s : Extension) (new : HandFlow) :
    ∃ rxXoff sendXonChar sendXoffChar txXoff,
      setupAutoTransmit (setupAutoReceive s new) new = { s with
        rxXoff := rxXoff, sendXonChar := sendXonChar, sendXoffChar := sendXoffChar,
        txXoff := txXoff } := by
  have hreceive : ∃ rxXoff sendXonChar sendXoffChar, setupAutoReceive s new = { s with
      rxXoff := rxXoff, sendXonChar := sendXonChar, sendXoffChar := sendXoffChar } := by
    rw [setupAutoReceive]
    split_ifs
    · exact changeAutoReceive_eq s new
    · exact ⟨s.rxXoff, s.sendXonChar, s.sendXoffChar, rfl⟩
  obtain ⟨rx, xon, xoff, heq⟩ := hreceive
  rw [heq, setupAutoTransmit]
  split_ifs
  · exact ⟨rx, true, false, false, rfl⟩
  · exact ⟨rx, xon, xoff, s.txXoff, rfl⟩

theorem setupAutoTransmit_wf {a : Bool} (h : XoffWf a s) :
    XoffWf a (setupAutoTransmit s new) := by
  rw [setupAutoTransmit]
  split_ifs
  · exact XoffWf.prodXon h.only
  · exact h

/-- The part for automatic transmit flow control, on an open device. -/
theorem setupAutoTransmit_spec (hopen : s.deviceIsOpened) (new : HandFlow) :
    (setupAutoTransmit s new).rxXoff = s.rxXoff ∧
      ((setupAutoTransmit s new).sendXonChar ↔ XonPending s new) := by
  have hcond : ((!s.deviceIsOpened ∨ s.handFlow.autoTransmit ≠ new.autoTransmit) ∧
      !new.autoTransmit ∧ s.txXoff) ↔ (s.handFlow.autoTransmit ∧ !new.autoTransmit ∧ s.txXoff) := by
    rw [hopen]
    cases s.handFlow.autoTransmit <;> cases new.autoTransmit <;> simp
  rw [setupAutoTransmit, XonPending]
  split_ifs with h
  · exact ⟨rfl, iff_of_true rfl (.inr (hcond.1 h))⟩
  · exact ⟨rfl, ⟨.inl, fun hpending => hpending.resolve_right fun hxon => h (hcond.2 hxon)⟩⟩

/-- **The XOFF of a new handshake.** -/
theorem setupAuto_spec (hopen : s.deviceIsOpened) (h : XoffWf s.handFlow.autoReceive s)
    (new : HandFlow) :
    XoffWf new.autoReceive (setupAutoTransmit (setupAutoReceive s new) new) ∧
      ((new.autoReceive → XoffAgrees (marks s.bufferSize new) s.charsInInterruptBuffer
        (setupAutoTransmit (setupAutoReceive s new) new)) ↔
      (s.handFlow.autoReceive → new.autoReceive →
        Agrees (marks s.bufferSize new) s.charsInInterruptBuffer s.rxXoff
          (s.rxXoff → XonPending s new))) := by
  by_cases hsame : s.handFlow.autoReceive = new.autoReceive
  · have heq : setupAutoReceive s new = s := if_neg (by simp [hopen, hsame])
    obtain ⟨hrx, hxon⟩ := setupAutoTransmit_spec hopen new
    rw [heq]
    refine ⟨setupAutoTransmit_wf (hsame ▸ h), ?_⟩
    rw [XoffAgrees, hrx, hxon, hsame]
    exact ⟨fun hall _ => hall, fun hall hsel => hall hsel hsel⟩
  · have heq : setupAutoReceive s new = changeAutoReceive s new := if_pos (.inr hsame)
    rw [heq]
    refine ⟨setupAutoTransmit_wf (changeAutoReceive_wf h), iff_of_true (fun hsel => ?_) ?_⟩
    · have hfree : s.rxXoff = false := Bool.eq_false_iff.2 fun hrx =>
        hsame ((h.only hrx).trans hsel.symm)
      have hopen' : (changeAutoReceive s new).deviceIsOpened := by
        obtain ⟨rx, xon, xoff, hchange⟩ := changeAutoReceive_eq s new
        rw [hchange]
        exact hopen
      obtain ⟨hrx, hxon⟩ := setupAutoTransmit_spec hopen' new
      obtain ⟨hheld, hfreed⟩ := changeAutoReceive_agrees hsel hfree
      rw [XoffAgrees, hrx, hxon]
      exact ⟨hheld, fun hlow hlt hrx => .inl (hfreed hlow hlt hrx)⟩
    · exact fun hold hsel => absurd (hold.trans hsel.symm) hsame

/-- **A new handshake keeps everything, exactly when what stays selected agrees with the new
limits.** -/
theorem setHandFlow_iff (h : Wf s) (hxon : new.xonLimit ≤ s.bufferSize)
    (hxoff : new.xoffLimit ≤ s.bufferSize) (toggled : Bool) :
    Wf (serialSetupNewHandFlow s new toggled) ∧
      (Held (serialSetupNewHandFlow s new toggled) ↔ Suits s (.setHandFlow new toggled)) := by
  have hdtr := setupDtr_spec h new
  have hrts := setupRts_spec h new toggled
  let t := { s with dtr := setupDtr s new, rts := setupRts s new toggled }
  have hauto := setupAuto_spec (s := t) h.opened
    ⟨h.xoff.only, h.xoff.sent, h.xoff.held, h.xoff.exclusive⟩ new
  obtain ⟨rx, xon, xoff, tx, heq⟩ := setupAuto_frame t new
  have hnew : serialSetupNewHandFlow s new toggled =
      { s with
        dtr := setupDtr s new, rts := setupRts s new toggled, rxXoff := rx, sendXonChar := xon,
        sendXoffChar := xoff, txXoff := tx, handFlow := new } := by
    rw [serialSetupNewHandFlow, heq]
  rw [heq] at hauto
  rw [hnew]
  refine ⟨{ h with
    dtr := hdtr.1
    rts := hrts.1
    xoff := ⟨hauto.1.only, hauto.1.sent, hauto.1.held, hauto.1.exclusive⟩
    xonLimit_le := hxon
    xoffLimit_le := hxoff }, ?_⟩
  constructor
  · intro hheld
    exact ⟨hdtr.2.1 hheld.dtr, hrts.2.1 hheld.rts, hauto.2.1 hheld.xoff⟩
  · rintro ⟨h1, h2, h3⟩
    exact ⟨hdtr.2.2 h1, hrts.2.2 h2, hauto.2.2 h3⟩

end Handshake

/-! ## The transmit interrupt -/

section Transmit

variable {s : Extension}

/-- **An interrupt keeps everything, exactly when it does not send an XON above the limits.** -/
theorem transmit_iff (h : Wf s) (hheld : Held s) :
    Wf (transmit s) ∧ (Held (transmit s) ↔ Suits s .transmit) := by
  rw [transmit, Suits]
  split_ifs with hxon hxoff
  · have hnot : s.sendXoffChar = false := Bool.eq_false_iff.2 fun hoff =>
      h.xoff.exclusive ⟨hxon.1, hoff⟩
    refine ⟨{ h with
      xoff := ⟨(fun h => nomatch h), (fun h => nomatch h), ?_, fun h => nomatch h.1⟩ }, ?_⟩
    · rintro (hoff | ⟨hsent, -⟩)
      · exact absurd (hnot.symm.trans hoff) Bool.false_ne_true
      · exact nomatch hsent
    · constructor
      · intro hheld' _ hsel hhigh
        by_contra hlow
        exact nomatch (hheld'.xoff hsel).held hhigh (Nat.not_le.1 hlow)
      · intro hlow
        refine ⟨hheld.dtr, hheld.rts, fun hsel => ⟨fun hhigh hlt => ?_, fun _ _ hrx => nomatch hrx⟩⟩
        exact absurd (hlow hxon hsel hhigh) (Nat.not_le.2 hlt)
  · refine ⟨{ h with
      xoff := ⟨h.xoff.only, fun _ => .inr (.inr rfl), ?_, fun h => nomatch h.2⟩ }, ?_⟩
    · exact fun _ => h.xoff.held (.inl hxoff.1)
    · exact iff_of_true ⟨hheld.dtr, hheld.rts, hheld.xoff⟩ fun h => absurd h hxon
  · exact ⟨h, iff_of_true hheld fun h => absurd h hxon⟩

end Transmit

/-! ## Runs -/

/-- **One step**: it keeps what every step keeps and does what it has to, and it leaves the holds
in agreement exactly when it suits. -/
theorem effect_spec {s : Extension} {e : Event} (h : Wf s) (hheld : Held s) (hen : Enabled s e) :
    Wf (effect s e) ∧ (Held (effect s e) ↔ Suits s e) ∧ After s e (effect s e) := by
  cases e with
  | receive =>
    obtain ⟨hwf, hheld', hall⟩ := receive_good h hheld
    exact ⟨hwf, iff_of_true hheld' trivial, hall⟩
  | update charsCopied =>
    obtain ⟨hwf, hheld'⟩ := drain_good h hheld (Nat.sub_le s.charsInInterruptBuffer charsCopied)
    exact ⟨hwf, iff_of_true hheld' trivial, released_drain⟩
  | switchToUser charsCopied needed =>
    obtain ⟨hwf, hheld'⟩ := switchToUser_good h hheld charsCopied needed
    refine ⟨hwf, iff_of_true hheld' trivial, fun hlow => ?_⟩
    obtain ⟨hdtr, hrts, hxoff⟩ := released_drain hlow
    exact ⟨hdtr, hrts, hxoff⟩
  | grab =>
    obtain ⟨hwf, hheld'⟩ := grab_good h hheld
    exact ⟨hwf, iff_of_true hheld' trivial, trivial⟩
  | purge =>
    by_cases hroom : s.userRoom = 0
    · have heq : effect s .purge = serialHandleReducedIntBuffer (s.withChars 0) := if_pos hroom
      obtain ⟨hwf, hheld'⟩ := drain_good h hheld (Nat.zero_le _)
      rw [heq]
      exact ⟨hwf, iff_of_true hheld' trivial, fun _ => released_drain⟩
    · have heq : effect s .purge = s := if_neg hroom
      rw [heq]
      exact ⟨h, iff_of_true hheld trivial, fun h0 => absurd h0 hroom⟩
  | resize newBufferSize =>
    obtain ⟨hwf, hiff⟩ := resize_iff h hen.2
    refine ⟨hwf, hiff, fun hlow => ?_⟩
    have hlow : (serialHandleReducedIntBuffer _).charsInInterruptBuffer ≤
      (serialHandleReducedIntBuffer _).marks.low := hlow
    rw [reduced_chars, reduced_marks] at hlow
    exact released_reduced hlow
  | setHandFlow new toggled =>
    obtain ⟨hwf, hiff⟩ := setHandFlow_iff h hen.1 hen.2 toggled
    exact ⟨hwf, hiff, trivial⟩
  | transmit =>
    obtain ⟨hwf, hiff⟩ := transmit_iff h hheld
    exact ⟨hwf, hiff, trivial⟩
  | hold xoff other =>
    refine ⟨{ h with xoff := ⟨h.xoff.only, h.xoff.sent, h.xoff.held, h.xoff.exclusive⟩ },
      iff_of_true ⟨hheld.dtr, hheld.rts, hheld.xoff⟩ trivial, trivial⟩

/-- A step is good exactly when it suits. -/
theorem good_iff {s : Extension} (e : Event) (h : Wf s ∧ Held s) : Good s e ↔ Sound s e := by
  constructor
  · intro hgood hen
    obtain ⟨-, hheld, -⟩ := hgood _ (Machine.guarded_step.2 ⟨hen, rfl⟩)
    exact (effect_spec h.1 h.2 hen).2.1.1 hheld
  · intro hsound s' hs'
    obtain ⟨hen, rfl⟩ := Machine.guarded_step.1 hs'
    obtain ⟨hwf, hiff, hafter⟩ := effect_spec h.1 h.2 hen
    exact ⟨hwf, hiff.2 (hsound hen), hafter⟩

/-- **An open device has all of it.** -/
theorem opened_good (h : HandFlow) (bufferSize : Nat) (dtr rts toggled : Bool) :
    Wf (opened h bufferSize dtr rts toggled) ∧ Held (opened h bufferSize dtr rts toggled) := by
  have heighth : bufferSize >>> 3 = bufferSize / 8 := Nat.shiftRight_eq_div_pow bufferSize 3
  have hhalf : bufferSize >>> 1 = bufferSize / 2 := Nat.shiftRight_eq_div_pow bufferSize 1
  let new := defaultLimits h bufferSize
  let s := { closed h bufferSize dtr rts with
    dtr := changeDtr (closed h bufferSize dtr rts) new
    rts := changeRts (closed h bufferSize dtr rts) new toggled }
  have hxoff : XoffWf false s :=
    ⟨(fun h => nomatch h), (fun h => nomatch h),
      (by rintro (h | ⟨h, -⟩) <;> exact nomatch h), fun h => nomatch h.1⟩
  have hchange : XoffWf new.autoReceive (changeAutoReceive s new) := changeAutoReceive_wf hxoff
  have hagrees : new.autoReceive →
      XoffAgrees (marks bufferSize new) 0 (changeAutoReceive s new) :=
    fun hsel => changeAutoReceive_agrees (s := s) hsel rfl
  have hdtr : new.dtr = .handshake → LineAgrees (marks bufferSize new) 0 s.dtr :=
    fun hsel => changeDtr_agrees (s := closed h bufferSize dtr rts) hsel rfl
  have hrts : new.rts = .handshake → LineAgrees (marks bufferSize new) 0 s.rts :=
    fun hsel => changeRts_agrees (s := closed h bufferSize dtr rts) hsel rfl toggled
  obtain ⟨rx, xon, xoff, heq⟩ := changeAutoReceive_eq s new
  have hopened : opened h bufferSize dtr rts toggled = { s with
      deviceIsOpened := true, rxXoff := rx, sendXonChar := xon, sendXoffChar := xoff } := by
    have hreceive : setupAutoReceive s new = { s with
        rxXoff := rx, sendXonChar := xon, sendXoffChar := xoff } := (if_pos (.inl rfl)).trans heq
    have htransmit : setupAutoTransmit { s with
        rxXoff := rx, sendXonChar := xon, sendXoffChar := xoff } new =
        { s with rxXoff := rx, sendXonChar := xon, sendXoffChar := xoff } :=
      if_neg fun h => nomatch h.2.2
    have hsetup : serialSetupNewHandFlow (closed h bufferSize dtr rts) new toggled =
        { setupAutoTransmit (setupAutoReceive s new) new with handFlow := new } := rfl
    rw [opened, hsetup, hreceive, htransmit]
    rfl
  rw [heq] at hchange hagrees
  rw [hopened]
  refine ⟨?_, hdtr, hrts, hagrees⟩
  constructor
  · rfl
  · exact changeDtr_wf fun _ => rfl
  · exact changeRts_wf (fun _ => rfl) toggled
  · exact ⟨hchange.only, hchange.sent, hchange.held, hchange.exclusive⟩
  · show bufferSize >>> 1 ≤ bufferSize
    omega
  · show bufferSize >>> 3 ≤ bufferSize
    omega
  · exact Nat.zero_le _
  · exact fun _ => rfl

/-- **A run of an open device is good in every step exactly when every step suits.** -/
theorem flowControl_iff (h : HandFlow) (bufferSize : Nat) (dtr rts toggled : Bool)
    (events : List Event) :
    machine.AllOk Good (opened h bufferSize dtr rts toggled) events ↔
      machine.AllOk Sound (opened h bufferSize dtr rts toggled) events := by
  refine Machine.allOk_congr (P := fun s => Wf s ∧ Held s) (fun s e h => good_iff e h) ?_
    (opened_good h bufferSize dtr rts toggled)
  intro s e s' _ hgood hs'
  obtain ⟨hwf, hheld, -⟩ := hgood s' hs'
  exact ⟨hwf, hheld⟩

/-- A run whose steps are good ends with the holds in agreement. -/
theorem held_of_reach {s : Extension} (h : machine.Reach Good s) : Wf s ∧ Held s := by
  refine h.inv (P := fun s => Wf s ∧ Held s) ?_ fun s e s' _ hgood hs' => ?_
  · rintro s ⟨h, bufferSize, dtr, rts, toggled, rfl⟩
    exact opened_good h bufferSize dtr rts toggled
  · obtain ⟨hwf, hheld, -⟩ := hgood s' hs'
    exact ⟨hwf, hheld⟩

/-! ## Three failures -/

/-- Both limits are passed, and DTR or the XOFF does not hold. -/
def broken (s : Extension) : Bool :=
  s.marks.high ≤ s.charsInInterruptBuffer && s.marks.low < s.charsInInterruptBuffer &&
    (s.handFlow.dtr = .handshake && !s.dtr.holding || s.handFlow.autoReceive && !s.rxXoff)

theorem not_held_of_broken {s : Extension} (h : broken s = true) : ¬Held s := by
  intro hheld
  simp only [broken, Bool.and_eq_true, Bool.or_eq_true, decide_eq_true_eq, Bool.not_eq_true'] at h
  obtain ⟨⟨hhigh, hlow⟩, ⟨hsel, hfree⟩ | ⟨hsel, hfree⟩⟩ := h
  · exact Bool.false_ne_true (hfree.symm.trans ((hheld.dtr hsel).held hhigh hlow))
  · exact Bool.false_ne_true (hfree.symm.trans ((hheld.xoff hsel).held hhigh hlow))

theorem not_good_of_broken {s : Extension} {events : List Event} (hs : machine.init s)
    (h : (machine.exec s events).any broken = true) : ¬machine.AllOk Good s events := by
  intro hgood
  obtain ⟨s', hexec, hbroken⟩ := (Option.any_eq_true _ _).1 h
  exact not_held_of_broken hbroken (held_of_reach (.exec (.init hs) hgood hexec)).2

/-- A device that is opened with the smallest buffer, of 128 bytes; the limits are 16 and 64. -/
def sample (h : HandFlow) : Extension := opened h 128 false false false

/-- DTR, with these limits. -/
def sampleDtr (xonLimit xoffLimit : Nat) : HandFlow :=
  ⟨.handshake, .off, false, false, false, xonLimit, xoffLimit⟩

/-- Automatic receive flow control. -/
def sampleXoff : HandFlow := ⟨.off, .off, true, false, false, 64, 16⟩

/-- The limits change. -/
def changedRun : List Event := .replicate 4 .receive ++ [.setHandFlow (sampleDtr 1 126) false]

/-- The buffer becomes larger. -/
def resizedRun : List Event :=
  .setHandFlow (sampleDtr 64 0) false :: .replicate 127 .receive ++ [.resize 136]

/-- The buffer is read, which makes an XON pending, and fills again before that is sent. -/
def refilledRun : List Event :=
  .replicate 112 .receive ++ [.update 80] ++ .replicate 96 .receive ++ [.transmit]

/-- **Only the limits change, and DTR stays up although the free space is below the new one**; a
larger buffer gets a larger limit, and DTR stays up; an XON that waits is sent after the buffer has
filled again. -/
theorem flowControl_fails :
    (((machine.exec (sample (sampleDtr 64 16)) changedRun).map fun s =>
        (s.bufferSize - s.charsInInterruptBuffer, s.handFlow.xoffLimit, s.dtr)) =
      some (124, 126, ⟨false, true⟩) ∧
    ¬machine.AllOk Good (sample (sampleDtr 64 16)) changedRun) ∧
    (((machine.exec (sample (sampleDtr 64 16)) resizedRun).map fun s =>
        (s.bufferSize - s.charsInInterruptBuffer, s.handFlow.xoffLimit, s.dtr)) =
      some (9, 17, ⟨false, true⟩) ∧
    ¬machine.AllOk Good (sample (sampleDtr 64 16)) resizedRun) ∧
    ((machine.exec (sample sampleXoff) refilledRun).map fun s =>
        (s.bufferSize - s.charsInInterruptBuffer, s.handFlow.xoffLimit, s.rxXoff, s.lastSent)) =
      some (0, 16, false, some .xon) ∧
    ¬machine.AllOk Good (sample sampleXoff) refilledRun := by
  have hinit : ∀ h, machine.init (sample h) := fun h => ⟨h, 128, false, false, false, rfl⟩
  refine ⟨⟨by decide +kernel, ?_⟩, ⟨by decide +kernel, ?_⟩, by decide +kernel, ?_⟩
  · exact not_good_of_broken (hinit _) (by decide +kernel)
  · exact not_good_of_broken (hinit _) (by decide +kernel)
  · exact not_good_of_broken (hinit _) (by decide +kernel)

end RpiDrivers.MiniUart.FlowControl
