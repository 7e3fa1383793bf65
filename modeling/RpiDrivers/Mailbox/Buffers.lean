import RpiDrivers.Mailbox.Property
import Mathlib.Data.Nat.Bitwise

/-!
# Who has a property buffer

A buffer is written to the mailbox once and answered once (`BufferInv`). Until the query for the MAC
address is done there is nothing else in the mailbox (`MacInv`), so that it finds its own answer.

- `BufferInv.pending_of_answered`: the firmware does not get a buffer again.
- `BufferInv.free`: a buffer can be freed when the firmware does not have it.
- `MacInv.pollMac_answered`: the query recognizes its answer.
-/

namespace RpiDrivers.Mailbox

open RpiDrivers.Lib

/-! ## Who has a buffer -/

/-- The buffer that a call is going to write. -/
def Call.buffer : Call → Option Buffer
  | .allocate _ => none
  | .acquire w | .poll w _ | .forward w | .write w => w.buffer

/-- The call is going to hand the buffer to the firmware. -/
def Call.hands (b : Buffer) : Call → Nat
  | .allocate r => if b = .request r then 1 else 0
  | .acquire w | .poll w _ | .forward w | .write w => if w.buffer = some b then 1 else 0

def Message.hands (b : Buffer) (m : Message) : Nat := if m.buffer = some b then 1 else 0

theorem Call.hands_of_buffer {c : Call} {b : Buffer} (h : b ∈ c.buffer) : c.hands b = 1 := by
  cases c with
  | allocate r => exact nomatch h
  | acquire w | poll w _ | forward w | write w => exact if_pos h

theorem Message.hands_of_buffer {m : Message} {b : Buffer} (h : b ∈ m.buffer) : m.hands b = 1 :=
  if_pos h

/-- How often the buffer will be handed to the firmware, or is there. -/
def pendingOf (b : Buffer) (calls : List Call) (sent : List Message) : Nat :=
  total (Call.hands b) calls + total (Message.hands b) sent

theorem pendingOf_advance (b : Buffer) {calls : List Call} {c : Call} (hc : c ∈ calls)
    (next : List Call) (sent : List Message) :
    pendingOf b (advance calls c next) sent + c.hands b =
      pendingOf b calls sent + total (Call.hands b) next := by
  have hsum := sum_advance (Call.hands b) hc next
  rw [pendingOf, pendingOf]
  omega

theorem pendingOf_cons (b : Buffer) (c : Call) (calls : List Call) (sent : List Message) :
    pendingOf b (c :: calls) sent = pendingOf b calls sent + c.hands b := by
  rw [pendingOf, pendingOf, total_cons]
  omega

theorem pendingOf_send (b : Buffer) (calls : List Call) (sent : List Message) (m : Message) :
    pendingOf b calls (sent ++ [m]) = pendingOf b calls sent + m.hands b := by
  rw [pendingOf, pendingOf, total_append, total_cons, total_nil]
  omega

theorem pendingOf_answer (b : Buffer) (calls : List Call) {sent : List Message} {m : Message}
    (hm : m ∈ sent) :
    pendingOf b calls (advance sent m []) + m.hands b = pendingOf b calls sent := by
  have hsum := sum_advance (Message.hands b) hm []
  rw [total_nil] at hsum
  rw [pendingOf, pendingOf]
  omega

namespace Rpiq

variable {s : Rpiq}

def pending (s : Rpiq) (b : Buffer) : Nat := pendingOf b s.calls s.sent

/-- A buffer that has been allocated is handed to the firmware once. -/
def handed (s : Rpiq) : Buffer → Nat
  | .mac => if s.mac = .notStarted then 0 else 1
  | .request r => if r < s.issued then 1 else 0

theorem handed_le (s : Rpiq) (b : Buffer) : s.handed b ≤ 1 := by
  cases b <;> simp only [handed] <;> split_ifs <;> omega

end Rpiq

/-- A buffer that the firmware has, or is about to get, is allocated, and it gets it once. -/
structure BufferInv (s : Rpiq) : Prop where
  handed : ∀ b, s.pending b + s.answered.count b ≤ s.handed b
  calls : ∀ c ∈ s.calls, ∀ b ∈ c.buffer, b ∈ s.live
  sent : ∀ m ∈ s.sent, ∀ b ∈ m.buffer, b ∈ s.live

namespace BufferInv

variable {s : Rpiq}

/-- The firmware does not get a buffer again that it has answered. -/
theorem pending_of_answered (h : BufferInv s) {b : Buffer} (hb : b ∈ s.answered) :
    s.pending b = 0 := by
  have hcount := List.count_pos_iff.2 hb
  have hle := h.handed b
  have hone := s.handed_le b
  omega

/-- A buffer can be freed when the firmware does not have it. -/
theorem free (h : BufferInv s) {b : Buffer} (hb : s.pending b = 0) : BufferInv (s.free b) := by
  rw [Rpiq.pending, pendingOf] at hb
  refine ⟨h.handed, fun c hc b' hb' => ?_, fun m hm b' hb' => ?_⟩
  · refine List.mem_filter.2 ⟨h.calls c hc b' hb', decide_eq_true fun heq => ?_⟩
    have hle : c.hands b' ≤ total (Call.hands b') s.calls := le_total _ hc
    rw [Call.hands_of_buffer hb', heq] at hle
    omega
  · refine List.mem_filter.2 ⟨h.sent m hm b' hb', decide_eq_true fun heq => ?_⟩
    have hle : m.hands b' ≤ total (Message.hands b') s.sent := le_total _ hm
    rw [Message.hands_of_buffer hb', heq] at hle
    omega

theorem complete (h : BufferInv s) {r : Nat} (hr : s.pending (.request r) = 0) (status : Status)
    (copied : Option Buffer) : BufferInv (s.complete r status copied) :=
  have hfree := h.free hr
  ⟨hfree.handed, hfree.calls, hfree.sent⟩

/-- A call goes on, with the same buffer or without it. -/
theorem goOn (h : BufferInv s) {c : Call} (hc : c ∈ s.calls) {n : List Call}
    (hhands : ∀ b, total (Call.hands b) n ≤ c.hands b)
    (hlive : ∀ c' ∈ n, ∀ b ∈ c'.buffer, b ∈ s.live) : BufferInv (s.goOn c n) := by
  refine ⟨fun b => ?_, fun c' hc' b hb => ?_, h.sent⟩
  · have hadvance := pendingOf_advance b hc n s.sent
    have hle := h.handed b
    have hh := hhands b
    show pendingOf b (advance s.calls c n) s.sent + s.answered.count b ≤ s.handed b
    rw [Rpiq.pending] at hle
    omega
  · rcases mem_advance hc' with hn | hs
    · exact hlive c' hn b hb
    · exact h.calls c' hs b hb

/-- When a call ends before it has written its buffer, the firmware will not get it. -/
theorem pending_goOn (h : BufferInv s) {c : Call} (hc : c ∈ s.calls) {b : Buffer}
    (hb : c.hands b = 1) : (s.goOn c []).pending b = 0 := by
  have hadvance := pendingOf_advance b hc [] s.sent
  have hle := h.handed b
  have hone := s.handed_le b
  show pendingOf b (advance s.calls c []) s.sent = 0
  rw [Rpiq.pending] at hle
  rw [total_nil] at hadvance
  omega

/-- The rest of the state does not matter, and more may have been allocated. -/
theorem mono (h : BufferInv s) {s' : Rpiq} (hcalls : s'.calls = s.calls) (hsent : s'.sent = s.sent)
    (hanswered : s'.answered = s.answered) (hlive : ∀ b ∈ s.live, b ∈ s'.live)
    (hhanded : ∀ b, s.handed b ≤ s'.handed b) : BufferInv s' := by
  refine ⟨fun b => ?_, fun c hc b hb => ?_, fun m hm b hb => ?_⟩
  · rw [Rpiq.pending, hcalls, hsent, hanswered]
    exact (h.handed b).trans (hhanded b)
  · rw [hcalls] at hc
    exact hlive b (h.calls c hc b hb)
  · rw [hsent] at hm
    exact hlive b (h.sent m hm b hb)

theorem failWrite (h : BufferInv s) {c : Call} (hc : c ∈ s.calls) {w : Write}
    (hhands : ∀ b, c.hands b = if w.buffer = some b then 1 else 0) (status : Status) :
    BufferInv (s.failWrite c w status) := by
  have hgo : BufferInv (s.goOn c []) :=
    h.goOn hc (fun b => Nat.zero_le _) fun c' hc' => nomatch hc'
  have hunlock : BufferInv { s.goOn c [] with writeLock := false } :=
    hgo.mono rfl rfl rfl (fun _ hb => hb) fun _ => le_refl _
  cases hw : w.writer with
  | mac =>
    have hpending := h.pending_goOn hc (b := .mac) (by rw [hhands, Write.buffer, hw]; rfl)
    simp only [Rpiq.failWrite, hw]
    refine (hunlock.free hpending).mono rfl rfl rfl (fun _ hb => hb) fun b => ?_
    cases b with
    | mac => simpa [Rpiq.handed] using Rpiq.handed_le _ .mac
    | request r => exact le_refl _
  | property r =>
    have hpending := h.pending_goOn hc (b := .request r) (by rw [hhands, Write.buffer, hw]; simp)
    simp only [Rpiq.failWrite, hw]
    exact hunlock.complete hpending status none
  | vchiq =>
    simp only [Rpiq.failWrite, hw]
    exact hunlock

/-- A call goes on with its buffer. -/
theorem next (h : BufferInv s) {c : Call} (hc : c ∈ s.calls) {n : Call}
    (hbuffer : n.buffer = c.buffer) (hhands : ∀ b, n.hands b = c.hands b) :
    BufferInv (s.goOn c [n]) := by
  refine h.goOn hc (fun b => ?_) fun c' hc' => ?_
  · rw [total_cons, total_nil, hhands]
    exact le_refl _
  · rw [List.mem_singleton.1 hc', hbuffer]
    exact h.calls c hc

theorem acquire (h : BufferInv s) {w : Write} (hc : .acquire w ∈ s.calls) :
    BufferInv (s.acquire w) :=
  (h.next hc (n := .poll w 0) rfl fun _ => rfl).mono rfl rfl rfl (fun _ hb => hb)
    fun _ => le_refl _

theorem poll (h : BufferInv s) {w : Write} {count : Nat} (hc : .poll w count ∈ s.calls)
    (full : Bool) : BufferInv (s.poll w count full) := by
  rw [Rpiq.poll]
  split_ifs with hfull hcount
  · exact h.failWrite hc (fun _ => rfl) _
  · exact h.next hc rfl fun _ => rfl
  · exact h.next hc rfl fun _ => rfl

theorem forward (h : BufferInv s) {w : Write} (hc : .forward w ∈ s.calls) (success : Bool) :
    BufferInv (s.forward w success) := by
  have hgo : BufferInv (s.goOn (.forward w) [.write w]) := h.next hc rfl fun _ => rfl
  rw [Rpiq.forward]
  split
  · split_ifs
    · exact hgo.mono rfl rfl rfl (fun _ hb => hb) fun _ => le_refl _
    · exact h.failWrite hc (fun _ => rfl) _
  · exact hgo
  · exact hgo

/-- The buffer goes from the call to the firmware. -/
theorem write (h : BufferInv s) {w : Write} (hc : .write w ∈ s.calls) : BufferInv (s.write w) := by
  refine ⟨fun b => ?_, fun c' hc' b hb => ?_, fun m hm b hb => ?_⟩
  · have hsame : (s.write w).pending b = s.pending b := by
      have hadvance := pendingOf_advance b hc [] s.sent
      rw [total_nil] at hadvance
      have hsend := pendingOf_send b (advance s.calls (.write w) []) s.sent
        ⟨withoutChannel w.value ||| w.channel, w.buffer⟩
      exact hsend.trans hadvance
    have hmac : s.handed b ≤ (s.write w).handed b := by
      cases b with
      | request r => exact le_refl _
      | mac =>
        by_cases hw : w.writer = .mac
        · have hone : (s.write w).handed .mac = 1 := by simp [Rpiq.handed, Rpiq.write, hw]
          rw [hone]
          exact s.handed_le .mac
        · simp [Rpiq.handed, Rpiq.write, hw]
    rw [hsame]
    exact (h.handed b).trans hmac
  · rcases mem_advance hc' with hn | hs
    · exact nomatch hn
    · exact h.calls c' hs b hb
  · rcases List.mem_append.1 hm with hs | hnew
    · exact h.sent m hs b hb
    · rw [List.mem_singleton.1 hnew] at hb
      exact h.calls _ hc b hb

/-- The buffer comes back. -/
theorem answer (h : BufferInv s) {m : Message} (hm : m ∈ s.sent) : BufferInv (s.answer m) := by
  refine ⟨fun b => ?_, h.calls, fun m' hm' b hb => ?_⟩
  · have hback := pendingOf_answer b s.calls hm
    have hcount : (s.answered ++ m.buffer.toList).count b = s.answered.count b + m.hands b := by
      rw [List.count_append, Message.hands]
      cases m.buffer with
      | none => simp
      | some b' => simp [List.count_singleton]
    have hle := h.handed b
    show pendingOf b s.calls (advance s.sent m []) + (s.answered ++ m.buffer.toList).count b ≤
      s.handed b
    rw [Rpiq.pending] at hle
    omega
  · rcases mem_advance hm' with hn | hs
    · exact nomatch hn
    · exact h.sent m' hs b hb

theorem allocate (h : BufferInv s) {r : Nat} (hc : .allocate r ∈ s.calls) (memory : Option Nat) :
    BufferInv (s.allocate r memory) := by
  cases memory with
  | none =>
    have hgo : BufferInv (s.goOn (.allocate r) []) :=
      h.goOn hc (fun b => Nat.zero_le _) fun c' hc' => nomatch hc'
    exact hgo.complete (h.pending_goOn hc (if_pos rfl)) _ _
  | some address =>
    have hlive : BufferInv { s with live := .request r :: s.live } :=
      h.mono rfl rfl rfl (fun b hb => List.mem_cons_of_mem _ hb) fun _ => le_refl _
    have hgo := hlive.goOn hc
      (n := [.acquire ⟨.property r, channelPropertyArmVc, busAddress address⟩])
      (fun b => le_of_eq (by simp [Call.hands, Write.buffer, eq_comm])) fun c' hc' b hb => by
        rw [List.mem_singleton.1 hc'] at hb
        obtain rfl := Option.some.inj hb
        exact List.mem_cons_self
    exact hgo

/-- Nobody has the buffer of a request that has not come yet. -/
theorem pending_issued (h : BufferInv s) : s.pending (.request s.issued) = 0 := by
  have hle := h.handed (.request s.issued)
  rw [Rpiq.handed, if_neg (lt_irrefl _)] at hle
  omega

theorem ioctlProperty (h : BufferInv s) (i : PropertyIoctl) : BufferInv (s.ioctlProperty i) := by
  have hle : ∀ b, s.handed b ≤ { s with issued := s.issued + 1 }.handed b := by
    intro b
    cases b with
    | mac => exact le_refl _
    | request r =>
      simp only [Rpiq.handed]
      split_ifs <;> omega
  have hissued : BufferInv { s with issued := s.issued + 1 } :=
    h.mono rfl rfl rfl (fun _ hb => hb) hle
  by_cases hcheck : i.check = .success
  · rw [Rpiq.ioctlProperty, if_pos hcheck]
    refine ⟨fun b => ?_, fun c hc b hb => ?_, h.sent⟩
    · have hcons := pendingOf_cons b (.allocate s.issued) s.calls s.sent
      have hold := h.handed b
      have hold' := hle b
      show pendingOf b (.allocate s.issued :: s.calls) s.sent + s.answered.count b ≤
        { s with issued := s.issued + 1 }.handed b
      rw [hcons]
      by_cases hb : b = .request s.issued
      · subst hb
        rw [Rpiq.handed, if_neg (lt_irrefl _)] at hold
        rw [Rpiq.handed, if_pos (Nat.lt_succ_self _), Call.hands, if_pos rfl]
        rw [Rpiq.pending] at hold
        omega
      · rw [Call.hands, if_neg hb]
        rw [Rpiq.pending] at hold
        omega
    · rcases List.mem_cons.1 hc with rfl | hs
      · exact nomatch hb
      · exact h.calls c hs b hb
  · rw [Rpiq.ioctlProperty, if_neg hcheck]
    exact hissued.complete h.pending_issued _ _

theorem ioctlVchiq (h : BufferInv s) (channel value : Nat) :
    BufferInv (s.ioctlVchiq channel value) := by
  refine ⟨fun b => ?_, fun c hc b hb => ?_, h.sent⟩
  · have hcons := pendingOf_cons b (.acquire ⟨.vchiq, channel, value⟩) s.calls s.sent
    exact (congrArg (· + s.answered.count b) hcons).le.trans (h.handed b)
  · rcases List.mem_cons.1 hc with rfl | hs
    · exact nomatch hb
    · exact h.calls c hs b hb

theorem startMac (h : BufferInv s) (hmac : s.mac = .notStarted) (memory : Option Nat) :
    BufferInv (s.startMac memory) := by
  have hle := h.handed .mac
  rw [Rpiq.handed, if_pos hmac] at hle
  cases memory with
  | none =>
    refine h.mono rfl rfl rfl (fun _ hb => hb) fun b => ?_
    cases b with
    | mac => simp [Rpiq.handed, Rpiq.startMac, hmac]
    | request r => exact le_refl _
  | some address =>
    refine ⟨fun b => ?_, fun c hc b hb => ?_, fun m hm b hb => ?_⟩
    · have hcons := pendingOf_cons b
        (.acquire ⟨.mac, channelPropertyArmVc, busAddress address⟩) s.calls s.sent
      have hold := h.handed b
      refine (congrArg (· + s.answered.count b) hcons).le.trans ?_
      rw [Rpiq.pending] at hold hle
      cases b with
      | mac =>
        have hone : (s.startMac (some address)).handed .mac = 1 := rfl
        have hhands : Call.hands .mac
            (.acquire ⟨.mac, channelPropertyArmVc, busAddress address⟩) = 1 := rfl
        rw [hone, hhands]
        omega
      | request r =>
        have hsame : (s.startMac (some address)).handed (.request r) = s.handed (.request r) := rfl
        rw [hsame, Call.hands, if_neg (by simp [Write.buffer])]
        omega
    · rcases List.mem_cons.1 hc with rfl | hs
      · obtain rfl := Option.some.inj hb
        exact List.mem_cons_self
      · exact List.mem_cons_of_mem _ (h.calls c hs b hb)
    · exact List.mem_cons_of_mem _ (h.sent m hm b hb)

end BufferInv

/-! ## The query for the MAC address -/

/-- The arguments of the call that is writing. -/
def Call.write? : Call → Option Write
  | .allocate _ => none
  | .acquire w | .poll w _ | .forward w | .write w => some w

/-- What the query writes, when its buffer is at `address`. -/
def macWrite (address : Nat) : Write := ⟨.mac, channelPropertyArmVc, busAddress address⟩

/-- What the firmware gets from it. -/
def macMessage (address : Nat) : Message :=
  ⟨withoutChannel (busAddress address) ||| channelPropertyArmVc, some .mac⟩

/-- The answer to the query has its address. -/
theorem withoutChannel_macMessage {address : Nat} (h : address % 4096 = 0) :
    withoutChannel (macMessage address).value = busAddress address := by
  have hbus : busAddress address % 16 = 0 := by
    unfold busAddress
    omega
  have hsame : withoutChannel (busAddress address) = busAddress address := by
    unfold withoutChannel
    omega
  have hor : busAddress address ||| channelPropertyArmVc = busAddress address + 8 := by
    have hlow : (8 : Nat) < 2 ^ 4 := by decide
    have hadd := Nat.two_pow_add_eq_or_of_lt hlow (busAddress address / 16)
    have hmul : 2 ^ 4 * (busAddress address / 16) = busAddress address := by omega
    rw [hmul] at hadd
    exact hadd.symm
  show withoutChannel (withoutChannel (busAddress address) ||| channelPropertyArmVc) = _
  rw [hsame, hor, withoutChannel]
  omega

/-- The empty mailbox does not read as the address. -/
theorem busAddress_ne_zero {address : Nat} (h : address < 0x40000000) : busAddress address ≠ 0 := by
  unfold busAddress
  omega

/-- Until it is done, there is nothing but the query. -/
def Rpiq.Phase (s : Rpiq) : Mac → Prop
  | .notStarted => s.calls = [] ∧ s.sent = [] ∧ s.inbox = []
  | .writing =>
    (∃ c, s.calls = [c] ∧ c.write? = some (macWrite s.macAddress)) ∧ s.sent = [] ∧ s.inbox = []
  | .waiting n =>
    0 < n ∧ s.calls = [] ∧ (s.sent = [macMessage s.macAddress] ∧ s.inbox = [] ∨
      s.sent = [] ∧ s.inbox = [macMessage s.macAddress])
  | .done => ∀ c ∈ s.calls, ∀ w ∈ c.write?, w.writer ≠ .mac

/-- Where the query is, and its buffer. -/
structure MacInv (s : Rpiq) : Prop where
  aligned : s.macAddress % 4096 = 0
  low : s.macAddress < 0x40000000
  phase : s.Phase s.mac

namespace MacInv

variable {s : Rpiq}

/-- Steps of the others leave the query where it is. -/
theorem frame (h : MacInv s) {s' : Rpiq} (hmac : s'.mac = s.mac)
    (haddress : s'.macAddress = s.macAddress) (hcalls : s'.calls = s.calls)
    (hsent : s'.sent = s.sent) (hinbox : s'.inbox = s.inbox) : MacInv s' := by
  refine ⟨?_, ?_, ?_⟩
  · rw [haddress]
    exact h.aligned
  · rw [haddress]
    exact h.low
  · have hphase := h.phase
    rw [hmac]
    cases hm : s.mac <;> rw [hm] at hphase <;>
      simpa only [Rpiq.Phase, haddress, hcalls, hsent, hinbox] using hphase

/-- When the query is done, its buffer is not written again. -/
theorem done (h : MacInv s) {s' : Rpiq} (hmac : s'.mac = .done)
    (haddress : s'.macAddress = s.macAddress)
    (hcalls : ∀ c ∈ s'.calls, ∀ w ∈ c.write?, w.writer ≠ .mac) : MacInv s' := by
  refine ⟨?_, ?_, ?_⟩
  · rw [haddress]
    exact h.aligned
  · rw [haddress]
    exact h.low
  · rw [hmac]
    exact hcalls

/-- A call is that of the query, or the query is done. -/
theorem call (h : MacInv s) {c : Call} (hc : c ∈ s.calls) :
    (s.mac = .writing ∧ s.calls = [c] ∧ c.write? = some (macWrite s.macAddress) ∧ s.sent = [] ∧
      s.inbox = []) ∨ (s.mac = .done ∧ ∀ c ∈ s.calls, ∀ w ∈ c.write?, w.writer ≠ .mac) := by
  have hphase := h.phase
  cases hm : s.mac with
  | notStarted =>
    rw [hm] at hphase
    rw [hphase.1] at hc
    exact nomatch hc
  | writing =>
    rw [hm] at hphase
    obtain ⟨⟨c', hcalls, hwrite⟩, hsent, hinbox⟩ := hphase
    rw [hcalls] at hc
    obtain rfl := List.mem_singleton.1 hc
    exact .inl ⟨rfl, hcalls, hwrite, hsent, hinbox⟩
  | waiting n =>
    rw [hm] at hphase
    rw [hphase.2.1] at hc
    exact nomatch hc
  | done =>
    rw [hm] at hphase
    exact .inr ⟨rfl, hphase⟩

/-- A call goes on with what it is writing. -/
theorem next (h : MacInv s) {c : Call} (hc : c ∈ s.calls) {n : Call} (hn : n.write? = c.write?) :
    MacInv (s.goOn c [n]) := by
  refine ⟨h.aligned, h.low, ?_⟩
  rcases h.call hc with ⟨hmac, hcalls, hwrite, hsent, hinbox⟩ | ⟨hmac, hother⟩
  · have hsingle : (s.goOn c [n]).calls = [n] := by simp [Rpiq.goOn, advance, hcalls]
    show (s.goOn c [n]).Phase s.mac
    rw [hmac]
    exact ⟨⟨n, hsingle, hn.trans hwrite⟩, hsent, hinbox⟩
  · show (s.goOn c [n]).Phase s.mac
    rw [hmac]
    intro c' hc'
    rcases mem_advance hc' with hnew | hs
    · rw [List.mem_singleton.1 hnew, hn]
      exact hother c hc
    · exact hother c' hs

/-- When a call of another ends, the query is done. -/
theorem goOn_nil (h : MacInv s) {c : Call} (hc : c ∈ s.calls)
    (hw : ∀ w ∈ c.write?, w.writer ≠ .mac) : s.mac = .done ∧ MacInv (s.goOn c []) := by
  rcases h.call hc with ⟨hmac, hcalls, hwrite, hsent, hinbox⟩ | ⟨hmac, hother⟩
  · exact absurd rfl (hw _ hwrite)
  · refine ⟨hmac, h.done hmac rfl fun c' hc' => ?_⟩
    rcases mem_advance hc' with hnew | hs
    · exact nomatch hnew
    · exact hother c' hs

/-- When the call of the query ends, there is no other. -/
theorem calls_goOn_nil (h : MacInv s) {c : Call} (hc : c ∈ s.calls) {w : Write}
    (hwrite : c.write? = some w) (hw : w.writer = .mac) :
    (s.goOn c []).calls = [] ∧ s.sent = [] ∧ s.inbox = [] ∧ w = macWrite s.macAddress := by
  rcases h.call hc with ⟨_, hcalls, hmac, hsent, hinbox⟩ | ⟨_, hother⟩
  · refine ⟨by simp [Rpiq.goOn, advance, hcalls], hsent, hinbox, ?_⟩
    rw [hwrite] at hmac
    exact Option.some.inj hmac
  · exact absurd hw (hother c hc w hwrite)

theorem failWrite (h : MacInv s) {c : Call} (hc : c ∈ s.calls) {w : Write}
    (hwrite : c.write? = some w) (status : Status) : MacInv (s.failWrite c w status) := by
  have hother : w.writer ≠ .mac → MacInv (s.goOn c []) := fun hw =>
    (h.goOn_nil hc fun w' hw' => by
      rw [hwrite] at hw'
      obtain rfl := Option.some.inj hw'
      exact hw).2
  cases hw : w.writer with
  | mac =>
    have hcalls := (h.calls_goOn_nil hc hwrite hw).1
    simp only [Rpiq.failWrite, hw]
    refine h.done rfl rfl fun c' hc' => ?_
    have hnil : c' ∈ (s.goOn c []).calls := hc'
    rw [hcalls] at hnil
    exact nomatch hnil
  | property r =>
    simp only [Rpiq.failWrite, hw]
    exact (hother (by simp [hw])).frame rfl rfl rfl rfl rfl
  | vchiq =>
    simp only [Rpiq.failWrite, hw]
    exact (hother (by simp [hw])).frame rfl rfl rfl rfl rfl

theorem poll (h : MacInv s) {w : Write} {count : Nat} (hc : .poll w count ∈ s.calls)
    (full : Bool) : MacInv (s.poll w count full) := by
  rw [Rpiq.poll]
  split_ifs with hfull hcount
  · exact h.failWrite hc rfl _
  · exact h.next hc rfl
  · exact h.next hc rfl

theorem forward (h : MacInv s) {w : Write} (hc : .forward w ∈ s.calls) (success : Bool) :
    MacInv (s.forward w success) := by
  have hgo : MacInv (s.goOn (.forward w) [.write w]) := h.next hc rfl
  rw [Rpiq.forward]
  split
  · split_ifs
    · exact hgo.frame rfl rfl rfl rfl rfl
    · exact h.failWrite hc rfl _
  · exact hgo
  · exact hgo

theorem write (h : MacInv s) {w : Write} (hc : .write w ∈ s.calls) : MacInv (s.write w) := by
  by_cases hw : w.writer = .mac
  · obtain ⟨hcalls, hsent, hinbox, rfl⟩ := h.calls_goOn_nil hc rfl hw
    have hmessage : (s.write (macWrite s.macAddress)).sent = [macMessage s.macAddress] := by
      rw [Rpiq.write, hsent]
      rfl
    exact ⟨h.aligned, h.low, by decide, hcalls, .inl ⟨hmessage, hinbox⟩⟩
  · obtain ⟨hmac, hgo⟩ := h.goOn_nil hc fun w' hw' => by
      obtain rfl := Option.some.inj hw'
      exact hw
    have hdone : (s.write w).mac = .done := (if_neg hw).trans hmac
    have hphase := hgo.phase
    rw [show (s.goOn (.write w) []).mac = .done from hmac] at hphase
    exact h.done hdone rfl hphase

theorem answer (h : MacInv s) {m : Message} (hm : m ∈ s.sent) : MacInv (s.answer m) := by
  refine ⟨h.aligned, h.low, ?_⟩
  have hphase := h.phase
  show (s.answer m).Phase s.mac
  cases hmac : s.mac with
  | notStarted =>
    rw [hmac] at hphase
    rw [hphase.2.1] at hm
    exact nomatch hm
  | writing =>
    rw [hmac] at hphase
    rw [hphase.2.1] at hm
    exact nomatch hm
  | waiting n =>
    rw [hmac] at hphase
    obtain ⟨hn, hcalls, ⟨hsent, hinbox⟩ | ⟨hsent, hinbox⟩⟩ := hphase
    · have hm' := hm
      rw [hsent] at hm'
      obtain rfl := List.mem_singleton.1 hm'
      refine ⟨hn, hcalls, .inr ⟨?_, ?_⟩⟩
      · simp [Rpiq.answer, advance, hsent]
      · simp [Rpiq.answer, hinbox]
    · rw [hsent] at hm
      exact nomatch hm
  | done =>
    rw [hmac] at hphase
    exact hphase

theorem startMac (h : MacInv s) (hmac : s.mac = .notStarted) {memory : Option Nat}
    (hmemory : ∀ address ∈ memory, address % 4096 = 0 ∧ address < 0x40000000) :
    MacInv (s.startMac memory) := by
  have hphase := h.phase
  rw [hmac] at hphase
  obtain ⟨hcalls, hsent, hinbox⟩ := hphase
  cases memory with
  | none =>
    refine h.done rfl rfl fun c hc => ?_
    have hnil : c ∈ s.calls := hc
    rw [hcalls] at hnil
    exact nomatch hnil
  | some address =>
    obtain ⟨haligned, hlow⟩ := hmemory address rfl
    refine ⟨haligned, hlow, ⟨.acquire (macWrite address), ?_, rfl⟩, hsent, hinbox⟩
    show _ :: s.calls = _
    rw [hcalls]
    rfl

/-- What a round of the query finds. -/
theorem waiting (h : MacInv s) (hstarted : s.mac ≠ .notStarted) (hwriting : s.mac ≠ .writing)
    (hdone : s.mac ≠ .done) :
    ∃ n, s.mac = .waiting (n + 1) ∧ s.calls = [] ∧
      (s.sent = [macMessage s.macAddress] ∧ s.inbox = [] ∨
        s.sent = [] ∧ s.inbox = [macMessage s.macAddress]) := by
  have hphase := h.phase
  cases hmac : s.mac with
  | notStarted => exact absurd hmac hstarted
  | writing => exact absurd hmac hwriting
  | waiting n =>
    rw [hmac] at hphase
    obtain ⟨hn, hcalls, hrest⟩ := hphase
    exact ⟨n - 1, congrArg Mac.waiting (by omega), hcalls, hrest⟩
  | done => exact absurd hmac hdone

/-- The answer is recognized. -/
theorem pollMac_answered (h : MacInv s) (hinbox : s.inbox = [macMessage s.macAddress]) :
    s.pollMac = { { s with inbox := [] }.free .mac with mac := .done } := by
  have hread : withoutChannel ((s.inbox.head?.map Message.value).getD 0) =
      busAddress s.macAddress := by
    rw [hinbox, List.head?_cons, Option.map_some, Option.getD_some]
    exact withoutChannel_macMessage h.aligned
  rw [Rpiq.pollMac, if_pos hread, hinbox, List.tail_cons]

/-- Without an answer, the query waits again, or gives up. -/
theorem pollMac_empty (h : MacInv s) (hinbox : s.inbox = []) {n : Nat}
    (hmac : s.mac = .waiting (n + 1)) :
    s.pollMac = if n = 0 then { s.free .mac with mac := .done }
      else { s with mac := .waiting n } := by
  have hread : withoutChannel ((s.inbox.head?.map Message.value).getD 0) ≠
      busAddress s.macAddress := by
    rw [hinbox, List.head?_nil, Option.map_none, Option.getD_none]
    exact (busAddress_ne_zero h.low).symm
  have hs : { s with inbox := s.inbox.tail } = s := by
    rw [hinbox, List.tail_nil, ← hinbox]
  rw [Rpiq.pollMac, if_neg hread, hs, hmac]
  cases n <;> rfl

theorem pollMac (h : MacInv s) (hstarted : s.mac ≠ .notStarted) (hwriting : s.mac ≠ .writing)
    (hdone : s.mac ≠ .done) : MacInv s.pollMac := by
  obtain ⟨n, hmac, hcalls, hrest⟩ := h.waiting hstarted hwriting hdone
  have hother : ∀ c ∈ s.calls, ∀ w ∈ c.write?, w.writer ≠ .mac := fun c hc => by
    rw [hcalls] at hc
    exact nomatch hc
  rcases hrest with ⟨hsent, hinbox⟩ | ⟨hsent, hinbox⟩
  · rw [h.pollMac_empty hinbox hmac]
    split_ifs with hn
    · exact h.done rfl rfl hother
    · exact ⟨h.aligned, h.low, Nat.pos_of_ne_zero hn, hcalls, .inl ⟨hsent, hinbox⟩⟩
  · rw [h.pollMac_answered hinbox]
    exact h.done rfl rfl hother

theorem effect (h : MacInv s) {a : RpiqAction} (hen : s.enabled a) : MacInv (s.effect a) := by
  cases a with
  | startMac memory => exact h.startMac hen.1 hen.2
  | pollMac => exact h.pollMac hen.1 hen.2.1 hen.2.2
  | ioctlProperty i =>
    -- ioctls come after the query for the MAC address
    have hdone : s.mac = .done := hen
    have hphase := h.phase
    rw [hdone] at hphase
    simp only [Rpiq.effect, Rpiq.ioctlProperty]
    split_ifs
    · refine h.done hdone rfl fun c hc => ?_
      rcases List.mem_cons.1 hc with rfl | hs
      · exact fun w hw => nomatch hw
      · exact hphase c hs
    · exact h.frame rfl rfl rfl rfl rfl
  | ioctlVchiq channel value =>
    have hphase := h.phase
    rw [hen.1] at hphase
    refine h.done hen.1 rfl fun c hc => ?_
    rcases List.mem_cons.1 hc with rfl | hs
    · intro w hw
      obtain rfl := Option.some.inj hw
      exact Writer.noConfusion
    · exact hphase c hs
  | allocate r memory =>
    obtain ⟨hdone, hgo⟩ := h.goOn_nil hen fun w hw => nomatch hw
    cases memory with
    | none => exact hgo.frame rfl rfl rfl rfl rfl
    | some address =>
      have hphase := h.phase
      rw [hdone] at hphase
      refine h.done hdone rfl fun c hc => ?_
      rcases mem_advance hc with hnew | hs
      · rw [List.mem_singleton.1 hnew]
        intro w hw
        obtain rfl := Option.some.inj hw
        exact Writer.noConfusion
      · exact hphase c hs
  | acquire w =>
    have hgo : MacInv (s.goOn (.acquire w) [.poll w 0]) := h.next hen.1 rfl
    exact hgo.frame rfl rfl rfl rfl rfl
  | poll w count full => exact h.poll hen full
  | forward w success => exact h.forward hen success
  | write w => exact h.write hen
  | answer m => exact h.answer hen
  | readDpc m =>
    have hphase := h.phase
    rw [hen.1] at hphase
    exact h.done hen.1 rfl hphase
  | retrieveDpc m =>
    simp only [Rpiq.effect, Rpiq.retrieveDpc]
    split <;> exact h.frame rfl rfl rfl rfl rfl
  | completeDpc r success => cases success <;> exact h.frame rfl rfl rfl rfl rfl
  | cancel queue r =>
    simp only [Rpiq.effect, Rpiq.cancel]
    split
    · exact h.frame rfl rfl rfl rfl rfl
    · exact h

end MacInv

end RpiDrivers.Mailbox
