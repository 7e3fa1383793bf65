import RpiDrivers.Mailbox.Property

/-!
# Who completes a property request

A request is completed by its call, by the framework or by the DPC, and each of them has taken it
out of where it was before.

- `Rpiq.tokens`: the completions of a request, and the places that it may be completed from.
- `completedOnce`: **requests are completed once**, in every run.
-/

namespace RpiDrivers.Mailbox

open RpiDrivers.Lib

/-! ## Who completes a request -/

/-- The call may still complete the request. -/
def Call.owes (r : Nat) : Call → Nat
  | .allocate q => if q = r then 1 else 0
  | .acquire w | .poll w _ | .forward w => if w.writer = .property r then 1 else 0
  | .write _ => 0

/-- The completions of a request, and the places that it may be completed from. -/
def tokensOf (r : Nat) (completions : List Completion) (calls : List Call)
    (channelQueue : ManualQueues Nat Nat) (dpc : Dpc) : Nat :=
  (completions.map Completion.request).count r + total (Call.owes r) calls +
    channelQueue.weight (fun q => if q = r then 1 else 0) + (if dpc = .took r then 1 else 0)

theorem tokensOf_completion (r : Nat) (completions : List Completion) (c : Completion)
    (calls : List Call) (channelQueue : ManualQueues Nat Nat) (dpc : Dpc) :
    tokensOf r (completions ++ [c]) calls channelQueue dpc =
      tokensOf r completions calls channelQueue dpc + if c.request = r then 1 else 0 := by
  have hcount : ((completions ++ [c]).map Completion.request).count r =
      (completions.map Completion.request).count r + if c.request = r then 1 else 0 := by
    simp [List.count_append, List.count_singleton]
  rw [tokensOf, tokensOf, hcount]
  omega

theorem tokensOf_cons (r : Nat) (completions : List Completion) (c : Call) (calls : List Call)
    (channelQueue : ManualQueues Nat Nat) (dpc : Dpc) :
    tokensOf r completions (c :: calls) channelQueue dpc =
      tokensOf r completions calls channelQueue dpc + c.owes r := by
  rw [tokensOf, tokensOf, total_cons]
  omega

/-- A step of a call exchanges what it owes. -/
theorem tokensOf_advance (r : Nat) (completions : List Completion) {calls : List Call}
    (channelQueue : ManualQueues Nat Nat) (dpc : Dpc) {c : Call} (hc : c ∈ calls)
    (next : List Call) :
    tokensOf r completions (advance calls c next) channelQueue dpc + c.owes r =
      tokensOf r completions calls channelQueue dpc + total (Call.owes r) next := by
  have hsum := sum_advance (Call.owes r) hc next
  rw [tokensOf, tokensOf]
  omega

theorem tokensOf_forward (r : Nat) (completions : List Completion) (calls : List Call)
    (channelQueue : ManualQueues Nat Nat) (dpc : Dpc) (queue q : Nat) :
    tokensOf r completions calls (channelQueue.forward queue q) dpc =
      tokensOf r completions calls channelQueue dpc + if q = r then 1 else 0 := by
  rw [tokensOf, tokensOf, ManualQueues.weight_forward]
  omega

/-- What the DPC retrieves has left its queue. -/
theorem tokensOf_retrieve (r : Nat) (completions : List Completion) (calls : List Call)
    {channelQueue rest : ManualQueues Nat Nat} {p : Nat × Nat → Bool} {q : Nat}
    (h : channelQueue.retrieve p = some (q, rest)) (dpc : Dpc) :
    tokensOf r completions calls channelQueue dpc =
      tokensOf r completions calls rest dpc + if q = r then 1 else 0 := by
  rw [tokensOf, tokensOf, ManualQueues.weight_retrieve _ h]
  omega

theorem tokensOf_took (r : Nat) (completions : List Completion) (calls : List Call)
    (channelQueue : ManualQueues Nat Nat) (q : Nat) {dpc : Dpc} (hdpc : ∀ r, dpc ≠ .took r) :
    tokensOf r completions calls channelQueue (.took q) =
      tokensOf r completions calls channelQueue dpc + if q = r then 1 else 0 := by
  simp only [tokensOf, Dpc.took.injEq, if_neg (hdpc r), Nat.add_zero]

/-- Unless it has taken a request, it does not matter where the DPC is. -/
theorem tokensOf_idle (r : Nat) (completions : List Completion) (calls : List Call)
    (channelQueue : ManualQueues Nat Nat) {dpc : Dpc} (hdpc : ∀ r, dpc ≠ .took r) :
    tokensOf r completions calls channelQueue dpc =
      tokensOf r completions calls channelQueue .idle := by
  simp only [tokensOf, if_neg (hdpc r), reduceCtorEq, if_false]

namespace Rpiq

def tokens (s : Rpiq) (r : Nat) : Nat :=
  tokensOf r s.completions s.calls s.channelQueue s.dpc

variable {s : Rpiq} {r : Nat}

theorem tokens_complete (s : Rpiq) (q : Nat) (status : Status) (copied : Option Buffer) (r : Nat) :
    (s.complete q status copied).tokens r = s.tokens r + if q = r then 1 else 0 :=
  tokensOf_completion ..

theorem tokens_goOn {c : Call} (hc : c ∈ s.calls) (next : List Call) (r : Nat) :
    (s.goOn c next).tokens r + c.owes r = s.tokens r + total (Call.owes r) next :=
  tokensOf_advance r s.completions s.channelQueue s.dpc hc next

/-- What fails is completed by its call. -/
theorem tokens_failWrite {c : Call} (hc : c ∈ s.calls) {w : Write}
    (howes : ∀ r, c.owes r = if w.writer = .property r then 1 else 0) (status : Status) (r : Nat) :
    (s.failWrite c w status).tokens r = s.tokens r := by
  have hgo := tokens_goOn hc [] r
  rw [howes r, total_nil] at hgo
  cases hw : w.writer with
  | mac | vchiq =>
    have htokens : (s.failWrite c w status).tokens r = (s.goOn c []).tokens r := by
      simp only [failWrite, hw]
      rfl
    rw [htokens]
    simpa [hw] using hgo
  | property q =>
    have htokens : (s.failWrite c w status).tokens r =
        (s.goOn c []).tokens r + if q = r then 1 else 0 := by
      simp only [failWrite, hw]
      rw [tokens_complete]
      rfl
    rw [htokens]
    simpa [hw] using hgo

theorem tokens_allocate (hc : .allocate r ∈ s.calls) (memory : Option Nat) (q : Nat) :
    (s.allocate r memory).tokens q = s.tokens q := by
  cases memory with
  | none =>
    have hgo := tokens_goOn hc [] q
    rw [allocate, tokens_complete]
    simpa [Call.owes] using hgo
  | some address =>
    have hgo := tokens_goOn hc [.acquire ⟨.property r, channelPropertyArmVc, busAddress address⟩] q
    have htokens : (s.allocate r (some address)).tokens q =
        (s.goOn (.allocate r)
          [.acquire ⟨.property r, channelPropertyArmVc, busAddress address⟩]).tokens q := rfl
    rw [htokens]
    simpa [Call.owes] using hgo

theorem tokens_poll {w : Write} {count : Nat} (hc : .poll w count ∈ s.calls) (full : Bool) (q : Nat) :
    (s.poll w count full).tokens q = s.tokens q := by
  rw [poll]
  split_ifs with hfull hcount
  · exact tokens_failWrite hc (fun _ => rfl) _ q
  · simpa [Call.owes] using tokens_goOn hc [.poll w (count + 1)] q
  · simpa [Call.owes] using tokens_goOn hc [.forward w] q

theorem tokens_forward {w : Write} (hc : .forward w ∈ s.calls) (success : Bool) (q : Nat) :
    (s.forward w success).tokens q = s.tokens q := by
  have hgo := tokens_goOn hc [.write w] q
  cases hw : w.writer with
  | mac | vchiq =>
    have hforward : s.forward w success = s.goOn (.forward w) [.write w] := by rw [forward, hw]
    rw [hforward]
    simpa [Call.owes, hw] using hgo
  | property r =>
    cases success with
    | false =>
      have hforward : s.forward w false = s.failWrite (.forward w) w .unsuccessful := by
        rw [forward, hw]
        rfl
      rw [hforward]
      exact tokens_failWrite hc (fun _ => rfl) _ q
    | true =>
      have hforward : s.forward w true = { s.goOn (.forward w) [.write w] with
          channelQueue := s.channelQueue.forward w.channel r } := by
        rw [forward, hw]
        rfl
      have htokens : (s.forward w true).tokens q =
          (s.goOn (.forward w) [.write w]).tokens q + if r = q then 1 else 0 := by
        rw [hforward]
        exact tokensOf_forward ..
      rw [htokens]
      simpa [Call.owes, hw] using hgo

theorem tokens_write {w : Write} (hc : .write w ∈ s.calls) (q : Nat) :
    (s.write w).tokens q = s.tokens q := by
  have hgo : (s.goOn (.write w) []).tokens q = s.tokens q := by
    simpa [Call.owes] using tokens_goOn hc [] q
  exact hgo

theorem tokens_readDpc {m : Message} (hdpc : s.dpc = .idle) (q : Nat) :
    (s.readDpc m).tokens q = s.tokens q := by
  rw [tokens, tokens, hdpc]
  exact tokensOf_idle q _ _ _ fun r => by simp [readDpc]

theorem tokens_retrieveDpc {m : Message} (hdpc : s.dpc = .read m) (q : Nat) :
    (s.retrieveDpc m).tokens q = s.tokens q := by
  have hread : ∀ r, s.dpc ≠ .took r := fun r => by simp [hdpc]
  have hold := tokensOf_idle q s.completions s.calls s.channelQueue hread
  rw [retrieveDpc]
  cases hnext : s.nextRequest m with
  | none => exact hold.symm
  | some next =>
    obtain ⟨r, rest⟩ := next
    rw [nextRequest] at hnext
    split_ifs at hnext
    have hretrieve := tokensOf_retrieve q s.completions s.calls hnext s.dpc
    have htook := tokensOf_took q s.completions s.calls rest r hread
    exact htook.trans hretrieve.symm

theorem tokens_completeDpc (hdpc : s.dpc = .took r) (success : Bool) (q : Nat) :
    (s.completeDpc r success).tokens q = s.tokens q := by
  have hidle : ∀ r, Dpc.idle ≠ .took r := fun r => by simp
  have htook := tokensOf_took q s.completions s.calls s.channelQueue r hidle
  rw [tokens, tokens, hdpc, htook]
  cases success <;> exact tokensOf_completion ..

theorem tokens_cancel (queue r q : Nat) : (s.cancel queue r).tokens q = s.tokens q := by
  unfold cancel
  split
  · next found rest hfound =>
    obtain rfl := ManualQueues.retrieveFound_eq hfound
    have hold := tokensOf_retrieve q s.completions s.calls hfound s.dpc
    exact (tokensOf_completion ..).trans hold.symm
  · rfl

/-- Requests are completed once, in every run. -/
def TokenInv (s : Rpiq) : Prop := ∀ r, s.tokens r ≤ if r < s.issued then 1 else 0

theorem TokenInv.same {s s' : Rpiq} (h : TokenInv s) (htokens : ∀ r, s'.tokens r = s.tokens r)
    (hissued : s'.issued = s.issued) : TokenInv s' := by
  intro r
  rw [htokens r, hissued]
  exact h r

theorem tokenInv_ioctlProperty (h : TokenInv s) (i : PropertyIoctl) : TokenInv (s.ioctlProperty i) := by
  intro q
  have hq := h q
  have htokens : (s.ioctlProperty i).tokens q = s.tokens q + if s.issued = q then 1 else 0 := by
    by_cases hcheck : i.check = .success
    · rw [ioctlProperty, if_pos hcheck]
      exact tokensOf_cons ..
    · rw [ioctlProperty, if_neg hcheck, tokens_complete]
      rfl
  have hissued : (s.ioctlProperty i).issued = s.issued + 1 := by
    by_cases hcheck : i.check = .success
    · rw [ioctlProperty, if_pos hcheck]
    · rw [ioctlProperty, if_neg hcheck]
      rfl
  rw [htokens, hissued]
  split_ifs at hq ⊢ <;> omega

theorem issued_failWrite (c : Call) (w : Write) (status : Status) :
    (s.failWrite c w status).issued = s.issued := by
  cases hw : w.writer <;> simp only [failWrite, hw] <;> rfl

theorem issued_effect {a : RpiqAction} (ha : ∀ i, a ≠ .ioctlProperty i) :
    (s.effect a).issued = s.issued := by
  cases a with
  | ioctlProperty i => exact absurd rfl (ha i)
  | startMac memory => cases memory <;> rfl
  | pollMac =>
    simp only [effect, pollMac]
    split_ifs
    · rfl
    · split <;> rfl
  | ioctlVchiq | acquire | write | answer | readDpc => rfl
  | allocate r memory => cases memory <;> rfl
  | poll w count full =>
    simp only [effect, poll]
    split_ifs
    · exact issued_failWrite ..
    · rfl
    · rfl
  | forward w success =>
    simp only [effect, forward]
    split
    · split_ifs
      · rfl
      · exact issued_failWrite ..
    · rfl
    · rfl
  | retrieveDpc m =>
    simp only [effect, retrieveDpc]
    split <;> rfl
  | completeDpc r success => cases success <;> rfl
  | cancel queue r =>
    simp only [effect, cancel]
    split <;> rfl

theorem tokenInv_effect (h : TokenInv s) {a : RpiqAction} (hen : s.enabled a) :
    TokenInv (s.effect a) := by
  cases a with
  | ioctlProperty i => exact tokenInv_ioctlProperty h i
  | startMac memory =>
    refine h.same (fun r => ?_) (issued_effect (by simp))
    cases memory with
    | none => rfl
    | some address => exact tokensOf_cons ..
  | pollMac =>
    refine h.same (fun r => ?_) (issued_effect (by simp))
    simp only [effect, pollMac]
    split_ifs
    · rfl
    · split <;> rfl
  | ioctlVchiq channel value =>
    exact h.same (fun r => tokensOf_cons ..) rfl
  | allocate r memory =>
    exact h.same (tokens_allocate hen memory) (issued_effect (by simp))
  | acquire w =>
    refine h.same (fun r => ?_) rfl
    have hgo : (s.goOn (.acquire w) [.poll w 0]).tokens r = s.tokens r := by
      simpa [Call.owes] using tokens_goOn hen.1 [.poll w 0] r
    exact hgo
  | poll w count full => exact h.same (tokens_poll hen full) (issued_effect (by simp))
  | forward w success => exact h.same (tokens_forward hen success) (issued_effect (by simp))
  | write w => exact h.same (tokens_write hen) rfl
  | answer m => exact h.same (fun _ => rfl) rfl
  | readDpc m => exact h.same (tokens_readDpc hen.2.1) rfl
  | retrieveDpc m => exact h.same (tokens_retrieveDpc hen) (issued_effect (by simp))
  | completeDpc r success => exact h.same (tokens_completeDpc hen success) (issued_effect (by simp))
  | cancel queue r => exact h.same (tokens_cancel queue r) (issued_effect (by simp))

theorem tokenInv_start : TokenInv start := fun r => by
  simp [tokens, tokensOf, start, ManualQueues.weight]

end Rpiq

/-- Requests are completed once, in every run. -/
theorem completedOnce {s : Rpiq} {ok : Rpiq → RpiqAction → Prop} (h : rpiqMachine.Reach ok s)
    (r : Nat) : (s.completions.map Completion.request).count r ≤ 1 := by
  have hinv : s.TokenInv := by
    refine Machine.Reach.inv_guarded (fun s hs => ?_) (fun s a hinv _ hen => ?_) h
    · rw [hs]
      exact Rpiq.tokenInv_start
    · exact Rpiq.tokenInv_effect hinv hen
  have hr := hinv r
  rw [Rpiq.tokens, tokensOf] at hr
  split_ifs at hr <;> omega

end RpiDrivers.Mailbox
