import RpiDrivers.Rpisdhc.Requests

/-!
# Who completes a request of the SDHC

Each phase has one completion to give away. It is held by the call that issues the phase, by the
pointer or the worker it is handed to, or by the DPC; a phase that waits for events has none of
these, and the DPC may take the token.

- `completionSound_of_awaited`: **runs in which the DPC only completes requests that wait for
  events are sound**.
- `resetInv`: what concerns resets holds in every run.
- `transfer_completed_twice`: any event completes a single-block transfer, before it has been made.
-/

namespace RpiDrivers.Rpisdhc

open RpiDrivers.Lib

/-! ## Who may complete a phase -/

/-- The call may still complete the phase, or hand it to somebody who does. -/
def Issue.owes (multi : Bool) (p : Nat) : Issue → Nat
  | .prepare q | .test q | .complete q _ => if q = p then 1 else 0
  | .send q waitCompletion => if q = p ∧ waitCompletion then 1 else 0
  | .post q => if q = p ∧ !multi then 1 else 0
  | .wake => 0

/-- The worker may still complete the phase. -/
def Worker.owes (multi : Bool) (p : Nat) : Worker → Nat
  | .transfer q => if q = p ∧ !multi then 1 else 0
  | .complete q _ => if q = p then 1 else 0
  | .waiting | .woken | .stop | .release => 0

/-- The completions of a phase and the parties that may still complete it: calls, the worker (or
the pointer that it has not picked up), and the DPC once it has decided to. -/
def tokensOf (multi : Bool) (p : Nat) (completions : List Completion) (issues : List Issue)
    (outstandingRequestPtr : Option Nat) (worker : Worker) (dpc : Option Completion) : Nat :=
  (completions.map Completion.phase).count p + total (Issue.owes multi p) issues +
    (if outstandingRequestPtr = some p ∧ !multi then 1 else 0) + worker.owes multi p +
    (if dpc.map Completion.phase = some p then 1 else 0)

def Sdhc.tokens (s : Sdhc) (p : Nat) : Nat :=
  tokensOf (s.requests p).multiBlock p s.completions s.issues s.outstandingRequestPtr s.worker s.dpc

/-- Each phase has one completion to give away. -/
structure TokenInv (s : Sdhc) : Prop where
  tokens : ∀ p, s.tokens p ≤ if p < s.issued then 1 else 0
  /-- a phase that waits for events is left to the DPC -/
  waiting : ∀ p, (s.requests p).requiredEvents ≠ {} → (∀ i ∈ s.issues, ¬ i.Starts p) →
    s.tokens p = 0
  /-- the worker is not to be disturbed -/
  single : ∀ p, (s.requests p).type = .startTransfer → (s.requests p).multiBlock = false →
    (s.requests p).requiredEvents = {}
  unissued : ∀ p, s.issued ≤ p → (s.requests p).multiBlock = false

theorem tokenInv_start : TokenInv Sdhc.start where
  tokens p := by simp [Sdhc.start, Sdhc.tokens, tokensOf, Worker.owes]
  waiting p h := absurd rfl h
  single p h := nomatch h
  unissued _ _ := rfl

/-! ### What the operations do to the tokens -/

/-- A completion is one more of the phase's. -/
theorem tokensOf_completion (multi : Bool) (p : Nat) (completions : List Completion)
    (issues : List Issue) (ptr : Option Nat) (worker : Worker) (dpc : Option Completion)
    (c : Completion) :
    tokensOf multi p (completions ++ [c]) issues ptr worker dpc =
      tokensOf multi p completions issues ptr worker dpc + if c.phase = p then 1 else 0 := by
  have hcount : ((completions ++ [c]).map Completion.phase).count p =
      (completions.map Completion.phase).count p + if c.phase = p then 1 else 0 := by
    simp [List.count_append, List.count_singleton]
  rw [tokensOf, tokensOf, hcount]
  omega

/-- The DPC, or the worker, completes the phase. -/
theorem tokensOf_dpc (multi : Bool) (p : Nat) (completions : List Completion)
    (issues : List Issue) (ptr : Option Nat) (worker : Worker) (c : Completion) :
    tokensOf multi p (completions ++ [c]) issues ptr worker none =
      tokensOf multi p completions issues ptr worker (some c) := by
  rw [tokensOf_completion]
  simp only [tokensOf, Option.map_none, Option.map_some, Option.some.injEq, reduceCtorEq, if_false]
  omega

theorem tokensOf_worker (multi : Bool) (p : Nat) (completions : List Completion)
    (issues : List Issue) (ptr : Option Nat) (dpc : Option Completion) (c : Completion) :
    tokensOf multi p (completions ++ [c]) issues ptr .release dpc =
      tokensOf multi p completions issues ptr (.complete c.phase c.status) dpc := by
  rw [tokensOf_completion]
  simp only [tokensOf, Worker.owes]
  omega

theorem Issue.owes_le (multi : Bool) (p : Nat) (i : Issue) : i.owes multi p ≤ i.owes false p := by
  cases i with
  | post q =>
    simp only [owes]
    split_ifs <;> simp_all
  | prepare | test | send | complete | wake => exact le_refl _

theorem Worker.owes_le (multi : Bool) (p : Nat) (w : Worker) : w.owes multi p ≤ w.owes false p := by
  cases w with
  | transfer q =>
    simp only [owes]
    split_ifs <;> simp_all
  | waiting | woken | complete | stop | release => exact le_refl _

/-- A transfer of several blocks is left to the DPC by the call, the pointer and the worker. -/
theorem tokensOf_le (multi : Bool) (p : Nat) (completions : List Completion)
    (issues : List Issue) (ptr : Option Nat) (worker : Worker) (dpc : Option Completion) :
    tokensOf multi p completions issues ptr worker dpc ≤
      tokensOf false p completions issues ptr worker dpc := by
  have hissues : total (Issue.owes multi p) issues ≤ total (Issue.owes false p) issues :=
    List.sum_le_sum fun i _ => i.owes_le multi p
  have hworker := worker.owes_le multi p
  have hptr : (if ptr = some p ∧ !multi then 1 else 0) ≤ if ptr = some p ∧ !false then 1 else 0 := by
    split_ifs <;> simp_all
  rw [tokensOf, tokensOf]
  omega

/-- A step of a call exchanges what it owes. -/
theorem tokensOf_advance (multi : Bool) (p : Nat) (completions : List Completion)
    {issues : List Issue} (ptr : Option Nat) (worker : Worker) (dpc : Option Completion)
    {i : Issue} (hi : i ∈ issues) (next : Option Issue) :
    tokensOf multi p completions (advance issues i next.toList) ptr worker dpc + i.owes multi p =
      tokensOf multi p completions issues ptr worker dpc +
        total (Issue.owes multi p) next.toList := by
  have hsum := sum_advance (Issue.owes multi p) hi next.toList
  rw [tokensOf, tokensOf]
  omega

namespace Sdhc

theorem type_setRequest {s : Sdhc} {p : Nat} {r : Request} (hr : r.type = (s.requests p).type)
    (q : Nat) : ((s.setRequest p r).requests q).type = (s.requests q).type := by
  by_cases hq : q = p
  · subst hq
    simp [setRequest, hr]
  · simp [setRequest, hq]

/-- Writing to a request keeps its transfer type. -/
theorem multiBlock_setRequest {s : Sdhc} {p : Nat} {r : Request}
    (hr : r.multiBlock = (s.requests p).multiBlock) (q : Nat) :
    ((s.setRequest p r).requests q).multiBlock = (s.requests q).multiBlock := by
  by_cases hq : q = p
  · subst hq
    simp [setRequest, hr]
  · simp [setRequest, hq]

/-- Writing to a request keeps what the new one has in common with the old one. -/
theorem requests_setRequest {s : Sdhc} {p : Nat} {r : Request}
    (htype : r.type = (s.requests p).type) (hmulti : r.multiBlock = (s.requests p).multiBlock)
    (hrequired : r.requiredEvents = (s.requests p).requiredEvents) (q : Nat) :
    ((s.setRequest p r).requests q).type = (s.requests q).type ∧
      ((s.setRequest p r).requests q).multiBlock = (s.requests q).multiBlock ∧
      ((s.setRequest p r).requests q).requiredEvents = (s.requests q).requiredEvents := by
  by_cases hq : q = p
  · subst hq
    simp [setRequest, htype, hmulti, hrequired]
  · simp [setRequest, hq]

/-- A completion changes the status of the request only. -/
theorem requests_completeRequest (s : Sdhc) (p : Nat) (status : Status) (q : Nat) :
    ((s.completeRequest p status).requests q).type = (s.requests q).type ∧
      ((s.completeRequest p status).requests q).multiBlock = (s.requests q).multiBlock ∧
      ((s.completeRequest p status).requests q).requiredEvents = (s.requests q).requiredEvents :=
  requests_setRequest (r := { s.requests p with status := status }) rfl rfl rfl q

theorem tokens_completeRequest (s : Sdhc) (p : Nat) (status : Status) (q : Nat) :
    (s.completeRequest p status).tokens q = s.tokens q + if p = q then 1 else 0 := by
  rw [tokens, (requests_completeRequest s p status q).2.1]
  exact tokensOf_completion ..

theorem tokens_issueGoOn {s : Sdhc} {i : Issue} (hi : i ∈ s.issues) (next : Option Issue) (q : Nat) :
    (s.issueGoOn i next).tokens q + i.owes (s.requests q).multiBlock q =
      s.tokens q + total (Issue.owes (s.requests q).multiBlock q) next.toList :=
  tokensOf_advance _ _ _ _ _ _ hi next

end Sdhc

theorem TokenInv.le_one {s : Sdhc} (h : TokenInv s) (p : Nat) : s.tokens p ≤ 1 := by
  have := h.tokens p
  split_ifs at this <;> omega

/-- Steps that give tokens away at most and require no more events. -/
theorem TokenInv.mono {s s' : Sdhc} (h : TokenInv s) (hissued : s'.issued = s.issued)
    (htokens : ∀ p, s'.tokens p ≤ s.tokens p)
    (hrequest : ∀ p, (s'.requests p).type = (s.requests p).type ∧
      (s'.requests p).multiBlock = (s.requests p).multiBlock ∧
      ((s.requests p).requiredEvents = {} → (s'.requests p).requiredEvents = {}))
    (hstarts : ∀ p, (s.requests p).requiredEvents ≠ {} → (∀ i ∈ s'.issues, ¬ i.Starts p) →
      (∀ i ∈ s.issues, ¬ i.Starts p) ∨ s'.tokens p = 0) : TokenInv s' where
  tokens p := by
    rw [hissued]
    exact (htokens p).trans (h.tokens p)
  waiting p hr hs := by
    have hr : (s.requests p).requiredEvents ≠ {} := fun hc => hr ((hrequest p).2.2 hc)
    rcases hstarts p hr hs with hs | hzero
    · exact Nat.le_zero.1 ((h.waiting p hr hs) ▸ htokens p)
    · exact hzero
  single p ht hm := by
    obtain ⟨htype, hmulti, hempty⟩ := hrequest p
    exact hempty (h.single p (htype ▸ ht) (hmulti ▸ hm))
  unissued p hp := by
    rw [(hrequest p).2.1]
    exact h.unissued p (hissued ▸ hp)

/-- A call that leaves no start behind and no starting call. -/
theorem not_starts_advance {s : Sdhc} {i : Issue} {n : Option Issue} {p : Nat}
    (hi : ¬ i.Starts p) (h : ∀ j ∈ advance s.issues i n.toList, ¬ j.Starts p) :
    ∀ j ∈ s.issues, ¬ j.Starts p := by
  intro j hj hstarts
  by_cases hji : j = i
  · exact hi (hji ▸ hstarts)
  · exact h j (mem_advance_of_ne hj hji) hstarts

/-- What the events are that a request requires when it does not wait for the worker alone. -/
theorem requiredEvents_single {r : Request} (ht : r.type = .startTransfer)
    (hm : r.multiBlock = false) : Sdhc.requiredEvents r = r.requiredEvents := by
  simp [Sdhc.requiredEvents, ht, hm]

/-- A request is prepared: it is left to the DPC if it is a transfer of several blocks. -/
theorem tokenInv_prepare {s : Sdhc} (h : TokenInv s) {p : Nat} (hi : .prepare p ∈ s.issues)
    {status : Status} : TokenInv (s.runIssue status (.prepare p)) := by
  let r : Request := { s.requests p with requiredEvents := Sdhc.requiredEvents (s.requests p) }
  let next : Issue := if (s.requests p).type = .startTransfer then .post p else .test p
  have hm := Sdhc.multiBlock_setRequest (s := s) (p := p) (r := r) rfl
  have hrp : (s.setRequest p r).requests p = r := by simp [Sdhc.setRequest]
  have hrq : ∀ q, q ≠ p → (s.setRequest p r).requests q = s.requests q := fun q hq => by
    simp [Sdhc.setRequest, hq]
  -- the token of the call goes to its next step
  have hgo : ∀ q, (s.runIssue status (.prepare p)).tokens q +
      (if p = q then 1 else 0) = s.tokens q + next.owes (s.requests q).multiBlock q := by
    intro q
    have := tokensOf_advance (s.requests q).multiBlock q s.completions s.outstandingRequestPtr
      s.worker s.dpc hi (some next)
    simp only [Option.toList_some, total_cons, total_nil, Nat.add_zero, Issue.owes] at this
    have htokens : (s.runIssue status (.prepare p)).tokens q =
        tokensOf ((s.setRequest p r).requests q).multiBlock q s.completions
          (advance s.issues (.prepare p) [next]) s.outstandingRequestPtr s.worker s.dpc := rfl
    rw [htokens, hm]
    exact this
  have howes : ∀ q, next.owes (s.requests q).multiBlock q ≤ if p = q then 1 else 0 := by
    intro q
    by_cases ht : (s.requests p).type = .startTransfer
    · simp only [next, if_pos ht, Issue.owes]
      by_cases hq : p = q
      · rw [if_pos hq]
        split_ifs <;> omega
      · rw [if_neg hq, if_neg fun hc => hq hc.1]
    · simp only [next, if_neg ht, Issue.owes, le_refl]
  refine ⟨fun q => ?_, fun q hreq hs => ?_, fun q ht hmulti => ?_,
    fun q hq => (hm q).trans (h.unissued q hq)⟩
  · have h1 := h.tokens q
    have h2 := hgo q
    have h3 := howes q
    show Sdhc.tokens _ q ≤ if q < s.issued then 1 else 0
    omega
  · by_cases hq : q = p
    · subst hq
      have hreq : r.requiredEvents ≠ {} := hrp ▸ hreq
      by_cases ht : (s.requests q).type = .startTransfer
      · cases hmulti : (s.requests q).multiBlock with
        | true =>
          have h2 := hgo q
          have hle := h.le_one q
          simp only [next, if_pos ht, Issue.owes, hmulti, Bool.not_true, Bool.false_eq_true,
            and_false, if_false, if_true] at h2
          omega
        | false => exact absurd ((requiredEvents_single ht hmulti).trans (h.single q ht hmulti)) hreq
      · refine absurd (.inr rfl) (hs (.test q) ?_)
        show _ ∈ advance s.issues (.prepare q) [next]
        simp [advance, next, ht]
    · have hreq : (s.requests q).requiredEvents ≠ {} := hrq q hq ▸ hreq
      have hold : ∀ i ∈ s.issues, ¬ i.Starts q :=
        not_starts_advance (n := some next) (by rintro (hc | hc) <;> simp_all) hs
      have h1 := h.waiting q hreq hold
      have h2 := hgo q
      have h3 := howes q
      omega
  · by_cases hq : q = p
    · subst hq
      have ht : (s.requests q).type = .startTransfer := by
        have : ((s.setRequest q r).requests q).type = .startTransfer := ht
        rwa [hrp] at this
      have hmulti : (s.requests q).multiBlock = false := (hm q).symm.trans hmulti
      show ((s.setRequest q r).requests q).requiredEvents = {}
      rw [hrp]
      exact (requiredEvents_single ht hmulti).trans (h.single q ht hmulti)
    · show ((s.setRequest p r).requests q).requiredEvents = {}
      have ht' : ((s.setRequest p r).requests q).type = .startTransfer := ht
      rw [hrq q hq] at ht' ⊢
      exact h.single q ht' ((hm q).symm.trans hmulti)

theorem tokenInv_runIssue {s : Sdhc} (h : TokenInv s) {i : Issue} (hi : i ∈ s.issues)
    (status : Status) : TokenInv (s.runIssue status i) := by
  cases i with
  | prepare p => exact tokenInv_prepare h hi
  | test p =>
    have hgo := Sdhc.tokens_issueGoOn hi (some (.send p ((s.requests p).requiredEvents = {})))
    simp only [Option.toList_some, total_cons, total_nil, Issue.owes] at hgo
    refine h.mono rfl (fun q => ?_) (fun q => ⟨rfl, rfl, id⟩) fun q hr hs => ?_
    · have := hgo q
      show Sdhc.tokens _ q ≤ _
      simp only [Sdhc.runIssue]
      split_ifs at this <;> omega
    · by_cases hq : q = p
      · -- the request waits for events now
        subst hq
        have := hgo q
        have hle := h.le_one q
        simp only [hr, decide_false, Bool.false_eq_true, and_false, if_false, if_true] at this
        refine .inr ?_
        simp only [Sdhc.runIssue, hr, decide_false]
        omega
      · exact .inl (not_starts_advance (by rintro (hc | hc) <;> simp_all) hs)
  | send p waitCompletion =>
    have hnot : ∀ q, ¬ (Issue.send p waitCompletion).Starts q := fun q => by
      rintro (hc | hc) <;> cases hc
    cases waitCompletion with
    | true =>
      have hgo := Sdhc.tokens_issueGoOn hi (some (.complete p status))
      refine h.mono rfl (fun q => ?_) (fun q => ⟨rfl, rfl, id⟩) fun q _ hs =>
        .inl (not_starts_advance (hnot q) hs)
      have := hgo q
      simp only [Option.toList_some, total_cons, total_nil, Issue.owes, and_true] at this
      simp only [Sdhc.runIssue, if_true]
      omega
    | false =>
      have hgo := Sdhc.tokens_issueGoOn hi none
      simp only [Option.toList_none, total_nil, Issue.owes, Bool.false_eq_true, and_false,
        if_false] at hgo
      simp only [Sdhc.runIssue, Bool.false_eq_true, if_false]
      split_ifs
      · exact h.mono rfl (fun q => (hgo q).le) (fun q => ⟨rfl, rfl, id⟩) fun q _ hs =>
          .inl (not_starts_advance (n := none) (hnot q) hs)
      · exact h.mono rfl (fun q => (hgo q).le) (fun q => ⟨rfl, rfl, id⟩) fun q _ hs =>
          .inl (not_starts_advance (n := none) (hnot q) hs)
  | complete p result =>
    refine h.mono rfl (fun q => ?_) (fun q => ?_) fun q _ hs => .inl ?_
    · have hgo := Sdhc.tokens_issueGoOn (s := s.completeRequest p result) hi none q
      rw [Sdhc.tokens_completeRequest] at hgo
      simp only [Option.toList_none, total_nil, Issue.owes] at hgo
      simp only [Sdhc.runIssue]
      omega
    · have hreq := Sdhc.requests_completeRequest s p result q
      exact ⟨hreq.1, hreq.2.1, hreq.2.2.trans⟩
    · exact not_starts_advance (s := s.completeRequest p result) (n := none)
        (by rintro (hc | hc) <;> cases hc) hs
  | post p =>
    have hnot : ∀ q, ¬ (Issue.post p).Starts q := fun q => by
      rintro (hc | hc) <;> cases hc
    cases hptr : s.outstandingRequestPtr with
    | none =>
      simp only [Sdhc.runIssue, hptr]
      refine h.mono rfl (fun q => ?_) (fun q => ⟨rfl, rfl, id⟩) fun q _ hs =>
        .inl (not_starts_advance (hnot q) hs)
      -- the token passes from the call to the pointer
      have hgo := Sdhc.tokens_issueGoOn hi (some .wake) q
      simp only [Option.toList_some, total_cons, total_nil, Issue.owes] at hgo
      simp only [Sdhc.tokens, tokensOf, Sdhc.issueGoOn, hptr, Option.some.injEq, reduceCtorEq,
        false_and, if_false] at hgo ⊢
      omega
    | some r =>
      simp only [Sdhc.runIssue, hptr]
      refine h.mono rfl (fun q => ?_) (fun q => ⟨rfl, rfl, id⟩) fun q _ hs =>
        .inl (not_starts_advance (n := none) (hnot q) hs)
      have hgo := Sdhc.tokens_issueGoOn hi none q
      simp only [Option.toList_none, total_nil] at hgo
      exact (Nat.le_add_right _ _).trans hgo.le
  | wake =>
    refine h.mono rfl (fun q => ?_) (fun q => ⟨rfl, rfl, id⟩) fun q _ hs =>
      .inl (not_starts_advance (n := none) (by rintro (hc | hc) <;> cases hc) hs)
    have hgo := Sdhc.tokens_issueGoOn hi none q
    simp only [Option.toList_none, total_nil] at hgo
    exact (Nat.le_add_right _ _).trans hgo.le

/-- A new phase starts with its call, and with no events required. -/
theorem tokenInv_issue {s : Sdhc} (h : TokenInv s) {r : Request} (hr : r.requiredEvents = {}) :
    TokenInv (s.issue r) := by
  have hfresh : s.tokens s.issued = 0 := by
    have := h.tokens s.issued
    rw [if_neg (Nat.lt_irrefl _)] at this
    omega
  have hq : ∀ q, q ≠ s.issued → (s.issue r).requests q = s.requests q := fun q hq => by
    simp [Sdhc.issue, Sdhc.setRequest, hq]
  have htokens : ∀ q, q ≠ s.issued → (s.issue r).tokens q = s.tokens q := by
    intro q hne
    rw [Sdhc.tokens, Sdhc.tokens, hq q hne, tokensOf, tokensOf]
    show _ + total _ (.prepare s.issued :: s.issues) + _ + _ + _ = _
    have hzero : (Issue.prepare s.issued).owes (s.requests q).multiBlock q = 0 :=
      if_neg fun hc => hne hc.symm
    rw [total_cons, hzero, Nat.zero_add]
    rfl
  refine ⟨fun q => ?_, fun q hreq hs => ?_, fun q ht hm => ?_, fun q hle => ?_⟩
  · show _ ≤ if q < s.issued + 1 then 1 else 0
    by_cases hne : q = s.issued
    · -- nobody has known the phase, whatever its transfer type
      subst hne
      rw [if_pos (Nat.lt_succ_self _)]
      have hle := tokensOf_le ((s.issue r).requests s.issued).multiBlock s.issued s.completions
        s.issues s.outstandingRequestPtr s.worker s.dpc
      rw [Sdhc.tokens, h.unissued _ le_rfl] at hfresh
      show tokensOf _ _ s.completions (.prepare s.issued :: s.issues) s.outstandingRequestPtr
        s.worker s.dpc ≤ 1
      rw [tokensOf] at hle ⊢
      rw [total_cons, Issue.owes, if_pos rfl]
      omega
    · rw [htokens q hne]
      have := h.tokens q
      split_ifs at this ⊢ <;> omega
  · by_cases hne : q = s.issued
    · exact absurd (.inl (by rw [hne])) (hs (.prepare s.issued) (by simp [Sdhc.issue]))
    · rw [htokens q hne]
      rw [hq q hne] at hreq
      exact h.waiting q hreq fun i hi => hs i (by simp [Sdhc.issue, Sdhc.setRequest, hi])
  · by_cases hne : q = s.issued
    · subst hne
      simpa [Sdhc.issue, Sdhc.setRequest] using hr
    · rw [hq q hne] at ht hm ⊢
      exact h.single q ht hm
  · have hle : s.issued + 1 ≤ q := hle
    rw [hq q (by omega)]
    exact h.unissued q (by omega)

theorem tokenInv_runDpc {s : Sdhc} (h : TokenInv s) : TokenInv s.runDpc := by
  cases hdpc : s.dpc with
  | none =>
    simp only [Sdhc.runDpc, hdpc]
    exact h
  | some c =>
    simp only [Sdhc.runDpc, hdpc]
    have hreq := Sdhc.requests_completeRequest s c.phase c.status
    refine h.mono rfl (fun q => ?_) (fun q => ⟨(hreq q).1, (hreq q).2.1, (hreq q).2.2.trans⟩)
      fun q _ hs => .inl hs
    show tokensOf ((s.completeRequest c.phase c.status).requests q).multiBlock q
      (s.completions ++ [c]) s.issues s.outstandingRequestPtr s.worker none ≤ _
    rw [(hreq q).2.1, tokensOf_dpc, ← hdpc]
    exact le_rfl

namespace Sdhc

theorem sdhcRequestDpc_keeps (r : Request) (events : SdportEvents) (errors : SdportErrors) :
    (sdhcRequestDpc r events errors).1.type = r.type ∧
      (sdhcRequestDpc r events errors).1.multiBlock = r.multiBlock := by
  simp only [sdhcRequestDpc]
  split_ifs <;> exact ⟨rfl, rfl⟩

theorem sdhcRequestDpc_required (r : Request) (events : SdportEvents) (errors : SdportErrors)
    (hr : r.requiredEvents = {}) : (sdhcRequestDpc r events errors).1.requiredEvents = {} := by
  simp only [sdhcRequestDpc, hr, Hsts.clear_empty]
  split_ifs <;> rfl

/-- The DPC completes a request that fails, or whose events have come. -/
theorem sdhcRequestDpc_completes {r : Request} {events : SdportEvents} {errors : SdportErrors}
    {status : Status} (h : (sdhcRequestDpc r events errors).2 = some status) :
    (dpcErrors r errors ≠ {} ∨
      r.requiredEvents.clear (getSdhcEventsFromSdportEvents events) = {}) ∧
      (sdhcRequestDpc r events errors).1.requiredEvents = {} := by
  by_cases hfail : dpcErrors r errors ≠ {}
  · refine ⟨.inl hfail, ?_⟩
    simp only [sdhcRequestDpc, if_pos hfail]
  · by_cases hcome : r.requiredEvents.clear (getSdhcEventsFromSdportEvents events) = {}
    · refine ⟨.inr hcome, ?_⟩
      simp only [sdhcRequestDpc, if_neg hfail, if_pos hcome]
    · simp [sdhcRequestDpc, hfail, hcome] at h

/-- The status of a request that it completes is written to it; that of a transfer of several
blocks stays. -/
theorem sdhcRequestDpc_keepsStatus {r : Request} (events : SdportEvents) (errors : SdportErrors)
    (ht : r.type = .startTransfer) (hm : r.multiBlock = true) :
    (sdhcRequestDpc r events errors).1.status = r.status := by
  simp only [sdhcRequestDpc, ht, hm, and_self, if_true]
  split_ifs <;> rfl

/-- It completes the transfer of several blocks with the status recorded. -/
theorem sdhcRequestDpc_status {r : Request} {events : SdportEvents} {errors : SdportErrors}
    (h : (sdhcRequestDpc r events errors).2 = some .success) :
    dpcErrors r errors = {} ∧ (r.type = .startTransfer → r.multiBlock = true →
      r.status = .success) := by
  by_cases hfail : dpcErrors r errors ≠ {}
  · simp [sdhcRequestDpc, hfail, getErrorStatus_ne_success] at h
  · refine ⟨not_not.1 hfail, fun ht hm => ?_⟩
    by_cases hcome : r.requiredEvents.clear (getSdhcEventsFromSdportEvents events) = {}
    · simpa [sdhcRequestDpc, not_not.1 hfail, hcome, ht, hm] using h
    · simp [sdhcRequestDpc, not_not.1 hfail, hcome] at h

end Sdhc

/-- The DPC takes a token only of a phase that waits for events. -/
theorem tokenInv_takeEvents {s : Sdhc} (h : TokenInv s)
    (hissued : ∀ p, s.outstanding = some p → p < s.issued) (hdpc : s.dpc = none)
    (hok : Awaited s .dpc) : TokenInv s.takeEvents := by
  cases hout : s.outstanding with
  | none =>
    simp only [Sdhc.takeEvents, hout]
    exact h.mono rfl (fun _ => le_rfl) (fun _ => ⟨rfl, rfl, id⟩) fun _ _ hs => .inl hs
  | some p =>
    simp only [Sdhc.takeEvents, hout]
    set result := Sdhc.sdhcRequestDpc (s.requests p) s.pendingEvents s.pendingErrors with hresult
    obtain ⟨htype, hmulti⟩ := Sdhc.sdhcRequestDpc_keeps (s.requests p) s.pendingEvents
      s.pendingErrors
    have hm := Sdhc.multiBlock_setRequest (s := s) (p := p) (r := result.1) hmulti
    have hreq : ∀ q, ((s.setRequest p result.1).requests q).type = (s.requests q).type ∧
        ((s.setRequest p result.1).requests q).multiBlock = (s.requests q).multiBlock ∧
        ((s.requests q).requiredEvents = {} →
          ((s.setRequest p result.1).requests q).requiredEvents = {}) := by
      intro q
      refine ⟨?_, hm q, ?_⟩
      · by_cases hq : q = p
        · subst hq
          simpa [Sdhc.setRequest] using htype
        · simp [Sdhc.setRequest, hq]
      · by_cases hq : q = p
        · subst hq
          intro hempty
          simpa [Sdhc.setRequest] using Sdhc.sdhcRequestDpc_required _ _ _ hempty
        · simp [Sdhc.setRequest, hq]
    cases hstatus : result.2 with
    | none =>
      refine h.mono rfl (fun q => ?_) hreq fun _ _ hs => .inl hs
      show tokensOf ((s.setRequest p result.1).requests q).multiBlock q s.completions s.issues
        s.outstandingRequestPtr s.worker none ≤ _
      rw [hm q, ← hdpc]
      exact le_rfl
    | some status =>
      -- the phase was waiting for its events, so nobody else had its token
      obtain ⟨hwhy, hempty⟩ := Sdhc.sdhcRequestDpc_completes hstatus
      obtain ⟨hwait, hnot, -⟩ := hok p hout hwhy
      have hzero := h.waiting p hwait hnot
      have htokens : ∀ q, tokensOf ((s.setRequest p result.1).requests q).multiBlock q s.completions
          s.issues s.outstandingRequestPtr s.worker (some ⟨p, status⟩) =
          s.tokens q + if p = q then 1 else 0 := by
        intro q
        rw [hm q, ← tokensOf_dpc, tokensOf_completion, Sdhc.tokens, hdpc]
      refine ⟨fun q => ?_, fun q hr hs => ?_, fun q ht hmq => ?_, fun q hq => ?_⟩
      · refine (htokens q).trans_le ?_
        by_cases hq : p = q
        · subst hq
          rw [if_pos rfl, hzero]
          exact (if_pos (hissued p hout)).ge
        · rw [if_neg hq]
          exact h.tokens q
      · have hne : p ≠ q := by
          rintro rfl
          refine hr ?_
          simpa [Sdhc.setRequest] using hempty
        refine (htokens q).trans ?_
        rw [if_neg hne]
        exact h.waiting q (fun hc => hr ((hreq q).2.2 hc)) hs
      · exact (hreq q).2.2 (h.single q ((hreq q).1 ▸ ht) ((hreq q).2.1 ▸ hmq))
      · exact (hm q).trans (h.unissued q hq)

/-- The end of a transfer of several blocks; the DPC is to complete it. -/
theorem tokenInv_recordStatus {s : Sdhc} (h : TokenInv s) (p : Nat) (status : Status) :
    TokenInv (s.recordStatus p status) := by
  have hreq := Sdhc.requests_setRequest (s := s) (p := p)
    (r := { s.requests p with status := status }) rfl rfl rfl
  refine h.mono rfl (fun q => ?_) (fun q => ⟨(hreq q).1, (hreq q).2.1, (hreq q).2.2.trans⟩)
    fun _ _ hs => .inl hs
  show tokensOf ((s.setRequest p { s.requests p with status := status }).requests q).multiBlock q
    s.completions s.issues s.outstandingRequestPtr .stop s.dpc ≤ _
  rw [(hreq q).2.1, Sdhc.tokens, tokensOf, tokensOf, Worker.owes]
  omega

theorem tokenInv_transferBlock {s : Sdhc} (h : TokenInv s) {p : Nat} (hw : s.worker = .transfer p)
    (status : Status) : TokenInv (s.transferBlock p status) := by
  have htouch : TokenInv (s.touch p) :=
    h.mono rfl (fun _ => le_rfl) (fun _ => ⟨rfl, rfl, id⟩) fun _ _ hs => .inl hs
  simp only [Sdhc.transferBlock]
  split_ifs with hsingle
  · -- the worker completes a single block itself
    refine h.mono rfl (fun q => ?_) (fun _ => ⟨rfl, rfl, id⟩) fun _ _ hs => .inl hs
    have howes : (Worker.complete p status).owes (s.requests q).multiBlock q =
        s.worker.owes (s.requests q).multiBlock q := by
      rw [hw, Worker.owes, Worker.owes]
      by_cases hq : p = q
      · subst hq
        simp [Request.multiBlock, hsingle]
      · simp [hq]
    show tokensOf (s.requests q).multiBlock q s.completions s.issues s.outstandingRequestPtr
      (.complete p status) s.dpc ≤ _
    rw [Sdhc.tokens, tokensOf, tokensOf, howes]
  · exact tokenInv_recordStatus h p .success
  · have hreq := Sdhc.requests_setRequest (s := s.touch p) (p := p)
      (r := { s.requests p with blockCount := (s.requests p).blockCount - 1 }) rfl rfl rfl
    refine htouch.mono rfl (fun q => ?_) (fun q => ⟨(hreq q).1, (hreq q).2.1, (hreq q).2.2.trans⟩)
      fun _ _ hs => .inl hs
    rw [Sdhc.tokens, (hreq q).2.1]
    exact le_rfl
  · exact tokenInv_recordStatus htouch p status

theorem tokenInv_runWorker {s : Sdhc} (h : TokenInv s) (status : Status) :
    TokenInv (s.runWorker status) := by
  cases hw : s.worker with
  | waiting | stop | release =>
    simp only [Sdhc.runWorker, hw]
    refine h.mono rfl (fun q => ?_) (fun _ => ⟨rfl, rfl, id⟩) fun _ _ hs => .inl hs
    simp only [Sdhc.tokens, hw]
    exact le_rfl
  | woken =>
    simp only [Sdhc.runWorker, hw, Sdhc.workerTake]
    cases hptr : s.outstandingRequestPtr with
    | none =>
      refine h.mono rfl (fun q => ?_) (fun _ => ⟨rfl, rfl, id⟩) fun _ _ hs => .inl hs
      simp only [Sdhc.tokens, hw, hptr]
      exact le_rfl
    | some p =>
      refine h.mono rfl (fun q => ?_) (fun _ => ⟨rfl, rfl, id⟩) fun _ _ hs => .inl hs
      simp only [Sdhc.tokens, tokensOf, hw, hptr, Worker.owes, Option.some.injEq, reduceCtorEq,
        false_and, if_false]
      omega
  | transfer p =>
    simp only [Sdhc.runWorker, hw]
    exact tokenInv_transferBlock h hw status
  | complete p result =>
    simp only [Sdhc.runWorker, hw]
    have hreq := Sdhc.requests_completeRequest (s.touch p) p result
    refine h.mono rfl (fun q => ?_) (fun q => ⟨(hreq q).1, (hreq q).2.1, (hreq q).2.2.trans⟩)
      fun q _ hs => .inl hs
    have hm : (((s.touch p).completeRequest p result).requests q).multiBlock =
        (s.requests q).multiBlock := (hreq q).2.1
    rw [Sdhc.tokens, hm]
    refine (tokensOf_worker _ _ s.completions _ _ _ ⟨p, result⟩).trans_le ?_
    rw [Sdhc.tokens, hw]
    exact le_rfl

/-! ### Only issued phases are known -/

def Issue.phase? : Issue → Option Nat
  | .prepare p | .test p | .send p _ | .complete p _ | .post p => some p
  | .wake => none

def Worker.phase? : Worker → Option Nat
  | .transfer p | .complete p _ => some p
  | .waiting | .woken | .stop | .release => none

/-- Somebody knows the phase. -/
def Sdhc.Known (s : Sdhc) (p : Nat) : Prop :=
  s.outstanding = some p ∨ (∃ i ∈ s.issues, i.phase? = some p) ∨ s.outstandingRequestPtr = some p ∨
    s.worker.phase? = some p ∨ s.dpc.map Completion.phase = some p ∨
    (∃ c ∈ s.completions, c.phase = p) ∨ p ∈ s.recorded

namespace Sdhc

theorem known_issueGoOn {s : Sdhc} {i : Issue} (hi : i ∈ s.issues) {n : Option Issue}
    (hnext : ∀ j ∈ n, j.phase? = i.phase? ∨ j.phase? = none) {p : Nat}
    (h : (s.issueGoOn i n).Known p) : s.Known p := by
  obtain h | ⟨j, hj, hp⟩ | h := h
  · exact .inl h
  · rcases mem_advance hj with hj | hj
    · rcases hnext j (by simpa using hj) with hs | hs
      · exact .inr (.inl ⟨i, hi, hs ▸ hp⟩)
      · rw [hs] at hp
        cases hp
    · exact .inr (.inl ⟨j, hj, hp⟩)
  · exact .inr (.inr h)

theorem known_endPhase {s : Sdhc} {q p : Nat} (h : (s.endPhase q).Known p) : s.Known p := by
  obtain h | h := h
  · simp only [endPhase] at h
    split_ifs at h
    exact .inl h
  · exact .inr h

theorem known_completeRequest {s : Sdhc} {q p : Nat} {r : Status} (hq : s.Known q)
    (h : (s.completeRequest q r).Known p) : s.Known p := by
  obtain h | h | h | h | h | ⟨c, hc, hp⟩ | h := h
  · exact known_endPhase (s := s) (q := q) (.inl h)
  · exact .inr (.inl h)
  · exact .inr (.inr (.inl h))
  · exact .inr (.inr (.inr (.inl h)))
  · exact .inr (.inr (.inr (.inr (.inl h))))
  · rcases List.mem_append.1 hc with hc | hc
    · exact .inr (.inr (.inr (.inr (.inr (.inl ⟨c, hc, hp⟩)))))
    · obtain rfl := List.mem_singleton.1 hc
      exact hp ▸ hq
  · exact .inr (.inr (.inr (.inr (.inr (.inr h)))))

end Sdhc

theorem known_runIssue {s : Sdhc} {status : Status} {i : Issue} (hi : i ∈ s.issues) {p : Nat}
    (h : (s.runIssue status i).Known p) : s.Known p := by
  cases i with
  | prepare q =>
    refine Sdhc.known_issueGoOn (s := s) hi (fun j hj => .inl ?_) h
    obtain rfl := Option.some.inj hj
    split_ifs <;> rfl
  | test q =>
    refine Sdhc.known_issueGoOn hi (fun j hj => .inl ?_) h
    obtain rfl := Option.some.inj hj
    rfl
  | send q waitCompletion =>
    simp only [Sdhc.runIssue] at h
    split_ifs at h
    · refine Sdhc.known_issueGoOn hi (fun j hj => .inl ?_) h
      obtain rfl := Option.some.inj hj
      rfl
    · exact Sdhc.known_issueGoOn hi (by simp) h
    · exact Sdhc.known_issueGoOn hi (by simp) (Sdhc.known_endPhase h)
  | complete q result =>
    have hq : s.Known q := .inr (.inl ⟨_, hi, rfl⟩)
    exact Sdhc.known_completeRequest hq
      (Sdhc.known_issueGoOn (s := s.completeRequest q result) hi (by simp) h)
  | post q =>
    simp only [Sdhc.runIssue] at h
    split at h
    · obtain h | h | h | h := h
      · exact .inl h
      · exact Sdhc.known_issueGoOn (n := some .wake) hi (by simp [Issue.phase?]) (.inr (.inl h))
      · obtain rfl := Option.some.inj h
        exact .inr (.inl ⟨_, hi, rfl⟩)
      · exact .inr (.inr (.inr h))
    · exact Sdhc.known_issueGoOn hi (by simp) (Sdhc.known_endPhase h)
  | wake => exact Sdhc.known_issueGoOn hi (by simp) h

theorem known_takeEvents {s : Sdhc} {p : Nat} (h : s.takeEvents.Known p) : s.Known p := by
  simp only [Sdhc.takeEvents] at h
  split at h
  · next q hq =>
    obtain h | h | h | h | h | h := h
    · exact .inl h
    · exact .inr (.inl h)
    · exact .inr (.inr (.inl h))
    · exact .inr (.inr (.inr (.inl h)))
    · refine .inl ?_
      rw [Option.map_map, Option.map_eq_some_iff] at h
      obtain ⟨_, -, rfl⟩ := h
      exact hq
    · exact .inr (.inr (.inr (.inr (.inr h))))
  · exact h

theorem known_runDpc {s : Sdhc} {p : Nat} (h : s.runDpc.Known p) : s.Known p := by
  simp only [Sdhc.runDpc] at h
  split at h
  · next c hc =>
    have hq : s.Known c.phase := .inr (.inr (.inr (.inr (.inl (by rw [hc]; rfl)))))
    refine Sdhc.known_completeRequest hq (r := c.status) ?_
    obtain h | h | h | h | h | h := h
    · exact .inl h
    · exact .inr (.inl h)
    · exact .inr (.inr (.inl h))
    · exact .inr (.inr (.inr (.inl h)))
    · cases h
    · exact .inr (.inr (.inr (.inr (.inr h))))
  · exact h

theorem known_recordStatus {s : Sdhc} {q p : Nat} {status : Status} (hq : s.Known q)
    (h : (s.recordStatus q status).Known p) : s.Known p := by
  obtain h | h | h | h | h | h | h := h
  · exact .inl h
  · exact .inr (.inl h)
  · exact .inr (.inr (.inl h))
  · cases h
  · exact .inr (.inr (.inr (.inr (.inl h))))
  · exact .inr (.inr (.inr (.inr (.inr (.inl h)))))
  · rcases List.mem_cons.1 h with rfl | h
    · exact hq
    · exact .inr (.inr (.inr (.inr (.inr (.inr h)))))

theorem known_runWorker {s : Sdhc} {status : Status} {p : Nat}
    (h : (s.runWorker status).Known p) : s.Known p := by
  cases hw : s.worker with
  | waiting | stop | release =>
    simp only [Sdhc.runWorker, hw] at h
    obtain h | h | h | h | h := h
    · exact .inl h
    · exact .inr (.inl h)
    · exact .inr (.inr (.inl h))
    · cases h
    · exact .inr (.inr (.inr (.inr h)))
  | woken =>
    simp only [Sdhc.runWorker, hw, Sdhc.workerTake] at h
    split at h
    · next q hq =>
      obtain h | h | h | h | h := h
      · exact .inl h
      · exact .inr (.inl h)
      · cases h
      · exact .inr (.inr (.inl (hq.trans h)))
      · exact .inr (.inr (.inr (.inr h)))
    · obtain h | h | h | h | h := h
      · exact .inl h
      · exact .inr (.inl h)
      · exact .inr (.inr (.inl h))
      · cases h
      · exact .inr (.inr (.inr (.inr h)))
  | transfer q =>
    have hq : s.Known q := .inr (.inr (.inr (.inl (by rw [hw]; rfl))))
    simp only [Sdhc.runWorker, hw, Sdhc.transferBlock] at h
    split_ifs at h
    · obtain h | h | h | h | h := h
      · exact .inl h
      · exact .inr (.inl h)
      · exact .inr (.inr (.inl h))
      · obtain rfl : q = p := Option.some.inj h
        exact hq
      · exact .inr (.inr (.inr (.inr h)))
    · exact known_recordStatus hq h
    · exact h
    · exact known_recordStatus (s := s.touch q) hq h
  | complete q result =>
    have hq : s.Known q := .inr (.inr (.inr (.inl (by rw [hw]; rfl))))
    simp only [Sdhc.runWorker, hw] at h
    refine Sdhc.known_completeRequest hq (r := result) ?_
    obtain h | h | h | h | h := h
    · exact .inl h
    · exact .inr (.inl h)
    · exact .inr (.inr (.inl h))
    · cases h
    · exact .inr (.inr (.inr (.inr h)))

/-- Every phase that is known has been issued. -/
def KnownIssued (s : Sdhc) : Prop := ∀ p, s.Known p → p < s.issued

theorem knownIssued_issue {s : Sdhc} (h : KnownIssued s) (r : Request) :
    KnownIssued (s.issue r) := by
  intro p hp
  have hlt : s.Known p → p < s.issued + 1 := fun hp => Nat.lt_succ_of_lt (h p hp)
  obtain hp | ⟨i, hi, hp⟩ | hp := hp
  · obtain rfl : s.issued = p := Option.some.inj hp
    exact Nat.lt_succ_self _
  · rcases List.mem_cons.1 hi with rfl | hi
    · obtain rfl : s.issued = p := Option.some.inj hp
      exact Nat.lt_succ_self _
    · exact hlt (.inr (.inl ⟨i, hi, hp⟩))
  · exact hlt (.inr (.inr hp))

theorem issued_runIssue (s : Sdhc) (status : Status) (i : Issue) :
    (s.runIssue status i).issued = s.issued := by
  cases i <;> simp only [Sdhc.runIssue]
  case send => split_ifs <;> rfl
  case post => split <;> rfl
  all_goals rfl

theorem issued_runWorker (s : Sdhc) (status : Status) :
    (s.runWorker status).issued = s.issued := by
  cases hw : s.worker <;> simp only [Sdhc.runWorker, hw]
  case woken =>
    simp only [Sdhc.workerTake]
    split <;> rfl
  case transfer =>
    simp only [Sdhc.transferBlock]
    split_ifs <;> rfl
  case complete => rfl

theorem knownIssued_effect {s : Sdhc} {a : SdhcAction} (h : KnownIssued s) (hen : s.enabled a) :
    KnownIssued (s.effect a) := by
  have keeps : ∀ {s' : Sdhc}, s'.issued = s.issued → (∀ p, s'.Known p → s.Known p) →
      KnownIssued s' := fun hissued hknown p hp => hissued ▸ h p (hknown p hp)
  cases a with
  | issueCommand | issueTransfer => exact knownIssued_issue h _
  | runIssue i status => exact keeps (issued_runIssue s status i) fun _ => known_runIssue hen
  | giveUp =>
    refine keeps rfl fun p hp => ?_
    obtain hp | hp := hp
    · cases hp
    · exact .inr hp
  | interrupt | resetReturn => exact keeps rfl fun _ => id
  | dpc =>
    refine keeps ?_ fun _ => known_takeEvents
    simp only [Sdhc.effect, Sdhc.takeEvents]
    split <;> rfl
  | runDpc =>
    refine keeps ?_ fun _ => known_runDpc
    simp only [Sdhc.effect, Sdhc.runDpc]
    split <;> rfl
  | runWorker status => exact keeps (issued_runWorker s status) fun _ => known_runWorker
  | resetHost =>
    refine keeps rfl fun p hp => ?_
    obtain hp | hp | hp | hp := hp
    · exact .inl hp
    · exact .inr (.inl hp)
    · cases hp
    · exact .inr (.inr (.inr hp))

/-- A completed phase requires no events any more. -/
theorem required_of_completed {s : Sdhc} (h : TokenInv s) {c : Completion}
    (hc : c ∈ s.completions) : (s.requests c.phase).requiredEvents = {} := by
  have hcount : 0 < (s.completions.map Completion.phase).count c.phase :=
    List.count_pos_iff.2 (List.mem_map_of_mem hc)
  have hone := h.le_one c.phase
  have hle : (s.completions.map Completion.phase).count c.phase ≤ s.tokens c.phase := by
    rw [Sdhc.tokens, tokensOf]
    omega
  by_contra hne
  have hstarts : ∀ i ∈ s.issues, ¬ i.Starts c.phase := by
    -- a call that starts the phase would hold a second token
    intro i hi hs
    have howes : i.owes (s.requests c.phase).multiBlock c.phase = 1 := by
      rcases hs with rfl | rfl <;> exact if_pos rfl
    have htotal := le_total (Issue.owes (s.requests c.phase).multiBlock c.phase) hi
    rw [Sdhc.tokens, tokensOf] at hone
    omega
  have := h.waiting c.phase hne hstarts
  omega

/-- A step keeps the tokens. -/
theorem tokenInv_effect {s : Sdhc} {a : SdhcAction} (h : TokenInv s) (hknown : KnownIssued s)
    (hen : s.enabled a) (hok : Awaited s a) : TokenInv (s.effect a) := by
  cases a with
  | issueCommand => exact tokenInv_issue h rfl
  | issueTransfer => exact tokenInv_issue h (required_of_completed h hen.2.2.2)
  | runIssue i status => exact tokenInv_runIssue h hen status
  | giveUp | interrupt | resetReturn =>
    exact h.mono rfl (fun _ => le_rfl) (fun _ => ⟨rfl, rfl, id⟩) fun _ _ hs => .inl hs
  | dpc => exact tokenInv_takeEvents h (fun p hp => hknown p (.inl hp)) hen hok
  | runDpc => exact tokenInv_runDpc h
  | runWorker status => exact tokenInv_runWorker h status
  | resetHost =>
    refine h.mono rfl (fun q => ?_) (fun _ => ⟨rfl, rfl, id⟩) fun _ _ hs => .inl hs
    show tokensOf (s.requests q).multiBlock q s.completions s.issues none s.worker s.dpc ≤ _
    rw [Sdhc.tokens, tokensOf, tokensOf]
    simp only [reduceCtorEq, false_and, if_false]
    omega

/-! ## Transfers are made before they are reported -/

/-- What is known of the phases that the parties work on. -/
structure TransferInv (s : Sdhc) : Prop where
  /-- only transfers are handed to the worker -/
  post : ∀ p, .post p ∈ s.issues → (s.requests p).type = .startTransfer
  ptr : ∀ p, s.outstandingRequestPtr = some p → (s.requests p).type = .startTransfer
  transfer : ∀ p, s.worker = .transfer p → (s.requests p).type = .startTransfer
  /-- only commands are tested, sent and completed by the call -/
  test : ∀ p, .test p ∈ s.issues → (s.requests p).type ≠ .startTransfer
  send : ∀ p b, .send p b ∈ s.issues → (s.requests p).type ≠ .startTransfer
  complete : ∀ p st, .complete p st ∈ s.issues → (s.requests p).type ≠ .startTransfer
  worker : ∀ p, s.worker = .complete p .success → p ∈ s.finished
  dpc : ∀ p, s.dpc = some ⟨p, .success⟩ → (s.requests p).type = .startTransfer → p ∈ s.finished
  recorded : ∀ p ∈ s.recorded, (s.requests p).type = .startTransfer ∧
    (s.requests p).multiBlock = true ∧ ((s.requests p).status = .success → p ∈ s.finished)
  completions : ∀ c ∈ s.completions, c.status = .success →
    (s.requests c.phase).type = .startTransfer → c.phase ∈ s.finished

theorem transferInv_start : TransferInv Sdhc.start where
  post _ h := nomatch h
  ptr _ h := nomatch h
  transfer _ h := nomatch h
  test _ h := nomatch h
  send _ _ h := nomatch h
  complete _ _ h := nomatch h
  worker _ h := nomatch h
  dpc _ h := nomatch h
  recorded _ h := nomatch h
  completions _ h := nomatch h

/-- A request is written to: its type stays, and its status too unless that is justified. -/
theorem TransferInv.setRequest {s : Sdhc} (h : TransferInv s) {p : Nat} {r : Request}
    (htype : r.type = (s.requests p).type) (hmulti : r.multiBlock = (s.requests p).multiBlock)
    (hstatus : p ∈ s.recorded → r.status = .success → p ∈ s.finished) :
    TransferInv (s.setRequest p r) := by
  have ht := Sdhc.type_setRequest (s := s) htype
  have hm := Sdhc.multiBlock_setRequest (s := s) hmulti
  constructor
  case post => exact fun q hq => (ht q).trans (h.post q hq)
  case ptr => exact fun q hq => (ht q).trans (h.ptr q hq)
  case transfer => exact fun q hq => (ht q).trans (h.transfer q hq)
  case test => exact fun q hq => (ht q).trans_ne (h.test q hq)
  case send => exact fun q b hq => (ht q).trans_ne (h.send q b hq)
  case complete => exact fun q st hq => (ht q).trans_ne (h.complete q st hq)
  case worker => exact h.worker
  case dpc => exact fun q hq hs => h.dpc q hq ((ht q).symm.trans hs)
  case recorded =>
    intro q hq
    refine ⟨(ht q).trans (h.recorded q hq).1, (hm q).trans (h.recorded q hq).2.1, fun hs => ?_⟩
    by_cases hqp : q = p
    · subst hqp
      exact hstatus hq (by simpa [Sdhc.setRequest] using hs)
    · exact (h.recorded q hq).2.2 (by simpa [Sdhc.setRequest, hqp] using hs)
  case completions => exact fun c hc hs hst => h.completions c hc hs ((ht c.phase).symm.trans hst)

theorem TransferInv.endPhase {s : Sdhc} (h : TransferInv s) (p : Nat) :
    TransferInv (s.endPhase p) :=
  { h with }

/-- A completion that is no successful transfer, or one that has been made. -/
theorem TransferInv.completeRequest {s : Sdhc} (h : TransferInv s) {p : Nat} {status : Status}
    (hp : status = .success → (s.requests p).type = .startTransfer → p ∈ s.finished) :
    TransferInv (s.completeRequest p status) := by
  have hset : TransferInv (s.setRequest p { s.requests p with status := status }) :=
    h.setRequest rfl rfl fun hr hs => hp hs (h.recorded p hr).1
  have ht := Sdhc.type_setRequest (s := s) (p := p)
    (r := { s.requests p with status := status }) rfl
  refine { hset with completions := fun c hc hs hst => ?_ }
  rcases List.mem_append.1 hc with hc | hc
  · exact hset.completions c hc hs hst
  · obtain rfl := List.mem_singleton.1 hc
    exact hp hs ((ht p).symm.trans hst)

/-- A call goes on to a step that fits the type of its phase. -/
theorem TransferInv.issueGoOn {s : Sdhc} (h : TransferInv s) {i : Issue} {next : Option Issue}
    (hpost : ∀ p, next = some (.post p) → (s.requests p).type = .startTransfer)
    (htest : ∀ p, next = some (.test p) → (s.requests p).type ≠ .startTransfer)
    (hsend : ∀ p b, next = some (.send p b) → (s.requests p).type ≠ .startTransfer)
    (hcomplete : ∀ p st, next = some (.complete p st) → (s.requests p).type ≠ .startTransfer) :
    TransferInv (s.issueGoOn i next) := by
  have hmem : ∀ {j : Issue}, j ∈ (s.issueGoOn i next).issues → next = some j ∨ j ∈ s.issues :=
    fun hj => (mem_advance hj).imp_left fun hj => by simpa [eq_comm] using hj
  exact { h with
    post := fun p hp => (hmem hp).elim (hpost p) (h.post p)
    test := fun p hp => (hmem hp).elim (htest p) (h.test p)
    send := fun p b hp => (hmem hp).elim (hsend p b) (h.send p b)
    complete := fun p st hp => (hmem hp).elim (hcomplete p st) (h.complete p st) }

theorem transferInv_runIssue {s : Sdhc} (h : TransferInv s) {i : Issue} (hi : i ∈ s.issues)
    (status : Status) : TransferInv (s.runIssue status i) := by
  cases i with
  | prepare p =>
    have hset : TransferInv (s.setRequest p
        { s.requests p with requiredEvents := Sdhc.requiredEvents (s.requests p) }) :=
      h.setRequest rfl rfl fun hr => (h.recorded p hr).2.2
    have ht := Sdhc.type_setRequest (s := s) (p := p)
      (r := { s.requests p with requiredEvents := Sdhc.requiredEvents (s.requests p) }) rfl
    refine hset.issueGoOn (fun q hq => ?_) (fun q hq => ?_) (fun q b hq => ?_) fun q st hq => ?_
    all_goals split_ifs at hq with hstart
    all_goals cases hq
    · exact (ht p).trans hstart
    · exact (ht p).trans_ne hstart
  | test p =>
    exact h.issueGoOn (by simp) (by simp) (fun q b hq => by
      cases hq
      exact h.test p hi) (by simp)
  | send p waitCompletion =>
    simp only [Sdhc.runIssue]
    split_ifs
    · exact h.issueGoOn (by simp) (by simp) (by simp) fun q st hq => by
        cases hq
        exact h.send p _ hi
    · exact h.issueGoOn (by simp) (by simp) (by simp) (by simp)
    · exact (h.issueGoOn (by simp) (by simp) (by simp) (by simp)).endPhase p
  | complete p result =>
    have hp := h.complete p result hi
    exact (h.completeRequest fun _ ht => absurd ht hp).issueGoOn (by simp) (by simp) (by simp)
      (by simp)
  | post p =>
    simp only [Sdhc.runIssue]
    split
    · have hgo : TransferInv (s.issueGoOn (.post p) (some .wake)) :=
        h.issueGoOn (by simp) (by simp) (by simp) (by simp)
      refine { hgo with ptr := fun q hq => ?_ }
      obtain rfl := Option.some.inj hq
      exact h.post _ hi
    · exact (h.issueGoOn (by simp) (by simp) (by simp) (by simp)).endPhase p
  | wake =>
    have hgo : TransferInv (s.issueGoOn .wake none) :=
      h.issueGoOn (by simp) (by simp) (by simp) (by simp)
    exact { hgo with }

theorem transferInv_takeEvents {s : Sdhc} (h : TransferInv s) (hok : Awaited s .dpc) :
    TransferInv s.takeEvents := by
  cases hout : s.outstanding with
  | none =>
    simp only [Sdhc.takeEvents, hout]
    exact { h with }
  | some p =>
    simp only [Sdhc.takeEvents, hout]
    set result := Sdhc.sdhcRequestDpc (s.requests p) s.pendingEvents s.pendingErrors
    obtain ⟨htype, hmulti⟩ := Sdhc.sdhcRequestDpc_keeps (s.requests p) s.pendingEvents
      s.pendingErrors
    have hset : TransferInv (s.setRequest p result.1) := by
      refine h.setRequest htype hmulti fun hr hs => ?_
      obtain ⟨ht, hm, hfinished⟩ := h.recorded p hr
      exact hfinished ((Sdhc.sdhcRequestDpc_keepsStatus _ _ ht hm).symm.trans hs)
    refine { hset with dpc := fun q hq ht => ?_ }
    -- a transfer that the DPC completes has been recorded
    obtain ⟨status, hstatus, hq⟩ := Option.map_eq_some_iff.1 hq
    obtain ⟨rfl, rfl⟩ := Completion.mk.inj hq
    obtain ⟨hnofail, hsuccess⟩ := Sdhc.sdhcRequestDpc_status hstatus
    have ht : (s.requests p).type = .startTransfer :=
      (Sdhc.type_setRequest (s := s) htype p).symm.trans ht
    obtain ⟨-, -, hrecorded⟩ := hok p hout (Sdhc.sdhcRequestDpc_completes hstatus).1
    obtain ⟨-, hm, hfinished⟩ := h.recorded p (hrecorded ht (not_not.2 hnofail))
    exact hfinished (hsuccess ht hm)

theorem transferInv_runDpc {s : Sdhc} (h : TransferInv s) : TransferInv s.runDpc := by
  cases hdpc : s.dpc with
  | none =>
    simp only [Sdhc.runDpc, hdpc]
    exact h
  | some c =>
    simp only [Sdhc.runDpc, hdpc]
    have hc : TransferInv (s.completeRequest c.phase c.status) :=
      h.completeRequest fun hs ht => h.dpc c.phase (by rw [hdpc, ← hs]) ht
    exact { hc with dpc := fun _ hq => nomatch hq }

/-- What has been finished stays finished. -/
theorem Sdhc.mem_finish {s : Sdhc} {p q : Nat} {status : Status} (h : q ∈ s.finished) :
    q ∈ (s.finish p status).finished := by
  simp only [finish]
  split_ifs
  · exact List.mem_cons_of_mem p h
  · exact h

theorem TransferInv.finish {s : Sdhc} (h : TransferInv s) (p : Nat) (status : Status) :
    TransferInv (s.finish p status) :=
  { h with
    worker := fun q hq => Sdhc.mem_finish (h.worker q hq)
    dpc := fun q hq ht => Sdhc.mem_finish (h.dpc q hq ht)
    recorded := fun q hq => ⟨(h.recorded q hq).1, (h.recorded q hq).2.1,
      fun hs => Sdhc.mem_finish ((h.recorded q hq).2.2 hs)⟩
    completions := fun c hc hs ht => Sdhc.mem_finish (h.completions c hc hs ht) }

/-- The worker records the status of a transfer. -/
theorem TransferInv.recordStatus {s : Sdhc} (h : TransferInv s) {p : Nat} {status : Status}
    (ht : (s.requests p).type = .startTransfer) (hm : (s.requests p).multiBlock = true) :
    TransferInv (s.recordStatus p status) := by
  have hfinished : status = .success → p ∈ (s.finish p status).finished := fun hs => by
    simp [Sdhc.finish, hs]
  have hset : TransferInv ((s.finish p status).setRequest p
      { s.requests p with status := status }) :=
    (h.finish p status).setRequest rfl rfl fun _ hs => hfinished hs
  have htype := Sdhc.type_setRequest (s := s) (p := p)
    (r := { s.requests p with status := status }) rfl
  have hmulti := Sdhc.multiBlock_setRequest (s := s) (p := p)
    (r := { s.requests p with status := status }) rfl
  refine { hset with
    transfer := fun _ hq => nomatch hq
    worker := fun _ hq => nomatch hq
    recorded := fun q hq => ?_ }
  rcases List.mem_cons.1 hq with rfl | hq
  · refine ⟨(htype q).trans ht, (hmulti q).trans hm, fun hs => hfinished ?_⟩
    simpa [Sdhc.recordStatus, Sdhc.finish, Sdhc.setRequest] using hs
  · exact hset.recorded q hq

theorem transferInv_transferBlock {s : Sdhc} (h : TransferInv s) {p : Nat}
    (hw : s.worker = .transfer p) (status : Status) : TransferInv (s.transferBlock p status) := by
  have ht := h.transfer p hw
  have htouch : TransferInv (s.touch p) := { h with }
  simp only [Sdhc.transferBlock]
  split_ifs with hsingle
  · have hf := htouch.finish p status
    refine { hf with transfer := fun _ hq => (nomatch hq), worker := fun q hq => ?_ }
    obtain ⟨rfl, rfl⟩ := Worker.complete.inj hq
    simp [Sdhc.finish]
  all_goals
    have hm : (s.requests p).multiBlock = true := by
      cases htt : (s.requests p).transferType <;> simp_all [Request.multiBlock]
  · exact h.recordStatus ht hm
  · exact htouch.setRequest rfl rfl fun hr => (h.recorded p hr).2.2
  · exact htouch.recordStatus ht hm

theorem transferInv_runWorker {s : Sdhc} (h : TransferInv s) (status : Status) :
    TransferInv (s.runWorker status) := by
  cases hw : s.worker with
  | waiting | stop | release =>
    simp only [Sdhc.runWorker, hw]
    exact { h with transfer := fun _ hq => (nomatch hq), worker := fun _ hq => nomatch hq }
  | woken =>
    simp only [Sdhc.runWorker, hw, Sdhc.workerTake]
    split
    · next p hp =>
      refine { h with
        ptr := fun _ hq => nomatch hq
        transfer := fun q hq => ?_
        worker := fun _ hq => nomatch hq }
      obtain rfl := Worker.transfer.inj hq
      exact h.ptr _ hp
    · exact { h with transfer := fun _ hq => (nomatch hq), worker := fun _ hq => nomatch hq }
  | transfer p =>
    simp only [Sdhc.runWorker, hw]
    exact transferInv_transferBlock h hw status
  | complete p result =>
    simp only [Sdhc.runWorker, hw]
    have htouch : TransferInv (s.touch p) := { h with }
    have hc : TransferInv ((s.touch p).completeRequest p result) :=
      htouch.completeRequest fun hs _ => h.worker p (by rw [hw, hs])
    exact { hc with transfer := fun _ hq => (nomatch hq), worker := fun _ hq => nomatch hq }

/-- A new phase is not known to anybody yet. -/
theorem transferInv_issue {s : Sdhc} (h : TransferInv s) (hknown : KnownIssued s) (r : Request) :
    TransferInv (s.issue r) := by
  -- a phase that somebody knows has an earlier number
  have hq : ∀ q, s.Known q → (s.issue r).requests q = s.requests q := fun q hq => by
    have := hknown q hq
    simp [Sdhc.issue, Sdhc.setRequest, Nat.ne_of_lt this]
  have hcall : ∀ {i : Issue} {p : Nat}, i ∈ s.issues → i.phase? = some p →
      (s.issue r).requests p = s.requests p := fun hi hp => hq _ (.inr (.inl ⟨_, hi, hp⟩))
  have hmem : ∀ {i : Issue}, i ∈ (s.issue r).issues → i = .prepare s.issued ∨ i ∈ s.issues :=
    fun hi => List.mem_cons.1 hi
  constructor
  case post =>
    intro p hp
    obtain hp | hp := hmem hp
    · cases hp
    · exact (hcall hp rfl).symm ▸ h.post p hp
  case ptr => exact fun p hp => (hq p (.inr (.inr (.inl hp)))).symm ▸ h.ptr p hp
  case transfer =>
    intro p hp
    have hp' : s.worker = .transfer p := hp
    exact (hq p (.inr (.inr (.inr (.inl (by rw [hp']; rfl)))))).symm ▸ h.transfer p hp
  case test =>
    intro p hp
    obtain hp | hp := hmem hp
    · cases hp
    · exact (hcall hp rfl).symm ▸ h.test p hp
  case send =>
    intro p b hp
    obtain hp | hp := hmem hp
    · cases hp
    · exact (hcall hp rfl).symm ▸ h.send p b hp
  case complete =>
    intro p st hp
    obtain hp | hp := hmem hp
    · cases hp
    · exact (hcall hp rfl).symm ▸ h.complete p st hp
  case worker => exact h.worker
  case dpc =>
    intro p hp ht
    have hp' : s.dpc = some ⟨p, .success⟩ := hp
    rw [hq p (.inr (.inr (.inr (.inr (.inl (by rw [hp']; rfl))))))] at ht
    exact h.dpc p hp ht
  case recorded =>
    intro p hp
    rw [hq p (.inr (.inr (.inr (.inr (.inr (.inr hp))))))]
    exact h.recorded p hp
  case completions =>
    intro c hc hs ht
    rw [hq c.phase (.inr (.inr (.inr (.inr (.inr (.inl ⟨c, hc, rfl⟩))))))] at ht
    exact h.completions c hc hs ht

theorem transferInv_effect {s : Sdhc} {a : SdhcAction} (h : TransferInv s)
    (hknown : KnownIssued s) (hen : s.enabled a) (hok : Awaited s a) :
    TransferInv (s.effect a) := by
  cases a with
  | issueCommand | issueTransfer => exact transferInv_issue h hknown _
  | runIssue i status => exact transferInv_runIssue h hen status
  | giveUp | interrupt | resetReturn =>
    exact { h with }
  | dpc => exact transferInv_takeEvents h hok
  | runDpc => exact transferInv_runDpc h
  | runWorker status => exact transferInv_runWorker h status
  | resetHost =>
    exact { h with ptr := fun _ hq => nomatch hq }

/-! ## Resets -/

/-- The call may still hand the phase to the worker. -/
def Issue.posts (p : Nat) : Issue → Nat
  | .prepare q | .post q => if q = p then 1 else 0
  | .test _ | .send _ _ | .complete _ _ | .wake => 0

/-- A reset and the worker exclude each other, and what a reset has taken back stays with it. -/
structure ResetInv (s : Sdhc) : Prop where
  ptr : ∀ p, s.outstandingRequestPtr = some p → p ∉ s.beforeReset
  worker : ∀ p, s.worker.phase? = some p → p ∉ s.beforeReset
  /-- the worker only works with the mutex held -/
  lock : s.worker ≠ .waiting → s.worker ≠ .woken →
    s.outstandingRequestLock = some .transferWorker
  posted : ∀ p ∈ s.beforeReset, p ∈ s.posted
  /-- a phase is handed to the worker once -/
  handover : ∀ p, total (Issue.posts p) s.issues + s.posted.count p ≤ if p < s.issued then 1 else 0
  clean : s.afterReset = false

theorem resetInv_start : ResetInv Sdhc.start where
  ptr _ h := nomatch h
  worker _ h := nomatch h
  lock h := absurd rfl h
  posted _ h := nomatch h
  handover p := by simp [Sdhc.start]
  clean := rfl

/-- A step of a call that hands nothing over. -/
theorem ResetInv.issueGoOn {s : Sdhc} (h : ResetInv s) {i : Issue} (hi : i ∈ s.issues)
    {next : Option Issue} (hposts : ∀ p, total (Issue.posts p) next.toList ≤ i.posts p) :
    ResetInv (s.issueGoOn i next) := by
  refine { h with handover := fun p => ?_ }
  have hsum := sum_advance (Issue.posts p) hi next.toList
  have hold := h.handover p
  have hle := hposts p
  show total _ (advance s.issues i next.toList) + s.posted.count p ≤ if p < s.issued then 1 else 0
  omega

theorem resetInv_runIssue {s : Sdhc} (h : ResetInv s) {i : Issue} (hi : i ∈ s.issues)
    (status : Status) : ResetInv (s.runIssue status i) := by
  cases i with
  | prepare p =>
    have hset : ∀ r, ResetInv (s.setRequest p r) := fun r => { h with }
    refine (hset _).issueGoOn hi fun q => ?_
    split_ifs <;> simp [Issue.posts]
  | test p => exact h.issueGoOn hi fun q => by simp [Issue.posts]
  | send p waitCompletion =>
    have hgo : ∀ next : Option Issue, (∀ q, total (Issue.posts q) next.toList ≤ 0) →
        ResetInv (s.issueGoOn (.send p waitCompletion) next) :=
      fun next hnext => h.issueGoOn hi hnext
    simp only [Sdhc.runIssue]
    split_ifs
    · exact hgo _ fun q => by simp [Issue.posts]
    · exact hgo none fun q => by simp
    · have hnone := hgo none fun q => by simp
      exact { hnone with }
  | complete p result =>
    have hc : ResetInv (s.completeRequest p result) := { h with }
    exact hc.issueGoOn hi fun q => by simp
  | post p =>
    simp only [Sdhc.runIssue]
    split
    · -- the phase has not been handed over before, so no reset has seen it
      have hone := h.handover p
      have howes := le_total (Issue.posts p) hi
      rw [Issue.posts, if_pos rfl] at howes
      have hfresh : p ∉ s.posted := fun hp => by
        have := List.count_pos_iff.2 hp
        split_ifs at hone <;> omega
      refine { h with
        ptr := fun q hq => ?_
        posted := fun q hq => List.mem_cons_of_mem p (h.posted q hq)
        handover := fun q => ?_ }
      · obtain rfl := Option.some.inj hq
        exact fun hb => hfresh (h.posted _ hb)
      · have hsum := sum_advance (Issue.posts q) hi [.wake]
        have hold := h.handover q
        show total _ (advance s.issues (.post p) [.wake]) + (p :: s.posted).count q ≤
          if q < s.issued then 1 else 0
        simp only [total_cons, total_nil, Issue.posts] at hsum
        simp only [List.count_cons, beq_iff_eq]
        omega
    · have hgo : ResetInv (s.issueGoOn (.post p) none) := h.issueGoOn hi fun q => by simp
      exact { hgo with }
  | wake =>
    have hgo : ResetInv (s.issueGoOn .wake none) := h.issueGoOn hi fun q => by simp
    exact { hgo with }

theorem resetInv_runWorker {s : Sdhc} (h : ResetInv s) (status : Status) :
    ResetInv (s.runWorker status) := by
  have touch : ∀ p, s.worker.phase? = some p → s.touch p = s := by
    intro p hp
    have hnot := h.worker p hp
    simp [Sdhc.touch, hnot]
  cases hw : s.worker with
  | waiting =>
    simp only [Sdhc.runWorker, hw]
    exact { h with worker := fun _ hq => (nomatch hq), lock := fun _ hn => absurd rfl hn }
  | woken =>
    simp only [Sdhc.runWorker, hw, Sdhc.workerTake]
    split
    · next p hp =>
      refine { h with
        ptr := fun _ hq => nomatch hq
        worker := fun q hq => ?_
        lock := fun _ _ => rfl }
      obtain rfl : p = q := Option.some.inj hq
      exact h.ptr p hp
    · exact { h with worker := fun _ hq => (nomatch hq), lock := fun hn => absurd rfl hn }
  | transfer p =>
    have hp : s.worker.phase? = some p := by rw [hw]; rfl
    have hlock := h.lock (by simp [hw]) (by simp [hw])
    simp only [Sdhc.runWorker, hw, Sdhc.transferBlock, touch p hp]
    split_ifs
    · exact { h with worker := fun q hq => h.worker q (hp.trans hq), lock := fun _ _ => hlock }
    · exact { h with worker := fun _ hq => (nomatch hq), lock := fun _ _ => hlock }
    · exact { h with }
    · exact { h with worker := fun _ hq => (nomatch hq), lock := fun _ _ => hlock }
  | complete p result =>
    have hp : s.worker.phase? = some p := by rw [hw]; rfl
    have hlock := h.lock (by simp [hw]) (by simp [hw])
    simp only [Sdhc.runWorker, hw, touch p hp]
    exact { h with worker := fun _ hq => (nomatch hq), lock := fun _ _ => hlock }
  | stop =>
    have hlock := h.lock (by simp [hw]) (by simp [hw])
    simp only [Sdhc.runWorker, hw]
    exact { h with worker := fun _ hq => (nomatch hq), lock := fun _ _ => hlock }
  | release =>
    simp only [Sdhc.runWorker, hw]
    exact { h with worker := fun _ hq => (nomatch hq), lock := fun hn => absurd rfl hn }

theorem resetInv_issue {s : Sdhc} (h : ResetInv s) (r : Request) : ResetInv (s.issue r) := by
  refine { h with handover := fun q => ?_ }
  have hold := h.handover q
  show total _ (.prepare s.issued :: s.issues) + s.posted.count q ≤
    if q < s.issued + 1 then 1 else 0
  rw [total_cons, Issue.posts]
  split_ifs at hold ⊢ <;> omega

theorem resetInv_effect {s : Sdhc} {a : SdhcAction} (h : ResetInv s) (hen : s.enabled a) :
    ResetInv (s.effect a) := by
  -- the worker does not work when it does not hold the mutex
  have idle : s.outstandingRequestLock ≠ some .transferWorker →
      s.worker = .waiting ∨ s.worker = .woken := fun hlock => by
    by_contra hc
    rw [not_or] at hc
    exact hlock (h.lock hc.1 hc.2)
  cases a with
  | issueCommand | issueTransfer => exact resetInv_issue h _
  | runIssue i status => exact resetInv_runIssue h hen status
  | giveUp | interrupt => exact { h with }
  | dpc =>
    simp only [Sdhc.effect, Sdhc.takeEvents]
    split <;> exact { h with }
  | runDpc =>
    simp only [Sdhc.effect, Sdhc.runDpc]
    split <;> exact { h with }
  | runWorker status => exact resetInv_runWorker h status
  | resetHost =>
    have hlock : s.outstandingRequestLock = none := hen
    have hidle := idle (by simp [hlock])
    refine { h with
      ptr := fun _ hq => nomatch hq
      worker := fun q hq => ?_
      lock := fun hn hn' => ?_
      posted := fun _ hq => hq }
    · rcases hidle with hw | hw <;> rw [show s.effect .resetHost = s.resetTake from rfl] at hq <;>
        simp [Sdhc.resetTake, hw, Worker.phase?] at hq
    · exact absurd hidle (not_or.2 ⟨hn, hn'⟩)
  | resetReturn =>
    have hlock : s.outstandingRequestLock = some .resetHost := hen
    have hidle := idle (by simp [hlock])
    exact { h with lock := fun hn hn' => absurd hidle (not_or.2 ⟨hn, hn'⟩) }

/-- **Resets are honoured in every run.** -/
theorem resetInv {s : Sdhc} {ok : Sdhc → SdhcAction → Prop} (h : sdhcMachine.Reach ok s) :
    ResetInv s :=
  h.inv_guarded (fun _ hs => hs ▸ resetInv_start) fun _ _ h _ hen => resetInv_effect h hen

/-! ## Runs -/

/-- **A phase is completed once, and a transfer successfully only when it has been made**, in
every run in which the DPC only completes requests that wait for events. -/
theorem completionSound_of_awaited {s : Sdhc} (h : sdhcMachine.Reach Awaited s) :
    CompletionSound s := by
  have hinv : KnownIssued s ∧ TokenInv s ∧ TransferInv s := by
    refine h.inv_guarded (P := fun s => KnownIssued s ∧ TokenInv s ∧ TransferInv s)
      (fun s hs => ?_) fun s a ⟨hknown, htoken, htransfer⟩ hok hen => ?_
    · rw [hs]
      refine ⟨fun p hp => ?_, tokenInv_start, transferInv_start⟩
      simp [Sdhc.Known, Sdhc.start, Worker.phase?] at hp
    · exact ⟨knownIssued_effect hknown hen, tokenInv_effect htoken hknown hen hok,
        transferInv_effect htransfer hknown hen hok⟩
  refine ⟨fun p => ?_, hinv.2.2.completions, (resetInv h).clean⟩
  have hone := hinv.2.1.le_one p
  rw [Sdhc.tokens, tokensOf] at hone
  omega

/-- A read of one block: the DPC completes the command, and the worker the transfer. -/
theorem completionSound_of_awaited_read :
    ∃ s, sdhcMachine.Reach Awaited s ∧ s.completions = [⟨0, .success⟩, ⟨1, .success⟩] ∧
      CompletionSound s := by
  have h0 : sdhcMachine.Reach Awaited Sdhc.start := .init rfl
  have h1 := Machine.Reach.step (a := .issueCommand true 17 .r1 .singleBlock 1) h0 (by trivial) rfl
  have h2 := Machine.Reach.step (a := .runIssue (.prepare 0) .success) h1 (by trivial) rfl
  have h3 := Machine.Reach.step (a := .runIssue (.test 0) .success) h2 (by trivial) rfl
  have h4 := Machine.Reach.step (a := .runIssue (.send 0 false) .success) h3 (by trivial) rfl
  have h5 := Machine.Reach.step (a := .interrupt { dataFlag := true }) h4 (by trivial) rfl
  have h6 := Machine.Reach.step (a := .dpc) h5 (by
    rintro p hp -
    obtain rfl : 0 = p := Option.some.inj hp
    exact ⟨by decide, fun i hi => (nomatch hi), fun ht => (nomatch ht)⟩) rfl
  have h7 := Machine.Reach.step (a := .runDpc) h6 (by trivial) rfl
  have h8 := Machine.Reach.step (a := .issueTransfer) h7 (by trivial) rfl
  have h9 := Machine.Reach.step (a := .runIssue (.prepare 1) .success) h8 (by trivial) rfl
  have h10 := Machine.Reach.step (a := .runIssue (.post 1) .success) h9 (by trivial) rfl
  have h11 := Machine.Reach.step (a := .runIssue .wake .success) h10 (by trivial) rfl
  have h12 := Machine.Reach.step (a := .runWorker .success) h11 (by trivial) rfl
  have h13 := Machine.Reach.step (a := .runWorker .success) h12 (by trivial) rfl
  have h14 := Machine.Reach.step (a := .runWorker .success) h13 (by trivial) rfl
  have h15 := Machine.Reach.step (a := .runWorker .success) h14 (by trivial) rfl
  exact ⟨_, h15, rfl, completionSound_of_awaited h15⟩

/-- The same read; an SDIO interrupt comes in while the worker is about to transfer the block. -/
def disturbedRun : List SdhcAction :=
  [.issueCommand true 17 .r1 .singleBlock 1, .runIssue (.prepare 0) .success,
    .runIssue (.test 0) .success, .runIssue (.send 0 false) .success,
    .interrupt { dataFlag := true }, .dpc, .runDpc, .issueTransfer,
    .runIssue (.prepare 1) .success, .runIssue (.post 1) .success, .runIssue .wake .success,
    .runWorker .success, .runWorker .success, .interrupt { sdioIrpt := true }, .dpc, .runDpc,
    .runWorker .success, .runWorker .success]

/-- **The DPC completes the transfer for an event that has nothing to do with it**, and the worker
completes it again. -/
theorem transfer_completed_twice : ¬ ∀ s, sdhcMachine.Reachable s → CompletionSound s := by
  intro h
  have hrun := sdhcMachine.reach_exec_get disturbedRun (s := Sdhc.start) rfl (by rfl)
  exact absurd ((h _ hrun).once 1) (by decide)

end RpiDrivers.Rpisdhc
