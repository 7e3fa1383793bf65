import RpiDrivers.Lib.Pool

/-!
# Manual queues

A driver framework keeps the requests that a driver does not want to complete yet in *manual
queues*. All queues of a driver are one list of entries here, each an entry's queue and its
request, the oldest first, so that a request's place is a statement about one list.

- `ManualQueues`: the entries; `forward`, `requeue`, `retrieveNext`, `retrieveFound`, `purge`.
- `weight_forward`, `weight_requeue`, `weight_retrieve`, `weight_purge`: how an operation
  changes a sum over the entries. **Nothing is lost or duplicated**: what an operation takes
  out of the queues is what it returns.
-/

namespace RpiDrivers.Lib

universe u v

/-- The entries of all queues: queues are named by `κ`, requests by `ρ`. -/
abbrev ManualQueues (κ : Type u) (ρ : Type v) := List (κ × ρ)

namespace ManualQueues

variable {κ : Type u} {ρ : Type v}

/-- Put a request at the tail of a queue. -/
def forward (queues : ManualQueues κ ρ) (queue : κ) (request : ρ) : ManualQueues κ ρ :=
  queues ++ [(queue, request)]

/-- Put a request back at the head of its queue. -/
def requeue (queues : ManualQueues κ ρ) (queue : κ) (request : ρ) : ManualQueues κ ρ :=
  (queue, request) :: queues

/-- Take the oldest entry that meets a condition. -/
def retrieve (p : κ × ρ → Bool) : ManualQueues κ ρ → Option (ρ × ManualQueues κ ρ)
  | [] => none
  | e :: queues =>
    if p e then some (e.2, queues)
    else (retrieve p queues).map fun (request, rest) => (request, e :: rest)

/-- Take the oldest request of a queue. -/
def retrieveNext [DecidableEq κ] (queues : ManualQueues κ ρ) (queue : κ) :
    Option (ρ × ManualQueues κ ρ) :=
  queues.retrieve (·.1 = queue)

/-- Take a given request, if it is still in the queue. -/
def retrieveFound [DecidableEq κ] [DecidableEq ρ] (queues : ManualQueues κ ρ) (queue : κ)
    (request : ρ) : Option (ρ × ManualQueues κ ρ) :=
  queues.retrieve (· = (queue, request))

/-- The requests of a queue, and the other queues. -/
def purge [DecidableEq κ] (queues : ManualQueues κ ρ) (queue : κ) :
    List ρ × ManualQueues κ ρ :=
  ((queues.filter (·.1 = queue)).map Prod.snd, queues.filter (·.1 ≠ queue))

/-! ## Sums over the entries -/

/-- The sum of `f` over the requests in the queues. -/
def weight (f : ρ → Nat) (queues : ManualQueues κ ρ) : Nat :=
  total (fun e => f e.2) queues

theorem weight_forward (f : ρ → Nat) (queues : ManualQueues κ ρ) (queue : κ) (request : ρ) :
    (queues.forward queue request).weight f = queues.weight f + f request := by
  simp [weight, forward]

theorem weight_requeue (f : ρ → Nat) (queues : ManualQueues κ ρ) (queue : κ) (request : ρ) :
    (queues.requeue queue request).weight f = f request + queues.weight f := by
  simp [weight, requeue]

/-- The request retrieved meets the condition, and the other entries stay as they are. -/
theorem retrieve_split {p : κ × ρ → Bool} {request : ρ} :
    ∀ {queues rest : ManualQueues κ ρ}, queues.retrieve p = some (request, rest) →
      ∃ queue before after, p (queue, request) ∧
        queues = before ++ (queue, request) :: after ∧ rest = before ++ after
  | [], _, h => by cases h
  | e :: queues, rest, h => by
    simp only [retrieve] at h
    split at h
    · next hp =>
      obtain ⟨rfl, rfl⟩ := Prod.mk.inj (Option.some.inj h)
      exact ⟨e.1, [], queues, hp, rfl, rfl⟩
    · obtain ⟨⟨request', rest'⟩, hnext, hrest⟩ := Option.map_eq_some_iff.1 h
      obtain ⟨rfl, rfl⟩ := Prod.mk.inj hrest
      obtain ⟨queue, before, after, hp, rfl, rfl⟩ := retrieve_split hnext
      exact ⟨queue, e :: before, after, hp, rfl, rfl⟩

/-- The request retrieved is what has left the queues. -/
theorem weight_retrieve (f : ρ → Nat) {p : κ × ρ → Bool} {request : ρ}
    {queues rest : ManualQueues κ ρ} (h : queues.retrieve p = some (request, rest)) :
    queues.weight f = f request + rest.weight f := by
  obtain ⟨queue, before, after, -, rfl, rfl⟩ := retrieve_split h
  simp only [weight, total_append, total_cons]
  omega

/-- Nothing is put into the queues. -/
theorem mem_of_mem_retrieve {p : κ × ρ → Bool} {request : ρ} {queues rest : ManualQueues κ ρ}
    (h : queues.retrieve p = some (request, rest)) {e : κ × ρ} (he : e ∈ rest) : e ∈ queues := by
  obtain ⟨queue, before, after, -, rfl, rfl⟩ := retrieve_split h
  refine List.mem_append.2 ((List.mem_append.1 he).imp_right fun hafter => ?_)
  exact List.mem_cons_of_mem _ hafter

/-- The request retrieved was in the queues. -/
theorem mem_retrieve {p : κ × ρ → Bool} {request : ρ} {queues rest : ManualQueues κ ρ}
    (h : queues.retrieve p = some (request, rest)) :
    ∃ queue, p (queue, request) ∧ (queue, request) ∈ queues := by
  obtain ⟨queue, before, after, hp, rfl, -⟩ := retrieve_split h
  exact ⟨queue, hp, List.mem_append_right _ (List.mem_cons_self ..)⟩

/-- The entries that do not meet the condition are left alone. -/
theorem filter_retrieve {p q : κ × ρ → Bool} {request : ρ} {queues rest : ManualQueues κ ρ}
    (h : queues.retrieve p = some (request, rest)) (hq : ∀ e, p e = true → q e = false) :
    rest.filter q = queues.filter q := by
  obtain ⟨queue, before, after, hp, rfl, rfl⟩ := retrieve_split h
  rw [List.filter_append, List.filter_append, List.filter_cons_of_neg]
  rw [hq _ hp]
  exact Bool.false_ne_true

theorem retrieveFound_eq [DecidableEq κ] [DecidableEq ρ] {queues rest : ManualQueues κ ρ}
    {queue : κ} {request request' : ρ}
    (h : queues.retrieveFound queue request = some (request', rest)) : request' = request := by
  obtain ⟨queue', hfound, -⟩ := mem_retrieve h
  exact (Prod.mk.inj (of_decide_eq_true hfound)).2

/-- The requests purged are what has left the queues. -/
theorem weight_purge [DecidableEq κ] (f : ρ → Nat) (queue : κ) (queues : ManualQueues κ ρ) :
    queues.weight f = total f (queues.purge queue).1 + (queues.purge queue).2.weight f := by
  induction queues with
  | nil => rfl
  | cons e queues ih =>
    simp only [weight, purge, total_cons] at ih ⊢
    by_cases h : e.1 = queue <;> simp [h] at ih ⊢ <;> omega

end ManualQueues

end RpiDrivers.Lib
